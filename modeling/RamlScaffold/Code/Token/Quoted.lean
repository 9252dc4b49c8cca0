/-!
Strings: how they open, and how far their content goes.
-/

namespace RamlScaffold.Code

/-- How a string was opened. -/
structure Quoting where
  quote : Char
  triple : Bool
  raw : Bool
  bytes : Bool
  /-- Whether doubled braces and interpolations belong to the string. -/
  format : Bool
deriving DecidableEq, Repr

namespace Quoting

def openFrom (q : Quoting) : Nat → List Char → Option (Quoting × Nat)
  | _, [] => none
  | n, c :: rest =>
    if c == 'f' || c == 'F' || c == 't' || c == 'T' then
      openFrom { q with format := true } (n + 1) rest
    else if c == 'r' || c == 'R' then openFrom { q with raw := true } (n + 1) rest
    else if c == 'b' || c == 'B' then openFrom { q with bytes := true } (n + 1) rest
    else if c == 'u' || c == 'U' then openFrom q (n + 1) rest
    else if c == '\x60' then some ({ q with quote := c }, n + 1)
    else if c == '\'' || c == '"' then
      if rest.take 2 == [c, c] then some ({ q with quote := c, triple := true }, n + 3)
      else some ({ q with quote := c }, n + 1)
    else none

def open? (cs : List Char) : Option (Quoting × Nat) :=
  openFrom ⟨'\'', false, false, false, false⟩ 0 cs

/-- What stands at the start of the rest of a string. -/
inductive Content where
  /-- So many characters of plain content. -/
  | plain (length : Nat)
  | close (length : Nat)
  /-- No content: a brace or a backslash comes first, or a line that may not end here. -/
  | other
  /-- The text ends after so many characters. -/
  | endless (length : Nat)
deriving DecidableEq, Repr

def breakLength : List Char → Nat
  | '\r' :: '\n' :: _ => 2
  | '\n' :: _ => 1
  | '\r' :: _ => 1
  | _ => 0

/-- The length of what a backslash takes with it in a raw string: a quote or a backslash, and a
line break. -/
def rawEscapeLength (q : Quoting) (afterSlash : List Char) : Nat :=
  let stepped := if afterSlash.head? == some q.quote || afterSlash.head? == some '\\' then 1 else 0
  stepped + breakLength (afterSlash.drop stepped)

def contentOf (seen : Bool) (length : Nat) : Content := if seen then .plain length else .other

/-- Goes through the content of a string. What a backslash takes with it in a raw string does not
count as content that has been seen. In a string of bytes a name or a code point is no escape: its
letter and the character after it are content. The character zero ends the text. The string is at
most `fuel` characters long. -/
def contentFrom (q : Quoting) : Nat → List Char → Nat → Bool → Content
  | 0, _, length, _ => .endless length
  | fuel + 1, cs, length, seen =>
    match cs with
    | [] => .endless length
    | c :: rest =>
      if c == '\x00' then .endless length
      else if q.format && (c == '\x7b' || c == '\x7d') then contentOf seen length
      else if c == '\\' then
        if q.raw then
          let n := 1 + q.rawEscapeLength rest
          contentFrom q fuel (cs.drop n) (length + n) seen
        else if q.bytes && rest.head?.any (fun d => d == 'N' || d == 'u' || d == 'U') then
          contentFrom q fuel (cs.drop 3) (length + 3) true
        else contentOf seen length
      else if c == q.quote then
        if q.triple then
          match rest with
          | d :: e :: _ =>
            if d != c then .plain (length + 1)
            else if e != c then .plain (length + 2)
            else if seen then .plain length
            else .close (length + 3)
          | [d] => .plain (if d == c then length + 2 else length + 1)
          | [] => .plain (length + 1)
        else if seen then .plain length
        else .close (length + 1)
      else if c == '\n' && seen && !q.triple then .other
      else contentFrom q fuel rest (length + 1) true

end Quoting

/-- The length of what a backslash takes with it outside of raw strings; zero if it stands for
itself. -/
def escapeLength (afterSlash : List Char) : Nat :=
  let isHex (c : Char) : Bool := c.isDigit || ('a' ≤ c && c ≤ 'f') || ('A' ≤ c && c ≤ 'F')
  let coded (digits : Nat) (cs : List Char) : Nat :=
    let code := cs.take digits
    if code.length == digits && code.all isHex then 1 + digits else 0
  match afterSlash with
  | [] => 0
  | 'u' :: rest => coded 4 rest
  | 'U' :: rest => coded 8 rest
  | 'x' :: rest => coded 2 rest
  | '\n' :: _ => 1
  | '\r' :: '\n' :: _ => 2
  | 'N' :: '\x7b' :: rest =>
    let name := rest.takeWhile fun c => c != '\x7d' && c != '\x00'
    if name.isEmpty || (rest.drop name.length).head? != some '\x7d' then 0 else name.length + 3
  | c :: rest =>
    if c.isDigit then 1 + ((rest.take 2).takeWhile Char.isDigit).length
    else if "'\"abfrntv\\".toList.contains c then 1
    else 0

end RamlScaffold.Code

import RamlScaffold.Text.Number

/-!
Quoted strings, on one line and on several. Control characters other than tabs have to be escaped.
-/

namespace RamlScaffold.Toml

def isPrintable (c : Char) : Bool := c == '\t' || (0x20 ≤ c.toNat && c.toNat != 0x7F)

def codePoint? (n : Nat) (cs : List Char) : Option (Char × List Char) :=
  if cs.length < n then none
  else
    match Text.natOfDigits? 16 (cs.take n) with
    | some code => if code.isValidChar then some (Char.ofNat code, cs.drop n) else none
    | none => none

/-- The character that an escape spells, after its backslash, and the rest. -/
def escape? (cs : List Char) : Option (Char × List Char) :=
  match cs with
  | 'b' :: rest => some ('\x08', rest)
  | 't' :: rest => some ('\t', rest)
  | 'n' :: rest => some ('\n', rest)
  | 'f' :: rest => some ('\x0c', rest)
  | 'r' :: rest => some ('\r', rest)
  | 'e' :: rest => some ('\x1b', rest)
  | '"' :: rest => some ('"', rest)
  | '\\' :: rest => some ('\\', rest)
  | 'x' :: rest => codePoint? 2 rest
  | 'u' :: rest => codePoint? 4 rest
  | 'U' :: rest => codePoint? 8 rest
  | _ => none

def afterBreak? (cs : List Char) : Option (List Char) :=
  match cs with
  | '\n' :: rest => some rest
  | '\r' :: '\n' :: rest => some rest
  | _ => none

def line? (quote : Char) : Nat → List Char → List Char → Option (String × List Char)
  | 0, _, _ => none
  | fuel + 1, found, cs =>
    match cs with
    | [] => none
    | c :: rest =>
      if c == quote then some (.ofList found.reverse, rest)
      else if c == '\\' && quote == '"' then
        match escape? rest with
        | some (c, rest) => line? quote fuel (c :: found) rest
        | none => none
      else if isPrintable c then line? quote fuel (c :: found) rest
      else none

def skipBlankLines : List Char → List Char
  | ' ' :: rest => skipBlankLines rest
  | '\t' :: rest => skipBlankLines rest
  | '\n' :: rest => skipBlankLines rest
  | '\r' :: '\n' :: rest => skipBlankLines rest
  | cs => cs

/-- The text after a backslash that only blanks separate from the end of its line. -/
def continued? (cs : List Char) : Option (List Char) :=
  (afterBreak? (cs.dropWhile fun c => c == ' ' || c == '\t')).map skipBlankLines

/-- A string on several lines after its opening quotes, and the rest. Up to two quotes may stand
before the closing ones. -/
def lines? (quote : Char) : Nat → List Char → List Char → Option (String × List Char)
  | 0, _, _ => none
  | fuel + 1, found, cs =>
    match cs with
    | [] => none
    | c :: rest =>
      if c == quote then
        let quotes := (cs.takeWhile (· == quote)).length
        if quotes < 3 then lines? quote fuel (c :: found) rest
        else
          let extra := min (quotes - 3) 2
          some (.ofList (found.reverse ++ List.replicate extra quote), cs.drop (extra + 3))
      else if c == '\\' && quote == '"' then
        match continued? rest with
        | some rest => lines? quote fuel found rest
        | none =>
          match escape? rest with
          | some (c, rest) => lines? quote fuel (c :: found) rest
          | none => none
      else if c == '\n' then lines? quote fuel (c :: found) rest
      else if c == '\r' then
        match rest with
        | '\n' :: more => lines? quote fuel ('\n' :: '\r' :: found) more
        | _ => none
      else if isPrintable c then lines? quote fuel (c :: found) rest
      else none

/-- A string at the start of the text, and the rest. A line break right after the opening of
several lines does not count. -/
def string? (cs : List Char) : Option (String × List Char) :=
  match cs with
  | q :: rest =>
    if q == '"' || q == '\'' then
      if rest.take 2 == [q, q] then
        let body := rest.drop 2
        lines? q (body.length + 1) [] ((afterBreak? body).getD body)
      else line? q (rest.length + 1) [] rest
    else none
  | [] => none

end RamlScaffold.Toml

import RamlScaffold.Code.Token.Layout
import RamlScaffold.Code.Token.Number
import RamlScaffold.Text.Letter

/-!
The next terminal of a source text. What is looked for depends on which terminals can come next: of
the operators that fit, the longest possible one is taken, and a word is a keyword where it can be
one.
-/

namespace RamlScaffold.Code

def isSpace (c : Char) : Bool :=
  ('\t' ≤ c && c ≤ '\r') || c == ' ' || c == '\u200b' || c == '\u2060' || c == '\ufeff'

/-- What the text holds at a cursor. -/
inductive Piece where
  | terminal (t : Terminal) (length : Nat)
  | comment (length : Nat)
  | unknown

/-- The length of a backslash that continues a line; zero if it does not. -/
def continuationLength : List Char → Nat
  | '\\' :: '\n' :: _ => 2
  | '\\' :: '\r' :: '\n' :: _ => 3
  | '\\' :: '\x00' :: _ => 2
  | _ => 0

/-- A keyword where it can be one, or a name. Reserved words are no names. -/
def wordTerminal (valid : Terminal → Bool) (word : String) : Terminal :=
  let keyword := Terminal.fixed word
  if reservedWords.contains word then keyword
  else if softWords.contains word && valid keyword then keyword
  else .identifier

/-- The longest operator at the start that can come next; if none can, the longest one. -/
def operator? (valid : Terminal → Bool) (cs : List Char) : Option String :=
  let candidates := operators.filter fun op => op.toList.isPrefixOf cs
  match candidates with
  | [op] => some op
  | _ => (candidates.find? fun op => valid (.fixed op)).or candidates.head?

def pieceAt (valid : Terminal → Bool) (cs : List Char) : Piece :=
  match cs with
  | [] => .terminal .endOfText 0
  | c :: rest =>
    let operator : Piece :=
      match operator? valid cs with
      | some op => .terminal (.fixed op) op.length
      | none => .unknown
    if c == '#' then .comment (cs.takeWhile fun d => d != '\n' && d != '\x00').length
    else if c == '\\' then
      match continuationLength cs with
      | 0 => .unknown
      | length => .comment length
    else if Text.isIdentifierStart c then
      let word := c :: rest.takeWhile Text.isIdentifierRest
      .terminal (wordTerminal valid (.ofList word)) word.length
    else if c == '!' && rest.head?.any (fun d => 'a' ≤ d && d ≤ 'z') then .terminal .conversion 2
    else
      match number? cs with
      | some (t, length) => if c != '.' || valid t then .terminal t length else operator
      | none => operator

/-- The plain text of a format specification at the start. -/
def formatLength (cs : List Char) : Nat :=
  if continuationLength cs != 0 then 0
  else (cs.takeWhile fun c => c != '\x7b' && c != '\x7d' && c != '\n' && c != '\x00').length

/-- The piece behind white space, with the cursor where it starts. The text of a format
specification can start with white space. -/
def pieceFrom (valid : Terminal → Bool) (inFormat : Bool) : Nat → Cursor → Piece × Cursor
  | 0, cur => (.unknown, cur)
  | fuel + 1, cur =>
    let format := if inFormat then formatLength cur.rest else 0
    if format != 0 then (.terminal .formatText format, cur)
    else if cur.rest.head?.any isSpace then pieceFrom valid inFormat fuel (cur.skip 1)
    else (pieceAt valid cur.rest, cur)

/-- The piece at a cursor. A backslash in a string counts only where no white space comes first. -/
def piece (valid : Terminal → Bool) (inString : Bool) (fuel : Nat) (cur : Cursor) :
    Piece × Cursor :=
  let outside := pieceFrom valid (inString && valid .formatText) fuel cur
  match cur.rest with
  | '\\' :: rest =>
    if inString && valid .escape then
      match escapeLength rest with
      | 0 => (.terminal .backslash 1, cur)
      | length => (.terminal .escape (length + 1), cur)
    else outside
  | _ => outside

inductive Next where
  | terminal (scanned : Scanned)
  | comment (stop : Cursor)
  | unknown

def next (valid : Terminal → Bool) (fuel : Nat) (layout : Layout) (cur : Cursor) : Next :=
  match layout.scan valid fuel cur with
  | some scanned => .terminal scanned
  | none =>
    match piece valid (!layout.strings.isEmpty) fuel cur with
    | (.terminal t length, start) => .terminal ⟨t, start, start.skip length, layout⟩
    | (.comment length, start) => .comment (start.skip length)
    | (.unknown, _) => .unknown

end RamlScaffold.Code

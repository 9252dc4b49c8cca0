import RamlScaffold.Toml.Quoted
import RamlScaffold.Toml.Table

/-!
From text to tables. Arrays and tables in braces may go over several lines, with comments and a
comma at their end; only a key has to stay on its line.
-/

namespace RamlScaffold.Toml

def isBareChar (c : Char) : Bool := Text.isAlnum c || c == '_' || c == '-'

def isSpace (c : Char) : Bool := c == ' ' || c == '\t'

def skipSpace (cs : List Char) : List Char := cs.dropWhile isSpace

def keyPart? (cs : List Char) : Option (String × List Char) :=
  match cs with
  | [] => none
  | q :: rest =>
    if q == '"' || q == '\'' then line? q (rest.length + 1) [] rest
    else
      let name := cs.takeWhile isBareChar
      if name.isEmpty then none else some (.ofList name, cs.dropWhile isBareChar)

/-- How deep arrays and tables in braces may be nested, and of how many parts a key may be. -/
def maxDepth : Nat := 80

/-- A key of at most `room` parts with dots between them, and the rest after blanks. -/
def keyFrom? : Nat → List Char → Option (List String × List Char)
  | 0, _ => none
  | room + 1, cs =>
    match keyPart? (skipSpace cs) with
    | none => none
    | some (part, rest) =>
      match skipSpace rest with
      | '.' :: more => (keyFrom? room more).map fun (parts, rest) => (part :: parts, rest)
      | rest => some ([part], rest)

def key? (cs : List Char) : Option (List String × List Char) := keyFrom? maxDepth cs

/-- The rest of the text after a comment, if there is one; none for a comment with control
characters. -/
def afterComment? (cs : List Char) : Option (List Char) :=
  match cs with
  | '#' :: rest =>
    let after := rest.dropWhile isPrintable
    if after.isEmpty || (afterBreak? after).isSome then some after else none
  | _ => some cs

def skipGaps : Nat → List Char → Option (List Char)
  | 0, cs => some cs
  | fuel + 1, cs =>
    match afterComment? (skipSpace cs) with
    | none => none
    | some rest =>
      match afterBreak? rest with
      | some rest => skipGaps fuel rest
      | none => some rest

def endsAtom (c : Char) : Bool :=
  c == ' ' || c == '\t' || c == '\n' || c == '\r' || c == ',' || c == ']' || c == '\x7d' || c == '#'
    || c == '='

/-- A scalar without quotes, and the rest. A blank may stand between a date and a time. -/
def atom? (cs : List Char) : Option (Scalar × List Char) :=
  let first := cs.takeWhile fun c => !endsAtom c
  let rest := cs.dropWhile fun c => !endsAtom c
  let joined : List Char × List Char :=
    match rest with
    | ' ' :: d :: more =>
      if date? first == some [] && Text.isDigit d then
        let second := (d :: more).takeWhile fun c => !endsAtom c
        (first ++ ' ' :: second, (d :: more).dropWhile fun c => !endsAtom c)
      else (first, rest)
    | _ => (first, rest)
  (Scalar.ofAtom? joined.1).map (·, joined.2)

/-- What is being read. -/
inductive Goal where
  | value
  /-- Items of an array after its opening or after a comma. -/
  | items
  /-- Entries of a table in braces after its opening or after a comma. -/
  | entries (before : Table)

/-- Reads a value or a part of one, and gives the rest. `room` is the nesting that is left. -/
def read? : Nat → Nat → Goal → List Char → Option (Item × List Char)
  | 0, _, _, _ => none
  | fuel + 1, room, .value, cs =>
    match cs with
    | '[' :: rest => if room == 0 then none else read? fuel (room - 1) .items rest
    | '\x7b' :: rest => if room == 0 then none else read? fuel (room - 1) (.entries []) rest
    | c :: _ =>
      if c == '"' || c == '\'' then (string? cs).map fun (s, rest) => (.scalar (.text s), rest)
      else (atom? cs).map fun (s, rest) => (.scalar s, rest)
    | [] => none
  | fuel + 1, room, .items, cs => do
    match ← skipGaps fuel cs with
    | ']' :: rest => return (.list [], rest)
    | cs =>
      let (item, rest) ← read? fuel room .value cs
      match ← skipGaps fuel rest with
      | ']' :: rest => return (.list [item], rest)
      | ',' :: rest =>
        match ← read? fuel room .items rest with
        | (.list items, rest) => return (.list (item :: items), rest)
        | _ => none
      | _ => none
  | fuel + 1, room, .entries before, cs => do
    match ← skipGaps fuel cs with
    | '\x7d' :: rest => return (.inlineTable before, rest)
    | cs =>
      let (key, rest) ← key? cs
      let rest ← skipGaps fuel (← after? '=' (← skipGaps fuel rest))
      let (item, rest) ← read? fuel room .value rest
      let t ← Table.assign item key false false before
      match ← skipGaps fuel rest with
      | '\x7d' :: rest => return (.inlineTable t, rest)
      | ',' :: rest => read? fuel room (.entries t) rest
      | _ => none

def endOfLine? (cs : List Char) : Option (List Char) :=
  match afterComment? (skipSpace cs) with
  | none => none
  | some [] => some []
  | some rest => afterBreak? rest

def header? (cs : List Char) : Option (Statement × List Char) :=
  match cs with
  | '[' :: rest => do
    let (path, rest) ← key? rest
    return (.rowHeader path, ← endOfLine? (← after? ']' (← after? ']' rest)))
  | _ => do
    let (path, rest) ← key? cs
    return (.header path, ← endOfLine? (← after? ']' rest))

def assignment? (fuel : Nat) (cs : List Char) : Option (Statement × List Char) := do
  let (key, rest) ← key? cs
  let (item, rest) ← read? fuel maxDepth .value (skipSpace (← after? '=' rest))
  return (.assign key item, ← endOfLine? rest)

def statements? : Nat → List Char → Option (List Statement)
  | 0, _ => none
  | fuel + 1, cs =>
    match skipGaps fuel cs with
    | none => none
    | some [] => some []
    | some cs => do
      let (statement, rest) ←
        match cs with
        | '[' :: rest => header? rest
        | _ => assignment? fuel cs
      return statement :: (← statements? fuel rest)

/-- The table that a text spells. A byte order mark at the start does not count. -/
def parse? (text : String) : Option Table :=
  let cs :=
    match text.toList with
    | '\ufeff' :: rest => rest
    | cs => cs
  (statements? (2 * cs.length + 2) cs).bind Table.ofStatements?

end RamlScaffold.Toml

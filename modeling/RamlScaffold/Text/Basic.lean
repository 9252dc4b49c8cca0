/-!
Cutting and joining text. Everything is stated on lists of characters, so that the cuts have
simple laws; the `String` forms only wrap them.
-/

namespace RamlScaffold.Text

/-- The pieces between the occurrences of `sep`; never empty. -/
def cutAt (sep : Char) : List Char → List (List Char)
  | [] => [[]]
  | c :: rest =>
    if c == sep then [] :: cutAt sep rest
    else
      match cutAt sep rest with
      | [] => [[c]]
      | piece :: pieces => (c :: piece) :: pieces

def splitOn (sep : Char) (s : String) : List String :=
  (cutAt sep s.toList).map String.ofList

def joinWith (sep : String) : List String → String
  | [] => ""
  | [s] => s
  | s :: rest => s ++ sep ++ joinWith sep rest

def concat : List String → String
  | [] => ""
  | s :: rest => s ++ concat rest

def startsWith (part s : String) : Bool :=
  part.toList.isPrefixOf s.toList

def endsWith (part s : String) : Bool :=
  part.toList.isSuffixOf s.toList

/-- The text after `part`, when the text starts with it. -/
def dropStart? (part s : String) : Option String :=
  if startsWith part s then some (.ofList (s.toList.drop part.toList.length)) else none

def dropEnd? (part s : String) : Option String :=
  if endsWith part s then
    some (.ofList (s.toList.take (s.toList.length - part.toList.length)))
  else none

/-- Whether `part` stands anywhere in the characters. -/
def hasInfix (part : List Char) : List Char → Bool
  | [] => part.isEmpty
  | c :: rest => part.isPrefixOf (c :: rest) || hasInfix part rest

def contains (part s : String) : Bool :=
  hasInfix part.toList s.toList

/-- Each character replaced by the text that `f` gives for it. -/
def mapChars (f : Char → List Char) (s : String) : String :=
  .ofList (s.toList.flatMap f)

/-- The lines of a text: cut at line feeds, one carriage return before each dropped, and no empty
line after a final line feed. -/
def lines (s : String) : List String :=
  let pieces := cutAt '\n' s.toList
  let last := pieces.getLast?.getD []
  let body := pieces.dropLast.map fun piece =>
    if piece.getLast? == some '\r' then piece.dropLast else piece
  (if last.isEmpty then body else body ++ [last]).map String.ofList

def padRight (width : Nat) (s : String) : String :=
  s ++ String.ofList (List.replicate (width - s.toList.length) ' ')

end RamlScaffold.Text

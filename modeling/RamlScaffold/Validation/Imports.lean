import RamlScaffold.Document.Value
import RamlScaffold.Text.Basic
import RamlScaffold.Text.Blank
import RamlScaffold.Text.Letter

/-!
Imports between the modules of a set of files. Imports are read line by line from the text, so a
line inside a string counts as well. Only imports whose first segment is a package or module of the
set are judged.
-/

namespace RamlScaffold

abbrev ModuleName := List String

namespace ModuleName

def ofText (text : String) : ModuleName := Text.splitOn '.' text

/-- The module that a path holds; a package is named for its directory. -/
def ofPath? (path : String) : Option ModuleName :=
  match Text.dropEnd? ".py" path with
  | none => none
  | some stem =>
    let stem := (Text.dropEnd? "/__init__" stem).getD stem
    if stem == "" || stem == "__init__" then none
    else some (ofText (Text.mapChars (fun c => if c == '/' then ['.'] else [c]) stem))

def text (name : ModuleName) : String := Text.joinWith "." name

def enclosing (name : ModuleName) : List ModuleName :=
  (List.range name.length).map fun n => name.take (n + 1)

end ModuleName

/-- The modules and packages of a set of files. -/
structure ModuleIndex where
  modules : List ModuleName
deriving Repr

namespace ModuleIndex

def ofPaths (paths : List String) : ModuleIndex :=
  ⟨(paths.filterMap ModuleName.ofPath?).flatMap ModuleName.enclosing⟩

def provides (index : ModuleIndex) (name : ModuleName) : Bool := index.modules.contains name

/-- Whether the first segment of a name is one of the set. -/
def isLocal (index : ModuleIndex) (name : ModuleName) : Bool := index.provides (name.take 1)

/-- Whether a name should be in the set and is not. -/
def lacks (index : ModuleIndex) (name : ModuleName) : Bool :=
  index.isLocal name && !index.provides name

end ModuleIndex

inductive ImportLine where
  /-- The target of a `from` import: leading dots and a dotted name. -/
  | fromTarget (dots : Nat) (name : String)
  | plain (names : List String)
deriving DecidableEq, Repr

namespace ImportLine

def afterWord? (word : String) (cs : List Char) : Option (List Char) :=
  if word.toList.isPrefixOf cs then some (cs.drop word.toList.length) else none

def afterBlanks? (cs : List Char) : Option (List Char) :=
  match cs with
  | c :: rest => if Text.isBlank c then some (rest.dropWhile Text.isBlank) else none
  | [] => none

def isNameStart (c : Char) : Bool :=
  c == '_' || ('a' ≤ c && c ≤ 'z') || ('A' ≤ c && c ≤ 'Z')

def isNameRest (c : Char) : Bool := Text.isWord c || c == '.'

def dottedName? (cs : List Char) : Option (String × List Char) :=
  match cs with
  | c :: rest =>
    if isNameStart c then
      some (.ofList (c :: rest.takeWhile isNameRest), rest.dropWhile isNameRest)
    else none
  | [] => none

/-- The target of a `from` import and the rest of the text: dots, a name, or both. -/
def target? (cs : List Char) : Option (ImportLine × List Char) :=
  let dots := (cs.takeWhile (· == '.')).length
  let rest := cs.dropWhile (· == '.')
  match dottedName? rest with
  | some (name, rest) => some (.fromTarget dots name, rest)
  | none => if dots == 0 then none else some (.fromTarget dots "", rest)

/-- A `from` import. A blank has to follow the second keyword. -/
def from? (cs : List Char) : Option ImportLine := do
  let cs ← afterBlanks? (← afterWord? "from" cs)
  let (line, cs) ← target? cs
  let cs ← afterWord? "import" (← afterBlanks? cs)
  let _ ← afterBlanks? cs
  return line

def moreNames : Nat → List Char → List String
  | 0, _ => []
  | fuel + 1, cs =>
    match cs.dropWhile Text.isBlank with
    | ',' :: rest =>
      match dottedName? (rest.dropWhile Text.isBlank) with
      | some (name, rest) => name :: moreNames fuel rest
      | none => []
    | _ => []

/-- A plain import. Names after an alias are not read. -/
def plain? (cs : List Char) : Option ImportLine := do
  let cs ← afterBlanks? (← afterWord? "import" cs)
  let (name, cs) ← dottedName? cs
  return .plain (name :: moreNames cs.length cs)

def ofLine? (line : String) : Option ImportLine :=
  let cs := line.toList.dropWhile Text.isBlank
  match from? cs with
  | some found => some found
  | none => plain? cs

/-- The target of a `from` import as it is written. -/
def targetText (dots : Nat) (name : String) : String :=
  .ofList (List.replicate dots '.') ++ name

/-- The module that a `from` import refers to inside a package: each dot but the first goes up one
level. Too many dots refer to nothing. -/
def resolve? (package : List String) (dots : Nat) (name : String) : Option ModuleName :=
  if dots == 0 then some (ModuleName.ofText name)
  else if dots > package.length then none
  else
    let base := package.take (package.length + 1 - dots)
    some (ModuleName.ofText (Text.joinWith "." (if name == "" then base else base ++ [name])))

/-- What a line imports from the set and does not find there, as it is written. -/
def missing (index : ModuleIndex) (package : List String) : ImportLine → List String
  | .fromTarget dots name =>
    match resolve? package dots name with
    | some module => if index.lacks module then [targetText dots name] else []
    | none => [targetText dots name]
  | .plain names => names.filter fun name => index.lacks (ModuleName.ofText name)

end ImportLine

namespace ModuleIndex

/-- The imports of a file that the set should provide and does not, in order. -/
def unresolved (index : ModuleIndex) (path source : String) : List String :=
  let package := (Text.splitOn '/' path).dropLast
  (Text.lines source).flatMap fun line =>
    match ImportLine.ofLine? line with
    | some found => found.missing index package
    | none => []

end ModuleIndex

end RamlScaffold

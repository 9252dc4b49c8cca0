import RamlScaffold.Spec.Build
import RamlScaffold.Storage.FileSystem
import RamlScaffold.Text.Tabs
import RamlScaffold.Yaml.Node

/-!
Includes. A directive names a file; it is looked for in a fixed list of places, and its content
takes the place of the directive. A directive that finds nothing, or that would expand a file
inside its own expansion, becomes a placeholder. Expansion ends because a chain of files being
expanded never holds a file twice.
-/

namespace RamlScaffold.Include

def directiveTag : String := "include"

def tabWidth : Nat := 2

/-- Where a directive looks, in order: the project directory and two directories for types, each
with the name as written and with an extension. -/
def candidates (directory name : String) : List String :=
  let extended := name ++ ".raml"
  [Path.join directory name, Path.join directory extended]
    ++ ["datatypes", "types"].flatMap fun sub =>
      [Path.join (Path.join directory sub) name, Path.join (Path.join directory sub) extended]

/-- Whether a name refers to a type rather than to text. -/
def isTypeName (name : String) : Bool :=
  let lower := Text.lowerAscii name
  Text.endsWith ".raml" lower || Text.contains "datatype" lower || Text.contains "types/" lower

/-- What stands for a directive that cannot be expanded. -/
def placeholder (name : String) : Value :=
  if isTypeName name then
    .map [("type", .text "object"), ("properties", .map []),
      ("description", .text ("Included from " ++ name))]
  else .text "string"

/-- What stands for a file that is not well-formed. -/
def faultValue (fileName : String) (fault : Yaml.Fault) : Value :=
  let note := "Included from " ++ fileName ++ " (parsing error: " ++ fault.message ++ ")"
  .map [("type", .text "object"), ("description", .text note)]

/-- Whether a file holds a document rather than text, by its extension. -/
def isDocument (path : String) : Bool :=
  match Path.extension? path with
  | some e => e == "raml" || e == "yaml" || e == "yml"
  | none => false

/-- The first candidate that is a readable file, with its text. -/
def firstReadable? (fs : FileSystem) : List String → Option (String × String)
  | [] => none
  | path :: rest =>
    if fs.hasFile path then
      match fs.read path with
      | .ok text => some (path, text)
      | .error _ => firstReadable? fs rest
    else firstReadable? fs rest

mutual

/-- The value of a node, with `expand` for the directives in it. Tags other than the directive's
leave the value as it is; a directive without a name is null. -/
def resolve (expand : String → Value) : Yaml.Node → Value
  | .null => .null
  | .bool b => .bool b
  | .number n => .number n
  | .text s => .text s
  | .list items => .list (resolveItems expand items)
  | .map fields => .map (resolveFields expand fields)
  | .tagged tag node =>
    if tag == directiveTag then
      match node with
      | .text name => expand (Text.trim name)
      | _ => .null
    else resolve expand node
termination_by structural n => n

def resolveItems (expand : String → Value) : List Yaml.Node → List Value
  | [] => []
  | n :: rest => resolve expand n :: resolveItems expand rest
termination_by structural ns => ns

def resolveFields (expand : String → Value) : List (String × Yaml.Node) → List (String × Value)
  | [] => []
  | (k, n) :: rest => (k, resolve expand n) :: resolveFields expand rest
termination_by structural fs => fs

end

mutual

def directives : Yaml.Node → List String
  | .null => []
  | .bool _ => []
  | .number _ => []
  | .text _ => []
  | .list items => directivesOfItems items
  | .map fields => directivesOfFields fields
  | .tagged tag node =>
    if tag == directiveTag then
      match node with
      | .text name => [Text.trim name]
      | _ => []
    else directives node
termination_by structural n => n

def directivesOfItems : List Yaml.Node → List String
  | [] => []
  | n :: rest => directives n ++ directivesOfItems rest
termination_by structural ns => ns

def directivesOfFields : List (String × Yaml.Node) → List String
  | [] => []
  | (_, n) :: rest => directives n ++ directivesOfFields rest
termination_by structural fs => fs

end

/-- The names that a text asks for when it is read as a document. -/
def directivesOfText [Yaml.EventSource] (text : String) : List String :=
  match Yaml.read text with
  | .ok node => directives node
  | .error _ => []

/-- The value of a directive, at most `levels` files deep, inside the files of `chain`. -/
def expand [Yaml.EventSource] (fs : FileSystem) (directory : String) :
    Nat → List Location → String → Value
  | 0, _, name => placeholder name
  | levels + 1, chain, name =>
    match firstReadable? fs (candidates directory name) with
    | none => placeholder name
    | some (path, raw) =>
      let location := (fs.locate path).toOption.getD []
      if chain.contains location then placeholder name
      else
        let text := Text.expandTabs tabWidth raw
        if isDocument path then
          match Yaml.read text with
          | .ok node => resolve (expand fs directory levels (location :: chain)) node
          | .error fault => faultValue ((Path.fileName? path).getD name) fault
        else .text text

/-- Where directives are looked for: nowhere, or in a directory of a file system. -/
structure Project where
  files : FileSystem
  directory : String

/-- The value of a directive in a document of a project. -/
def expandIn [Yaml.EventSource] : Option Project → String → Value
  | none, name => placeholder name
  | some project, name =>
    expand project.files project.directory (project.files.files.length + 1) [] name

end RamlScaffold.Include

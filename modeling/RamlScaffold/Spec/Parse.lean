import RamlScaffold.Spec.Include

/-!
From the text of an API description to the description itself, and from a file to the text.
-/

namespace RamlScaffold.Spec

inductive RootKind where
  | null
  | boolean
  | number
  | string
  | sequence
  | emptyDocument
  | directive
deriving DecidableEq, Repr

def RootKind.text : RootKind → String
  | .null => "null"
  | .boolean => "boolean"
  | .number => "number"
  | .string => "string"
  | .sequence => "sequence"
  | .emptyDocument => "empty document"
  | .directive => "include directive"

inductive ParseFault where
  /-- The root is not a mapping. -/
  | format (found : RootKind)
  | unreadable (fault : Yaml.Fault)
  | file (path : String) (fault : PathFault)
deriving DecidableEq, Repr

def ParseFault.message : ParseFault → String
  | .format found => "Invalid RAML format: root element must be a mapping, found " ++ found.text
  | .unreadable fault =>
    match fault.place? with
    | some place =>
      "Invalid YAML syntax at line " ++ toString (place.line + 1) ++ ", column "
        ++ toString (place.column + 1) ++ ": " ++ fault.message
    | none => "Invalid YAML syntax: " ++ fault.message
  | .file path fault => "Failed to read " ++ path ++ ": " ++ fault.message

/-- The fields at the root of a document. Tags on the root are passed over, but a directive there
is refused. -/
def rootFields : Yaml.Node → Except RootKind (List (String × Yaml.Node))
  | .map fields => .ok fields
  | .tagged tag node => if tag == Include.directiveTag then .error .directive else rootFields node
  | .null => .error .null
  | .bool _ => .error .boolean
  | .number _ => .error .number
  | .text _ => .error .string
  | .list _ => .error .sequence

/-- The API description that a text holds. The project only serves to find included files. -/
def parse [Yaml.EventSource] (text : String) (project : Option Include.Project) :
    Except ParseFault Specification :=
  if (Text.trim text) == "" then .error (.format .emptyDocument)
  else
    match Yaml.read text with
    | .error fault => .error (.unreadable fault)
    | .ok node =>
      match rootFields node with
      | .error kind => .error (.format kind)
      | .ok fields => .ok (ofFields (Include.resolveFields (Include.expandIn project) fields))

/-- The directory whose files a description may include: the one that holds it. -/
def projectDirectory (path : String) : String :=
  match Path.parent? path with
  | none => "."
  | some directory => if directory == "" then "." else directory

/-- The name of a description by its file: the stem in lower case, with an underscore for all but
ASCII letters, digits and hyphens and none at either end. -/
def nameOfPath (path : String) : String :=
  let stem := Text.lower ((Path.stem? path).getD "")
  let slug := Text.trimChar '_' (Text.mapChars (fun c =>
    if Text.isAlnum c || c == '-' then [c] else ['_']) stem)
  if slug == "" then "api" else slug

/-- The text of a description, with a name for it and the directory of its included files. -/
structure Source where
  name : String
  text : String
  directory : Option String
deriving DecidableEq, Repr

namespace Source

def ofPath (fs : FileSystem) (path : String) : Except ParseFault Source :=
  match fs.read path with
  | .ok text => .ok ⟨nameOfPath path, text, some (projectDirectory path)⟩
  | .error fault => .error (.file path fault)

def project (source : Source) (fs : FileSystem) : Option Include.Project :=
  source.directory.map fun directory => ⟨fs, directory⟩

def parse [Yaml.EventSource] (source : Source) (fs : FileSystem) :
    Except ParseFault Specification :=
  Spec.parse source.text (source.project fs)

end Source

def load [Yaml.EventSource] (fs : FileSystem) (path : String) :
    Except ParseFault Specification := do
  (← Source.ofPath fs path).parse fs

end RamlScaffold.Spec

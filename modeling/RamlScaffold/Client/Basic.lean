import RamlScaffold.Artifact.Settings
import RamlScaffold.Artifact.Source
import RamlScaffold.Route.Group

/-!
What the artifacts of a client library are made from.
-/

namespace RamlScaffold.Client

def defaultHost : String := "http://localhost:5000"

/-- Every occurrence of `part`, from the left, replaced by another text. `fuel` bounds the steps. -/
def replaceAll (part replacement : List Char) : Nat → List Char → List Char
  | 0, cs => cs
  | _, [] => []
  | fuel + 1, c :: rest =>
    if part.isPrefixOf (c :: rest) then
      replacement ++ replaceAll part replacement fuel ((c :: rest).drop part.length)
    else c :: replaceAll part replacement fuel rest

def versionMark : List Char := "\x7bversion\x7d".toList

/-- The URL that requests start with: the base URI with its version put in and without slashes at
the end, below the default host when it is not absolute. -/
def baseUrl (baseUri version : String) : String :=
  let filled := replaceAll versionMark version.toList baseUri.toList.length baseUri.toList
  let uri := Text.trimTailChar '/' (.ofList filled)
  if Text.startsWith "http://" uri || Text.startsWith "https://" uri then uri
  else if uri == "" then defaultHost
  else defaultHost ++ "/" ++ Text.trimHeadChar '/' uri

/-- Whether a text is a list of numbers with points between them. -/
def isRelease (s : String) : Bool :=
  (Text.splitOn '.' s).all fun part => part != "" && part.toList.all Text.isDigit

/-- The release number of a package: the version of the document without a leading `v`, or a
first release when that is no release number. -/
def packageVersion (version : String) : String :=
  let bare :=
    match (Text.trim version).toList with
    | 'v' :: rest => String.ofList rest
    | 'V' :: rest => String.ofList rest
    | cs => String.ofList cs
  if isRelease bare then bare else "0.1.0"

/-- A data class for a declared type. -/
structure Model where
  className : String
  description : String
  fields : List Field
deriving DecidableEq, Repr

namespace Model

/-- Names that the module of data classes has already. -/
def taken : List String := ["Any", "Optional", "dataclass"]

/-- The data classes for declared types, with distinct names. -/
def ofTypes (seen : List String) : List TypeDef → List Model
  | [] => []
  | t :: rest =>
    let className := Naming.fresh seen (GroupName.derive t.name).pascal
    ⟨className, t.description, Field.ofProperties t.properties t.required⟩
      :: ofTypes (className :: seen) rest

/-- What the data class stands for: its description, else its name. -/
def summary (m : Model) : String := if m.description == "" then m.className else m.description

end Model

/-- A call in the usage example. -/
structure ExampleCall where
  accessor : String
  operation : String
  args : String
deriving DecidableEq, Repr

/-- The first reading operation of a group, called with sample values. -/
def exampleCall? (g : Group) : Option ExampleCall :=
  (g.operations.find? fun (_, op) => op.verb == .get).map fun (e, op) =>
    ⟨g.name.camel, op.name, Text.joinWith ", " (e.params.map RouteParam.sample)⟩

/-- The name of the aggregate class: the preferred one, unless the client of a group has it. -/
def aggregateName (preferred : String) (groups : List Group) : String :=
  if groups.any fun g => g.name.pascal ++ "Client" == preferred then preferred ++ "Api"
  else preferred

structure Context where
  settings : ClientSettings
  spec : Specification
  groups : List Group

namespace Context

/-- The context of a description. A client keeps the URIs whole, so no version is dropped. -/
def ofSpecification (settings : ClientSettings) (spec : Specification) : Context :=
  ⟨settings, spec, Group.ofSpecification spec ""⟩

def package (c : Context) : String := c.settings.package

def distribution (c : Context) : String :=
  Text.mapChars (fun ch => if ch == '_' then ['-'] else [ch]) c.package

def className (c : Context) : String := aggregateName c.settings.className c.groups

def baseUrl (c : Context) : String := Client.baseUrl c.spec.baseUri c.spec.version

def packageVersion (c : Context) : String := Client.packageVersion c.spec.version

def models (c : Context) : List Model := Model.ofTypes Model.taken c.spec.types

/-- What the package is: the description of the document, else a client for its title. -/
def summary (c : Context) : String :=
  if c.spec.description == "" then c.spec.title ++ " client" else c.spec.description

def examples (c : Context) : List ExampleCall := c.groups.filterMap exampleCall?

end Context

end RamlScaffold.Client

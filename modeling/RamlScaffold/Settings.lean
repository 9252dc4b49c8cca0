import RamlScaffold.Artifact.Settings
import RamlScaffold.Storage.FileSystem
import RamlScaffold.Toml.Reader

/-!
Settings of a run: defaults, what a settings file says, and what the command line overrides.
-/

namespace RamlScaffold

structure Settings where
  server : ServerSettings
  /-- Whether a client library is made beside each server. -/
  generateClient : Bool
deriving DecidableEq, Repr

namespace Settings

def default : Settings := ⟨.default, false⟩

def fileName : String := "apiforge.toml"

def text? (default : String) : Option Toml.Item → Option String
  | none => some default
  | some (.scalar (.text s)) => some s
  | some _ => none

def bool? (default : Bool) : Option Toml.Item → Option Bool
  | none => some default
  | some (.scalar (.bool b)) => some b
  | some _ => none

def serverOf? (lookup : String → Option Toml.Item) : Option ServerSettings := do
  let base := ServerSettings.default
  return {
    appName := ← text? base.appName (lookup "app_name")
    apiVersion := ← text? base.apiVersion (lookup "api_version")
    includeAuth := ← bool? base.includeAuth (lookup "include_auth")
    includeCors := ← bool? base.includeCors (lookup "include_cors")
    generateTests := ← bool? base.generateTests (lookup "generate_tests") }

/-- The order in which a list gives server settings. -/
def serverNames : List String :=
  ["app_name", "api_version", "include_auth", "include_cors", "generate_tests"]

def serverIn? (fields : Toml.Table) : Option ServerSettings :=
  if Toml.Item.fieldsHeld fields then serverOf? fun name => Fields.get? name fields else none

/-- Server settings: a table by name, or a list by position, of which only the start is looked at. A
date or a time counts as a table without names that are known. -/
def server? : Option Toml.Item → Option ServerSettings
  | none => some .default
  | some (.table _ _ fields) => serverIn? fields
  | some (.inlineTable fields) => serverIn? fields
  | some (.list items) => serverOf? fun name => items[serverNames.idxOf name]?
  | some (.scalar .dateTime) => some .default
  | some _ => none

/-- The settings in a table. Names that are not known do not count, but a number under them has to
be one that can be held. -/
def ofTable? (table : Toml.Table) : Option Settings :=
  if Toml.Item.fieldsHeld (table.filter (·.1 != "server")) then do
    return {
      server := ← server? (Fields.get? "server" table)
      generateClient := ← bool? default.generateClient (Fields.get? "generate_client" table) }
  else none

inductive Fault where
  | notFound (path : String)
  | unreadable (path : String)
  | malformed (path : String)
deriving DecidableEq, Repr

def Fault.message : Fault → String
  | .notFound path => "Config file not found: " ++ path
  | .unreadable path => "Failed to read config: " ++ path
  | .malformed path => "Failed to parse config: " ++ path

/-- The settings in a file; none when nothing is there. -/
def load (fs : FileSystem) (path : String) : Except Fault (Option Settings) :=
  if !fs.reaches path then .ok none
  else
    match fs.read path with
    | .error _ => .error (.unreadable path)
    | .ok text =>
      match (Toml.parse? text).bind ofTable? with
      | some settings => .ok (some settings)
      | none => .error (.malformed path)

def detect? (fs : FileSystem) (specPath : String) : Option String :=
  match Path.parent? specPath with
  | none => none
  | some directory =>
    let path := Path.join directory fileName
    if fs.hasFile path then some path else none

/-- The settings of a run: those of a file that is named, which has to be there, or else of one
beside the first description, or else the defaults. -/
def resolve (fs : FileSystem) (named firstSpec : Option String) : Except Fault Settings :=
  match named with
  | some path =>
    match load fs path with
    | .ok (some settings) => .ok settings
    | .ok none => .error (.notFound path)
    | .error fault => .error fault
  | none =>
    match firstSpec.bind (detect? fs) with
    | some path => (load fs path).map fun found => found.getD default
    | none => .ok default

/-- What the command line can override. Switches only turn a part off, or the client on. -/
structure Overrides where
  appName : Option String
  apiVersion : Option String
  noAuth : Bool
  noCors : Bool
  noTests : Bool
  client : Bool
deriving DecidableEq, Repr

def Overrides.empty : Overrides := ⟨none, none, false, false, false, false⟩

/-- The settings with what the command line says put in. -/
def override (s : Settings) (o : Overrides) : Settings where
  server := {
    appName := o.appName.getD s.server.appName
    apiVersion := o.apiVersion.getD s.server.apiVersion
    includeAuth := s.server.includeAuth && !o.noAuth
    includeCors := s.server.includeCors && !o.noCors
    generateTests := s.server.generateTests && !o.noTests }
  generateClient := s.generateClient || o.client

end Settings

end RamlScaffold

import RamlScaffold.Batch
import RamlScaffold.Command.Basic
import RamlScaffold.Route.Group

/-!
Running a command: what it prints, what it leaves in the file system, and how it fails.
-/

namespace RamlScaffold

structure Effect where
  /-- Lines for the standard output. -/
  printed : List String
  /-- Lines for the standard error. -/
  reported : List String
  failure : Option String
  fileSystem : FileSystem

namespace Command

/-- All that the commands depend on besides the file system. -/
structure Tools where
  check : SourceCheck
  backend : Batch.ClientBackend

/-- The descriptions at some paths, and the failures of those that cannot be read. -/
def sources (fs : FileSystem) : List String → List Spec.Source × List Batch.Failure
  | [] => ([], [])
  | path :: rest =>
    let (found, failures) := sources fs rest
    match Spec.Source.ofPath fs path with
    | .ok source => (source :: found, failures)
    | .error fault => (found, ⟨Spec.nameOfPath path, .parse, .unparsed fault⟩ :: failures)

/-- The batch over some paths. Those that cannot be read fail after all others. -/
def batch [Yaml.EventSource] (tools : Tools) (fs : FileSystem) (specs : List String)
    (settingsFile : Option String) (overrides : Settings.Overrides) :
    Except Settings.Fault Batch.Outcome := do
  let settings ← Settings.resolve fs settingsFile specs.head?
  let (found, unreadable) := sources fs specs
  let outcome := Batch.run ⟨fs, settings.override overrides, tools.check, tools.backend⟩ found
  return { outcome with failures := outcome.failures ++ unreadable }

def failureLine (f : Batch.Failure) : String := "❌ " ++ f.text

/-- What is said of the failures of a batch. -/
def verdict (outcome : Batch.Outcome) : Option String :=
  if outcome.isSuccess then none
  else some (toString outcome.failures.length ++ " specification(s) failed")

inductive WriteFault where
  | directory (path : String)
  | file (path : String)
deriving DecidableEq, Repr

def WriteFault.message : WriteFault → String
  | .directory path => "Failed to create directory: " ++ path
  | .file path => "Failed to write file: " ++ path

def ensureDirectory (fs : FileSystem) (path : String) : Except WriteFault FileSystem :=
  match fs.makeDirectories (path.length + 1) path with
  | .ok fs => .ok fs
  | .error _ => .error (.directory path)

/-- Writes a file and makes the directory it is in. A directory that was made stays, also when the
file cannot be written. -/
def writeFile (output : String) (entry : String × String) (fs : FileSystem) :
    Option WriteFault × FileSystem :=
  let path := Path.join output entry.1
  let ready := match Path.parent? path with
    | some directory => ensureDirectory fs directory
    | none => .ok fs
  match ready with
  | .error fault => (some fault, fs)
  | .ok fs =>
    match fs.write path entry.2 with
    | .ok fs => (none, fs)
    | .error _ => (some (.file path), fs)

/-- Writes files up to the first that cannot be written. -/
def writeFiles (output : String) : Files → FileSystem → Option WriteFault × FileSystem
  | [], fs => (none, fs)
  | entry :: rest, fs =>
    match writeFile output entry fs with
    | (none, fs) => writeFiles output rest fs
    | failed => failed

def runGenerate [Yaml.EventSource] (tools : Tools) (fs : FileSystem) (c : GenerateCommand) :
    Effect :=
  match batch tools fs c.specs c.settingsFile c.overrides with
  | .error fault => ⟨[], [], some fault.message, fs⟩
  | .ok outcome =>
    let reported := outcome.failures.map failureLine
    if c.dryRun then
      ⟨outcome.files.paths.map (Path.join c.output), reported, verdict outcome, fs⟩
    else
      match writeFiles c.output outcome.files fs with
      | (some fault, fs) => ⟨[], [], some fault.message, fs⟩
      | (none, fs) =>
        let count := toString outcome.files.length
        ⟨["✅ Wrote " ++ count ++ " file(s) to " ++ c.output], reported, verdict outcome, fs⟩

def warningLine (w : Finding) : String := "⚠️  " ++ w.path ++ ": " ++ w.message

def runCheck [Yaml.EventSource] (tools : Tools) (fs : FileSystem) (c : CheckCommand) : Effect :=
  let overrides := { Settings.Overrides.empty with client := c.client }
  match batch tools fs c.specs c.settingsFile overrides with
  | .error fault => ⟨[], [], some fault.message, fs⟩
  | .ok outcome =>
    ⟨outcome.succeeded.map fun name => "✅ " ++ name ++ ": generated code is valid",
      outcome.warnings.map warningLine ++ outcome.failures.map failureLine, verdict outcome, fs⟩

def uriWidth : Nat := 40

def verbWidth : Nat := 8

def resourceLine (r : Resource) : String :=
  "  " ++ Text.padRight uriWidth r.uri ++ " "
    ++ Text.joinWith " " (r.methods.map fun m => m.verb.upper)

def operationLine (e : Endpoint) (op : Operation) : String :=
  "    " ++ Text.padRight verbWidth op.verb.upper ++ " " ++ Text.padRight uriWidth e.routePath
    ++ " " ++ op.name

def groupLines (g : Group) : List String :=
  let name := g.name
  let head := "  " ++ name.raw ++ " (module " ++ name.snake ++ ", class " ++ name.pascal
    ++ ", accessor " ++ name.camel ++ ", fields from " ++ g.origin.text ++ ")"
  head :: g.endpoints.flatMap fun e => e.operations.map (operationLine e)

def typeLine (t : TypeDef) : String := "  " ++ t.name ++ " (" ++ t.kind ++ ")"

def overview (spec : Specification) : List String :=
  let head := [spec.title ++ " (" ++ spec.version ++ ")", "base URI: " ++ spec.baseUri,
    toString spec.resources.length ++ " resource(s), " ++ toString spec.methodCount ++ " method(s)"]
  let resources := ["", "Resources:"] ++ spec.resources.map resourceLine
  let groups := ["", "Groups:"] ++ (Group.ofSpecification spec "").flatMap groupLines
  let types := if spec.types.isEmpty then [] else ["", "Types:"] ++ spec.types.map typeLine
  head ++ resources ++ groups ++ types

def runInspect [Yaml.EventSource] (fs : FileSystem) (path : String) : Effect :=
  match Spec.load fs path with
  | .error fault => ⟨[], [], some fault.message, fs⟩
  | .ok spec => ⟨overview spec, [], none, fs⟩

def run [Yaml.EventSource] (tools : Tools) (fs : FileSystem) : Command → Effect
  | .generate command => runGenerate tools fs command
  | .inspect spec => runInspect fs spec
  | .check command => runCheck tools fs command

end Command

end RamlScaffold

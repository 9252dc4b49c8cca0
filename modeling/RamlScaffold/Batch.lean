import RamlScaffold.Client.Files
import RamlScaffold.Server.Files
import RamlScaffold.Settings
import RamlScaffold.Spec.Parse
import RamlScaffold.Validation.Report

/-!
Batches: for each description in turn a server and, if asked for, a client library. A description
that fails contributes no files and does not keep the others from going on; a client that fails
leaves the server in place.
-/

namespace RamlScaffold.Batch

inductive Stage where
  | parse
  | serverGeneration
  | validation
  | clientGeneration
deriving DecidableEq, Repr

def Stage.text : Stage → String
  | .parse => "parse"
  | .serverGeneration => "server generation"
  | .validation => "validation"
  | .clientGeneration => "client generation"

inductive Cause where
  | unparsed (fault : Spec.ParseFault)
  | refused (fault : GenerateFault)
  | rejected (report : Report)
deriving DecidableEq, Repr

def Cause.message : Cause → String
  | .unparsed fault => fault.message
  | .refused fault => fault.message
  | .rejected report => report.message

structure Failure where
  spec : String
  stage : Stage
  cause : Cause
deriving DecidableEq, Repr

def Failure.text (f : Failure) : String :=
  f.spec ++ ": " ++ f.stage.text ++ " failed: " ++ f.cause.message

/-- What makes a client library from a description. -/
abbrev ClientBackend := Specification → ClientSettings → Except GenerateFault Files

/-- All that a batch depends on besides the descriptions. -/
structure Environment where
  fileSystem : FileSystem
  settings : Settings
  check : SourceCheck
  backend : ClientBackend

structure Outcome where
  /-- The accepted files, each below the directory of its project. -/
  files : Files
  /-- The names of the descriptions with an accepted server. -/
  succeeded : List String
  failures : List Failure
  /-- Findings that do not reject, with the paths as in `files`. -/
  warnings : List Finding
deriving DecidableEq, Repr

namespace Outcome

def empty : Outcome := ⟨[], [], [], []⟩

def failed (spec : String) (stage : Stage) (cause : Cause) : Outcome :=
  ⟨[], [], [⟨spec, stage, cause⟩], []⟩

/-- The files and findings of a project that is accepted, below its directory. -/
def accepted (directory : String) (files : Files) (warnings : List Finding) : Outcome where
  files := files.map fun (path, text) => (directory ++ "/" ++ path, text)
  succeeded := []
  failures := []
  warnings := warnings.map fun w => { w with path := directory ++ "/" ++ w.path }

/-- One outcome after another. A file that is there already is never replaced. -/
def append (a b : Outcome) : Outcome where
  files := b.files.foldl (fun files (path, text) => Fields.putIfAbsent path text files) a.files
  succeeded := a.succeeded ++ b.succeeded
  failures := a.failures ++ b.failures
  warnings := a.warnings ++ b.warnings

def isSuccess (o : Outcome) : Bool := o.failures.isEmpty

end Outcome

/-- The client library for a description, if all of its files are well-formed. -/
def client (env : Environment) (name : String) (spec : Specification) : Outcome :=
  let server := env.settings.server
  let settings := ClientSettings.forSpec name server.includeAuth server.generateTests
  match env.backend spec settings with
  | .error fault => .failed name .clientGeneration (.refused fault)
  | .ok files =>
    let report := Report.ofFiles env.check files
    if report.ok then .accepted (name ++ "-client") files report.warnings
    else .failed name .clientGeneration (.rejected report)

def single [Yaml.EventSource] (env : Environment) (name : String) (source : Spec.Source) :
    Outcome :=
  match source.parse env.fileSystem with
  | .error fault => .failed name .parse (.unparsed fault)
  | .ok spec =>
    match Server.generate env.settings.server spec with
    | .error fault => .failed name .serverGeneration (.refused fault)
    | .ok files =>
      let report := Report.ofFiles env.check files
      if report.ok then
        let server := { Outcome.accepted (name ++ "-flask") files report.warnings with
          succeeded := [name] }
        if env.settings.generateClient then server.append (client env name spec) else server
      else .failed name .validation (.rejected report)

/-- The names of the descriptions in a batch: their own ones, with numbers where they repeat. -/
def names (sources : List Spec.Source) : List String := Naming.freshAll [] (sources.map (·.name))

def run [Yaml.EventSource] (env : Environment) (sources : List Spec.Source) : Outcome :=
  ((names sources).zip sources).foldl
    (fun outcome (name, source) => outcome.append (single env name source)) .empty

end RamlScaffold.Batch

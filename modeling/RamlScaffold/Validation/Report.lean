import RamlScaffold.Artifact.Files
import RamlScaffold.Code.Check
import RamlScaffold.Validation.Imports

/-!
Validation of a set of artifacts. One Python file that is not well-formed rejects the whole set;
imports that lead nowhere are only reported.
-/

namespace RamlScaffold

structure Finding where
  path : String
  place : Code.Place
  message : String
deriving DecidableEq, Repr

namespace Finding

def text (f : Finding) : String :=
  f.path ++ ":" ++ toString f.place.line ++ ":" ++ toString f.place.column ++ ": " ++ f.message

/-- A finding about a file that no line stands for. -/
def unplaced (path message : String) : Finding := ⟨path, ⟨0, 0⟩, message⟩

end Finding

abbrev SourceCheck := String → Except Code.SyntaxFault Unit

structure Report where
  /-- Files that are not well-formed, in order of their paths. -/
  errors : List Finding
  /-- Imports that lead nowhere, in order of the paths of their files. -/
  warnings : List Finding
deriving DecidableEq, Repr

namespace Report

/-- Whether a set is accepted. Warnings do not count. -/
def ok (r : Report) : Bool := r.errors.isEmpty

def isPython (path : String) : Bool := Text.endsWith ".py" path

def pythonFiles (files : Files) : Files := files.filter fun (path, _) => isPython path

/-- What is found in one file: an error, or else the imports that lead nowhere. -/
def inspect (check : SourceCheck) (index : ModuleIndex) (path source : String) :
    Except Finding (List Finding) :=
  match check source with
  | .error fault => .error ⟨path, fault.place, fault.message⟩
  | .ok () =>
    .ok ((index.unresolved path source).map fun target =>
      Finding.unplaced path ("unresolved import '" ++ target ++ "'"))

def error? : Except Finding (List Finding) → Option Finding
  | .error finding => some finding
  | .ok _ => none

def warningList : Except Finding (List Finding) → List Finding
  | .error _ => []
  | .ok findings => findings

def ofFiles (check : SourceCheck) (files : Files) : Report :=
  let index := ModuleIndex.ofPaths (Fields.keys files)
  let verdicts := (pythonFiles files).map fun (path, source) => inspect check index path source
  { errors := verdicts.filterMap error?, warnings := verdicts.flatMap warningList }

def headline (r : Report) : String :=
  "Generated code failed validation with " ++ toString r.errors.length ++ " error(s)"

/-- What is said about a set that is rejected: how many errors there are, and each of them. -/
def message (r : Report) : String :=
  r.headline ++ Text.concat (r.errors.map fun f => "\n  " ++ f.text)

end Report

end RamlScaffold

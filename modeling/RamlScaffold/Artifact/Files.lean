import RamlScaffold.Artifact.Source
import RamlScaffold.Document.Sorted

/-!
Sets of artifacts: contents by path.
-/

namespace RamlScaffold

/-- Contents by relative path, in byte order of the paths. -/
abbrev Files := Fields String

namespace Files

/-- The set of the given artifacts. Of two with one path the later one counts. -/
def ofSources (artifacts : List (String × Source)) : Files :=
  Fields.sorted (artifacts.map fun (path, source) => (path, source.render))

def paths (files : Files) : List String := Fields.keys files

end Files

end RamlScaffold

import RamlScaffold.Artifact.Files
import RamlScaffold.Client.Package
import RamlScaffold.Client.Project
import RamlScaffold.Client.Suite

/-!
The artifacts of a client library with their paths.
-/

namespace RamlScaffold.Client

/-- The modules of the package that exist once. There is a module of data classes only when there
are any. -/
def packageArtifacts (c : Context) : List (String × Source) :=
  [(c.package ++ "/__init__.py", packageModule c),
   (c.package ++ "/base_client.py", transportModule c),
   (c.package ++ "/exceptions.py", errorsModule c)]
    ++ (if c.models.isEmpty then [] else [(c.package ++ "/models.py", modelsModule c)])
    ++ [(c.package ++ "/resources/__init__.py", resourcesModule c)]

def groupDirectory (c : Context) (g : Group) : String :=
  c.package ++ "/resources/" ++ g.name.snake

def groupArtifacts (c : Context) (g : Group) : List (String × Source) :=
  [(groupDirectory c g ++ "/__init__.py", groupModule c g),
   (groupDirectory c g ++ "/client.py", groupClient g)]
    ++ if c.settings.generateTests then [("tests/test_" ++ g.name.snake ++ ".py", groupTests g)]
      else []

/-- The test files that exist once. Those of the aggregate have a directory of their own, where no
test file of a group can be. -/
def testArtifacts (c : Context) : List (String × Source) :=
  [("tests/__init__.py", []),
   ("tests/conftest.py", fixtures c),
   ("tests/integration/__init__.py", []),
   ("tests/integration/test_client.py", aggregateTests c)]

def projectArtifacts (c : Context) : List (String × Source) :=
  [("setup.py", setupScript c),
   ("requirements.txt", requirements false),
   ("requirements-dev.txt", requirements true),
   ("pytest.ini", pytestSettings c),
   (".gitignore", ignored),
   ("README.md", readme c),
   ("examples/__init__.py", []),
   ("examples/basic_usage.py", usageExample c)]

/-- All artifacts of a client library, in the order in which they are put into the set. -/
def artifacts (c : Context) : List (String × Source) :=
  packageArtifacts c ++ c.groups.flatMap (groupArtifacts c)
    ++ (if c.settings.generateTests then testArtifacts c else []) ++ projectArtifacts c

def generate (settings : ClientSettings) (spec : Specification) : Except GenerateFault Files := do
  settings.check
  return Files.ofSources (artifacts (.ofSpecification settings spec))

end RamlScaffold.Client

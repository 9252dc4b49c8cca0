import RamlScaffold.Artifact.Files
import RamlScaffold.Server.Application
import RamlScaffold.Server.Entity
import RamlScaffold.Server.Project
import RamlScaffold.Server.Routes
import RamlScaffold.Server.Suite

/-!
The artifacts of a server with their paths.
-/

namespace RamlScaffold.Server

def groupDirectory (g : Group) : String := "app/resources/" ++ g.name.snake

def fixedArtifacts (c : Context) : List (String × Source) :=
  [("app/__init__.py", applicationModule c),
   ("app/config.py", configModule c),
   ("app/extensions/__init__.py", extensionsModule c),
   ("app/extensions/db.py", databaseModule),
   ("app/errors/__init__.py", errorsModule),
   ("app/errors/handlers.py", handlersModule),
   ("app/utils/__init__.py", requestModule),
   ("app/resources/__init__.py", resourcesModule c),
   ("app/api/__init__.py", blueprintModule c),
   ("run.py", runScript c),
   ("wsgi.py", wsgiScript c),
   ("requirements.txt", requirements c false),
   ("requirements-dev.txt", requirements c true),
   (".env.example", environment),
   (".gitignore", ignored),
   ("README.md", readme c)]

def groupArtifacts (c : Context) (g : Group) : List (String × Source) :=
  [(groupDirectory g ++ "/__init__.py", groupModule g),
   (groupDirectory g ++ "/model.py", modelModule g),
   (groupDirectory g ++ "/schema.py", schemaModule g),
   (groupDirectory g ++ "/service.py", serviceModule g),
   (groupDirectory g ++ "/routes.py", routesModule c g)]

def testArtifacts (c : Context) : List (String × Source) :=
  [("tests/__init__.py", testsModule c), ("tests/conftest.py", fixtures c),
    ("pytest.ini", pytestSettings)]
    ++ c.groups.map fun g => ("tests/test_" ++ g.name.snake ++ ".py", groupTests c g)

def artifacts (c : Context) : List (String × Source) :=
  fixedArtifacts c ++ c.groups.flatMap (groupArtifacts c)
    ++ if c.settings.generateTests then testArtifacts c else []

def generate (settings : ServerSettings) (spec : Specification) : Except GenerateFault Files := do
  settings.check
  return Files.ofSources (artifacts (.ofSpecification settings spec))

end RamlScaffold.Server

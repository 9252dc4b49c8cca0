/-!
The kinds of artifact, each with a name for the project it belongs to.
-/

namespace RamlScaffold.Artifact

def serverKinds : List String :=
  ["app_init.py", "config.py", "extensions_init.py", "extensions_db.py", "errors_init.py",
    "error_handlers.py", "utils_init.py", "resources_init.py", "group_init.py", "model.py",
    "schema.py", "service.py", "routes.py", "api_init.py", "run.py", "wsgi.py", "requirements.txt",
    "env.example", "gitignore", "README.md", "tests_init.py", "conftest.py", "pytest.ini",
    "test_group.py"]

def clientKinds : List String :=
  ["package_init.py", "base_client.py", "exceptions.py", "models.py", "resources_init.py",
    "group_init.py", "group_client.py", "conftest.py", "test_group.py", "test_integration.py",
    "setup.py", "requirements.txt", "pytest.ini", "gitignore", "README.md", "basic_usage.py"]

def kinds : List String := serverKinds.map ("server/" ++ ·) ++ clientKinds.map ("client/" ++ ·)

end RamlScaffold.Artifact

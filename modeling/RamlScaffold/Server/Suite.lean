import RamlScaffold.Server.Basic

/-!
The tests of a server.
-/

namespace RamlScaffold.Server

open Source

def testsModule (c : Context) : Source :=
  [[.docstring "Tests for " c.appTitle ""]]

def fixtures (c : Context) : Source :=
  .join [
    [[.docstring "\nShared pytest fixtures\n" "" ""],
     "import pytest"],
    when c.settings.includeAuth ["from flask_jwt_extended import create_access_token"],
    ["",
     "from app import create_app",
     "from app.extensions.db import db",
     "",
     "",
     "@pytest.fixture",
     "def app():",
     "    app = create_app('testing')",
     "    with app.app_context():",
     "        db.create_all()",
     "        yield app",
     "        db.session.remove()",
     "        db.drop_all()",
     "",
     "",
     "@pytest.fixture",
     "def client(app):",
     "    return app.test_client()",
     "",
     "",
     "@pytest.fixture",
     "def auth_headers(app):"],
    if c.settings.includeAuth then
      ["    token = create_access_token(identity='test-user')",
       "    return \x7b'Authorization': f'Bearer \x7btoken\x7d'\x7d"]
    else
      ["    return \x7b\x7d"]]

def pytestSettings : Source :=
  ["[pytest]",
   "testpaths = tests",
   "python_files = test_*.py",
   "python_functions = test_*",
   "addopts = -v --tb=short"]

def statuses (op : Operation) : String :=
  "[" ++ Text.joinWith ", " (op.expectedStatuses.map toString) ++ "]"

def groupTests (c : Context) (g : Group) : Source :=
  .join [
    [[.docstring "\nTests for the " g.name.snake " endpoints\n"],
     "import pytest",
     "",
     ["BASE = '/api/", c.settings.apiVersion, "'"],
     "",
     "",
     "@pytest.fixture",
     ["def sample_", g.name.snake, "():"],
     ["    return ", Field.samplePayload g.fields]],
    each g.endpoints fun e =>
      each e.operations fun op =>
        ["",
         "",
         ["def test_", op.name, "(client", textIf (c.guards op) ", auth_headers",
          textIf op.hasBody (", sample_" ++ g.name.snake), "):"],
         ["    ", .docstring "" (op.verb.upper ++ " " ++ e.uri) ""],
         ["    response = client.", op.verb.lower, "(BASE + ", .literal e.testPath,
          textIf op.hasBody (", json=sample_" ++ g.name.snake),
          textIf (c.guards op) ", headers=auth_headers", ")"],
         ["    assert response.status_code in ", statuses op]]]

end RamlScaffold.Server

import RamlScaffold.Client.Basic

/-!
The tests of a client library.
-/

namespace RamlScaffold.Client

open Source

def fixtures (c : Context) : Source :=
  [[.docstring "\nShared pytest fixtures\n" "" ""],
   "from unittest.mock import MagicMock",
   "",
   "import pytest",
   "",
   ["from ", c.package, " import ", c.className],
   "",
   "BASE_URL = 'http://testserver'",
   "",
   "",
   "@pytest.fixture",
   "def mock_session():",
   "    session = MagicMock()",
   "    session.headers = \x7b\x7d",
   "    response = MagicMock()",
   "    response.status_code = 200",
   "    response.content = b'\x7b\x7d'",
   "    response.json.return_value = \x7b\x7d",
   "    session.request.return_value = response",
   "    return session",
   "",
   "",
   "@pytest.fixture",
   "def api_client(mock_session):",
   ["    return ", c.className, "(base_url=BASE_URL, token='test-token', session=mock_session)"]]

def groupTests (g : Group) : Source :=
  .join [
    [[.docstring "\nTests for " g.name.pascal "Client\n"]],
    each g.endpoints fun e =>
      each e.operations fun op =>
        ["",
         "",
         ["def test_", op.name, "(api_client, mock_session):"],
         ["    result = api_client.", g.name.camel, ".", op.name, "(",
          Text.concat (e.params.map fun p => p.sample ++ ", "),
          textIf op.hasBody ("data=" ++ Field.samplePayload g.fields), ")"],
         "    assert result == \x7b\x7d",
         "    args, _ = mock_session.request.call_args",
         ["    assert args[0] == ", .literal op.verb.upper],
         ["    assert args[1] == 'http://testserver' + ", .literal e.clientTestPath]]]

def aggregateTests (c : Context) : Source :=
  .join [
    [[.docstring "\nEnd-to-end behaviour of the aggregate client against a mocked session\n" "" ""],
     "import pytest",
     "",
     ["from ", c.package, " import ", c.className],
     ["from ", c.package, ".base_client import BaseClient"],
     ["from ", c.package, ".exceptions import NotFoundError, ServerError"],
     "",
     "pytestmark = pytest.mark.integration",
     "",
     "",
     "def test_client_exposes_every_resource(api_client):",
     "    assert api_client is not None"],
    each c.groups fun g =>
      [["    assert api_client.", g.name.camel, " is not None"]],
    ["",
     "",
     "def test_context_manager_closes_session(mock_session):",
     ["    with ", c.className, "(base_url='http://testserver', session=mock_session) as client:"],
     "        assert client is not None",
     "    mock_session.close.assert_called_once()",
     "",
     "",
     "def test_not_found_raises(mock_session):",
     "    mock_session.request.return_value.status_code = 404",
     "    mock_session.request.return_value.json.return_value = \x7b'error': 'Not found'\x7d",
     "    base = BaseClient(base_url='http://testserver', session=mock_session)",
     "    with pytest.raises(NotFoundError):",
     "        base.request('GET', '/missing')",
     "",
     "",
     "def test_server_error_raises(mock_session):",
     "    mock_session.request.return_value.status_code = 503",
     "    base = BaseClient(base_url='http://testserver', session=mock_session)",
     "    with pytest.raises(ServerError):",
     "        base.request('GET', '/')",
     "",
     "",
     "def test_no_content_returns_none(mock_session):",
     "    mock_session.request.return_value.status_code = 204",
     "    base = BaseClient(base_url='http://testserver', session=mock_session)",
     "    assert base.request('DELETE', '/') is None"]]

def pytestSettings (c : Context) : Source :=
  ["[pytest]",
   "testpaths = tests",
   "python_files = test_*.py",
   "addopts = -v --tb=short",
   "markers =",
   ["    integration: exercises the aggregate ", c.className]]

end RamlScaffold.Client

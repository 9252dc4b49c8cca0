import RamlScaffold.Client.Basic

/-!
The modules of a client package.
-/

namespace RamlScaffold.Client

open Source

def packageModule (c : Context) : Source :=
  .join [
    [[.docstring "\n" c.spec.title " client library\n"],
     ["from ", c.package, ".base_client import BaseClient as _Transport"],
     ["from ", c.package, ".exceptions import ("],
     "    APIError,",
     "    AuthenticationError,",
     "    NotFoundError,",
     "    ServerError,",
     "    ValidationError,",
     ")"],
    each c.groups fun g =>
      [["from ", c.package, ".resources.", g.name.snake, ".client import ", g.name.pascal,
        "Client"]],
    ["",
     ["__version__ = ", .literal c.packageVersion],
     "",
     "__all__ = [",
     ["    ", .literal c.className, ","],
     "    'APIError',",
     "    'AuthenticationError',",
     "    'NotFoundError',",
     "    'ServerError',",
     "    'ValidationError',",
     "]",
     "",
     "",
     ["class ", c.className, ":"],
     ["    ", .docstring "Entry point aggregating every resource client" "" ""],
     "",
     ["    def __init__(self, base_url=", .literal c.baseUrl,
      ", timeout=30, token=None, session=None):"],
     "        self._base = _Transport(base_url=base_url, timeout=timeout, token=token, session=session)"],
    each c.groups fun g =>
      [["        self.", g.name.camel, " = ", g.name.pascal, "Client(self._base)"]],
    ["",
     "    def close(self):",
     ["        ", .docstring "Release the underlying HTTP session" "" ""],
     "        self._base.session.close()",
     "",
     "    def __enter__(self):",
     "        return self",
     "",
     "    def __exit__(self, exc_type, exc, tb):",
     "        self.close()"]]

def transportModule (c : Context) : Source :=
  .join [
    [[.docstring "\nHTTP transport shared by every resource client\n" "" ""],
     "import requests",
     "",
     ["from ", c.package, ".exceptions import ("],
     "    APIError,",
     "    AuthenticationError,",
     "    NotFoundError,",
     "    ServerError,",
     "    ValidationError,",
     ")",
     "",
     "",
     "def _message(response):",
     "    try:",
     "        body = response.json()",
     "    except ValueError:",
     "        return response.text",
     "    if isinstance(body, dict):",
     "        return body.get('message') or body.get('error') or str(body)",
     "    return str(body)",
     "",
     "",
     "class BaseClient:",
     ["    ", .docstring "Thin wrapper around a requests session" "" ""],
     "",
     ["    def __init__(self, base_url=", .literal c.baseUrl,
      ", timeout=30, token=None, session=None):"],
     "        self.base_url = base_url.rstrip('/')",
     "        self.timeout = timeout",
     "        self.session = session or requests.Session()"],
    when c.settings.includeAuth
      ["        if token:",
       "            self.set_token(token)",
       "",
       "    def set_token(self, token):",
       ["        ", .docstring "Send a bearer token with every request" "" ""],
       "        self.session.headers['Authorization'] = f'Bearer \x7btoken\x7d'"],
    ["",
     "    def request(self, method, path, params=None, json=None):",
     ["        ", .docstring "Send a request and decode the JSON response" "" ""],
     "        url = self.base_url + path",
     "        response = self.session.request(method, url, params=params, json=json, timeout=self.timeout)",
     "        status = response.status_code",
     "        if status in (401, 403):",
     "            raise AuthenticationError(status, _message(response))",
     "        if status == 404:",
     "            raise NotFoundError(status, _message(response))",
     "        if status in (400, 422):",
     "            raise ValidationError(status, _message(response))",
     "        if status >= 500:",
     "            raise ServerError(status, _message(response))",
     "        if status >= 400:",
     "            raise APIError(status, _message(response))",
     "        if status == 204 or not response.content:",
     "            return None",
     "        return response.json()"]]

def errorsModule (c : Context) : Source :=
  [[.docstring "\nErrors raised by the " c.spec.title " client\n"],
   "",
   "",
   "class APIError(Exception):",
   ["    ", .docstring "Any non-success response" "" ""],
   "",
   "    def __init__(self, status_code, message=''):",
   "        super().__init__(f'\x7bstatus_code\x7d: \x7bmessage\x7d')",
   "        self.status_code = status_code",
   "        self.message = message",
   "",
   "",
   "class AuthenticationError(APIError):",
   ["    ", .docstring "401 or 403" "" ""],
   "",
   "",
   "class NotFoundError(APIError):",
   ["    ", .docstring "404" "" ""],
   "",
   "",
   "class ValidationError(APIError):",
   ["    ", .docstring "400 or 422" "" ""],
   "",
   "",
   "class ServerError(APIError):",
   ["    ", .docstring "5xx" "" ""]]

def modelsModule (c : Context) : Source :=
  .join [
    [[.docstring "\nData models declared by " c.spec.title "\n"],
     "from dataclasses import dataclass",
     "from typing import Any, Optional  # noqa: F401"],
    each c.models fun m =>
      .join [
        ["",
         "",
         "@dataclass",
         ["class ", m.className, ":"],
         ["    ", .docstring "" m.summary ""],
         ""],
        each m.fields fun f =>
          [["    ", f.attr, ": Optional[", f.column.typeHint, "] = None"]],
        ["",
         "    @classmethod",
         "    def from_dict(cls, data):",
         "        return cls("],
        each m.fields fun f =>
          [["            ", f.attr, "=data.get(", .literal f.key, "),"]],
        ["        )",
         "",
         "    def to_dict(self):",
         "        return \x7b"],
        each m.fields fun f =>
          [["            ", .literal f.key, ": self.", f.attr, ","]],
        ["        \x7d"]],
    ["",
     "__all__ = ["],
    each c.models fun m =>
      [["    ", .literal m.className, ","]],
    ["]"]]

def resourcesModule (c : Context) : Source :=
  .join [
    [[.docstring "Resource clients" "" ""]],
    each c.groups fun g =>
      [["from ", c.package, ".resources.", g.name.snake, ".client import ", g.name.pascal,
        "Client"]],
    ["",
     "__all__ = ["],
    each c.groups fun g =>
      [["    ", .literal (g.name.pascal ++ "Client"), ","]],
    ["]"]]

def groupModule (c : Context) (g : Group) : Source :=
  [[.docstring "" g.name.pascal " resource client"],
   ["from ", c.package, ".resources.", g.name.snake, ".client import ", g.name.pascal, "Client"],
   "",
   ["__all__ = [", .literal (g.name.pascal ++ "Client"), "]"]]

/-- The client of a group, with one method for each operation. -/
def groupClient (g : Group) : Source :=
  .join [
    [[.docstring "\nClient for the " g.name.raw " resource\n"],
     "",
     "",
     ["class ", g.name.pascal, "Client:"],
     ["    ", .docstring "" ("Operations on " ++ g.name.raw) ""],
     "",
     "    def __init__(self, base):",
     "        self._base = base"],
    each g.endpoints fun e =>
      each e.operations fun op =>
        ["",
         ["    def ", op.name, "(self", Text.concat (e.params.map fun p => ", " ++ p.arg),
          textIf op.hasBody ", data=None", ", params=None):"],
         ["        ", .docstring "" (op.summary e.uri) ""],
         ["        return self._base.request(", .literal op.verb.upper, ", ", e.clientPath,
          ", params=params", textIf op.hasBody ", json=data", ")"]]]

end RamlScaffold.Client

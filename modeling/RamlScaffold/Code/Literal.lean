import RamlScaffold.Json.Writer
import RamlScaffold.Text.Blank

/-!
Texts inside Python string literals: between single quotes, between triple double quotes, and in
the literal parts of f-strings.
-/

namespace RamlScaffold.Code

def quoteChar (c : Char) : List Char :=
  if c == '\\' then ['\\', '\\']
  else if c == '\'' then ['\\', '\'']
  else if c == '\n' then ['\\', 'n']
  else if c == '\r' then ['\\', 'r']
  else if c == '\t' then ['\\', 't']
  else if Text.isControl c then
    ['\\', 'x', Json.hexDigit (c.toNat / 16), Json.hexDigit (c.toNat % 16)]
  else [c]

def quote (text : String) : String :=
  .ofList ('\'' :: (text.toList.flatMap quoteChar ++ ['\'']))

/-- One character in a literal part of an f-string in single quotes. -/
def formatChar (c : Char) : List Char :=
  if c == '\x7b' || c == '\x7d' then [c, c] else quoteChar c

def docstringChar (c : Char) : List Char :=
  if c == '\\' then ['\\', '\\'] else if c == '"' then ['\\', '"'] else [c]

/-- A text for a docstring: trimmed, with backslashes and double quotes escaped. -/
def docstring (text : String) : String :=
  .ofList ((Text.trim text).toList.flatMap docstringChar)

end RamlScaffold.Code

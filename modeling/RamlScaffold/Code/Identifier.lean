import RamlScaffold.Text.Case

/-!
Python identifiers and the words that cannot be one.
-/

namespace RamlScaffold.Code

def keywords : List String :=
  ["False", "None", "True", "and", "as", "assert", "async", "await", "break", "class", "continue",
    "def", "del", "elif", "else", "except", "finally", "for", "from", "global", "if", "import",
    "in", "is", "lambda", "nonlocal", "not", "or", "pass", "raise", "return", "try", "while",
    "with", "yield"]

def isKeyword (name : String) : Bool := keywords.contains name

/-- The name with an underscore behind it when it is one of the words. -/
def avoid (words : List String) (name : String) : String :=
  if words.contains name then name ++ "_" else name

/-- The name, or the name with an underscore when it is a keyword. -/
def nonKeyword (name : String) : String := avoid keywords name

/-- An identifier from a name of words: `fallback` stands for the empty name and goes before a
leading digit. -/
def identifier (name fallback : String) : String :=
  match name.toList with
  | [] => nonKeyword fallback
  | c :: _ => if Text.isDigit c then nonKeyword (fallback ++ "_" ++ name) else nonKeyword name

end RamlScaffold.Code

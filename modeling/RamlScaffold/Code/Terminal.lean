/-!
The terminals of Python source. Line structure is part of them: a logical line ends with `newline`,
and a block is enclosed by `indent` and `dedent`. A string is not one terminal but several, as it
can hold interpolated expressions.
-/

namespace RamlScaffold.Code

inductive Terminal where
  /-- A keyword, an operator or a bracket. -/
  | fixed (text : String)
  | identifier
  | integer
  | float
  /-- A conversion such as `!r`. -/
  | conversion
  | formatText
  /-- A backslash with the character that it stands for. -/
  | escape
  /-- A backslash that stands for itself. -/
  | backslash
  | stringStart
  | stringContent
  /-- Two braces that stand for one. -/
  | doubledBrace
  | stringEnd
  | newline
  | indent
  | dedent
  | endOfText
deriving DecidableEq, Hashable, Repr

def Terminal.label : Terminal → String
  | .fixed text => text
  | .identifier => "identifier"
  | .integer => "integer"
  | .float => "float"
  | .conversion => "conversion"
  | .formatText => "formatText"
  | .escape => "escape"
  | .backslash => "backslash"
  | .stringStart => "stringStart"
  | .stringContent => "stringContent"
  | .doubledBrace => "doubledBrace"
  | .stringEnd => "stringEnd"
  | .newline => "newline"
  | .indent => "indent"
  | .dedent => "dedent"
  | .endOfText => "endOfText"

/-- Words that are never names. Words that are keywords only in some places are not among them. -/
def reservedWords : List String :=
  ["False", "None", "True", "and", "as", "assert", "async", "await", "break", "class", "continue",
    "def", "del", "elif", "else", "except", "finally", "for", "from", "global", "if", "import",
    "in", "is", "lambda", "nonlocal", "not", "or", "pass", "raise", "return", "try", "while",
    "with", "yield"]

/-- Words that are keywords where a rule asks for them, and names elsewhere. -/
def softWords : List String := ["__future__", "print", "exec", "match", "case", "type", "_"]

/-- Operators and punctuation, the longer ones first. -/
def operators : List String :=
  ["...", "**=", "//=", ">>=", "<<=", "->", ":=", "==", "!=", "<=", ">=", "<>", "**", "//", ">>",
    "<<", "+=", "-=", "*=", "/=", "%=", "@=", "&=", "|=", "^=", "+", "-", "*", "/", "%", "@", "&",
    "|", "^", "~", "<", ">", "=", "(", ")", "[", "]", "\x7b", "\x7d", ",", ":", ".", ";"]

end RamlScaffold.Code

import RamlScaffold.Code.Grammar.Pattern

/-!
Statements. A block may be empty, and names and values are not checked: only the form of the text
decides. Statements of old versions of the language are among them.
-/

namespace RamlScaffold.Code.Grammar

open Rule

/-- An imported list, which may be in parentheses. -/
def imported : Rule := choice [named "importList", inParentheses (named "importList")]

def simpleRules : List (String × Rule) := [
  ("simpleStatements", sequence
    [separated ";" (named "simpleStatement"), optional ";", Terminal.newline]),
  ("simpleStatement", choice [named "futureImport", named "import", named "fromImport",
    named "print", named "assert", named "expressionStatement", named "return", named "delete",
    named "raise", named "pass", named "break", named "continue", named "global",
    named "nonlocal", named "exec", named "typeAlias"]),
  ("import", sequence ["import", named "importList"]),
  ("importList", listed (choice [named "dottedName", named "aliasedImport"])),
  ("aliasedImport", sequence [named "dottedName", "as", Terminal.identifier]),
  ("dottedName", ranked 1 none (separated "." Terminal.identifier)),
  ("futureImport", sequence ["from", "__future__", "import", imported]),
  ("fromImport", sequence ["from", choice [named "relativeImport", named "dottedName"], "import",
    choice [named "wildcard", imported]]),
  ("relativeImport", sequence [named "importDots", optional (named "dottedName")]),
  ("importDots", repeated "."),
  ("wildcard", "*"),
  ("print", choice [
    ranking 1 ["print", named "chevron", any (sequence [",", named "expression"]), optional ","],
    ranking (-3) ["print", commas (named "expression"), optional ","]]),
  ("chevron", sequence [">>", named "expression"]),
  ("assert", sequence ["assert", commas (named "expression")]),
  ("expressionStatement", choice [listed (named "expression"), named "assignment",
    named "augmentedAssignment", named "yield"]),
  ("assignment", sequence [named "leftSide", choice [
    sequence ["=", named "rightSide"],
    sequence [":", named "type"],
    sequence [":", named "type", "=", named "rightSide"]]]),
  ("augmentedAssignment", sequence [named "leftSide",
    choice ["+=", "-=", "*=", "/=", "@=", "//=", "%=", "**=", ">>=", "<<=", "&=", "^=", "|="],
    named "rightSide"]),
  ("rightSide", choice [named "expression", named "expressionList", named "assignment",
    named "augmentedAssignment", named "targetList", named "yield"]),
  ("return", sequence ["return", optional (named "expressions")]),
  ("delete", sequence ["del", named "expressions"]),
  ("raise", sequence ["raise", optional (named "expressions"),
    optional (sequence ["from", named "expression"])]),
  ("pass", siding .left 0 ["pass"]),
  ("break", siding .left 0 ["break"]),
  ("continue", siding .left 0 ["continue"]),
  ("global", sequence ["global", commas Terminal.identifier]),
  ("nonlocal", sequence ["nonlocal", commas Terminal.identifier]),
  ("exec", sequence ["exec", choice [named "string", .terminal .identifier],
    optional (sequence ["in", commas (named "expression")])]),
  ("typeAlias", sequence ["type", named "type", "=", named "type"])]

def compoundRules : List (String × Rule) := [
  ("compoundStatement", choice [named "if", named "for", named "while", named "try", named "with",
    named "function", named "class", named "decorated", named "match"]),
  ("suite", choice [named "simpleStatements", sequence [Terminal.indent, named "block"],
    Terminal.newline]),
  ("block", sequence [any (named "statement"), Terminal.dedent]),
  ("if", sequence ["if", named "expression", ":", named "suite", any (named "elif"),
    optional (named "else")]),
  ("elif", sequence ["elif", named "expression", ":", named "suite"]),
  ("else", sequence ["else", ":", named "suite"]),
  ("for", sequence [optional "async", "for", named "leftSide", "in", named "expressions", ":",
    named "suite", optional (named "else")]),
  ("while", sequence ["while", named "expression", ":", named "suite", optional (named "else")]),
  ("try", sequence ["try", ":", named "suite", any (named "except"), optional (named "else"),
    optional (named "finally")]),
  ("except", sequence ["except", optional "*", optional (sequence [named "expression",
    optional (sequence [choice ["as", ","], named "expression"])]), ":", named "suite"]),
  ("finally", sequence ["finally", ":", named "suite"]),
  ("with", sequence [optional "async", "with", named "withItems", ":", named "suite"]),
  ("withItems", choice [listed (named "withItem"), inParentheses (listed (named "withItem"))]),
  ("withItem", named "expression"),
  ("function", sequence [optional "async", "def", Terminal.identifier,
    optional (named "typeParameters"), named "parameters",
    optional (sequence ["->", named "type"]), ":", named "suite"]),
  ("class", sequence ["class", Terminal.identifier, optional (named "typeParameters"),
    optional (named "arguments"), ":", named "suite"]),
  ("decorated", sequence [repeated (named "decorator"), choice [named "class", named "function"]]),
  ("decorator", sequence ["@", named "expression", Terminal.newline]),
  ("match", sequence ["match", commas (named "expression"), optional ",", ":",
    named "matchBlock"]),
  ("matchBlock", choice [
    sequence [Terminal.indent, any (named "case"), Terminal.dedent], Terminal.newline]),
  ("case", sequence ["case", commas (named "casePattern"), optional ",",
    optional (named "ifClause"), ":", named "suite"])]

end Grammar

open Rule

def python : Grammar where
  start := "module"
  rules :=
    [("module", any (named "statement")),
      ("statement", choice [named "simpleStatements", named "compoundStatement"])]
      ++ Grammar.simpleRules ++ Grammar.compoundRules ++ Grammar.patternRules
      ++ Grammar.targetRules ++ Grammar.typeRules ++ Grammar.expressionRules
  inlined :=
    ["simpleStatement", "compoundStatement", "suite", "expressions", "leftSide", "softKeyword"]

end RamlScaffold.Code

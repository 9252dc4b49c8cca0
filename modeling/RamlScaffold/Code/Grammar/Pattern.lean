import RamlScaffold.Code.Grammar.Expression

/-!
The patterns of `case` clauses.
-/

namespace RamlScaffold.Code.Grammar

open Rule

def number : Rule := choice [.terminal .integer, .terminal .float]

/-- Any number of patterns with commas between them; a comma may end them. -/
def casePatterns (pattern : Rule) : Rule := optional (listed pattern)

def patternRules : List (String × Rule) := [
  ("casePattern", ranked 1 none (choice [named "caseAs", named "caseKeyword",
    named "simplePattern"])),
  ("caseAs", sequence [named "casePattern", "as", Terminal.identifier]),
  ("caseKeyword", sequence [Terminal.identifier, "=", named "simplePattern"]),
  ("simplePattern", ranked 1 none (choice [named "classPattern", named "starredPattern",
    named "unionPattern", named "listPattern", named "tuplePattern", named "dictionaryPattern",
    named "string", named "strings", "True", "False", "None", sequence [optional "-", number],
    named "complexPattern", named "dottedName", "_"])),
  ("classPattern", sequence [named "dottedName", "(", casePatterns (named "casePattern"), ")"]),
  ("starredPattern", ranking 1 [choice ["*", "**"], choice [.terminal .identifier, "_"]]),
  ("unionPattern", siding .right 0 [named "simplePattern",
    repeated (siding .left 0 ["|", named "simplePattern"])]),
  ("listPattern", inBrackets (casePatterns (named "casePattern"))),
  ("tuplePattern", inParentheses (casePatterns (named "casePattern"))),
  ("dictionaryPattern",
    inBraces (casePatterns (choice [named "keyPattern", named "starredPattern"]))),
  ("keyPattern", sequence [named "simplePattern", ":", named "casePattern"]),
  ("complexPattern", ranking 1 [optional "-", number, choice ["+", "-"], number])]

end RamlScaffold.Code.Grammar

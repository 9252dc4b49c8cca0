import RamlScaffold.Code.Rule

/-!
Expressions, the targets of assignments, parameters and types. The larger a precedence, the tighter
an operator binds.
-/

namespace RamlScaffold.Code.Grammar

open Rule

def openBrace : Rule := "\x7b"

def closeBrace : Rule := "\x7d"

def inParentheses (rule : Rule) : Rule := sequence ["(", rule, ")"]

def inBrackets (rule : Rule) : Rule := sequence ["[", rule, "]"]

def inBraces (rule : Rule) : Rule := sequence [openBrace, rule, closeBrace]

/-- Two or more with commas between them, or one with a comma after it. -/
def several (rule : Rule) : Rule :=
  sequence [rule, choice [",", sequence [repeated (sequence [",", rule]), optional ","]]]

def binary (side : Side) (precedence : Int) (text : String) : Rule :=
  siding side precedence [named "primary", text, named "primary"]

def expressionRules : List (String × Rule) := [
  ("expression", choice [named "comparison", named "negation", named "junction", named "lambda",
    named "primary", named "conditional", named "namedExpression", named "asPattern"]),
  ("expressions", choice [named "expression", named "expressionList"]),
  ("expressionList", ranked 0 (some .right) (several (named "expression"))),
  ("primary", choice [named "await", named "binaryOperation", .terminal .identifier,
    named "softKeyword", named "string", named "strings", .terminal .integer, .terminal .float,
    "True", "False", "None", named "unaryOperation", named "attribute", named "subscript",
    named "call", named "list", named "listComprehension", named "dictionary",
    named "dictionaryComprehension", named "set", named "setComprehension", named "tuple",
    named "parenthesized", named "generator", "...", named "starredTarget"]),
  ("softKeyword", choice [ranked (-3) none (choice ["print", "exec", "async", "await"]),
    choice ["type", "match"]]),
  ("namedExpression", sequence [named "namedExpressionName", ":=", named "expression"]),
  ("namedExpressionName", choice [.terminal .identifier, named "softKeyword"]),
  ("asPattern", siding .left 0 [named "expression", "as", named "expression"]),
  ("conditional", siding .right (-1)
    [named "expression", "if", named "expression", "else", named "expression"]),
  ("lambda", ranking (-2)
    ["lambda", optional (named "lambdaParameters"), ":", named "expression"]),
  ("lambdaParameters", named "parameterList"),
  ("junction", choice [
    siding .left 11 [named "expression", "and", named "expression"],
    siding .left 10 [named "expression", "or", named "expression"]]),
  ("negation", ranking 12 ["not", named "expression"]),
  ("comparison", siding .left 13 [named "primary", repeated (sequence [
    choice ["<", "<=", "==", "!=", ">=", ">", "<>", "in", named "notIn", "is", named "isNot"],
    named "primary"])]),
  ("notIn", sequence ["not", "in"]),
  ("isNot", sequence ["is", "not"]),
  ("binaryOperation", choice [
    binary .left 18 "+", binary .left 18 "-", binary .left 19 "*", binary .left 19 "@",
    binary .left 19 "/", binary .left 19 "%", binary .left 19 "//", binary .right 21 "**",
    binary .left 14 "|", binary .left 15 "&", binary .left 16 "^", binary .left 17 "<<",
    binary .left 17 ">>"]),
  ("unaryOperation", ranking 20 [choice ["+", "-", "~"], named "primary"]),
  ("await", ranking 20 ["await", named "primary"]),
  ("attribute", ranking 22 [named "primary", ".", .terminal .identifier]),
  ("subscript", ranking 22 [named "primary", "[",
    commas (choice [named "expression", named "slice"]), optional ",", "]"]),
  ("slice", sequence [optional (named "expression"), ":", optional (named "expression"),
    optional (sequence [":", optional (named "expression")])]),
  ("call", ranking 22 [named "primary", choice [named "generator", named "arguments"]]),
  ("arguments", sequence ["(", optional (commas (choice [named "expression", named "starred",
    named "doubleStarred", named "parenthesizedStarred", named "keywordArgument"])),
    optional ",", ")"]),
  ("keywordArgument", sequence [choice [.terminal .identifier, named "softKeyword"], "=",
    named "expression"]),
  ("starred", sequence ["*", named "expression"]),
  ("doubleStarred", sequence ["**", named "expression"]),
  ("parenthesizedStarred", ranked 1 none
    (inParentheses (choice [named "parenthesizedStarred", named "starred"]))),
  ("list", inBrackets (optional (named "elements"))),
  ("set", inBraces (named "elements")),
  ("tuple", inParentheses (optional (named "elements"))),
  ("elements", listed (choice [named "expression", named "yield", named "starred",
    named "parenthesizedStarred"])),
  ("parenthesized", ranked 1 none
    (inParentheses (choice [named "expression", named "yield"]))),
  ("dictionary", sequence [openBrace,
    optional (commas (choice [named "pair", named "doubleStarred"])), optional ",", closeBrace]),
  ("pair", sequence [named "expression", ":", named "expression"]),
  ("listComprehension", inBrackets (sequence [named "expression", named "clauses"])),
  ("dictionaryComprehension", inBraces (sequence [named "pair", named "clauses"])),
  ("setComprehension", inBraces (sequence [named "expression", named "clauses"])),
  ("generator", inParentheses (sequence [named "expression", named "clauses"])),
  ("clauses", sequence [named "forClause", any (choice [named "forClause", named "ifClause"])]),
  ("forClause", siding .left 0 [optional "async", "for", named "leftSide", "in",
    commas (named "clauseExpression"), optional ","]),
  ("ifClause", sequence ["if", named "expression"]),
  ("clauseExpression", choice [named "expression", named "clauseLambda"]),
  ("clauseLambda", sequence
    ["lambda", optional (named "lambdaParameters"), ":", named "clauseExpression"]),
  ("strings", sequence [named "string", repeated (named "string")]),
  ("string", sequence [Terminal.stringStart, any (choice [named "interpolation", named "content"]),
    Terminal.stringEnd]),
  ("content", ranked 0 (some .right) (repeated (choice [Terminal.doubledBrace, Terminal.escape,
    Terminal.backslash, Terminal.stringContent]))),
  ("interpolation", inBraces (sequence [named "interpolated", optional "=",
    optional Terminal.conversion, optional (named "specification")])),
  ("interpolated", choice [named "expression", named "expressionList", named "targetList",
    named "yield"]),
  ("specification", sequence [":",
    any (choice [Terminal.formatText, named "interpolation"])]),
  ("yield", siding .right 0 ["yield",
    choice [sequence ["from", named "expression"], optional (named "expressions")]])]

/-- What can stand after the stars of a target. -/
def starrable : Rule :=
  choice [.terminal .identifier, named "softKeyword", named "subscript", named "attribute"]

def targetRules : List (String × Rule) := [
  ("leftSide", choice [named "target", named "targetList"]),
  ("targetList", several (named "target")),
  ("target", choice [.terminal .identifier, named "softKeyword", named "subscript",
    named "attribute", named "starredTarget", named "tupleTarget", named "listTarget"]),
  ("targets", listed (named "target")),
  ("tupleTarget", inParentheses (optional (named "targets"))),
  ("listTarget", inBrackets (optional (named "targets"))),
  ("starredTarget", sequence ["*", starrable]),
  ("doubleStarredTarget", sequence ["**", starrable]),
  ("parameters", inParentheses (optional (named "parameterList"))),
  ("parameterList", listed (named "parameter")),
  ("parameter", choice [.terminal .identifier, named "typedParameter", named "defaultParameter",
    named "typedDefaultParameter", named "starredTarget", named "tupleTarget",
    named "keywordSeparator", named "positionalSeparator", named "doubleStarredTarget"]),
  ("keywordSeparator", "*"),
  ("positionalSeparator", "/"),
  ("defaultParameter", sequence
    [choice [.terminal .identifier, named "tupleTarget"], "=", named "expression"]),
  ("typedParameter", ranking (-1)
    [choice [.terminal .identifier, named "starredTarget", named "doubleStarredTarget"], ":",
      named "type"]),
  ("typedDefaultParameter", ranking (-1)
    [Terminal.identifier, ":", named "type", "=", named "expression"])]

def typeRules : List (String × Rule) := [
  ("type", choice [ranked 1 none (named "expression"), named "starredType", named "genericType",
    named "unionType", named "boundType", named "memberType"]),
  ("starredType", ranking 1 [choice ["*", "**"], Terminal.identifier]),
  ("genericType", ranking 1 [choice [.terminal .identifier, "type"], named "typeParameters"]),
  ("unionType", siding .left 0 [named "type", "|", named "type"]),
  ("boundType", siding .right 0 [named "type", ":", named "type"]),
  ("memberType", sequence [named "type", ".", Terminal.identifier]),
  ("typeParameters", inBrackets (listed (named "type")))]

end RamlScaffold.Code.Grammar

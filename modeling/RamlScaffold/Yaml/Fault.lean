import RamlScaffold.Yaml.Mark

/-!
Why a text is not a readable document. A `Problem` is what stands in the way, a `Context` what was
being read; `Fault.message` is the only place where they become text.
-/

namespace RamlScaffold.Yaml

inductive Context where
  | nextToken
  | simpleKey
  | directive
  | versionDirective
  | tagDirective
  | tagDirectiveHandle
  | tagDirectiveScan
  | tagDirectiveUri
  | anchor
  | alias
  | tagScan
  | tagUri
  | blockScalar
  | quotedScalar
  | quotedEscape
  | plainScalar
  | node
  | blockNode
  | flowNode
  | blockSequence
  | blockMapping
  | flowSequence
  | flowMapping
deriving DecidableEq, Repr

def Context.text : Context → String
  | .nextToken => "while scanning for the next token"
  | .simpleKey => "while scanning a simple key"
  | .directive => "while scanning a directive"
  | .versionDirective => "while scanning a %YAML directive"
  | .tagDirective => "while scanning a %TAG directive"
  | .tagDirectiveHandle => "while parsing a tag directive"
  | .tagDirectiveScan => "while scanning a tag directive"
  | .tagDirectiveUri => "while parsing a %TAG directive"
  | .anchor => "while scanning an anchor"
  | .alias => "while scanning an alias"
  | .tagScan => "while scanning a tag"
  | .tagUri => "while parsing a tag"
  | .blockScalar => "while scanning a block scalar"
  | .quotedScalar => "while scanning a quoted scalar"
  | .quotedEscape => "while parsing a quoted scalar"
  | .plainScalar => "while scanning a plain scalar"
  | .node => "while parsing a node"
  | .blockNode => "while parsing a block node"
  | .flowNode => "while parsing a flow node"
  | .blockSequence => "while parsing a block collection"
  | .blockMapping => "while parsing a block mapping"
  | .flowSequence => "while parsing a flow sequence"
  | .flowMapping => "while parsing a flow mapping"

/-- What stands in the way of reading on. -/
inductive Problem where
  | strayCharacter
  | missingColon
  | unknownDirective
  | directiveTail
  | missingDirectiveName
  | badDirectiveName
  | missingVersionDot
  | longVersion
  | missingVersion
  | missingSpace
  | missingSpaceOrBreak
  | missingHandleMark
  | missingUri
  | missingTagEnd
  | missingOctet
  | badLeadingOctet
  | badTrailingOctet
  | missingAnchorName
  | zeroIndent
  | scalarHeaderTail
  | tabIndent
  | unexpectedIndicator
  | unexpectedEnd
  | unknownEscape
  | missingHex
  | badCodePoint
  | unexpectedColon
  | tabBelowIndent
  | entryNotAllowed
  | keyNotAllowed
  | valueNotAllowed
  | missingDocumentStart
  | duplicateVersion
  | incompatibleVersion
  | duplicateTagDirective
  | undefinedHandle
  | missingNode
  | missingDash
  | missingKey
  | missingSequenceComma
  | missingMappingComma
deriving DecidableEq, Repr

def Problem.text : Problem → String
  | .strayCharacter => "found character that cannot start any token"
  | .missingColon => "could not find expected ':'"
  | .unknownDirective => "found unknown directive name"
  | .directiveTail => "did not find expected comment or line break"
  | .missingDirectiveName => "could not find expected directive name"
  | .badDirectiveName => "found unexpected non-alphabetical character"
  | .missingVersionDot => "did not find expected digit or '.' character"
  | .longVersion => "found extremely long version number"
  | .missingVersion => "did not find expected version number"
  | .missingSpace => "did not find expected whitespace"
  | .missingSpaceOrBreak => "did not find expected whitespace or line break"
  | .missingHandleMark => "did not find expected '!'"
  | .missingUri => "did not find expected tag URI"
  | .missingTagEnd => "did not find the expected '>'"
  | .missingOctet => "did not find URI escaped octet"
  | .badLeadingOctet => "found an incorrect leading UTF-8 octet"
  | .badTrailingOctet => "found an incorrect trailing UTF-8 octet"
  | .missingAnchorName => "did not find expected alphabetic or numeric character"
  | .zeroIndent => "found an indentation indicator equal to 0"
  | .scalarHeaderTail => "did not find expected comment or line break"
  | .tabIndent => "found a tab character where an indentation space is expected"
  | .unexpectedIndicator => "found unexpected document indicator"
  | .unexpectedEnd => "found unexpected end of stream"
  | .unknownEscape => "found unknown escape character"
  | .missingHex => "did not find expected hexadecimal number"
  | .badCodePoint => "found invalid Unicode character escape code"
  | .unexpectedColon => "found unexpected ':'"
  | .tabBelowIndent => "found a tab character that violates indentation"
  | .entryNotAllowed => "block sequence entries are not allowed in this context"
  | .keyNotAllowed => "mapping keys are not allowed in this context"
  | .valueNotAllowed => "mapping values are not allowed in this context"
  | .missingDocumentStart => "did not find expected <document start>"
  | .duplicateVersion => "found duplicate %YAML directive"
  | .incompatibleVersion => "found incompatible YAML document"
  | .duplicateTagDirective => "found duplicate %TAG directive"
  | .undefinedHandle => "found undefined tag handle"
  | .missingNode => "did not find expected node content"
  | .missingDash => "did not find expected '-' indicator"
  | .missingKey => "did not find expected key"
  | .missingSequenceComma => "did not find expected ',' or ']'"
  | .missingMappingComma => "did not find expected ',' or '\x7d'"

inductive Expectation where
  | boolean
  | integer
  | float
  | null
deriving DecidableEq, Repr

def Expectation.text : Expectation → String
  | .boolean => "a boolean"
  | .integer => "an integer"
  | .float => "a float"
  | .null => "null"

inductive BadValue where
  /-- A tag asks for a kind that the text does not spell. -/
  | unexpected (quoted : String) (wanted : Expectation)
  /-- A number beyond 64 bits; `signed` for those below zero. -/
  | wideInteger (value : Int) (signed : Bool)
deriving DecidableEq, Repr

def BadValue.text : BadValue → String
  | .unexpected quoted wanted =>
    "invalid value: string " ++ quoted ++ ", expected " ++ wanted.text
  | .wideInteger value signed =>
    "invalid type: integer \x60" ++ toString value ++ "\x60 as "
      ++ (if signed then "i128" else "u128") ++ ", expected any YAML value"

inductive Fault where
  /-- A character that no text may hold, `offset` bytes from the start. -/
  | control (offset : Nat)
  | grammar (problem : Problem) (place : Mark) (context : Option (Context × Mark))
  /-- A value, named by its path, that cannot be taken. -/
  | value (bad : BadValue) (place : Mark) (path : String)
  | tooDeep (place : Mark)
  | tooManyAliases
  /-- An alias to a name that no node carries. -/
  | unknownAnchor (place : Mark)
  | severalDocuments
  | endOfStream
deriving DecidableEq, Repr

namespace Fault

/-- The text, followed by the position unless it is the very start. -/
def located (s : String) (place : Mark) : String :=
  if place.isStart then s else s ++ " at " ++ place.text

def message : Fault → String
  | .control offset =>
    "control characters are not allowed"
      ++ (if offset == 0 then "" else " at position " ++ toString offset)
  | .grammar problem place context =>
    located problem.text place
      ++ (match context with
        | none => ""
        | some (within, since) =>
          ", " ++ (if since.samePlace place then within.text else located within.text since))
  | .value bad place path =>
    located ((if path == "." then "" else path ++ ": ") ++ bad.text) place
  | .tooDeep place => located "recursion limit exceeded" place
  | .tooManyAliases => "repetition limit exceeded"
  | .unknownAnchor place => located "unknown anchor" place
  | .severalDocuments =>
    "deserializing from YAML containing more than one document is not supported"
  | .endOfStream => "EOF while parsing a value"

def place? : Fault → Option Mark
  | .control _ => some .start
  | .grammar _ place _ => some place
  | .value _ place _ => some place
  | .tooDeep place => some place
  | .unknownAnchor place => some place
  | .tooManyAliases | .severalDocuments | .endOfStream => none

end Fault

end RamlScaffold.Yaml

import RamlScaffold.Yaml.Token.Block
import RamlScaffold.Yaml.Token.Directive
import RamlScaffold.Yaml.Token.Plain
import RamlScaffold.Yaml.Token.Quoted
import RamlScaffold.Yaml.Wall

/-!
From text to tokens. Indentation becomes explicit start and end tokens. Whether a scalar is a
mapping key shows only at the colon after it, so its place in the token list is remembered and the
key token is put there later. When reading fails, the tokens before the failure are kept up to the
first place that such a key could still change.
-/

namespace RamlScaffold.Yaml

/-- A place that may turn out to start a mapping key: the number of the token that would follow the
key token, and its position. Where a key is required, losing the candidate is an error. -/
structure KeyCandidate where
  required : Bool
  number : Nat
  mark : Mark
deriving Repr

/-- The state of reading tokens. `candidates` has an entry for the block context and one for each
open flow collection, innermost first. -/
structure Scanner where
  cursor : Cursor
  tokens : Array Token
  candidates : List (Option KeyCandidate)
  indent : Int
  outerIndents : List Int
  keyAllowed : Bool
  finished : Bool
deriving Repr

namespace Scanner

def ofText (s : String) : Scanner where
  cursor := .ofText s
  tokens := #[⟨.streamStart, .start, .start⟩]
  candidates := [none]
  indent := -1
  outerIndents := []
  keyAllowed := true
  finished := false

def inFlow (s : Scanner) : Bool := s.candidates.length > 1

def push (s : Scanner) (kind : TokenKind) (start stop : Mark) : Scanner :=
  { s with tokens := s.tokens.push ⟨kind, start, stop⟩ }

def pushAt (s : Scanner) (number : Nat) (kind : TokenKind) (mark : Mark) : Scanner :=
  { s with tokens := s.tokens.insertIdxIfInBounds number ⟨kind, mark, mark⟩ }

/-- A candidate can be followed by its colon only on the same line and within 1024 characters. -/
def isStale (s : Scanner) (k : KeyCandidate) : Bool :=
  k.mark.line < s.cursor.mark.line || k.mark.index + 1024 < s.cursor.mark.index

/-- Drops the candidates that can no longer be keys. -/
def dropStale (s : Scanner) : Except Fault Scanner := do
  let kept ← s.candidates.reverse.mapM fun candidate =>
    match candidate with
    | none => .ok none
    | some k =>
      if s.isStale k then
        if k.required then
          .error (problemIn .missingColon s.cursor.mark .simpleKey k.mark)
        else .ok none
      else .ok (some k)
  return { s with candidates := kept.reverse }

def dropCandidate (s : Scanner) : Except Fault Scanner :=
  match s.candidates with
  | some k :: rest =>
    if k.required then .error (problemIn .missingColon s.cursor.mark .simpleKey k.mark)
    else .ok { s with candidates := none :: rest }
  | _ => .ok s

def saveCandidate (s : Scanner) : Except Fault Scanner := do
  if s.keyAllowed then
    let required := !s.inFlow && s.indent == (s.cursor.mark.column : Int)
    let s ← s.dropCandidate
    return { s with
      candidates := some ⟨required, s.tokens.size, s.cursor.mark⟩ :: s.candidates.drop 1 }
  else return s

/-- Opens a block collection when the column lies right of the current indentation. The start token
goes before the token with the given number, or to the end. -/
def openBlock (s : Scanner) (column : Nat) (number : Option Nat) (kind : TokenKind) (mark : Mark) :
    Scanner :=
  if !s.inFlow && s.indent < (column : Int) then
    let s := { s with outerIndents := s.indent :: s.outerIndents, indent := column }
    match number with
    | none => s.push kind mark mark
    | some n => s.pushAt n kind mark
  else s

/-- Ends the block collections that are indented further than `column`. -/
def closeBlocks (s : Scanner) (column : Int) : Scanner :=
  if s.inFlow then s
  else
    let ended := (s.indent :: s.outerIndents).takeWhile (· > column)
    let levels := (s.indent :: s.outerIndents).drop ended.length
    let mark := s.cursor.mark
    { s with
      tokens := s.tokens ++ (ended.map fun _ => (⟨.blockEnd, mark, mark⟩ : Token)).toArray
      indent := levels.headD (-1)
      outerIndents := levels.drop 1 }

def indicator (s : Scanner) (kind : TokenKind) (width : Nat) : Scanner :=
  let after := s.cursor.skipBy width
  { s.push kind s.cursor.mark after.mark with cursor := after }

/-- Moves past blanks, comments and line breaks, `fuel` lines at most. Tabs count as blanks unless
they could be mistaken for indentation. -/
def skipToToken : Nat → Scanner → Scanner
  | 0, s => s
  | fuel + 1, s =>
    let c := s.cursor
    let c := if c.mark.column == 0 && c.peek == some '\ufeff' then c.skip else c
    let c := c.skipRun fun d => d == ' ' || (d == '\t' && (s.inFlow || !s.keyAllowed))
    let c := if c.peek == some '#' then c.skipRun (fun d => !isBreak d) else c
    if c.peek.any isBreak then
      skipToToken fuel
        { s with cursor := c.skipBreak, keyAllowed := if s.inFlow then s.keyAllowed else true }
    else { s with cursor := c }

def fetchStreamEnd (s : Scanner) : Except Fault Scanner := do
  let mark := s.cursor.mark
  let mark := if mark.column == 0 then mark else ⟨mark.index, mark.line + 1, 0⟩
  let s := { s with cursor := { s.cursor with mark := mark } }
  let s ← (s.closeBlocks (-1)).dropCandidate
  return { s.push .streamEnd mark mark with keyAllowed := false, finished := true }

def fetchDirective (s : Scanner) : Except Fault Scanner := do
  let s ← (s.closeBlocks (-1)).dropCandidate
  let (token, after) ← scanDirective s.cursor
  return { s with tokens := s.tokens.push token, cursor := after, keyAllowed := false }

def fetchDocumentIndicator (s : Scanner) (kind : TokenKind) : Except Fault Scanner := do
  let s ← (s.closeBlocks (-1)).dropCandidate
  return { s with keyAllowed := false }.indicator kind 3

def fetchFlowStart (s : Scanner) (kind : TokenKind) : Except Fault Scanner := do
  let s ← s.saveCandidate
  return { s with candidates := none :: s.candidates, keyAllowed := true }.indicator kind 1

def fetchFlowEnd (s : Scanner) (kind : TokenKind) : Except Fault Scanner := do
  let s ← s.dropCandidate
  let candidates := if s.inFlow then s.candidates.drop 1 else s.candidates
  return { s with candidates := candidates, keyAllowed := false }.indicator kind 1

def fetchFlowEntry (s : Scanner) : Except Fault Scanner := do
  let s ← s.dropCandidate
  return { s with keyAllowed := true }.indicator .flowEntry 1

def fetchBlockEntry (s : Scanner) : Except Fault Scanner := do
  let mark := s.cursor.mark
  if !s.inFlow && !s.keyAllowed then throw (.grammar .entryNotAllowed mark none)
  let s ← (s.openBlock mark.column none .blockSequenceStart mark).dropCandidate
  return { s with keyAllowed := true }.indicator .blockEntry 1

def fetchKey (s : Scanner) : Except Fault Scanner := do
  let mark := s.cursor.mark
  if !s.inFlow && !s.keyAllowed then throw (.grammar .keyNotAllowed mark none)
  let s ← (s.openBlock mark.column none .blockMappingStart mark).dropCandidate
  return { s with keyAllowed := !s.inFlow }.indicator .key 1

def fetchValue (s : Scanner) : Except Fault Scanner := do
  let mark := s.cursor.mark
  match s.candidates with
  | some k :: rest =>
    let s := s.pushAt k.number .key k.mark
    let s := s.openBlock k.mark.column (some k.number) .blockMappingStart k.mark
    return { s with candidates := none :: rest, keyAllowed := false }.indicator .value 1
  | _ =>
    if !s.inFlow && !s.keyAllowed then throw (.grammar .valueNotAllowed mark none)
    let s := s.openBlock mark.column none .blockMappingStart mark
    return { s with keyAllowed := !s.inFlow }.indicator .value 1

def fetchAnchor (s : Scanner) (isAlias : Bool) : Except Fault Scanner := do
  let s ← s.saveCandidate
  let start := s.cursor.mark
  let (name, after) ← scanAnchorName (if isAlias then .alias else .anchor) s.cursor
  let text := String.ofList name
  let s := s.push (if isAlias then .alias text else .anchor text) start after.mark
  return { s with cursor := after, keyAllowed := false }

def fetchTag (s : Scanner) : Except Fault Scanner := do
  let s ← s.saveCandidate
  let start := s.cursor.mark
  let (handle, suffix, after) ← scanTag s.inFlow s.cursor
  let s := s.push (.tag (.ofList handle) (.ofList suffix)) start after.mark
  return { s with cursor := after, keyAllowed := false }

def fetchBlockScalar (s : Scanner) (literal : Bool) : Except Fault Scanner := do
  let s ← s.dropCandidate
  let start := s.cursor.mark
  let (text, stop, after) ← scanBlock literal s.indent s.cursor
  let s := s.push (.scalar (.ofList text) false) start stop
  return { s with cursor := after, keyAllowed := true }

def fetchQuoted (s : Scanner) (single : Bool) : Except Fault Scanner := do
  let s ← s.saveCandidate
  let start := s.cursor.mark
  let (text, after) ← scanQuoted single s.cursor
  let s := s.push (.scalar (.ofList text) false) start after.mark
  return { s with cursor := after, keyAllowed := false }

def fetchPlain (s : Scanner) : Except Fault Scanner := do
  let s ← s.saveCandidate
  let start := s.cursor.mark
  let scalar ← scanPlain s.inFlow s.indent s.cursor
  let s := s.push (.scalar (.ofList scalar.value) true) start scalar.stop
  return { s with cursor := scalar.after, keyAllowed := scalar.broken }

/-- Whether a plain scalar may start with `c`, which `next` follows. -/
def startsPlain (flow : Bool) (c : Char) (next : Option Char) : Bool :=
  let special := c == '-' || c == '?' || c == ':' || c == ',' || c == '[' || c == ']'
    || c == '\x7b' || c == '\x7d' || c == '#' || c == '&' || c == '*' || c == '!' || c == '|'
    || c == '>' || c == '\'' || c == '"' || c == '%' || c == '@' || c == '\x60'
  !(isSpace c || isBreak c || special)
    || (c == '-' && !(next.any isSpace))
    || (!flow && (c == '?' || c == ':') && !blankOrEnd next)

def fetchToken (s : Scanner) : Except Fault Scanner :=
  let c := s.cursor
  let next := c.peekAt 1
  match c.peek with
  | none => s.fetchStreamEnd
  | some d =>
    if c.mark.column == 0 && d == '%' then s.fetchDirective
    else if c.atIndicator '-' then s.fetchDocumentIndicator .documentStart
    else if c.atIndicator '.' then s.fetchDocumentIndicator .documentEnd
    else if d == '[' then s.fetchFlowStart .flowSequenceStart
    else if d == '\x7b' then s.fetchFlowStart .flowMappingStart
    else if d == ']' then s.fetchFlowEnd .flowSequenceEnd
    else if d == '\x7d' then s.fetchFlowEnd .flowMappingEnd
    else if d == ',' then s.fetchFlowEntry
    else if d == '-' && blankOrEnd next then s.fetchBlockEntry
    else if d == '?' && (s.inFlow || blankOrEnd next) then s.fetchKey
    else if d == ':' && (s.inFlow || blankOrEnd next) then s.fetchValue
    else if d == '*' then s.fetchAnchor true
    else if d == '&' then s.fetchAnchor false
    else if d == '!' then s.fetchTag
    else if d == '|' && !s.inFlow then s.fetchBlockScalar true
    else if d == '>' && !s.inFlow then s.fetchBlockScalar false
    else if d == '\'' then s.fetchQuoted true
    else if d == '"' then s.fetchQuoted false
    else if startsPlain s.inFlow d next then s.fetchPlain
    else .error (problemIn .strayCharacter c.mark .nextToken c.mark)

def step (s : Scanner) : Except Fault Scanner := do
  let s := s.skipToToken (s.cursor.rest.length + 1)
  let s ← s.dropStale
  let s ← (s.closeBlocks s.cursor.mark.column).fetchToken
  s.dropStale

/-- How many tokens no later key can change. -/
def settled (s : Scanner) : Nat :=
  s.candidates.foldl (fun n candidate =>
    match candidate with
    | some k => min n k.number
    | none => n) s.tokens.size

def stop (s : Scanner) (fault : Fault) : List Token × Option Fault :=
  (s.tokens.toList.take s.settled, some fault)

/-- Reads tokens to the end of the text, `fuel` steps at most. Nothing is read at the wall or behind
it. -/
def run (wall : Option Wall) : Nat → Scanner → List Token × Option Fault
  | 0, s => (s.tokens.toList, none)
  | fuel + 1, s =>
    match s.step with
    | .error fault =>
      s.stop (match wall with
        | some w => if fault.place?.any w.isReached then w.fault else fault
        | none => fault)
    | .ok next =>
      match wall with
      | some w => if w.isReached next.cursor.mark then s.stop w.fault else run wall fuel next
      | none => if next.finished then (next.tokens.toList, none) else run wall fuel next

end Scanner

/-- The tokens of a text, and the fault that ended them if there is one. -/
def scanTokens (s : String) : List Token × Option Fault :=
  (Scanner.ofText s).run (Wall.ofText? s) (s.toList.length + 2)

end RamlScaffold.Yaml

import RamlScaffold.Yaml.Fault
import RamlScaffold.Yaml.Token

/-!
From tokens to events: the nodes of a document in the order of the text, collections as a start
and an end. The grammar is a machine with a stack: each step looks at the next token and yields one
event. `firstDocument` cuts out the events of the first document and numbers its anchors.
-/

namespace RamlScaffold.Yaml

structure Properties where
  anchor : Option String
  tag : Option String
deriving DecidableEq, Repr

inductive Event where
  | streamEnd
  | documentStart
  | documentEnd
  | alias (name : String)
  | scalar (properties : Properties) (text : String) (plain : Bool)
  | sequenceStart (properties : Properties)
  | sequenceEnd
  | mappingStart (properties : Properties)
  | mappingEnd
deriving DecidableEq, Repr

inductive Expect where
  | streamStart
  | implicitDocumentStart
  | documentStart
  | documentContent
  | documentEnd
  | blockNode
  | blockSequenceFirst
  | blockSequenceEntry
  | indentlessEntry
  | blockMappingFirst
  | blockMappingKey
  | blockMappingValue
  | flowSequenceFirst
  | flowSequenceEntry
  | flowPairKey
  | flowPairValue
  | flowPairEnd
  | flowMappingFirst
  | flowMappingKey
  | flowMappingValue
  | flowMappingEmptyValue
  | nothing
deriving DecidableEq, Repr

/-- The machine: the tokens to come, the fault that ends them, what is expected now and after the
open collections, where these began, and the tag abbreviations of the document. -/
structure Machine where
  tokens : List Token
  ending : Option Fault
  expect : Expect
  later : List Expect
  begun : List Mark
  handles : List (String × String)
deriving Repr

abbrev Placed := Event × Mark

namespace Machine

def ofTokens (tokens : List Token) (ending : Option Fault) : Machine :=
  ⟨tokens, ending, .streamStart, [], [], []⟩

def peek (m : Machine) : Except Fault Token :=
  match m.tokens with
  | t :: _ => .ok t
  | [] => .error (m.ending.getD .endOfStream)

def skip (m : Machine) : Machine := { m with tokens := m.tokens.drop 1 }

def pop (m : Machine) : Machine :=
  { m with expect := m.later.headD .nothing, later := m.later.drop 1 }

def leave (m : Machine) : Machine := { m with begun := m.begun.drop 1 }

def fail (m : Machine) (problem : Problem) (place : Mark) (context : Context) : Fault :=
  .grammar problem place (some (context, m.begun.headD .start))

def now (m : Machine) (e : Expect) : Machine := { m with expect := e }

/-- Expects `e` once the node that follows is complete. -/
def after (m : Machine) (e : Expect) : Machine := { m with later := e :: m.later }

def emptyScalar (m : Machine) (mark : Mark) : Except Fault (Placed × Machine) :=
  .ok ((.scalar ⟨none, none⟩ "" true, mark), m)

def standardHandles : List (String × String) := [("!", "!"), ("!!", "tag:yaml.org,2002:")]

def knowsHandle (m : Machine) (handle : String) : Bool := m.handles.any (·.1 == handle)

/-- Adds the standard abbreviations that the document does not define itself. -/
def addStandardHandles (m : Machine) : Machine :=
  { m with handles := m.handles ++ standardHandles.filter fun h => !m.knowsHandle h.1 }

def directives : Nat → Bool → Machine → Except Fault Machine
  | 0, _, m => .ok m
  | fuel + 1, versioned, m =>
    match m.peek with
    | .error fault => .error fault
    | .ok token =>
      match token.kind with
      | .versionDirective major minor =>
        if versioned then .error (.grammar .duplicateVersion token.start none)
        else if major != 1 || (minor != 1 && minor != 2) then
          .error (.grammar .incompatibleVersion token.start none)
        else directives fuel true m.skip
      | .tagDirective handle start =>
        if m.knowsHandle handle then .error (.grammar .duplicateTagDirective token.start none)
        else directives fuel versioned { m.skip with handles := m.handles ++ [(handle, start)] }
      | _ => .ok m.addStandardHandles

def dropDocumentEnds (m : Machine) : Machine :=
  { m with tokens := m.tokens.dropWhile fun t => t.kind == .documentEnd }

def documentStart (m : Machine) (implicit : Bool) : Except Fault (Placed × Machine) := do
  let m := if implicit then m else m.dropDocumentEnds
  let token ← m.peek
  let explicit := match token.kind with
    | .versionDirective .. | .tagDirective .. | .documentStart => true
    | _ => false
  if token.kind == .streamEnd then
    return ((.streamEnd, token.start), (m.skip.now .nothing))
  else if implicit && !explicit then
    return ((.documentStart, token.start),
      { m.addStandardHandles with expect := .blockNode, later := .documentEnd :: m.later })
  else
    let next ← m.directives (m.tokens.length + 1) false
    let found ← next.peek
    if found.kind != .documentStart then
      throw (.grammar .missingDocumentStart found.start none)
    return ((.documentStart, token.start),
      { next.skip with expect := .documentContent, later := .documentEnd :: next.later })

def documentEnd (m : Machine) : Except Fault (Placed × Machine) := do
  let token ← m.peek
  let m := if token.kind == .documentEnd then m.skip else m
  return ((.documentEnd, token.start), { m with handles := [], expect := .documentStart })

/-- Reads an anchor and a tag in either order: the anchor, the tag with its handle and place, and
the place of the first of them. A fault in the token after them comes before one in the tag. -/
def properties (m : Machine) :
    Except Fault (Option String × Option (String × String × Mark) × Mark × Machine) := do
  let token ← m.peek
  match token.kind with
  | .anchor name =>
    let m := m.skip
    let second ← m.peek
    match second.kind with
    | .tag handle suffix =>
      let _ ← m.skip.peek
      return (some name, some (handle, suffix, second.start), token.start, m.skip)
    | _ => return (some name, none, token.start, m)
  | .tag handle suffix =>
    let m := m.skip
    let second ← m.peek
    match second.kind with
    | .anchor name =>
      let _ ← m.skip.peek
      return (some name, some (handle, suffix, token.start), token.start, m.skip)
    | _ => return (none, some (handle, suffix, token.start), token.start, m)
  | _ => return (none, none, token.start, m)

def resolveTag (m : Machine) (start : Mark) :
    Option (String × String × Mark) → Except Fault (Option String)
  | none => .ok none
  | some (handle, suffix, place) =>
    if handle == "" then .ok (some suffix)
    else
      match m.handles.find? (·.1 == handle) with
      | some (_, uri) => .ok (some (uri ++ suffix))
      | none => .error (.grammar .undefinedHandle place (some (.node, start)))

/-- A node without content: an empty scalar when it has properties, a fault otherwise. -/
def absent (m : Machine) (block : Bool) (start : Mark) (token : Token) (props : Properties) :
    Except Fault (Placed × Machine) :=
  if props.anchor.isSome || props.tag.isSome then .ok ((.scalar props "" true, start), m.pop)
  else
    .error (.grammar .missingNode token.start
      (some (if block then .blockNode else .flowNode, start)))

/-- Reads a node. `block` admits block collections, `indentless` a sequence whose entries stand at
the indentation of the surrounding mapping. -/
def node (m : Machine) (block indentless : Bool) : Except Fault (Placed × Machine) := do
  let token ← m.peek
  match token.kind with
  | .alias name => return ((.alias name, token.start), m.skip.pop)
  | _ =>
    let (anchor, rawTag, start, m) ← m.properties
    let tag ← m.resolveTag start rawTag
    let token ← m.peek
    let props : Properties := ⟨anchor, tag⟩
    match token.kind with
    | .blockEntry =>
      if indentless then
        return ((.sequenceStart props, start), (m.now .indentlessEntry))
      else m.absent block start token props
    | .scalar text plain =>
      let props : Properties := if tag == some "!" then ⟨anchor, none⟩ else props
      return ((.scalar props text plain, start), m.skip.pop)
    | .flowSequenceStart =>
      return ((.sequenceStart props, start), (m.now .flowSequenceFirst))
    | .flowMappingStart =>
      return ((.mappingStart props, start), (m.now .flowMappingFirst))
    | .blockSequenceStart =>
      if block then return ((.sequenceStart props, start), (m.now .blockSequenceFirst))
      else m.absent block start token props
    | .blockMappingStart =>
      if block then return ((.mappingStart props, start), (m.now .blockMappingFirst))
      else m.absent block start token props
    | _ => m.absent block start token props

def documentContent (m : Machine) : Except Fault (Placed × Machine) := do
  let token ← m.peek
  match token.kind with
  | .versionDirective .. | .tagDirective .. | .documentStart | .documentEnd | .streamEnd =>
    m.pop.emptyScalar token.start
  | _ => m.node true false

def enter (m : Machine) : Except Fault Machine := do
  let token ← m.peek
  return { m.skip with begun := token.start :: m.begun }

def blockSequenceEntry (m : Machine) : Except Fault (Placed × Machine) := do
  let token ← m.peek
  match token.kind with
  | .blockEntry =>
    let m := m.skip
    let next ← m.peek
    if next.kind == .blockEntry || next.kind == .blockEnd then
      (m.now .blockSequenceEntry).emptyScalar token.stop
    else (m.after .blockSequenceEntry).node true false
  | .blockEnd => return ((.sequenceEnd, token.start), m.skip.pop.leave)
  | _ => throw (m.fail .missingDash token.start .blockSequence)

def indentlessEntry (m : Machine) : Except Fault (Placed × Machine) := do
  let token ← m.peek
  match token.kind with
  | .blockEntry =>
    let m := m.skip
    let next ← m.peek
    match next.kind with
    | .blockEntry | .key | .value | .blockEnd =>
      (m.now .indentlessEntry).emptyScalar token.stop
    | _ => (m.after .indentlessEntry).node true false
  | _ => return ((.sequenceEnd, token.start), m.pop)

def blockMappingKey (m : Machine) : Except Fault (Placed × Machine) := do
  let token ← m.peek
  match token.kind with
  | .key =>
    let m := m.skip
    let next ← m.peek
    match next.kind with
    | .key | .value | .blockEnd => (m.now .blockMappingValue).emptyScalar token.stop
    | _ => (m.after .blockMappingValue).node true true
  | .blockEnd => return ((.mappingEnd, token.start), m.skip.pop.leave)
  | _ => throw (m.fail .missingKey token.start .blockMapping)

def blockMappingValue (m : Machine) : Except Fault (Placed × Machine) := do
  let token ← m.peek
  match token.kind with
  | .value =>
    let m := m.skip
    let next ← m.peek
    match next.kind with
    | .key | .value | .blockEnd => (m.now .blockMappingKey).emptyScalar token.stop
    | _ => (m.after .blockMappingKey).node true true
  | _ => (m.now .blockMappingKey).emptyScalar token.start

def comma (m : Machine) (first : Bool) (problem : Problem) (context : Context) :
    Except Fault Machine := do
  if first then return m
  let token ← m.peek
  if token.kind == .flowEntry then return m.skip
  throw (m.fail problem token.start context)

def flowSequenceEntry (m : Machine) (first : Bool) : Except Fault (Placed × Machine) := do
  let token ← m.peek
  if token.kind == .flowSequenceEnd then return ((.sequenceEnd, token.start), m.skip.pop.leave)
  let m ← m.comma first .missingSequenceComma .flowSequence
  let token ← m.peek
  match token.kind with
  | .key =>
    return ((.mappingStart ⟨none, none⟩, token.start), (m.skip.now .flowPairKey))
  | .flowSequenceEnd => return ((.sequenceEnd, token.start), m.skip.pop.leave)
  | _ => (m.after .flowSequenceEntry).node false false

def flowPairKey (m : Machine) : Except Fault (Placed × Machine) := do
  let token ← m.peek
  match token.kind with
  | .value | .flowEntry | .flowSequenceEnd =>
    (m.skip.now .flowPairValue).emptyScalar token.stop
  | _ => (m.after .flowPairValue).node false false

def flowPairValue (m : Machine) : Except Fault (Placed × Machine) := do
  let token ← m.peek
  if token.kind == .value then
    let m := m.skip
    let next ← m.peek
    match next.kind with
    | .flowEntry | .flowSequenceEnd => (m.now .flowPairEnd).emptyScalar next.start
    | _ => (m.after .flowPairEnd).node false false
  else (m.now .flowPairEnd).emptyScalar token.start

def flowPairEnd (m : Machine) : Except Fault (Placed × Machine) := do
  let token ← m.peek
  return ((.mappingEnd, token.start), (m.now .flowSequenceEntry))

def flowMappingKey (m : Machine) (first : Bool) : Except Fault (Placed × Machine) := do
  let token ← m.peek
  if token.kind == .flowMappingEnd then return ((.mappingEnd, token.start), m.skip.pop.leave)
  let m ← m.comma first .missingMappingComma .flowMapping
  let token ← m.peek
  match token.kind with
  | .key =>
    let m := m.skip
    let next ← m.peek
    match next.kind with
    | .value | .flowEntry | .flowMappingEnd =>
      (m.now .flowMappingValue).emptyScalar next.start
    | _ => (m.after .flowMappingValue).node false false
  | .flowMappingEnd => return ((.mappingEnd, token.start), m.skip.pop.leave)
  | _ => (m.after .flowMappingEmptyValue).node false false

def flowMappingValue (m : Machine) (empty : Bool) : Except Fault (Placed × Machine) := do
  let token ← m.peek
  let m' := m.now .flowMappingKey
  if empty then m'.emptyScalar token.start
  else if token.kind == .value then
    let m := m.skip
    let next ← m.peek
    match next.kind with
    | .flowEntry | .flowMappingEnd => (m.now .flowMappingKey).emptyScalar next.start
    | _ => (m.after .flowMappingKey).node false false
  else m'.emptyScalar token.start

def step (m : Machine) : Except Fault (Placed × Machine) :=
  match m.expect with
  | .streamStart => (m.skip.now .implicitDocumentStart).documentStart true
  | .implicitDocumentStart => m.documentStart true
  | .documentStart => m.documentStart false
  | .documentContent => m.documentContent
  | .documentEnd => m.documentEnd
  | .blockNode => m.node true false
  | .blockSequenceFirst => do (← m.enter).blockSequenceEntry
  | .blockSequenceEntry => m.blockSequenceEntry
  | .indentlessEntry => m.indentlessEntry
  | .blockMappingFirst => do (← m.enter).blockMappingKey
  | .blockMappingKey => m.blockMappingKey
  | .blockMappingValue => m.blockMappingValue
  | .flowSequenceFirst => do (← m.enter).flowSequenceEntry true
  | .flowSequenceEntry => m.flowSequenceEntry false
  | .flowPairKey => m.flowPairKey
  | .flowPairValue => m.flowPairValue
  | .flowPairEnd => m.flowPairEnd
  | .flowMappingFirst => do (← m.enter).flowMappingKey true
  | .flowMappingKey => m.flowMappingKey false
  | .flowMappingValue => m.flowMappingValue false
  | .flowMappingEmptyValue => m.flowMappingValue true
  | .nothing => .error (m.ending.getD .endOfStream)

end Machine

end RamlScaffold.Yaml

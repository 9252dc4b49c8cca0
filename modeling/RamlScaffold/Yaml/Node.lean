import RamlScaffold.Json.Writer
import RamlScaffold.Yaml.Document
import RamlScaffold.Yaml.Scalar

/-!
The tree of a document. Keys of any kind become text, a key written twice keeps its first place
and its last value, and local tags are kept on the nodes that carry them. Aliases are expanded; the
number of expansions and the depth of nesting are limited.
-/

namespace RamlScaffold.Yaml

/-- A node of the tree. A tag is kept without its leading marks. -/
inductive Node where
  | null
  | bool (value : Bool)
  | number (value : Number)
  | text (value : String)
  | list (items : List Node)
  | map (fields : List (String × Node))
  | tagged (tag : String) (node : Node)
deriving Inhabited, Repr

namespace Node

def ofScalar : Scalar → Node
  | .null => .null
  | .bool b => .bool b
  | .number n => .number n
  | .text s => .text s

mutual

def plain : Node → Value
  | .null => .null
  | .bool b => .bool b
  | .number n => .number n
  | .text s => .text s
  | .list items => .list (plainItems items)
  | .map fields => .map (plainFields fields)
  | .tagged _ node => node.plain
termination_by structural n => n

def plainItems : List Node → List Value
  | [] => []
  | n :: rest => n.plain :: plainItems rest
termination_by structural ns => ns

def plainFields : List (String × Node) → List (String × Value)
  | [] => []
  | (k, n) :: rest => (k, n.plain) :: plainFields rest
termination_by structural fs => fs

end

/-- The text of a node as a mapping key: scalars by their text, collections by their JSON. -/
def keyText : Node → String
  | .null => "null"
  | .bool b => if b then "true" else "false"
  | .number n => n.text
  | .text s => s
  | .tagged _ node => node.keyText
  | .list items => Json.render (.list (plainItems items))
  | .map fields => Json.render (.map (plainFields fields))

end Node

inductive Step where
  | index (n : Nat)
  | key (text : String)
  /-- A value whose key is no scalar. -/
  | unknown
deriving DecidableEq, Repr

abbrev NodePath := List Step

def NodePath.text : NodePath → String
  | [] => "."
  | .index n :: outer => NodePath.text outer ++ "[" ++ toString n ++ "]"
  | .key k :: outer => inner outer ++ k
  | .unknown :: outer => inner outer ++ "?"
where
  /-- The path of the collection with a point after it; nothing for the document. -/
  inner : NodePath → String
    | [] => ""
    | step :: outer => NodePath.text (step :: outer) ++ "."

namespace Document

def maxDepth : Nat := 128

/-- Aliases may be followed this many times for each event of the document. -/
def aliasBudget : Nat := 100

/-- Where reading stands: the next event, and how many aliases were followed. -/
structure Position where
  event : Nat
  aliases : Nat

abbrev Read := Except Fault (Node × Position)

def event (d : Document) (n : Nat) : Except Fault (NodeEvent × Mark) :=
  match d.events[n]? with
  | some e => .ok e
  | none => .error (d.fault.getD .endOfStream)

/-- The local tag that a node carries: one that starts with an exclamation mark, without it. -/
def localTag? : Option String → Option String
  | none => none
  | some tag =>
    match tag.toList with
    | '!' :: rest => some (.ofList rest)
    | _ => none

/-- Wraps a node in its local tag. -/
def tagWith (tag : Option String) (node : Node) : Node :=
  match localTag? tag with
  | some t => .tagged (.ofList (t.toList.dropWhile (· == '!'))) node
  | none => node

def items (d : Document) (read : NodePath → Position → Read) (path : NodePath) :
    Nat → Nat → Position → List Node → Except Fault (List Node × Position)
  | 0, _, _, _ => .error .endOfStream
  | fuel + 1, index, p, found => do
    let (e, _) ← d.event p.event
    match e with
    | .sequenceEnd | .void => return (found.reverse, { p with event := p.event + 1 })
    | _ =>
      let (node, p) ← read (.index index :: path) p
      items d read path fuel (index + 1) p (node :: found)

def fields (d : Document) (readKey read : NodePath → Position → Read) (path : NodePath) :
    Nat → Position → Fields Node → Except Fault (Fields Node × Position)
  | 0, _, _ => .error .endOfStream
  | fuel + 1, p, found => do
    let (e, _) ← d.event p.event
    match e with
    | .mappingEnd | .void => return (found, { p with event := p.event + 1 })
    | _ =>
      let step : Step := match e with
        | .scalar _ text _ => .key text
        | _ => .unknown
      let (key, p) ← readKey path p
      let (value, p) ← read (step :: path) p
      fields d readKey read path fuel p (found.put key.keyText value)

/-- Follows an alias to the event it stands for; any other event stands for itself. -/
def follow (d : Document) (p : Position) : Except Fault (Nat × Position) := do
  let (e, _) ← d.event p.event
  match e with
  | .alias number =>
    if p.aliases + 1 > d.events.size * aliasBudget then throw .tooManyAliases
    return ((d.target? number).getD d.events.size, ⟨p.event, p.aliases + 1⟩)
  | _ => return (p.event, p)

/-- Reads the node at a position, within `depth` levels of nesting. A local tag covers the keys of
its mapping too: tags on `covered` nodes count for nothing. -/
def node (d : Document) : Nat → Bool → NodePath → Position → Read
  | depth, covered, path, p => do
    let (at_, p') ← d.follow p
    let (e, mark) ← d.event at_
    let covered := covered && at_ == p.event
    let resume (q : Position) : Position :=
      if at_ == p.event then q else { q with event := p.event + 1 }
    match e with
    | .scalar tag text plain =>
      let tag := if covered then none else tag
      let tag' := if (localTag? tag).isSome then none else tag
      match taggedScalar tag' text plain with
      | .error bad => throw (.value bad mark path.text)
      | .ok scalar =>
        return (tagWith tag (.ofScalar scalar), { p' with event := p.event + 1 })
    | .sequenceStart tag =>
      let tag := if covered then none else tag
      match depth with
      | 0 => throw (.tooDeep mark)
      | depth + 1 =>
        let (found, q) ← d.items (d.node depth false) path (d.events.size + 1) 0
          { p' with event := at_ + 1 } []
        return (tagWith tag (.list found), resume q)
    | .mappingStart tag =>
      let tag := if covered then none else tag
      let covering := covered || (localTag? tag).isSome
      match depth with
      | 0 => throw (.tooDeep mark)
      | depth + 1 =>
        let (found, q) ← d.fields (d.node depth covering) (d.node depth false) path
          (d.events.size + 1) { p' with event := at_ + 1 } []
        return (tagWith tag (.map found), resume q)
    | .void => return (.null, { p' with event := p.event + 1 })
    | .alias _ | .sequenceEnd | .mappingEnd => throw .endOfStream

end Document

/-- Where the events of a text come from. What reads documents takes the source as given. -/
class EventSource where
  document : String → Document

instance EventSource.ofText : EventSource := ⟨Document.ofText⟩

/-- The tree of the only document of a text. -/
def read [EventSource] (s : String) : Except Fault Node :=
  let d := EventSource.document s
  match d.node Document.maxDepth false [] ⟨0, 0⟩ with
  | .error fault => .error fault
  | .ok (node, _) =>
    match d.fault with
    | some fault => .error fault
    | none => if d.more then .error .severalDocuments else .ok node

end RamlScaffold.Yaml

import RamlScaffold.Yaml.Event
import RamlScaffold.Yaml.Token.Scan

/-!
The first document of a text as numbered events. Aliases are resolved to numbers; where each
number points is kept beside the events. A number is the count of anchor names known when its
anchor was met.
-/

namespace RamlScaffold.Yaml

/-- A node event: aliases by number, scalars with their tag. -/
inductive NodeEvent where
  | alias (number : Nat)
  | scalar (tag : Option String) (text : String) (plain : Bool)
  | sequenceStart (tag : Option String)
  | sequenceEnd
  | mappingStart (tag : Option String)
  | mappingEnd
  /-- The text holds no document at all. -/
  | void
deriving DecidableEq, Repr

/-- A document: its events, where each anchor number points, the fault that ended it early, and
whether the text goes on after it. -/
structure Document where
  events : Array (NodeEvent × Mark)
  targets : List (Nat × Nat)
  fault : Option Fault
  more : Bool
deriving Repr

namespace Document

def empty : Document := ⟨#[], [], none, false⟩

/-- The event an anchor number points to; the latest anchor with that number wins. -/
def target? (d : Document) (number : Nat) : Option Nat :=
  (d.targets.find? (·.1 == number)).map (·.2)

abbrev Names := List (String × Nat)

/-- Gives an anchor its number: the count of known names. -/
def number (names : Names) : Option String → Names × Option Nat
  | none => (names, none)
  | some name =>
    let n := names.length
    ((name, n) :: names.filter (·.1 != name), some n)

def add (d : Document) (event : NodeEvent) (mark : Mark) (anchor : Option Nat) : Document :=
  { d with
    events := d.events.push (event, mark)
    targets := match anchor with
      | some n => (n, d.events.size) :: d.targets
      | none => d.targets }

def hasMore (m : Machine) : Bool :=
  match m.step with
  | .ok ((.streamEnd, _), _) => false
  | _ => true

/-- Collects events up to the end of the document, `fuel` of them at most. -/
def collect : Nat → Machine → Names → Document → Document
  | 0, _, _, d => d
  | fuel + 1, m, names, d =>
    match m.step with
    | .error fault => { d with fault := some fault }
    | .ok ((event, mark), m) =>
      match event with
      | .documentStart => collect fuel m names d
      | .documentEnd => { d with more := hasMore m }
      | .streamEnd => if d.events.isEmpty then d.add .void mark none else d
      | .alias name =>
        match names.find? (·.1 == name) with
        | some (_, n) => collect fuel m names (d.add (.alias n) mark none)
        | none => { d with fault := some (.unknownAnchor mark) }
      | .scalar props text plain =>
        let (names, anchor) := number names props.anchor
        collect fuel m names (d.add (.scalar props.tag text plain) mark anchor)
      | .sequenceStart props =>
        let (names, anchor) := number names props.anchor
        collect fuel m names (d.add (.sequenceStart props.tag) mark anchor)
      | .mappingStart props =>
        let (names, anchor) := number names props.anchor
        collect fuel m names (d.add (.mappingStart props.tag) mark anchor)
      | .sequenceEnd => collect fuel m names (d.add .sequenceEnd mark none)
      | .mappingEnd => collect fuel m names (d.add .mappingEnd mark none)

def ofText (s : String) : Document :=
  let (tokens, ending) := scanTokens s
  collect (8 * (tokens.length + 4)) (.ofTokens tokens ending) [] empty

end Document

end RamlScaffold.Yaml

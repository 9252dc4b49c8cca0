import Std.Data.HashMap
import RamlScaffold.Code.Rule

/-!
The automaton of a grammar. Its states are sets of places inside productions: all the places that
fit what has been read. Terminals and rules are numbered together, terminals first.
-/

namespace RamlScaffold.Code

/-- A place inside a production: before a part, or at the end. -/
structure Spot where
  production : Nat
  /-- The number of the next part; none at the end. -/
  next : Option Nat
  inside : Bool
  /-- The rank that the part before gives. -/
  precedence : Int
  side : Option Side
deriving Repr

/-- What a production does to a stack. -/
structure Reduction where
  rule : Nat
  size : Nat
  precedence : Int
  side : Option Side
deriving Repr

/-- The places that fit what has been read. -/
structure State where
  /-- The state after each part; zero where there is none. -/
  next : Array Nat
  complete : List Nat
  /-- The next parts of the productions that have been started, with the ranks that they give. -/
  started : List (Nat × Int)

structure Automaton where
  terminals : Std.HashMap Terminal Nat
  reductions : Array Reduction
  /-- The terminals that a part can start with, as the bits of a number. -/
  firsts : Array Nat
  states : Array State

namespace Automaton

def numbering (terminals : List Terminal) (rules : List String) : Std.HashMap Part Nat :=
  let parts := terminals.map Part.terminal ++ rules.map Part.rule
  parts.zipIdx.foldl (fun numbers (part, i) => numbers.insert part i) ∅

/-- The places of a production, from its start to its end. -/
def spotsOf (numbers : Std.HashMap Part Nat) (production : Nat) :
    Option Step → List Step → List Spot
  | before, steps =>
    let rank (next : Option Nat) : Spot :=
      { production, next, inside := before.isSome
        precedence := (before.bind (·.precedence)).getD 0, side := before.bind (·.side) }
    match steps with
    | [] => [rank none]
    | step :: rest => rank (some (numbers.getD step.part 0)) :: spotsOf numbers production step rest

def bits (mask : Nat) (limit : Nat) : List Nat := (List.range limit).filter fun i => mask.testBit i

/-- Lets each number take over the bits of others until nothing changes, at most `fuel` times. -/
def saturate (step : Array Nat → Array Nat) : Nat → Array Nat → Array Nat
  | 0, masks => masks
  | fuel + 1, masks =>
    let more := step masks
    if more == masks then masks else saturate step fuel more

/-- What is needed to find the states of a grammar. -/
structure Plan where
  width : Nat
  spots : Array Spot
  /-- The first places of the productions of each part. -/
  starts : Array (List Nat)
  /-- For each part the parts that it can start with, itself included, as bits. -/
  leftmost : Array Nat

namespace Plan

/-- The places that fit when those of a kernel do. -/
def closure (plan : Plan) (kernel : List Nat) : List Nat :=
  let mask := kernel.foldl
    (fun mask i =>
      match plan.spots[i]?.bind (·.next) with
      | some part => mask ||| plan.leftmost.getD part 0
      | none => mask)
    0
  kernel ++ (bits mask plan.width).flatMap fun part => plan.starts.getD part []

/-- The places after each part that can come next. -/
def successors (plan : Plan) (places : List Nat) : Array (List Nat) :=
  places.foldl
    (fun after i =>
      match plan.spots[i]?.bind (·.next) with
      | some part => after.modify part ((i + 1) :: ·)
      | none => after)
    (Array.replicate plan.width [])

structure Found where
  kernels : Array (List Nat)
  numbers : Std.HashMap (List Nat) Nat

/-- The number of a kernel, which is added if it is new. -/
def Found.number (found : Found) (kernel : List Nat) : Nat × Found :=
  match found.numbers[kernel]? with
  | some n => (n, found)
  | none =>
    let n := found.kernels.size
    (n, ⟨found.kernels.push kernel, found.numbers.insert kernel n⟩)

def state (plan : Plan) (kernel : List Nat) (found : Found) : State × Found :=
  let places := plan.closure kernel
  let (next, found) := (plan.successors places).foldl
    (fun (next, found) kernel =>
      if kernel.isEmpty then (next.push 0, found)
      else
        let (n, found) := Found.number found (kernel.mergeSort (· ≤ ·))
        (next.push n, found))
    (#[], found)
  let spots := places.filterMap fun i => plan.spots[i]?
  let complete := spots.filterMap fun s => if s.next.isNone then some s.production else none
  let started := spots.filterMap fun s => if s.inside then s.next.map (·, s.precedence) else none
  (⟨next, complete, started⟩, found)

def states (plan : Plan) : Nat → Nat → Found → Array State → Array State
  | 0, _, _, done => done
  | fuel + 1, i, found, done =>
    match found.kernels[i]? with
    | some kernel =>
      let (state, found) := plan.state kernel found
      states plan fuel (i + 1) found (done.push state)
    | none => done

end Plan

def mostStates : Nat := 100000

/-- The automaton of a grammar. State zero has read nothing. -/
def ofGrammar (g : Grammar) : Automaton :=
  let productions := g.productions
  let parts := productions.flatMap fun p => p.steps.map (·.part)
  let terminals := (parts.filterMap fun part =>
    match part with
    | .terminal t => some t
    | .rule _ => none).eraseDups
  let rules := (productions.map (·.rule)).eraseDups
  let numbers := numbering terminals rules
  let width := terminals.length + rules.length
  let number (part : Part) : Nat := numbers.getD part 0
  let spots := (productions.zipIdx.flatMap fun (p, i) => spotsOf numbers i none p.steps).toArray
  let starts := productions.foldl
    (fun (starts, i) p =>
      (starts.modify (number (.rule p.rule)) (· ++ [i]), i + p.steps.length + 1))
    ((Array.replicate width ([] : List Nat)), 0)
  let heads := productions.filterMap fun p =>
    p.steps.head?.map fun step => (number (.rule p.rule), number step.part)
  let inherit (masks : Array Nat) : Array Nat := heads.foldl
    (fun masks (rule, head) => masks.modify rule (· ||| masks.getD head 0)) masks
  let own (part : Nat) : Nat := 1 <<< part
  let leftmost := saturate inherit width ((Array.range width).map own)
  let firsts := leftmost.map (· % own terminals.length)
  let plan : Plan := ⟨width, spots, starts.1, leftmost⟩
  { terminals := terminals.zipIdx.foldl (fun found (t, i) => found.insert t i) ∅
    reductions := (productions.map fun p =>
      let last := p.steps.getLast?
      { rule := number (.rule p.rule), size := p.steps.length
        precedence := (last.bind (·.precedence)).getD 0, side := last.bind (·.side) }).toArray
    firsts
    states :=
      plan.states mostStates 0 ⟨#[[0]], ({} : Std.HashMap (List Nat) Nat).insert [0] 0⟩ #[] }

end Automaton

end RamlScaffold.Code

import RamlScaffold.Code.Automaton
import RamlScaffold.Code.Grammar.Statement

/-!
What has been read, as the states that the automaton has gone through. A terminal can come next if
it can after some productions have been completed. Where a terminal can both be read and complete a
production, or complete several, precedences decide, then sides; if nothing decides, all the ways
are followed.
-/

namespace RamlScaffold.Code

abbrev Stack := List Nat

namespace Automaton

def top (a : Automaton) (stack : Stack) : Option State := stack.head?.bind fun q => a.states[q]?

/-- The state after reading a part, if it can be read. -/
def follow (s : State) (part : Nat) : Option Nat :=
  match s.next.getD part 0 with
  | 0 => none
  | q => some q

/-- The stack after completing a production. -/
def complete (a : Automaton) (stack : Stack) (production : Nat) : Option Stack := do
  let r ← a.reductions[production]?
  let below := stack.drop r.size
  let q ← follow (← a.top below) r.rule
  return q :: below

/-- Whether a terminal can come next, after at most `fuel` completions. -/
def possibleFrom (a : Automaton) (terminal : Nat) : Nat → Stack → Bool
  | 0, _ => false
  | fuel + 1, stack =>
    match a.top stack with
    | some s =>
      (follow s terminal).isSome || s.complete.any fun production =>
        (a.complete stack production).any (possibleFrom a terminal fuel)
    | none => false

/-- A bound for the completions before a terminal: on a stack of some depth. -/
def mostCompletions (stack : Stack) : Nat := 16 * (stack.length + 4)

def possible (a : Automaton) (stack : Stack) (t : Terminal) : Bool :=
  match a.terminals[t]? with
  | some terminal => a.possibleFrom terminal (mostCompletions stack) stack
  | none => false

/-- What can be done about a terminal. -/
structure Moves where
  read : Option Nat
  /-- The stacks after completing a production before it. -/
  completed : List Stack

/-- Decides between reading a terminal and completing productions of a precedence: the higher
precedence wins, and of equal ones the side to which all the productions associate. -/
def decide (a : Automaton) (s : State) (terminal : Nat) (reductions : List (Reduction × Stack))
    (precedence : Int) (q : Nat) : Moves :=
  let ranks := s.started.filterMap fun (part, rank) =>
    if (a.firsts.getD part 0).testBit terminal then some rank else none
  let more := ranks.any (precedence < ·)
  let less := ranks.any (· < precedence)
  let sides := reductions.map (·.1.side)
  let completed := reductions.map (·.2)
  if more && !less then ⟨some q, []⟩
  else if less && !more then ⟨none, completed⟩
  else if more && less then ⟨some q, completed⟩
  else if sides.all (· == some .left) then ⟨none, completed⟩
  else if sides.all (· == some .right) then ⟨some q, []⟩
  else ⟨some q, completed⟩

def moves (a : Automaton) (s : State) (stack : Stack) (terminal : Nat) : Moves :=
  let read := follow s terminal
  let candidates := s.complete.filterMap fun production => do
    return (← a.reductions[production]?, ← a.complete stack production)
  match read, candidates with
  | _, [] => ⟨read, []⟩
  | none, [(_, stack)] => ⟨none, [stack]⟩
  | _, _ =>
    let viable := candidates.filter fun (_, after) =>
      a.possibleFrom terminal (mostCompletions after) after
    match (viable.map (·.1.precedence)).max? with
    | none => ⟨read, []⟩
    | some highest =>
      let best := viable.filter (·.1.precedence == highest)
      match read with
      | none => ⟨none, best.map (·.2)⟩
      | some q => a.decide s terminal best highest q

def readFrom (a : Automaton) (terminal : Nat) : Nat → Stack → List Stack
  | 0, _ => []
  | fuel + 1, stack =>
    match a.top stack with
    | some s =>
      let moves := a.moves s stack terminal
      (moves.read.map (· :: stack)).toList ++ moves.completed.flatMap (readFrom a terminal fuel)
    | none => []

/-- The stacks after reading a terminal; none if it cannot come next. -/
def read (a : Automaton) (stack : Stack) (t : Terminal) : List Stack :=
  match a.terminals[t]? with
  | some terminal => (a.readFrom terminal (mostCompletions stack) stack).eraseDups
  | none => []

end Automaton

def automaton : Automaton := Automaton.ofGrammar python

end RamlScaffold.Code

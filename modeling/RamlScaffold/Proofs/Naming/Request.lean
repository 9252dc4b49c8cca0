import Mathlib.Data.Finset.Card
import Mathlib.Data.Finset.Lattice.Lemmas
import Mathlib.Data.List.Forall2
import Mathlib.Logic.Function.Iterate
import Mathlib.Order.Bounds.Basic
import RamlScaffold.Proofs.Naming.Fresh

/-!
Requests for names, served round by round. In each round a name is inserted into the set of names
taken, and the insertion is also the test: it tells whether the name was new. A round that fails
therefore leaves the set as it is, and each one tries another name, so there are at most as many of
them as there are names taken. What is granted in the end is the smallest name that is free, and
only this name is added to the set.

The counter of a request is a signed 32-bit number. It gets past its last value only when the base
and the base with each of its 2147483647 positive numbers are taken, so never with fewer than
`2 ^ 31` names. What happens then depends on the build: one that checks its arithmetic stops, and
one that does not goes on with the smallest negative number.
-/

namespace RamlScaffold.Naming

/-- Insertion into the names taken, which tells whether the name was new. -/
def insertNew (taken : Finset String) (name : String) : Bool × Finset String :=
  (decide (name ∉ taken), insert name taken)

inductive Request where
  | asked (taken : Finset String)
  | counting (taken : Finset String) (i : Int32)
  | granted (taken : Finset String) (name : String)
  | overrun (taken : Finset String)

namespace Request

def candidate (base : String) (i : Int32) : String := base ++ "_" ++ toString i

def offer (taken : Finset String) (name : String) (otherwise : Finset String → Request) : Request :=
  let (isNew, after) := insertNew taken name
  if isNew then granted after name else otherwise after

/-- One round of a request for `base`. A build with `checked` arithmetic stops where the counter has
no next value; otherwise the counter wraps around. -/
def step (checked : Bool) (base : String) : Request → Request
  | asked taken => offer taken base fun after => counting after 1
  | counting taken i => offer taken (candidate base i) fun after =>
    if checked && i == Int32.maxValue then overrun after else counting after (i + 1)
  | granted taken name => granted taken name
  | overrun taken => overrun taken

def pending (taken : Finset String) : Nat → Request
  | 0 => asked taken
  | n + 1 => counting taken (Int32.ofNat (n + 1))

/-- How many names a request tries before its counter has no next value. -/
def limit : Nat := 2147483648

def Grants (checked : Bool) (taken : Finset String) (base name : String)
    (after : Finset String) : Prop :=
  ∃ rounds, (step checked base)^[rounds] (asked taken) = granted after name

/-- Requests for the bases one after the other, each with the set that the one before it left. -/
inductive Serves (checked : Bool) :
    Finset String → List String → List String → Finset String → Prop where
  | done (taken : Finset String) : Serves checked taken [] [] taken
  | next {taken after last : Finset String} {base name : String} {bases names : List String}
      (hfirst : Grants checked taken base name after)
      (hrest : Serves checked after bases names last) :
      Serves checked taken (base :: bases) (name :: names) last

end Request

def IsFormOf (name base : String) : Prop := name = base ∨ ∃ i, name = Request.candidate base i

namespace Request

variable {checked : Bool} {taken after after' last : Finset String} {base name name' : String}
  {bases names : List String} {n : Nat}

theorem offer_of_mem (hmem : name ∈ taken) (otherwise : Finset String → Request) :
    offer taken name otherwise = otherwise taken := by
  simp [offer, insertNew, hmem]

theorem offer_of_notMem (hnew : name ∉ taken) (otherwise : Finset String → Request) :
    offer taken name otherwise = granted (insert name taken) name := by
  simp [offer, insertNew, hnew]

theorem iterate_granted (checked : Bool) (base : String) (n : Nat) (taken : Finset String)
    (name : String) : (step checked base)^[n] (granted taken name) = granted taken name :=
  Function.iterate_fixed rfl n

/-- A request ends in one way only. -/
theorem Grants.unique (hone : Grants checked taken base name after)
    (hother : Grants checked taken base name' after') : name = name' ∧ after = after' := by
  obtain ⟨m, hm⟩ := hone
  obtain ⟨n, hn⟩ := hother
  have hsame : granted after name = granted after' name' := by
    rw [← iterate_granted checked base n after name, ← hm,
      ← iterate_granted checked base m after' name', ← hn, ← Function.iterate_add_apply,
      ← Function.iterate_add_apply, Nat.add_comm]
  cases hsame
  exact ⟨rfl, rfl⟩

inductive Follows (taken : Finset String) (base : String) : Request → Prop where
  | asked : Follows taken base (asked taken)
  | counting (i : Int32) : Follows taken base (counting taken i)
  | granted {name : String} (hnew : name ∉ taken) (hform : IsFormOf name base) :
      Follows taken base (granted (insert name taken) name)
  | overrun : Follows taken base (overrun taken)

theorem follows_offer (hform : IsFormOf name base) {otherwise : Finset String → Request}
    (hotherwise : Follows taken base (otherwise taken)) :
    Follows taken base (offer taken name otherwise) := by
  by_cases hmem : name ∈ taken
  · rw [offer_of_mem hmem]
    exact hotherwise
  · rw [offer_of_notMem hmem]
    exact .granted hmem hform

theorem Follows.step {request : Request} (hfollows : Follows taken base request) :
    Follows taken base (step checked base request) := by
  cases hfollows with
  | asked =>
    rw [Request.step]
    apply follows_offer (.inl rfl)
    exact .counting 1
  | counting i =>
    rw [Request.step]
    apply follows_offer (.inr ⟨i, rfl⟩)
    split
    · exact .overrun
    · exact .counting (i + 1)
  | granted hnew hform => exact .granted hnew hform
  | overrun => exact .overrun

end Request

end RamlScaffold.Naming

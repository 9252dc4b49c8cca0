import Mathlib.Data.List.Nodup
import Mathlib.Data.List.Perm.Subperm
import RamlScaffold.Naming.Fresh

/-!
Names handed out one after the other. A request gets its base, or the base with the smallest number
that is not taken; the search is bounded by the number of names taken, and that bound is never
what ends it. The names given to a list of bases with one shared list of taken names are therefore
new to that list and pairwise distinct.
-/

namespace RamlScaffold.Naming

theorem numbered_injective (base : String) : Function.Injective (numbered base) := by
  intro i j hequal
  have hdigits : (toString i).toList = (toString j).toList := by
    simpa [numbered] using congrArg String.toList hequal
  simp only [Nat.toString_eq_repr, Nat.toList_repr] at hdigits
  have hvalue := congrArg (fun cs => Nat.ofDigitChars 10 cs 0) hdigits
  simpa using hvalue

/-- The search stops at the first number that is not taken, or when `fuel` taken ones were met.
All numbers before the one where it stops are taken. -/
theorem firstNumbered_stops (seen : List String) (base : String) (fuel i : Nat) :
    ∃ j, i ≤ j ∧ firstNumbered seen base fuel i = numbered base j ∧
      (∀ k, i ≤ k → k < j → numbered base k ∈ seen) ∧
      (numbered base j ∉ seen ∨ j = i + fuel) := by
  induction fuel generalizing i with
  | zero => exact ⟨i, Nat.le_refl i, rfl, by omega, Or.inr rfl⟩
  | succ fuel ih =>
    by_cases htaken : numbered base i ∈ seen
    · obtain ⟨j, hlater, hresult, hbefore, hstop⟩ := ih (i + 1)
      refine ⟨j, by omega, ?_, ?_, ?_⟩
      · simpa [firstNumbered, htaken] using hresult
      · intro k hlow hhigh
        rcases Nat.eq_or_lt_of_le hlow with rfl | hlow
        · exact htaken
        · exact hbefore k hlow hhigh
      · rcases hstop with hnew | hspent
        · exact Or.inl hnew
        · exact Or.inr (by omega)
    · refine ⟨i, Nat.le_refl i, ?_, by omega, Or.inl htaken⟩
      simp [firstNumbered, htaken]

/-- As many numbers as there are names, and one more, cannot all be taken. -/
theorem some_number_free (seen : List String) (base : String) :
    ∃ k, 1 ≤ k ∧ k ≤ 1 + seen.length ∧ numbered base k ∉ seen := by
  by_contra hnone
  have hall : ∀ k, 1 ≤ k → k ≤ 1 + seen.length → numbered base k ∈ seen := by
    intro k hlow hhigh
    by_contra hfree
    exact hnone ⟨k, hlow, hhigh, hfree⟩
  let numbers := (List.range (seen.length + 1)).map fun n => numbered base (n + 1)
  have hdistinct : numbers.Nodup := by
    apply List.nodup_range.map
    intro a b hequal
    have := numbered_injective base hequal
    omega
  have hcontained : numbers ⊆ seen := by
    intro name hmember
    obtain ⟨n, hrange, rfl⟩ := List.mem_map.mp hmember
    have hbound := List.mem_range.mp hrange
    exact hall (n + 1) (by omega) (by omega)
  have hshort := (List.subperm_of_subset hdistinct hcontained).length_le
  simp only [numbers, List.length_map, List.length_range] at hshort
  omega

/-- What a request gets: the base when it is new, and otherwise the base with the smallest number
that is. -/
theorem fresh_cases (seen : List String) (base : String) :
    (base ∉ seen ∧ fresh seen base = base) ∨
      (base ∈ seen ∧ ∃ i, 1 ≤ i ∧ fresh seen base = numbered base i ∧
        numbered base i ∉ seen ∧ ∀ k, 1 ≤ k → k < i → numbered base k ∈ seen) := by
  by_cases htaken : base ∈ seen
  · refine Or.inr ⟨htaken, ?_⟩
    obtain ⟨i, hlow, hresult, hbefore, hstop⟩ := firstNumbered_stops seen base seen.length 1
    refine ⟨i, hlow, by simpa [fresh, htaken] using hresult, ?_, hbefore⟩
    rcases hstop with hnew | hspent
    · exact hnew
    · -- The search met `seen.length` taken numbers, so the free one can only be the last.
      obtain ⟨k, hklow, hkhigh, hfree⟩ := some_number_free seen base
      have hsame : k = i := by
        by_contra hdifferent
        exact hfree (hbefore k hklow (by omega))
      exact hsame ▸ hfree
  · exact Or.inl ⟨htaken, by simp [fresh, htaken]⟩

theorem fresh_not_mem (seen : List String) (base : String) : fresh seen base ∉ seen := by
  rcases fresh_cases seen base with ⟨hnew, hresult⟩ | ⟨_, i, _, hresult, hnew, _⟩
  · rw [hresult]
    exact hnew
  · rw [hresult]
    exact hnew

/-- Whatever holds of a base and of the base with any number holds of the name handed out. -/
theorem fresh_elim {P : String → Prop} (seen : List String) (base : String)
    (hplain : P base) (hsuffixed : ∀ i, P (numbered base i)) : P (fresh seen base) := by
  rcases fresh_cases seen base with ⟨_, hresult⟩ | ⟨_, i, _, hresult, _⟩
  · rw [hresult]
    exact hplain
  · rw [hresult]
    exact hsuffixed i

@[simp] theorem length_freshAll (seen bases : List String) :
    (freshAll seen bases).length = bases.length := by
  induction bases generalizing seen with
  | nil => rfl
  | cons base rest ih => simp [freshAll, ih]

theorem freshAll_not_mem (seen bases : List String) :
    ∀ name ∈ freshAll seen bases, name ∉ seen := by
  induction bases generalizing seen with
  | nil => simp [freshAll]
  | cons base rest ih =>
    intro name hmember
    rcases List.mem_cons.mp hmember with rfl | hlater
    · exact fresh_not_mem seen base
    · exact fun hold => ih (fresh seen base :: seen) name hlater (List.mem_cons_of_mem _ hold)

/-- Names handed out with one shared list are pairwise distinct, whatever the bases look like. -/
theorem freshAll_nodup (seen bases : List String) : (freshAll seen bases).Nodup := by
  induction bases generalizing seen with
  | nil => exact List.nodup_nil
  | cons base rest ih =>
    refine List.nodup_cons.mpr ⟨?_, ih _⟩
    intro hagain
    exact freshAll_not_mem (fresh seen base :: seen) rest _ hagain List.mem_cons_self

/-- A base is among the names handed out, unless it was taken before. -/
theorem mem_freshAll {seen bases : List String} {base : String} (hbase : base ∈ bases) :
    base ∈ seen ∨ base ∈ freshAll seen bases := by
  induction bases generalizing seen with
  | nil => cases hbase
  | cons first rest ih =>
    rw [freshAll, List.mem_cons]
    rcases List.mem_cons.mp hbase with rfl | hrest
    · rcases fresh_cases seen base with ⟨-, hkept⟩ | ⟨hseen, -⟩
      · exact Or.inr (Or.inl hkept.symm)
      · exact Or.inl hseen
    · rcases @ih (fresh seen first :: seen) hrest with hseen | hlater
      · rcases List.mem_cons.mp hseen with hfirst | hseen
        · exact Or.inr (Or.inl hfirst)
        · exact Or.inl hseen
      · exact Or.inr (Or.inr hlater)

/-- Bases that are new and distinct are the names. -/
theorem freshAll_eq_self {seen bases : List String} (hdistinct : bases.Nodup)
    (hnew : ∀ base ∈ bases, base ∉ seen) : freshAll seen bases = bases := by
  induction bases generalizing seen with
  | nil => rfl
  | cons base rest ih =>
    obtain ⟨honce, hrest⟩ := List.nodup_cons.mp hdistinct
    have hfirst : fresh seen base = base := by simp [fresh, hnew base List.mem_cons_self]
    rw [freshAll, hfirst, ih hrest]
    intro other hother
    rw [List.mem_cons, not_or]
    exact ⟨fun hsame => honce (hsame ▸ hother), hnew other (List.mem_cons_of_mem _ hother)⟩

theorem freshAll_forall {P : String → Prop} (seen bases : List String)
    (hbases : ∀ base ∈ bases, P base ∧ ∀ i, P (numbered base i)) :
    ∀ name ∈ freshAll seen bases, P name := by
  induction bases generalizing seen with
  | nil => simp [freshAll]
  | cons base rest ih =>
    intro name hmember
    rcases List.mem_cons.mp hmember with rfl | hlater
    · obtain ⟨hplain, hsuffixed⟩ := hbases base List.mem_cons_self
      exact fresh_elim seen base hplain hsuffixed
    · exact ih _ (fun b hrest => hbases b (List.mem_cons_of_mem _ hrest)) name hlater

end RamlScaffold.Naming

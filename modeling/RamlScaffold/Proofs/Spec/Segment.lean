import RamlScaffold.Proofs.Spec.Uri

/-!
The last segment of a URI and the placeholders in it. Segments end at slashes, while a placeholder
ends at a closing brace and may hold slashes: the two are cut independently of each other. A brace
starts a placeholder only where all braces before it are closed, and it gives one only if something
stands between it and the closing brace. These two conditions on a brace of the last segment say
exactly when the last placeholder of a URI stands there.
-/

namespace RamlScaffold.Uri

/-- A text is what lies before its last segment, the segment, and slashes. -/
structure LastSegment (cs outer segment slashes : List Char) : Prop where
  spelled : cs = outer ++ (segment ++ slashes)
  starts : outer = [] ∨ outer.getLast? = some '/'
  nonempty : segment ≠ []
  unbroken : '/' ∉ segment
  trailing : ∀ c ∈ slashes, c = '/'

def Closed (cs : List Char) : Prop :=
  ∀ before after, cs = before ++ '\x7b' :: after → '\x7d' ∈ after

/-- The last placeholder of a text has that name and stands in the last segment. -/
def EndsIn (cs name : List Char) : Prop :=
  ∃ head holes outer before after slashes, Cut cs head (holes ++ [(name, after ++ slashes)]) ∧
    LastSegment cs outer (before ++ '\x7b' :: (name ++ '\x7d' :: after)) slashes

/-- In the last segment there is a brace at which a placeholder can start: no brace before it is
open, and it is not closed at once. -/
def OpensLast (cs : List Char) : Prop :=
  ∃ outer before c after slashes,
    LastSegment cs outer (before ++ '\x7b' :: c :: after) slashes ∧ Closed (outer ++ before) ∧
      c ≠ '\x7d'

variable {cs before rest name head : List Char} {holes : Holes}

theorem closed_of_notMem (hnone : '\x7b' ∉ cs) : Closed cs := by
  intro before after hsplit
  exact absurd (by simp [hsplit]) hnone

theorem Closed.of_append (hclosed : Closed (before ++ rest)) : Closed rest := by
  intro first after hsplit
  apply hclosed (before ++ first) after
  rw [hsplit, List.append_assoc]

theorem Closed.tail {c : Char} (hclosed : Closed (c :: rest)) : Closed rest :=
  @Closed.of_append [c] rest hclosed

theorem Closed.cons {c : Char} (hrest : Closed rest) (hbrace : c = '\x7b' → '\x7d' ∈ rest) :
    Closed (c :: rest) := by
  intro first after hsplit
  cases first with
  | nil =>
    obtain ⟨rfl, rfl⟩ := List.cons.inj hsplit
    exact hbrace rfl
  | cons d first => exact hrest first after (List.cons.inj hsplit).2

/-- A text that ends in a closing brace can be put before a closed one. -/
theorem Closed.append_brace (hrest : Closed rest) (before : List Char) :
    Closed (before ++ '\x7d' :: rest) := by
  induction before with
  | nil => exact hrest.cons fun hsame => absurd hsame (by decide)
  | cons c before ih => exact ih.cons fun _ => by simp

/-- A brace is passed over because it is closed at once or never. -/
theorem closed_at_once (hnone : ∀ name after, ¬ Opens ('\x7b' :: rest) name after)
    (hclosed : '\x7d' ∈ rest) : ∃ after, rest = '\x7d' :: after := by
  obtain ⟨name, after, rfl, hunclosed⟩ := List.eq_append_cons_of_mem hclosed
  by_cases hnamed : name = []
  · exact ⟨after, by rw [hnamed, List.nil_append]⟩
  · exact absurd ⟨rfl, hnamed, hunclosed⟩ (hnone name after)

theorem not_opens_closed_at_once (rest name after : List Char) :
    ¬ Opens ('\x7b' :: '\x7d' :: rest) name after := by
  intro hopens
  rw [← placeholder?_eq_some_iff] at hopens
  cases hopens

/-- The cut starts anew after a closed text: the placeholders behind it are the last ones of the
whole. -/
theorem Cut.append (hclosed : Closed before) {first : List Char} {passed : Holes}
    (hbefore : Cut before first passed) (hrest : Cut rest head holes) :
    ∃ whole found, Cut (before ++ rest) whole found ∧ holes <:+ found := by
  induction hbefore with
  | done => exact ⟨head, holes, hrest, List.suffix_rfl⟩
  | @skip c later _ _ hnone _ ih =>
    obtain ⟨whole, found, hcut, hlast⟩ := ih hclosed.tail
    refine ⟨c :: whole, found, .skip ?_ hcut, hlast⟩
    by_cases hbrace : c = '\x7b'
    · subst hbrace
      obtain ⟨after, rfl⟩ := closed_at_once hnone (hclosed [] later rfl)
      exact not_opens_closed_at_once _
    · exact not_opens_of_ne hbrace _
  | @take cs name later _ _ hopens _ ih =>
    have hafter : cs = ('\x7b' :: (name ++ ['\x7d'])) ++ later := by simp [hopens.spelled]
    obtain ⟨whole, found, hcut, hlast⟩ := ih (Closed.of_append (hafter ▸ hclosed))
    have hagain : Opens (cs ++ rest) name (later ++ rest) :=
      ⟨by simp [hopens.spelled], hopens.named, hopens.unclosed⟩
    exact ⟨[], (name, whole) :: found, .take hagain hcut, hlast.trans (List.suffix_cons _ _)⟩

theorem Cut.of_closed (hclosed : Closed before) (hcut : Cut (before ++ rest) head holes) :
    ∃ first last, Cut rest first last ∧ last <:+ holes := by
  obtain ⟨_, _, hbefore⟩ := cut_exists before
  obtain ⟨first, last, hrest⟩ := cut_exists rest
  obtain ⟨whole, found, hagain, hlast⟩ := hbefore.append hclosed hrest
  obtain ⟨-, rfl⟩ := hcut.unique hagain
  exact ⟨first, last, hrest, hlast⟩

/-- What stands before a placeholder is closed. -/
theorem Cut.closed_before {literal : List Char} (hcut : Cut cs head (holes ++ [(name, literal)])) :
    ∃ before, cs = before ++ '\x7b' :: (name ++ '\x7d' :: literal) ∧ Closed before ∧ name ≠ [] ∧
      '\x7d' ∉ name := by
  generalize hfound : holes ++ [(name, literal)] = found at hcut
  induction hcut generalizing holes with
  | done => simp at hfound
  | @skip c later _ _ hnone _ ih =>
    obtain ⟨before, rfl, hclosed, hname⟩ := ih hfound
    refine ⟨c :: before, rfl, hclosed.cons ?_, hname⟩
    rintro rfl
    obtain ⟨after, hafter⟩ := closed_at_once hnone (by simp)
    cases before with
    | nil => cases hafter
    | cons d before =>
      rw [(List.cons.inj hafter).1]
      exact List.mem_cons_self
  | @take cs first later rest found hopens hrest ih =>
    cases holes with
    | nil =>
      obtain ⟨hhole, rfl⟩ := List.cons.inj hfound
      obtain ⟨rfl, rfl⟩ : name = first ∧ literal = rest := by simpa using hhole
      have hplain : later = literal := by simpa using hrest.spelled
      exact ⟨[], by rw [hopens.spelled, hplain]; rfl, closed_of_notMem (by simp), hopens.named,
        hopens.unclosed⟩
    | cons hole holes =>
      obtain ⟨before, rfl, hclosed, hname⟩ := ih (List.cons.inj hfound).2
      refine ⟨'\x7b' :: (first ++ '\x7d' :: before), ?_, ?_, hname⟩
      · simp [hopens.spelled]
      · exact hclosed.append_brace ('\x7b' :: first)

theorem opensLast_of_endsIn (hends : EndsIn cs name) : OpensLast cs := by
  obtain ⟨head, holes, outer, before, after, slashes, hcut, hsegment⟩ := hends
  obtain ⟨first, hspelled, hclosed, hnamed, hunclosed⟩ := hcut.closed_before
  have hbefore : first = outer ++ before := by
    have hsame : first ++ '\x7b' :: (name ++ '\x7d' :: (after ++ slashes)) =
        (outer ++ before) ++ '\x7b' :: (name ++ '\x7d' :: (after ++ slashes)) := by
      rw [← hspelled, hsegment.spelled]
      simp
    exact List.append_cancel_right hsame
  obtain ⟨c, rest, rfl⟩ := List.exists_cons_of_ne_nil hnamed
  refine ⟨outer, before, c, rest ++ '\x7d' :: after, slashes, hsegment, hbefore ▸ hclosed, ?_⟩
  rintro rfl
  exact hunclosed List.mem_cons_self

/-- A closing brace is not among the slashes at the end. -/
theorem split_at_brace {segment slashes literal : List Char}
    (hspelled : segment ++ slashes = before ++ '\x7d' :: literal)
    (htrailing : ∀ c ∈ slashes, c = '/') :
    ∃ after, segment = before ++ '\x7d' :: after ∧ literal = after ++ slashes := by
  have hbrace : '\x7d' ∉ slashes := fun hmem => absurd (htrailing _ hmem) (by decide)
  rcases List.append_eq_append_iff.mp hspelled with ⟨more, -, hslashes⟩ | ⟨more, hsegment, hmore⟩
  · exact absurd (by simp [hslashes]) hbrace
  · cases more with
    | nil => exact absurd (by simp [show slashes = _ from hmore.symm]) hbrace
    | cons c after =>
      obtain ⟨rfl, rfl⟩ := List.cons.inj hmore
      exact ⟨after, hsegment, rfl⟩

/-- If the last segment ends in a closing brace, a brace in it that can start a placeholder has the
last placeholder at or after it. -/
theorem endsIn_of_opensLast (hopens : OpensLast cs)
    (hbrace : ∀ outer segment slashes, LastSegment cs outer segment slashes →
      segment.getLast? = some '\x7d') : ∃ name, EndsIn cs name := by
  obtain ⟨outer, before, c, after, slashes, hsegment, hclosed, hc⟩ := hopens
  have hlast : '\x7d' ∈ after := by
    have hend := hbrace _ _ _ hsegment
    rw [List.getLast?_append_of_ne_nil _ (by simp), List.getLast?_cons_cons] at hend
    rcases List.mem_cons.mp (List.mem_of_getLast? hend) with hsame | hmem
    · exact absurd hsame.symm hc
    · exact hmem
  obtain ⟨inner, later, hafter, hunclosed⟩ := List.eq_append_cons_of_mem hlast
  have hstart : Opens ('\x7b' :: c :: after ++ slashes) (c :: inner) (later ++ slashes) :=
    ⟨by simp [hafter], by simp, by simp [hunclosed, hc.symm]⟩
  obtain ⟨head, holes, hcut⟩ := cut_exists cs
  have hcs : cs = (outer ++ before) ++ ('\x7b' :: c :: after ++ slashes) := by
    simp [hsegment.spelled]
  obtain ⟨first, last, hrest, passed, rfl⟩ := (hcs ▸ hcut).of_closed hclosed
  -- A placeholder starts at the brace, so there is a last one from there on.
  have hfound : last ≠ [] := by
    cases hrest with
    | skip hnone _ => exact absurd hstart (hnone _ _)
    | take _ _ => simp
  obtain ⟨later, ⟨name, literal⟩, rfl⟩ := (List.eq_nil_or_concat' last).resolve_left hfound
  obtain ⟨skipped, hspelled, -⟩ := hrest.closed_before
  rw [← List.cons_append, ← List.append_assoc] at hspelled
  obtain ⟨behind, hword, rfl⟩ := split_at_brace hspelled hsegment.trailing
  refine ⟨name, head, passed ++ later, outer, before ++ skipped, behind, slashes, ?_, ?_⟩
  · rw [List.append_assoc]
    exact hcut
  · have hsame : before ++ skipped ++ '\x7b' :: (name ++ '\x7d' :: behind) =
        before ++ '\x7b' :: c :: after := by
      simp [hword]
    exact hsame ▸ hsegment

end RamlScaffold.Uri

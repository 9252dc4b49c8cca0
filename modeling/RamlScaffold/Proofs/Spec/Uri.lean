import Mathlib.Data.List.Basic
import RamlScaffold.Spec.Uri

/-!
How a URI is made up: literals with placeholders between them. A placeholder is described by what it
looks like, and a URI is cut at its placeholders from left to right, which can be done in exactly
one way. The pieces that the program works with are those of this cut, and putting texts in for the
placeholders leaves the literals where they are.
-/

namespace RamlScaffold.Uri

/-- A placeholder stands at the start of a text, with a name and what follows it. -/
structure Opens (cs name rest : List Char) : Prop where
  spelled : cs = '\x7b' :: (name ++ '\x7d' :: rest)
  named : name ≠ []
  unclosed : '\x7d' ∉ name

/-- The literals and placeholders of a URI: what stands before the first placeholder, and each name
with the literal after it. -/
abbrev Holes := List (List Char × List Char)

/-- A URI is cut at its placeholders from left to right. A character is passed over only where no
placeholder starts. -/
inductive Cut : List Char → List Char → Holes → Prop where
  | done : Cut [] [] []
  | skip {c : Char} {rest head : List Char} {holes : Holes} :
      (∀ name after, ¬ Opens (c :: rest) name after) → Cut rest head holes →
      Cut (c :: rest) (c :: head) holes
  | take {cs name rest literal : List Char} {holes : Holes} :
      Opens cs name rest → Cut rest literal holes → Cut cs [] ((name, literal) :: holes)

def weave (head : List Char) (texts : List String) (holes : Holes) : List Char :=
  head ++ (List.zipWith (fun text hole => text.toList ++ hole.2) texts holes).flatten

variable {cs name rest head : List Char} {holes : Holes}

theorem takeWhile_unclosed (hunclosed : '\x7d' ∉ name) (rest : List Char) :
    (name ++ rest).takeWhile (· != '\x7d') = name ++ rest.takeWhile (· != '\x7d') := by
  apply List.takeWhile_append_of_pos
  intro c hc
  simpa using fun hsame : c = '\x7d' => hunclosed (hsame ▸ hc)

/-- The name ends at the first closing brace. -/
theorem placeholder?_closed (hunclosed : '\x7d' ∉ name) (rest : List Char) :
    placeholder? (name ++ '\x7d' :: rest) = if name.isEmpty then none else some (name, rest) := by
  simp [placeholder?, takeWhile_unclosed hunclosed]

theorem placeholder?_eq_none (hunclosed : '\x7d' ∉ cs) : placeholder? cs = none := by
  have htaken := takeWhile_unclosed hunclosed []
  simp only [List.append_nil, List.takeWhile_nil] at htaken
  simp [placeholder?, htaken]

theorem placeholder?_eq_some_iff :
    placeholder? cs = some (name, rest) ↔ Opens ('\x7b' :: cs) name rest := by
  constructor
  · intro hfound
    by_cases hclosed : '\x7d' ∈ cs
    · obtain ⟨before, after, rfl, hunclosed⟩ := List.eq_append_cons_of_mem hclosed
      rw [placeholder?_closed hunclosed] at hfound
      split at hfound
      · cases hfound
      · next hnamed =>
        cases hfound
        exact ⟨rfl, by simpa using hnamed, hunclosed⟩
    · rw [placeholder?_eq_none hclosed] at hfound
      cases hfound
  · intro hopens
    rw [(List.cons.inj hopens.spelled).2, placeholder?_closed hopens.unclosed]
    exact if_neg (by simpa using hopens.named)

theorem Opens.unique {name' rest' : List Char} (hopens : Opens cs name rest)
    (hagain : Opens cs name' rest') : name = name' ∧ rest = rest' := by
  obtain ⟨after, rfl⟩ : ∃ after, cs = '\x7b' :: after := ⟨_, hopens.spelled⟩
  rw [← placeholder?_eq_some_iff] at hopens hagain
  simpa using hopens.symm.trans hagain

theorem not_opens_of_ne {c : Char} (hc : c ≠ '\x7b') (rest name after : List Char) :
    ¬ Opens (c :: rest) name after :=
  fun hopens => hc (List.cons.inj hopens.spelled).1

theorem Cut.unique {head' : List Char} {holes' : Holes} (hcut : Cut cs head holes)
    (hagain : Cut cs head' holes') : head = head' ∧ holes = holes' := by
  induction hcut generalizing head' holes' with
  | done =>
    cases hagain with
    | done => exact ⟨rfl, rfl⟩
    | take hopens _ => cases hopens.spelled
  | skip hnone _ ih =>
    cases hagain with
    | skip _ hrest =>
      obtain ⟨rfl, rfl⟩ := ih hrest
      exact ⟨rfl, rfl⟩
    | take hopens _ => exact absurd hopens (hnone _ _)
  | take hopens _ ih =>
    cases hagain with
    | done => cases hopens.spelled
    | skip hnone _ => exact absurd hopens (hnone _ _)
    | take hother hrest =>
      obtain ⟨rfl, rfl⟩ := hopens.unique hother
      obtain ⟨rfl, rfl⟩ := ih hrest
      exact ⟨rfl, rfl⟩

def layout (head : List Char) (holes : Holes) : List Piece :=
  head.map .char ++ holes.flatMap fun hole => .name hole.1 :: hole.2.map .char

/-- Every URI has a cut, and its pieces are those of the cut. -/
theorem cut_pieces (fuel : Nat) (cs : List Char) (hfuel : cs.length ≤ fuel) :
    ∃ head holes, Cut cs head holes ∧ pieces fuel cs = layout head holes := by
  fun_induction pieces fuel cs with
  | case1 cs =>
    obtain rfl : cs = [] := List.eq_nil_of_length_eq_zero (by omega)
    exact ⟨[], [], .done, rfl⟩
  | case2 => exact ⟨[], [], .done, rfl⟩
  | case3 fuel c rest hbrace name after hfound ih =>
    obtain rfl : c = '\x7b' := by simpa using hbrace
    have hopens := placeholder?_eq_some_iff.mp hfound
    have hshorter : after.length ≤ fuel := by
      have hlength := congrArg List.length hopens.spelled
      simp only [List.length_cons, List.length_append] at hlength hfuel
      omega
    obtain ⟨literal, holes, hcut, hpieces⟩ := ih hshorter
    refine ⟨[], (name, literal) :: holes, .take hopens hcut, ?_⟩
    rw [hpieces]
    rfl
  | case4 fuel c rest hbrace hnone ih =>
    obtain rfl : c = '\x7b' := by simpa using hbrace
    obtain ⟨head, holes, hcut, hpieces⟩ := ih (by simpa using hfuel)
    refine ⟨'\x7b' :: head, holes, .skip ?_ hcut, ?_⟩
    · intro name after hopens
      rw [placeholder?_eq_some_iff.mpr hopens] at hnone
      cases hnone
    · rw [hpieces]
      rfl
  | case5 fuel c rest hother ih =>
    obtain ⟨head, holes, hcut, hpieces⟩ := ih (by simpa using hfuel)
    refine ⟨c :: head, holes, .skip (not_opens_of_ne (by simpa using hother) rest) hcut, ?_⟩
    rw [hpieces]
    rfl

theorem cut_exists (cs : List Char) : ∃ head holes, Cut cs head holes := by
  obtain ⟨head, holes, hcut, -⟩ := cut_pieces cs.length cs (Nat.le_refl _)
  exact ⟨head, holes, hcut⟩

theorem Cut.split_eq {uri : String} (hcut : Cut uri.toList head holes) :
    split uri = layout head holes := by
  obtain ⟨head', holes', hagain, hpieces⟩ := cut_pieces _ uri.toList (Nat.le_refl _)
  obtain ⟨rfl, rfl⟩ := hcut.unique hagain
  exact hpieces

theorem Cut.spelled (hcut : Cut cs head holes) :
    cs = head ++ holes.flatMap fun hole => '\x7b' :: (hole.1 ++ '\x7d' :: hole.2) := by
  induction hcut with
  | done => rfl
  | skip _ _ ih => rw [List.cons_append, ← ih]
  | take hopens _ ih =>
    rw [hopens.spelled, ih]
    simp

/-- Characters with which no placeholder starts go to the first literal. -/
theorem Cut.prepend {before : List Char} (hbefore : '\x7b' ∉ before) (hcut : Cut cs head holes) :
    Cut (before ++ cs) (before ++ head) holes := by
  induction before with
  | nil => exact hcut
  | cons c rest ih =>
    rw [List.mem_cons, not_or] at hbefore
    exact .skip (not_opens_of_ne (Ne.symm hbefore.1) _) (ih hbefore.2)

/-- Such characters can also be taken away from the first literal. -/
theorem Cut.of_prepend {before : List Char} (hbefore : '\x7b' ∉ before)
    (hcut : Cut (before ++ cs) (before ++ head) holes) : Cut cs head holes := by
  obtain ⟨head', holes', hrest⟩ := cut_exists cs
  obtain ⟨hhead, rfl⟩ := hcut.unique (hrest.prepend hbefore)
  rw [List.append_cancel_left hhead]
  exact hrest

theorem Cut.names_eq {uri : String} (hcut : Cut uri.toList head holes) :
    names uri = holes.map fun hole => .ofList hole.1 := by
  rw [names, hcut.split_eq, layout, List.filterMap_append, List.filterMap_flatMap]
  simp only [List.filterMap_map, Function.comp_def, List.filterMap_cons, List.filterMap_none,
    List.nil_append]
  exact List.flatMap_pure_eq_map _ _

example : names "/\x7b\x7d\x7b\x7ba\x7d/\x7bb\x7d\x7d" = ["\x7ba", "b"] := by decide

theorem fill_chars (f : Char → List Char) (cs : List Char) (pieces : List Piece)
    (texts : List String) :
    fill f (cs.map .char ++ pieces) texts = cs.flatMap f ++ fill f pieces texts := by
  induction cs with
  | nil => rfl
  | cons c rest ih => simp [fill, ih]

/-- With a text for each placeholder none is left, and the literals stay in their places. -/
theorem fill_layout (f : Char → List Char) (head : List Char) {texts : List String}
    {holes : Holes} (hlength : texts.length = holes.length) :
    fill f (layout head holes) texts =
      weave (head.flatMap f) texts (holes.map fun hole => (hole.1, hole.2.flatMap f)) := by
  rw [layout, fill_chars, weave]
  congr 1
  induction holes generalizing texts with
  | nil => simp [fill]
  | cons hole rest ih =>
    cases texts with
    | nil => cases hlength
    | cons text texts =>
      have hrest := ih (show texts.length = rest.length by simpa using hlength)
      rw [List.flatMap_cons, List.cons_append, fill, fill_chars, hrest]
      simp

theorem Cut.substitute_eq {uri : String} (hcut : Cut uri.toList head holes)
    {texts : List String} (hlength : texts.length = holes.length) :
    substitute uri texts = .ofList (weave head texts holes) := by
  rw [substitute, hcut.split_eq, fill_layout _ _ hlength]
  simp

end RamlScaffold.Uri

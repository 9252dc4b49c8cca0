import Mathlib.Data.List.Chain
import Mathlib.Data.List.DropRight
import RamlScaffold.Naming.Words
import RamlScaffold.Proofs.Text.Case

/-!
The shape of names in snake case. Whatever the text, its snake spelling is made of lower-case
letters, digits and underscores, no two underscores meet, and none stands at an end. A name of this
shape is its own snake spelling, and one underscore behind it is lost again: the spellings that are
derived from a name cannot see the underscore that keeps the name apart from a keyword.
-/

namespace RamlScaffold.Text

theorem dropTailWhile_eq_rdropWhile (p : Char → Bool) (cs : List Char) :
    dropTailWhile p cs = cs.rdropWhile p := rfl

/-- Trimming keeps one piece of the text. -/
theorem trimWhile_infix (p : Char → Bool) (cs : List Char) : trimWhile p cs <:+: cs := by
  have hhead : cs.dropWhile p <:+: cs := (List.dropWhile_suffix p).isInfix
  have htail : trimWhile p cs <:+: cs.dropWhile p := (List.rdropWhile_prefix p _).isInfix
  exact htail.trans hhead

theorem last_trimWhile (p : Char → Bool) (cs : List Char) {c : Char}
    (hc : (trimWhile p cs).getLast? = some c) : p c = false := by
  have hne : trimWhile p cs ≠ [] := by
    intro hnil
    simp [hnil] at hc
  rw [List.getLast?_eq_some_getLast hne, Option.some.injEq] at hc
  rw [← hc]
  exact (Bool.not_eq_true _).mp (List.rdropWhile_last_not p (cs.dropWhile p) hne)

theorem head_trimWhile (p : Char → Bool) (cs : List Char) {c : Char}
    (hc : (trimWhile p cs).head? = some c) : p c = false := by
  obtain ⟨rest, hrest⟩ : trimWhile p cs <+: cs.dropWhile p := List.rdropWhile_prefix p _
  have hfirst : (cs.dropWhile p).head? = some c := by
    rw [← hrest, List.head?_append, hc, Option.some_or]
  have hnot := List.head?_dropWhile_not p cs
  simpa [hfirst] using hnot

/-- A text with nothing to trim at either end stays as it is. -/
theorem trimWhile_eq_self (p : Char → Bool) (cs : List Char)
    (hhead : ∀ c ∈ cs.head?, p c = false) (hlast : ∀ c ∈ cs.getLast?, p c = false) :
    trimWhile p cs = cs := by
  have hkeep : cs.dropWhile p = cs := by
    cases cs with
    | nil => rfl
    | cons c rest => simpa using hhead c rfl
  rw [trimWhile, hkeep, dropTailWhile_eq_rdropWhile, List.rdropWhile_eq_self_iff]
  intro hne
  simpa using hlast _ (List.getLast?_eq_some_getLast hne)

/-- One character to trim behind a text with nothing to trim is all that goes. -/
theorem trimWhile_concat (p : Char → Bool) (cs : List Char) (c : Char) (hc : p c = true)
    (hne : cs ≠ []) (hhead : ∀ c ∈ cs.head?, p c = false)
    (hlast : ∀ c ∈ cs.getLast?, p c = false) :
    trimWhile p (cs ++ [c]) = cs := by
  have hkeep : (cs ++ [c]).dropWhile p = cs ++ [c] := by
    cases cs with
    | nil => exact absurd rfl hne
    | cons first rest => simpa using hhead first rfl
  rw [trimWhile, hkeep, dropTailWhile_eq_rdropWhile, List.rdropWhile_concat_pos _ _ _ hc,
    List.rdropWhile_eq_self_iff]
  intro hne
  simpa using hlast _ (List.getLast?_eq_some_getLast hne)

end RamlScaffold.Text

namespace RamlScaffold.Naming

def SnakeChar (c : Char) : Prop :=
  Text.isLower c = true ∨ Text.isDigit c = true ∨ c = '_'

def Apart (a b : Char) : Prop := ¬ (a = '_' ∧ b = '_')

structure SnakeShaped (cs : List Char) : Prop where
  chars : ∀ c ∈ cs, SnakeChar c
  apart : cs.IsChain Apart
  head : '_' ∉ cs.head?
  last : '_' ∉ cs.getLast?

theorem SnakeChar.not_upper {c : Char} (hc : SnakeChar c) : Text.isUpper c = false := by
  rcases hc with hlower | hdigit | rfl
  · exact Text.not_upper_of_lower hlower
  · exact Text.not_upper_of_digit hdigit
  · rfl

theorem SnakeChar.isAlnum {c : Char} (hc : SnakeChar c) (hne : c ≠ '_') :
    Text.isAlnum c = true := by
  rcases hc with hlower | hdigit | rfl
  · exact (Text.isAlnum_iff c).mpr (Or.inr (Or.inl hlower))
  · exact (Text.isAlnum_iff c).mpr (Or.inr (Or.inr hdigit))
  · exact absurd rfl hne

theorem mem_spaced {c : Char} (inRun : Bool) (cs : List Char) (hc : c ∈ spaced inRun cs) :
    Text.isAlnum c = true ∨ c = '_' := by
  induction cs generalizing inRun with
  | nil => simp [spaced] at hc
  | cons first rest ih =>
    rw [spaced] at hc
    split_ifs at hc with halnum hrun
    · rcases List.mem_cons.mp hc with rfl | hrest
      · exact Or.inl halnum
      · exact ih _ hrest
    · exact ih _ hc
    · rcases List.mem_cons.mp hc with rfl | hrest
      · exact Or.inr rfl
      · exact ih _ hrest

theorem mem_markCapitals {c : Char} (cs : List Char) (hc : c ∈ markCapitals cs) :
    c ∈ cs ∨ c = '_' := by
  fun_induction markCapitals cs with
  | case1 a b d rest hmark ih =>
    rcases List.mem_cons.mp hc with rfl | hc
    · exact Or.inl List.mem_cons_self
    · rcases List.mem_cons.mp hc with rfl | hc
      · exact Or.inr rfl
      · exact (ih hc).imp_left (List.mem_cons_of_mem a)
  | case2 a b d rest hmark ih =>
    rcases List.mem_cons.mp hc with rfl | hc
    · exact Or.inl List.mem_cons_self
    · exact (ih hc).imp_left (List.mem_cons_of_mem a)
  | case3 cs hshort => exact Or.inl hc

theorem mem_markRises {c : Char} (cs : List Char) (hc : c ∈ markRises cs) :
    c ∈ cs ∨ c = '_' := by
  fun_induction markRises cs with
  | case1 a b rest hmark ih =>
    rcases List.mem_cons.mp hc with rfl | hc
    · exact Or.inl List.mem_cons_self
    · rcases List.mem_cons.mp hc with rfl | hc
      · exact Or.inr rfl
      · exact (ih hc).imp_left (List.mem_cons_of_mem a)
  | case2 a b rest hmark ih =>
    rcases List.mem_cons.mp hc with rfl | hc
    · exact Or.inl List.mem_cons_self
    · exact (ih hc).imp_left (List.mem_cons_of_mem a)
  | case3 cs hshort => exact Or.inl hc

theorem mem_collapse {c : Char} (cs : List Char) (hc : c ∈ collapse cs) : c ∈ cs := by
  fun_induction collapse cs with
  | case1 a b rest hboth ih => exact List.mem_cons_of_mem a (ih hc)
  | case2 a b rest hboth ih =>
    rcases List.mem_cons.mp hc with rfl | hc
    · exact List.mem_cons_self
    · exact List.mem_cons_of_mem a (ih hc)
  | case3 cs hshort => exact hc

/-- Collapsing may drop characters from the front, but only underscores before an underscore. -/
theorem head_collapse (cs : List Char) : (collapse cs).head? = cs.head? := by
  fun_induction collapse cs with
  | case1 a b rest hboth ih =>
    obtain ⟨rfl, rfl⟩ : a = '_' ∧ b = '_' := by simpa using hboth
    exact ih
  | case2 a b rest hboth ih => rfl
  | case3 cs hshort => rfl

theorem apart_collapse (cs : List Char) : (collapse cs).IsChain Apart := by
  fun_induction collapse cs with
  | case1 a b rest hboth ih => exact ih
  | case2 a b rest hboth ih =>
    rw [List.isChain_cons]
    refine ⟨?_, ih⟩
    intro next hnext
    rw [head_collapse] at hnext
    obtain rfl : b = next := by simpa using hnext
    simpa [Apart] using hboth
  | case3 cs hshort =>
    rcases cs with _ | ⟨a, _ | ⟨b, rest⟩⟩
    · exact List.IsChain.nil
    · exact List.IsChain.singleton a
    · exact absurd rfl (hshort a b rest)

/-- The lower-case form of a letter, digit or underscore is a character of snake case. -/
theorem snakeChar_lowerChar {c : Char} (hc : Text.isAlnum c = true ∨ c = '_') :
    SnakeChar (Text.lowerChar c) := by
  rcases hc with halnum | rfl
  · rcases (Text.isAlnum_iff c).mp halnum with hupper | hlower | hdigit
    · exact Or.inl (Text.isLower_lowerChar hupper)
    · rw [Text.lowerChar_of_not_upper (Text.not_upper_of_lower hlower)]
      exact Or.inl hlower
    · rw [Text.lowerChar_of_not_upper (Text.not_upper_of_digit hdigit)]
      exact Or.inr (Or.inl hdigit)
  · exact Or.inr (Or.inr rfl)

theorem snakeShaped_snake (text : String) : SnakeShaped (snake text).toList := by
  simp only [snake, String.toList_ofList]
  set marked := markRises (markCapitals (spaced false text.toList))
  set joined := collapse (marked.map Text.lowerChar)
  have hpiece := Text.trimWhile_infix (· == '_') joined
  have hchars : ∀ c ∈ marked, Text.isAlnum c = true ∨ c = '_' := by
    intro c hc
    rcases mem_markRises _ hc with hc | rfl
    · rcases mem_markCapitals _ hc with hc | rfl
      · exact mem_spaced false _ hc
      · exact Or.inr rfl
    · exact Or.inr rfl
  constructor
  · intro c hc
    have hc := mem_collapse _ (hpiece.subset hc)
    obtain ⟨origin, horigin, rfl⟩ := List.mem_map.mp hc
    exact snakeChar_lowerChar (hchars origin horigin)
  · exact List.IsChain.infix (apart_collapse _) hpiece
  · intro hhead
    simpa using Text.head_trimWhile _ _ hhead
  · intro hlast
    simpa using Text.last_trimWhile _ _ hlast

/-- Inside a run nothing is lost when the text goes on with a letter or digit. -/
theorem spaced_eq_self (inRun : Bool) (cs : List Char) (hchars : ∀ c ∈ cs, SnakeChar c)
    (hapart : cs.IsChain Apart) (hrun : inRun = true → '_' ∉ cs.head?) :
    spaced inRun cs = cs := by
  induction cs generalizing inRun with
  | nil => rfl
  | cons c rest ih =>
    have hrest : ∀ d ∈ rest, SnakeChar d := fun d hd => hchars d (List.mem_cons_of_mem c hd)
    rw [List.isChain_cons] at hapart
    by_cases hc : c = '_'
    · subst hc
      have hopen : inRun = false := by
        by_contra hinside
        exact hrun (by simpa using hinside) rfl
      have hnext : '_' ∉ rest.head? := fun hhead => hapart.1 '_' hhead ⟨rfl, rfl⟩
      have hsep : Text.isAlnum '_' = false := rfl
      simp [spaced, hopen, hsep, ih true hrest hapart.2 fun _ => hnext]
    · have halnum := (hchars c List.mem_cons_self).isAlnum hc
      simp [spaced, halnum, ih false hrest hapart.2 (by simp)]

theorem markCapitals_eq_self (cs : List Char) (hlow : ∀ c ∈ cs, Text.isUpper c = false) :
    markCapitals cs = cs := by
  fun_induction markCapitals cs with
  | case1 a b c rest hmark ih =>
    have hb : Text.isUpper b = false := hlow b (by simp)
    simp [hb] at hmark
  | case2 a b c rest hmark ih =>
    rw [ih fun d hd => hlow d (List.mem_cons_of_mem a hd)]
  | case3 cs hshort => rfl

theorem markRises_eq_self (cs : List Char) (hlow : ∀ c ∈ cs, Text.isUpper c = false) :
    markRises cs = cs := by
  fun_induction markRises cs with
  | case1 a b rest hmark ih =>
    have hb : Text.isUpper b = false := hlow b (by simp)
    simp [hb] at hmark
  | case2 a b rest hmark ih =>
    rw [ih fun d hd => hlow d (List.mem_cons_of_mem a hd)]
  | case3 cs hshort => rfl

theorem collapse_eq_self (cs : List Char) (hapart : cs.IsChain Apart) : collapse cs = cs := by
  fun_induction collapse cs with
  | case1 a b rest hboth ih =>
    have hsame : a = '_' ∧ b = '_' := by simpa using hboth
    exact absurd hsame (List.isChain_cons_cons.mp hapart).1
  | case2 a b rest hboth ih => rw [ih (List.isChain_cons_cons.mp hapart).2]
  | case3 cs hshort => rfl

/-- Only the trimming can change a text of single underscores and lower-case words. -/
theorem snake_eq_trim (text : String) (hchars : ∀ c ∈ text.toList, SnakeChar c)
    (hapart : text.toList.IsChain Apart) :
    (snake text).toList = Text.trimWhile (· == '_') text.toList := by
  have hlow : ∀ c ∈ text.toList, Text.isUpper c = false := fun c hc => (hchars c hc).not_upper
  have hlowered : text.toList.map Text.lowerChar = text.toList := by
    rw [List.map_congr_left fun c hc => Text.lowerChar_of_not_upper (hlow c hc), List.map_id']
  rw [snake, String.toList_ofList, spaced_eq_self false _ hchars hapart (by simp),
    markCapitals_eq_self _ hlow, markRises_eq_self _ hlow, hlowered, collapse_eq_self _ hapart]

theorem SnakeShaped.head_kept {cs : List Char} (hcs : SnakeShaped cs) :
    ∀ c ∈ cs.head?, (c == '_') = false := by
  intro c hc
  have hne : c ≠ '_' := by
    rintro rfl
    exact hcs.head hc
  simpa using hne

theorem SnakeShaped.last_kept {cs : List Char} (hcs : SnakeShaped cs) :
    ∀ c ∈ cs.getLast?, (c == '_') = false := by
  intro c hc
  have hne : c ≠ '_' := by
    rintro rfl
    exact hcs.last hc
  simpa using hne

theorem snake_eq_self {name : String} (hname : SnakeShaped name.toList) : snake name = name := by
  apply String.toList_inj.mp
  rw [snake_eq_trim name hname.chars hname.apart]
  exact Text.trimWhile_eq_self _ _ hname.head_kept hname.last_kept

theorem snake_append_underscore {name : String} (hname : SnakeShaped name.toList)
    (hne : name.toList ≠ []) : snake (name ++ "_") = name := by
  have htext : (name ++ "_").toList = name.toList ++ ['_'] := by simp
  have hchars : ∀ c ∈ (name ++ "_").toList, SnakeChar c := by
    intro c hc
    rw [htext, List.mem_append, List.mem_singleton] at hc
    rcases hc with hc | rfl
    · exact hname.chars c hc
    · exact Or.inr (Or.inr rfl)
  have hapart : (name ++ "_").toList.IsChain Apart := by
    rw [htext]
    apply hname.apart.append (List.IsChain.singleton '_')
    intro before hbefore after hafter hboth
    exact hname.last (hboth.1 ▸ hbefore)
  apply String.toList_inj.mp
  rw [snake_eq_trim _ hchars hapart, htext]
  exact Text.trimWhile_concat _ _ _ rfl hne hname.head_kept hname.last_kept

end RamlScaffold.Naming

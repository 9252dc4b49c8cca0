import Mathlib.Data.List.DropRight
import Mathlib.Data.List.Induction
import RamlScaffold.Text.Tabs

/-!
What tab expansion writes. The counter that runs along with the text is the true column: the number
of characters written since the last line break. So every tab leads to a tab stop with as few spaces
as this takes, a line break starts the text that follows it anew, and a text without tabs is written
as it stands.
-/

namespace RamlScaffold.Text

def endsLine (c : Char) : Bool := c == '\n' || c == '\r'

/-- The number of characters written since the last line break. -/
def column (out : List Char) : Nat := (out.rtakeWhile (!endsLine ·)).length

/-- `out` is `text` written from left to right, where a tab becomes at least one space and at most
`width` of them, so that the column behind it is a multiple of `width`. -/
inductive Expansion (width : Nat) : List Char → List Char → Prop
  | nil : Expansion width [] []
  | keep {text out : List Char} {c : Char} (hsofar : Expansion width text out) (hc : c ≠ '\t') :
    Expansion width (text ++ [c]) (out ++ [c])
  | tab {text out : List Char} {n : Nat} (hsofar : Expansion width text out) (hlow : 1 ≤ n)
    (hhigh : n ≤ width) (hstop : width ∣ column (out ++ List.replicate n ' ')) :
    Expansion width (text ++ ['\t']) (out ++ List.replicate n ' ')

theorem column_concat_endsLine (out : List Char) {c : Char} (hc : endsLine c = true) :
    column (out ++ [c]) = 0 := by
  rw [column, List.rtakeWhile_concat_neg _ _ _ (by simp [hc]), List.length_nil]

theorem column_concat (out : List Char) {c : Char} (hc : endsLine c = false) :
    column (out ++ [c]) = column out + 1 := by
  rw [column, List.rtakeWhile_concat_pos _ _ _ (by simp [hc]), List.length_append,
    List.length_singleton, column]

theorem column_append_spaces (out : List Char) (n : Nat) :
    column (out ++ List.replicate n ' ') = column out + n := by
  induction n with
  | zero => simp
  | succ n ih =>
    rw [List.replicate_succ', ← List.append_assoc, column_concat _ (by decide), ih, Nat.add_assoc]

theorem stop_of_spaces {width : Nat} (hwidth : 0 < width) (col : Nat) :
    width ∣ col + (width - col % width) := by
  have hcol := Nat.div_add_mod col width
  have hlt := Nat.mod_lt col hwidth
  refine ⟨col / width + 1, ?_⟩
  rw [Nat.mul_add]
  omega

/-- Two tab stops less than a width apart are the same. -/
theorem spaces_eq_of_le {width col m n : Nat} (hlow : 1 ≤ m) (hle : m ≤ n) (hhigh : n ≤ width)
    (hm : width ∣ col + m) (hn : width ∣ col + n) : m = n := by
  have hapart : width ∣ n - m := by
    rw [← Nat.add_sub_add_left col n m]
    exact Nat.dvd_sub hn hm
  have hnone : n - m = 0 := Nat.eq_zero_of_dvd_of_lt hapart (by omega)
  omega

/-- Only one number of spaces leads from a column to the next tab stop. -/
theorem spaces_eq_of_stop {width col n : Nat} (hlow : 1 ≤ n) (hhigh : n ≤ width)
    (hstop : width ∣ col + n) : n = width - col % width := by
  have hwidth : 0 < width := by omega
  have hlt := Nat.mod_lt col hwidth
  have hnext := stop_of_spaces hwidth col
  rcases Nat.le_total n (width - col % width) with hle | hle
  · exact spaces_eq_of_le hlow hle (by omega) hstop hnext
  · exact (spaces_eq_of_le (by omega) hle hhigh hnext hstop).symm

def written (width : Nat) (out : List Char) (c : Char) : List Char :=
  if c = '\t' then List.replicate (width - column out % width) ' ' else [c]

theorem written_tab (width : Nat) (out : List Char) :
    written width out '\t' = List.replicate (width - column out % width) ' ' := rfl

theorem written_of_ne (width : Nat) (out : List Char) {c : Char} (hc : c ≠ '\t') :
    written width out c = [c] := if_neg hc

variable {width : Nat} {text out : List Char}

/-- One step keeps the counter equal to the column of all that is written. -/
theorem expandFrom_cons (width : Nat) (out : List Char) (c : Char) (rest : List Char) :
    expandFrom width (column out) (c :: rest) =
      written width out c ++ expandFrom width (column (out ++ written width out c)) rest := by
  by_cases htab : c = '\t'
  · subst htab
    rw [written_tab, column_append_spaces]
    rfl
  · rw [written_of_ne width out htab, expandFrom, if_neg (by simpa using htab)]
    by_cases hline : endsLine c = true
    · rw [column_concat_endsLine out hline]
      exact if_pos hline
    · rw [column_concat out (by simpa using hline)]
      exact if_neg hline

/-- The text is cut anywhere: the second part is written from the column behind the first. -/
theorem expandFrom_append (width : Nat) (out text rest : List Char) :
    expandFrom width (column out) (text ++ rest) =
      expandFrom width (column out) text ++
        expandFrom width (column (out ++ expandFrom width (column out) text)) rest := by
  -- Each step moves one character of the text to what is written already.
  induction text generalizing out with
  | nil => simp [expandFrom]
  | cons c text ih =>
    rw [List.cons_append, expandFrom_cons, expandFrom_cons, ih, List.append_assoc,
      List.append_assoc]

theorem expandFrom_zero_append (width : Nat) (text rest : List Char) :
    expandFrom width 0 (text ++ rest) =
      expandFrom width 0 text ++ expandFrom width (column (expandFrom width 0 text)) rest :=
  expandFrom_append width [] text rest

theorem expandFrom_concat (width : Nat) (text : List Char) (c : Char) :
    expandFrom width 0 (text ++ [c]) =
      expandFrom width 0 text ++ written width (expandFrom width 0 text) c := by
  rw [expandFrom_zero_append, expandFrom_cons, expandFrom, List.append_nil]

theorem expansion_expandFrom (hwidth : 0 < width) (text : List Char) :
    Expansion width text (expandFrom width 0 text) := by
  induction text using List.reverseRecOn with
  | nil => exact .nil
  | append_singleton text c ih =>
    rw [expandFrom_concat]
    by_cases htab : c = '\t'
    · subst htab
      have hlt := Nat.mod_lt (column (expandFrom width 0 text)) hwidth
      refine .tab ih (by omega) (by omega) ?_
      rw [column_append_spaces]
      exact stop_of_spaces hwidth _
    · rw [written_of_ne width _ htab]
      exact .keep ih htab

theorem Expansion.eq_expandFrom (hout : Expansion width text out) :
    out = expandFrom width 0 text := by
  induction hout with
  | nil => rfl
  | keep _ hc ih => rw [expandFrom_concat, ← ih, written_of_ne width _ hc]
  | tab _ hlow hhigh hstop ih =>
    rw [column_append_spaces] at hstop
    rw [expandFrom_concat, ← ih, written_tab, ← spaces_eq_of_stop hlow hhigh hstop]

theorem expansion_iff (hwidth : 0 < width) :
    Expansion width text out ↔ out = expandFrom width 0 text := by
  constructor
  · exact Expansion.eq_expandFrom
  · rintro rfl
    exact expansion_expandFrom hwidth text

theorem Expansion.tab_notMem (hout : Expansion width text out) : '\t' ∉ out := by
  induction hout with
  | nil => exact List.not_mem_nil
  | keep _ hc ih => simpa [ih] using Ne.symm hc
  | tab _ _ _ _ ih => simp [ih, List.mem_replicate]

theorem Expansion.sublist (hout : Expansion width text out) :
    (text.filter (· != '\t')).Sublist out := by
  induction hout with
  | nil => exact .slnil
  | keep _ hc ih => simpa [hc] using ih
  | tab _ _ _ _ ih => simpa using ih.trans (List.sublist_append_left _ _)

theorem expandFrom_endsLine (width : Nat) (text rest : List Char) {c : Char}
    (hc : endsLine c = true) :
    expandFrom width 0 (text ++ c :: rest) =
      expandFrom width 0 text ++ c :: expandFrom width 0 rest := by
  have hother : c ≠ '\t' := by
    rintro rfl
    cases hc
  rw [expandFrom_zero_append, expandFrom_cons, written_of_ne width _ hother,
    column_concat_endsLine _ hc, List.singleton_append]

theorem expandFrom_of_tab_notMem (width col : Nat) (htab : '\t' ∉ text) :
    expandFrom width col text = text := by
  induction text generalizing col with
  | nil => rfl
  | cons c text ih =>
    rw [List.mem_cons, not_or] at htab
    have hc : c ≠ '\t' := Ne.symm htab.1
    simp [expandFrom, hc, ih _ htab.2]

/-- Tab expansion is exact. No tab is left, all other characters stay in their order, and each tab
becomes one to `width` spaces that lead to a multiple of the width, counted from the last line break
of what is written; only one text is written like this. Both sides of a line break are expanded by
themselves, and a text once expanded stays as it is for every width. -/
theorem tabs_expanded_exactly (width : Nat) (text : String) :
    '\t' ∉ (expandTabs width text).toList ∧
    (text.toList.filter (· != '\t')).Sublist (expandTabs width text).toList ∧
    (∀ out, Expansion (max width 1) text.toList out ↔ out = (expandTabs width text).toList) ∧
    (∀ before after c, endsLine c = true →
      expandTabs width (before ++ String.singleton c ++ after) =
        expandTabs width before ++ String.singleton c ++ expandTabs width after) ∧
    ∀ other, expandTabs other (expandTabs width text) = expandTabs width text := by
  have hwidth : 0 < max width 1 := Nat.lt_of_lt_of_le Nat.zero_lt_one (Nat.le_max_right width 1)
  have hout : Expansion (max width 1) text.toList (expandTabs width text).toList := by
    rw [expandTabs, String.toList_ofList]
    exact expansion_expandFrom hwidth _
  refine ⟨hout.tab_notMem, hout.sublist, ?_, ?_, ?_⟩
  · intro out
    rw [expandTabs, String.toList_ofList]
    exact expansion_iff hwidth
  · intro before after c hc
    apply String.toList_inj.mp
    simp [expandTabs, expandFrom_endsLine _ _ _ hc]
  · intro other
    apply String.toList_inj.mp
    rw [expandTabs, String.toList_ofList, expandFrom_of_tab_notMem _ _ hout.tab_notMem]

/-- Tabs behind wide characters and on both sides of a carriage return. -/
theorem tabs_expanded_exactly_carriage_return :
    endsLine '\r' = true ∧
      expandTabs 4 ("日本\té\t\t" ++ String.singleton '\r' ++ "\tx\t") =
        "日本  é       " ++ String.singleton '\r' ++ "    x   " := by
  have hbreak : endsLine '\r' = true := rfl
  obtain ⟨-, -, -, hbreaks, -⟩ := tabs_expanded_exactly 4 ""
  refine ⟨hbreak, ?_⟩
  rw [hbreaks _ _ _ hbreak]
  decide

end RamlScaffold.Text

import RamlScaffold.Artifact.Settings
import RamlScaffold.Proofs.Artifact.Imports

/-!
Accepted versions. Blanks around a version are not looked at when the settings are checked, but the
version is used with them: it is one word of plain characters with any blanks around it. Between
quotes such a text may break the line, and it never gives an import.
-/

namespace RamlScaffold

namespace Text

/-- Trimming cuts a text into what goes before, what stays and what goes behind. -/
theorem trimWhile_split (p : Char → Bool) (cs : List Char) :
    ∃ before after, cs = before ++ trimWhile p cs ++ after ∧ before.all p = true ∧
      after.all p = true := by
  refine ⟨cs.takeWhile p, ((cs.dropWhile p).reverse.takeWhile p).reverse, ?_, ?_, ?_⟩
  · have htail : trimWhile p cs ++ ((cs.dropWhile p).reverse.takeWhile p).reverse =
        cs.dropWhile p := by
      rw [trimWhile, dropTailWhile, ← List.reverse_append, List.takeWhile_append_dropWhile,
        List.reverse_reverse]
    rw [List.append_assoc, htail, List.takeWhile_append_dropWhile]
  · exact List.all_takeWhile
  · rw [List.all_reverse]
    exact List.all_takeWhile

theorem sublist_of_head_notMem {first second part : List Char} {c : Char}
    (hpart : part.Sublist (first ++ second)) (hhead : part.head? = some c) (hc : c ∉ first) :
    part.Sublist second := by
  obtain ⟨left, right, rfl, hleft, hright⟩ := List.sublist_append_iff.mp hpart
  cases left with
  | nil => exact hright
  | cons d rest =>
    obtain rfl : d = c := by simpa using hhead
    exact absurd (hleft.subset List.mem_cons_self) hc

theorem sublist_of_last_notMem {first second part : List Char} {c : Char}
    (hpart : part.Sublist (first ++ second)) (hlast : part.getLast? = some c) (hc : c ∉ second) :
    part.Sublist first := by
  rw [← List.reverse_sublist, List.reverse_append] at hpart
  rw [← List.reverse_sublist]
  exact sublist_of_head_notMem hpart (by rw [List.head?_reverse, hlast]) (by simpa using hc)

end Text

namespace ServerSettings

open Line (isPlain)

theorem printed_of_isVersionChar {c : Char} (hc : isVersionChar c = true) :
    33 ≤ c.toNat ∧ c.toNat < 128 := by
  by_cases hchar : Code.isIdentifierChar c = true
  · exact ImportLine.printed_of_identifierChar hchar
  · have hmark : c = '-' ∨ c = '.' := by
      simp only [Code.isIdentifierChar, Bool.or_eq_true, not_or] at hchar
      simpa [isVersionChar, hchar] using hc
    rcases hmark with rfl | rfl <;> decide

/-- An accepted version is one word with blanks around it. -/
theorem words_of_check {settings : ServerSettings} (hcheck : settings.check = .ok ()) :
    ∃ before word after, settings.apiVersion.toList = before ++ word ++ after ∧
      before.all Text.isBlank = true ∧ word.all isVersionChar = true ∧
      after.all Text.isBlank = true := by
  obtain ⟨before, after, hsplit, hbefore, hafter⟩ :=
    Text.trimWhile_split Text.isBlank settings.apiVersion.toList
  refine ⟨before, _, after, hsplit, hbefore, ?_, hafter⟩
  unfold check at hcheck
  simp only [Text.trim, String.toList_ofList] at hcheck
  split_ifs at hcheck with _ hsegment
  simpa using hsegment

/-- The characters of an accepted version: blanks and those of a segment. -/
theorem char_of_check {settings : ServerSettings} (hcheck : settings.check = .ok ()) {c : Char}
    (hc : c ∈ settings.apiVersion.toList) : Text.isBlank c = true ∨ isVersionChar c = true := by
  obtain ⟨before, word, after, hsplit, hbefore, hword, hafter⟩ := words_of_check hcheck
  rw [hsplit, List.mem_append, List.mem_append] at hc
  rcases hc with (hfirst | hmiddle) | hlast
  · exact Or.inl (List.all_eq_true.mp hbefore c hfirst)
  · exact Or.inr (List.all_eq_true.mp hword c hmiddle)
  · exact Or.inl (List.all_eq_true.mp hafter c hlast)

theorem notMem_of_check {settings : ServerSettings} (hcheck : settings.check = .ok ()) {c : Char}
    (hc : (Text.isBlank c || isVersionChar c) = false) : c ∉ settings.apiVersion.toList := by
  intro hmem
  rw [Bool.or_eq_false_iff] at hc
  rcases char_of_check hcheck hmem with hblank | hversion
  · exact absurd hblank (by simp [hc.1])
  · exact absurd hversion (by simp [hc.2])

/-- An accepted version may stand between quotes. -/
theorem enclosable_of_check {settings : ServerSettings} (hcheck : settings.check = .ok ()) :
    Line.Enclosable settings.apiVersion := by
  obtain ⟨before, word, after, hsplit, hbefore, hword, hafter⟩ := words_of_check hcheck
  rw [List.all_eq_true] at hbefore hword hafter
  constructor
  · intro c hc
    have hnot (d : Char) (hd : (Text.isBlank d || isVersionChar d) = false) : c ≠ d := by
      rintro rfl
      exact notMem_of_check hcheck hd hc
    have hquote := hnot '\'' (by decide)
    have hdouble := hnot '"' (by decide)
    have hsign := hnot '#' (by decide)
    exact ⟨by simp [isPlain, Code.Mode.isQuote, hquote, hdouble, hsign], hnot '\\' (by decide)⟩
  · intro d b c hthree hd hb
    by_contra hnone
    rw [not_or] at hnone
    -- The first and the last of the three are in the word, and so is the blank between them.
    rw [hsplit, List.append_assoc, List.append_assoc] at hthree
    have hdropped : [d, b, c].Sublist (word ++ (after ++ ['\''])) := by
      apply Text.sublist_of_head_notMem hthree rfl
      intro hmem
      rw [hbefore d hmem] at hd
      cases hd
    have hinside : [d, b, c].Sublist word := by
      apply Text.sublist_of_last_notMem hdropped rfl
      intro hmem
      rcases List.mem_append.mp hmem with hblank | hquote
      · exact hnone.1 (hafter c hblank)
      · exact hnone.2 (List.mem_singleton.mp hquote)
    have hmiddle : b ∈ word := hinside.subset (by simp)
    have hprinted := printed_of_isVersionChar (hword b hmiddle)
    rw [ImportLine.not_isBlank_of_printed hprinted.1 hprinted.2] at hb
    cases hb

end ServerSettings

end RamlScaffold

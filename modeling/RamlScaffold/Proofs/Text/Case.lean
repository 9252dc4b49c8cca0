import RamlScaffold.Text.Case

/-!
ASCII letters and digits as ranges of code points, and what the two case maps do to them. All later
facts about characters of names come down to these ranges and to `omega`.
-/

namespace RamlScaffold.Text

theorem isUpper_iff (c : Char) : isUpper c = true ↔ 65 ≤ c.toNat ∧ c.toNat ≤ 90 := by
  simp [isUpper, Char.le_def, UInt32.le_iff_toNat_le, ← Char.toNat_val]

theorem isLower_iff (c : Char) : isLower c = true ↔ 97 ≤ c.toNat ∧ c.toNat ≤ 122 := by
  simp [isLower, Char.le_def, UInt32.le_iff_toNat_le, ← Char.toNat_val]

theorem isDigit_iff (c : Char) : isDigit c = true ↔ 48 ≤ c.toNat ∧ c.toNat ≤ 57 := by
  simp [isDigit, Char.le_def, UInt32.le_iff_toNat_le, ← Char.toNat_val]

theorem isAlnum_iff (c : Char) :
    isAlnum c = true ↔ isUpper c = true ∨ isLower c = true ∨ isDigit c = true := by
  simp [isAlnum, or_assoc]

theorem not_upper_of_lower {c : Char} (hc : isLower c = true) : isUpper c = false := by
  rw [isLower_iff] at hc
  rw [← Bool.not_eq_true, isUpper_iff]
  omega

theorem not_upper_of_digit {c : Char} (hc : isDigit c = true) : isUpper c = false := by
  rw [isDigit_iff] at hc
  rw [← Bool.not_eq_true, isUpper_iff]
  omega

theorem not_lower_of_digit {c : Char} (hc : isDigit c = true) : isLower c = false := by
  rw [isDigit_iff] at hc
  rw [← Bool.not_eq_true, isLower_iff]
  omega

theorem toNat_ofNat_of_lt {n : Nat} (hn : n < 0xD800) : (Char.ofNat n).toNat = n := by
  have hvalid : n.isValidChar := Or.inl hn
  unfold Char.ofNat
  rw [dif_pos hvalid]
  rfl

theorem lowerChar_of_not_upper {c : Char} (hc : isUpper c = false) : lowerChar c = c := by
  simp [lowerChar, hc]

theorem toNat_lowerChar {c : Char} (hc : isUpper c = true) :
    (lowerChar c).toNat = c.toNat + 32 := by
  have hrange := (isUpper_iff c).mp hc
  simp only [lowerChar, hc, if_true]
  exact toNat_ofNat_of_lt (by omega)

theorem isLower_lowerChar {c : Char} (hc : isUpper c = true) : isLower (lowerChar c) = true := by
  have hrange := (isUpper_iff c).mp hc
  rw [isLower_iff, toNat_lowerChar hc]
  omega

theorem upperChar_of_not_lower {c : Char} (hc : isLower c = false) : upperChar c = c := by
  simp [upperChar, hc]

theorem toNat_upperChar {c : Char} (hc : isLower c = true) :
    (upperChar c).toNat = c.toNat - 32 := by
  have hrange := (isLower_iff c).mp hc
  simp only [upperChar, hc, if_true]
  exact toNat_ofNat_of_lt (by omega)

theorem isUpper_upperChar {c : Char} (hc : isLower c = true) : isUpper (upperChar c) = true := by
  have hrange := (isLower_iff c).mp hc
  rw [isUpper_iff, toNat_upperChar hc]
  omega

theorem lowerChar_upperChar {c : Char} (hc : isLower c = true) : lowerChar (upperChar c) = c := by
  have hrange := (isLower_iff c).mp hc
  apply Char.toNat_inj.mp
  rw [toNat_lowerChar (isUpper_upperChar hc), toNat_upperChar hc]
  omega

end RamlScaffold.Text

import Mathlib.Data.String.Basic
import RamlScaffold.Proofs.Document.Lookup

/-!
Mappings in order of their keys. A mapping in order is determined by its lookups, so two of them
that were filled in different ways are compared by what they hold and not by how they were filled.
-/

namespace RamlScaffold

/-- The order of texts by code points is the order of strings. -/
theorem textBefore_iff_lt (a b : List Char) : textBefore a b = true ↔ a < b := by
  induction a generalizing b with
  | nil => cases b <;> simp [textBefore]
  | cons c as ih =>
    cases b with
    | nil => simp [textBefore]
    | cons d bs =>
      rw [textBefore, List.cons_lt_cons_iff, Bool.or_eq_true, Bool.and_eq_true, ih]
      exact or_congr decide_eq_true_iff (and_congr_left' beq_iff_eq)

namespace Fields

variable {α : Type}

def InOrder (fields : Fields α) : Prop := (keys fields).Pairwise (· < ·)

theorem InOrder.nodup_keys {fields : Fields α} (horder : InOrder fields) : (keys fields).Nodup :=
  horder.imp fun hbefore => ne_of_lt hbefore

theorem InOrder.filter {fields : Fields α} (horder : InOrder fields) (p : String × α → Bool) :
    InOrder (fields.filter p) :=
  List.Pairwise.sublist (List.filter_sublist.map _) horder

theorem mem_keys_putSorted {key k : String} {value : α} {fields : Fields α} :
    k ∈ keys (putSorted key value fields) ↔ k = key ∨ k ∈ keys fields := by
  rw [← get?_isSome_iff, ← get?_isSome_iff, get?_putSorted]
  by_cases hsame : k = key <;> simp [hsame]

theorem InOrder.putSorted {fields : Fields α} (horder : InOrder fields) (key : String)
    (value : α) : InOrder (putSorted key value fields) := by
  induction fields with
  | nil => exact List.pairwise_singleton _ _
  | cons entry rest ih =>
    obtain ⟨k, v⟩ := entry
    obtain ⟨hfirst, hrest⟩ := List.pairwise_cons.mp horder
    rw [Fields.putSorted]
    split
    · rename_i hsame
      rw [beq_iff_eq] at hsame
      exact List.pairwise_cons.mpr ⟨hsame ▸ hfirst, hrest⟩
    · rename_i hother
      rw [beq_iff_eq] at hother
      split
      · rename_i hbefore
        rw [textBefore_iff_lt, ← String.lt_iff_toList_lt] at hbefore
        refine List.pairwise_cons.mpr ⟨?_, horder⟩
        intro later hlater
        rcases List.mem_cons.mp hlater with rfl | hlater
        · exact hbefore
        · exact hbefore.trans (hfirst later hlater)
      · rename_i hafter
        rw [textBefore_iff_lt, ← String.lt_iff_toList_lt] at hafter
        refine List.pairwise_cons.mpr ⟨?_, ih hrest⟩
        intro later hlater
        rcases mem_keys_putSorted.mp hlater with rfl | hlater
        · exact lt_of_le_of_ne (not_lt.mp hafter) hother
        · exact hfirst later hlater

theorem InOrder.putIfAbsent {fields : Fields α} (horder : InOrder fields) (key : String)
    (value : α) : InOrder (putIfAbsent key value fields) := by
  rw [Fields.putIfAbsent]
  split
  · exact horder
  · exact horder.putSorted key value

theorem InOrder.foldl_putIfAbsent {fields : Fields α} (horder : InOrder fields)
    (entries : Fields α) :
    InOrder (entries.foldl (fun fields (key, value) => Fields.putIfAbsent key value fields)
      fields) := by
  induction entries generalizing fields with
  | nil => exact horder
  | cons entry rest ih => exact ih (horder.putIfAbsent entry.1 entry.2)

theorem mem_iff_get? {key : String} {value : α} {fields : Fields α}
    (hdistinct : (keys fields).Nodup) : (key, value) ∈ fields ↔ get? key fields = some value := by
  induction fields with
  | nil => simp [get?]
  | cons entry rest ih =>
    obtain ⟨k, v⟩ := entry
    obtain ⟨hnew, hrest⟩ := List.nodup_cons.mp hdistinct
    rw [List.mem_cons, get?_cons, ih hrest]
    by_cases hsame : key = k
    · subst hsame
      have habsent : get? key rest = none := (get?_eq_none_iff key rest).mpr hnew
      simp [habsent, eq_comm]
    · simp [hsame]

/-- A mapping in order is determined by its lookups. -/
theorem InOrder.ext {a b : Fields α} (ha : InOrder a) (hb : InOrder b)
    (hsame : ∀ key, get? key a = get? key b) : a = b := by
  have hperm : a.Perm b := by
    refine (List.perm_ext_iff_of_nodup ha.nodup_keys.of_map hb.nodup_keys.of_map).mpr ?_
    intro entry
    rw [mem_iff_get? ha.nodup_keys, mem_iff_get? hb.nodup_keys, hsame]
  refine hperm.eq_of_pairwise ?_ (List.pairwise_map.mp ha) (List.pairwise_map.mp hb)
  intro p q _ _ hbefore hafter
  exact absurd hafter (lt_asymm hbefore)

theorem get?_filter (keep : String → Bool) (key : String) (fields : Fields α) :
    get? key (fields.filter fun entry => keep entry.1) =
      if keep key then get? key fields else none := by
  induction fields with
  | nil => simp [get?]
  | cons entry rest ih =>
    obtain ⟨k, v⟩ := entry
    rw [get?_cons]
    by_cases hsame : key = k
    · subst hsame
      cases hkeep : keep key <;> simp [hkeep, get?_cons, ih]
    · cases hkeep : keep k <;> simp [hkeep, get?_cons, hsame, ih]

end Fields

end RamlScaffold

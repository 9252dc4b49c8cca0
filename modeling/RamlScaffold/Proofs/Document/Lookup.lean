import Mathlib.Data.List.Nodup
import RamlScaffold.Document.Sorted

/-!
Mappings seen through `get?`. Each operation on a mapping is described by what it does to every
lookup, so that proofs about files and fields never look at the order of the entries. Adding
entries only where a key is absent is a choice between two lookups, the earlier mapping first.
-/

namespace RamlScaffold.Fields

variable {α : Type}

theorem get?_cons (key k : String) (value : α) (fields : Fields α) :
    get? k ((key, value) :: fields) = if k = key then some value else get? k fields := by
  by_cases hsame : key = k
  · simp [get?, hsame]
  · have hother : ¬ k = key := fun h => hsame h.symm
    simp [get?, hsame, hother]

theorem get?_isSome_iff (key : String) (fields : Fields α) :
    (get? key fields).isSome = true ↔ key ∈ keys fields := by
  induction fields with
  | nil => simp [get?, keys]
  | cons entry rest ih =>
    obtain ⟨k, v⟩ := entry
    rw [get?_cons]
    by_cases hsame : key = k
    · simp [keys, hsame]
    · simpa [keys, hsame] using ih

theorem get?_eq_none_iff (key : String) (fields : Fields α) :
    get? key fields = none ↔ key ∉ keys fields := by
  rw [← get?_isSome_iff key fields]
  cases get? key fields <;> simp

theorem mem_keys_of_get? {key : String} {fields : Fields α} {value : α}
    (hfound : get? key fields = some value) : key ∈ keys fields := by
  rw [← get?_isSome_iff, hfound]
  rfl

theorem mem_of_get? {key : String} {fields : Fields α} {value : α}
    (hfound : get? key fields = some value) : (key, value) ∈ fields := by
  induction fields with
  | nil => cases hfound
  | cons entry rest ih =>
    obtain ⟨k, v⟩ := entry
    rw [get?_cons] at hfound
    split_ifs at hfound with hsame
    · rw [hsame, Option.some.inj hfound]
      exact List.mem_cons_self
    · exact List.mem_cons_of_mem _ (ih hfound)

theorem get?_putSorted (key k : String) (value : α) (fields : Fields α) :
    get? k (putSorted key value fields) = if k = key then some value else get? k fields := by
  induction fields with
  | nil => exact get?_cons key k value []
  | cons entry rest ih =>
    obtain ⟨k', v⟩ := entry
    by_cases hpresent : k' = key
    · subst hpresent
      simp only [putSorted, beq_self_eq_true, if_true, get?_cons]
      by_cases hsame : k = k' <;> simp [hsame]
    · by_cases hbefore : textBefore key.toList k'.toList = true
      · simp [putSorted, hpresent, hbefore, get?_cons]
      · have hplaced : putSorted key value ((k', v) :: rest) =
            (k', v) :: putSorted key value rest := by
          simp [putSorted, hpresent, hbefore]
        rw [hplaced, get?_cons, get?_cons, ih]
        by_cases hsame : k = key
        · have hother : ¬ key = k' := fun h => hpresent h.symm
          simp [hsame, hother]
        · simp [hsame]

/-- The keys of a mapping after one key was set: those before and the key. -/
theorem keys_putSorted_perm (key : String) (value : α) (fields : Fields α)
    (habsent : key ∉ keys fields) :
    (keys (putSorted key value fields)).Perm (key :: keys fields) := by
  induction fields with
  | nil => simp [putSorted, keys]
  | cons entry rest ih =>
    obtain ⟨k, v⟩ := entry
    simp only [keys, List.map_cons, List.mem_cons, not_or] at habsent
    have hother : ¬ k = key := fun h => habsent.1 h.symm
    by_cases hbefore : textBefore key.toList k.toList = true
    · simp [putSorted, keys, hother, hbefore]
    · simp only [putSorted, beq_iff_eq, hother, hbefore, if_false, keys, List.map_cons]
      exact ((ih habsent.2).cons k).trans (List.Perm.swap key k _)

theorem get?_putIfAbsent (key k : String) (value : α) (fields : Fields α) :
    get? k (putIfAbsent key value fields) =
      (get? k fields).or (if k = key then some value else none) := by
  by_cases hpresent : (get? key fields).isSome = true
  · by_cases hsame : k = key
    · subst hsame
      obtain ⟨old, hfound⟩ := Option.isSome_iff_exists.mp hpresent
      simp [putIfAbsent, hfound]
    · simp [putIfAbsent, hpresent, hsame]
  · have hmissing : get? key fields = none := by simpa using hpresent
    by_cases hsame : k = key
    · subst hsame
      simp [putIfAbsent, get?_putSorted, hmissing]
    · simp [putIfAbsent, get?_putSorted, hmissing, hsame]

theorem nodup_keys_putIfAbsent (key : String) (value : α) (fields : Fields α)
    (hdistinct : (keys fields).Nodup) : (keys (putIfAbsent key value fields)).Nodup := by
  by_cases hpresent : (get? key fields).isSome = true
  · simpa [putIfAbsent, hpresent] using hdistinct
  · have habsent : key ∉ keys fields := by
      rwa [get?_isSome_iff] at hpresent
    have hperm := keys_putSorted_perm key value fields habsent
    have hnodup := hperm.nodup_iff.mpr (List.nodup_cons.mpr ⟨habsent, hdistinct⟩)
    simpa [putIfAbsent, hpresent] using hnodup

/-- A lookup after entries were added where they were absent: what was there before, and else the
first of the entries. -/
theorem get?_foldl_putIfAbsent (k : String) (fields entries : Fields α) :
    get? k (entries.foldl (fun fields (key, value) => putIfAbsent key value fields) fields) =
      (get? k fields).or (get? k entries) := by
  induction entries generalizing fields with
  | nil => simp [get?]
  | cons entry rest ih =>
    obtain ⟨key, value⟩ := entry
    rw [List.foldl_cons, ih, get?_putIfAbsent, get?_cons, Option.or_assoc]
    by_cases hsame : k = key <;> simp [hsame]

theorem nodup_keys_foldl_putIfAbsent (fields entries : Fields α)
    (hdistinct : (keys fields).Nodup) :
    (keys (entries.foldl (fun fields (key, value) => putIfAbsent key value fields)
      fields)).Nodup := by
  induction entries generalizing fields with
  | nil => exact hdistinct
  | cons entry rest ih =>
    exact ih (putIfAbsent entry.1 entry.2 fields) (nodup_keys_putIfAbsent _ _ _ hdistinct)

/-- Keys that are all put below one directory keep their values. -/
theorem get?_map_below (directory path : String) (fields : Fields α) :
    get? (directory ++ path) (fields.map fun (key, value) => (directory ++ key, value)) =
      get? path fields := by
  induction fields with
  | nil => rfl
  | cons entry rest ih =>
    obtain ⟨key, value⟩ := entry
    simp only [List.map_cons, get?_cons, String.append_right_inj, ih]

theorem mem_keys_map_below {directory key : String} {fields : Fields α}
    (hmember : key ∈ keys (fields.map fun (path, value) => (directory ++ path, value))) :
    ∃ path ∈ keys fields, key = directory ++ path := by
  simp only [keys, List.map_map, List.mem_map] at hmember
  obtain ⟨entry, hinside, rfl⟩ := hmember
  exact ⟨entry.1, List.mem_map.mpr ⟨entry, hinside, rfl⟩, rfl⟩

end RamlScaffold.Fields

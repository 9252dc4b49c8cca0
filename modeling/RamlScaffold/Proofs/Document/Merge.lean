import Mathlib.Data.List.Induction
import RamlScaffold.Proofs.Document.Order

/-!
Mappings that are filled by setting one key after the other. Setting a key that is there overwrites
its value in place, and a new key goes to the end. A sequence of entries therefore gives each of its
keys once, where the key occurs first, with the value that it has where it occurs last.
-/

namespace RamlScaffold.Fields

variable {α : Type}

/-- The mapping has every key of the entries once, in the order of their first occurrences, each
with the value of its last occurrence. -/
structure Merges (entries : List (String × α)) (fields : Fields α) : Prop where
  complete : ∀ key, key ∈ keys fields ↔ key ∈ keys entries
  once : (keys fields).Nodup
  ordered : (keys fields).Pairwise fun a b => (keys entries).idxOf a < (keys entries).idxOf b
  last : ∀ key value, (key, value) ∈ fields ↔
    ∃ before after, entries = before ++ (key, value) :: after ∧ key ∉ keys after

theorem keys_append (first second : Fields α) :
    keys (first ++ second) = keys first ++ keys second :=
  List.map_append

theorem get?_put (key k : String) (value : α) (fields : Fields α) :
    get? k (put key value fields) = if k = key then some value else get? k fields := by
  fun_induction put key value fields with
  | case1 => exact get?_cons key k value []
  | case2 k' v rest hsame =>
    rw [beq_iff_eq] at hsame
    subst hsame
    rw [get?_cons, get?_cons]
    split <;> rfl
  | case3 k' v rest hother ih =>
    rw [beq_iff_eq] at hother
    rw [get?_cons, get?_cons, ih]
    by_cases hk : k = k'
    · rw [if_pos hk, if_pos hk, if_neg fun hsame => hother (hk.symm.trans hsame)]
    · rw [if_neg hk, if_neg hk]

/-- A key that is there keeps its place, and a new one comes last. -/
theorem keys_put (key : String) (value : α) (fields : Fields α) :
    keys (put key value fields) =
      if key ∈ keys fields then keys fields else keys fields ++ [key] := by
  fun_induction put key value fields with
  | case1 => rfl
  | case2 k v rest hsame =>
    rw [beq_iff_eq] at hsame
    simp [keys, hsame]
  | case3 k v rest hother ih =>
    rw [beq_iff_eq] at hother
    have hkeys : key ∈ keys ((k, v) :: rest) ↔ key ∈ keys rest := by
      simp [keys, Ne.symm hother]
    have hcons : keys ((k, v) :: put key value rest) = k :: keys (put key value rest) := rfl
    rw [hcons, ih]
    by_cases hmem : key ∈ keys rest
    · rw [if_pos hmem, if_pos (hkeys.mpr hmem)]
      rfl
    · rw [if_neg hmem, if_neg (mt hkeys.mp hmem)]
      rfl

theorem ofEntries_append_singleton (entries : List (String × α)) (key : String) (value : α) :
    ofEntries (entries ++ [(key, value)]) = put key value (ofEntries entries) := by
  rw [ofEntries, List.foldl_append]
  rfl

theorem nodup_keys_put {fields : Fields α} (hdistinct : (keys fields).Nodup) (key : String)
    (value : α) : (keys (put key value fields)).Nodup := by
  rw [keys_put]
  split
  · exact hdistinct
  · next hnew => exact List.nodup_append_comm.mpr (List.nodup_cons.mpr ⟨hnew, hdistinct⟩)

/-- One more entry: its key is in the mapping with the new value, all other keys are as before. -/
theorem mem_put_iff {fields : Fields α} (hdistinct : (keys fields).Nodup) {key k : String}
    {value v : α} :
    (k, v) ∈ put key value fields ↔ (k = key ∧ v = value) ∨ (k ≠ key ∧ (k, v) ∈ fields) := by
  rw [mem_iff_get? (nodup_keys_put hdistinct key value), mem_iff_get? hdistinct, get?_put]
  by_cases hsame : k = key
  · simp [hsame, eq_comm]
  · simp [hsame]

/-- The last entry is the last occurrence of its key, and it changes no other last occurrence. -/
theorem last_append_singleton (entries : List (String × α)) (key k : String) (value v : α) :
    (∃ before after, entries ++ [(key, value)] = before ++ (k, v) :: after ∧ k ∉ keys after) ↔
      (k = key ∧ v = value) ∨
        (k ≠ key ∧ ∃ before after, entries = before ++ (k, v) :: after ∧ k ∉ keys after) := by
  constructor
  · rintro ⟨before, after, hsplit, hlast⟩
    rcases List.eq_nil_or_concat' after with rfl | ⟨after, final, rfl⟩
    · obtain ⟨-, hfinal⟩ := List.append_inj' hsplit rfl
      cases hfinal
      exact .inl ⟨rfl, rfl⟩
    · rw [← List.cons_append, ← List.append_assoc] at hsplit
      obtain ⟨rfl, hfinal⟩ := List.append_inj' hsplit rfl
      cases hfinal
      rw [keys_append, List.mem_append, not_or] at hlast
      refine .inr ⟨?_, before, after, rfl, hlast.1⟩
      rintro rfl
      exact hlast.2 List.mem_cons_self
  · rintro (⟨rfl, rfl⟩ | ⟨hother, before, after, rfl, hlast⟩)
    · exact ⟨entries, [], rfl, List.not_mem_nil⟩
    · refine ⟨before, after ++ [(key, value)], by simp, ?_⟩
      rw [keys_append, List.mem_append, not_or]
      exact ⟨hlast, by simpa [keys] using hother⟩

/-- What one more entry does to a mapping and to the entries that it comes from. -/
theorem Merges.put {entries : List (String × α)} {fields : Fields α}
    (hmerges : Merges entries fields) (key : String) (value : α) :
    Merges (entries ++ [(key, value)]) (put key value fields) where
  complete k := by
    rw [keys_put, keys_append, List.mem_append, ← hmerges.complete]
    split
    · next hmem =>
      refine ⟨.inl, fun h => h.elim id fun hk => ?_⟩
      rwa [List.mem_singleton.mp hk]
    · rw [List.mem_append]
      rfl
  once := nodup_keys_put hmerges.once key value
  ordered := by
    have hindex {k : String} (hk : k ∈ keys fields) :
        (keys (entries ++ [(key, value)])).idxOf k = (keys entries).idxOf k := by
      rw [keys_append, List.idxOf_append_of_mem ((hmerges.complete k).mp hk)]
    have hold : (keys fields).Pairwise fun a b => (keys (entries ++ [(key, value)])).idxOf a <
        (keys (entries ++ [(key, value)])).idxOf b := by
      refine hmerges.ordered.imp_of_mem ?_
      intro a b ha hb hbefore
      rwa [hindex ha, hindex hb]
    rw [keys_put]
    split
    · exact hold
    · next hnew =>
      -- A new key occurs behind all entries so far, and the other keys occur among them.
      refine List.pairwise_append.mpr ⟨hold, List.pairwise_singleton _ _, ?_⟩
      intro a ha b hb
      obtain rfl := List.mem_singleton.mp hb
      rw [hindex ha, keys_append, List.idxOf_append_of_notMem (mt (hmerges.complete b).mpr hnew)]
      have hfound := List.idxOf_lt_length_of_mem ((hmerges.complete a).mp ha)
      omega
  last k v := by
    rw [mem_put_iff hmerges.once, last_append_singleton, hmerges.last]

theorem Merges.mem_entries {entries : List (String × α)} {fields : Fields α}
    (hmerges : Merges entries fields) {field : String × α} (hfield : field ∈ fields) :
    field ∈ entries := by
  obtain ⟨before, after, rfl, -⟩ := (hmerges.last field.1 field.2).mp hfield
  simp

theorem merges_ofEntries (entries : List (String × α)) : Merges entries (ofEntries entries) := by
  induction entries using List.reverseRecOn with
  | nil =>
    refine ⟨fun _ => Iff.rfl, List.nodup_nil, .nil, ?_⟩
    simp [ofEntries]
  | append_singleton entries entry ih =>
    obtain ⟨key, value⟩ := entry
    rw [ofEntries_append_singleton]
    exact ih.put key value

end RamlScaffold.Fields

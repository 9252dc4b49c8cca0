import RamlScaffold.Proofs.Document.Entries
import RamlScaffold.Proofs.Include.Machine
import RamlScaffold.Proofs.Spec.Independence

/-!
No mapping of a document has a key twice. Mappings are merged from their entries, so this holds of
every tree that is read from a text, at any depth; dropping tags keeps it, and so does putting the
values of directives in their places, which come from trees that were read themselves.
-/

namespace RamlScaffold

/-- A value in which no mapping has a key twice. -/
inductive Value.Keyed : Value → Prop where
  | null : Keyed .null
  | bool (b : Bool) : Keyed (.bool b)
  | number (n : Number) : Keyed (.number n)
  | text (s : String) : Keyed (.text s)
  | list {items : List Value} (hitems : ∀ item ∈ items, Keyed item) : Keyed (.list items)
  | map {fields : List (String × Value)} (hdistinct : (Fields.keys fields).Nodup)
      (hvalues : ∀ field ∈ fields, Keyed field.2) : Keyed (.map fields)

namespace Yaml

inductive Node.Keyed : Node → Prop where
  | null : Keyed .null
  | bool (b : Bool) : Keyed (.bool b)
  | number (n : Number) : Keyed (.number n)
  | text (s : String) : Keyed (.text s)
  | list {items : List Node} (hitems : ∀ item ∈ items, Keyed item) : Keyed (.list items)
  | map {fields : List (String × Node)} (hdistinct : (Fields.keys fields).Nodup)
      (hvalues : ∀ field ∈ fields, Keyed field.2) : Keyed (.map fields)
  | tagged {tag : String} {node : Node} (hnode : Keyed node) : Keyed (.tagged tag node)

/-- Merging entries leaves no key twice. -/
theorem Document.Merged.keyed {d : Document} {node : Node} (hnode : d.Merged node) :
    node.Keyed := by
  induction hnode with
  | null => exact .null
  | bool b => exact .bool b
  | number n => exact .number n
  | text s => exact .text s
  | list _ ih => exact .list ih
  | map _ _ _ _ _ hmerges _ ih =>
    refine .map hmerges.once ?_
    intro field hfield
    obtain ⟨entry, hentry, rfl⟩ := List.mem_map.mp (hmerges.mem_entries hfield)
    exact ih entry hentry
  | tagged _ ih => exact .tagged ih

theorem read_keyed [EventSource] {text : String} {node : Node} (hread : read text = .ok node) :
    node.Keyed :=
  (read_merged hread).keyed

end Yaml

namespace Include

theorem resolveItems_eq_map (expand : String → Value) (items : List Yaml.Node) :
    resolveItems expand items = items.map (resolve expand) := by
  induction items with
  | nil => rfl
  | cons item rest ih => rw [resolveItems, ih, List.map_cons]

theorem resolveFields_eq_map (expand : String → Value) (fields : List (String × Yaml.Node)) :
    resolveFields expand fields = fields.map fun field => (field.1, resolve expand field.2) := by
  induction fields with
  | nil => rfl
  | cons field rest ih => rw [resolveFields, ih, List.map_cons]

theorem keys_resolveFields (expand : String → Value) (fields : List (String × Yaml.Node)) :
    Fields.keys (resolveFields expand fields) = Fields.keys fields := by
  simp [resolveFields_eq_map, Fields.keys, Function.comp_def]

theorem resolve_keyed {expand : String → Value} (hexpand : ∀ name, (expand name).Keyed)
    {node : Yaml.Node} (hnode : node.Keyed) : (resolve expand node).Keyed := by
  induction hnode with
  | null => exact .null
  | bool b => exact .bool b
  | number n => exact .number n
  | text s => exact .text s
  | list _ ih =>
    rw [resolve, resolveItems_eq_map]
    exact .list (List.forall_mem_map.mpr ih)
  | map hdistinct _ ih =>
    rw [resolve]
    refine .map (by rwa [keys_resolveFields]) ?_
    rw [resolveFields_eq_map]
    exact List.forall_mem_map.mpr ih
  | @tagged tag node _ ih =>
    rw [resolve.eq_def]
    simp only
    split
    · split
      · exact hexpand _
      · exact .null
    · exact ih

theorem placeholder_keyed (name : String) : (placeholder name).Keyed := by
  unfold placeholder
  split
  · refine .map (by simp [Fields.keys]) ?_
    simp only [List.forall_mem_cons]
    exact ⟨.text _, .map List.nodup_nil (List.forall_mem_nil _), .text _, List.forall_mem_nil _⟩
  · exact .text _

theorem faultValue_keyed (fileName : String) (fault : Yaml.Fault) :
    (faultValue fileName fault).Keyed := by
  refine .map (by simp [Fields.keys]) ?_
  simp only [List.forall_mem_cons]
  exact ⟨.text _, .text _, List.forall_mem_nil _⟩

theorem expandWithin_keyed [Yaml.EventSource] (project : Option Project) (levels : Nat)
    (active : List Location) (name : String) : (expandWithin project levels active name).Keyed := by
  induction levels generalizing active name with
  | zero => cases project <;> exact placeholder_keyed name
  | succ levels ih =>
    rw [expandWithin_succ]
    split
    · exact placeholder_keyed name
    · split
      · exact placeholder_keyed name
      · split
        · split
          · next node hread => exact resolve_keyed (ih _) (Yaml.read_keyed hread)
          · exact faultValue_keyed _ _
        · exact .text _

theorem expandIn_keyed [Yaml.EventSource] (project : Option Project) (name : String) :
    (expandIn project name).Keyed := by
  cases project with
  | none => exact placeholder_keyed name
  | some project => exact expandWithin_keyed (some project) _ [] name

end Include

namespace Spec

theorem rootFields_keyed {node : Yaml.Node} (hnode : node.Keyed)
    {fields : List (String × Yaml.Node)} (hfields : rootFields node = .ok fields) :
    (Yaml.Node.map fields).Keyed := by
  induction hnode with
  | map hdistinct hvalues _ =>
    cases hfields
    exact .map hdistinct hvalues
  | @tagged tag node _ ih =>
    rw [rootFields] at hfields
    split at hfields
    · cases hfields
    · exact ih hfields
  | _ => cases hfields

theorem rootOf_keyed [Yaml.EventSource] {text : String} {entries : List (String × Yaml.Node)}
    (hroot : rootOf text = .ok entries) : (Yaml.Node.map entries).Keyed := by
  unfold rootOf at hroot
  split at hroot
  · cases hroot
  · split at hroot
    · cases hroot
    · next node hread =>
      cases hfields : rootFields node with
      | error kind =>
        rw [hfields] at hroot
        cases hroot
      | ok fields =>
        rw [hfields] at hroot
        cases hroot
        exact rootFields_keyed (Yaml.read_keyed hread) hfields

/-- The fields that a description is built from. -/
theorem resolvedRoot_keyed [Yaml.EventSource] {text : String}
    {entries : List (String × Yaml.Node)} (hroot : rootOf text = .ok entries)
    (project : Option Include.Project) :
    (Value.map (Include.resolveFields (Include.expandIn project) entries)).Keyed := by
  have hresolved := Include.resolve_keyed (Include.expandIn_keyed project) (rootOf_keyed hroot)
  rwa [Include.resolve] at hresolved

end Spec

end RamlScaffold

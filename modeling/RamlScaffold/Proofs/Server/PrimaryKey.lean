import RamlScaffold.Proofs.Code.Emitted
import RamlScaffold.Server.Basic

/-!
Primary keys and the keys of fields. The primary key of an entity is always called `id`: either a
field has that attribute, and only one does, or the entity gets a key of its own. The keys of the
fields stay distinct when the own key joins them, since a field with the key `id` would have seen to
it that some field has the attribute.
-/

namespace RamlScaffold

namespace Field

theorem keys_ofDeclarations (seen : List String) (declarations : List Declaration) :
    (ofDeclarations seen declarations).map (·.key) = declarations.map (·.key) := by
  induction declarations generalizing seen with
  | nil => rfl
  | cons d rest ih => simp only [ofDeclarations, List.map_cons, ih]

structure Declares (d : Declaration) (f : Field) : Prop where
  key : f.key = d.key
  column : f.column = Column.ofType d.typeName
  required : f.required = d.required
  default : f.default = none

theorem declares_field (d : Declaration) (attr : String) :
    Declares d ⟨d.key, attr, Column.ofType d.typeName, d.required, none⟩ := by
  constructor <;> dsimp only

theorem ofDeclarations_forall₂ (seen : List String) (declarations : List Declaration) :
    List.Forall₂ Declares declarations (ofDeclarations seen declarations) := by
  induction declarations generalizing seen with
  | nil => exact .nil
  | cons d rest ih => exact .cons (declares_field d _) (ih _)

theorem mem_ofDeclarations {seen : List String} {declarations : List Declaration} {f : Field}
    (hf : f ∈ ofDeclarations seen declarations) : ∃ d ∈ declarations, Declares d f := by
  induction declarations generalizing seen with
  | nil => cases hf
  | cons d rest ih =>
    rcases List.mem_cons.mp hf with rfl | hf
    · exact ⟨d, List.mem_cons_self, declares_field d _⟩
    · obtain ⟨e, he, hdeclares⟩ := ih hf
      exact ⟨e, List.mem_cons_of_mem d he, hdeclares⟩

theorem distinct_nodup (seen keys : List String) :
    (distinct seen keys).Nodup ∧ ∀ key ∈ distinct seen keys, key ∉ seen := by
  induction keys generalizing seen with
  | nil => simp [distinct]
  | cons first rest ih =>
    rw [distinct]
    split
    · exact ih seen
    · next hnew =>
      obtain ⟨hrest, hlater⟩ := ih (first :: seen)
      constructor
      · exact List.nodup_cons.mpr ⟨fun hagain => hlater first hagain List.mem_cons_self, hrest⟩
      · intro key hkey hseen
        rcases List.mem_cons.mp hkey with rfl | hkey
        · exact hnew (by simpa using hseen)
        · exact hlater key hkey (List.mem_cons_of_mem first hseen)

/-- The keys of a group's fields are distinct when those of each declared type are. -/
theorem keys_infer_nodup {spec : Specification}
    (hkeys : ∀ t ∈ spec.types, (Fields.keys t.properties).Nodup) (groupName : String)
    (resources : List Resource) : ((infer spec groupName resources).1.map (·.key)).Nodup := by
  unfold infer
  split
  · next type htype =>
    split
    · decide
    · have hmem : type ∈ spec.types := List.mem_of_find?_eq_some htype
      rw [ofProperties, keys_ofDeclarations, List.map_map]
      exact hkeys type hmem
  · split
    · decide
    · rw [keys_ofDeclarations, List.map_map]
      have hown : ((fun f : Declaration => f.key) ∘ fun key => ⟨key, "string", false⟩) = id := rfl
      rw [hown, List.map_id]
      exact (distinct_nodup [] _).1

/-- A field with the key `id` sees to it that some field has the attribute. -/
theorem id_mem_attrs {spec : Specification} {groupName : String} {resources : List Resource}
    (hkey : "id" ∈ (infer spec groupName resources).1.map (·.key)) :
    "id" ∈ (infer spec groupName resources).1.map (·.attr) := by
  rcases infer_cases spec groupName resources with hdefaults | ⟨declarations, hdeclared⟩
  · rw [hdefaults]
    decide
  · rw [hdeclared, keys_ofDeclarations, List.mem_map] at hkey
    obtain ⟨d, hd, hid⟩ := hkey
    have hbase : "id" ∈ declarations.map fun d => attrOf d.key :=
      List.mem_map.mpr ⟨d, hd, by rw [hid]; decide⟩
    rw [hdeclared, attrs_ofDeclarations]
    exact (Naming.mem_freshAll hbase).resolve_left List.not_mem_nil

end Field

namespace Server

/-- The keys of an entity: those of its fields, with that of its own column first. -/
def entityKeys (g : Group) : List String :=
  (if needsKey g then ["id"] else []) ++ g.fields.map (·.key)

variable {spec : Specification} {version : String} {g : Group}

theorem fields_of_mem (hg : g ∈ Group.ofSpecification spec version) :
    ∃ groupName resources, g.fields = (Field.infer spec groupName resources).1 := by
  obtain ⟨⟨name, resources⟩, -, rfl⟩ := List.mem_map.mp hg
  exact ⟨name.raw, resources, rfl⟩

theorem needsKey_iff : needsKey g = true ↔ "id" ∉ g.fields.map (·.attr) := by
  simp [needsKey, Field.primaryKey]

/-- Attributes are distinct, so no two of them are `id`. -/
theorem countP_primaryKey (hg : g ∈ Group.ofSpecification spec version) :
    (needsKey g = true ∧ g.fields.countP (·.primaryKey) = 0) ∨
      (needsKey g = false ∧ g.fields.countP (·.primaryKey) = 1) := by
  have hcount : g.fields.countP (·.primaryKey) = (g.fields.map (·.attr)).count "id" := by
    rw [List.count, List.countP_map]
    rfl
  have hdistinct := (Group.wellNamed_of_mem hg).attrs.distinct
  rw [hcount]
  by_cases hid : "id" ∈ g.fields.map (·.attr)
  · refine Or.inr ⟨?_, List.count_eq_one_of_mem hdistinct hid⟩
    rw [← Bool.not_eq_true, needsKey_iff, not_not]
    exact hid
  · exact Or.inl ⟨needsKey_iff.mpr hid, List.count_eq_zero.mpr hid⟩

theorem nodup_entityKeys (hg : g ∈ Group.ofSpecification spec version)
    (hkeys : ∀ t ∈ spec.types, (Fields.keys t.properties).Nodup) : (entityKeys g).Nodup := by
  obtain ⟨groupName, resources, hfields⟩ := fields_of_mem hg
  have hdistinct : (g.fields.map (·.key)).Nodup := by
    rw [hfields]
    exact Field.keys_infer_nodup hkeys groupName resources
  unfold entityKeys
  split
  · next hneeds =>
    refine List.nodup_cons.mpr ⟨fun hkey => ?_, hdistinct⟩
    apply needsKey_iff.mp hneeds
    rw [hfields] at hkey ⊢
    exact Field.id_mem_attrs hkey
  · exact hdistinct

end Server

end RamlScaffold

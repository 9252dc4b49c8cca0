import RamlScaffold.Proofs.Entity.Observed

/-!
Where the fields of a group come from. The first type with the name of the group decides alone, even
when it has no properties. Without such a type the properties in the bodies of the group count, in
the order in which they are first seen. When neither gives a property the defaults are used.
-/

namespace RamlScaffold

def TypeDef.IsFirst (types : List TypeDef) (name : String) (type : TypeDef) : Prop :=
  ∃ before after, types = before ++ type :: after ∧ type.name = name ∧
    ∀ earlier ∈ before, earlier.name ≠ name

theorem Specification.typeDef?_eq_some {spec : Specification} {name : String} {type : TypeDef} :
    spec.typeDef? name = some type ↔ TypeDef.IsFirst spec.types name type := by
  simp only [typeDef?, TypeDef.IsFirst, List.find?_eq_some_iff_append, beq_iff_eq,
    Bool.not_eq_true', beq_eq_false_iff_ne]
  constructor
  · rintro ⟨hname, before, after, htypes, hearlier⟩
    exact ⟨before, after, htypes, hname, hearlier⟩
  · rintro ⟨before, after, htypes, hname, hearlier⟩
    exact ⟨hname, before, after, htypes, hearlier⟩

theorem Specification.typeDef?_eq_none {spec : Specification} {name : String} :
    spec.typeDef? name = none ↔ ∀ type ∈ spec.types, type.name ≠ name := by
  simp [typeDef?, List.find?_eq_none]

namespace Field

/-- A field that stores a declared property. -/
structure Stores (required : List String) (f : Field) (property : String × Value) : Prop where
  key : f.key = property.1
  column : f.column = Column.ofType (propertyType property.2)
  required_iff : f.required = true ↔ property.1 ∈ required
  default : f.default = none

/-- The fields of a group with a raw name and resources, by where its properties are declared. -/
structure Inferred (spec : Specification) (raw : String) (resources : List Resource)
    (fields : List Field) (origin : Origin) : Prop where
  declared : ∀ type, TypeDef.IsFirst spec.types raw type → type.properties ≠ [] →
    origin = .declared ∧ List.Forall₂ (Stores type.required) fields type.properties
  bare : ∀ type, TypeDef.IsFirst spec.types raw type → type.properties = [] →
    origin = .default ∧ fields = defaults
  observed : (∀ type ∈ spec.types, type.name ≠ raw) →
    (∃ site name, Site.name? resources site = some name) →
    origin = .observed ∧ Site.FirstSeen resources (fields.map (·.key)) ∧
      ∀ f ∈ fields, f.column = .string ∧ f.required = false ∧ f.default = none
  unknown : (∀ type ∈ spec.types, type.name ≠ raw) →
    (∀ site, Site.name? resources site = none) → origin = .default ∧ fields = defaults
  nonempty : fields ≠ []

theorem ofProperties_forall₂ (properties : Fields Value) (required : List String) :
    List.Forall₂ (Stores required) (ofProperties properties required) properties := by
  have hfields := ofDeclarations_forall₂ [] (properties.map fun p =>
    ⟨p.1, propertyType p.2, required.contains p.1⟩)
  rw [List.forall₂_map_left_iff] at hfields
  refine hfields.flip.imp ?_
  rintro f property ⟨hkey, hcolumn, hrequired, hdefault⟩
  exact ⟨hkey, hcolumn, by rw [hrequired, List.contains_iff_mem], hdefault⟩

def ofKeys (keys : List String) : List Field :=
  ofDeclarations [] (keys.map fun key => ⟨key, "string", false⟩)

theorem keys_ofKeys (keys : List String) : (ofKeys keys).map (·.key) = keys := by
  rw [ofKeys, keys_ofDeclarations, List.map_map]
  exact List.map_id keys

theorem string_of_mem_ofKeys {keys : List String} {f : Field} (hf : f ∈ ofKeys keys) :
    f.column = .string ∧ f.required = false ∧ f.default = none := by
  obtain ⟨d, hd, hdeclares⟩ := mem_ofDeclarations hf
  obtain ⟨key, -, rfl⟩ := List.mem_map.mp hd
  have hstring : Column.ofType "string" = .string := by decide
  exact ⟨hdeclares.column.trans hstring, hdeclares.required, hdeclares.default⟩

variable {spec : Specification} {raw : String} {resources : List Resource}

theorem infer_of_type {type : TypeDef} (htype : TypeDef.IsFirst spec.types raw type) :
    infer spec raw resources = if type.properties = [] then (defaults, .default)
      else (ofProperties type.properties type.required, .declared) := by
  rw [infer, Specification.typeDef?_eq_some.mpr htype]
  simp only [List.isEmpty_iff]

theorem infer_of_bodies (htypes : ∀ type ∈ spec.types, type.name ≠ raw) :
    infer spec raw resources = if observedKeys resources = [] then (defaults, .default)
      else (ofKeys (observedKeys resources), .observed) := by
  rw [infer, Specification.typeDef?_eq_none.mpr htypes]
  cases observedKeys resources with
  | nil => rfl
  | cons key rest => rfl

theorem observedKeys_eq_nil (hmaps : ∀ r ∈ resources, ∀ m ∈ r.methods, m.MapsInOrder) :
    observedKeys resources = [] ↔ ∀ site, Site.name? resources site = none := by
  have hcomplete := (firstSeen_observedKeys hmaps).complete
  rw [List.eq_nil_iff_forall_not_mem]
  constructor
  · intro hnone site
    by_contra hsome
    obtain ⟨name, hname⟩ := Option.ne_none_iff_exists'.mp hsome
    exact hnone name ((hcomplete name).mpr ⟨site, hname⟩)
  · intro hnone name hmem
    obtain ⟨site, hname⟩ := (hcomplete name).mp hmem
    rw [hnone site] at hname
    cases hname

theorem infer_ne_nil (spec : Specification) (raw : String) (resources : List Resource) :
    (infer spec raw resources).1 ≠ [] := by
  have hlength {seen : List String} {declarations : List Declaration} (hne : declarations ≠ []) :
      ofDeclarations seen declarations ≠ [] := by
    intro hnil
    have hkeys := keys_ofDeclarations seen declarations
    rw [hnil] at hkeys
    exact hne (List.map_eq_nil_iff.mp hkeys.symm)
  unfold infer
  split
  · split
    · exact List.cons_ne_nil _ _
    · next hproperties =>
      apply hlength
      simpa using hproperties
  · split
    · exact List.cons_ne_nil _ _
    · next hkeys =>
      apply hlength
      simpa using hkeys

theorem inferred_infer (spec : Specification) (raw : String)
    (hmaps : ∀ r ∈ resources, ∀ m ∈ r.methods, m.MapsInOrder) :
    Inferred spec raw resources (infer spec raw resources).1 (infer spec raw resources).2 where
  declared type htype hproperties := by
    rw [infer_of_type htype, if_neg hproperties]
    exact ⟨rfl, ofProperties_forall₂ _ _⟩
  bare type htype hproperties := by
    rw [infer_of_type htype, if_pos hproperties]
    exact ⟨rfl, rfl⟩
  observed htypes hsite := by
    have hkeys : observedKeys resources ≠ [] := by
      obtain ⟨site, name, hname⟩ := hsite
      intro hnil
      rw [(observedKeys_eq_nil hmaps).mp hnil site] at hname
      cases hname
    rw [infer_of_bodies htypes, if_neg hkeys]
    refine ⟨rfl, ?_, fun f hf => string_of_mem_ofKeys hf⟩
    rw [keys_ofKeys]
    exact firstSeen_observedKeys hmaps
  unknown htypes hsites := by
    rw [infer_of_bodies htypes, if_pos ((observedKeys_eq_nil hmaps).mpr hsites)]
    exact ⟨rfl, rfl⟩
  nonempty := infer_ne_nil spec raw resources

end Field

namespace Spec

theorem inOrder_bodiesOf (mediaType : String) (value : Value) :
    Fields.InOrder (bodiesOf mediaType value) := by
  unfold bodiesOf
  split
  · split
    · exact List.pairwise_singleton _ _
    · exact Fields.inOrder_sorted _
  · exact List.pairwise_singleton _ _
  · exact List.Pairwise.nil

theorem inOrder_body (mediaType : String) (value : Option Value) :
    Fields.InOrder ((value.map (bodiesOf mediaType)).getD []) := by
  cases value with
  | none => exact List.Pairwise.nil
  | some value => exact inOrder_bodiesOf mediaType value

theorem inOrder_responsesOf (mediaType : String) (fields : Fields Value) :
    Fields.InOrder (responsesOf mediaType fields) ∧
      ∀ entry ∈ responsesOf mediaType fields, Fields.InOrder entry.2.body := by
  refine ⟨Fields.inOrder_sorted _, fun entry hentry => ?_⟩
  have hmem := Fields.mem_of_mem_sorted hentry
  obtain ⟨⟨status, value⟩, -, rfl⟩ := List.mem_map.mp hmem
  dsimp only
  split
  · exact inOrder_body mediaType _
  · exact List.Pairwise.nil

theorem mapsInOrder_methodOf (mediaType : String) (verb : Verb) (value : Value) :
    (methodOf mediaType verb value).MapsInOrder := by
  unfold methodOf
  split
  · next data =>
    cases hresponses : (Fields.get? "responses" data).bind Value.fields? with
    | none => exact ⟨inOrder_body mediaType _, List.Pairwise.nil, fun _ h => nomatch h⟩
    | some fields =>
      obtain ⟨hstatus, hbodies⟩ := inOrder_responsesOf mediaType fields
      exact ⟨inOrder_body mediaType _, hstatus, hbodies⟩
  · exact ⟨List.Pairwise.nil, List.Pairwise.nil, fun _ h => nomatch h⟩

theorem mapsInOrder_resourceOf (mediaType uri key : String) (fields : Fields Value) :
    ∀ m ∈ (resourceOf mediaType uri key fields).methods, m.MapsInOrder := by
  intro m hm
  obtain ⟨entry, -, hfound⟩ := List.mem_filterMap.mp hm
  obtain ⟨verb, -, rfl⟩ := Option.map_eq_some_iff.mp hfound
  exact mapsInOrder_methodOf mediaType verb entry.2

mutual

theorem mapsInOrder_resourcesIn (mediaType parent : String) (value : Value) :
    ∀ r ∈ resourcesIn mediaType parent value, ∀ m ∈ r.methods, m.MapsInOrder := by
  cases value with
  | map fields => exact mapsInOrder_resourcesOf mediaType parent fields
  | _ => exact fun r hr => nomatch hr
termination_by structural value

theorem mapsInOrder_resourcesOf (mediaType parent : String) (fields : List (String × Value)) :
    ∀ r ∈ resourcesOf mediaType parent fields, ∀ m ∈ r.methods, m.MapsInOrder := by
  match fields with
  | [] => exact fun r hr => nomatch hr
  | (key, value) :: rest =>
    intro r hr
    rw [resourcesOf] at hr
    rcases List.mem_append.mp hr with hr | hr
    · split at hr
      · rcases List.mem_cons.mp hr with rfl | hr
        · exact mapsInOrder_resourceOf mediaType _ key _
        · exact mapsInOrder_resourcesIn mediaType _ value r hr
      · cases hr
    · exact mapsInOrder_resourcesOf mediaType parent rest r hr
termination_by structural fields

end

theorem mapsInOrder_ofFields (root : Fields Value) :
    ∀ r ∈ (ofFields root).resources, ∀ m ∈ r.methods, m.MapsInOrder :=
  mapsInOrder_resourcesOf _ "" root

end Spec

namespace Group

theorem mem_of_mem_clusters {resources : List Resource} {cluster : Cluster}
    (hcluster : cluster ∈ clusters resources) {r : Resource} (hr : r ∈ cluster.2) :
    r ∈ resources := by
  have hclasses : (clusters resources).map Prod.snd = classes lookOf resources := by
    rw [← List.forall₂_eq_eq_eq, List.forall₂_map_left_iff]
    exact (clusters_classes resources).imp fun _ _ hboth => hboth.1
  have hmember : cluster.2 ∈ classes lookOf resources := by
    rw [← hclasses]
    exact List.mem_map_of_mem hcluster
  exact (sublist_of_mem_classes hmember).subset hr

/-- Every group has the fields that its name and its resources call for. -/
theorem fields_follow_precedence (spec : Specification) (version : String)
    (hmaps : ∀ r ∈ spec.resources, ∀ m ∈ r.methods, m.MapsInOrder) :
    List.Forall₂ (fun cluster g => g.name = cluster.1 ∧
      Field.Inferred spec cluster.1.raw cluster.2 g.fields g.origin)
      (clusters spec.resources) (ofSpecification spec version) := by
  rw [ofSpecification, List.forall₂_map_right_iff, List.forall₂_same]
  rintro ⟨name, resources⟩ hcluster
  refine ⟨rfl, Field.inferred_infer spec name.raw fun r hr => ?_⟩
  exact hmaps r (mem_of_mem_clusters hcluster hr)

/-- A document whose type has the properties of one group and whose bodies have those of another. -/
def orderDocument : Fields Value :=
  let body (names : List String) : Value :=
    .map [("properties", .map (names.map fun name => (name, .text "integer")))]
  [("types", .map [("users", .map [("properties", .map [("email", .text "string")])])]),
    ("/users", .map [("post", .map [("body", body ["age"])])]),
    ("/orders", .map [
      ("put", .map [
        ("responses", .map [("404", .map [("body", body ["reason"])]),
          ("200", .map [("body", body ["total", "state"])])]),
        ("body", .map [("text/xml", body ["state", "note"]),
          ("application/json", body ["price"])])])])]

theorem fields_follow_precedence_orders :
    let spec := Spec.ofFields orderDocument
    (∀ r ∈ spec.resources, ∀ m ∈ r.methods, m.MapsInOrder) ∧
      List.Forall₂ (fun cluster g => g.name = cluster.1 ∧
        Field.Inferred spec cluster.1.raw cluster.2 g.fields g.origin)
        (clusters spec.resources) (ofSpecification spec "v1") ∧
      (ofSpecification spec "v1").map (fun g => (g.origin, g.fields.map (·.key))) =
        [(.declared, ["email"]),
          (.observed, ["price", "state", "note", "total", "reason"])] :=
  ⟨Spec.mapsInOrder_ofFields _, fields_follow_precedence _ _ (Spec.mapsInOrder_ofFields _),
    by decide⟩

end Group

end RamlScaffold

import RamlScaffold.Proofs.Document.Keyed

/-!
Keys that are written more than once. In the tree of a text each mapping has such a key once, where
it is written first and with the value that is written last; keys are compared by their text, so a
number and its digits are one key. The values of directives are put in under the same keys, and so
no mapping of the document that a description is built from has a key twice. In particular the
declared types have different names, and each is found by its own.
-/

namespace RamlScaffold

namespace Fields

variable {α : Type}

theorem put_of_notMem {key : String} {fields : Fields α} (hnew : key ∉ keys fields) (value : α) :
    put key value fields = fields ++ [(key, value)] := by
  fun_induction put key value fields with
  | case1 => rfl
  | case2 k v rest hsame =>
    rw [beq_iff_eq] at hsame
    exact absurd (by simp [keys, hsame]) hnew
  | case3 k v rest hother ih =>
    rw [ih (List.not_mem_of_not_mem_cons hnew), List.cons_append]

/-- Entries with different keys are set one after the other. -/
theorem ofEntries_eq_self {entries : Fields α} (hdistinct : (keys entries).Nodup) :
    ofEntries entries = entries := by
  induction entries using List.reverseRecOn with
  | nil => rfl
  | append_singleton entries entry ih =>
    rw [keys_append, List.nodup_append_comm] at hdistinct
    obtain ⟨hnew, hrest⟩ := List.nodup_cons.mp hdistinct
    rw [ofEntries_append_singleton, ih hrest, put_of_notMem hnew]

end Fields

theorem Include.ofEntries_resolveFields (expand : String → Value)
    {fields : List (String × Yaml.Node)} (hdistinct : (Fields.keys fields).Nodup) :
    Fields.ofEntries (fields.map fun field => (field.1, resolve expand field.2)) =
      resolveFields expand fields := by
  rw [← resolveFields_eq_map]
  exact Fields.ofEntries_eq_self (by rwa [keys_resolveFields])

/-- A declared type is the one that is found by its name, if no other type has it. -/
theorem Specification.typeDef?_of_mem {spec : Specification}
    (hdistinct : (spec.types.map (·.name)).Nodup) {t : TypeDef} (ht : t ∈ spec.types) :
    spec.typeDef? t.name = some t := by
  obtain ⟨before, after, hsplit⟩ := List.append_of_mem ht
  rw [typeDef?, List.find?_eq_some_iff_append]
  refine ⟨beq_self_eq_true t.name, before, after, hsplit, ?_⟩
  intro other hother
  rw [hsplit, List.map_append, List.nodup_append] at hdistinct
  have hne := hdistinct.2.2 other.name (List.mem_map_of_mem hother) t.name (by simp)
  simpa using hne

namespace Spec

theorem name_typeOf (name : String) (value : Value) : (typeOf name value).name = name := by
  unfold typeOf
  split
  · rfl
  · split
    · split <;> rfl
    · rfl
  · rfl

theorem nodup_names_typesOf {declared : Value} (hkeyed : declared.Keyed) :
    ((typesOf declared).map (·.name)).Nodup := by
  cases hkeyed with
  | @map fields hdistinct _ =>
    have hnames : (typesOf (.map fields)).map (·.name) = Fields.keys fields := by
      simp [typesOf, Fields.keys, name_typeOf]
    rwa [hnames]
  | _ => exact List.nodup_nil

/-- The names of the declared types are the keys of a mapping of the document. -/
theorem nodup_names_types {root : Fields Value} (hroot : (Value.map root).Keyed) :
    ((ofFields root).types.map (·.name)).Nodup := by
  have hfound {key : String} {value : Value} (hget : Fields.get? key root = some value) :
      value.Keyed := by
    cases hroot with
    | map _ hvalues => exact hvalues _ (Fields.mem_of_get? hget)
  simp only [ofFields]
  cases hsection : (present (Fields.get? "types" root)).or (Fields.get? "schemas" root) with
  | none => exact List.nodup_nil
  | some value =>
    apply nodup_names_typesOf
    rcases Option.or_eq_some_iff.mp hsection with htypes | ⟨-, hschemas⟩
    · exact hfound (Option.filter_eq_some_iff.mp htypes).1
    · exact hfound hschemas

/-- A description is built from fields in which no mapping has a key twice. -/
theorem keyed_of_parse [Yaml.EventSource] {text : String} {project : Option Include.Project}
    {spec : Specification} (hparse : parse text project = .ok spec) :
    ∃ entries, rootOf text = .ok entries ∧
      let root := Include.resolveFields (Include.expandIn project) entries
      (Value.map root).Keyed ∧ spec = ofFields root := by
  rw [parse_eq_map] at hparse
  cases hroot : rootOf text with
  | error fault =>
    rw [hroot] at hparse
    cases hparse
  | ok entries =>
    rw [hroot] at hparse
    cases hparse
    exact ⟨entries, rfl, resolvedRoot_keyed hroot project, rfl⟩

/-- A key that is written more than once stands where it is written first and has the value that is
written last, in every mapping of every tree that is read: a mapping is read exactly if its entries
are, and it has the texts of their keys in this way, whatever kind of node a key is. Directives
change neither keys nor their order, so no mapping of the document of a description has a key twice,
at any depth. Its declared types have different names, and each is found by its own. -/
theorem repeated_keys_merged [Yaml.EventSource] :
    (∀ (d : Yaml.Document) (depth : Nat) (covering : Bool) (path : Yaml.NodePath)
        (p q : Yaml.Document.Position) (fields : Fields Yaml.Node),
      d.fields (d.node depth covering) (d.node depth false) path (d.events.size + 1) p [] =
          .ok (fields, q) ↔
        ∃ entries, d.Entries (d.node depth covering) (d.node depth false) path p entries q ∧
          fields = .ofEntries (entries.map Yaml.withKeyText)) ∧
    (∀ entries : List (String × Yaml.Node), Fields.Merges entries (.ofEntries entries)) ∧
    (∀ text node, Yaml.read text = .ok node → (Yaml.EventSource.document text).Merged node) ∧
    (∀ (expand : String → Value) (fields : Fields Yaml.Node), (Fields.keys fields).Nodup →
      Fields.keys (Include.resolveFields expand fields) = Fields.keys fields ∧
        Fields.ofEntries (fields.map fun field => (field.1, Include.resolve expand field.2)) =
          Include.resolveFields expand fields) ∧
    ∀ text project spec, parse text project = .ok spec →
      (∃ entries, rootOf text = .ok entries ∧
        let root := Include.resolveFields (Include.expandIn project) entries
        (Value.map root).Keyed ∧ spec = ofFields root) ∧
      (spec.types.map (·.name)).Nodup ∧ ∀ t ∈ spec.types, spec.typeDef? t.name = some t := by
  refine ⟨?_, Fields.merges_ofEntries, fun _ _ => Yaml.read_merged, ?_, ?_⟩
  · intro d depth covering path p q fields
    exact Yaml.Document.fields_node_eq_ok_iff
  · intro expand fields hdistinct
    exact ⟨Include.keys_resolveFields expand fields,
      Include.ofEntries_resolveFields expand hdistinct⟩
  · intro text project spec hparse
    have hbuilt := keyed_of_parse hparse
    obtain ⟨entries, -, hkeyed, rfl⟩ := keyed_of_parse hparse
    have hdistinct := nodup_names_types hkeyed
    exact ⟨hbuilt, hdistinct, fun t => Specification.typeDef?_of_mem hdistinct⟩

/-- A number and its digits in quotes, a list, null, and a tagged text that spells null. -/
theorem repeated_keys_merged_kinds :
    let text := "types:\n  200: integer\n  ? [a, 1]\n  : number\n  '200': string\n  ~: boolean\n" ++
      "  !kind 'null': array\n"
    ∃ spec, parse text none = .ok spec ∧
      spec.types.map (fun t => (t.name, t.kind)) =
        [("200", "string"), ("[\"a\",1]", "number"), ("null", "array")] ∧
      ∀ t ∈ spec.types, spec.typeDef? t.name = some t := by
  intro text
  have htypes : ((parse text none).toOption.map fun spec =>
      spec.types.map fun t => (t.name, t.kind)) =
      some [("200", "string"), ("[\"a\",1]", "number"), ("null", "array")] := by decide +kernel
  cases hparse : parse text none with
  | error fault =>
    rw [hparse] at htypes
    cases htypes
  | ok spec =>
    rw [hparse] at htypes
    exact ⟨spec, rfl, Option.some.inj htypes,
      (repeated_keys_merged.2.2.2.2 text none spec hparse).2.2⟩

end Spec

end RamlScaffold

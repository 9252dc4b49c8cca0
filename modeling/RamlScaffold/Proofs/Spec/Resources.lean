import Mathlib.Data.List.Forall2
import Mathlib.Data.List.TakeWhile
import RamlScaffold.Proofs.Document.Keyed
import RamlScaffold.Proofs.Document.Order

/-!
The resources of a description and the places where they are written. A resource stands under a path
of keys that all begin with a slash, and the resources are listed as a walk of the document meets
those paths: first a path, then everything below it, then the next key in document order.

Paths are compared without reference to the walk (`Precedes`). That no mapping has a key twice makes
this a strict order, which is why every path is met once and nothing comes between a path and what
lies below it.
-/

namespace RamlScaffold

namespace Value

def at? : List String → Value → Option Value
  | [], value => some value
  | key :: rest, value => ((value.fields?.bind (Fields.get? key)).bind (at? rest))

@[simp] theorem at?_nil (value : Value) : value.at? [] = some value := rfl

theorem at?_map (key : String) (rest : List String) (fields : Fields Value) :
    at? (key :: rest) (.map fields) = (Fields.get? key fields).bind (at? rest) := rfl

theorem at?_map_of_get? {key : String} {fields : Fields Value} {value : Value}
    (hget : Fields.get? key fields = some value) (rest : List String) :
    at? (key :: rest) (.map fields) = value.at? rest := by
  rw [at?_map, hget, Option.bind_some]

theorem Keyed.at? {path : List String} {root value : Value} (hroot : root.Keyed)
    (hfound : root.at? path = some value) : value.Keyed := by
  induction path generalizing root with
  | nil =>
    cases hfound
    exact hroot
  | cons key rest ih =>
    obtain ⟨inner, hinner, hrest⟩ := Option.bind_eq_some_iff.mp hfound
    obtain ⟨fields, hfields, hget⟩ := Option.bind_eq_some_iff.mp hinner
    cases hroot with
    | map hdistinct hvalues =>
      cases hfields
      exact ih (hvalues _ (Fields.mem_of_get? hget)) hrest
    | _ => cases hfields

end Value

namespace Verb

def isNamed (key : String) : Bool := all.any fun verb => verb.lower == Text.lowerAscii key

theorem lowerAscii_upper (verb : Verb) : Text.lowerAscii verb.upper = verb.lower := by
  cases verb <;> rfl

theorem parse?_eq_find? (key : String) :
    parse? key = all.find? fun verb => verb.lower == Text.lowerAscii key := by
  simp only [parse?, Text.sameIgnoringCase, lowerAscii_upper]

theorem lower_of_parse? {key : String} {verb : Verb} (hverb : parse? key = some verb) :
    verb.lower = Text.lowerAscii key := by
  rw [parse?_eq_find?] at hverb
  have hsame := List.find?_some hverb
  exact beq_iff_eq.mp hsame

theorem isSome_parse? (key : String) : (parse? key).isSome = isNamed key := by
  rw [parse?_eq_find?, isNamed, List.isSome_find?]

end Verb

namespace Spec

/-- The path of a resource: at least one key, each of which begins with a slash and is a key of the
mapping under the keys before it. -/
structure IsResourcePath (root : Value) (path : List String) : Prop where
  nonempty : path ≠ []
  slashed : ∀ key ∈ path, key.toList.head? = some '/'
  found : (root.at? path).isSome = true

/-- The entries of the mapping under a path; none if there is no mapping. -/
def entriesAt (root : Value) (path : List String) : Fields Value := fieldsOr (root.at? path)

/-- A path stands before what lies below it, and what lies under a key before what lies under a
later key of the same mapping. -/
inductive Precedes (root : Value) : List String → List String → Prop where
  | below (path : List String) {rest : List String} (hrest : rest ≠ []) :
      Precedes root path (path ++ rest)
  | beside (common : List String) {key key' : String} (rest rest' : List String)
      (hkeys : [key, key'].Sublist (Fields.keys (entriesAt root common))) :
      Precedes root (common ++ key :: rest) (common ++ key' :: rest')

/-- Every resource path once, in order, with what lies below a path right behind it. -/
structure IsWalk (root : Value) (paths : List (List String)) : Prop where
  complete : ∀ path, path ∈ paths ↔ IsResourcePath root path
  once : paths.Nodup
  ordered : paths.Pairwise (Precedes root)
  together : ∀ before path after, paths = before ++ path :: after →
    ∃ inside rest, after = inside ++ rest ∧ (∀ p ∈ inside, path <+: p) ∧
      ∀ p ∈ rest, ¬ path <+: p

variable {root : Value}

theorem entriesAt_map_of_get? {key : String} {fields : Fields Value} {value : Value}
    (hget : Fields.get? key fields = some value) (path : List String) :
    entriesAt (.map fields) (key :: path) = entriesAt value path := by
  rw [entriesAt, entriesAt, Value.at?_map_of_get? hget]

theorem nodup_keys_entriesAt (hroot : root.Keyed) (path : List String) :
    (Fields.keys (entriesAt root path)).Nodup := by
  cases hfound : root.at? path with
  | none => simp [entriesAt, fieldsOr, hfound, Fields.keys]
  | some value =>
    cases hroot.at? hfound with
    | map hdistinct _ => simpa [entriesAt, fieldsOr, hfound, Value.fields?] using hdistinct
    | _ => simp [entriesAt, fieldsOr, hfound, Fields.keys, Value.fields?]

/-- In a list without repetition no two entries, and no entry twice, stand in both orders. -/
theorem not_sublist_swap {α : Type} {l : List α} (hdistinct : l.Nodup) {a b : α}
    (hsub : [a, b].Sublist l) : ¬ [b, a].Sublist l := by
  induction l with
  | nil => cases hsub
  | cons x l ih =>
    obtain ⟨hnew, hrest⟩ := List.nodup_cons.mp hdistinct
    intro hswap
    cases hsub with
    | cons _ hsub =>
      cases hswap with
      | cons _ hswap => exact ih hrest hsub hswap
      | cons_cons _ _ => exact hnew (hsub.subset (by simp))
    | cons_cons _ _ =>
      cases hswap with
      | cons _ hswap => exact hnew (hswap.subset (by simp))
      | cons_cons _ hswap => exact hnew (hswap.subset (by simp))

theorem Precedes.under {key : String} {fields : Fields Value} {value : Value}
    (hget : Fields.get? key fields = some value) {p q : List String} (h : Precedes value p q) :
    Precedes (.map fields) (key :: p) (key :: q) := by
  cases h with
  | below path hrest => exact .below (key :: p) hrest
  | beside common rest rest' hkeys =>
    rw [← entriesAt_map_of_get? hget] at hkeys
    exact .beside (key :: common) rest rest' hkeys

theorem ne_of_beside (hroot : root.Keyed) {common : List String} {key key' : String}
    (hkeys : [key, key'].Sublist (Fields.keys (entriesAt root common))) : key ≠ key' := by
  rintro rfl
  exact not_sublist_swap (nodup_keys_entriesAt hroot common) hkeys hkeys

theorem Precedes.ne (hroot : root.Keyed) {p q : List String} (h : Precedes root p q) : p ≠ q := by
  cases h with
  | below path hrest => simpa using hrest
  | beside common rest rest' hkeys =>
    intro hsame
    exact ne_of_beside hroot hkeys (List.cons.inj (List.append_cancel_left hsame)).1

/-- Two paths part at one place only. -/
theorem parting_unique {c c' : List String} {a b a' b' : String} {r s r' s' : List String}
    (hne : a ≠ b) (hne' : a' ≠ b') (hleft : c ++ a :: r = c' ++ a' :: r')
    (hright : c ++ b :: s = c' ++ b' :: s') : c = c' ∧ a = a' ∧ b = b' := by
  induction c generalizing c' with
  | nil =>
    cases c' with
    | nil =>
      obtain ⟨rfl, -⟩ := List.cons.inj hleft
      obtain ⟨rfl, -⟩ := List.cons.inj hright
      exact ⟨rfl, rfl, rfl⟩
    | cons k c' =>
      obtain ⟨rfl, -⟩ := List.cons.inj hleft
      obtain ⟨rfl, -⟩ := List.cons.inj hright
      exact absurd rfl hne
  | cons k c ih =>
    cases c' with
    | nil =>
      obtain ⟨rfl, -⟩ := List.cons.inj hleft
      obtain ⟨rfl, -⟩ := List.cons.inj hright
      exact absurd rfl hne'
    | cons k' c' =>
      obtain ⟨rfl, hleft'⟩ := List.cons.inj hleft
      obtain ⟨-, hright'⟩ := List.cons.inj hright
      obtain ⟨rfl, hab⟩ := ih hleft' hright'
      exact ⟨rfl, hab⟩

/-- Once a walk has left a path, it does not come back below it. -/
theorem Precedes.not_below (hroot : root.Keyed) {path q p : List String}
    (hleft : Precedes root path q) (hout : ¬ path <+: q) (hright : Precedes root q p) :
    ¬ path <+: p := by
  rintro ⟨more, hmore⟩
  cases hleft with
  | below _ _ => exact hout (List.prefix_append _ _)
  | beside common rest rest' hkeys =>
    rw [List.append_assoc, List.cons_append] at hmore
    generalize hq : common ++ _ :: rest' = q at hright
    cases hright with
    | below _ _ =>
      rw [← hq, List.append_assoc, List.cons_append] at hmore
      exact ne_of_beside hroot hkeys (List.cons.inj (List.append_cancel_left hmore)).1
    | beside common' _ _ hkeys' =>
      -- `q` parts from `path` and from what lies below it at the same keys, in opposite orders.
      obtain ⟨rfl, rfl, rfl⟩ := parting_unique (ne_of_beside hroot hkeys).symm
        (ne_of_beside hroot hkeys') hq hmore
      exact not_sublist_swap (nodup_keys_entriesAt hroot common) hkeys hkeys'

/-- The order of a walk decides the rest: a path is met once, and what lies below it follows it. -/
theorem IsWalk.of_ordered (hroot : root.Keyed) {paths : List (List String)}
    (hcomplete : ∀ path, path ∈ paths ↔ IsResourcePath root path)
    (hordered : paths.Pairwise (Precedes root)) : IsWalk root paths where
  complete := hcomplete
  once := hordered.imp (Precedes.ne hroot)
  ordered := hordered
  together := by
    rintro before path after rfl
    have htail := (List.pairwise_append.mp hordered).2.1
    obtain ⟨hfirst, hafter⟩ := List.pairwise_cons.mp htail
    refine ⟨after.takeWhile path.isPrefixOf, after.dropWhile path.isPrefixOf,
      List.takeWhile_append_dropWhile.symm, ?_, ?_⟩
    · intro p hp
      exact List.isPrefixOf_iff_prefix.mp (List.mem_takeWhile_imp hp)
    · cases hrest : after.dropWhile path.isPrefixOf with
      | nil => exact List.forall_mem_nil _
      | cons q rest =>
        have hsuffix : (q :: rest).Sublist after := hrest ▸ List.dropWhile_sublist _
        have hout : ¬ path <+: q := by
          have hhead := List.head?_dropWhile_not path.isPrefixOf after
          rw [hrest] at hhead
          rwa [← List.isPrefixOf_iff_prefix, Bool.not_eq_true]
        obtain ⟨hlater, -⟩ := List.pairwise_cons.mp (hafter.sublist hsuffix)
        have hq := hfirst q (hsuffix.subset List.mem_cons_self)
        exact List.forall_mem_cons.mpr
          ⟨hout, fun p hp => hq.not_below hroot hout (hlater p hp)⟩

mutual

def pathsIn : Value → List (List String)
  | .map fields => pathsOf fields
  | _ => []
termination_by structural v => v

def pathsOf : List (String × Value) → List (List String)
  | [] => []
  | (key, value) :: rest =>
    (if isResourceKey key then [key] :: (pathsIn value).map (key :: ·) else []) ++ pathsOf rest
termination_by structural fs => fs

end

def pathsUnder (field : String × Value) : List (List String) :=
  if isResourceKey field.1 then [field.1] :: (pathsIn field.2).map (field.1 :: ·) else []

theorem pathsOf_eq_flatMap (fields : Fields Value) : pathsOf fields = fields.flatMap pathsUnder := by
  induction fields with
  | nil => rfl
  | cons field rest ih => rw [pathsOf, ih, List.flatMap_cons, pathsUnder]

theorem isResourceKey_iff (key : String) :
    isResourceKey key = true ↔ key.toList.head? = some '/' := by
  rw [isResourceKey, beq_iff_eq]

theorem mem_pathsUnder_iff (field : String × Value) (path : List String) :
    path ∈ pathsUnder field ↔ isResourceKey field.1 = true ∧
      ∃ rest, path = field.1 :: rest ∧ (rest = [] ∨ rest ∈ pathsIn field.2) := by
  unfold pathsUnder
  split
  · next hkey =>
    simp only [List.mem_cons, List.mem_map, hkey, true_and]
    constructor
    · rintro (rfl | ⟨rest, hrest, rfl⟩)
      · exact ⟨[], rfl, .inl rfl⟩
      · exact ⟨rest, rfl, .inr hrest⟩
    · rintro ⟨rest, rfl, rfl | hrest⟩
      · exact .inl rfl
      · exact .inr ⟨rest, hrest, rfl⟩
  · next hkey => simp [hkey]

theorem nil_notMem_pathsIn (value : Value) : [] ∉ pathsIn value := by
  cases value with
  | map fields =>
    rw [pathsIn, pathsOf_eq_flatMap, List.mem_flatMap]
    rintro ⟨field, -, hpath⟩
    obtain ⟨-, rest, hnil, -⟩ := (mem_pathsUnder_iff field []).mp hpath
    cases hnil
  | _ => exact List.not_mem_nil

theorem isResourcePath_cons_iff {fields : Fields Value} {key : String} {rest : List String} :
    IsResourcePath (.map fields) (key :: rest) ↔ isResourceKey key = true ∧
      ∃ value, Fields.get? key fields = some value ∧ (rest = [] ∨ IsResourcePath value rest) := by
  rw [isResourceKey_iff]
  constructor
  · rintro ⟨-, hslashed, hfound⟩
    obtain ⟨hkey, hrest⟩ := List.forall_mem_cons.mp hslashed
    rw [Value.at?_map, Option.isSome_bind, Option.any_eq_true] at hfound
    obtain ⟨value, hget, hbelow⟩ := hfound
    refine ⟨hkey, value, hget, ?_⟩
    by_cases hempty : rest = []
    · exact .inl hempty
    · exact .inr ⟨hempty, hrest, hbelow⟩
  · rintro ⟨hkey, value, hget, hbelow⟩
    refine ⟨List.cons_ne_nil key rest, ?_, ?_⟩
    · rcases hbelow with rfl | hbelow
      · simpa using hkey
      · exact List.forall_mem_cons.mpr ⟨hkey, hbelow.slashed⟩
    · rw [Value.at?_map_of_get? hget]
      rcases hbelow with rfl | hbelow
      · rfl
      · exact hbelow.found

theorem mem_pathsIn_iff {value : Value} (hvalue : value.Keyed) (path : List String) :
    path ∈ pathsIn value ↔ IsResourcePath value path := by
  induction path generalizing value with
  | nil => exact ⟨fun h => absurd h (nil_notMem_pathsIn value), fun h => absurd rfl h.nonempty⟩
  | cons key rest ih =>
    cases hvalue with
    | @map fields hdistinct hvalues =>
      rw [pathsIn, pathsOf_eq_flatMap, List.mem_flatMap, isResourcePath_cons_iff]
      constructor
      · rintro ⟨⟨key', inner⟩, hfield, hpath⟩
        obtain ⟨hkey, rest', hsame, hbelow⟩ := (mem_pathsUnder_iff _ _).mp hpath
        obtain ⟨rfl, rfl⟩ := List.cons.inj hsame
        refine ⟨hkey, inner, (Fields.mem_iff_get? hdistinct).mp hfield, ?_⟩
        exact hbelow.imp_right (ih (hvalues _ hfield)).mp
      · rintro ⟨hkey, inner, hget, hbelow⟩
        have hfield := Fields.mem_of_get? hget
        refine ⟨(key, inner), hfield, (mem_pathsUnder_iff _ _).mpr ⟨hkey, rest, rfl, ?_⟩⟩
        exact hbelow.imp_right (ih (hvalues _ hfield)).mpr
    | _ => exact ⟨fun h => absurd h List.not_mem_nil, fun h => by cases h.found⟩

theorem pairwise_pathsIn {value : Value} (hvalue : value.Keyed) :
    (pathsIn value).Pairwise (Precedes value) := by
  induction hvalue with
  | @map fields hdistinct hvalues ih =>
    rw [pathsIn, pathsOf_eq_flatMap, List.pairwise_flatMap]
    constructor
    · rintro ⟨key, value⟩ hfield
      have hget := (Fields.mem_iff_get? hdistinct).mp hfield
      unfold pathsUnder
      split
      · refine List.pairwise_cons.mpr ⟨?_, ?_⟩
        · intro path hpath
          obtain ⟨rest, hrest, rfl⟩ := List.mem_map.mp hpath
          exact .below [key] (ne_of_mem_of_not_mem hrest (nil_notMem_pathsIn value))
        · rw [List.pairwise_map]
          exact (ih _ hfield).imp (Precedes.under hget)
      · exact .nil
    · -- Fields that stand in some order have their keys in that order.
      rw [List.pairwise_iff_forall_sublist]
      intro field field' hfields p hp q hq
      obtain ⟨-, rest, rfl, -⟩ := (mem_pathsUnder_iff _ _).mp hp
      obtain ⟨-, rest', rfl, -⟩ := (mem_pathsUnder_iff _ _).mp hq
      exact .beside [] rest rest' (hfields.map Prod.fst)
  | _ => exact .nil

theorem isWalk_pathsIn {value : Value} (hvalue : value.Keyed) : IsWalk value (pathsIn value) :=
  .of_ordered hvalue (mem_pathsIn_iff hvalue) (pairwise_pathsIn hvalue)

def resourceAt (mediaType parent : String) (root : Value) (path : List String) : Resource :=
  resourceOf mediaType (parent ++ Text.concat path) (path.getLastD "") (entriesAt root path)

def resourcesUnder (mediaType parent : String) (field : String × Value) : List Resource :=
  if isResourceKey field.1 then
    resourceOf mediaType (parent ++ field.1) field.1 (field.2.fields?.getD []) ::
      resourcesIn mediaType (parent ++ field.1) field.2
  else []

theorem resourcesOf_eq_flatMap (mediaType parent : String) (fields : Fields Value) :
    resourcesOf mediaType parent fields = fields.flatMap (resourcesUnder mediaType parent) := by
  induction fields with
  | nil => rfl
  | cons field rest ih => rw [resourcesOf, ih, List.flatMap_cons, resourcesUnder]

theorem resourceAt_key (mediaType parent : String) {key : String} {fields : Fields Value}
    {value : Value} (hget : Fields.get? key fields = some value) :
    resourceAt mediaType parent (.map fields) [key] =
      resourceOf mediaType (parent ++ key) key (value.fields?.getD []) := by
  rw [resourceAt, entriesAt_map_of_get? hget]
  simp [Text.concat, entriesAt, fieldsOr]

theorem resourceAt_under (mediaType parent : String) {key : String} {fields : Fields Value}
    {value : Value} (hget : Fields.get? key fields = some value) {rest : List String}
    (hrest : rest ≠ []) :
    resourceAt mediaType parent (.map fields) (key :: rest) =
      resourceAt mediaType (parent ++ key) value rest := by
  obtain ⟨next, rest, rfl⟩ := List.exists_cons_of_ne_nil hrest
  rw [resourceAt, resourceAt, entriesAt_map_of_get? hget, Text.concat, String.append_assoc,
    List.getLastD_cons, List.getLastD_cons, List.getLastD_cons]

/-- The resources are listed as the walk meets their paths. -/
theorem resourcesIn_eq_map (mediaType parent : String) {value : Value} (hvalue : value.Keyed) :
    resourcesIn mediaType parent value =
      (pathsIn value).map (resourceAt mediaType parent value) := by
  induction hvalue generalizing parent with
  | @map fields hdistinct hvalues ih =>
    rw [resourcesIn, pathsIn, resourcesOf_eq_flatMap, pathsOf_eq_flatMap, List.map_flatMap]
    refine List.flatMap_congr ?_
    rintro ⟨key, value⟩ hfield
    have hget := (Fields.mem_iff_get? hdistinct).mp hfield
    unfold resourcesUnder pathsUnder
    split
    · rw [List.map_cons, List.map_map, ih _ hfield, resourceAt_key mediaType parent hget]
      congr 1
      refine List.map_congr_left fun rest hmem => ?_
      have hrest : rest ≠ [] := ne_of_mem_of_not_mem hmem (nil_notMem_pathsIn value)
      exact (resourceAt_under mediaType parent hget hrest).symm
    · rfl
  | _ => rfl

/-- A method is that of an entry: its verb is the key, whatever the case of the letters. -/
structure IsMethodOf (mediaType : String) (entry : String × Value) (m : Method) : Prop where
  verb : m.verb.lower = Text.lowerAscii entry.1
  content : m = methodOf mediaType m.verb entry.2

/-- The resource of a path: its URI spells the path, and it has a method for each entry of its
mapping that is named by a verb, in the order of the entries. -/
structure Describes (mediaType : String) (root : Value) (path : List String) (r : Resource) :
    Prop where
  uri : r.uri = Text.concat path
  methods : List.Forall₂ (IsMethodOf mediaType)
    ((entriesAt root path).filter fun entry => Verb.isNamed entry.1) r.methods

theorem verb_methodOf (mediaType : String) (verb : Verb) (value : Value) :
    (methodOf mediaType verb value).verb = verb := by
  cases value <;> rfl

theorem methodsOf_entries (mediaType : String) (entries : Fields Value) :
    List.Forall₂ (IsMethodOf mediaType) (entries.filter fun entry => Verb.isNamed entry.1)
      (methodsOf mediaType entries) := by
  induction entries with
  | nil => exact .nil
  | cons entry rest ih =>
    simp only [List.filter_cons, methodsOf, List.filterMap_cons, ← Verb.isSome_parse?] at ih ⊢
    cases hverb : Verb.parse? entry.1 with
    | none => exact ih
    | some verb =>
      refine .cons ⟨?_, ?_⟩ ih
      · rw [verb_methodOf]
        exact Verb.lower_of_parse? hverb
      · rw [verb_methodOf]

theorem resourceAt_describes (mediaType : String) (root : Value) (path : List String) :
    Describes mediaType root path (resourceAt mediaType "" root path) where
  uri := String.empty_append
  methods := methodsOf_entries mediaType (entriesAt root path)

/-- The resources of a description are the resource paths of its root, each once: a path comes before
everything below it, which follows it directly, and keys of one mapping come in document order. The
root of every text that has a description is of this kind, since no mapping in it has a key twice. -/
theorem resources_walk_document [Yaml.EventSource] :
    (∀ root : Fields Value, (Value.map root).Keyed →
      ∃ paths, IsWalk (.map root) paths ∧
        List.Forall₂ (Describes (ofFields root).mediaType (.map root)) paths
          (ofFields root).resources) ∧
    ∀ text project spec, parse text project = .ok spec →
      ∃ entries root, rootOf text = .ok entries ∧
        root = Include.resolveFields (Include.expandIn project) entries ∧
        (Value.map root).Keyed ∧ spec = ofFields root := by
  constructor
  · intro root hroot
    refine ⟨pathsIn (.map root), isWalk_pathsIn hroot, ?_⟩
    have hresources : (ofFields root).resources =
        resourcesIn (ofFields root).mediaType "" (.map root) := rfl
    rw [hresources, resourcesIn_eq_map _ _ hroot, List.forall₂_map_right_iff, List.forall₂_same]
    intro path _
    exact resourceAt_describes _ _ path
  · intro text project spec hparse
    rw [parse_eq_map] at hparse
    cases hroot : rootOf text with
    | error fault =>
      rw [hroot] at hparse
      cases hparse
    | ok entries =>
      rw [hroot] at hparse
      cases hparse
      exact ⟨entries, _, rfl, rfl, resolvedRoot_keyed hroot project, rfl⟩

/-- Keys in no order of their own, verbs in letters of either case, a resource with a text in place
of a mapping, and a key with a slash inside a mapping that is no resource. -/
theorem resources_walk_document_nested :
    let text := "/b:\n  Get: all\n  /c: none\n  PUT:\n/a:\n  is:\n    /x:\n"
    ∃ spec root paths, parse text none = .ok spec ∧ spec = ofFields root ∧
      (spec.resources.map fun r => (r.uri, r.methods.map (·.verb))) =
        [("/b", [.get, .put]), ("/b/c", []), ("/a", [])] ∧
      IsWalk (.map root) paths ∧
      List.Forall₂ (Describes spec.mediaType (.map root)) paths spec.resources := by
  intro text
  have hread : ((parse text none).toOption.map fun spec =>
      spec.resources.map fun r => (r.uri, r.methods.map (·.verb))) =
      some [("/b", [.get, .put]), ("/b/c", []), ("/a", [])] := by decide +kernel
  cases hparse : parse text none with
  | error fault =>
    rw [hparse] at hread
    cases hread
  | ok spec =>
    rw [hparse] at hread
    obtain ⟨entries, root, -, -, hkeyed, rfl⟩ := resources_walk_document.2 text none spec hparse
    obtain ⟨paths, hwalk, hresources⟩ := resources_walk_document.1 root hkeyed
    exact ⟨_, root, paths, rfl, rfl, Option.some.inj hread, hwalk, hresources⟩

end Spec

end RamlScaffold

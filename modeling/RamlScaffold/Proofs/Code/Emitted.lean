import RamlScaffold.Client.Basic
import RamlScaffold.Proofs.Route.Collision

/-!
The names that generated code uses without quotes. For every description each of them may stand
alone in its place, and the names of one scope (the attributes of an entity, the arguments of an
endpoint, the operations of a group, the data classes of a module) are pairwise distinct.
-/

namespace RamlScaffold

namespace Code

/-- The names of one scope: each may stand alone there, and no two are the same. -/
structure Scope (words names : List String) : Prop where
  bare : ∀ name ∈ names, Bare words name
  distinct : names.Nodup

/-- Bare names stay bare when they are made distinct. -/
theorem scope_freshAll {words : List String} (seen bases : List String)
    (hwords : ∀ word ∈ words, endsInLetter word = true)
    (hbases : ∀ base ∈ bases, Bare words base) : Scope words (Naming.freshAll seen bases) :=
  ⟨bare_freshAll seen bases hwords hbases, Naming.freshAll_nodup seen bases⟩

theorem isIdentifierChar_of_mem {s : String} (hs : isIdentifier s = true) {c : Char}
    (hc : c ∈ s.toList) : isIdentifierChar c = true := by
  unfold isIdentifier at hs
  cases hchars : s.toList with
  | nil => simp [hchars] at hc
  | cons first rest =>
    simp only [hchars, Bool.and_eq_true, List.all_eq_true] at hs
    rw [hchars] at hc
    rcases List.mem_cons.mp hc with rfl | hrest
    · have hfirst := hs.1
      simp only [Bool.or_eq_true, beq_iff_eq] at hfirst
      rcases hfirst with (hupper | hlower) | rfl
      · simp [isIdentifierChar, Text.isAlnum, hupper]
      · simp [isIdentifierChar, Text.isAlnum, hlower]
      · rfl
    · exact hs.2 c hrest

theorem isIdentifier_of_alnum {c : Char} {rest : List Char}
    (hc : Text.isUpper c = true ∨ Text.isLower c = true)
    (hrest : ∀ d ∈ rest, Text.isAlnum d = true) : isIdentifier (.ofList (c :: rest)) = true := by
  have htail : rest.all isIdentifierChar = true := by
    rw [List.all_eq_true]
    intro d hd
    simp [isIdentifierChar, hrest d hd]
  rcases hc with hupper | hlower
  · simp [isIdentifier, hupper, htail]
  · simp [isIdentifier, hlower, htail]

end Code

namespace GroupName

theorem aggregateMembers_guarded :
    ∀ word ∈ aggregateMembers, word ++ "_" ∉ aggregateMembers := by decide

/-- All three spellings of a name may stand alone, and the accessor hides no member of the
aggregate client. -/
theorem SpelledBy.bare {root : String} {name : GroupName} (hname : SpelledBy root name) :
    Code.Bare [] name.snake ∧ Code.Bare [] name.pascal ∧
      Code.Bare aggregateMembers name.camel := by
  obtain ⟨c, rest, hchars, hlower, hcapital, hcontinued⟩ := Naming.joined_of_stem hname.stem
  have hrest : ∀ d ∈ Naming.continued rest, Text.isAlnum d = true := by
    apply (Naming.isAlnum_joined rest _).2
    intro d hd
    exact hname.stem.shaped.chars d (by rw [hchars]; exact List.mem_cons_of_mem c hd)
  refine ⟨?_, ?_, ?_⟩
  · rw [hname.snake]
    exact Code.bare_nonKeyword hname.stem.isIdentifier
  · rw [hname.pascal, hcapital]
    exact Code.bare_nonKeyword
      (Code.isIdentifier_of_alnum (Or.inl (Text.isUpper_upperChar hlower)) hrest)
  · rw [hname.camel, hcontinued]
    exact (Code.bare_nonKeyword (Code.isIdentifier_of_alnum (Or.inr hlower) hrest)).avoid
      aggregateMembers_guarded

theorem bare_derive (raw : String) :
    Code.Bare [] (derive raw).snake ∧ Code.Bare [] (derive raw).pascal ∧
      Code.Bare aggregateMembers (derive raw).camel := by
  obtain ⟨root, hroot⟩ := spelledBy_derive raw
  exact hroot.bare

end GroupName

namespace Field

theorem reserved_end : ∀ word ∈ reserved, Code.endsInLetter word = true := by decide

theorem bare_attrOf (key : String) : Code.Bare reserved (attrOf key) := by
  have hfallback : Code.Stem "field" :=
    Code.stem_of_snake_eq (by decide) ⟨'f', by decide, by decide⟩
  apply (Code.bare_identifier _ hfallback).avoid
  intro word _
  exact Code.guarded_not_mem reserved_end word

theorem attrs_ofDeclarations (seen : List String) (declarations : List Declaration) :
    (ofDeclarations seen declarations).map (·.attr) =
      Naming.freshAll seen (declarations.map fun d => attrOf d.key) := by
  induction declarations generalizing seen with
  | nil => rfl
  | cons d rest ih => simp only [ofDeclarations, List.map_cons, Naming.freshAll, ih]

theorem scope_ofDeclarations (declarations : List Declaration) :
    Code.Scope reserved ((ofDeclarations [] declarations).map (·.attr)) := by
  rw [attrs_ofDeclarations]
  apply Code.scope_freshAll _ _ reserved_end
  intro base hbase
  obtain ⟨d, -, rfl⟩ := List.mem_map.mp hbase
  exact bare_attrOf d.key

theorem infer_cases (spec : Specification) (groupName : String) (resources : List Resource) :
    (infer spec groupName resources).1 = defaults ∨
      ∃ declarations, (infer spec groupName resources).1 = ofDeclarations [] declarations := by
  unfold infer
  split
  · split
    · exact Or.inl rfl
    · exact Or.inr ⟨_, rfl⟩
  · split
    · exact Or.inl rfl
    · exact Or.inr ⟨_, rfl⟩

theorem scope_infer (spec : Specification) (groupName : String) (resources : List Resource) :
    Code.Scope reserved ((infer spec groupName resources).1.map (·.attr)) := by
  rcases infer_cases spec groupName resources with hdefault | ⟨declarations, hdeclared⟩
  · rw [hdefault]
    exact ⟨by decide, by decide⟩
  · rw [hdeclared]
    exact scope_ofDeclarations declarations

end Field

namespace RouteParam

theorem reserved_end : ∀ word ∈ reserved, Code.endsInLetter word = true := by decide

theorem bare_argument (name : String) : Code.Bare reserved (argument name) := by
  have hfallback : Code.Stem "param" :=
    Code.stem_of_snake_eq (by decide) ⟨'p', by decide, by decide⟩
  apply (Code.bare_identifier _ hfallback).avoid
  intro word _
  exact Code.guarded_not_mem reserved_end word

theorem args_ofParameters (seen : List String) (parameters : List PathParameter) :
    (ofParameters seen parameters).map (·.arg) =
      Naming.freshAll seen (parameters.map fun p => argument p.name) := by
  induction parameters generalizing seen with
  | nil => rfl
  | cons p rest ih => simp only [ofParameters, List.map_cons, Naming.freshAll, ih]

theorem scope_ofResource (r : Resource) :
    Code.Scope reserved ((ofResource r).map (·.arg)) := by
  rw [ofResource, args_ofParameters]
  apply Code.scope_freshAll _ _ reserved_end
  intro base hbase
  obtain ⟨p, -, rfl⟩ := List.mem_map.mp hbase
  exact bare_argument p.name

end RouteParam

namespace Text

theorem mem_joinWith {sep : String} {parts : List String} {c : Char}
    (hc : c ∈ (joinWith sep parts).toList) : c ∈ sep.toList ∨ ∃ part ∈ parts, c ∈ part.toList := by
  fun_induction joinWith sep parts with
  | case1 => simp at hc
  | case2 part => exact Or.inr ⟨part, List.mem_singleton_self part, hc⟩
  | case3 part rest hrest ih =>
    simp only [String.toList_append, List.mem_append] at hc
    rcases hc with (hpart | hsep) | hlater
    · exact Or.inr ⟨part, List.mem_cons_self, hpart⟩
    · exact Or.inl hsep
    · rcases ih hlater with hsep | ⟨other, hother, hmem⟩
      · exact Or.inl hsep
      · exact Or.inr ⟨other, List.mem_cons_of_mem part hother, hmem⟩

theorem mem_of_mem_trimTailChar {ch c : Char} {s : String}
    (hc : c ∈ (trimTailChar ch s).toList) : c ∈ s.toList := by
  rw [trimTailChar, String.toList_ofList, dropTailWhile_eq_rdropWhile] at hc
  exact (List.rdropWhile_prefix _ _).subset hc

end Text

namespace Operation

theorem keywords_joined : ∀ word ∈ Code.keywords, '_' ∉ word.toList := by decide

theorem isIdentifier_word (isItem : Bool) (verb : Verb) :
    Code.isIdentifier (word isItem verb ++ "_") = true := by
  cases isItem <;> cases verb <;> decide

/-- What an operation asks for is no keyword, since an underscore joins its words. -/
theorem bare_baseName (verb : Verb) (isItem : Bool) {group : GroupName} {params : List RouteParam}
    (hgroup : Code.Bare [] group.snake)
    (hparams : Code.Scope RouteParam.reserved (params.map (·.arg))) :
    Code.Bare [] (baseName verb isItem group params) := by
  have hsnake : ∀ c ∈ group.snake.toList, Code.isIdentifierChar c = true :=
    fun c hc => Code.isIdentifierChar_of_mem hgroup.form hc
  have hstem : Code.isIdentifier (word isItem verb ++ "_" ++ group.snake) = true :=
    Code.isIdentifier_append (isIdentifier_word isItem verb) hsnake
  have hargs : ∀ c ∈ ("_by_" ++ Text.joinWith "_and_"
      (params.map fun p => Text.trimTailChar '_' p.arg)).toList,
      Code.isIdentifierChar c = true := by
    have hby : "_by_".toList.all Code.isIdentifierChar = true := by decide
    have hand : "_and_".toList.all Code.isIdentifierChar = true := by decide
    intro c hc
    rw [String.toList_append, List.mem_append] at hc
    rcases hc with hc | hjoined
    · exact List.all_eq_true.mp hby c hc
    · rcases Text.mem_joinWith hjoined with hc | ⟨part, hpart, hc⟩
      · exact List.all_eq_true.mp hand c hc
      · obtain ⟨p, hp, rfl⟩ := List.mem_map.mp hpart
        have harg := hparams.bare p.arg (List.mem_map_of_mem hp)
        exact Code.isIdentifierChar_of_mem harg.form (Text.mem_of_mem_trimTailChar hc)
  have hform : Code.isIdentifier (baseName verb isItem group params) = true := by
    unfold baseName
    split
    · exact hstem
    · rw [String.append_assoc]
      exact Code.isIdentifier_append hstem hargs
  have hsep : '_' ∈ (baseName verb isItem group params).toList := by
    unfold baseName
    split <;> simp
  refine ⟨hform, ?_, List.not_mem_nil⟩
  intro hword
  exact keywords_joined _ hword hsep

theorem names_ofMethods (group : GroupName) (params : List RouteParam) (isItem : Bool)
    (seen : List String) (methods : List Method) :
    (ofMethods group params isItem seen methods).map (·.name) =
      Naming.freshAll seen (methods.map fun m => baseName m.verb isItem group params) := by
  induction methods generalizing seen with
  | nil => rfl
  | cons m rest ih => simp only [ofMethods, List.map_cons, Naming.freshAll, ih]

end Operation

namespace Endpoint

def operationNames (endpoints : List Endpoint) : List String :=
  endpoints.flatMap fun e => e.operations.map (·.name)

theorem scope_args (group : GroupName) (version : String) (seen : List String)
    (resources : List Resource) :
    ∀ e ∈ ofResources group version seen resources,
      Code.Scope RouteParam.reserved (e.params.map (·.arg)) := by
  induction resources generalizing seen with
  | nil => simp [ofResources]
  | cons r rest ih =>
    intro e he
    rcases List.mem_cons.mp he with rfl | he
    · exact RouteParam.scope_ofResource r
    · exact ih _ e he

/-- The names of one endpoint's operations, as they are handed out. -/
theorem names_ofResource (group : GroupName) (version : String) (seen : List String)
    (r : Resource) :
    ((ofResource group version seen r).operations.map (·.name)) =
      Naming.freshAll seen (r.methods.map fun m =>
        Operation.baseName m.verb (isItem r.uri) group (RouteParam.ofResource r)) := by
  rw [ofResource, Operation.names_ofMethods]

/-- Each endpoint gets names that are new to those of the endpoints before it. -/
theorem scope_operationNames {group : GroupName} (hgroup : Code.Bare [] group.snake)
    (version : String) (seen : List String) (resources : List Resource) :
    Code.Scope [] (operationNames (ofResources group version seen resources)) ∧
      ∀ name ∈ operationNames (ofResources group version seen resources), name ∉ seen := by
  induction resources generalizing seen with
  | nil => exact ⟨⟨by simp [operationNames, ofResources], List.nodup_nil⟩,
      by simp [operationNames, ofResources]⟩
  | cons r rest ih =>
    set first := (ofResource group version seen r).operations.map (·.name) with hfirst
    rw [names_ofResource] at hfirst
    obtain ⟨hscope, hnew⟩ := ih (first ++ seen)
    have hnames : operationNames (ofResources group version seen (r :: rest)) =
        first ++ operationNames (ofResources group version (first ++ seen) rest) := rfl
    have hown : Code.Scope [] first := by
      rw [hfirst]
      apply Code.scope_freshAll _ _ (by simp)
      intro base hbase
      obtain ⟨m, -, rfl⟩ := List.mem_map.mp hbase
      exact Operation.bare_baseName m.verb _ hgroup (RouteParam.scope_ofResource r)
    rw [hnames]
    refine ⟨⟨?_, ?_⟩, ?_⟩
    · intro name hname
      rcases List.mem_append.mp hname with hname | hname
      · exact hown.bare name hname
      · exact hscope.bare name hname
    · apply List.Nodup.append hown.distinct hscope.distinct
      intro name hmem hagain
      exact hnew name hagain (List.mem_append_left seen hmem)
    · intro name hname
      rcases List.mem_append.mp hname with hname | hname
      · rw [hfirst] at hname
        exact Naming.freshAll_not_mem seen _ name hname
      · intro hseen
        exact hnew name hname (List.mem_append_right first hseen)

end Endpoint

/-- The names of a group: its spellings, and the scopes of its entity, its endpoints and its
operations. -/
structure Group.WellNamed (g : Group) : Prop where
  snake : Code.Bare [] g.name.snake
  pascal : Code.Bare [] g.name.pascal
  camel : Code.Bare GroupName.aggregateMembers g.name.camel
  attrs : Code.Scope Field.reserved (g.fields.map (·.attr))
  args : ∀ e ∈ g.endpoints, Code.Scope RouteParam.reserved (e.params.map (·.arg))
  operations : Code.Scope [] (g.operations.map (·.2.name))

theorem Group.wellNamed_of_mem {spec : Specification} {version : String} {g : Group}
    (hg : g ∈ ofSpecification spec version) : g.WellNamed := by
  obtain ⟨raw, hraw⟩ := derived_of_mem hg
  obtain ⟨⟨name, resources⟩, -, rfl⟩ := List.mem_map.mp hg
  obtain ⟨hsnake, hpascal, hcamel⟩ := GroupName.bare_derive raw
  rw [← hraw] at hsnake hpascal hcamel
  refine ⟨hsnake, hpascal, hcamel, ?_, ?_, ?_⟩
  · exact Field.scope_infer spec name.raw resources
  · exact Endpoint.scope_args name version [] resources
  · have hscope := (Endpoint.scope_operationNames hsnake version [] resources).1
    simpa only [Group.operations, Endpoint.operationNames, List.map_flatMap, List.map_map,
      Function.comp_def] using hscope

theorem Group.WellNamed.bare_operation {g : Group} (hg : g.WellNamed) {e : Endpoint}
    {op : Operation} (he : e ∈ g.endpoints) (hop : op ∈ e.operations) : Code.Bare [] op.name := by
  apply hg.operations.bare
  refine List.mem_map.mpr ⟨(e, op), ?_, rfl⟩
  exact List.mem_flatMap.mpr ⟨e, he, List.mem_map_of_mem hop⟩

namespace Client.Model

theorem classNames_ofTypes (seen : List String) (types : List TypeDef) :
    (ofTypes seen types).map (·.className) =
      Naming.freshAll seen (types.map fun t => (GroupName.derive t.name).pascal) := by
  induction types generalizing seen with
  | nil => rfl
  | cons t rest ih => simp only [ofTypes, List.map_cons, Naming.freshAll, ih]

/-- Class names are bare, and since the names of the module count as handed out they are none of
these. -/
theorem scope_classNames (types : List TypeDef) :
    Code.Scope taken ((ofTypes taken types).map (·.className)) := by
  rw [classNames_ofTypes]
  have hscope : Code.Scope [] (Naming.freshAll taken
      (types.map fun t => (GroupName.derive t.name).pascal)) := by
    apply Code.scope_freshAll _ _ (by simp)
    intro base hbase
    obtain ⟨t, -, rfl⟩ := List.mem_map.mp hbase
    exact (GroupName.bare_derive t.name).2.1
  refine ⟨?_, hscope.distinct⟩
  intro name hname
  have hbare := hscope.bare name hname
  exact ⟨hbare.form, hbare.notKeyword, Naming.freshAll_not_mem taken _ name hname⟩

theorem scope_attrs (seen : List String) (types : List TypeDef) :
    ∀ m ∈ ofTypes seen types, Code.Scope Field.reserved (m.fields.map (·.attr)) := by
  induction types generalizing seen with
  | nil => simp [ofTypes]
  | cons t rest ih =>
    intro m hm
    rcases List.mem_cons.mp hm with rfl | hm
    · exact Field.scope_ofDeclarations _
    · exact ih _ m hm

end Client.Model

namespace ClientSettings

theorem package_stem (settings : ClientSettings) :
    ∃ stem, Code.Stem stem ∧ settings.package = Code.nonKeyword stem :=
  Code.identifier_stem _ (Code.stem_of_snake_eq (by decide) ⟨'c', by decide, by decide⟩)

theorem isIdentifier_package (settings : ClientSettings) :
    Code.isIdentifier settings.package = true := by
  obtain ⟨stem, hstem, hpackage⟩ := settings.package_stem
  rw [hpackage]
  exact (Code.bare_nonKeyword hstem.isIdentifier).form

end ClientSettings

/-- Every name that generated code uses without quotes may stand alone in its place and is unique
in its scope: the names of each group, for every version, and the names of the data classes of a
client with their attributes, for every settings. -/
theorem emitted_names_bare (spec : Specification) (version : String)
    (settings : ClientSettings) :
    let models := (Client.Context.ofSpecification settings spec).models
    (∀ g ∈ Group.ofSpecification spec version, g.WellNamed) ∧
      Code.Scope Client.Model.taken (models.map (·.className)) ∧
      ∀ m ∈ models, Code.Scope Field.reserved (m.fields.map (·.attr)) := by
  intro models
  refine ⟨?_, ?_, ?_⟩
  · intro g hg
    exact Group.wellNamed_of_mem hg
  · exact Client.Model.scope_classNames spec.types
  · exact Client.Model.scope_attrs _ spec.types

end RamlScaffold

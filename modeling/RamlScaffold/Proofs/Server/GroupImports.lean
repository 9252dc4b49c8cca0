import RamlScaffold.Proofs.Server.FixedImports

/-!
Imports in the modules of a group. The modules import each other under the snake spelling that also
stands in their paths. A line that begins with a name from a description imports nothing, since such
a name is no keyword.
-/

namespace RamlScaffold.Server

open Line Source
open Code (isIdentifier)

variable {index : ModuleIndex} {snakes : List String}

theorem resolved_groupModule (g : Group) : Source.Resolved index (groupModule g) :=
  .cons (.docstring rfl rfl rfl) .nil

section Words

variable {name : String} {words : List String}

/-- A name that may stand alone is no keyword of an import. -/
theorem not_keyword_of_bare (hname : Code.Bare words name) :
    name.toList ++ [] ∉ ImportLine.keywords := by
  have hkeywords : Code.keywords.contains "from" && Code.keywords.contains "import" := by decide
  simp only [List.contains_eq_mem, Bool.and_eq_true, decide_eq_true_eq] at hkeywords
  rw [List.append_nil, ImportLine.keywords]
  simp only [List.mem_cons, List.not_mem_nil, or_false, String.toList_inj]
  rintro (rfl | rfl)
  · exact hname.notKeyword hkeywords.1
  · exact hname.notKeyword hkeywords.2

/-- A word with another ending is no keyword of an import. -/
theorem not_keyword_of_ending {cs ending : List Char}
    (hending : (ending.getLast?.any fun c => c != 'm' && c != 't') = true) :
    cs ++ ending ∉ ImportLine.keywords := by
  intro hmember
  have hkeywords : ImportLine.keywords.all (fun word =>
      word.getLast?.all fun c => c == 'm' || c == 't') = true := by decide
  have hlast := List.all_eq_true.mp hkeywords _ hmember
  rw [Option.any_eq_true] at hending
  obtain ⟨c, hc, hother⟩ := hending
  rw [List.getLast?_append, hc, Option.some_or, Option.all_some] at hlast
  simp_all

end Words

section Group

variable {g : Group} (hg : g.WellNamed)

theorem clean_column (column : Column) : Clean column.text := by
  cases column <;> exact clean_fixed rfl rfl

theorem clean_schemaField (column : Column) : Clean column.schemaField := by
  cases column <;> exact clean_fixed rfl rfl

def HasPlainDefault (f : Field) : Prop := f.default = none ∨ f.default = some "datetime.utcnow"

theorem clean_defaultArgument {f : Field} (hdefault : HasPlainDefault f) :
    Clean (defaultArgument f) := by
  rcases hdefault with hnone | hclock
  · rw [defaultArgument, hnone]
    exact clean_fixed rfl rfl
  · rw [defaultArgument, hclock]
    exact clean_textIf _ ((clean_fixed rfl rfl).append (clean_fixed rfl rfl))

theorem resolved_updatableLine (g : Group) : Line.Resolved index (updatableLine g) := by
  refine .headed rfl rfl ?_
  induction g.fields.filter (fun f => !f.primaryKey) with
  | nil => exact .text rfl rfl .nil
  | cons f rest ih => exact .literal (.fixed rfl rfl) (.text rfl rfl ih)

include hg

theorem bare_attr {f : Field} (hf : f ∈ g.fields) : Code.Bare Field.reserved f.attr :=
  hg.attrs.bare f.attr (List.mem_map_of_mem hf)

theorem resolved_modelModule (hserves : Serves index snakes)
    (hdefaults : ∀ f ∈ g.fields, HasPlainDefault f) : Source.Resolved index (modelModule g) := by
  have hpascal := hg.pascal.form
  refine .join_cons (.cons (.docstring rfl rfl rfl) .nil) <|
    .join_cons (.when (hserves.line rfl rfl <| hserves.line rfl rfl .nil) _) <| .join_cons ?_ <|
    .join_cons (.when (hserves.line rfl rfl .nil) _) <| .join_cons (.each fun f hf => ?_) <|
    .join_cons ?_ <| .join_cons (.when (hserves.line rfl rfl .nil) _) <|
    .join_cons (.each fun f hf => ?_) <| .join_cons ?_ .nil
  · repeat refine hserves.line rfl rfl ?_
    refine .cons (.indent rfl rfl (.docstring rfl rfl rfl)) ?_
    repeat refine hserves.line rfl rfl ?_
    refine .cons (.around rfl rfl hpascal rfl rfl) ?_
    refine .cons (.indent rfl rfl (.docstring rfl rfl rfl)) ?_
    refine hserves.line rfl rfl ?_
    exact .cons (.headed rfl rfl (.literal .nil .nil)) (hserves.line rfl rfl .nil)
  · have hattr := bare_attr hg hf
    refine .cons (.indent rfl rfl <| .named hattr.form rfl rfl (not_keyword_of_bare hattr) ?_) .nil
    exact .code (clean_column f.column) <| .code (clean_textIf _ (clean_fixed rfl rfl)) <|
      .code (clean_textIf _ (clean_fixed rfl rfl)) <|
      .code (clean_defaultArgument (hdefaults f hf)) <| .text rfl rfl .nil
  · refine hserves.line rfl rfl <| .cons (resolved_updatableLine g) ?_
    repeat refine hserves.line rfl rfl ?_
    refine .cons (.indent rfl rfl (.docstring rfl rfl rfl)) ?_
    exact hserves.line rfl rfl .nil
  · refine .cons (.indent rfl rfl <| .literal (.fixed rfl rfl) ?_) .nil
    exact .text rfl rfl <| .name (bare_attr hg hf).form <| .text rfl rfl .nil
  · repeat refine hserves.line rfl rfl ?_
    exact .cons (.inside rfl rfl rfl hpascal rfl rfl) .nil

omit hg in
/-- The arguments of a schema field end in a literal or in code. -/
theorem single_schemaArguments (f : Field) {rest : Line} (hapart : Apart rest)
    (hrest : Single rest) : Single (.code (schemaArguments f) :: rest) := by
  have hpresence : Clean
      (if ((f.primaryKey && f.column == .integer) || f.default.isSome) = true then "dump_only=True"
        else if f.required = true then "required=True" else "allow_none=True") := by
    split_ifs <;> exact clean_fixed rfl rfl
  have hkey : Clean ", data_key=" := clean_fixed rfl rfl
  unfold schemaArguments
  cases f.renamed with
  | false => exact .code (hpresence.append (clean_fixed rfl rfl)) hrest
  | true =>
    refine .quoted ?_ ?_ hapart hrest
    · simp only [textIf, if_true, String.toList_append, Code.Mode.after_append]
      rw [hpresence.steady, hkey.steady]
      exact (Code.Mode.quote_read f.key).1
    · simp only [textIf, if_true, String.toList_append, List.forall_mem_append]
      exact ⟨hpresence.unbroken, hkey.unbroken, unbroken_quote f.key⟩

theorem resolved_schemaModule (hserves : Serves index snakes) :
    Source.Resolved index (schemaModule g) := by
  have hpascal := hg.pascal.form
  refine .join_cons ?_ <| .join_cons (.when (hserves.line rfl rfl .nil) _) <|
    .join_cons (.each fun f hf => ?_) <| .join_cons ?_ .nil
  · refine .cons (.docstring rfl rfl rfl) ?_
    repeat refine hserves.line rfl rfl ?_
    refine .cons (.around rfl rfl hpascal rfl rfl) ?_
    refine .cons (.indent rfl rfl (.docstring rfl rfl rfl)) ?_
    repeat refine hserves.line rfl rfl ?_
    exact .nil
  · have hattr := bare_attr hg hf
    refine .cons (.indent rfl rfl <| .named hattr.form rfl rfl (not_keyword_of_bare hattr) ?_) .nil
    exact .code (clean_schemaField f.column) <| .text rfl rfl <|
      single_schemaArguments f (.fixed rfl rfl) (.text rfl rfl .nil)
  · repeat refine hserves.line rfl rfl ?_
    refine .cons (.around rfl rfl hpascal rfl rfl) ?_
    refine .cons (.indent rfl rfl (.docstring rfl rfl rfl)) ?_
    refine hserves.line rfl rfl <|
      .cons (.around rfl rfl hpascal rfl rfl) ?_
    repeat refine hserves.line rfl rfl ?_
    exact .nil

omit hg in
theorem mem_of_searchField? {f : Field} (hf : Field.searchField? g.fields = some f) :
    f ∈ g.fields := by
  unfold Field.searchField? at hf
  split at hf
  · next hname =>
    obtain rfl := Option.some.inj hf
    exact List.mem_of_find?_eq_some hname
  · exact List.mem_of_find?_eq_some hf

theorem resolved_searchLines : Source.Resolved index (searchLines g) := by
  have hpascal := hg.pascal.form
  unfold searchLines
  split
  · next f hf =>
    have hattr := (bare_attr hg (mem_of_searchField? hf)).form
    exact .cons (.headed rfl rfl <| .name hpascal <| .text rfl rfl <| .name hpascal <|
      .text rfl rfl <| .name hattr <| .text rfl rfl .nil) .nil
  · exact .cons (.around rfl rfl hpascal rfl rfl) .nil

theorem resolved_serviceModule (hserves : Serves index snakes) (hmember : g.name.snake ∈ snakes) :
    Source.Resolved index (serviceModule g) := by
  have hpascal := hg.pascal.form
  refine .join_cons ?_ <| .join_cons (.each fun f hf => ?_) <| .join_cons ?_ <| .join_cons ?_ <|
    .join_cons (resolved_searchLines hg) <| .join_cons ?_ .nil
  · refine .cons (.docstring rfl rfl rfl) ?_
    repeat refine hserves.line rfl rfl ?_
    refine .cons (resolved_partImport hserves hmember hg.snake.form "model" (by decide) rfl
      (.name hpascal .nil)) ?_
    repeat refine hserves.line rfl rfl ?_
    refine .cons (.around rfl rfl hpascal rfl rfl) ?_
    refine .cons (.indent rfl rfl (.docstring rfl rfl rfl)) ?_
    repeat refine hserves.line rfl rfl ?_
    exact .nil
  · have hattr := bare_attr hg (List.mem_filter.mp hf).1
    refine .cons (.indent rfl rfl <| .literal (.fixed rfl rfl) ?_) .nil
    exact .text rfl rfl <| .name hpascal <| .text rfl rfl <| .name hattr.form <| .text rfl rfl .nil
  · repeat refine hserves.line rfl rfl ?_
    refine .cons (.indent rfl rfl (.docstring rfl rfl rfl)) ?_
    refine .cons (.headed rfl rfl <| .name hpascal <| .text rfl rfl <| .name hpascal <|
      .text rfl rfl .nil) ?_
    repeat refine hserves.line rfl rfl ?_
    refine .cons (.around rfl rfl hpascal rfl rfl) ?_
    repeat refine hserves.line rfl rfl ?_
    refine .cons (.around rfl rfl hpascal rfl rfl) ?_
    repeat refine hserves.line rfl rfl ?_
    refine .cons (.around rfl rfl hpascal rfl rfl) ?_
    repeat refine hserves.line rfl rfl ?_
    refine .cons (.around rfl rfl hpascal rfl rfl) ?_
    repeat refine hserves.line rfl rfl ?_
    exact .nil
  · repeat refine hserves.line rfl rfl ?_
    exact .cons (.indent rfl rfl (.docstring rfl rfl rfl)) .nil
  · exact .cons (.around rfl rfl hpascal rfl rfl) .nil

end Group

section Routes

variable {g : Group} {e : Endpoint} (op : Operation) (hserves : Serves index snakes)
  (hg : g.WellNamed) (he : e ∈ g.endpoints)

theorem resolved_emptyAnswer : Source.Resolved index (emptyAnswer op) :=
  .cons (.headed rfl rfl <| .code (clean_digits op.successStatus) .nil) .nil

include hg

theorem resolved_recordAnswer : Line.Resolved index (recordAnswer g op) :=
  .headed rfl rfl <| .name hg.snake.form <| .text rfl rfl <|
    .code (clean_digits op.successStatus) .nil

include hserves he

theorem resolved_lookup : Source.Resolved index (lookup g e) := by
  have hid : Clean (e.idArg.getD "None") := by
    unfold Endpoint.idArg
    cases hlast : e.params.getLast? with
    | none => exact clean_fixed rfl rfl
    | some p =>
      have harg := (hg.args e he).bare p.arg (List.mem_map_of_mem (List.mem_of_getLast? hlast))
      exact clean_identifier harg.form
  refine .cons ?_ <| hserves.line rfl rfl <| hserves.line rfl rfl .nil
  exact .headed rfl rfl <| .name hg.pascal.form <| .text rfl rfl <| .code hid <| .text rfl rfl .nil

theorem resolved_updateLines {parts : String} (hparts : Clean parts) :
    Source.Resolved index (updateLines g e op parts) := by
  refine .join_cons (resolved_lookup hserves hg he) (.join_cons ?_ .nil)
  refine .cons ?_ (.cons ?_ (.cons (resolved_recordAnswer op hg) .nil))
  · exact .headed rfl rfl <| .name hg.snake.form <| .text rfl rfl <| .code hparts <|
      .text rfl rfl .nil
  · exact .around rfl rfl hg.pascal.form rfl rfl

theorem resolved_handler : Source.Resolved index (handler g e op) := by
  have hrecord : Line.Resolved index (recordAnswer g op) := resolved_recordAnswer op hg
  have hlookup := resolved_lookup hserves hg he
  unfold handler
  split
  · exact .join_cons hlookup <| .join_cons (.cons hrecord .nil) .nil
  · refine hserves.line rfl rfl <| hserves.line rfl rfl <| hserves.line rfl rfl <| .cons ?_ <|
      hserves.line rfl rfl <| .cons ?_ <| .cons ?_ .nil
    · exact .around rfl rfl hg.pascal.form rfl rfl
    · exact .around rfl rfl hg.pascal.form rfl rfl
    · exact .headed rfl rfl <| .name hg.snake.form <| .text rfl rfl <|
        .code (clean_digits op.successStatus) .nil
  · refine .cons ?_ <| .cons ?_ <| .cons hrecord .nil
    · exact .around rfl rfl hg.snake.form rfl rfl
    · exact .around rfl rfl hg.pascal.form rfl rfl
  · exact resolved_updateLines op hserves hg he (clean_fixed rfl rfl)
  · exact resolved_updateLines op hserves hg he (clean_fixed rfl rfl)
  · refine .join_cons hlookup <| .join_cons (.cons ?_ .nil) <|
      .join_cons (resolved_emptyAnswer op) .nil
    exact .indent rfl rfl <| .named hg.pascal.form rfl rfl (not_keyword_of_ending rfl) .nil
  · exact resolved_emptyAnswer op
  · exact resolved_emptyAnswer op
  · exact hserves.line rfl rfl .nil

theorem resolved_routeFunction (c : Context) (hop : op ∈ e.operations) :
    Source.Resolved index (routeFunction c g e op) := by
  have hargs : Clean e.args := by
    apply clean_joinWith (clean_fixed rfl rfl)
    intro arg harg
    exact clean_identifier ((hg.args e he).bare arg harg).form
  refine .join_cons (hserves.line rfl rfl (hserves.line rfl rfl (.cons ?_ .nil))) <|
    .join_cons (.when (hserves.line rfl rfl .nil) _) <|
    .join_cons (.cons ?_ (.cons (.indent rfl rfl (.docstring rfl rfl rfl)) .nil)) <|
    .join_cons (resolved_handler op hserves hg he) .nil
  · exact .headed rfl rfl <| .name hg.snake.form <| .text rfl rfl <| .literal (.fixed rfl rfl) <|
      .text rfl rfl <| .literal (.fixed rfl rfl) <| .text rfl rfl .nil
  · exact .headed rfl rfl <| .name (hg.bare_operation he hop).form <| .text rfl rfl <|
      .code hargs <| .text rfl rfl .nil

omit he in
theorem resolved_routesModule (c : Context) (hmember : g.name.snake ∈ snakes) :
    Source.Resolved index (routesModule c g) := by
  have hsnake := hg.snake.form
  have hpascal := hg.pascal.form
  refine .join_cons (.cons (.docstring rfl rfl rfl) (hserves.line rfl rfl .nil)) <|
    .join_cons (.when (hserves.line rfl rfl .nil) _) <| .join_cons ?_ <|
    .join_cons (.each fun e he => .each fun op hop =>
      resolved_routeFunction op hserves hg he c hop) .nil
  refine hserves.line rfl rfl <| .cons ?_ <| .cons ?_ <| hserves.line rfl rfl <|
    hserves.line rfl rfl <| .cons ?_ <| .cons ?_ <| .cons ?_ ?_
  · exact resolved_partImport hserves hmember hsnake "schema" (by decide) rfl <| .name hpascal <|
      .text rfl rfl <| .name hpascal <| .text rfl rfl .nil
  · exact resolved_partImport hserves hmember hsnake "service" (by decide) rfl <| .name hpascal <|
      .text rfl rfl .nil
  · exact .named hsnake rfl rfl (not_keyword_of_ending rfl) <| .literal (.fixed rfl rfl) <|
      .text rfl rfl .nil
  · exact .named hsnake rfl rfl (not_keyword_of_ending rfl) <| .name hpascal <| .text rfl rfl .nil
  · exact .named hsnake rfl rfl (not_keyword_of_ending rfl) <| .name hpascal <| .text rfl rfl .nil
  · repeat refine hserves.line rfl rfl ?_
    exact .nil

end Routes

section Tests

variable {g : Group}

theorem clean_sample {attr : String} (hattr : isIdentifier attr = true) (column : Column) :
    Clean (column.sample attr) := by
  cases column with
  | string =>
    have hopened : Code.Mode.code.after "'sample ".toList = .short '\'' := by decide
    constructor
    · simp only [Column.sample, Steady, String.toList_append, Code.Mode.after_append, hopened,
        (Code.Mode.silent_identifier hattr).stays]
      decide
    · simp only [Column.sample, String.toList_append, List.forall_mem_append]
      exact ⟨⟨unbroken_of_any rfl, (clean_identifier hattr).unbroken⟩, unbroken_of_any rfl⟩
  | _ => exact clean_fixed rfl rfl

theorem clean_quoteKey (key : String) : Clean (Code.quote key ++ ": ") := by
  have hcolon : ": ".toList = [':', ' '] := by decide
  constructor
  · rw [Steady, String.toList_append, Code.Mode.after_append, hcolon, Code.Mode.after,
      step_of_ended (Code.Mode.quote_read key).1 (by decide)]
    rfl
  · rw [String.toList_append, List.forall_mem_append]
    exact ⟨unbroken_quote key, unbroken_of_any rfl⟩

theorem clean_samplePayload (hg : g.WellNamed) : Clean (Field.samplePayload g.fields) := by
  unfold Field.samplePayload
  refine .append (.append (clean_fixed rfl rfl) (clean_joinWith (clean_fixed rfl rfl) ?_))
    (clean_fixed rfl rfl)
  intro part hpart
  obtain ⟨f, hf, rfl⟩ := List.mem_map.mp hpart
  have hattr := (bare_attr hg (List.mem_filter.mp hf).1).form
  exact (clean_quoteKey f.key).append (clean_sample hattr f.column)

theorem clean_statuses (op : Operation) : Clean (statuses op) := by
  refine .append (.append (clean_fixed rfl rfl) (clean_joinWith (clean_fixed rfl rfl) ?_))
    (clean_fixed rfl rfl)
  intro part hpart
  obtain ⟨n, _, rfl⟩ := List.mem_map.mp hpart
  exact clean_digits n

theorem clean_lower (verb : Verb) : Clean verb.lower := by
  cases verb <;> exact clean_fixed rfl rfl

theorem resolved_groupTests (hserves : Serves index snakes) (c : Context) (hg : g.WellNamed)
    (hversion : Enclosable c.settings.apiVersion) : Source.Resolved index (groupTests c g) := by
  have hsnake := hg.snake.form
  refine .join_cons ?_ <| .join_cons (.each fun e he => .each fun op hop => ?_) .nil
  · refine .cons (.docstring rfl rfl rfl) ?_
    repeat refine hserves.line rfl rfl ?_
    refine .cons (.enclosed rfl rfl hversion rfl rfl) ?_
    repeat refine hserves.line rfl rfl ?_
    exact .cons (.around rfl rfl hsnake rfl rfl) <|
      .cons (.headed rfl rfl <| .code (clean_samplePayload hg) .nil) .nil
  · have hsample : Clean (", sample_" ++ g.name.snake) :=
      (clean_fixed rfl rfl).append (clean_identifier hsnake)
    have hbody : Clean (", json=sample_" ++ g.name.snake) :=
      (clean_fixed rfl rfl).append (clean_identifier hsnake)
    refine hserves.line rfl rfl <| hserves.line rfl rfl <| .cons ?_ <|
      .cons (.indent rfl rfl (.docstring rfl rfl rfl)) <| .cons ?_ <| .cons ?_ .nil
    · exact .headed rfl rfl <| .name (hg.bare_operation he hop).form <| .text rfl rfl <|
        .code (clean_textIf _ (clean_fixed rfl rfl)) <| .code (clean_textIf _ hsample) <|
        .text rfl rfl .nil
    · refine .headed rfl rfl <| .code (clean_lower op.verb) <| .text rfl rfl <| .literal ?_ <|
        .code (clean_textIf _ hbody) <| .code (clean_textIf _ (clean_fixed rfl rfl)) <|
        .text rfl rfl .nil
      refine .code ?_ (.code ?_ (.fixed rfl rfl))
      · cases op.hasBody <;> simp [textIf]
      · cases c.guards op <;> simp [textIf]
    · exact .headed rfl rfl <| .code (clean_statuses op) .nil

end Tests

end RamlScaffold.Server

import RamlScaffold.Proofs.Batch.Accounting
import RamlScaffold.Proofs.Document.Order

/-!
The descriptions of a batch do not influence each other. With distinct names every description
keeps its own, its outcome is that of a batch of its own, and the outcome of the batch is put
together from these. The files come out in order of their paths, so they are the same whatever the
order of the descriptions.
-/

namespace RamlScaffold.Batch

open Fields Outcome

variable {env : Environment} {name : String} {source : Spec.Source} {sources : List Spec.Source}

theorem startsWith_iff {part s : String} :
    Text.startsWith part s = true ↔ ∃ rest, s = part ++ rest := by
  rw [Text.startsWith, List.isPrefixOf_iff_prefix]
  constructor
  · rintro ⟨cs, hcs⟩
    exact ⟨.ofList cs, String.toList_inj.mp (by simp [← hcs])⟩
  · rintro ⟨rest, rfl⟩
    simp

instance (name path : String) : Decidable (Below name path) :=
  decidable_of_iff (Text.startsWith (name ++ "-flask" ++ "/") path = true ∨
      Text.startsWith (name ++ "-client" ++ "/") path = true) (by
    rw [startsWith_iff, startsWith_iff, Below, exists_or])

theorem below_of_mem_accepted_warnings {directory : String} (files : Files)
    {warnings : List Finding} {w : Finding}
    (hw : w ∈ (accepted directory files warnings).warnings) :
    ∃ p, w.path = directory ++ "/" ++ p := by
  obtain ⟨found, _, rfl⟩ := List.mem_map.mp hw
  exact ⟨found.path, rfl⟩

theorem named_of_distinct (hdistinct : (sources.map (·.name)).Nodup) :
    named sources = sources.map fun s => (s.name, s) := by
  have hnames : names sources = sources.map (·.name) :=
    Naming.freshAll_eq_self hdistinct (by simp)
  rw [named, hnames, List.map_prod_right_eq_zip]

theorem named_singleton (source : Spec.Source) : named [source] = [(source.name, source)] :=
  named_of_distinct (List.nodup_singleton _)

section Independent

variable [Yaml.EventSource]

theorem eq_of_mem_succeeded {reported : String}
    (hreported : reported ∈ (single env name source).succeeded) : reported = name := by
  have honce : (single env name source).succeeded ++ (single env name source).withoutServer =
      [name] := (single_reports env name source).1
  exact List.mem_singleton.mp (honce ▸ List.mem_append_left _ hreported)

theorem spec_of_mem_failures {f : Failure} (hf : f ∈ (single env name source).failures) :
    f.spec = name := by
  rcases single_cases env name source with
    ⟨_, stage, cause, _, hwhole⟩ | ⟨files, _, ⟨_, hwhole⟩ | ⟨clientFiles, _, hwhole⟩ |
      ⟨_, _, cause, hwhole⟩⟩ <;> rw [hwhole] at hf
  · rw [List.mem_singleton.mp hf]
  · cases hf
  · cases hf
  · rw [List.mem_singleton.mp hf]

theorem below_of_mem_warnings {w : Finding} (hw : w ∈ (single env name source).warnings) :
    Below name w.path := by
  have hserved {files : Files} (hmem : w ∈ (served env name files).warnings) :
      Below name w.path := by
    obtain ⟨p, hpath⟩ := below_of_mem_accepted_warnings files hmem
    exact ⟨p, Or.inl hpath⟩
  rcases single_cases env name source with
    ⟨_, stage, cause, _, hwhole⟩ | ⟨files, _, ⟨_, hwhole⟩ | ⟨clientFiles, _, hwhole⟩ |
      ⟨_, _, cause, hwhole⟩⟩ <;> rw [hwhole] at hw
  · cases hw
  · exact hserved hw
  · rcases List.mem_append.mp hw with hserver | hclient
    · exact hserved hserver
    · obtain ⟨p, hpath⟩ := below_of_mem_accepted_warnings clientFiles hclient
      exact ⟨p, Or.inr hpath⟩
  · rcases List.mem_append.mp hw with hserver | hnone
    · exact hserved hserver
    · cases hnone

section Lists

variable {α : Type} {field : Outcome → List α}

theorem Gathered.alone (hgathered : Gathered field) (env : Environment) (source : Spec.Source) :
    field (run env [source]) = field (single env source.name source) := by
  rw [hgathered.field_run, named_singleton, List.flatMap_singleton]

/-- A list in the outcome of a batch is that of its descriptions alone, one after the other. -/
theorem Gathered.eq_flatMap (hgathered : Gathered field) (env : Environment)
    (hdistinct : (sources.map (·.name)).Nodup) :
    field (run env sources) = sources.flatMap fun s => field (run env [s]) := by
  simp only [hgathered.alone env]
  rw [hgathered.field_run, named_of_distinct hdistinct, List.flatMap_map]

omit [Yaml.EventSource] in
/-- What belongs to one of several sources is what that source gave. -/
theorem filter_flatMap_owned {given : Spec.Source → List α} {owned : α → Bool}
    (hnodup : sources.Nodup) (hmember : source ∈ sources)
    (howned : ∀ s ∈ sources, ∀ a ∈ given s, owned a = true ↔ s = source) :
    (sources.flatMap given).filter owned = given source := by
  induction sources with
  | nil => cases hmember
  | cons first rest ih =>
    obtain ⟨honce, hrest⟩ := List.nodup_cons.mp hnodup
    have hlater : ∀ s ∈ rest, ∀ a ∈ given s, owned a = true ↔ s = source :=
      fun s hs => howned s (List.mem_cons_of_mem first hs)
    rw [List.flatMap_cons, List.filter_append]
    by_cases hfirst : first = source
    · -- No source stands twice, so the later ones gave nothing of this one.
      subst hfirst
      have hall : (given first).filter owned = given first := by
        rw [List.filter_eq_self]
        exact fun a ha => (howned first List.mem_cons_self a ha).mpr rfl
      have hnone : (rest.flatMap given).filter owned = [] := by
        rw [List.filter_eq_nil_iff]
        intro a ha hyes
        obtain ⟨s, hs, hgiven⟩ := List.mem_flatMap.mp ha
        exact honce ((hlater s hs a hgiven).mp hyes ▸ hs)
      rw [hall, hnone, List.append_nil]
    · have hnone : (given first).filter owned = [] := by
        rw [List.filter_eq_nil_iff]
        exact fun a ha hyes => hfirst ((howned first List.mem_cons_self a ha).mp hyes)
      have hthere : source ∈ rest := (List.mem_cons.mp hmember).resolve_left (Ne.symm hfirst)
      rw [hnone, List.nil_append, ih hrest hthere hlater]

/-- What a batch lists for one description is what the description alone lists, where `owned`
tells the descriptions apart. -/
theorem Gathered.filter_run (hgathered : Gathered field) (hdistinct : (sources.map (·.name)).Nodup)
    (hmember : source ∈ sources) {owned : α → Bool}
    (howned : ∀ s ∈ sources, ∀ a ∈ field (single env s.name s),
      owned a = true ↔ s.name = source.name) :
    (field (run env sources)).filter owned = field (run env [source]) := by
  rw [hgathered.eq_flatMap env hdistinct]
  apply filter_flatMap_owned hdistinct.of_map hmember
  intro s hs a ha
  rw [hgathered.alone] at ha
  rw [howned s hs a ha]
  exact ⟨List.inj_on_of_nodup_map hdistinct hs hmember, congrArg _⟩

theorem Gathered.run_perm (hgathered : Gathered field) (env : Environment)
    {others : List Spec.Source} (hdistinct : (sources.map (·.name)).Nodup)
    (hperm : sources.Perm others) : (field (run env sources)).Perm (field (run env others)) := by
  rw [hgathered.eq_flatMap env hdistinct,
    hgathered.eq_flatMap env ((hperm.map _).nodup_iff.mp hdistinct)]
  exact hperm.flatMap_right _

end Lists

theorem inOrder_run (env : Environment) (sources : List Spec.Source) :
    InOrder (run env sources).files := by
  have hfold (outcomes : List Outcome) (o : Outcome) (horder : InOrder o.files) :
      InOrder (outcomes.foldl append o).files := by
    induction outcomes generalizing o with
    | nil => exact horder
    | cons next rest ih => exact ih _ (horder.foldl_putIfAbsent next.files)
  rw [run_eq_foldl]
  exact hfold _ _ List.Pairwise.nil

theorem get?_run_singleton (env : Environment) (source : Spec.Source) (path : String) :
    get? path (run env [source]).files = get? path (single env source.name source).files := by
  rw [get?_run, named_singleton, List.findSome?_singleton]

/-- In the directories of a description the batch holds the files of the description alone. -/
theorem get?_run_of_owned (hdistinct : (sources.map (·.name)).Nodup)
    (hplain : ∀ s ∈ sources, '/' ∉ s.name.toList) (hmember : source ∈ sources) {path : String}
    (hbelow : Below source.name path) :
    get? path (run env sources).files = get? path (run env [source]).files := by
  have hnamed : (source.name, source) ∈ named sources := by
    rw [named_of_distinct hdistinct]
    exact List.mem_map.mpr ⟨source, hmember, rfl⟩
  rw [get?_run_of_below hplain hnamed hbelow, get?_run_singleton]

/-- Outside the directories of its descriptions a batch holds nothing. -/
theorem get?_run_eq_none (hdistinct : (sources.map (·.name)).Nodup) {path : String}
    (houtside : ∀ s ∈ sources, ¬ Below s.name path) :
    get? path (run env sources).files = none := by
  rw [get?_run, named_of_distinct hdistinct, List.findSome?_eq_none_iff]
  intro pair hpair
  obtain ⟨s, hs, rfl⟩ := List.mem_map.mp hpair
  rw [get?_eq_none_iff]
  exact fun hpresent => houtside s hs (single_below hpresent)

theorem files_run_perm {others : List Spec.Source} (hdistinct : (sources.map (·.name)).Nodup)
    (hplain : ∀ s ∈ sources, '/' ∉ s.name.toList) (hperm : sources.Perm others) :
    (run env sources).files = (run env others).files := by
  have hdistinct' : (others.map (·.name)).Nodup := (hperm.map _).nodup_iff.mp hdistinct
  have hplain' : ∀ s ∈ others, '/' ∉ s.name.toList := fun s hs => hplain s (hperm.mem_iff.mpr hs)
  apply (inOrder_run env sources).ext (inOrder_run env others)
  intro path
  -- Either order has the same descriptions, so a path that belongs to one does in both.
  by_cases howner : ∃ s ∈ sources, Below s.name path
  · obtain ⟨s, hs, hbelow⟩ := howner
    rw [get?_run_of_owned hdistinct hplain hs hbelow,
      get?_run_of_owned hdistinct' hplain' (hperm.mem_iff.mp hs) hbelow]
  · rw [get?_run_eq_none hdistinct fun s hs hbelow => howner ⟨s, hs, hbelow⟩,
      get?_run_eq_none hdistinct' fun s hs hbelow => howner ⟨s, hperm.mem_iff.mpr hs, hbelow⟩]

theorem files_alone (hdistinct : (sources.map (·.name)).Nodup)
    (hplain : ∀ s ∈ sources, '/' ∉ s.name.toList) (hmember : source ∈ sources) :
    ((run env sources).files.filter fun file => decide (Below source.name file.1)) =
      (run env [source]).files := by
  apply ((inOrder_run env sources).filter _).ext (inOrder_run env [source])
  intro path
  rw [get?_filter fun p => decide (Below source.name p)]
  by_cases hbelow : Below source.name path
  · rw [if_pos (decide_eq_true hbelow), get?_run_of_owned hdistinct hplain hmember hbelow]
  · rw [if_neg (by simpa using hbelow), get?_run_singleton, eq_comm, get?_eq_none_iff]
    exact fun hpresent => hbelow (single_below hpresent)

/-- All that a batch says about one of its descriptions: the files and findings below its
directories, and what is reported under its name. -/
def Outcome.about (o : Outcome) (name : String) : Outcome where
  files := o.files.filter fun file => decide (Below name file.1)
  succeeded := o.succeeded.filter (· == name)
  failures := o.failures.filter (·.spec == name)
  warnings := o.warnings.filter fun w => decide (Below name w.path)

theorem about_run (hdistinct : (sources.map (·.name)).Nodup)
    (hplain : ∀ s ∈ sources, '/' ∉ s.name.toList) (hmember : source ∈ sources) :
    (run env sources).about source.name = run env [source] := by
  have hsucceeded : (run env sources).succeeded.filter (· == source.name) =
      (run env [source]).succeeded := by
    refine gathered_succeeded.filter_run hdistinct hmember fun s _ reported hreported => ?_
    rw [beq_iff_eq, eq_of_mem_succeeded hreported]
  have hfailures : (run env sources).failures.filter (·.spec == source.name) =
      (run env [source]).failures := by
    refine gathered_failures.filter_run hdistinct hmember fun s _ f hf => ?_
    rw [beq_iff_eq, spec_of_mem_failures hf]
  have hwarnings : ((run env sources).warnings.filter fun w => decide (Below source.name w.path)) =
      (run env [source]).warnings := by
    refine gathered_warnings.filter_run hdistinct hmember fun s hs w hw => ?_
    have hbelow : Below s.name w.path := below_of_mem_warnings hw
    rw [decide_eq_true_iff]
    exact ⟨below_same_name (hplain s hs) (hplain source hmember) hbelow,
      fun hsame => hsame ▸ hbelow⟩
  rw [Outcome.about, files_alone hdistinct hplain hmember, hsucceeded, hfailures, hwarnings]

/-- An outcome holds nothing but what its parts hold, and all their reports in turn. -/
structure Outcome.MadeOf (o : Outcome) (parts : List Outcome) : Prop where
  files : ∀ file ∈ o.files, ∃ part ∈ parts, file ∈ part.files
  succeeded : o.succeeded = parts.flatMap (·.succeeded)
  failures : o.failures = parts.flatMap (·.failures)
  warnings : o.warnings = parts.flatMap (·.warnings)

theorem run_madeOf (env : Environment) (hdistinct : (sources.map (·.name)).Nodup)
    (hplain : ∀ s ∈ sources, '/' ∉ s.name.toList) :
    (run env sources).MadeOf (sources.map fun s => run env [s]) where
  files := by
    rintro ⟨path, text⟩ hfile
    rw [mem_iff_get? (inOrder_run env sources).nodup_keys] at hfile
    by_cases howner : ∃ s ∈ sources, Below s.name path
    · obtain ⟨s, hs, hbelow⟩ := howner
      refine ⟨run env [s], List.mem_map.mpr ⟨s, hs, rfl⟩, ?_⟩
      rwa [mem_iff_get? (inOrder_run env [s]).nodup_keys,
        ← get?_run_of_owned hdistinct hplain hs hbelow]
    · rw [get?_run_eq_none hdistinct fun s hs hbelow => howner ⟨s, hs, hbelow⟩] at hfile
      cases hfile
  succeeded := by rw [gathered_succeeded.eq_flatMap env hdistinct, List.flatMap_map]
  failures := by rw [gathered_failures.eq_flatMap env hdistinct, List.flatMap_map]
  warnings := by rw [gathered_warnings.eq_flatMap env hdistinct, List.flatMap_map]

/-- The descriptions of a batch do not influence each other. In any order they give the same files,
and the same reports up to order; what the batch says about a description is the outcome of that
description alone, and it says nothing else. -/
theorem descriptions_independent (env : Environment) (sources others : List Spec.Source)
    (hdistinct : (sources.map (·.name)).Nodup) (hplain : ∀ s ∈ sources, '/' ∉ s.name.toList)
    (hperm : sources.Perm others) :
    (run env sources).files = (run env others).files ∧
    (run env sources).succeeded.Perm (run env others).succeeded ∧
    (run env sources).failures.Perm (run env others).failures ∧
    (run env sources).warnings.Perm (run env others).warnings ∧
    (∀ source ∈ sources, (run env sources).about source.name = run env [source]) ∧
    (run env sources).MadeOf (sources.map fun s => run env [s]) :=
  ⟨files_run_perm hdistinct hplain hperm, gathered_succeeded.run_perm env hdistinct hperm,
    gathered_failures.run_perm env hdistinct hperm, gathered_warnings.run_perm env hdistinct hperm,
    fun _ hmember => about_run hdistinct hplain hmember, run_madeOf env hdistinct hplain⟩

end Independent

/-- A text that cannot be read, before and after a description whose client is refused. -/
theorem descriptions_independent_of_broken :
    let env : Environment := ⟨.empty [], ⟨.default, true⟩, fun _ => .ok (),
      fun spec _ => .error (.refused spec.title)⟩
    let broken : Spec.Source := ⟨"broken", "- just\n- a list\n", none⟩
    let shop : Spec.Source := ⟨"shop", "title: Shop", none⟩
    (run env [broken, shop]).files = (run env [shop, broken]).files ∧
    (run env [broken, shop]).about "shop" = run env [shop] := by
  intro env broken shop
  obtain ⟨hfiles, _, _, _, halone, _⟩ := descriptions_independent env [broken, shop] [shop, broken]
    (by decide) (by decide) (List.Perm.swap shop broken [])
  exact ⟨hfiles, halone shop (by simp)⟩

end RamlScaffold.Batch

import RamlScaffold.Proofs.Artifact.Files
import RamlScaffold.Proofs.Batch.Independence
import RamlScaffold.Proofs.Validation.Report

/-!
The gate before the files of a batch. Whatever the checker, the backend and the names are, every
Python file of an outcome is one that the checker accepts, also where the paths of two projects
meet. A description with a rejected server file leaves nothing in the outcome but its failure, and
the message of the failure lists the rejected files.
-/

namespace RamlScaffold.Batch

open Fields Outcome
open Report (Rejected Lists)

variable {env : Environment} {name path text : String} {source : Spec.Source} {files : Files}

/-- A directory before a path does not make it that of a Python file: the slash between them is no
part of the ending. -/
theorem isPython_of_below {directory : String}
    (hpython : Text.endsWith ".py" (directory ++ "/" ++ path) = true) :
    Text.endsWith ".py" path = true := by
  rw [Text.endsWith, List.isSuffixOf_iff_suffix] at hpython ⊢
  have hchars : (directory ++ "/" ++ path).toList = directory.toList ++ ['/'] ++ path.toList := by
    simp
  rw [hchars] at hpython
  rcases List.suffix_or_suffix_of_suffix hpython (List.suffix_append _ _) with hends | hshort
  · exact hends
  · obtain ⟨front, hfront⟩ := hpython
    obtain ⟨missing, hmissing⟩ := hshort
    rw [← hmissing, ← List.append_assoc, List.append_cancel_right_eq] at hfront
    cases missing using List.reverseRecOn with
    | nil => exact ⟨[], by simpa using hmissing.symm⟩
    | append_singleton init last =>
      have hslash : last = '/' := by
        have hlast := congrArg List.getLast? hfront
        simpa using hlast
      have hmember : '/' ∈ ".py".toList := by
        rw [← hmissing, hslash]
        simp
      exact absurd hmember (by decide)

theorem files_foldl_append (outcomes : List Outcome) (o : Outcome) :
    (outcomes.foldl append o).files = (outcomes.flatMap (·.files)).foldl
      (fun files (path, text) => putIfAbsent path text files) o.files := by
  induction outcomes generalizing o with
  | nil => rfl
  | cons next rest ih =>
    rw [List.foldl_cons, ih, List.flatMap_cons, List.foldl_append]
    rfl

section Gated

variable [Yaml.EventSource]

theorem check_of_origin (horigin : Origin env name source path text)
    (hpython : Text.endsWith ".py" path = true) : env.check text = .ok () := by
  rcases horigin with ⟨files, p, ⟨_, _, _, hok⟩, hfile, rfl⟩ |
    ⟨files, p, ⟨_, _, _, _, _, hok⟩, hfile, rfl⟩
  · exact Report.check_of_ok hok (mem_of_get? hfile) (isPython_of_below hpython)
  · exact Report.check_of_ok hok (mem_of_get? hfile) (isPython_of_below hpython)

/-- The server artifacts that are made from a description, before they are checked. -/
def Generated (env : Environment) (source : Spec.Source) (files : Files) : Prop :=
  ∃ spec, source.parse env.fileSystem = .ok spec ∧
    Server.generate env.settings.server spec = .ok files

theorem Generated.inOrder (hgenerated : Generated env source files) : InOrder files := by
  obtain ⟨spec, _, hmade⟩ := hgenerated
  obtain ⟨_, rfl⟩ := Server.generate_eq_ok_iff.mp hmade
  exact Files.inOrder_ofSources _

theorem single_of_rejected (name : String) (hgenerated : Generated env source files)
    (hrejected : ∃ path fault, Rejected env.check files path fault) :
    single env name source =
      .failed name .validation (.rejected (Report.ofFiles env.check files)) := by
  obtain ⟨spec, hparsed, hmade⟩ := hgenerated
  obtain ⟨path, fault, hfile⟩ := hrejected
  have hnotOk : ¬ (Report.ofFiles env.check files).ok = true :=
    fun hok => Report.ok_ofFiles_iff.mp hok path fault hfile
  simp [single, hparsed, hmade, hnotOk]

theorem not_served_of_validation {f : Failure} (hf : f ∈ (single env name source).failures)
    (hstage : f.stage = .validation) (files : Files) : ¬ ServerSet env source files := by
  rcases single_cases env name source with
    ⟨hnoServer, _⟩ | ⟨server, _, ⟨_, hwhole⟩ | ⟨clientFiles, _, hwhole⟩ | ⟨_, _, cause, hwhole⟩⟩
  · exact hnoServer files
  all_goals rw [hwhole] at hf
  · cases hf
  · cases hf
  · rw [List.mem_singleton.mp hf] at hstage
    cases hstage

/-- Only a rejected server file makes a description fail in validation. -/
theorem rejected_of_validation {f : Failure} (hf : f ∈ (single env name source).failures)
    (hstage : f.stage = .validation) :
    ∃ files, Generated env source files ∧ ∃ path fault, Rejected env.check files path fault := by
  cases hparsed : source.parse env.fileSystem with
  | error fault =>
    have hwhole : single env name source = .failed name .parse (.unparsed fault) := by
      simp [single, hparsed]
    rw [hwhole] at hf
    rw [List.mem_singleton.mp hf] at hstage
    cases hstage
  | ok spec =>
    cases hmade : Server.generate env.settings.server spec with
    | error fault =>
      have hwhole : single env name source = .failed name .serverGeneration (.refused fault) := by
        simp [single, hparsed, hmade]
      rw [hwhole] at hf
      rw [List.mem_singleton.mp hf] at hstage
      cases hstage
    | ok files =>
      refine ⟨files, ⟨spec, hparsed, hmade⟩, ?_⟩
      by_contra hnone
      have hok : (Report.ofFiles env.check files).ok = true :=
        Report.ok_ofFiles_iff.mpr fun path fault hfile => hnone ⟨path, fault, hfile⟩
      exact not_served_of_validation hf hstage files ⟨spec, hparsed, hmade, hok⟩

def gather (env : Environment) (pairs : List (String × Spec.Source)) : Outcome :=
  (pairs.map fun pair => single env pair.1 pair.2).foldl .append .empty

/-- An outcome in which a description between others shows only by its failure. -/
structure OnlyFails (env : Environment) (before after : List (String × Spec.Source)) (f : Failure)
    (o : Outcome) : Prop where
  files : o.files = (gather env (before ++ after)).files
  succeeded : o.succeeded = (gather env (before ++ after)).succeeded
  warnings : o.warnings = (gather env (before ++ after)).warnings
  failures : o.failures = (gather env before).failures ++ f :: (gather env after).failures

theorem Gathered.field_gather {α : Type} {field : Outcome → List α} (hgathered : Gathered field)
    (env : Environment) (pairs : List (String × Spec.Source)) :
    field (gather env pairs) = pairs.flatMap fun pair => field (single env pair.1 pair.2) := by
  rw [gather, hgathered.foldl, hgathered.empty, List.nil_append, List.flatMap_map]

theorem files_gather (env : Environment) (pairs : List (String × Spec.Source)) :
    (gather env pairs).files = (pairs.flatMap fun pair => (single env pair.1 pair.2).files).foldl
      (fun files (path, text) => putIfAbsent path text files) [] := by
  rw [gather, files_foldl_append, List.flatMap_map]
  rfl

/-- A description that fails before it has a server is passed over in all but the failures. -/
theorem gather_onlyFails (before after : List (String × Spec.Source)) {stage : Stage}
    {cause : Cause} (hfailed : single env name source = .failed name stage cause) :
    OnlyFails env before after ⟨name, stage, cause⟩
      (gather env (before ++ (name, source) :: after)) where
  files := by
    rw [files_gather, files_gather, List.flatMap_append, List.flatMap_append, List.flatMap_cons,
      hfailed, files_failed, List.nil_append]
  succeeded := by
    rw [gathered_succeeded.field_gather, gathered_succeeded.field_gather, List.flatMap_append,
      List.flatMap_append, List.flatMap_cons, hfailed, succeeded_failed, List.nil_append]
  warnings := by
    rw [gathered_warnings.field_gather, gathered_warnings.field_gather, List.flatMap_append,
      List.flatMap_append, List.flatMap_cons, hfailed]
    rfl
  failures := by
    rw [gathered_failures.field_gather, gathered_failures.field_gather,
      gathered_failures.field_gather, List.flatMap_append, List.flatMap_cons, hfailed]
    rfl

structure Gated (env : Environment) (sources : List Spec.Source) (o : Outcome) : Prop where
  python_accepted : ∀ path text, (path, text) ∈ o.files → Text.endsWith ".py" path = true →
    env.check text = .ok ()
  /-- A description with a rejected server file adds one failure, which lists the rejected files,
  and nothing else. -/
  rejected_only_fails : ∀ before name source after files,
    named sources = before ++ (name, source) :: after → Generated env source files →
    (∃ path fault, Rejected env.check files path fault) →
      ∃ cause found, OnlyFails env before after ⟨name, .validation, cause⟩ o ∧
        Lists env.check files cause.message found
  /-- No other description fails in validation. -/
  validation_rejected : ∀ f ∈ o.failures, f.stage = .validation →
    ∃ source files, (f.spec, source) ∈ named sources ∧ Generated env source files ∧
      ∃ path fault, Rejected env.check files path fault

/-- Every batch keeps the gate, whatever the names, the settings, the checker and the backend. -/
theorem run_gated (env : Environment) (sources : List Spec.Source) :
    Gated env sources (run env sources) where
  python_accepted := by
    intro path text hfile hpython
    rw [mem_iff_get? (inOrder_run env sources).nodup_keys] at hfile
    obtain ⟨name, source, _, horigin⟩ := run_origin hfile
    exact check_of_origin horigin hpython
  rejected_only_fails := by
    intro before name source after files hnamed hgenerated hrejected
    have hfailed := single_of_rejected name hgenerated hrejected
    refine ⟨.rejected (Report.ofFiles env.check files), Report.rejections env.check files, ?_,
      Report.message_lists hgenerated.inOrder⟩
    rw [run_eq_foldl, hnamed]
    exact gather_onlyFails before after hfailed
  validation_rejected := by
    intro f hf hstage
    rw [gathered_failures.field_run] at hf
    obtain ⟨⟨name, source⟩, hmember, hsingle⟩ := List.mem_flatMap.mp hf
    obtain ⟨files, hrejected⟩ := rejected_of_validation hsingle hstage
    rw [spec_of_mem_failures hsingle]
    exact ⟨source, files, hmember, hrejected⟩

end Gated

/-- A checker that rejects every file leaves only the failure of the one description, which lists
the modules of its server. -/
theorem run_gated_rejecting :
    let fault : Code.SyntaxFault := ⟨⟨0, 0⟩, "syntax error"⟩
    let env : Environment := ⟨.empty [], ⟨.default, true⟩, fun _ => .error fault, fun _ _ => .ok []⟩
    let source : Spec.Source := ⟨"shop", "title: Shop", none⟩
    let o := run env [source]
    ∃ files cause found, Generated env source files ∧ ("run.py", fault) ∈ found ∧
      Lists env.check files cause.message found ∧ o.failures = [⟨"shop", .validation, cause⟩] ∧
      o.files = [] ∧ o.succeeded = [] ∧ o.warnings = [] := by
  intro fault env source o
  have hparses : (source.parse env.fileSystem).toOption.isSome = true := by decide +kernel
  cases hparsed : source.parse env.fileSystem with
  | error fault =>
    rw [hparsed] at hparses
    cases hparses
  | ok spec =>
    have hcheck : ServerSettings.default.check = .ok () := by decide
    have hgenerated : Generated env source _ :=
      ⟨spec, hparsed, Server.generate_eq_ok_iff.mpr ⟨hcheck, rfl⟩⟩
    have hpath : "run.py" ∈ keys
        (Files.ofSources (Server.artifacts (.ofSpecification ServerSettings.default spec))) := by
      rw [Files.mem_keys_ofSources, Server.artifacts, List.map_append, List.map_append]
      apply List.mem_append_left
      apply List.mem_append_left
      simp [Server.fixedArtifacts]
    obtain ⟨text, htext⟩ := Option.isSome_iff_exists.mp ((get?_isSome_iff _ _).mpr hpath)
    have hrejected : Rejected env.check _ "run.py" fault :=
      ⟨by decide, text, mem_of_get? htext, rfl⟩
    obtain ⟨cause, found, honly, hlists⟩ := (run_gated env [source]).rejected_only_fails
      [] "shop" source [] _ rfl hgenerated ⟨"run.py", fault, hrejected⟩
    exact ⟨_, cause, found, hgenerated, (hlists.rejected_iff _ _).mpr hrejected, hlists,
      honly.failures, honly.files, honly.succeeded, honly.warnings⟩

end RamlScaffold.Batch

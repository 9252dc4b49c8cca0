import Mathlib.Data.List.Basic
import RamlScaffold.Batch
import RamlScaffold.Proofs.Document.Lookup

/-!
How the outcome of a batch comes about. The outcome of one description is taken apart once, in
`single_cases`, with all that each way out does; the outcome of a batch is described field by field
from the outcomes of its descriptions. The client backend and the source checker are arbitrary
functions throughout.
-/

namespace RamlScaffold.Batch

open Fields

variable {env : Environment} {name : String} {source : Spec.Source} {spec : Specification}
  {files : Files}

section Sets

variable [Yaml.EventSource]

/-- The server artifact set of a description: what is generated from it, if that is well-formed. -/
def ServerSet (env : Environment) (source : Spec.Source) (files : Files) : Prop :=
  ∃ spec, source.parse env.fileSystem = .ok spec ∧
    Server.generate env.settings.server spec = .ok files ∧
    (Report.ofFiles env.check files).ok = true

/-- The client artifact set of a description: what the backend makes of it, if a client is asked
for, the description has a server and the files are well-formed. -/
def ClientSet (env : Environment) (name : String) (source : Spec.Source) (files : Files) : Prop :=
  env.settings.generateClient = true ∧ (∃ server, ServerSet env source server) ∧
    ∃ spec, source.parse env.fileSystem = .ok spec ∧
      env.backend spec (ClientSettings.forSpec name env.settings.server.includeAuth
        env.settings.server.generateTests) = .ok files ∧
      (Report.ofFiles env.check files).ok = true

theorem not_serverSet_of_unparsed {fault : Spec.ParseFault}
    (hparsed : source.parse env.fileSystem = .error fault) (files : Files) :
    ¬ ServerSet env source files := by
  rintro ⟨spec, hparsed', _⟩
  rw [hparsed] at hparsed'
  cases hparsed'

theorem serverSet_iff (hparsed : source.parse env.fileSystem = .ok spec) :
    ServerSet env source files ↔ Server.generate env.settings.server spec = .ok files ∧
      (Report.ofFiles env.check files).ok = true := by
  simp [ServerSet, hparsed]

theorem clientSet_iff (hwanted : env.settings.generateClient = true)
    (hserver : ∃ server, ServerSet env source server)
    (hparsed : source.parse env.fileSystem = .ok spec) :
    ClientSet env name source files ↔
      env.backend spec (ClientSettings.forSpec name env.settings.server.includeAuth
        env.settings.server.generateTests) = .ok files ∧
      (Report.ofFiles env.check files).ok = true := by
  simp [ClientSet, hwanted, hserver, hparsed]

theorem ServerSet.unique {a b : Files} (ha : ServerSet env source a)
    (hb : ServerSet env source b) : a = b := by
  obtain ⟨spec, hparsed, hgenerated, _⟩ := ha
  have hgenerated' := ((serverSet_iff hparsed).mp hb).1
  exact Except.ok.inj (hgenerated.symm.trans hgenerated')

theorem ClientSet.unique {a b : Files} (ha : ClientSet env name source a)
    (hb : ClientSet env name source b) : a = b := by
  obtain ⟨hwanted, hserver, spec, hparsed, hmade, _⟩ := ha
  have hmade' := ((clientSet_iff hwanted hserver hparsed).mp hb).1
  exact Except.ok.inj (hmade.symm.trans hmade')

def served (env : Environment) (name : String) (files : Files) : Outcome :=
  { Outcome.accepted (name ++ "-flask") files (Report.ofFiles env.check files).warnings with
    succeeded := [name] }

/-- What the client adds: its files, or a failure when there is no client artifact set. -/
theorem client_cases (hwanted : env.settings.generateClient = true)
    (hserver : ∃ server, ServerSet env source server)
    (hparsed : source.parse env.fileSystem = .ok spec) :
    (∃ files, ClientSet env name source files ∧
      client env name spec =
        .accepted (name ++ "-client") files (Report.ofFiles env.check files).warnings) ∨
    ((∀ files, ¬ ClientSet env name source files) ∧
      ∃ cause, client env name spec = .failed name .clientGeneration cause) := by
  simp only [clientSet_iff hwanted hserver hparsed]
  cases hmade : env.backend spec (ClientSettings.forSpec name env.settings.server.includeAuth
      env.settings.server.generateTests) with
  | error fault => exact Or.inr ⟨by simp, .refused fault, by simp [client, hmade]⟩
  | ok files =>
    by_cases hvalid : (Report.ofFiles env.check files).ok = true
    · exact Or.inl ⟨files, ⟨rfl, hvalid⟩, by simp [client, hmade, hvalid]⟩
    · exact Or.inr ⟨by simp [hvalid], .rejected (Report.ofFiles env.check files),
        by simp [client, hmade, hvalid]⟩

/-- All that can become of one description: it fails before it has a server, or it has a server and
then no client is asked for, or the client is accepted, or the client fails. -/
theorem single_cases (env : Environment) (name : String) (source : Spec.Source) :
    ((∀ files, ¬ ServerSet env source files) ∧ ∃ stage cause, stage ≠ .clientGeneration ∧
      single env name source = .failed name stage cause) ∨
    ∃ files, ServerSet env source files ∧
      ((env.settings.generateClient = false ∧ single env name source = served env name files) ∨
      (∃ clientFiles, ClientSet env name source clientFiles ∧
        single env name source = (served env name files).append
          (.accepted (name ++ "-client") clientFiles
            (Report.ofFiles env.check clientFiles).warnings)) ∨
      ((∀ clientFiles, ¬ ClientSet env name source clientFiles) ∧
        env.settings.generateClient = true ∧ ∃ cause, single env name source =
          (served env name files).append (.failed name .clientGeneration cause))) := by
  cases hparsed : source.parse env.fileSystem with
  | error fault =>
    exact Or.inl ⟨not_serverSet_of_unparsed hparsed, .parse, .unparsed fault, by decide,
      by simp [single, hparsed]⟩
  | ok spec =>
    cases hgenerated : Server.generate env.settings.server spec with
    | error fault =>
      exact Or.inl ⟨by simp [serverSet_iff hparsed, hgenerated], .serverGeneration, .refused fault,
        by decide, by simp [single, hparsed, hgenerated]⟩
    | ok files =>
      by_cases hvalid : (Report.ofFiles env.check files).ok = true
      · have hserver : ServerSet env source files := ⟨spec, hparsed, hgenerated, hvalid⟩
        refine Or.inr ⟨files, hserver, ?_⟩
        by_cases hwanted : env.settings.generateClient = true
        · have hwhole : single env name source =
              (served env name files).append (client env name spec) := by
            simp [single, hparsed, hgenerated, hvalid, hwanted, served]
          rcases client_cases hwanted ⟨files, hserver⟩ hparsed with
            ⟨clientFiles, hclient, hmade⟩ | ⟨hnone, cause, hmade⟩
          · exact Or.inr (Or.inl ⟨clientFiles, hclient, by rw [hwhole, hmade]⟩)
          · exact Or.inr (Or.inr ⟨hnone, hwanted, cause, by rw [hwhole, hmade]⟩)
        · refine Or.inl ⟨by simpa using hwanted, ?_⟩
          simp [single, hparsed, hgenerated, hvalid, hwanted, served]
      · exact Or.inl ⟨by simp [serverSet_iff hparsed, hgenerated, hvalid], .validation,
          .rejected (Report.ofFiles env.check files), by decide,
          by simp [single, hparsed, hgenerated, hvalid]⟩

end Sets

namespace Outcome

def withoutServer (o : Outcome) : List String :=
  (o.failures.filter (·.stage != .clientGeneration)).map (·.spec)

def withoutClient (o : Outcome) : List String :=
  (o.failures.filter (·.stage == .clientGeneration)).map (·.spec)

@[simp] theorem succeeded_append (a b : Outcome) :
    (a.append b).succeeded = a.succeeded ++ b.succeeded := rfl

@[simp] theorem withoutServer_append (a b : Outcome) :
    (a.append b).withoutServer = a.withoutServer ++ b.withoutServer := by
  simp [withoutServer, append]

@[simp] theorem withoutClient_append (a b : Outcome) :
    (a.append b).withoutClient = a.withoutClient ++ b.withoutClient := by
  simp [withoutClient, append]

@[simp] theorem succeeded_failed (spec : String) (stage : Stage) (cause : Cause) :
    (failed spec stage cause).succeeded = [] := rfl

@[simp] theorem files_failed (spec : String) (stage : Stage) (cause : Cause) :
    (failed spec stage cause).files = [] := rfl

theorem withoutServer_failed (spec : String) (stage : Stage) (cause : Cause) :
    (failed spec stage cause).withoutServer =
      if stage = .clientGeneration then [] else [spec] := by
  cases stage <;> rfl

theorem withoutClient_failed (spec : String) (stage : Stage) (cause : Cause) :
    (failed spec stage cause).withoutClient =
      if stage = .clientGeneration then [spec] else [] := by
  cases stage <;> rfl

@[simp] theorem succeeded_accepted (directory : String) (files : Files) (warnings : List Finding) :
    (accepted directory files warnings).succeeded = [] := rfl

@[simp] theorem withoutServer_accepted (directory : String) (files : Files)
    (warnings : List Finding) : (accepted directory files warnings).withoutServer = [] := rfl

@[simp] theorem withoutClient_accepted (directory : String) (files : Files)
    (warnings : List Finding) : (accepted directory files warnings).withoutClient = [] := rfl

@[simp] theorem succeeded_served (env : Environment) (name : String) (files : Files) :
    (served env name files).succeeded = [name] := rfl

@[simp] theorem withoutServer_served (env : Environment) (name : String) (files : Files) :
    (served env name files).withoutServer = [] := rfl

@[simp] theorem withoutClient_served (env : Environment) (name : String) (files : Files) :
    (served env name files).withoutClient = [] := rfl

@[simp] theorem files_served (env : Environment) (name : String) (files : Files) :
    (served env name files).files = (accepted (name ++ "-flask") files []).files := rfl

/-- A file of the first outcome wins over one of the second with the same path. -/
@[simp] theorem get?_files_append (path : String) (a b : Outcome) :
    get? path (a.append b).files = (get? path a.files).or (get? path b.files) :=
  get?_foldl_putIfAbsent path a.files b.files

theorem get?_files_accepted (directory path : String) (files : Files) (warnings : List Finding) :
    get? (directory ++ "/" ++ path) (accepted directory files warnings).files = get? path files :=
  get?_map_below (directory ++ "/") path files

theorem below_of_mem_accepted {directory path : String} {files : Files} {warnings : List Finding}
    (hmember : path ∈ keys (accepted directory files warnings).files) :
    ∃ p, path = directory ++ "/" ++ p := by
  obtain ⟨p, _, rfl⟩ := mem_keys_map_below hmember
  exact ⟨p, rfl⟩

/-- Of several outcomes put together the first with a file of some path gives the file. -/
theorem get?_files_foldl_append (path : String) (outcomes : List Outcome) (o : Outcome) :
    get? path (outcomes.foldl append o).files =
      (get? path o.files).or (outcomes.findSome? fun each => get? path each.files) := by
  induction outcomes generalizing o with
  | nil => simp
  | cons next rest ih =>
    rw [List.foldl_cons, ih, get?_files_append, Option.or_assoc, List.findSome?_cons]
    cases get? path next.files <;> simp

theorem nodup_keys_foldl_append (outcomes : List Outcome) (o : Outcome)
    (hdistinct : (keys o.files).Nodup) : (keys (outcomes.foldl append o).files).Nodup := by
  induction outcomes generalizing o with
  | nil => exact hdistinct
  | cons next rest ih => exact ih _ (nodup_keys_foldl_putIfAbsent _ _ hdistinct)

end Outcome

def named (sources : List Spec.Source) : List (String × Spec.Source) := (names sources).zip sources

/-- A batch is the outcomes of its descriptions put together in order. -/
theorem run_eq_foldl [Yaml.EventSource] (env : Environment) (sources : List Spec.Source) :
    run env sources =
      ((named sources).map fun pair => single env pair.1 pair.2).foldl .append .empty := by
  rw [List.foldl_map]
  rfl

section Gathered

variable {α : Type} {field : Outcome → List α}

/-- A list that outcomes one after the other hold one after the other. -/
structure Gathered (field : Outcome → List α) : Prop where
  empty : field .empty = []
  append : ∀ a b : Outcome, field (a.append b) = field a ++ field b

theorem Gathered.foldl (hgathered : Gathered field) (outcomes : List Outcome) (o : Outcome) :
    field (outcomes.foldl Outcome.append o) = field o ++ outcomes.flatMap field := by
  induction outcomes generalizing o with
  | nil => simp
  | cons next rest ih =>
    rw [List.foldl_cons, ih, hgathered.append, List.append_assoc, List.flatMap_cons]

theorem Gathered.field_run [Yaml.EventSource] (hgathered : Gathered field) (env : Environment)
    (sources : List Spec.Source) :
    field (run env sources) =
      (named sources).flatMap fun pair => field (single env pair.1 pair.2) := by
  rw [run_eq_foldl, hgathered.foldl, hgathered.empty, List.nil_append, List.flatMap_map]

theorem gathered_succeeded : Gathered Outcome.succeeded := ⟨rfl, fun _ _ => rfl⟩

theorem gathered_failures : Gathered Outcome.failures := ⟨rfl, fun _ _ => rfl⟩

theorem gathered_warnings : Gathered Outcome.warnings := ⟨rfl, fun _ _ => rfl⟩

theorem gathered_withoutServer : Gathered Outcome.withoutServer :=
  ⟨rfl, Outcome.withoutServer_append⟩

theorem gathered_withoutClient : Gathered Outcome.withoutClient :=
  ⟨rfl, Outcome.withoutClient_append⟩

end Gathered

theorem get?_run [Yaml.EventSource] (env : Environment) (sources : List Spec.Source)
    (path : String) :
    get? path (run env sources).files =
      (named sources).findSome? fun pair => get? path (single env pair.1 pair.2).files := by
  rw [run_eq_foldl, Outcome.get?_files_foldl_append, List.findSome?_map, Function.comp_def]
  simp only [Outcome.empty, get?, Option.none_or]

/-- Every file of an accepted project is one of its artifacts, below the project's directory. -/
theorem get?_accepted_origin {directory path text : String} {files : Files}
    {warnings : List Finding}
    (hfound : get? path (Outcome.accepted directory files warnings).files = some text) :
    ∃ p, get? p files = some text ∧ path = directory ++ "/" ++ p := by
  obtain ⟨p, rfl⟩ := Outcome.below_of_mem_accepted (mem_keys_of_get? hfound)
  rw [Outcome.get?_files_accepted] at hfound
  exact ⟨p, hfound, rfl⟩

/-- The file of a description at a path is an artifact of its server or of its client. -/
def Origin [Yaml.EventSource] (env : Environment) (name : String) (source : Spec.Source)
    (path text : String) : Prop :=
  (∃ files p, ServerSet env source files ∧ get? p files = some text ∧
      path = name ++ "-flask" ++ "/" ++ p) ∨
    ∃ files p, ClientSet env name source files ∧ get? p files = some text ∧
      path = name ++ "-client" ++ "/" ++ p

theorem single_origin [Yaml.EventSource] {path text : String}
    (hfound : get? path (single env name source).files = some text) :
    Origin env name source path text := by
  have hserved {files : Files} (hset : ServerSet env source files)
      (hserver : get? path (served env name files).files = some text) :
      Origin env name source path text := by
    rw [Outcome.files_served] at hserver
    obtain ⟨p, hp⟩ := get?_accepted_origin hserver
    exact Or.inl ⟨files, p, hset, hp⟩
  rcases single_cases env name source with
    ⟨_, stage, cause, _, hwhole⟩ | ⟨files, hset, ⟨_, hwhole⟩ | ⟨clientFiles, hclient, hwhole⟩ |
      ⟨_, _, cause, hwhole⟩⟩ <;> rw [hwhole] at hfound
  · cases hfound
  · exact hserved hset hfound
  · rw [Outcome.get?_files_append, Option.or_eq_some_iff] at hfound
    rcases hfound with hserver | ⟨_, hmade⟩
    · exact hserved hset hserver
    · obtain ⟨p, hp⟩ := get?_accepted_origin hmade
      exact Or.inr ⟨clientFiles, p, hclient, hp⟩
  · rw [Outcome.get?_files_append, Outcome.files_failed, get?, Option.or_none] at hfound
    exact hserved hset hfound

/-- Every file of a batch comes from one of its descriptions under the name given to it. -/
theorem run_origin [Yaml.EventSource] {sources : List Spec.Source} {path text : String}
    (hfound : get? path (run env sources).files = some text) :
    ∃ name source, (name, source) ∈ named sources ∧ Origin env name source path text := by
  rw [get?_run] at hfound
  obtain ⟨⟨name, source⟩, hmember, hsingle⟩ := List.exists_of_findSome?_eq_some hfound
  exact ⟨name, source, hmember, single_origin hsingle⟩

end RamlScaffold.Batch

import Mathlib.Data.List.Flatten
import Mathlib.Data.List.Nodup
import Mathlib.Data.List.Perm.Basic
import RamlScaffold.Proofs.Batch.Outcome
import RamlScaffold.Proofs.Naming.Fresh

/-!
What a batch accounts for. Every description is reported once under a name of its own, either as
having a server or as having failed before it had one, and the files of the batch are exactly the
accepted artifact sets, each below the directory of its project. The sets never meet, so keeping
the earlier of two files with one path never drops a file.
-/

namespace RamlScaffold.Batch

open Fields Outcome

variable {env : Environment} {name : String} {source : Spec.Source} {files : Files}

/-- The names of a batch hold no slash when the names of its descriptions hold none. -/
theorem names_plain (sources : List Spec.Source) (hplain : ∀ s ∈ sources, '/' ∉ s.name.toList) :
    ∀ name ∈ names sources, '/' ∉ name.toList := by
  apply Naming.freshAll_forall
  intro base hmember
  obtain ⟨s, hbatch, rfl⟩ := List.mem_map.mp hmember
  refine ⟨hplain s hbatch, ?_⟩
  intro i hslash
  simp only [Naming.numbered, String.toList_append, List.mem_append, Nat.toString_eq_repr,
    Nat.toList_repr] at hslash
  rcases hslash with (hname | hmark) | hdigits
  · exact hplain s hbatch hname
  · exact absurd hmark (by decide)
  · have hdigit := Nat.isDigit_of_mem_toDigits (by omega) (by omega) hdigits
    exact absurd hdigit (by decide)

private theorem takeWhile_to_slash {cs : List Char} (hplain : '/' ∉ cs) (rest : List Char) :
    (cs ++ '/' :: rest).takeWhile (· != '/') = cs := by
  have hkeeps : ∀ c ∈ cs, (c != '/') = true := by
    intro c hmember
    simpa using fun hsame : c = '/' => hplain (hsame ▸ hmember)
  rw [List.takeWhile_append_of_pos hkeeps]
  simp

/-- A path below a directory without slashes determines the directory and the rest. -/
theorem below_unique {a b p q : String} (ha : '/' ∉ a.toList) (hb : '/' ∉ b.toList)
    (hsame : a ++ "/" ++ p = b ++ "/" ++ q) : a = b ∧ p = q := by
  have hchars : a.toList ++ '/' :: p.toList = b.toList ++ '/' :: q.toList := by
    simpa using congrArg String.toList hsame
  have hdirectories : a.toList = b.toList := by
    rw [← takeWhile_to_slash ha p.toList, hchars, takeWhile_to_slash hb]
  have hrest : p.toList = q.toList := by
    simpa [hdirectories] using hchars
  exact ⟨String.toList_inj.mp hdirectories, String.toList_inj.mp hrest⟩

def Below (name path : String) : Prop :=
  ∃ p, path = name ++ "-flask" ++ "/" ++ p ∨ path = name ++ "-client" ++ "/" ++ p

theorem not_mem_directory (hplain : '/' ∉ name.toList) (suffix : String)
    (hs : '/' ∉ suffix.toList) : '/' ∉ (name ++ suffix).toList := by
  simp [hplain, hs]

theorem flask_ne_client (a b : String) : a ++ "-flask" ≠ b ++ "-client" := by
  intro hsame
  have hends := congrArg (fun s : String => s.toList.getLast?) hsame
  simp at hends

/-- Two names without slashes share no path. -/
theorem below_same_name {a b path : String} (ha : '/' ∉ a.toList) (hb : '/' ∉ b.toList)
    (hpathA : Below a path) (hpathB : Below b path) : a = b := by
  have hslashless (c : String) (hc : '/' ∉ c.toList) :
      '/' ∉ (c ++ "-flask").toList ∧ '/' ∉ (c ++ "-client").toList :=
    ⟨not_mem_directory hc _ (by decide), not_mem_directory hc _ (by decide)⟩
  obtain ⟨hflaskA, hclientA⟩ := hslashless a ha
  obtain ⟨hflaskB, hclientB⟩ := hslashless b hb
  obtain ⟨p, rfl | rfl⟩ := hpathA <;> obtain ⟨q, hsame | hsame⟩ := hpathB
  · exact (String.append_left_inj "-flask").mp (below_unique hflaskA hflaskB hsame).1
  · exact absurd (below_unique hflaskA hclientB hsame).1 (flask_ne_client a b)
  · exact absurd (below_unique hclientA hflaskB hsame).1.symm (flask_ne_client b a)
  · exact (String.append_left_inj "-client").mp (below_unique hclientA hclientB hsame).1

theorem get?_accepted_eq_none {directory path : String} (warnings : List Finding)
    (houtside : ∀ p, path ≠ directory ++ "/" ++ p) :
    get? path (accepted directory files warnings).files = none := by
  rw [get?_eq_none_iff]
  intro hmember
  obtain ⟨p, hsame⟩ := below_of_mem_accepted hmember
  exact houtside p hsame

theorem length_names (sources : List Spec.Source) : (names sources).length = sources.length := by
  simp [names]

theorem map_fst_named (sources : List Spec.Source) : (named sources).map (·.1) = names sources :=
  List.map_fst_zip (Nat.le_of_eq (length_names sources))

theorem mem_names_of_mem_named {sources : List Spec.Source}
    (hmember : (name, source) ∈ named sources) : name ∈ names sources := by
  rw [← map_fst_named]
  exact List.mem_map.mpr ⟨_, hmember, rfl⟩

theorem named_source_unique {sources : List Spec.Source} {source' : Spec.Source}
    (hmember : (name, source) ∈ named sources) (hmember' : (name, source') ∈ named sources) :
    source = source' := by
  have hdistinct : ((named sources).map (·.1)).Nodup := by
    rw [map_fst_named]
    exact Naming.freshAll_nodup [] _
  exact congrArg Prod.snd (List.inj_on_of_nodup_map hdistinct hmember hmember' rfl)

private theorem findSome?_eq_of_others_none {α β : Type} {l : List α} {f : α → Option β} {a : α}
    (hmember : a ∈ l) (hothers : ∀ b ∈ l, f b = none ∨ b = a) : l.findSome? f = f a := by
  cases hfound : l.findSome? f with
  | none => exact (List.findSome?_eq_none_iff.mp hfound a hmember).symm
  | some v =>
    obtain ⟨b, hinside, hvalue⟩ := List.exists_of_findSome?_eq_some hfound
    rcases hothers b hinside with hnone | hsame
    · rw [hnone] at hvalue
      cases hvalue
    · rw [← hsame, hvalue]

section Accounts

variable [Yaml.EventSource]

/-- A description is reported once: as having a server, which is when it has a server artifact
set, or as having failed before. A failed client is reported beside a server, if it was wanted. -/
theorem single_reports (env : Environment) (name : String) (source : Spec.Source) :
    (single env name source).succeeded ++ (single env name source).withoutServer = [name] ∧
    (name ∈ (single env name source).succeeded ↔ ∃ files, ServerSet env source files) ∧
    (single env name source).withoutClient.Sublist (single env name source).succeeded ∧
    ((single env name source).withoutClient ≠ [] → env.settings.generateClient = true) := by
  rcases single_cases env name source with
    ⟨hnoServer, stage, cause, hearly, hwhole⟩ | ⟨files, hserver, ⟨_, hwhole⟩ |
      ⟨clientFiles, hclient, hwhole⟩ | ⟨_, hwanted, cause, hwhole⟩⟩ <;> rw [hwhole]
  · simp [withoutServer_failed, withoutClient_failed, hearly, hnoServer]
  · have hset : ∃ files, ServerSet env source files := ⟨files, hserver⟩
    simp [hset]
  · have hset : ∃ files, ServerSet env source files := ⟨files, hserver⟩
    simp [hset]
  · have hset : ∃ files, ServerSet env source files := ⟨files, hserver⟩
    simp [withoutServer_failed, withoutClient_failed, hset, hwanted]

/-- The files of one description lie in its own two directories. -/
theorem single_below {path : String} (hmember : path ∈ keys (single env name source).files) :
    Below name path := by
  by_contra houtside
  have hnotFlask : ∀ p, path ≠ name ++ "-flask" ++ "/" ++ p :=
    fun p hsame => houtside ⟨p, Or.inl hsame⟩
  have hnotClient : ∀ p, path ≠ name ++ "-client" ++ "/" ++ p :=
    fun p hsame => houtside ⟨p, Or.inr hsame⟩
  rw [← get?_isSome_iff] at hmember
  rcases single_cases env name source with
    ⟨_, stage, cause, _, hwhole⟩ | ⟨files, _, ⟨_, hwhole⟩ | ⟨clientFiles, _, hwhole⟩ |
      ⟨_, _, cause, hwhole⟩⟩ <;> rw [hwhole] at hmember
  · simp [get?] at hmember
  · simp [get?_accepted_eq_none _ hnotFlask] at hmember
  · simp [get?_accepted_eq_none _ hnotFlask, get?_accepted_eq_none _ hnotClient] at hmember
  · simp [get?_accepted_eq_none _ hnotFlask, get?] at hmember

/-- The server directory of a description holds its server artifact set, or nothing. -/
theorem get?_single_server (hplain : '/' ∉ name.toList) (path : String) :
    (∀ files, ServerSet env source files →
      get? (name ++ "-flask" ++ "/" ++ path) (single env name source).files = get? path files) ∧
    ((∀ files, ¬ ServerSet env source files) →
      get? (name ++ "-flask" ++ "/" ++ path) (single env name source).files = none) := by
  have hnotClient : ∀ p, name ++ "-flask" ++ "/" ++ path ≠ name ++ "-client" ++ "/" ++ p := by
    intro p hsame
    exact flask_ne_client name name (below_unique (not_mem_directory hplain _ (by decide))
      (not_mem_directory hplain _ (by decide)) hsame).1
  rcases single_cases env name source with
    ⟨hnoServer, stage, cause, _, hwhole⟩ | ⟨files, hserver, ⟨_, hwhole⟩ |
      ⟨clientFiles, _, hwhole⟩ | ⟨_, _, cause, hwhole⟩⟩ <;> rw [hwhole]
  · exact ⟨fun files hset => absurd hset (hnoServer files), fun _ => rfl⟩
  all_goals
    refine ⟨?_, fun hnone => absurd hserver (hnone files)⟩
    intro files' hset
    rw [hset.unique hserver]
    simp [get?_files_accepted, get?_accepted_eq_none _ hnotClient, get?]

/-- The client directory of a description holds its client artifact set, or nothing. -/
theorem get?_single_client (hplain : '/' ∉ name.toList) (path : String) :
    (∀ files, ClientSet env name source files →
      get? (name ++ "-client" ++ "/" ++ path) (single env name source).files = get? path files) ∧
    ((∀ files, ¬ ClientSet env name source files) →
      get? (name ++ "-client" ++ "/" ++ path) (single env name source).files = none) := by
  have hnotFlask : ∀ p, name ++ "-client" ++ "/" ++ path ≠ name ++ "-flask" ++ "/" ++ p := by
    intro p hsame
    exact flask_ne_client name name (below_unique (not_mem_directory hplain _ (by decide))
      (not_mem_directory hplain _ (by decide)) hsame).1.symm
  rcases single_cases env name source with
    ⟨hnoServer, stage, cause, _, hwhole⟩ | ⟨serverFiles, hserver, ⟨hunwanted, hwhole⟩ |
      ⟨clientFiles, hclient, hwhole⟩ | ⟨hnoClient, _, cause, hwhole⟩⟩ <;> rw [hwhole]
  · refine ⟨?_, fun _ => rfl⟩
    rintro files ⟨_, ⟨server, hset⟩, _⟩
    exact absurd hset (hnoServer server)
  · refine ⟨?_, fun _ => by simp [get?_accepted_eq_none _ hnotFlask]⟩
    rintro files ⟨hwanted, _⟩
    rw [hunwanted] at hwanted
    cases hwanted
  · refine ⟨?_, fun hnone => absurd hclient (hnone clientFiles)⟩
    intro files hset
    rw [hset.unique hclient]
    simp [get?_files_accepted, get?_accepted_eq_none _ hnotFlask]
  · refine ⟨fun files hset => absurd hset (hnoClient files), ?_⟩
    intro _
    simp [get?_accepted_eq_none _ hnotFlask, get?]

/-- In the directories of a name the batch holds what the description of that name contributes:
no other description has a path there. -/
theorem get?_run_of_below {sources : List Spec.Source}
    (hplain : ∀ s ∈ sources, '/' ∉ s.name.toList) (hmember : (name, source) ∈ named sources)
    {path : String} (hbelow : Below name path) :
    get? path (run env sources).files = get? path (single env name source).files := by
  rw [get?_run]
  apply findSome?_eq_of_others_none hmember
  rintro ⟨other, otherSource⟩ hbatch
  by_cases hpresent : path ∈ keys (single env other otherSource).files
  · have hplainNames := names_plain sources hplain
    have hsame : other = name := below_same_name
      (hplainNames other (mem_names_of_mem_named hbatch))
      (hplainNames name (mem_names_of_mem_named hmember)) (single_below hpresent) hbelow
    subst hsame
    exact Or.inr (by rw [named_source_unique hbatch hmember])
  · exact Or.inl ((get?_eq_none_iff path _).mpr hpresent)

theorem mem_succeeded_run {sources : List Spec.Source} (hmember : (name, source) ∈ named sources) :
    name ∈ (run env sources).succeeded ↔ ∃ files, ServerSet env source files := by
  rw [gathered_succeeded.field_run, ← (single_reports env name source).2.1]
  constructor
  · intro hreported
    obtain ⟨⟨other, otherSource⟩, hbatch, hsingle⟩ := List.mem_flatMap.mp hreported
    have hsameName : name = other := by
      have hwhole := (single_reports env other otherSource).1
      have hmem : name ∈ [other] := hwhole ▸ List.mem_append_left _ hsingle
      exact List.mem_singleton.mp hmem
    subst hsameName
    rwa [named_source_unique hmember hbatch]
  · intro hreported
    exact List.mem_flatMap.mpr ⟨(name, source), hmember, hreported⟩

/-- What an outcome owes the descriptions of a batch. -/
structure Accounted (env : Environment) (sources : List Spec.Source) (o : Outcome) : Prop where
  names_distinct : (names sources).Nodup
  one_name_each : (names sources).length = sources.length
  /-- Each name stands once, among those with a server or among those that failed before. -/
  reported_once : (o.succeeded ++ o.withoutServer).Perm (names sources)
  succeeded_in_order : o.succeeded.Sublist (names sources)
  withoutServer_in_order : o.withoutServer.Sublist (names sources)
  /-- A client only fails beside a server, once for each, and if it was asked for. -/
  client_failures : o.withoutClient.Nodup ∧ ∀ name ∈ o.withoutClient,
    name ∈ o.succeeded ∧ env.settings.generateClient = true
  /-- Below the server directory of a name stands the whole server artifact set, unchanged. -/
  server_files : ∀ name source, (name, source) ∈ named sources → name ∈ o.succeeded →
    ∃ files, ServerSet env source files ∧
      ∀ path, get? (name ++ "-flask" ++ "/" ++ path) o.files = get? path files
  no_server_files : ∀ name source, (name, source) ∈ named sources → name ∉ o.succeeded →
    ∀ path, get? (name ++ "-flask" ++ "/" ++ path) o.files = none
  /-- Below the client directory stands the whole set that was asked for, made and accepted. -/
  client_files : ∀ name source, (name, source) ∈ named sources →
    ∀ files, ClientSet env name source files →
      ∀ path, get? (name ++ "-client" ++ "/" ++ path) o.files = get? path files
  no_client_files : ∀ name source, (name, source) ∈ named sources →
    (∀ files, ¬ ClientSet env name source files) →
      ∀ path, get? (name ++ "-client" ++ "/" ++ path) o.files = none
  /-- There are no files outside these directories, and no path stands twice. -/
  nothing_else : ∀ path ∈ keys o.files, ∃ name ∈ names sources, Below name path
  paths_distinct : (keys o.files).Nodup

theorem succeeded_sublist_names (env : Environment) (sources : List Spec.Source) :
    (run env sources).succeeded.Sublist (names sources) ∧
      (run env sources).withoutServer.Sublist (names sources) := by
  rw [gathered_succeeded.field_run, gathered_withoutServer.field_run, ← map_fst_named,
    List.map_eq_flatMap]
  constructor <;> apply List.Sublist.flatMap_right <;> rintro ⟨name, source⟩ _ <;>
    rw [← (single_reports env name source).1]
  · exact List.sublist_append_left _ _
  · exact List.sublist_append_right _ _

theorem reported_perm_names (env : Environment) (sources : List Spec.Source) :
    ((run env sources).succeeded ++ (run env sources).withoutServer).Perm (names sources) := by
  rw [gathered_succeeded.field_run, gathered_withoutServer.field_run, ← map_fst_named,
    List.map_eq_flatMap]
  have heach : (fun pair : String × Spec.Source => (single env pair.1 pair.2).succeeded ++
      (single env pair.1 pair.2).withoutServer) = fun pair => [pair.1] :=
    funext fun pair => (single_reports env pair.1 pair.2).1
  rw [← heach]
  exact List.flatMap_append_perm _ _ _

theorem withoutClient_sublist_succeeded (env : Environment) (sources : List Spec.Source) :
    (run env sources).withoutClient.Sublist (run env sources).succeeded := by
  rw [gathered_succeeded.field_run, gathered_withoutClient.field_run]
  apply List.Sublist.flatMap_right
  rintro ⟨name, source⟩ _
  exact (single_reports env name source).2.2.1

theorem client_wanted_of_mem_withoutClient {sources : List Spec.Source}
    (hfailed : name ∈ (run env sources).withoutClient) : env.settings.generateClient = true := by
  rw [gathered_withoutClient.field_run] at hfailed
  obtain ⟨⟨other, source⟩, _, hsingle⟩ := List.mem_flatMap.mp hfailed
  exact (single_reports env other source).2.2.2 (List.ne_nil_of_mem hsingle)

/-- Every batch accounts for its descriptions, whatever the backend and the checker do, provided
that no name holds a slash: a slash in a name could lead into the directory of another project. -/
theorem run_accounts (env : Environment) (sources : List Spec.Source)
    (hplain : ∀ s ∈ sources, '/' ∉ s.name.toList) :
    Accounted env sources (run env sources) where
  names_distinct := Naming.freshAll_nodup [] _
  one_name_each := length_names sources
  reported_once := reported_perm_names env sources
  succeeded_in_order := (succeeded_sublist_names env sources).1
  withoutServer_in_order := (succeeded_sublist_names env sources).2
  client_failures := by
    have honce := withoutClient_sublist_succeeded env sources
    have hdistinct : (run env sources).succeeded.Nodup :=
      (succeeded_sublist_names env sources).1.nodup (Naming.freshAll_nodup [] _)
    exact ⟨honce.nodup hdistinct, fun name hfailed =>
      ⟨honce.subset hfailed, client_wanted_of_mem_withoutClient hfailed⟩⟩
  server_files := by
    intro name source hmember hsucceeded
    obtain ⟨files, hserver⟩ := (mem_succeeded_run hmember).mp hsucceeded
    refine ⟨files, hserver, fun path => ?_⟩
    have hplainName := names_plain sources hplain name (mem_names_of_mem_named hmember)
    rw [get?_run_of_below hplain hmember ⟨path, Or.inl rfl⟩]
    exact (get?_single_server hplainName path).1 files hserver
  no_server_files := by
    intro name source hmember hfailed path
    have hnoServer : ∀ files, ¬ ServerSet env source files :=
      fun files hset => hfailed ((mem_succeeded_run hmember).mpr ⟨files, hset⟩)
    have hplainName := names_plain sources hplain name (mem_names_of_mem_named hmember)
    rw [get?_run_of_below hplain hmember ⟨path, Or.inl rfl⟩]
    exact (get?_single_server hplainName path).2 hnoServer
  client_files := by
    intro name source hmember files hclient path
    have hplainName := names_plain sources hplain name (mem_names_of_mem_named hmember)
    rw [get?_run_of_below hplain hmember ⟨path, Or.inr rfl⟩]
    exact (get?_single_client hplainName path).1 files hclient
  no_client_files := by
    intro name source hmember hnoClient path
    have hplainName := names_plain sources hplain name (mem_names_of_mem_named hmember)
    rw [get?_run_of_below hplain hmember ⟨path, Or.inr rfl⟩]
    exact (get?_single_client hplainName path).2 hnoClient
  nothing_else := by
    intro path hpresent
    rw [← get?_isSome_iff, get?_run] at hpresent
    obtain ⟨text, hfound⟩ := Option.isSome_iff_exists.mp hpresent
    obtain ⟨⟨name, source⟩, hmember, hsingle⟩ := List.exists_of_findSome?_eq_some hfound
    exact ⟨name, mem_names_of_mem_named hmember, single_below (mem_keys_of_get? hsingle)⟩
  paths_distinct := by
    rw [run_eq_foldl]
    exact nodup_keys_foldl_append _ _ List.nodup_nil

end Accounts

/-- Two descriptions of one name, of which the first is empty, and a backend that refuses. -/
theorem run_accounts_same_name :
    let env : Environment := ⟨.empty [], ⟨.default, true⟩, fun _ => .ok (),
      fun spec _ => .error (.refused spec.title)⟩
    let sources : List Spec.Source := [⟨"shop", "", none⟩, ⟨"shop", "title: Shop", none⟩]
    names sources = ["shop", "shop_1"] ∧ Accounted env sources (run env sources) :=
  ⟨by decide, run_accounts _ _ (by decide)⟩

end RamlScaffold.Batch

import RamlScaffold.Command.Run
import RamlScaffold.Proofs.Artifact.Files
import RamlScaffold.Proofs.Batch.Accounting
import RamlScaffold.Proofs.Validation.Report

/-!
How a command accounts for the paths it is given. Every path is reported once, as having a server
or as having failed before it had one. The descriptions that can be read get names of their own
from the batch. A path that cannot be read never enters the batch: it is reported under the name of
its file as it stands, which another path may have too. The names are distinct exactly if this does
not happen.
-/

namespace RamlScaffold.Command

open Batch (names)

variable {tools : Tools} {fs : FileSystem} {specs : List String} {settingsFile : Option String}
  {overrides : Settings.Overrides} {settings : Settings}

def batchNames (fs : FileSystem) (specs : List String) : List String :=
  Naming.freshAll [] ((specs.filter fun path => (fs.read path).isOk).map Spec.nameOfPath)

def unreadNames (fs : FileSystem) (specs : List String) : List String :=
  (specs.filter fun path => !(fs.read path).isOk).map Spec.nameOfPath

/-- Reading divides the paths: a path gives a description of its name or a failure of its name,
which comes before all other work on it. -/
theorem sources_divide (fs : FileSystem) (specs : List String) :
    (sources fs specs).1.map (·.name) =
        (specs.filter fun path => (fs.read path).isOk).map Spec.nameOfPath ∧
      (sources fs specs).2.map (·.spec) = unreadNames fs specs ∧
      ∀ f ∈ (sources fs specs).2, f.stage = .parse := by
  induction specs with
  | nil => simp [sources, unreadNames]
  | cons path rest ih =>
    obtain ⟨hfound, hlost, hstage⟩ := ih
    unfold unreadNames at hlost ⊢
    cases hread : fs.read path with
    | ok text =>
      simpa [sources, Spec.Source.ofPath, hread, Except.isOk, Except.toBool, hfound, hlost]
        using hstage
    | error fault =>
      simpa [sources, Spec.Source.ofPath, hread, Except.isOk, Except.toBool, hfound, hlost]
        using hstage

theorem names_sources (fs : FileSystem) (specs : List String) :
    names (sources fs specs).1 = batchNames fs specs := by
  rw [names, (sources_divide fs specs).1, batchNames]

theorem length_names_paths (fs : FileSystem) (specs : List String) :
    (batchNames fs specs ++ unreadNames fs specs).length = specs.length := by
  have hsplit := List.length_eq_length_filter_add (l := specs) fun path => (fs.read path).isOk
  simp [batchNames, unreadNames, hsplit]

/-- Failures of reading are added to those before a server. -/
theorem withoutServer_add {o : Batch.Outcome} {lost : List Batch.Failure}
    (hstage : ∀ f ∈ lost, f.stage = .parse) :
    Batch.Outcome.withoutServer { o with failures := o.failures ++ lost } =
      o.withoutServer ++ lost.map (·.spec) := by
  have hall : lost.filter (·.stage != .clientGeneration) = lost := by
    rw [List.filter_eq_self]
    intro f hf
    rw [hstage f hf]
    decide
  simp [Batch.Outcome.withoutServer, hall]

structure AccountsFor (fs : FileSystem) (specs : List String) (o : Batch.Outcome) : Prop where
  /-- The names of the batch and those of the unread files stand once each. -/
  reported_once :
    (o.succeeded ++ o.withoutServer).Perm (batchNames fs specs ++ unreadNames fs specs)
  one_each : (o.succeeded ++ o.withoutServer).length = specs.length
  distinct_iff : (o.succeeded ++ o.withoutServer).Nodup ↔
    (unreadNames fs specs).Nodup ∧ ∀ name ∈ unreadNames fs specs, name ∉ batchNames fs specs
  /-- A name is reported both ways only if it is a batch name that succeeded and the file name of a
  path that cannot be read. -/
  both_iff : ∀ name, (name ∈ o.succeeded ∧ name ∈ o.withoutServer) ↔
    name ∈ o.succeeded ∧ name ∈ unreadNames fs specs

section Paths

variable [Yaml.EventSource]

/-- The outcome of a command: that of the batch, with the failures of reading after all others. -/
def outcomeOf (env : Batch.Environment) (specs : List String) : Batch.Outcome :=
  let outcome := Batch.run env (sources env.fileSystem specs).1
  { outcome with failures := outcome.failures ++ (sources env.fileSystem specs).2 }

theorem batch_eq_ok (hsettings : Settings.resolve fs settingsFile specs.head? = .ok settings) :
    batch tools fs specs settingsFile overrides =
      .ok (outcomeOf ⟨fs, settings.override overrides, tools.check, tools.backend⟩ specs) := by
  simp [batch, hsettings, outcomeOf, bind, Except.bind, pure, Except.pure]

theorem succeeded_outcomeOf (env : Batch.Environment) (specs : List String) :
    (outcomeOf env specs).succeeded =
      (Batch.run env (sources env.fileSystem specs).1).succeeded := rfl

theorem withoutServer_outcomeOf (env : Batch.Environment) (specs : List String) :
    (outcomeOf env specs).withoutServer =
      (Batch.run env (sources env.fileSystem specs).1).withoutServer ++
        unreadNames env.fileSystem specs := by
  obtain ⟨_, hlost, hstage⟩ := sources_divide env.fileSystem specs
  rw [← hlost]
  exact withoutServer_add hstage

theorem accountsFor_outcomeOf (env : Batch.Environment) (specs : List String) :
    AccountsFor env.fileSystem specs (outcomeOf env specs) := by
  set o := Batch.run env (sources env.fileSystem specs).1
  have hserved := succeeded_outcomeOf env specs
  have hwithout := withoutServer_outcomeOf env specs
  have hbatch : (o.succeeded ++ o.withoutServer).Perm (batchNames env.fileSystem specs) := by
    rw [← names_sources]
    exact Batch.reported_perm_names env _
  have hdistinct : (batchNames env.fileSystem specs).Nodup := Naming.freshAll_nodup [] _
  have hperm : ((outcomeOf env specs).succeeded ++ (outcomeOf env specs).withoutServer).Perm
      (batchNames env.fileSystem specs ++ unreadNames env.fileSystem specs) := by
    rw [hserved, hwithout, ← List.append_assoc]
    exact hbatch.append_right _
  refine ⟨hperm, ?_, ?_, ?_⟩
  · rw [hperm.length_eq, length_names_paths]
  · rw [hperm.nodup_iff, List.nodup_append]
    constructor
    · rintro ⟨_, honce, hapart⟩
      exact ⟨honce, fun name hunread hname => hapart name hname name hunread rfl⟩
    · rintro ⟨honce, hapart⟩
      refine ⟨hdistinct, honce, ?_⟩
      rintro name hname _ hunread rfl
      exact hapart name hunread hname
  · intro name
    rw [hserved, hwithout, List.mem_append]
    constructor
    · rintro ⟨hname, hfailed | hunread⟩
      · -- in the batch itself the two kinds of names are apart
        have hapart := (List.nodup_append.mp (hbatch.nodup_iff.mpr hdistinct)).2.2
        exact absurd rfl (hapart name hname name hfailed)
      · exact ⟨hname, hunread⟩
    · rintro ⟨hname, hunread⟩
      exact ⟨hname, Or.inr hunread⟩

/-- Once the settings are found, a command has an outcome for all of its paths, readable or not,
and every path is reported in it once. -/
theorem batch_accounts_for_paths
    (hsettings : Settings.resolve fs settingsFile specs.head? = .ok settings) :
    ∃ outcome, batch tools fs specs settingsFile overrides = .ok outcome ∧
      AccountsFor fs specs outcome := by
  exact ⟨_, batch_eq_ok hsettings,
    accountsFor_outcomeOf ⟨fs, settings.override overrides, tools.check, tools.backend⟩ specs⟩

end Paths

def oneVersion : FileSystem :=
  ⟨[(["v1", "shop.raml"], .text "title: Shop")], [["v1"]], [], []⟩

theorem batch_accounts_for_paths_oneVersion :
    let specs := ["v1/shop.raml", "v2/shop.raml", "v1/shop.raml"]
    Settings.resolve oneVersion none specs.head? = .ok .default ∧
      batchNames oneVersion specs = ["shop", "shop_1"] ∧ unreadNames oneVersion specs = ["shop"] ∧
      ∃ outcome, batch ⟨fun _ => .ok (), fun _ _ => .ok []⟩ oneVersion specs none .empty =
        .ok outcome ∧ AccountsFor oneVersion specs outcome := by
  intro specs
  have hsettings : Settings.resolve oneVersion none specs.head? = .ok .default := by rfl
  exact ⟨hsettings, by decide, by decide, batch_accounts_for_paths hsettings⟩

/-- One name for two paths: the file that can be read succeeds under the name that the missing one
fails under. -/
theorem shop_succeeds_and_fails :
    ∃ outcome, batch ⟨fun _ => .ok (), fun _ _ => .ok []⟩ oneVersion
        ["v1/shop.raml", "v2/shop.raml"] none .empty = .ok outcome ∧
      "shop" ∈ outcome.succeeded ∧ "shop" ∈ outcome.withoutServer ∧
      ¬ (outcome.succeeded ++ outcome.withoutServer).Nodup := by
  let specs := ["v1/shop.raml", "v2/shop.raml"]
  let source : Spec.Source := ⟨"shop", "title: Shop", some "v1"⟩
  let env : Batch.Environment := ⟨oneVersion, .default, fun _ => .ok (), fun _ _ => .ok []⟩
  have hsettings : Settings.resolve oneVersion none specs.head? = .ok .default := by rfl
  have hsources : (sources oneVersion specs).1 = [source] := by decide
  have hparses : (source.parse oneVersion).toOption.isSome = true := by decide +kernel
  have hserver : ∃ files, Batch.ServerSet env source files := by
    cases hparsed : source.parse oneVersion with
    | error fault =>
      rw [hparsed] at hparses
      cases hparses
    | ok spec =>
      refine ⟨_, spec, hparsed, Server.generate_eq_ok_iff.mpr ⟨by decide, rfl⟩, ?_⟩
      rw [Report.ok_ofFiles_iff]
      rintro path fault ⟨_, text, _, hrejected⟩
      cases hrejected
  have hserved : "shop" ∈ (outcomeOf env specs).succeeded := by
    have hnamed : ("shop", source) ∈ Batch.named (sources oneVersion specs).1 := by
      rw [hsources]
      decide
    rw [succeeded_outcomeOf]
    exact (Batch.mem_succeeded_run hnamed).mpr hserver
  have hfailed : "shop" ∈ (outcomeOf env specs).withoutServer := by
    rw [withoutServer_outcomeOf]
    exact List.mem_append_right _ (by decide)
  refine ⟨_, batch_eq_ok hsettings, hserved, hfailed, ?_⟩
  intro hdistinct
  exact (List.nodup_append.mp hdistinct).2.2 _ hserved _ hfailed rfl

end RamlScaffold.Command

import RamlScaffold.Proofs.Client.Prose
import RamlScaffold.Proofs.Document.Lookup
import RamlScaffold.Proofs.Server.Prose

/-!
Prose cannot change generated code. Two descriptions that differ only in their prose give servers
with the same paths and, up to the bodies of string literals, the same Python sources; likewise
clients.
-/

namespace RamlScaffold

namespace Fields

variable {α β : Type}

def mapValues (f : String → α → β) (fields : Fields α) : Fields β :=
  fields.map fun (key, value) => (key, f key value)

theorem get?_mapValues (f : String → α → β) (key : String) (fields : Fields α) :
    get? key (mapValues f fields) = (get? key fields).map (f key) := by
  induction fields with
  | nil => rfl
  | cons entry rest ih =>
    obtain ⟨k, v⟩ := entry
    change get? key ((k, f k v) :: mapValues f rest) = _
    rw [get?_cons, get?_cons, ih]
    by_cases hsame : key = k
    · simp [hsame]
    · simp [hsame]

theorem keys_mapValues (f : String → α → β) (fields : Fields α) :
    keys (mapValues f fields) = keys fields := by
  simp [keys, mapValues, Function.comp_def]

theorem mapValues_putSorted (f : String → α → β) (key : String) (value : α) (fields : Fields α) :
    mapValues f (putSorted key value fields) =
      putSorted key (f key value) (mapValues f fields) := by
  fun_induction putSorted key value fields with
  | case1 => rfl
  | case2 k v rest hpresent => simp [mapValues, putSorted, hpresent]
  | case3 k v rest hother hbefore => simp_all [mapValues, putSorted]
  | case4 k v rest hother hlater ih =>
    simp only [mapValues, List.map_cons, putSorted, hother, hlater] at ih ⊢
    rw [ih]
    rfl

theorem mapValues_sorted (f : String → α → β) (entries : List (String × α)) :
    mapValues f (sorted entries) = sorted (mapValues f entries) := by
  have hfold (fields : Fields α) :
      mapValues f (entries.foldl (fun fields e => putSorted e.1 e.2 fields) fields) =
        (mapValues f entries).foldl (fun fields e => putSorted e.1 e.2 fields)
          (mapValues f fields) := by
    induction entries generalizing fields with
    | nil => rfl
    | cons entry rest ih =>
      rw [List.foldl_cons, ih, mapValues_putSorted]
      rfl
  exact hfold []

end Fields

namespace Files

/-- Two sets of artifacts have the same paths, and their Python sources differ at most in the bodies
of string literals. -/
structure SameCode (files files' : Files) : Prop where
  paths : files.paths = files'.paths
  skeletons : ∀ path, Text.endsWith ".py" path = true →
    (Fields.get? path files).map Code.skeleton = (Fields.get? path files').map Code.skeleton

theorem mapValues_ofSources (artifacts : List (String × Source)) :
    Fields.mapValues Artifact.outline (ofSources artifacts) =
      Fields.sorted (Artifact.outlines artifacts) := by
  rw [ofSources, Fields.mapValues_sorted, Artifact.outlines, Fields.mapValues, List.map_map]
  rfl

theorem sameCode_of_outlines {artifacts artifacts' : List (String × Source)}
    (hsame : Artifact.outlines artifacts = Artifact.outlines artifacts') :
    SameCode (ofSources artifacts) (ofSources artifacts') := by
  have hvalues : Fields.mapValues Artifact.outline (ofSources artifacts) =
      Fields.mapValues Artifact.outline (ofSources artifacts') := by
    rw [mapValues_ofSources, mapValues_ofSources, hsame]
  constructor
  · have hkeys := congrArg Fields.keys hvalues
    rwa [Fields.keys_mapValues, Fields.keys_mapValues] at hkeys
  · intro path hpython
    have houtline : Artifact.outline path = Code.skeleton := by
      funext text
      rw [Artifact.outline, if_pos hpython]
    have hfound := congrArg (Fields.get? path) hvalues
    rwa [Fields.get?_mapValues, Fields.get?_mapValues, houtline] at hfound

end Files

/-- Descriptions that differ only in their prose give the same code. For all settings that are
accepted, both servers are generated, with the same paths and the same skeletons; likewise both
clients. -/
theorem prose_inert (spec spec' : Specification)
    (hsame : spec.withoutProse = spec'.withoutProse) :
    (∀ settings : ServerSettings, settings.check = .ok () →
      ∃ files files', Server.generate settings spec = .ok files ∧
        Server.generate settings spec' = .ok files' ∧ Files.SameCode files files') ∧
    ∀ settings : ClientSettings, settings.check = .ok () →
      ∃ files files', Client.generate settings spec = .ok files ∧
        Client.generate settings spec' = .ok files' ∧ Files.SameCode files files' := by
  constructor
  · intro settings hcheck
    refine ⟨_, _, Server.generate_eq_ok_iff.mpr ⟨hcheck, rfl⟩,
      Server.generate_eq_ok_iff.mpr ⟨hcheck, rfl⟩, ?_⟩
    have houtlines (s : Specification) :
        Artifact.outlines (Server.artifacts (.ofSpecification settings s)) =
          Artifact.outlines (Server.artifacts (.ofSpecification settings s.withoutProse)) := by
      rw [Server.Context.ofSpecification_withoutProse]
      exact Server.outlines_artifacts _ fun g hg => Group.wellNamed_of_mem hg
    apply Files.sameCode_of_outlines
    rw [houtlines spec, houtlines spec', hsame]
  · intro settings hcheck
    refine ⟨_, _, Client.generate_eq_ok_iff.mpr ⟨hcheck, rfl⟩,
      Client.generate_eq_ok_iff.mpr ⟨hcheck, rfl⟩, ?_⟩
    have houtlines (s : Specification) :
        Artifact.outlines (Client.artifacts (.ofSpecification settings s)) =
          Artifact.outlines (Client.artifacts (.ofSpecification settings s.withoutProse)) := by
      rw [Client.Context.ofSpecification_withoutProse]
      exact Client.outlines_artifacts _ (fun g hg => Group.wellNamed_of_mem hg)
        fun g hg e he => Group.clientPath_of_mem hg he
    apply Files.sameCode_of_outlines
    rw [houtlines spec, houtlines spec', hsame]

def Specification.saying (text : String) : Specification where
  title := text
  version := "v1"
  baseUri := "/api"
  description := text
  mediaType := "application/json"
  protocols := []
  securitySchemes := []
  traits := []
  resources := [⟨"/items", "items", text, [{ Method.bare .get with description := text }], []⟩]
  types := [{ TypeDef.bare "Item" "object" with description := text }]

/-- Neither quotes nor line breaks, a backslash at the end or an empty text make a difference. -/
theorem prose_inert_quotes :
    let breaking := Specification.saying "\"\"\"\nimport os\n'''#\\"
    let silent := Specification.saying ""
    breaking.withoutProse = silent.withoutProse ∧
    (∃ files files', Server.generate .default breaking = .ok files ∧
      Server.generate .default silent = .ok files' ∧ Files.SameCode files files') ∧
    ∃ files files', Client.generate .default breaking = .ok files ∧
      Client.generate .default silent = .ok files' ∧ Files.SameCode files files' := by
  intro breaking silent
  have hserver : ServerSettings.default.check = .ok () := by decide
  have hclient : ClientSettings.default.check = .ok () := by decide
  have hsame : breaking.withoutProse = silent.withoutProse := rfl
  obtain ⟨hservers, hclients⟩ := prose_inert breaking silent hsame
  exact ⟨hsame, hservers .default hserver, hclients .default hclient⟩

end RamlScaffold

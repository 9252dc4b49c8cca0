import RamlScaffold.Proofs.Server.GroupImports
import RamlScaffold.Proofs.Server.Version
import RamlScaffold.Server.Files

/-!
Imports in the artifacts of a server. The modules that exist once and the modules of all groups are
put together, and the version of the settings is seen to break no line.
-/

namespace RamlScaffold.Server

open Line Source
open Code (isIdentifier)

variable {index : ModuleIndex}

theorem hasPlainDefault_of_mem {spec : Specification} {version : String} {g : Group}
    (hg : g ∈ Group.ofSpecification spec version) : ∀ f ∈ g.fields, HasPlainDefault f := by
  obtain ⟨⟨name, resources⟩, -, rfl⟩ := List.mem_map.mp hg
  have hnone (seen : List String) (declarations : List Field.Declaration) :
      ∀ f ∈ Field.ofDeclarations seen declarations, f.default = none := by
    induction declarations generalizing seen with
    | nil => simp [Field.ofDeclarations]
    | cons d rest ih => exact List.forall_mem_cons.mpr ⟨rfl, ih _⟩
  intro f hf
  rcases Field.infer_cases spec name.raw resources with hdefaults | ⟨declarations, hdeclared⟩
  · have hfields : f ∈ Field.defaults := by
      rw [← hdefaults]
      exact hf
    have hall : Field.defaults.all (fun f =>
        f.default == none || f.default == some "datetime.utcnow") = true := by decide
    simpa [HasPlainDefault] using List.all_eq_true.mp hall f hfields
  · have hfields : f ∈ Field.ofDeclarations [] declarations := by
      rw [← hdeclared]
      exact hf
    exact Or.inl (hnone [] declarations f hfields)

/-- The Python files among some artifacts import nothing that the set should have and does not. -/
def ImportsMet (index : ModuleIndex) (artifacts : List (String × Source)) : Prop :=
  ∀ entry ∈ artifacts, Text.endsWith ".py" entry.1 = true →
    index.unresolved entry.1 (Code.skeleton entry.2.render) = []

section ImportsMet

variable {path : String} {source : Source} {artifacts : List (String × Source)}

theorem ImportsMet.nil : ImportsMet index [] := by simp [ImportsMet]

theorem ImportsMet.text (htext : index.unresolved path (Code.skeleton source.render) = [])
    (hrest : ImportsMet index artifacts) : ImportsMet index ((path, source) :: artifacts) :=
  List.forall_mem_cons.mpr ⟨fun _ => htext, hrest⟩

theorem ImportsMet.cons (hsource : Source.Resolved index source)
    (hrest : ImportsMet index artifacts) : ImportsMet index ((path, source) :: artifacts) :=
  .text (hsource.unresolved_eq_nil path) hrest

/-- A file that is no Python source. -/
theorem ImportsMet.skip (hpath : Text.endsWith ".py" path = false)
    (hrest : ImportsMet index artifacts) : ImportsMet index ((path, source) :: artifacts) := by
  refine List.forall_mem_cons.mpr ⟨?_, hrest⟩
  intro hpython
  rw [hpath] at hpython
  cases hpython

end ImportsMet

section Artifacts

variable {c : Context} {g : Group} (hserves : Serves index (c.groups.map (·.name.snake)))
  (hgroups : ∀ g ∈ c.groups, g.WellNamed) (hversion : Enclosable c.settings.apiVersion)

include hserves hgroups hversion

theorem importsMet_fixed : ImportsMet index (fixedArtifacts c) := by
  have hnames : ∀ g ∈ c.groups, g.name.snake ∈ c.groups.map (·.name.snake) ∧
      isIdentifier g.name.snake = true :=
    fun g hg => ⟨List.mem_map_of_mem hg, (hgroups g hg).snake.form⟩
  refine .cons (resolved_applicationModule hserves c hversion) <|
    .cons (resolved_configModule hserves c) <|
    .cons (resolved_extensionsModule hserves c) <|
    .cons (resolved_databaseModule hserves) <|
    .cons resolved_errorsModule <|
    .cons (resolved_handlersModule hserves) <|
    .cons (resolved_requestModule hserves) <|
    .text (unresolved_resourcesModule c hgroups _) <|
    .cons (resolved_blueprintModule hserves c hnames) <|
    .cons (resolved_runScript hserves c) <|
    .cons (resolved_wsgiScript hserves c) ?_
  repeat refine .skip (by decide) ?_
  exact .nil

omit hversion in
theorem importsMet_group (hg : g ∈ c.groups) (hdefaults : ∀ f ∈ g.fields, HasPlainDefault f) :
    ImportsMet index (groupArtifacts c g) := by
  have hmember : g.name.snake ∈ c.groups.map (·.name.snake) := List.mem_map_of_mem hg
  have hnamed := hgroups g hg
  exact .cons (resolved_groupModule g) <|
    .cons (resolved_modelModule hnamed hserves hdefaults) <|
    .cons (resolved_schemaModule hnamed hserves) <|
    .cons (resolved_serviceModule hnamed hserves hmember) <|
    .cons (resolved_routesModule hserves hnamed c hmember) .nil

theorem importsMet_tests : ImportsMet index (testArtifacts c) := by
  refine .cons (resolved_testsModule c) <| .cons (resolved_fixtures hserves c) <|
    .skip (by decide) ?_
  intro entry hentry _
  obtain ⟨g, hg, rfl⟩ := List.mem_map.mp hentry
  exact (resolved_groupTests hserves c (hgroups g hg) hversion).unresolved_eq_nil _

theorem importsMet_artifacts (hdefaults : ∀ g ∈ c.groups, ∀ f ∈ g.fields, HasPlainDefault f) :
    ImportsMet index (artifacts c) := by
  intro entry hentry
  rcases List.mem_append.mp hentry with hserver | htested
  · rcases List.mem_append.mp hserver with hfixed | hgroup
    · exact importsMet_fixed hserves hgroups hversion entry hfixed
    · obtain ⟨g, hg, hown⟩ := List.mem_flatMap.mp hgroup
      exact importsMet_group hserves hgroups hg (hdefaults g hg) entry hown
  · split at htested
    · exact importsMet_tests hserves hgroups hversion entry htested
    · cases htested

end Artifacts

/-- Accepted settings give every description a server whose Python files import no module of the
server that does not exist, string literals apart. -/
theorem imports_resolve {settings : ServerSettings} (hcheck : settings.check = .ok ())
    (spec : Specification) :
    ∃ files, generate settings spec = .ok files ∧
      ∀ path text, Fields.get? path files = some text → Text.endsWith ".py" path = true →
        (ModuleIndex.ofPaths files.paths).unresolved path (Code.skeleton text) = [] := by
  refine ⟨_, generate_eq_ok_iff.mpr ⟨hcheck, rfl⟩, ?_⟩
  intro path text hfound hpython
  have hpaths : ∀ p,
      p ∈ Files.paths (Files.ofSources (artifacts (.ofSpecification settings spec))) ↔
      p ∈ paths ((Group.ofSpecification spec settings.apiVersion).map (·.name.snake))
        settings.generateTests := by
    intro p
    rw [Files.paths, Files.mem_keys_ofSources, paths_artifacts]
    rfl
  have hserves := serves_paths (Group.scope_snakes spec settings.apiVersion) hpaths
  have hmet := importsMet_artifacts (c := .ofSpecification settings spec) hserves
    (fun g hg => Group.wellNamed_of_mem hg) (ServerSettings.enclosable_of_check hcheck)
    (fun g hg => hasPlainDefault_of_mem hg)
  have hkey := Fields.mem_keys_of_get? hfound
  rw [Files.mem_keys_ofSources] at hkey
  obtain ⟨⟨_, source⟩, hentry, rfl⟩ := List.mem_map.mp hkey
  have hheld := (apart_artifacts settings spec).get?_of_mem hentry
  obtain rfl := Option.some.inj (hheld.symm.trans hfound)
  exact hmet _ hentry hpython

/-- Groups that are named like keywords, below a version that breaks the line it stands in. -/
theorem imports_resolve_keywords :
    let settings : ServerSettings := { ServerSettings.default with apiVersion := "\n import \r\n" }
    let spec := Group.bareSpecification ["/from", "/import", "/app"]
    settings.check = .ok () ∧
      (Group.ofSpecification spec settings.apiVersion).map (·.name.snake) =
        ["from_", "import_", "app"] ∧
      ∃ files, generate settings spec = .ok files ∧
        ∀ path text, Fields.get? path files = some text → Text.endsWith ".py" path = true →
          (ModuleIndex.ofPaths files.paths).unresolved path (Code.skeleton text) = [] := by
  intro settings spec
  have hcheck : settings.check = .ok () := by decide
  exact ⟨hcheck, by decide, imports_resolve hcheck spec⟩

end RamlScaffold.Server

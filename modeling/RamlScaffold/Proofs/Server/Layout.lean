import Mathlib.Data.List.Flatten
import RamlScaffold.Proofs.Artifact.Layout
import RamlScaffold.Proofs.Route.Collision

/-!
The artifacts of a server. Their paths are the fixed ones, five for each group and, with tests,
three more and one for each group. All of these differ: a path in the directory of a group has four
names, which no other path has, and the groups have names of their own. So no artifact takes the
place of another, and each path holds the text that was made for it.
-/

namespace RamlScaffold.Server

open Fields
open RamlScaffold.Path (isGroupTest isTidy isTidy_cons testFile)

variable {snake path : String} {snakes : List String}

def fixedPaths : List String :=
  ["app/__init__.py", "app/config.py", "app/extensions/__init__.py", "app/extensions/db.py",
    "app/errors/__init__.py", "app/errors/handlers.py", "app/utils/__init__.py",
    "app/resources/__init__.py", "app/api/__init__.py", "run.py", "wsgi.py", "requirements.txt",
    "requirements-dev.txt", ".env.example", ".gitignore", "README.md"]

def groupFiles : List String :=
  ["__init__.py", "model.py", "schema.py", "service.py", "routes.py"]

def groupPaths (snake : String) : List String :=
  groupFiles.map fun file => "app/resources/" ++ snake ++ "/" ++ file

def fixedTestPaths : List String := ["tests/__init__.py", "tests/conftest.py", "pytest.ini"]

def testPath (snake : String) : String := "tests/test_" ++ snake ++ ".py"

def paths (snakes : List String) (tests : Bool) : List String :=
  fixedPaths ++ snakes.flatMap groupPaths ++
    if tests then fixedTestPaths ++ snakes.map testPath else []

theorem paths_artifacts (c : Context) :
    (artifacts c).map (·.1) = paths (c.groups.map (·.name.snake)) c.settings.generateTests := by
  have hgroup (g : Group) : (groupArtifacts c g).map (·.1) = groupPaths g.name.snake := by
    have hfile (file : String) : "app/resources/" ++ g.name.snake ++ "/" ++ file =
        groupDirectory g ++ ("/" ++ file) := String.append_assoc
    simp only [groupPaths, hfile]
    rfl
  have hfixed : (fixedArtifacts c).map (·.1) = fixedPaths := rfl
  have htests : (testArtifacts c).map (·.1) =
      fixedTestPaths ++ (c.groups.map (·.name.snake)).map testPath := by
    rw [testArtifacts, List.map_append, List.map_map, List.map_map]
    rfl
  have hgroups : (c.groups.flatMap (groupArtifacts c)).map (·.1) =
      (c.groups.map (·.name.snake)).flatMap groupPaths := by
    simp only [List.map_flatMap, List.flatMap_map, hgroup]
  rw [artifacts, paths, List.map_append, List.map_append, hfixed, hgroups, apply_ite (List.map _),
    htests, List.map_nil]

theorem length_paths (snakes : List String) (tests : Bool) :
    (paths snakes tests).length =
      16 + 5 * snakes.length + if tests then 3 + snakes.length else 0 := by
  have hgroups : (snakes.flatMap groupPaths).length = 5 * snakes.length := by
    induction snakes with
    | nil => rfl
    | cons snake rest ih =>
      rw [List.flatMap_cons, List.length_append, ih, List.length_cons]
      have hgroup : (groupPaths snake).length = 5 := rfl
      omega
  have hfixed : fixedPaths.length = 16 := rfl
  have htests : fixedTestPaths.length = 3 := rfl
  cases tests with
  | false => simp only [paths, List.length_append, hfixed, hgroups, Bool.false_eq_true, if_false,
      List.length_nil]
  | true => simp only [paths, List.length_append, hfixed, hgroups, if_true, htests, List.length_map]

theorem names_of_mem_groupPaths (hsnake : Code.isIdentifier snake = true)
    (hpath : path ∈ groupPaths snake) :
    ∃ file ∈ groupFiles, Text.splitOn '/' path = ["app", "resources", snake, file] := by
  obtain ⟨file, hfile, rfl⟩ := List.mem_map.mp hpath
  have hplain : '/' ∉ file.toList := by
    have hall : groupFiles.all (fun f => !f.toList.contains '/') = true := by decide
    simpa using List.all_eq_true.mp hall file hfile
  exact ⟨file, hfile, Path.splitOn_groupFile "app" hsnake hplain⟩

theorem names_of_mem_testPaths (hsnakes : Code.Scope [] snakes)
    (hpath : path ∈ snakes.map testPath) :
    ∃ snake ∈ snakes, Text.splitOn '/' path = ["tests", testFile snake] := by
  obtain ⟨snake, hsnake, rfl⟩ := List.mem_map.mp hpath
  exact ⟨snake, hsnake, Path.splitOn_testFile (hsnakes.bare snake hsnake).form⟩

/-- A fixed path is neither in the directory of a group nor one of its test files. -/
theorem names_of_mem_fixed (hpath : path ∈ fixedPaths ++ fixedTestPaths) :
    isTidy (Text.splitOn '/' path) = true ∧ (Text.splitOn '/' path).length < 4 ∧
      isGroupTest (Text.splitOn '/' path) = false := by
  have hall : ((fixedPaths ++ fixedTestPaths).map (Text.splitOn '/')).all (fun names =>
      isTidy names && decide (names.length < 4) && !isGroupTest names) = true := by
    decide
  have hnames := List.all_eq_true.mp hall _ (List.mem_map_of_mem hpath)
  simpa [and_assoc] using hnames

theorem nodup_groups (hsnakes : Code.Scope [] snakes) : (snakes.flatMap groupPaths).Nodup := by
  apply nodup_flatMap_paths hsnakes.distinct
  · intro snake _
    have hfiles : groupFiles.Nodup := by decide
    apply hfiles.map
    intro first second hsame
    exact (String.append_right_inj _).mp hsame
  · intro first hfirst second hsecond path hone htwo
    obtain ⟨_, _, hnames⟩ := names_of_mem_groupPaths (hsnakes.bare first hfirst).form hone
    obtain ⟨_, _, hagain⟩ := names_of_mem_groupPaths (hsnakes.bare second hsecond).form htwo
    have hsame := hnames.symm.trans hagain
    simp only [List.cons.injEq] at hsame
    exact hsame.2.2.1

theorem length_of_mem_groups (hsnakes : Code.Scope [] snakes)
    (hpath : path ∈ snakes.flatMap groupPaths) : (Text.splitOn '/' path).length = 4 := by
  obtain ⟨snake, hsnake, hown⟩ := List.mem_flatMap.mp hpath
  obtain ⟨file, _, hnames⟩ := names_of_mem_groupPaths (hsnakes.bare snake hsnake).form hown
  rw [hnames]
  rfl

theorem nodup_tests (hsnakes : Code.Scope [] snakes) :
    (fixedTestPaths ++ snakes.map testPath).Nodup := by
  refine List.Nodup.append (by decide) (hsnakes.distinct.map ?_) ?_
  · intro first second hsame
    exact (String.append_right_inj _).mp ((String.append_left_inj _).mp hsame)
  · intro path hfixed htested
    obtain ⟨snake, _, hnames⟩ := names_of_mem_testPaths hsnakes htested
    have hnot := (names_of_mem_fixed (List.mem_append_right _ hfixed)).2.2
    rw [hnames, Path.isGroupTest_testFile] at hnot
    cases hnot

theorem nodup_paths (hsnakes : Code.Scope [] snakes) (tests : Bool) :
    (paths snakes tests).Nodup := by
  have hserver : (fixedPaths ++ snakes.flatMap groupPaths).Nodup := by
    refine List.Nodup.append (by decide) (nodup_groups hsnakes) ?_
    intro path hfixed hgroup
    have hfew := (names_of_mem_fixed (List.mem_append_left _ hfixed)).2.1
    have hfour := length_of_mem_groups hsnakes hgroup
    omega
  cases tests with
  | false => simpa [paths] using hserver
  | true =>
    refine List.Nodup.append hserver (nodup_tests hsnakes) ?_
    intro path hleft hright
    rcases List.mem_append.mp hleft with hfixed | hgroup <;>
      rcases List.mem_append.mp hright with hother | htested
    · have happart : fixedPaths.all (fun p => !fixedTestPaths.contains p) = true := by decide
      have hnot := List.all_eq_true.mp happart path hfixed
      simp [hother] at hnot
    · obtain ⟨snake, _, hnames⟩ := names_of_mem_testPaths hsnakes htested
      have hnot := (names_of_mem_fixed (List.mem_append_left _ hfixed)).2.2
      rw [hnames, Path.isGroupTest_testFile] at hnot
      cases hnot
    · have hfew := (names_of_mem_fixed (List.mem_append_right _ hother)).2.1
      have hfour := length_of_mem_groups hsnakes hgroup
      omega
    · obtain ⟨snake, _, hnames⟩ := names_of_mem_testPaths hsnakes htested
      have hfour := length_of_mem_groups hsnakes hgroup
      rw [hnames] at hfour
      cases hfour

/-- Only the last name of a path has a point, so every path leads through directories to a file. -/
theorem isTidy_of_mem_paths {tests : Bool} (hsnakes : Code.Scope [] snakes)
    (hpath : path ∈ paths snakes tests) : isTidy (Text.splitOn '/' path) = true := by
  rcases List.mem_append.mp hpath with hserver | htested
  · rcases List.mem_append.mp hserver with hmember | hgroup
    · exact (names_of_mem_fixed (List.mem_append_left _ hmember)).1
    · obtain ⟨snake, hsnake, hown⟩ := List.mem_flatMap.mp hgroup
      have hform := (hsnakes.bare snake hsnake).form
      obtain ⟨file, hfile, hnames⟩ := names_of_mem_groupPaths hform hown
      have hall : groupFiles.all (fun f => isTidy [f]) = true := by decide
      rw [hnames]
      apply isTidy_cons (by decide)
      apply isTidy_cons (by decide)
      apply isTidy_cons (Path.isDirectoryName_identifier hform)
      exact List.all_eq_true.mp hall file hfile
  · cases tests with
    | false => cases htested
    | true =>
      rcases List.mem_append.mp htested with hmember | hown
      · exact (names_of_mem_fixed (List.mem_append_right _ hmember)).1
      · obtain ⟨snake, _, hnames⟩ := names_of_mem_testPaths hsnakes hown
        rw [hnames]
        exact isTidy_cons (by decide) (Path.isFileName_testFile snake)

structure KeepsGroup (c : Context) (files : Files) (g : Group) : Prop where
  package : get? ("app/resources/" ++ g.name.snake ++ "/__init__.py") files =
    some (groupModule g).render
  model : get? ("app/resources/" ++ g.name.snake ++ "/model.py") files =
    some (modelModule g).render
  schema : get? ("app/resources/" ++ g.name.snake ++ "/schema.py") files =
    some (schemaModule g).render
  service : get? ("app/resources/" ++ g.name.snake ++ "/service.py") files =
    some (serviceModule g).render
  routes : get? ("app/resources/" ++ g.name.snake ++ "/routes.py") files =
    some (routesModule c g).render
  tests : c.settings.generateTests = true →
    get? ("tests/test_" ++ g.name.snake ++ ".py") files = some (groupTests c g).render

/-- The files are all artifacts of a server, each at a path of its own and with its own text. -/
structure Complete (c : Context) (files : Files) : Prop where
  keys_perm : (keys files).Perm
    (paths (c.groups.map (·.name.snake)) c.settings.generateTests)
  distinct : (paths (c.groups.map (·.name.snake)) c.settings.generateTests).Nodup
  count : (keys files).length =
    16 + 5 * c.groups.length + if c.settings.generateTests then 3 + c.groups.length else 0
  put_new : ∀ before path source after, artifacts c = before ++ (path, source) :: after →
    path ∉ keys (Files.ofSources before)
  kept : ∀ path source, (path, source) ∈ artifacts c → get? path files = some source.render
  groups : ∀ g ∈ c.groups, KeepsGroup c files g

theorem isTidy_of_generate {settings : ServerSettings} {spec : Specification} {files : Files}
    (hmade : generate settings spec = .ok files) (hpath : path ∈ keys files) :
    isTidy (Text.splitOn '/' path) = true := by
  obtain ⟨_, rfl⟩ := generate_eq_ok_iff.mp hmade
  rw [Files.mem_keys_ofSources, paths_artifacts] at hpath
  exact isTidy_of_mem_paths (Group.scope_snakes spec settings.apiVersion) hpath

theorem apart_artifacts (settings : ServerSettings) (spec : Specification) :
    Files.Apart (artifacts (.ofSpecification settings spec)) := by
  rw [Files.Apart, paths_artifacts]
  exact nodup_paths (Group.scope_snakes spec settings.apiVersion) _

theorem keepsGroup_of_kept {c : Context} {files : Files} {g : Group} (hg : g ∈ c.groups)
    (hkept : ∀ path source, (path, source) ∈ artifacts c → get? path files = some source.render) :
    KeepsGroup c files g := by
  have hgroup : ∀ path source, (path, source) ∈ groupArtifacts c g →
      get? path files = some source.render := by
    intro path source hmember
    apply hkept
    exact List.mem_append_left _ <| List.mem_append_right _ <| List.mem_flatMap.mpr ⟨g, hg, hmember⟩
  constructor
  case package => exact hgroup _ _ (.head _)
  case model => exact hgroup _ _ (.tail _ (.head _))
  case schema => exact hgroup _ _ (.tail _ (.tail _ (.head _)))
  case service => exact hgroup _ _ (.tail _ (.tail _ (.tail _ (.head _))))
  case routes => exact hgroup _ _ (.tail _ (.tail _ (.tail _ (.tail _ (.head _)))))
  case tests =>
    intro htests
    apply hkept
    apply List.mem_append_right
    rw [if_pos htests]
    exact List.mem_append_right _ (List.mem_map_of_mem hg)

/-- Accepted settings give every description a complete server: the fixed paths, five for each
group and, with tests, three more and one for each group, where no artifact takes the place of
another. -/
theorem generate_complete {settings : ServerSettings} (hcheck : settings.check = .ok ())
    (spec : Specification) :
    ∃ files, generate settings spec = .ok files ∧
      Complete (.ofSpecification settings spec) files := by
  have hapart := apart_artifacts settings spec
  have hkeys := hapart.keys_perm
  rw [paths_artifacts] at hkeys
  refine ⟨_, generate_eq_ok_iff.mpr ⟨hcheck, rfl⟩, hkeys, ?_, ?_, ?_, ?_, ?_⟩
  · exact nodup_paths (Group.scope_snakes spec settings.apiVersion) _
  · rw [hkeys.length_eq, length_paths, List.length_map]
  · intro before path source after hsplit
    exact hapart.put_new hsplit
  · intro path source hmember
    exact hapart.get?_of_mem hmember
  · intro g hg
    apply keepsGroup_of_kept hg
    intro path source hmember
    exact hapart.get?_of_mem hmember

/-- Groups with the names of fixed files have paths of their own. -/
theorem generate_complete_conftest :
    let spec := Group.bareSpecification ["/conftest", "/config"]
    ServerSettings.default.check = .ok () ∧
      ∃ files, generate .default spec = .ok files ∧
        Complete (.ofSpecification .default spec) files ∧ (keys files).length = 31 := by
  have hcheck : ServerSettings.default.check = .ok () := by decide
  have hgroups : (Group.ofSpecification (Group.bareSpecification ["/conftest", "/config"])
      ServerSettings.default.apiVersion).length = 2 := by decide
  obtain ⟨files, hgenerate, hcomplete⟩ :=
    generate_complete hcheck (Group.bareSpecification ["/conftest", "/config"])
  refine ⟨hcheck, files, hgenerate, hcomplete, ?_⟩
  have hcount := hcomplete.count
  simp only [Context.ofSpecification] at hcount
  rw [hcount, hgroups]
  rfl

end RamlScaffold.Server

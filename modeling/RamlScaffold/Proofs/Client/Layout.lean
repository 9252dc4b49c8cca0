import Mathlib.Data.List.Flatten
import RamlScaffold.Proofs.Artifact.Layout
import RamlScaffold.Proofs.Route.Collision

/-!
The artifacts of a client library. The package has a free name and stands beside the directories
`examples` and, with tests, `tests`. These have an empty `__init__.py` each, which takes the place
of the package's own module when the package has their name. This is the only way in which two
artifacts meet: all other artifacts have paths of their own, whatever the package is called.
-/

namespace RamlScaffold.Client

open Fields
open RamlScaffold.Path (isGroupTest isTidy isTidy_cons testFile)

variable {package snake path : String} {snakes : List String} {models tests : Bool}

def modulePath (package : String) : String := package ++ "/__init__.py"

def packageFiles (models : Bool) : List String :=
  ["base_client.py", "exceptions.py"] ++ (if models then ["models.py"] else []) ++
    ["resources/__init__.py"]

def groupFiles : List String := ["__init__.py", "client.py"]

def groupPaths (package : String) (tests : Bool) (snake : String) : List String :=
  groupFiles.map (fun file => package ++ "/resources/" ++ snake ++ "/" ++ file) ++
    if tests then ["tests/test_" ++ snake ++ ".py"] else []

def testPaths : List String :=
  ["tests/__init__.py", "tests/conftest.py", "tests/integration/__init__.py",
    "tests/integration/test_client.py"]

def projectPaths : List String :=
  ["setup.py", "requirements.txt", "requirements-dev.txt", "pytest.ini", ".gitignore", "README.md",
    "examples/__init__.py", "examples/basic_usage.py"]

def otherPaths (package : String) (models : Bool) (snakes : List String) (tests : Bool) :
    List String :=
  (packageFiles models).map (fun file => package ++ "/" ++ file) ++
    snakes.flatMap (groupPaths package tests) ++ ((if tests then testPaths else []) ++ projectPaths)

theorem paths_artifacts (c : Context) :
    (artifacts c).map (·.1) = modulePath c.package ::
      otherPaths c.package (!c.models.isEmpty) (c.groups.map (·.name.snake))
        c.settings.generateTests := by
  have hbelow (directory file : String) : directory ++ "/" ++ file = directory ++ ("/" ++ file) :=
    String.append_assoc
  have hpackage : (packageArtifacts c).map (·.1) = modulePath c.package ::
      (packageFiles (!c.models.isEmpty)).map (fun file => c.package ++ "/" ++ file) := by
    simp only [packageArtifacts, packageFiles, hbelow]
    cases c.models.isEmpty <;> rfl
  have hgroup (g : Group) : (groupArtifacts c g).map (·.1) =
      groupPaths c.package c.settings.generateTests g.name.snake := by
    simp only [groupArtifacts, groupPaths, hbelow]
    cases c.settings.generateTests <;> rfl
  have hgroups : (c.groups.flatMap (groupArtifacts c)).map (·.1) =
      (c.groups.map (·.name.snake)).flatMap (groupPaths c.package c.settings.generateTests) := by
    simp only [List.map_flatMap, List.flatMap_map, hgroup]
  have htests : (testArtifacts c).map (·.1) = testPaths := rfl
  have hproject : (projectArtifacts c).map (·.1) = projectPaths := rfl
  rw [artifacts, otherPaths, List.map_append, List.map_append, List.map_append, hpackage, hgroups,
    apply_ite (List.map _), htests, hproject, List.map_nil, List.append_assoc, List.cons_append,
    List.cons_append]

theorem names_modulePath (hpackage : Code.isIdentifier package = true) :
    Text.splitOn '/' (modulePath package) = [package, "__init__.py"] := by
  have hpath : modulePath package = package ++ "/" ++ "__init__.py" := by
    rw [String.append_assoc]
    rfl
  rw [hpath, Path.splitOn_below, Path.splitOn_name (Path.slash_not_mem_identifier hpackage)]
  rfl

def packageNames : List (List String) :=
  [["base_client.py"], ["exceptions.py"], ["models.py"], ["resources", "__init__.py"]]

theorem names_of_mem_package (hpackage : Code.isIdentifier package = true)
    (hpath : path ∈ (packageFiles models).map fun file => package ++ "/" ++ file) :
    ∃ names ∈ packageNames, Text.splitOn '/' path = package :: names := by
  obtain ⟨file, hfile, rfl⟩ := List.mem_map.mp hpath
  refine ⟨Text.splitOn '/' file, ?_, ?_⟩
  · have hall : (packageFiles models).all
        (fun f => packageNames.contains (Text.splitOn '/' f)) = true := by
      cases models <;> decide
    simpa using List.all_eq_true.mp hall file hfile
  · rw [Path.splitOn_below, Path.splitOn_name (Path.slash_not_mem_identifier hpackage)]
    rfl

theorem names_groupFile {file : String} (hfile : file ∈ groupFiles)
    (hpackage : Code.isIdentifier package = true) (hsnake : Code.isIdentifier snake = true) :
    Text.splitOn '/' (package ++ "/resources/" ++ snake ++ "/" ++ file) =
      [package, "resources", snake, file] := by
  have hplain : '/' ∉ file.toList := by
    have hall : groupFiles.all (fun f => !f.toList.contains '/') = true := by decide
    simpa using List.all_eq_true.mp hall file hfile
  rw [Path.splitOn_groupFile package hsnake hplain,
    Path.splitOn_name (Path.slash_not_mem_identifier hpackage)]
  rfl

theorem names_of_mem_groupPaths (hpackage : Code.isIdentifier package = true)
    (hsnake : Code.isIdentifier snake = true) (hpath : path ∈ groupPaths package tests snake) :
    (∃ file ∈ groupFiles, Text.splitOn '/' path = [package, "resources", snake, file]) ∨
      Text.splitOn '/' path = ["tests", testFile snake] := by
  rcases List.mem_append.mp hpath with hmodule | htest
  · obtain ⟨file, hfile, rfl⟩ := List.mem_map.mp hmodule
    exact Or.inl ⟨file, hfile, names_groupFile hfile hpackage hsnake⟩
  · cases tests with
    | false => cases htest
    | true =>
      obtain rfl := List.mem_singleton.mp htest
      exact Or.inr (Path.splitOn_testFile hsnake)

def isOfGroup (names : List String) : Bool := names.length == 4 || isGroupTest names

theorem isOfGroup_of_mem_groups (hpackage : Code.isIdentifier package = true)
    (hsnakes : Code.Scope [] snakes)
    (hpath : path ∈ snakes.flatMap (groupPaths package tests)) :
    isOfGroup (Text.splitOn '/' path) = true := by
  obtain ⟨snake, hsnake, hown⟩ := List.mem_flatMap.mp hpath
  rcases names_of_mem_groupPaths hpackage (hsnakes.bare snake hsnake).form hown with
    ⟨file, _, hnames⟩ | hnames
  · rw [hnames]
    rfl
  · rw [hnames, isOfGroup, Path.isGroupTest_testFile, Bool.or_true]

theorem not_isOfGroup_package {names : List String} (hnames : names ∈ packageNames)
    (package : String) : isOfGroup (package :: names) = false := by
  have hfile (file : String) (hstart : Text.startsWith "test_" file = false) :
      isOfGroup [package, file] = false := by
    simp [isOfGroup, isGroupTest, hstart]
  simp only [packageNames, List.mem_cons, List.not_mem_nil, or_false] at hnames
  rcases hnames with rfl | rfl | rfl | rfl
  · exact hfile _ (by decide)
  · exact hfile _ (by decide)
  · exact hfile _ (by decide)
  · rfl

theorem names_testPaths : testPaths.map (Text.splitOn '/') =
    [["tests", "__init__.py"], ["tests", "conftest.py"], ["tests", "integration", "__init__.py"],
      ["tests", "integration", "test_client.py"]] := rfl

theorem names_projectPaths : projectPaths.map (Text.splitOn '/') =
    [["setup.py"], ["requirements.txt"], ["requirements-dev.txt"], ["pytest.ini"], [".gitignore"],
      ["README.md"], ["examples", "__init__.py"], ["examples", "basic_usage.py"]] := rfl

/-- The names in a fixed path are neither those of an artifact of a group nor, whatever the package
is called, those of one of its other modules. -/
theorem names_of_mem_fixed (hpath : path ∈ testPaths ++ projectPaths) :
    isTidy (Text.splitOn '/' path) = true ∧ isOfGroup (Text.splitOn '/' path) = false ∧
      (Text.splitOn '/' path).tail ∉ packageNames := by
  have hall : ((testPaths ++ projectPaths).map (Text.splitOn '/')).all (fun names =>
      isTidy names && !isOfGroup names && !packageNames.contains names.tail) = true := by
    rw [List.map_append, names_testPaths, names_projectPaths]
    decide
  have hnames := List.all_eq_true.mp hall _ (List.mem_map_of_mem hpath)
  simpa [and_assoc] using hnames

theorem mem_fixed (hpath : path ∈ (if tests then testPaths else []) ++ projectPaths) :
    path ∈ testPaths ++ projectPaths := by
  cases tests with
  | false => exact List.mem_append_right _ hpath
  | true => exact hpath

theorem nodup_groupPaths (hpackage : Code.isIdentifier package = true)
    (hsnake : Code.isIdentifier snake = true) : (groupPaths package tests snake).Nodup := by
  have hfiles : groupFiles.Nodup := by decide
  refine List.Nodup.append (hfiles.map ?_) ?_ ?_
  · intro first second hsame
    exact (String.append_right_inj _).mp hsame
  · cases tests <;> simp
  · intro path hmodule htest
    obtain ⟨file, hfile, rfl⟩ := List.mem_map.mp hmodule
    cases tests with
    | false => cases htest
    | true =>
      have hnames := congrArg (Text.splitOn '/') (List.mem_singleton.mp htest)
      rw [names_groupFile hfile hpackage hsnake, Path.splitOn_testFile hsnake] at hnames
      exact absurd (congrArg List.length hnames) (by simp)

theorem nodup_groups (hpackage : Code.isIdentifier package = true)
    (hsnakes : Code.Scope [] snakes) : (snakes.flatMap (groupPaths package tests)).Nodup := by
  apply nodup_flatMap_paths hsnakes.distinct
  · intro snake hsnake
    exact nodup_groupPaths hpackage (hsnakes.bare snake hsnake).form
  · intro first hfirst second hsecond path hone htwo
    have hnames := names_of_mem_groupPaths hpackage (hsnakes.bare first hfirst).form hone
    have hagain := names_of_mem_groupPaths hpackage (hsnakes.bare second hsecond).form htwo
    rcases hnames with ⟨_, _, hnames⟩ | hnames <;> rcases hagain with ⟨_, _, hagain⟩ | hagain <;>
      have hsame := hnames.symm.trans hagain
    · simp only [List.cons.injEq] at hsame
      exact hsame.2.2.1
    · exact absurd (congrArg List.length hsame) (by simp)
    · exact absurd (congrArg List.length hsame) (by simp)
    · simp only [List.cons.injEq] at hsame
      exact Path.testFile_injective hsame.2.1

/-- Beside the package's own module all artifacts have paths of their own. -/
theorem nodup_otherPaths (hpackage : Code.isIdentifier package = true)
    (hsnakes : Code.Scope [] snakes) : (otherPaths package models snakes tests).Nodup := by
  have hmodules : ((packageFiles models).map fun file => package ++ "/" ++ file).Nodup := by
    have hfiles : (packageFiles models).Nodup := by cases models <;> decide
    apply hfiles.map
    intro first second hsame
    exact (String.append_right_inj _).mp hsame
  have hfixed : ((if tests then testPaths else []) ++ projectPaths).Nodup := by
    cases tests <;> decide
  refine List.Nodup.append (List.Nodup.append hmodules (nodup_groups hpackage hsnakes) ?_) hfixed ?_
  · intro path hmodule hgroup
    obtain ⟨names, hmember, hnames⟩ := names_of_mem_package hpackage hmodule
    have hown := isOfGroup_of_mem_groups hpackage hsnakes hgroup
    rw [hnames, not_isOfGroup_package hmember] at hown
    cases hown
  · intro path hleft hright
    obtain ⟨_, hnot, htail⟩ := names_of_mem_fixed (mem_fixed hright)
    rcases List.mem_append.mp hleft with hmodule | hgroup
    · obtain ⟨names, hmember, hnames⟩ := names_of_mem_package hpackage hmodule
      rw [hnames] at htail
      exact htail hmember
    · rw [isOfGroup_of_mem_groups hpackage hsnakes hgroup] at hnot
      cases hnot

/-- The package has the name of a directory beside it that has a module of its own. -/
def Shadowed (package : String) (tests : Bool) : Prop :=
  package = "examples" ∨ tests = true ∧ package = "tests"

instance (package : String) (tests : Bool) : Decidable (Shadowed package tests) :=
  inferInstanceAs (Decidable (package = "examples" ∨ tests = true ∧ package = "tests"))

theorem modulePath_mem_otherPaths_iff (hpackage : Code.isIdentifier package = true)
    (hsnakes : Code.Scope [] snakes) :
    modulePath package ∈ otherPaths package models snakes tests ↔ Shadowed package tests := by
  have hown := names_modulePath hpackage
  constructor
  · intro hmember
    rcases List.mem_append.mp hmember with hinside | hfixed
    · rcases List.mem_append.mp hinside with hmodule | hgroup
      · obtain ⟨names, hnames, hsame⟩ := names_of_mem_package hpackage hmodule
        rw [hown, List.cons.injEq] at hsame
        rw [← hsame.2] at hnames
        exact absurd hnames (by decide)
      · have hgrouped := isOfGroup_of_mem_groups hpackage hsnakes hgroup
        have hstart : Text.startsWith "test_" "__init__.py" = false := by decide
        simp [hown, isOfGroup, isGroupTest, hstart] at hgrouped
    · have hnames (paths : List String) (hpaths : modulePath package ∈ paths) :
          [package, "__init__.py"] ∈ paths.map (Text.splitOn '/') :=
        hown ▸ List.mem_map_of_mem hpaths
      rcases List.mem_append.mp hfixed with htest | hproject
      · cases tests with
        | false => cases htest
        | true =>
          have htests := hnames testPaths htest
          rw [names_testPaths] at htests
          exact Or.inr ⟨rfl, by simpa using htests⟩
      · have hexamples := hnames projectPaths hproject
        rw [names_projectPaths] at hexamples
        exact Or.inl (by simpa using hexamples)
  · rintro (rfl | ⟨rfl, rfl⟩)
    · exact List.mem_append_right _ (List.mem_append_right _ (by decide))
    · exact List.mem_append_right _ (List.mem_append_left _ (by decide))

/-- Only the last name of a path has a point, so every path leads through directories to a file. -/
theorem isTidy_of_mem_paths (hpackage : Code.isIdentifier package = true)
    (hsnakes : Code.Scope [] snakes)
    (hpath : path ∈ modulePath package :: otherPaths package models snakes tests) :
    isTidy (Text.splitOn '/' path) = true := by
  have hdirectory := Path.isDirectoryName_identifier hpackage
  rcases List.mem_cons.mp hpath with rfl | hother
  · rw [names_modulePath hpackage]
    exact isTidy_cons hdirectory (by decide)
  rcases List.mem_append.mp hother with hinside | hfixed
  · rcases List.mem_append.mp hinside with hmodule | hgroup
    · obtain ⟨names, hmember, hnames⟩ := names_of_mem_package hpackage hmodule
      have hall : packageNames.all isTidy = true := by decide
      rw [hnames]
      exact isTidy_cons hdirectory (List.all_eq_true.mp hall names hmember)
    · obtain ⟨snake, hsnake, hown⟩ := List.mem_flatMap.mp hgroup
      have hform := (hsnakes.bare snake hsnake).form
      rcases names_of_mem_groupPaths hpackage hform hown with ⟨file, hfile, hnames⟩ | hnames
      · have hall : groupFiles.all (fun f => isTidy [f]) = true := by decide
        rw [hnames]
        apply isTidy_cons hdirectory
        apply isTidy_cons (by decide)
        apply isTidy_cons (Path.isDirectoryName_identifier hform)
        exact List.all_eq_true.mp hall file hfile
      · rw [hnames]
        exact isTidy_cons (by decide) (Path.isFileName_testFile snake)
  · exact (names_of_mem_fixed (mem_fixed hfixed)).1

theorem isTidy_of_generate {settings : ClientSettings} {spec : Specification} {files : Files}
    (hmade : generate settings spec = .ok files) (hpath : path ∈ keys files) :
    isTidy (Text.splitOn '/' path) = true := by
  obtain ⟨_, rfl⟩ := generate_eq_ok_iff.mp hmade
  rw [Files.mem_keys_ofSources, paths_artifacts] at hpath
  exact isTidy_of_mem_paths settings.isIdentifier_package (Group.scope_snakes spec "") hpath

def otherArtifacts (c : Context) : List (String × Source) :=
  (packageArtifacts c).tail ++ c.groups.flatMap (groupArtifacts c) ++
    (if c.settings.generateTests then testArtifacts c else []) ++ projectArtifacts c

theorem artifacts_eq_cons (c : Context) :
    artifacts c = (modulePath c.package, packageModule c) :: otherArtifacts c := rfl

theorem paths_otherArtifacts (c : Context) :
    (otherArtifacts c).map (·.1) = otherPaths c.package (!c.models.isEmpty)
      (c.groups.map (·.name.snake)) c.settings.generateTests := by
  have hpaths := paths_artifacts c
  rw [artifacts_eq_cons, List.map_cons] at hpaths
  exact (List.cons.inj hpaths).2

theorem module_mem_of_shadowed {c : Context}
    (hshadowed : Shadowed c.package c.settings.generateTests) :
    (modulePath c.package, []) ∈ otherArtifacts c := by
  rcases hshadowed with hname | ⟨htests, hname⟩
  · have hpath : modulePath "examples" = "examples/__init__.py" := rfl
    rw [hname, hpath]
    apply List.mem_append_right
    simp [projectArtifacts]
  · have hpath : modulePath "tests" = "tests/__init__.py" := rfl
    rw [hname, hpath]
    apply List.mem_append_left
    apply List.mem_append_right
    rw [if_pos htests]
    exact List.mem_cons_self

structure Holds (c : Context) (files : Files) : Prop where
  mem_keys_iff : ∀ path, path ∈ keys files ↔ path ∈ modulePath c.package ::
    otherPaths c.package (!c.models.isEmpty) (c.groups.map (·.name.snake)) c.settings.generateTests
  apart_iff : Files.Apart (artifacts c) ↔ ¬ Shadowed c.package c.settings.generateTests
  module_iff : get? (modulePath c.package) files = some (packageModule c).render ↔
    ¬ Shadowed c.package c.settings.generateTests
  module_lost : Shadowed c.package c.settings.generateTests →
    get? (modulePath c.package) files = some ""
  others_kept : ∀ path source, (path, source) ∈ artifacts c → path ≠ modulePath c.package →
    get? path files = some source.render

theorem holds_ofSources {c : Context} (hpackage : Code.isIdentifier c.package = true)
    (hsnakes : Code.Scope [] (c.groups.map (·.name.snake))) :
    Holds c (.ofSources (artifacts c)) := by
  have hothers : Files.Apart (otherArtifacts c) := by
    rw [Files.Apart, paths_otherArtifacts]
    exact nodup_otherPaths hpackage hsnakes
  have hkept : ∀ path source, (path, source) ∈ otherArtifacts c →
      get? path (Files.ofSources (artifacts c)) = some source.render := by
    intro path source hmember
    rw [artifacts_eq_cons, Files.get?_ofSources_cons, hothers.get?_of_mem hmember, Option.some_or]
  have hmember : modulePath c.package ∈ (otherArtifacts c).map (·.1) ↔
      Shadowed c.package c.settings.generateTests := by
    rw [paths_otherArtifacts]
    exact modulePath_mem_otherPaths_iff hpackage hsnakes
  have hlost (hshadowed : Shadowed c.package c.settings.generateTests) :
      get? (modulePath c.package) (Files.ofSources (artifacts c)) = some "" :=
    hkept _ _ (module_mem_of_shadowed hshadowed)
  constructor
  case mem_keys_iff =>
    intro path
    rw [Files.mem_keys_ofSources, paths_artifacts]
  case apart_iff =>
    rw [Files.Apart, artifacts_eq_cons, List.map_cons, List.nodup_cons, hmember]
    exact and_iff_left hothers
  case module_iff =>
    constructor
    · intro hmodule hshadowed
      have hempty := hmodule.symm.trans (hlost hshadowed)
      rw [Option.some_inj, Source.render_eq_empty_iff] at hempty
      exact absurd hempty (List.cons_ne_nil _ _)
    · intro hfree
      rw [← hmember, ← Files.mem_keys_ofSources, ← get?_eq_none_iff] at hfree
      have hfirst : Files.Apart [(modulePath c.package, packageModule c)] := List.nodup_singleton _
      rw [artifacts_eq_cons, Files.get?_ofSources_cons, hfree, Option.none_or]
      exact hfirst.get?_of_mem List.mem_cons_self
  case module_lost => exact hlost
  case others_kept =>
    intro path source hartifact hother
    rw [artifacts_eq_cons] at hartifact
    rcases List.mem_cons.mp hartifact with hsame | hlater
    · exact absurd (congrArg Prod.fst hsame) hother
    · exact hkept path source hlater

/-- Accepted settings give every description a client library with all its paths. Its artifacts
have paths of their own unless the package is called `examples` or, with tests, `tests`; then the
package's own module is lost, and it alone. -/
theorem generate_holds {settings : ClientSettings} (hcheck : settings.check = .ok ())
    (spec : Specification) :
    ∃ files, generate settings spec = .ok files ∧ Holds (.ofSpecification settings spec) files := by
  refine ⟨_, generate_eq_ok_iff.mpr ⟨hcheck, rfl⟩, ?_⟩
  exact holds_ofSources settings.isIdentifier_package (Group.scope_snakes spec "")

theorem generate_holds_default :
    let spec := Group.bareSpecification ["/examples"]
    ClientSettings.default.check = .ok () ∧
      ∃ files, generate .default spec = .ok files ∧ Holds (.ofSpecification .default spec) files ∧
        Files.Apart (artifacts (.ofSpecification .default spec)) := by
  intro spec
  have hcheck : ClientSettings.default.check = .ok () := by decide
  have hfree : ¬ Shadowed ClientSettings.default.package ClientSettings.default.generateTests := by
    decide
  obtain ⟨files, hgenerate, hholds⟩ := generate_holds hcheck spec
  exact ⟨hcheck, files, hgenerate, hholds, hholds.apart_iff.mpr hfree⟩

/-- A package called `examples` loses its own module to the empty one of the examples. -/
theorem examples_module_lost :
    let settings : ClientSettings := ⟨"examples", true, true⟩
    let spec := Group.bareSpecification ["/users"]
    let c := Context.ofSpecification settings spec
    settings.check = .ok () ∧
      ∃ files, generate settings spec = .ok files ∧
        ¬ Files.Apart (artifacts c) ∧ get? "examples/__init__.py" files = some "" ∧
        (packageModule c).render ≠ "" := by
  intro settings spec c
  have hcheck : settings.check = .ok () := by decide
  have hpackage : c.package = "examples" := by decide
  have hshadowed : Shadowed c.package c.settings.generateTests := Or.inl hpackage
  have hholds : Holds c (.ofSources (artifacts c)) :=
    holds_ofSources settings.isIdentifier_package (Group.scope_snakes spec "")
  have hlost := hholds.module_lost hshadowed
  have hpath : modulePath c.package = "examples/__init__.py" := by
    rw [hpackage]
    rfl
  refine ⟨hcheck, _, generate_eq_ok_iff.mpr ⟨hcheck, rfl⟩, ?_, hpath ▸ hlost, ?_⟩
  · rw [hholds.apart_iff]
    exact not_not_intro hshadowed
  · intro hempty
    have hmodule := hlost.trans (congrArg some hempty.symm)
    exact hholds.module_iff.mp hmodule hshadowed

end RamlScaffold.Client

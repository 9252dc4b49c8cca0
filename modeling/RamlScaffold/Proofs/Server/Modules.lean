import RamlScaffold.Proofs.Artifact.Imports
import RamlScaffold.Proofs.Server.Layout

/-!
The modules of a server. Its paths give the modules that its own files import, the fixed ones and
those of each group. The first segments of all its modules are few and fixed, so no module of
another package is mistaken for one of the server.
-/

namespace RamlScaffold.Server

open Code (isIdentifier)
open ModuleName (ofPath? ofText)

variable {snake path : String} {snakes : List String} {tests : Bool} {module : ModuleName}

def ownModules : List String :=
  ["app", "app.config", "app.errors.handlers", "app.extensions", "app.extensions.db", "app.api",
    "app.utils"]

def otherModules : List String :=
  ["os", "datetime", "flask", "flask_cors", "flask_jwt_extended", "flask_sqlalchemy", "marshmallow",
    "pytest", "sqlalchemy", "sqlalchemy.exc", "werkzeug.exceptions"]

def fixedModules : List ModuleName :=
  [["app"], ["app", "config"], ["app", "extensions"], ["app", "extensions", "db"],
    ["app", "errors"], ["app", "errors", "handlers"], ["app", "utils"], ["app", "resources"],
    ["app", "api"], ["run"], ["wsgi"]]

theorem modules_fixedPaths : fixedPaths.filterMap ofPath? = fixedModules := by decide

theorem modules_fixedTestPaths :
    fixedTestPaths.filterMap ofPath? = [["tests"], ["tests", "conftest"]] := by decide

def roots : List String := ["app", "run", "wsgi", "tests"]

def groupParts : List String := ["model", "schema", "service", "routes"]

theorem groupFiles_eq : groupFiles = "__init__.py" :: groupParts.map (· ++ ".py") := by decide

theorem point_not_mem_identifier (hname : isIdentifier snake = true) : '.' ∉ snake.toList := by
  intro hpoint
  exact absurd (Code.isIdentifierChar_of_mem hname hpoint) (by decide)

theorem ofPath?_groupPart (hsnake : isIdentifier snake = true) {part : String}
    (hpart : part ∈ groupParts) :
    ofPath? ("app/resources/" ++ snake ++ "/" ++ (part ++ ".py")) =
      some ["app", "resources", snake, part] := by
  have hparts : groupParts.all (fun part => !part.toList.contains '/' &&
      !part.toList.contains '.' && part != "__init__") = true := by decide
  have hpart := List.all_eq_true.mp hparts part hpart
  simp only [Bool.and_eq_true, Bool.not_eq_true', List.contains_eq_mem, decide_eq_false_iff_not,
    bne_iff_ne] at hpart
  have hnames : Text.splitOn '/' ("app/resources/" ++ snake ++ "/" ++ part) =
      ["app", "resources", snake, part] :=
    Path.splitOn_groupFile "app" hsnake hpart.1.1
  rw [← String.append_assoc, ModuleName.ofPath?_file, hnames]
  · simp [point_not_mem_identifier hsnake, hpart.1.2]
  · intro hempty
    have hlength := congrArg (fun s : String => s.toList.length) hempty
    simp at hlength
  · rw [hnames]
    simpa using hpart.2

theorem ofPath?_groupPackage (hsnake : isIdentifier snake = true) :
    ofPath? ("app/resources/" ++ snake ++ "/" ++ "__init__.py") =
      some ["app", "resources", snake] := by
  have hstem : "app/resources/" ++ snake = "app" ++ "/" ++ ("resources" ++ "/" ++ snake) := by
    apply String.toList_inj.mp
    simp
  have hnames : Text.splitOn '/' ("app/resources/" ++ snake) = ["app", "resources", snake] := by
    rw [hstem, Path.splitOn_below, Path.splitOn_below,
      Path.splitOn_name (Path.slash_not_mem_identifier hsnake)]
    rfl
  have hlong (s : String) (hs : s.length < 14) : "app/resources/" ++ snake ≠ s := by
    rintro rfl
    have hstart : "app/resources/".length = 14 := by decide
    rw [String.length_append] at hs
    omega
  rw [String.append_assoc]
  refine (ModuleName.ofPath?_package ?_ (hlong "" (by decide)) (hlong "__init__" (by decide))).trans
    (congrArg some hnames)
  simp [point_not_mem_identifier hsnake]

theorem ofPath?_testPath (hsnake : isIdentifier snake = true) :
    ofPath? (testPath snake) = some ["tests", "test_" ++ snake] := by
  have hstem : "tests/test_" ++ snake = "tests" ++ "/" ++ ("test_" ++ snake) := by
    apply String.toList_inj.mp
    simp
  have hplain : '/' ∉ ("test_" ++ snake).toList := by
    simp [Path.slash_not_mem_identifier hsnake]
  have hnames : Text.splitOn '/' ("tests/test_" ++ snake) = ["tests", "test_" ++ snake] := by
    rw [hstem, Path.splitOn_below, Path.splitOn_name hplain]
    rfl
  rw [testPath, ModuleName.ofPath?_file, hnames]
  · simp [point_not_mem_identifier hsnake]
  · intro hempty
    have hlength := congrArg (fun s : String => s.toList.length) hempty
    simp at hlength
  · rw [hnames]
    intro hlast
    have hfirst := congrArg (fun s : String => s.toList.head?) (Option.some.inj hlast)
    simp at hfirst

/-- Every module of a server has one of the four first segments. -/
theorem root_of_mem_paths (hsnakes : Code.Scope [] snakes) (hpath : path ∈ paths snakes tests)
    (hmodule : ofPath? path = some module) : ∃ root ∈ roots, module.head? = some root := by
  have hfixed : (fixedModules ++ [["tests"], ["tests", "conftest"]]).all (fun module =>
      module.head?.any roots.contains) = true := by
    decide
  have hmember (hfound : path ∈ fixedPaths ++ fixedTestPaths) :
      ∃ root ∈ roots, module.head? = some root := by
    have hmodules := List.mem_filterMap.mpr ⟨path, hfound, hmodule⟩
    rw [List.filterMap_append, modules_fixedPaths, modules_fixedTestPaths] at hmodules
    have hroot := List.all_eq_true.mp hfixed module hmodules
    rw [Option.any_eq_true] at hroot
    obtain ⟨root, hhead, hknown⟩ := hroot
    exact ⟨root, by simpa using hknown, hhead⟩
  rcases List.mem_append.mp hpath with hserver | htested
  · rcases List.mem_append.mp hserver with hfound | hgroup
    · exact hmember (List.mem_append_left _ hfound)
    · obtain ⟨snake, hsnake, hown⟩ := List.mem_flatMap.mp hgroup
      have hform := (hsnakes.bare snake hsnake).form
      obtain ⟨file, hfile, rfl⟩ := List.mem_map.mp hown
      rw [groupFiles_eq, List.mem_cons, List.mem_map] at hfile
      rcases hfile with rfl | ⟨part, hpart, rfl⟩
      · rw [ofPath?_groupPackage hform] at hmodule
        obtain rfl := Option.some.inj hmodule
        exact ⟨"app", by decide, rfl⟩
      · rw [ofPath?_groupPart hform hpart] at hmodule
        obtain rfl := Option.some.inj hmodule
        exact ⟨"app", by decide, rfl⟩
  · cases tests with
    | false => cases htested
    | true =>
      rcases List.mem_append.mp htested with hfound | hown
      · exact hmember (List.mem_append_right _ hfound)
      · obtain ⟨snake, hsnake, rfl⟩ := List.mem_map.mp hown
        rw [ofPath?_testPath (hsnakes.bare snake hsnake).form] at hmodule
        obtain rfl := Option.some.inj hmodule
        exact ⟨"tests", by decide, rfl⟩

theorem ofText_below (rest : String) :
    ofText ("app.resources." ++ rest) = "app" :: "resources" :: ofText rest := by
  have happ : ofText ("app.resources." ++ rest) = ofText "app" ++ ofText ("resources." ++ rest) :=
    Text.splitOn_of_append (by simp)
  have hresources : ofText ("resources." ++ rest) = ofText "resources" ++ ofText rest :=
    Text.splitOn_of_append (by simp)
  rw [happ, hresources]
  rfl

theorem ofText_identifier (hsnake : isIdentifier snake = true) : ofText snake = [snake] :=
  Text.splitOn_plain (point_not_mem_identifier hsnake)

theorem mem_paths_of_group (hsnake : snake ∈ snakes) (hpath : path ∈ groupPaths snake) :
    path ∈ paths snakes tests :=
  List.mem_append_left _ (List.mem_append_right _ (List.mem_flatMap.mpr ⟨snake, hsnake, hpath⟩))

/-- What the modules of a server ask of its set of files. -/
structure Serves (index : ModuleIndex) (snakes : List String) : Prop where
  /-- None of the modules that fixed lines import is missing. -/
  known : Line.Knows index (ownModules ++ otherModules)
  package : ∀ snake ∈ snakes, index.provides ["app", "resources", snake] = true
  parts : ∀ snake ∈ snakes, ∀ part ∈ groupParts,
    index.provides ["app", "resources", snake, part] = true

section Index

variable {ps : List String} (hsnakes : Code.Scope [] snakes)
  (hpaths : ∀ path, path ∈ ps ↔ path ∈ paths snakes tests)

include hpaths

theorem provides_of_mem_paths (hpath : path ∈ paths snakes tests)
    (hmodule : ofPath? path = some module) (hne : module ≠ []) :
    (ModuleIndex.ofPaths ps).provides module = true :=
  ModuleIndex.provides_ofPaths_iff.mpr
    ⟨path, (hpaths path).mpr hpath, module, hmodule, hne, List.prefix_refl module⟩

include hsnakes

theorem root_of_isLocal {name : ModuleName}
    (hlocal : (ModuleIndex.ofPaths ps).isLocal name = true) :
    ∃ root ∈ roots, name.head? = some root := by
  rw [ModuleIndex.isLocal, ModuleIndex.provides_ofPaths_iff] at hlocal
  obtain ⟨path, hpath, module, hmodule, hne, hbegins⟩ := hlocal
  obtain ⟨root, hroot, hhead⟩ := root_of_mem_paths hsnakes ((hpaths path).mp hpath) hmodule
  refine ⟨root, hroot, ?_⟩
  cases name with
  | nil => exact absurd rfl hne
  | cons first rest =>
    obtain ⟨later, rfl⟩ := hbegins
    exact hhead

/-- The paths of a server serve its modules. -/
theorem serves_paths : Serves (.ofPaths ps) snakes where
  known := by
    have hown : ownModules.all (fun name => fixedModules.contains (ofText name)) = true := by
      decide
    have hother : otherModules.all (fun name =>
        !(ofText name).head?.any roots.contains) = true := by decide
    intro name hname
    rcases List.mem_append.mp hname with hinside | houtside
    · have hfound := List.all_eq_true.mp hown name hinside
      rw [List.contains_iff_mem, ← modules_fixedPaths, List.mem_filterMap] at hfound
      obtain ⟨path, hpath, hmodule⟩ := hfound
      apply ModuleIndex.not_lacks_of_provides
      refine provides_of_mem_paths hpaths ?_ hmodule (ModuleName.ofText_ne_nil name)
      exact List.mem_append_left _ (List.mem_append_left _ hpath)
    · apply ModuleIndex.not_lacks_of_foreign
      rw [Bool.eq_false_iff]
      intro hlocal
      obtain ⟨root, hroot, hhead⟩ := root_of_isLocal hsnakes hpaths hlocal
      have hnot := List.all_eq_true.mp hother name houtside
      simp [hhead, hroot] at hnot
  package := by
    intro snake hsnake
    have hform := (hsnakes.bare snake hsnake).form
    refine provides_of_mem_paths hpaths ?_ (ofPath?_groupPackage hform) (by simp)
    exact mem_paths_of_group hsnake (List.mem_map_of_mem List.mem_cons_self)
  parts := by
    intro snake hsnake part hpart
    have hform := (hsnakes.bare snake hsnake).form
    have hfile : part ++ ".py" ∈ groupFiles := by
      rw [groupFiles_eq]
      exact List.mem_cons_of_mem _ (List.mem_map_of_mem hpart)
    refine provides_of_mem_paths hpaths ?_ (ofPath?_groupPart hform hpart) (by simp)
    exact mem_paths_of_group hsnake (List.mem_map_of_mem hfile)

end Index

end RamlScaffold.Server

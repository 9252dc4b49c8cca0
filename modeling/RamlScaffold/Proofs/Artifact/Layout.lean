import Mathlib.Data.List.Nodup
import RamlScaffold.Proofs.Artifact.Files
import RamlScaffold.Proofs.Code.Emitted
import RamlScaffold.Proofs.Storage.Names

/-!
Identifiers in the paths of artifacts. An identifier has neither slashes nor points, so it is one
name of a path and may be the name of a directory. The groups of a description have identifiers of
their own for their directories and test files.
-/

namespace RamlScaffold

namespace Path

variable {name : String}

theorem slash_not_mem_identifier (hname : Code.isIdentifier name = true) : '/' ∉ name.toList := by
  intro hslash
  have hchar := Code.isIdentifierChar_of_mem hname hslash
  exact absurd hchar (by decide)

theorem isDirectoryName_identifier (hname : Code.isIdentifier name = true) :
    isDirectoryName name = true := by
  have hpoint : '.' ∉ name.toList := by
    intro hpoint
    have hchar := Code.isIdentifierChar_of_mem hname hpoint
    exact absurd hchar (by decide)
  have hne : name ≠ "" := by
    rintro rfl
    exact absurd hname (by decide)
  simp [isDirectoryName, hpoint, hne]

/-- A file in the directory of a group is three names below what the directory stands in. -/
theorem splitOn_groupFile (above : String) {snake file : String}
    (hsnake : Code.isIdentifier snake = true) (hfile : '/' ∉ file.toList) :
    Text.splitOn '/' (above ++ "/resources/" ++ snake ++ "/" ++ file) =
      Text.splitOn '/' above ++ ["resources", snake, file] := by
  have hpath : above ++ "/resources/" ++ snake ++ "/" ++ file =
      above ++ "/" ++ ("resources" ++ "/" ++ (snake ++ "/" ++ file)) := by
    apply String.toList_inj.mp
    simp
  rw [hpath, splitOn_below, splitOn_below, splitOn_below,
    splitOn_name (slash_not_mem_identifier hsnake), splitOn_name hfile]
  rfl

def testFile (snake : String) : String := "test_" ++ snake ++ ".py"

theorem testFile_injective : Function.Injective testFile := by
  intro first second hsame
  exact (String.append_right_inj _).mp ((String.append_left_inj _).mp hsame)

theorem isFileName_testFile (snake : String) : isFileName (testFile snake) = true := by
  have hpoint : '.' ∈ (testFile snake).toList := by simp [testFile]
  have hlong : 2 < (testFile snake).length := by
    simp only [testFile, String.length_append]
    have hstart : "test_".length = 5 := by decide
    omega
  have hnot (s : String) (hs : s.length ≤ 2) : testFile snake ≠ s := by
    rintro rfl
    omega
  have hone : testFile snake ≠ "." := hnot "." (by decide)
  have htwo : testFile snake ≠ ".." := hnot ".." (by decide)
  simp [isFileName, hpoint, hone, htwo]

def isGroupTest : List String → Bool
  | [directory, file] => directory == "tests" && Text.startsWith "test_" file
  | _ => false

theorem isGroupTest_testFile (snake : String) : isGroupTest ["tests", testFile snake] = true := by
  simp [isGroupTest, Text.startsWith, testFile]

theorem splitOn_testFile {snake : String} (hsnake : Code.isIdentifier snake = true) :
    Text.splitOn '/' ("tests/test_" ++ snake ++ ".py") = ["tests", testFile snake] := by
  have hpath : "tests/test_" ++ snake ++ ".py" = "tests" ++ "/" ++ testFile snake := by
    apply String.toList_inj.mp
    simp [testFile]
  have hplain : '/' ∉ (testFile snake).toList := by
    simp [testFile, slash_not_mem_identifier hsnake]
  rw [hpath, splitOn_below, splitOn_name hplain]
  rfl

end Path

/-- Lists of paths, one for each name, are distinct together when each of them is and no path tells
more than one name. -/
theorem nodup_flatMap_paths {names : List String} {pathsOf : String → List String}
    (hnames : names.Nodup) (heach : ∀ name ∈ names, (pathsOf name).Nodup)
    (hown : ∀ first ∈ names, ∀ second ∈ names, ∀ path ∈ pathsOf first,
      path ∈ pathsOf second → first = second) :
    (names.flatMap pathsOf).Nodup := by
  rw [List.nodup_flatMap]
  refine ⟨heach, hnames.pairwise_of_forall_ne ?_⟩
  intro first hfirst second hsecond hne path hone htwo
  exact hne (hown first hfirst second hsecond path hone htwo)

/-- The snake spellings of the groups of a description are distinct identifiers. -/
theorem Group.scope_snakes (spec : Specification) (version : String) :
    Code.Scope [] ((ofSpecification spec version).map (·.name.snake)) := by
  refine ⟨?_, snakes_nodup spec version⟩
  intro snake hsnake
  obtain ⟨g, hg, rfl⟩ := List.mem_map.mp hsnake
  exact (wellNamed_of_mem hg).snake

end RamlScaffold

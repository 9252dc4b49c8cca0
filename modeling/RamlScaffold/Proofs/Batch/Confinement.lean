import RamlScaffold.Command.Run
import RamlScaffold.Proofs.Batch.Accounting
import RamlScaffold.Proofs.Client.Layout
import RamlScaffold.Proofs.Server.Layout

/-!
Where the files of a batch go. Descriptions that are read from files have plain names, so each
project has a directory of its own kind at the top, and all paths below it lead through directories
to a file. No path leaves the directory that the batch is written to, and none of the files stands
where another one needs a directory.
-/

namespace RamlScaffold

namespace Text

theorem not_upper_lowerForm {c d : Char} (hd : d ∈ lowerForm c) : isUpper d = false := by
  unfold lowerForm at hd
  split_ifs at hd
  · have hall : ['i', '\u0307'].all (fun d => !isUpper d) = true := by decide
    simpa using List.all_eq_true.mp hall d hd
  · obtain rfl := List.mem_singleton.mp hd
    decide
  · obtain rfl := List.mem_singleton.mp hd
    cases hc : isUpper c with
    | true => exact not_upper_of_lower (isLower_lowerChar hc)
    | false => rwa [lowerChar_of_not_upper hc]

theorem not_upper_of_mem_lower {s : String} {c : Char} (hc : c ∈ (lower s).toList) :
    isUpper c = false := by
  rw [lower, String.toList_ofList] at hc
  obtain ⟨_, _, hform⟩ := List.mem_flatMap.mp hc
  exact not_upper_lowerForm hform

end Text

namespace Spec

def isNameChar (c : Char) : Bool := Text.isLower c || Text.isDigit c || c == '_' || c == '-'

theorem isNameChar_of_mem_nameOfPath (path : String) :
    ∀ c ∈ (nameOfPath path).toList, isNameChar c = true := by
  intro c hc
  have hmark : isNameChar '_' = true := by decide
  unfold nameOfPath at hc
  simp only at hc
  split_ifs at hc
  · have hall : "api".toList.all isNameChar = true := by decide
    exact List.all_eq_true.mp hall c hc
  · rw [Text.trimChar, String.toList_ofList] at hc
    have hslug := (Text.trimWhile_infix _ _).subset hc
    rw [Text.mapChars, String.toList_ofList] at hslug
    obtain ⟨d, hd, hshown⟩ := List.mem_flatMap.mp hslug
    have hlow := Text.not_upper_of_mem_lower hd
    split_ifs at hshown with hkept
    · obtain rfl := List.mem_singleton.mp hshown
      have hkind : Text.isLower c = true ∨ Text.isDigit c = true ∨ c = '-' := by
        simpa [Text.isAlnum, hlow, or_assoc] using hkept
      rcases hkind with hletter | hdigit | rfl
      · simp [isNameChar, hletter]
      · simp [isNameChar, hdigit]
      · decide
    · rwa [List.mem_singleton.mp hshown]

/-- A description that a file holds has its name from the path of the file. -/
theorem isNameChar_of_ofPath {fs : FileSystem} {path : String} {source : Source}
    (hread : Source.ofPath fs path = .ok source) :
    ∀ c ∈ source.name.toList, isNameChar c = true := by
  rw [Source.ofPath] at hread
  split at hread
  · rw [← Except.ok.inj hread]
    dsimp only
    exact isNameChar_of_mem_nameOfPath path
  · cases hread

end Spec

namespace Batch

open Fields
open Spec (isNameChar)
open RamlScaffold.Path (isTidy)

variable {env : Environment} {name path text : String} {source : Spec.Source}
  {sources : List Spec.Source}

def Read (sources : List Spec.Source) : Prop :=
  ∀ source ∈ sources, ∃ fs path, Spec.Source.ofPath fs path = .ok source

/-- Numbers keep a name plain. -/
theorem isNameChar_of_mem_names (hread : Read sources) :
    ∀ name ∈ names sources, ∀ c ∈ name.toList, isNameChar c = true := by
  apply Naming.freshAll_forall
  intro base hbase
  obtain ⟨source, hsource, rfl⟩ := List.mem_map.mp hbase
  obtain ⟨fs, path, hfile⟩ := hread source hsource
  have hname := Spec.isNameChar_of_ofPath hfile
  refine ⟨hname, ?_⟩
  intro i c hc
  simp only [Naming.numbered, String.toList_append, List.mem_append] at hc
  rcases hc with (hown | hmark) | hdigits
  · exact hname c hown
  · obtain rfl : c = '_' := by simpa using hmark
    decide
  · simp [isNameChar, Code.isDigit_of_mem_toString hdigits]

def directories (name : String) : List String := [name ++ "-flask", name ++ "-client"]

theorem plain_of_mem_directories {directory : String}
    (hname : ∀ c ∈ name.toList, isNameChar c = true) (hdirectory : directory ∈ directories name) :
    ∀ c ∈ directory.toList, isNameChar c = true := by
  have hending (ending : String) (hplain : ending.toList.all isNameChar = true) :
      ∀ c ∈ (name ++ ending).toList, isNameChar c = true := by
    intro c hc
    rw [String.toList_append, List.mem_append] at hc
    rcases hc with hown | hadded
    · exact hname c hown
    · exact List.all_eq_true.mp hplain c hadded
  simp only [directories, List.mem_cons, List.not_mem_nil, or_false] at hdirectory
  rcases hdirectory with rfl | rfl
  · exact hending "-flask" (by decide)
  · exact hending "-client" (by decide)

/-- A directory with a plain name is one name of a path and may stand before every tidy path. -/
theorem names_below {directory : String} (hplain : ∀ c ∈ directory.toList, isNameChar c = true)
    (hne : directory ≠ "") {path : String} (htidy : isTidy (Text.splitOn '/' path) = true) :
    Text.splitOn '/' (directory ++ "/" ++ path) = directory :: Text.splitOn '/' path ∧
      isTidy (Text.splitOn '/' (directory ++ "/" ++ path)) = true := by
  have hslash : '/' ∉ directory.toList := fun hslash => absurd (hplain '/' hslash) (by decide)
  have hpoint : '.' ∉ directory.toList := fun hpoint => absurd (hplain '.' hpoint) (by decide)
  have hnames : Text.splitOn '/' (directory ++ "/" ++ path) =
      directory :: Text.splitOn '/' path := by
    rw [Path.splitOn_below, Path.splitOn_name hslash, List.singleton_append]
  refine ⟨hnames, ?_⟩
  rw [hnames]
  apply Path.isTidy_cons _ htidy
  simp [Path.isDirectoryName, hne, hpoint]

/-- Where a file of a batch stands: in the directory of a server or a client, and without a step
upwards in its path. -/
structure Placed (sources : List Spec.Source) (path : String) : Prop where
  relative : Path.isAbsolute path = false
  components : Path.components path = (Text.splitOn '/' path).map .name
  safe : ∀ part ∈ Text.splitOn '/' path, part ≠ "" ∧ part ≠ "." ∧ part ≠ ".."
  top : ∃ name ∈ names sources, (∀ c ∈ name.toList, isNameChar c = true) ∧
    ((Text.splitOn '/' path).head? = some (name ++ "-flask") ∨
      (Text.splitOn '/' path).head? = some (name ++ "-client"))

theorem tidy_of_origin [Yaml.EventSource]
    (hbackend : env.backend = fun spec settings => Client.generate settings spec)
    (horigin : Origin env name source path text) :
    ∃ directory ∈ directories name, ∃ p, path = directory ++ "/" ++ p ∧
      isTidy (Text.splitOn '/' p) = true := by
  rcases horigin with ⟨files, p, ⟨spec, _, hmade, _⟩, hfile, rfl⟩ |
    ⟨files, p, ⟨_, _, spec, _, hmade, _⟩, hfile, rfl⟩
  · refine ⟨_, List.mem_cons_self, p, rfl, ?_⟩
    exact Server.isTidy_of_generate hmade (mem_keys_of_get? hfile)
  · refine ⟨_, List.mem_cons_of_mem _ List.mem_cons_self, p, rfl, ?_⟩
    rw [hbackend] at hmade
    exact Client.isTidy_of_generate hmade (mem_keys_of_get? hfile)

theorem placed_below {directory : String} (hname : name ∈ names sources)
    (hplain : ∀ c ∈ name.toList, isNameChar c = true) (hdirectory : directory ∈ directories name)
    (htidy : isTidy (Text.splitOn '/' path) = true) :
    Placed sources (directory ++ "/" ++ path) ∧
      isTidy (Text.splitOn '/' (directory ++ "/" ++ path)) = true := by
  have hchars := plain_of_mem_directories hplain hdirectory
  have hne : directory ≠ "" := by
    rintro rfl
    simp [directories] at hdirectory
  obtain ⟨hnames, hwhole⟩ := names_below hchars hne htidy
  have hsafe := Path.safe_of_isTidy hwhole
  have htop : (Text.splitOn '/' (directory ++ "/" ++ path)).head? = some (name ++ "-flask") ∨
      (Text.splitOn '/' (directory ++ "/" ++ path)).head? = some (name ++ "-client") := by
    rw [hnames, List.head?_cons]
    simpa [directories] using hdirectory
  refine ⟨⟨?_, Path.components_eq_map_name hsafe, hsafe, ⟨name, hname, hplain, htop⟩⟩, hwhole⟩
  exact Path.not_isAbsolute fun part hpart => (hsafe part hpart).1

/-- The files of a batch stay below the place they are written to and out of each other's way. -/
structure Confined (sources : List Spec.Source) (files : Files) : Prop where
  placed : ∀ path ∈ keys files, Placed sources path
  apart : ∀ path ∈ keys files, ∀ other ∈ keys files,
    Text.splitOn '/' path <+: Text.splitOn '/' other → path = other

theorem placed_of_mem_run [Yaml.EventSource]
    (hbackend : env.backend = fun spec settings => Client.generate settings spec)
    (hread : Read sources) (hpath : path ∈ keys (run env sources).files) :
    Placed sources path ∧ isTidy (Text.splitOn '/' path) = true := by
  obtain ⟨text, hfound⟩ := Option.isSome_iff_exists.mp ((get?_isSome_iff path _).mpr hpath)
  obtain ⟨name, source, hmember, horigin⟩ := run_origin hfound
  obtain ⟨directory, hdirectory, p, rfl, htidy⟩ := tidy_of_origin hbackend horigin
  have hname := mem_names_of_mem_named hmember
  exact placed_below hname (isNameChar_of_mem_names hread name hname) hdirectory htidy

/-- Descriptions that are read from files give confined files, with the built-in clients and
whatever the settings and the checker are. -/
theorem run_confined [Yaml.EventSource]
    (hbackend : env.backend = fun spec settings => Client.generate settings spec)
    (hread : Read sources) : Confined sources (run env sources).files where
  placed := by
    intro path hpath
    exact (placed_of_mem_run hbackend hread hpath).1
  apart := by
    intro path hpath other hother hleads
    have hnames := (placed_of_mem_run hbackend hread hpath).2
    have hothers := (placed_of_mem_run hbackend hread hother).2
    apply Text.splitOn_injective '/'
    exact Path.eq_of_prefix_of_isTidy hnames hothers hleads

/-- The commands read all their descriptions from files. -/
theorem read_sources (fs : FileSystem) (paths : List String) :
    Read (Command.sources fs paths).1 := by
  induction paths with
  | nil =>
    intro source hsource
    cases hsource
  | cons path rest ih =>
    cases hrest : Command.sources fs rest with
    | mk found failures =>
      rw [hrest] at ih
      simp only [Command.sources, hrest]
      split
      next source hfile => exact List.forall_mem_cons.mpr ⟨⟨fs, path, hfile⟩, ih⟩
      next => exact ih

def twoVersions : FileSystem :=
  ⟨[(["v1", "Shop.raml"], .text "title: Shop"), (["v2", "Shop.raml"], .text "title: Shop")],
    [["v1"], ["v2"]], [], []⟩

/-- The second of two descriptions with one name gets a directory of its own. -/
theorem run_confined_twoVersions :
    let env : Environment := ⟨twoVersions, ⟨.default, true⟩, fun _ => .ok (),
      fun spec settings => Client.generate settings spec⟩
    let sources := (Command.sources twoVersions ["v1/Shop.raml", "v2/Shop.raml"]).1
    names sources = ["shop", "shop_1"] ∧ Confined sources (run env sources).files := by
  intro env sources
  refine ⟨by decide, run_confined rfl (read_sources _ _)⟩

end Batch

end RamlScaffold

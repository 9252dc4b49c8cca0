import RamlScaffold.Client.Package
import RamlScaffold.Proofs.Artifact.Reading
import RamlScaffold.Proofs.Code.Emitted
import RamlScaffold.Proofs.Route.Partition

/-!
The name of the aggregate class. It is made from the name of the package, and the keyword guard of
that name is gone once its words are joined: the capital then makes a keyword of a constant and a
name of the package's own of an exception. The clients of the groups are avoided, and all else that
the module binds starts with an underscore.
-/

namespace RamlScaffold

namespace ClientSettings

/-- Words of a name that are no keyword and have no digit, so that no other name is joined to the
same text. -/
def IsWord (word : String) : Prop :=
  (Naming.snake word = word ∧ word.toList.head?.any Text.isLower = true) ∧
    (word.toList.all fun c => !Text.isDigit c) = true ∧ word ∉ Code.keywords

instance : DecidablePred IsWord := fun _ => inferInstanceAs (Decidable (_ ∧ _))

/-- The class starts with a capital and goes on with letters and digits. -/
theorem className_eq (settings : ClientSettings) :
    ∃ c rest, settings.className = .ofList (c :: rest) ∧ Text.isUpper c = true ∧
      ∀ d ∈ rest, Text.isAlnum d = true := by
  obtain ⟨stem, hstem, hpackage⟩ := settings.package_stem
  obtain ⟨c, rest, hchars, hlower, hcapital, -⟩ := Naming.joined_of_stem hstem
  refine ⟨Text.upperChar c, Naming.continued rest, ?_, Text.isUpper_upperChar hlower, ?_⟩
  · rw [className, hpackage, Naming.pascal_nonKeyword hstem, hcapital]
  · apply (Naming.isAlnum_joined rest _).2
    intro d hd
    exact hstem.shaped.chars d (by rw [hchars]; exact List.mem_cons_of_mem c hd)

/-- Only a word itself, as the name of a package, is joined to the text of the word. -/
theorem className_eq_pascal_iff (settings : ClientSettings) {word : String} (hword : IsWord word) :
    settings.className = Naming.pascal word ↔ settings.package = word := by
  obtain ⟨⟨hsnake, hletter⟩, hdigits, hplain⟩ := hword
  have hstem : Code.Stem word :=
    Code.stem_of_snake_eq hsnake (by simpa [Option.any_eq_true] using hletter)
  have hfree : ∀ c ∈ word.toList, Text.isDigit c = false := by simpa using hdigits
  have hkept : Code.nonKeyword word = word := by simp [Code.nonKeyword, Code.avoid, hplain]
  have hjoined : Naming.pascal word = .ofList (Naming.capitalized word.toList) := by
    rw [← Naming.pascal_nonKeyword hstem, hkept]
  obtain ⟨stem, hown, hpackage⟩ := settings.package_stem
  constructor
  · intro hsame
    rw [className, hpackage, Naming.pascal_nonKeyword hown, hjoined, String.ofList_inj,
      Naming.capitalized_eq_iff hown hstem, Naming.joinDigits_eq_self _ hfree] at hsame
    have hnames : stem = word := String.toList_inj.mp (Naming.eq_of_joinDigits_eq hfree hsame)
    rw [hpackage, hnames, hkept]
  · intro hsame
    rw [className, hsame]

theorem className_mem_iff (settings : ClientSettings) {words : List String}
    (hwords : ∀ word ∈ words, IsWord word) :
    settings.className ∈ words.map Naming.pascal ↔ settings.package ∈ words := by
  rw [List.mem_map]
  constructor
  · rintro ⟨word, hword, hsame⟩
    rw [(settings.className_eq_pascal_iff (hwords word hword)).mp hsame.symm]
    exact hword
  · intro hpackage
    exact ⟨_, hpackage, rfl⟩

end ClientSettings

namespace Client

/-- Words that end neither as the client of a group does nor as a class that makes way for one. -/
def endsApart (word : String) : Bool :=
  word.toList.getLast? != some 't' && word.toList.getLast? != some 'i'

theorem aggregateName_cases (preferred : String) (groups : List Group) :
    (∃ g ∈ groups, preferred = g.name.pascal ++ "Client" ∧
        aggregateName preferred groups = g.name.pascal ++ "Client" ++ "Api") ∨
      (∀ g ∈ groups, preferred ≠ g.name.pascal ++ "Client") ∧
        aggregateName preferred groups = preferred := by
  by_cases hclash : ∃ g ∈ groups, g.name.pascal ++ "Client" = preferred
  · obtain ⟨g, hg, rfl⟩ := hclash
    refine Or.inl ⟨g, hg, rfl, if_pos ?_⟩
    exact List.any_eq_true.mpr ⟨g, hg, beq_self_eq_true _⟩
  · refine Or.inr ⟨fun g hg hsame => hclash ⟨g, hg, hsame.symm⟩, if_neg ?_⟩
    simpa using hclash

/-- Making way for a client neither gives nor takes one of such words. -/
theorem aggregateName_mem_iff (preferred : String) (groups : List Group) {words : List String}
    (hwords : ∀ word ∈ words, endsApart word = true) :
    aggregateName preferred groups ∈ words ↔ preferred ∈ words := by
  rcases aggregateName_cases preferred groups with ⟨g, -, hpreferred, hname⟩ | ⟨-, hname⟩
  · rw [hname, hpreferred]
    constructor
    · intro hmem
      have hends := hwords _ hmem
      simp [endsApart] at hends
    · intro hmem
      have hends := hwords _ hmem
      simp [endsApart] at hends
  · rw [hname]

theorem aggregateName_ne_client (preferred : String) {groups : List Group} {g : Group}
    (hg : g ∈ groups) : aggregateName preferred groups ≠ g.name.pascal ++ "Client" := by
  rcases aggregateName_cases preferred groups with ⟨other, -, -, hname⟩ | ⟨hapart, hname⟩
  · rw [hname]
    intro hsame
    have hlast := congrArg (fun name => name.toList.getLast?) hsame
    simp at hlast
  · rw [hname]
    exact hapart g hg

namespace Context

variable (c : Context)

theorem className_head : ∃ first rest, c.className.toList = first :: rest ∧
    Text.isUpper first = true ∧ ∀ d ∈ rest, Text.isAlnum d = true := by
  obtain ⟨first, rest, hclass, hupper, hrest⟩ := c.settings.className_eq
  rcases aggregateName_cases c.settings.className c.groups with
    ⟨g, -, hpreferred, hname⟩ | ⟨-, hname⟩
  · refine ⟨first, rest ++ "Api".toList, ?_, hupper, ?_⟩
    · rw [className, hname, ← hpreferred, hclass]
      simp
    · intro d hd
      rcases List.mem_append.mp hd with hd | hd
      · exact hrest d hd
      · exact List.all_eq_true.mp (show "Api".toList.all Text.isAlnum = true by decide) d hd
  · exact ⟨first, rest, by rw [className, hname, hclass, String.toList_ofList], hupper, hrest⟩

theorem isIdentifier_className : Code.isIdentifier c.className = true := by
  obtain ⟨first, rest, hchars, hupper, hrest⟩ := c.className_head
  rw [← String.ofList_toList (s := c.className), hchars]
  exact Code.isIdentifier_of_alnum (Or.inl hupper) hrest

def errorNames : List String :=
  ["APIError", "AuthenticationError", "NotFoundError", "ServerError", "ValidationError"]

def otherNames : List String :=
  "_Transport" :: errorNames ++ c.groups.map (·.name.pascal ++ "Client") ++
    ["__version__", "__all__"]

/-- The packages whose class is a keyword: of all keywords, only the constants have a capital. -/
def constantWords : List String := ["false", "none", "true"]

def errorWords : List String :=
  ["a_p_i_error", "authentication_error", "not_found_error", "server_error", "validation_error"]

theorem className_mem_pascal_iff {words : List String}
    (hwords : ∀ word ∈ words, ClientSettings.IsWord word)
    (hends : ∀ word ∈ words.map Naming.pascal, endsApart word = true) :
    c.className ∈ words.map Naming.pascal ↔ c.package ∈ words := by
  rw [className, aggregateName_mem_iff _ c.groups hends]
  exact c.settings.className_mem_iff hwords

theorem className_mem_keywords_iff :
    c.className ∈ Code.keywords ↔ c.package ∈ constantWords := by
  have hconstants : constantWords.map Naming.pascal = ["False", "None", "True"] := by decide
  have hcapital : ∀ word ∈ Code.keywords, word.toList.head?.any Text.isUpper = true →
      word ∈ ["False", "None", "True"] := by decide
  have hkeywords : ∀ word ∈ ["False", "None", "True"], word ∈ Code.keywords := by decide
  rw [← c.className_mem_pascal_iff (by decide) (by rw [hconstants]; decide), hconstants]
  constructor
  · intro hmem
    obtain ⟨first, rest, hchars, hupper, -⟩ := c.className_head
    exact hcapital _ hmem (by simp [hchars, hupper])
  · exact hkeywords _

theorem className_mem_otherNames_iff : c.className ∈ c.otherNames ↔ c.package ∈ errorWords := by
  have herrors : errorWords.map Naming.pascal = errorNames := by decide
  have hcapital (word : String) (hword : word.toList.head? = some '_') : c.className ≠ word := by
    intro hsame
    obtain ⟨first, rest, hchars, hupper, -⟩ := c.className_head
    rw [← hsame, hchars, List.head?_cons, Option.some.injEq] at hword
    rw [hword] at hupper
    cases hupper
  have hclients : c.className ∉ c.groups.map (·.name.pascal ++ "Client") := by
    intro hmem
    obtain ⟨g, hg, hsame⟩ := List.mem_map.mp hmem
    exact aggregateName_ne_client _ hg hsame.symm
  rw [← c.className_mem_pascal_iff (by decide) (by rw [herrors]; decide), herrors]
  simp only [otherNames, List.cons_append, List.mem_cons, List.mem_append, hclients, or_false,
    List.not_mem_nil, hcapital "_Transport" rfl, hcapital "__version__" rfl,
    hcapital "__all__" rfl, false_or]

end Context

open Source

theorem blank_not_mem {name : String} (hname : Code.isIdentifier name = true) :
    ' ' ∉ name.toList := by
  intro hblank
  exact absurd (Code.isIdentifierChar_of_mem hname hblank) (by decide)

section

variable {package : String} (hpackage : Code.isIdentifier package = true)

include hpackage

theorem binds_transport :
    Binds ["from ", package, ".base_client import BaseClient as _Transport"] "_Transport" := by
  have hwords : Line.words ["from ", package, ".base_client import BaseClient as _Transport"] =
      ["from", package ++ ".base_client", "import", "BaseClient", "as", "_Transport"] := by
    apply Line.words_eq (by simp)
    · simp [Text.joinWith, Piece.render]
    · simp [blank_not_mem hpackage]
  rw [Binds, hwords]
  exact ⟨rfl, rfl⟩

theorem opensList_errors :
    opensList (Line.words ["from ", package, ".exceptions import ("]) = true := by
  have hwords : Line.words ["from ", package, ".exceptions import ("] =
      ["from", package ++ ".exceptions", "import", "("] := by
    apply Line.words_eq (by simp)
    · simp [Text.joinWith, Piece.render]
    · simp [blank_not_mem hpackage]
  rw [hwords]
  rfl

theorem binds_client {g : Group} (hg : g.WellNamed) :
    Binds ["from ", package, ".resources.", g.name.snake, ".client import ", g.name.pascal,
      "Client"] (g.name.pascal ++ "Client") := by
  have hpath : ' ' ∉ (package ++ ".resources." ++ g.name.snake ++ ".client").toList := by
    simp [blank_not_mem hpackage, blank_not_mem hg.snake.form]
  have hclient : ' ' ∉ (g.name.pascal ++ "Client").toList := by
    simp [blank_not_mem hg.pascal.form]
  have hlast : g.name.pascal ++ "Client" ≠ "(" := by
    intro hsame
    have hchars := congrArg (fun name => name.toList.getLast?) hsame
    simp at hchars
  have hwords : Line.words ["from ", package, ".resources.", g.name.snake, ".client import ",
      g.name.pascal, "Client"] = ["from", package ++ ".resources." ++ g.name.snake ++ ".client",
        "import", g.name.pascal ++ "Client"] := by
    apply Line.words_eq (by simp)
    · simp [Text.joinWith, Piece.render]
    · simp [-String.toList_append, hpath, hclient]
  rw [Binds, hwords]
  exact ⟨by simp [opensList, hlast], rfl⟩

end

/-- The value of the version is not looked at, so it may have any spaces. -/
theorem binds_version (version : String) :
    Binds ["__version__ = ", .literal version] "__version__" := by
  have hvalue : (Line.written ["__version__ = ", .literal version]).toList =
      "__version__ =".toList ++ ' ' :: (Code.quote version).toList := by
    simp [Piece.render]
  have hwords : Line.words ["__version__ = ", .literal version] =
      ["__version__", "="] ++ Text.splitOn ' ' (Code.quote version) :=
    Text.splitOn_of_append hvalue
  rw [Binds, hwords]
  exact ⟨rfl, rfl⟩

theorem binds_class {name : String} (hname : Code.isIdentifier name = true) :
    Binds ["class ", name, ":"] name := by
  have hwords : Line.words ["class ", name, ":"] = ["class", name ++ ":"] := by
    apply Line.words_eq (by simp)
    · simp [Text.joinWith, Piece.render]
    · simp [blank_not_mem hname]
  rw [Binds, hwords]
  exact ⟨rfl, by simp [boundName?, Text.dropEnd?, Text.endsWith]⟩

theorem boundNames_errors (rest : Source) :
    boundNames true ("    APIError," :: "    AuthenticationError," :: "    NotFoundError," ::
      "    ServerError," :: "    ValidationError," :: ")" :: rest) =
      Context.errorNames ++ boundNames false rest := by
  rfl

theorem boundNames_packageModule (settings : ClientSettings) (spec : Specification) :
    let c := Context.ofSpecification settings spec
    boundNames false (packageModule c) = c.otherNames ++ [c.className] := by
  intro c
  have hpackage : Code.isIdentifier c.package = true := settings.isIdentifier_package
  have hclients := boundNames_each fun g (hg : g ∈ c.groups) =>
    binds_client hpackage (Group.wellNamed_of_mem hg)
  have hall : Binds "__all__ = [" "__all__" := ⟨by decide, by decide⟩
  rw [packageModule, join]
  simp only [List.flatten_cons, List.flatten_nil, List.append_nil, List.cons_append,
    List.nil_append]
  rw [boundNames_silent_cons rfl, boundNames_cons (binds_transport hpackage),
    boundNames_list (opensList_errors hpackage), boundNames_errors, hclients,
    boundNames_silent_cons rfl, boundNames_cons (binds_version _), boundNames_silent_cons rfl,
    boundNames_cons hall]
  -- What is left before the class lists names as literals, and the class itself is indented.
  repeat rw [boundNames_silent_cons rfl]
  rw [boundNames_cons (binds_class c.isIdentifier_className), boundNames_silent]
  · simp [Context.otherNames]
  · have hblank : startsNoName ' ' = true := rfl
    simp [each, isSilent, hblank]

/-- The name of the aggregate class is an identifier, and it is bound last in its module. For three
packages it is a keyword, for five the module has bound it before, and for all others it is free. -/
theorem aggregate_name_free_iff (settings : ClientSettings) (spec : Specification) :
    let c := Context.ofSpecification settings spec
    boundNames false (packageModule c) = c.otherNames ++ [c.className] ∧
      Code.isIdentifier c.className = true ∧
      (c.className ∉ Code.keywords ↔ c.package ∉ Context.constantWords) ∧
      (c.className ∉ c.otherNames ↔ c.package ∉ Context.errorWords) := by
  intro c
  refine ⟨boundNames_packageModule settings spec, c.isIdentifier_className, ?_, ?_⟩
  · rw [c.className_mem_keywords_iff]
  · rw [c.className_mem_otherNames_iff]

/-- Settings are accepted that make a keyword or an exception of the class. -/
theorem aggregate_name_taken :
    let keyword : ClientSettings := ⟨"none", true, true⟩
    let twice : ClientSettings := ⟨"server_error", true, true⟩
    let spec := Group.bareSpecification []
    (keyword.check = .ok () ∧ (Context.ofSpecification keyword spec).className = "None" ∧
      "None" ∈ Code.keywords) ∧
    (twice.check = .ok () ∧ (Context.ofSpecification twice spec).className = "ServerError" ∧
      "ServerError" ∈ (Context.ofSpecification twice spec).otherNames) := by
  decide

end Client

end RamlScaffold

import Mathlib.Data.List.Basic
import RamlScaffold.Proofs.Code.Emitted
import RamlScaffold.Proofs.Storage.Names
import RamlScaffold.Validation.Imports

/-!
Which modules a set of files has, and which lines are imports. A set has the modules at its paths
and the packages around them. A line is an import only if its first word is one of two keywords and
a name or a point follows, so most lines are seen to be none by the word they start with.
-/

namespace RamlScaffold

namespace ModuleName

variable {name module : ModuleName} {stem : String}

/-- A module and the packages around it are the beginnings of its name. -/
theorem mem_enclosing : name ∈ enclosing module ↔ name ≠ [] ∧ name <+: module := by
  simp only [enclosing, List.mem_map, List.mem_range]
  constructor
  · rintro ⟨n, hn, rfl⟩
    refine ⟨?_, List.take_prefix _ _⟩
    intro hempty
    have hlength := congrArg List.length hempty
    simp only [List.length_take, List.length_nil] at hlength
    omega
  · rintro ⟨hne, hbegins⟩
    have hpositive := List.length_pos_iff.mpr hne
    have hlength := hbegins.length_le
    refine ⟨name.length - 1, by omega, ?_⟩
    rw [Nat.sub_add_cancel hpositive]
    exact (List.prefix_iff_eq_take.mp hbegins).symm

theorem ofText_ne_nil (text : String) : ofText text ≠ [] := by
  rw [ofText, Text.splitOn, Text.cutAt_eq_splitOn, ne_eq, List.map_eq_nil_iff]
  exact List.splitOn_ne_nil _ _

/-- Slashes separate the names of a path as points separate the segments of a module. -/
theorem cutAt_dotted {cs : List Char} (hpoint : '.' ∉ cs) :
    Text.cutAt '.' (cs.flatMap fun c => if c == '/' then ['.'] else [c]) = Text.cutAt '/' cs := by
  induction cs with
  | nil => rfl
  | cons c rest ih =>
    rw [List.mem_cons, not_or] at hpoint
    have hc : (c == '.') = false := by simpa using Ne.symm hpoint.1
    rw [List.flatMap_cons]
    cases hslash : c == '/' with
    | true => simp only [if_true, List.singleton_append, Text.cutAt, beq_self_eq_true, hslash,
        ih hpoint.2]
    | false => simp only [Bool.false_eq_true, if_false, List.singleton_append, Text.cutAt, hc,
        hslash, ih hpoint.2]

theorem ofText_dotted (hpoint : '.' ∉ stem.toList) :
    ofText (Text.mapChars (fun c => if c == '/' then ['.'] else [c]) stem) =
      Text.splitOn '/' stem := by
  rw [ofText, Text.mapChars, Text.splitOn, String.toList_ofList, cutAt_dotted hpoint, Text.splitOn]

theorem dropEnd?_append (part s : String) : Text.dropEnd? part (s ++ part) = some s := by
  simp [Text.dropEnd?, Text.endsWith]

/-- The last name of a path decides whether it is that of a package. -/
theorem getLast?_of_package (hends : Text.endsWith "/__init__" stem = true) :
    (Text.splitOn '/' stem).getLast? = some "__init__" := by
  obtain ⟨above, habove⟩ := List.isSuffixOf_iff_suffix.mp hends
  have hstem : stem = .ofList above ++ "/" ++ "__init__" := by
    apply String.toList_inj.mp
    rw [← habove]
    simp
  rw [hstem, Path.splitOn_below]
  simp [Path.splitOn_name]

theorem ofPath?_file (hpoint : '.' ∉ stem.toList) (hempty : stem ≠ "")
    (hlast : (Text.splitOn '/' stem).getLast? ≠ some "__init__") :
    ofPath? (stem ++ ".py") = some (Text.splitOn '/' stem) := by
  have hinit : stem ≠ "__init__" := by
    rintro rfl
    exact hlast (by decide)
  have hwhole : Text.dropEnd? "/__init__" stem = none := by
    rw [Text.dropEnd?, if_neg fun hends => hlast (getLast?_of_package hends)]
  simp only [ofPath?, dropEnd?_append, hwhole, Option.getD_none, beq_eq_false_iff_ne.mpr hempty,
    beq_eq_false_iff_ne.mpr hinit, Bool.or_self, Bool.false_eq_true, if_false,
    ofText_dotted hpoint]

theorem ofPath?_package (hpoint : '.' ∉ stem.toList) (hempty : stem ≠ "")
    (hinit : stem ≠ "__init__") :
    ofPath? (stem ++ "/__init__.py") = some (Text.splitOn '/' stem) := by
  have hpath : stem ++ "/__init__.py" = stem ++ "/__init__" ++ ".py" := by
    rw [String.append_assoc]
    rfl
  simp only [ofPath?, hpath, dropEnd?_append, Option.getD_some, beq_eq_false_iff_ne.mpr hempty,
    beq_eq_false_iff_ne.mpr hinit, Bool.or_self, Bool.false_eq_true, if_false,
    ofText_dotted hpoint]

end ModuleName

namespace ModuleIndex

variable {paths : List String} {name : ModuleName} {index : ModuleIndex}

theorem provides_ofPaths_iff : (ofPaths paths).provides name = true ↔
    ∃ path ∈ paths, ∃ module, ModuleName.ofPath? path = some module ∧ name ≠ [] ∧
      name <+: module := by
  simp only [provides, ofPaths, List.contains_iff_mem, List.mem_flatMap, List.mem_filterMap,
    ModuleName.mem_enclosing]
  constructor
  · rintro ⟨module, ⟨path, hpath, hmodule⟩, hbegins⟩
    exact ⟨path, hpath, module, hmodule, hbegins⟩
  · rintro ⟨path, hpath, module, hmodule, hbegins⟩
    exact ⟨module, ⟨path, hpath, hmodule⟩, hbegins⟩

theorem not_lacks_of_provides (hprovided : index.provides name = true) :
    index.lacks name = false := by
  simp [lacks, hprovided]

theorem not_lacks_of_foreign (hforeign : index.isLocal name = false) :
    index.lacks name = false := by
  simp [lacks, hforeign]

end ModuleIndex

namespace ImportLine

open Code (isIdentifier isIdentifierChar)

variable {cs rest : List Char} {found : ImportLine} {index : ModuleIndex}

def ofChars? (cs : List Char) : Option ImportLine :=
  let cs := cs.dropWhile Text.isBlank
  match from? cs with
  | some found => some found
  | none => plain? cs

theorem ofLine?_ofList (cs : List Char) : ofLine? (.ofList cs) = ofChars? cs := by
  have hchars : ofLine? (.ofList cs) = ofChars? (String.ofList cs).toList := rfl
  rw [hchars, String.toList_ofList]

theorem dropWhile_indent {indent : List Char} (hindent : indent.all Text.isBlank = true)
    (cs : List Char) : (indent ++ cs).dropWhile Text.isBlank = cs.dropWhile Text.isBlank :=
  List.dropWhile_append_of_pos (List.all_eq_true.mp hindent)

theorem ofChars?_indent {indent : List Char} (hindent : indent.all Text.isBlank = true)
    (cs : List Char) : ofChars? (indent ++ cs) = ofChars? cs := by
  rw [ofChars?, ofChars?, dropWhile_indent hindent]

theorem afterWord?_eq_some {word : String} (hrest : afterWord? word cs = some rest) :
    cs = word.toList ++ rest := by
  unfold afterWord? at hrest
  split at hrest
  · next hbegins =>
    obtain ⟨more, rfl⟩ := List.isPrefixOf_iff_prefix.mp hbegins
    simpa using hrest
  · cases hrest

theorem afterBlanks?_eq_some (hrest : afterBlanks? cs = some rest) :
    ∃ b more, cs = b :: more ∧ Text.isBlank b = true ∧ rest = more.dropWhile Text.isBlank := by
  unfold afterBlanks? at hrest
  split at hrest
  · next b more =>
    split at hrest
    · next hblank => exact ⟨b, more, rfl, hblank, by simpa using hrest.symm⟩
    · cases hrest
  · cases hrest

theorem dottedName?_eq_some {name : String} (hname : dottedName? cs = some (name, rest)) :
    ∃ c more, cs = c :: more ∧ isNameStart c = true := by
  unfold dottedName? at hname
  split at hname
  · next c more =>
    split at hname
    · next hstart => exact ⟨c, more, rfl, hstart⟩
    · cases hname
  · cases hname

theorem target?_eq_some {target : ImportLine} (htarget : target? cs = some (target, rest)) :
    ∃ c more, cs = c :: more ∧ (isNameStart c = true ∨ c = '.') := by
  cases cs with
  | nil => simp [target?, dottedName?] at htarget
  | cons c more =>
    refine ⟨c, more, rfl, ?_⟩
    by_cases hpoint : c = '.'
    · exact Or.inr hpoint
    · have hc : (c == '.') = false := by simpa using hpoint
      simp only [target?, List.takeWhile_cons, List.dropWhile_cons, hc] at htarget
      cases hname : dottedName? (c :: more) with
      | none => simp [hname] at htarget
      | some found =>
        obtain ⟨_, _, heq, hstart⟩ := dottedName?_eq_some hname
        obtain ⟨rfl, _⟩ := List.cons.inj heq
        exact Or.inl hstart

def keywords : List (List Char) := ["from".toList, "import".toList]

/-- An import starts with a keyword, blanks, and the beginning of a name or a point. -/
theorem words_of_ofChars? (hfound : ofChars? cs = some found) :
    ∃ word ∈ keywords, ∃ b more c later, cs.dropWhile Text.isBlank = word ++ b :: more ∧
      Text.isBlank b = true ∧ more.dropWhile Text.isBlank = c :: later ∧
      (isNameStart c = true ∨ c = '.') := by
  unfold ofChars? at hfound
  simp only at hfound
  split at hfound
  · next target hfrom =>
    simp only [from?, Option.bind_eq_bind, Option.bind_eq_some_iff, Prod.exists] at hfrom
    obtain ⟨_, hword, _, hblanks, line, afterTarget, htarget, _⟩ := hfrom
    obtain ⟨b, more, rfl, hblank, rfl⟩ := afterBlanks?_eq_some hblanks
    obtain ⟨c, later, hnext, hstart⟩ := target?_eq_some htarget
    exact ⟨_, List.mem_cons_self, b, more, c, later, afterWord?_eq_some hword, hblank, hnext,
      hstart⟩
  · simp only [plain?, Option.bind_eq_bind, Option.bind_eq_some_iff, Prod.exists] at hfound
    obtain ⟨_, hword, _, hblanks, name, afterName, hname, _⟩ := hfound
    obtain ⟨b, more, rfl, hblank, rfl⟩ := afterBlanks?_eq_some hblanks
    obtain ⟨c, later, hnext, hstart⟩ := dottedName?_eq_some hname
    exact ⟨_, List.mem_cons_of_mem _ List.mem_cons_self, b, more, c, later,
      afterWord?_eq_some hword, hblank, hnext, Or.inl hstart⟩

theorem not_isBlank_of_printed {c : Char} (hlow : 33 ≤ c.toNat) (hhigh : c.toNat < 128) :
    Text.isBlank c = false := by
  simp only [Text.isBlank, Bool.or_eq_false_iff, Bool.and_eq_false_iff, decide_eq_false_iff_not,
    beq_eq_false_iff_ne]
  omega

theorem printed_of_identifierChar {c : Char} (hc : isIdentifierChar c = true) :
    33 ≤ c.toNat ∧ c.toNat < 128 := by
  simp only [isIdentifierChar, Text.isAlnum, Bool.or_eq_true, Text.isUpper_iff, Text.isLower_iff,
    Text.isDigit_iff, beq_iff_eq] at hc
  rcases hc with ((hupper | hlower) | hdigit) | rfl
  · omega
  · omega
  · omega
  · decide

theorem not_isBlank_of_identifierChar {c : Char} (hc : isIdentifierChar c = true) :
    Text.isBlank c = false :=
  not_isBlank_of_printed (printed_of_identifierChar hc).1 (printed_of_identifierChar hc).2

theorem isNameRest_of_identifierChar {c : Char} (hc : isIdentifierChar c = true) :
    isNameRest c = true := by
  have hascii := (printed_of_identifierChar hc).2
  simp only [isIdentifierChar, Text.isAlnum, Text.isUpper, Text.isLower, Text.isDigit,
    Bool.or_eq_true] at hc
  simp only [isNameRest, Text.isWord, hascii, if_true, Text.isIdentifierRest,
    Text.isIdentifierStart, Bool.or_eq_true]
  tauto

/-- The word that a line starts with, as far as it could be a keyword. -/
def leading (cs : List Char) : List Char :=
  (cs.dropWhile Text.isBlank).takeWhile isIdentifierChar

theorem ofChars?_eq_none (hleading : leading cs ∉ keywords) : ofChars? cs = none := by
  cases hfound : ofChars? cs with
  | none => rfl
  | some found =>
    obtain ⟨word, hword, b, more, _, _, hcs, hblank, _⟩ := words_of_ofChars? hfound
    have hchars : keywords.all (·.all isIdentifierChar) = true := by decide
    have hidentifier := List.all_eq_true.mp (List.all_eq_true.mp hchars word hword)
    have hstop : isIdentifierChar b = false := by
      rw [Bool.eq_false_iff]
      intro hchar
      rw [not_isBlank_of_identifierChar hchar] at hblank
      cases hblank
    refine absurd ?_ hleading
    rw [leading, hcs, List.takeWhile_append_of_pos hidentifier, List.takeWhile_cons, hstop]
    simpa using hword

/-- The first word of a line is settled once another character follows it. -/
theorem leading_append
    (hended : (cs.dropWhile Text.isBlank).any (!isIdentifierChar ·) = true) (rest : List Char) :
    leading (cs ++ rest) = leading cs := by
  obtain ⟨c, hc, hstop⟩ := List.any_eq_true.mp hended
  have hne : cs.dropWhile Text.isBlank ≠ [] := List.ne_nil_of_mem hc
  rw [leading, leading, List.dropWhile_append, List.isEmpty_eq_false_iff.mpr hne]
  simp only [Bool.false_eq_true, if_false]
  rw [List.takeWhile_append, if_neg]
  intro hwhole
  have hall : (cs.dropWhile Text.isBlank).takeWhile isIdentifierChar =
      cs.dropWhile Text.isBlank := List.takeWhile_prefix _ |>.eq_of_length hwhole
  have hchar := List.takeWhile_eq_self_iff.mp hall c hc
  rw [hchar] at hstop
  cases hstop

theorem dropWhile_name {name : String} (hname : isIdentifier name = true) (cs : List Char) :
    (name.toList ++ cs).dropWhile Text.isBlank = name.toList ++ cs := by
  cases hchars : name.toList with
  | nil =>
    rw [isIdentifier, hchars] at hname
    cases hname
  | cons c rest =>
    have hc : c ∈ name.toList := by rw [hchars]; exact List.mem_cons_self
    have hblank := not_isBlank_of_identifierChar (Code.isIdentifierChar_of_mem hname hc)
    simp [hblank]

theorem leading_name {name : String} (hname : isIdentifier name = true) (cs : List Char) :
    leading (name.toList ++ cs) = name.toList ++ cs.takeWhile isIdentifierChar := by
  rw [leading, dropWhile_name hname,
    List.takeWhile_append_of_pos fun c hc => Code.isIdentifierChar_of_mem hname hc]

theorem afterWord?_append (word : String) (rest : List Char) :
    afterWord? word (word.toList ++ rest) = some rest := by
  simp [afterWord?]

theorem afterBlanks?_space {c : Char} (hnext : Text.isBlank c = false) (rest : List Char) :
    afterBlanks? (' ' :: c :: rest) = some (c :: rest) := by
  have hspace : Text.isBlank ' ' = true := by decide
  simp [afterBlanks?, hspace, hnext]

theorem isIdentifierChar_of_isNameStart {c : Char} (hc : isNameStart c = true) :
    isIdentifierChar c = true := by
  simp only [isNameStart, Bool.or_eq_true] at hc
  simp only [isIdentifierChar, Text.isAlnum, Text.isUpper, Text.isLower, Bool.or_eq_true]
  tauto

/-- A dotted name ends at the first character that cannot be part of it. -/
theorem dottedName?_append {c d : Char} {name : List Char} (hstart : isNameStart c = true)
    (hname : ∀ a ∈ name, isNameRest a = true) (hstop : isNameRest d = false) (rest : List Char) :
    dottedName? (c :: (name ++ d :: rest)) = some (.ofList (c :: name), d :: rest) := by
  simp [dottedName?, hstart, List.takeWhile_append_of_pos hname,
    List.dropWhile_append_of_pos hname, hstop]

theorem target?_append {c d : Char} {name : List Char} (hstart : isNameStart c = true)
    (hname : ∀ a ∈ name, isNameRest a = true) (hstop : isNameRest d = false) (rest : List Char) :
    target? (c :: (name ++ d :: rest)) = some (.fromTarget 0 (.ofList (c :: name)), d :: rest) := by
  have hpoint : (c == '.') = false := by
    rw [beq_eq_false_iff_ne]
    rintro rfl
    cases hstart
  simp [target?, hpoint, dottedName?_append hstart hname hstop]

/-- A `from` import is read up to the end of its target, whatever is imported from there. -/
theorem ofChars?_from {c : Char} {name : List Char} (hstart : isNameStart c = true)
    (hname : ∀ a ∈ name, isNameRest a = true) (imported : List Char) :
    ofChars? ("from ".toList ++ c :: (name ++ (" import ".toList ++ imported))) =
      some (.fromTarget 0 (.ofList (c :: name))) := by
  have hblank := not_isBlank_of_identifierChar (isIdentifierChar_of_isNameStart hstart)
  have hspace : isNameRest ' ' = false := by decide
  have hkeyword : afterBlanks? (' ' :: ("import".toList ++ ' ' :: imported)) =
      some ("import".toList ++ ' ' :: imported) := afterBlanks?_space (by decide) _
  have himported : (afterBlanks? (' ' :: imported)).isSome = true := by
    have hfirst : Text.isBlank ' ' = true := by decide
    simp [afterBlanks?, hfirst]
  obtain ⟨names, hnames⟩ := Option.isSome_iff_exists.mp himported
  have hread : from? ("from".toList ++ ' ' :: c ::
      (name ++ ' ' :: ("import".toList ++ ' ' :: imported))) =
      some (.fromTarget 0 (.ofList (c :: name))) := by
    simp only [from?, Option.bind_eq_bind, afterWord?_append, Option.bind_some,
      afterBlanks?_space hblank, target?_append hstart hname hspace, hkeyword, hnames]
    rfl
  have hline : ("from ".toList ++ c :: (name ++ (" import ".toList ++ imported))).dropWhile
      Text.isBlank = "from".toList ++ ' ' :: c ::
      (name ++ ' ' :: ("import".toList ++ ' ' :: imported)) := by
    rfl
  simp only [ofChars?, hline, hread]

/-- After the first word and a blank come only blanks and quotes. -/
def OneWord (cs : List Char) : Prop :=
  ∀ d b c, [d, b, c].Sublist cs → Text.isBlank d = false → Text.isBlank b = true →
    Text.isBlank c = true ∨ c = '\''

theorem OneWord.sublist {part : List Char} (hword : OneWord cs) (hpart : part.Sublist cs) :
    OneWord part :=
  fun d b c hthree => hword d b c (hthree.trans hpart)

theorem OneWord.ofChars?_eq_none (hword : OneWord cs) : ofChars? cs = none := by
  cases hfound : ofChars? cs with
  | none => rfl
  | some found =>
    obtain ⟨word, hkeyword, b, more, c, later, hcs, hblank, hnext, hstart⟩ :=
      words_of_ofChars? hfound
    have hchars : keywords.all (fun word => !word.isEmpty && word.all isIdentifierChar) = true := by
      decide
    have hletters := List.all_eq_true.mp hchars word hkeyword
    obtain ⟨d, letters, rfl⟩ : ∃ d letters, word = d :: letters := by
      cases word with
      | nil => cases hletters
      | cons d letters => exact ⟨d, letters, rfl⟩
    have hd : Text.isBlank d = false := by
      have hall : isIdentifierChar d = true ∧ letters.all isIdentifierChar = true := by
        simpa using hletters
      exact not_isBlank_of_identifierChar hall.1
    have hc : Text.isBlank c = false ∧ c ≠ '\'' := by
      rcases hstart with hname | rfl
      · refine ⟨not_isBlank_of_identifierChar (isIdentifierChar_of_isNameStart hname), ?_⟩
        rintro rfl
        cases hname
      · exact ⟨by decide, by decide⟩
    have hlater : [c].Sublist more := by
      apply List.Sublist.trans _ (List.dropWhile_sublist Text.isBlank)
      rw [hnext]
      exact (List.nil_sublist later).cons_cons c
    have hthree : [d, b, c].Sublist cs := by
      apply List.Sublist.trans _ (List.dropWhile_sublist Text.isBlank)
      rw [hcs]
      apply List.Sublist.cons_cons
      exact (hlater.cons_cons b).trans (List.sublist_append_right letters _)
    rcases hword d b c hthree hd hblank with hblank' | hquote
    · rw [hc.1] at hblank'
      cases hblank'
    · exact absurd hquote hc.2

end ImportLine

namespace Text

def withoutReturn (cs : List Char) : List Char :=
  if cs.getLast? == some '\r' then cs.dropLast else cs

theorem withoutReturn_sublist (cs : List Char) : (withoutReturn cs).Sublist cs := by
  unfold withoutReturn
  split
  · exact List.dropLast_sublist cs
  · exact List.Sublist.refl cs

theorem withoutReturn_eq_self {cs : List Char} (hreturn : '\r' ∉ cs) : withoutReturn cs = cs := by
  unfold withoutReturn
  split
  · next hlast => exact absurd (List.mem_of_getLast? (by simpa using hlast)) hreturn
  · rfl

/-- Whole lines: each is followed by a line feed and holds none. -/
theorem cutAt_whole {bodies : List (List Char)} (hwhole : ∀ b ∈ bodies, '\n' ∉ b) :
    cutAt '\n' (bodies.flatMap (· ++ ['\n'])) = bodies ++ [[]] := by
  induction bodies with
  | nil => rfl
  | cons b rest ih =>
    rw [List.forall_mem_cons] at hwhole
    rw [List.flatMap_cons, List.append_assoc, List.singleton_append, cutAt_eq_splitOn,
      List.splitOn_append_cons_self, List.splitOn_eq_singleton hwhole.1, ← cutAt_eq_splitOn,
      ih hwhole.2]
    rfl

/-- Every text is whole lines when a line feed is put after it. -/
theorem exists_whole (cs : List Char) :
    ∃ bodies : List (List Char), cs ++ ['\n'] = bodies.flatMap (· ++ ['\n']) ∧
      ∀ b ∈ bodies, '\n' ∉ b ∧ b.Sublist cs := by
  induction cs with
  | nil => exact ⟨[[]], rfl, by simp⟩
  | cons c rest ih =>
    obtain ⟨bodies, hrest, hbodies⟩ := ih
    have hparts : ∀ b ∈ bodies, '\n' ∉ b ∧ b.Sublist (c :: rest) :=
      fun b hb => ⟨(hbodies b hb).1, (hbodies b hb).2.cons c⟩
    by_cases hbreak : c = '\n'
    · refine ⟨[] :: bodies, ?_, List.forall_mem_cons.mpr ⟨by simp, hparts⟩⟩
      rw [hbreak, List.cons_append, hrest]
      rfl
    · cases bodies with
      | nil => simp at hrest
      | cons b more =>
        rw [List.forall_mem_cons] at hbodies hparts
        refine ⟨(c :: b) :: more, ?_, List.forall_mem_cons.mpr ⟨⟨?_, ?_⟩, hparts.2⟩⟩
        · rw [List.cons_append, hrest]
          rfl
        · simpa [Ne.symm hbreak] using hbodies.1.1
        · exact hbodies.1.2.cons_cons c

theorem lines_whole {bodies : List (List Char)} (hwhole : ∀ b ∈ bodies, '\n' ∉ b) :
    lines (.ofList (bodies.flatMap (· ++ ['\n']))) =
      bodies.map fun b => .ofList (withoutReturn b) := by
  simp only [lines, String.toList_ofList, cutAt_whole hwhole, List.getLast?_append,
    List.dropLast_concat]
  simp [withoutReturn, Function.comp_def]

end Text

namespace ModuleIndex

variable {index : ModuleIndex} {cs : List Char}

/-- Whatever a line imports from the set is there, in each package that the line may stand in. -/
def Resolves (index : ModuleIndex) (cs : List Char) : Prop :=
  ∀ found, ImportLine.ofChars? (Text.withoutReturn cs) = some found →
    ∀ package, found.missing index package = []

theorem unresolved_whole {bodies : List (List Char)} (hwhole : ∀ b ∈ bodies, '\n' ∉ b)
    (hresolved : ∀ b ∈ bodies, Resolves index b) (path : String) :
    index.unresolved path (.ofList (bodies.flatMap (· ++ ['\n']))) = [] := by
  simp only [unresolved, Text.lines_whole hwhole, List.flatMap_map, ImportLine.ofLine?_ofList,
    List.flatMap_eq_nil_iff]
  intro b hb
  split
  · next found hfound => exact hresolved b hb found hfound _
  · rfl

end ModuleIndex

end RamlScaffold

import RamlScaffold.Proofs.Validation.Imports

/-!
How `from` imports are judged. A set of files has dotted names: those of its modules and of the
packages around them. A source is judged line by line, and a line of the form of a `from` import by
its target. An absolute target is missed when it shares its first segment with a name of the set and
is none. The dots of a relative target say how many of the packages around the file are kept, and it
is missed when the absolute name below these is, or when there are too many dots.
-/

namespace RamlScaffold

namespace ModuleName

theorem text_ofText (name : String) : text (ofText name) = name :=
  Text.joinWith_splitOn rfl name

theorem ofText_text {segments : ModuleName} (hne : segments ≠ [])
    (hplain : ∀ segment ∈ segments, '.' ∉ segment.toList) : ofText (text segments) = segments :=
  Text.splitOn_joinWith rfl hne hplain

theorem plain_of_mem_ofText {name segment : String} (hsegment : segment ∈ ofText name) :
    '.' ∉ segment.toList :=
  Text.not_mem_of_mem_splitOn hsegment

theorem ofText_of_ofPath? {path : String} {module : ModuleName}
    (hmodule : ofPath? path = some module) : ∃ name, module = ofText name := by
  unfold ofPath? at hmodule
  split at hmodule
  · cases hmodule
  · simp only at hmodule
    split at hmodule
    · cases hmodule
    · exact ⟨_, (Option.some.inj hmodule).symm⟩

def slice? (name : ModuleName) (count : Nat) : Option ModuleName :=
  if count ≤ name.length then some (name.take count) else none

theorem slice?_of_le {name : ModuleName} {count : Nat} (hcount : count ≤ name.length) :
    name.slice? count = some (name.take count) :=
  if_pos hcount

/-- A module and the packages around it are slices of its name that are all in range. -/
theorem map_slice? (name : ModuleName) :
    (List.range' 1 name.length).map name.slice? = (enclosing name).map some := by
  rw [enclosing, List.map_map, List.range'_eq_map_range, List.map_map]
  apply List.map_congr_left
  intro n hn
  have hslice : name.slice? (n + 1) = some (name.take (n + 1)) :=
    slice?_of_le (List.mem_range.mp hn)
  simpa [Nat.add_comm] using hslice

def root (name : String) : String := .ofList (name.toList.takeWhile (· != '.'))

theorem take_ofText (name : String) : (ofText name).take 1 = [root name] := by
  obtain ⟨pieces, hpieces⟩ := Text.cutAt_eq_cons '.' name.toList
  rw [ofText, Text.splitOn, hpieces]
  rfl

end ModuleName

namespace ModuleIndex

open ModuleName (ofText root)

/-- The dotted names of a set of files: the module at each path, and each beginning of its name. -/
def IsModule (paths : List String) (name : String) : Prop :=
  ∃ path ∈ paths, ∃ module, ModuleName.ofPath? path = some module ∧
    ∃ segments, segments ≠ [] ∧ segments <+: module ∧ name = ModuleName.text segments

/-- A dotted name that starts as one of the set does and is none of them. -/
def Misses (paths : List String) (name : String) : Prop :=
  (∃ module, IsModule paths module ∧ root module = root name) ∧ ¬ IsModule paths name

variable {paths : List String} {name : String}

theorem isModule_iff : IsModule paths name ↔ (ofPaths paths).provides (ofText name) = true := by
  rw [provides_ofPaths_iff]
  constructor
  · rintro ⟨path, hpath, module, hmodule, segments, hne, hbegins, rfl⟩
    obtain ⟨whole, rfl⟩ := ModuleName.ofText_of_ofPath? hmodule
    have hsame := ModuleName.ofText_text hne fun segment hsegment =>
      ModuleName.plain_of_mem_ofText (hbegins.subset hsegment)
    exact ⟨path, hpath, _, hmodule, by rwa [hsame], by rwa [hsame]⟩
  · rintro ⟨path, hpath, module, hmodule, hne, hbegins⟩
    exact ⟨path, hpath, module, hmodule, _, hne, hbegins, (ModuleName.text_ofText name).symm⟩

/-- A package has the first segment of every name below it, and is a name of the set with each. -/
theorem isLocal_iff : (ofPaths paths).isLocal (ofText name) = true ↔
    ∃ module, IsModule paths module ∧ root module = root name := by
  have hplain : '.' ∉ (root name).toList := by
    rw [root, String.toList_ofList]
    intro hmem
    simpa using List.mem_takeWhile_imp hmem
  have hroot : ofText (root name) = [root name] := Text.splitOn_plain hplain
  rw [isLocal, ModuleName.take_ofText, ← hroot, ← isModule_iff]
  constructor
  · intro hmodule
    refine ⟨root name, hmodule, ?_⟩
    have hsame := ModuleName.take_ofText (root name)
    rw [hroot] at hsame
    simpa using hsame.symm
  · rintro ⟨module, hmodule, hsame⟩
    obtain ⟨path, hpath, whole, hwhole, hne, hbegins⟩ :=
      provides_ofPaths_iff.mp (isModule_iff.mp hmodule)
    rw [isModule_iff, provides_ofPaths_iff, hroot, ← hsame, ← ModuleName.take_ofText]
    refine ⟨path, hpath, whole, hwhole, ?_, (List.take_prefix 1 _).trans hbegins⟩
    simp [ModuleName.take_ofText]

theorem lacks_iff : (ofPaths paths).lacks (ofText name) = true ↔ Misses paths name := by
  rw [lacks, Bool.and_eq_true, isLocal_iff, Bool.not_eq_true', ← Bool.not_eq_true, ← isModule_iff]
  rfl

instance (paths : List String) (name : String) : Decidable (Misses paths name) :=
  decidable_of_iff _ lacks_iff

end ModuleIndex

namespace Text

/-- A line is a piece between line feeds, or that piece without the return at its end. -/
theorem piece_of_mem_lines {source line : String} (hline : line ∈ lines source) :
    ∃ piece ∈ cutAt '\n' source.toList, line.toList.Sublist piece := by
  simp only [lines, List.mem_map] at hline
  obtain ⟨cs, hcs, rfl⟩ := hline
  rw [String.toList_ofList]
  have hbody (h : cs ∈ (cutAt '\n' source.toList).dropLast.map withoutReturn) :
      ∃ piece ∈ cutAt '\n' source.toList, cs.Sublist piece := by
    obtain ⟨piece, hpiece, rfl⟩ := List.mem_map.mp h
    exact ⟨piece, List.dropLast_subset _ hpiece, withoutReturn_sublist piece⟩
  split at hcs
  · exact hbody hcs
  · next hlast =>
    rcases List.mem_append.mp hcs with hcs | hcs
    · exact hbody hcs
    · cases hfound : (cutAt '\n' source.toList).getLast? with
      | none => simp [hfound] at hlast
      | some last =>
        obtain rfl : cs = last := by simpa [hfound] using hcs
        exact ⟨cs, List.mem_of_getLast? hfound, List.Sublist.refl cs⟩

theorem not_mem_of_mem_lines {source line : String} (hline : line ∈ lines source) :
    '\n' ∉ line.toList := by
  obtain ⟨piece, hpiece, hsublist⟩ := piece_of_mem_lines hline
  have hmem : String.ofList piece ∈ splitOn '\n' source := List.mem_map_of_mem hpiece
  have hplain := not_mem_of_mem_splitOn hmem
  rw [String.toList_ofList] at hplain
  exact fun hbreak => hplain (hsublist.subset hbreak)

/-- A text on one line is its only line, if there is anything in it. -/
theorem lines_of_line {line : String} (hline : '\n' ∉ line.toList) :
    lines line = if line = "" then [] else [line] := by
  have hpieces : cutAt '\n' line.toList = [line.toList] := by
    rw [cutAt_eq_splitOn, List.splitOn_eq_singleton hline]
  simp only [lines, hpieces]
  by_cases hempty : line = ""
  · simp [hempty]
  · simp [hempty]

end Text

namespace ModuleIndex

def missedIn (index : ModuleIndex) (packages : List String) (line : String) : List String :=
  match ImportLine.ofLine? line with
  | some found => found.missing index packages
  | none => []

theorem unresolved_of_line (index : ModuleIndex) (path : String) {line : String}
    (hline : '\n' ∉ line.toList) :
    index.unresolved path line = index.missedIn (Text.splitOn '/' path).dropLast line := by
  have hsource : index.unresolved path line =
      (Text.lines line).flatMap (index.missedIn (Text.splitOn '/' path).dropLast) := rfl
  rw [hsource, Text.lines_of_line hline]
  split
  · next hempty =>
    rw [hempty]
    rfl
  · exact List.flatMap_singleton _ _

/-- A source is judged line by line. -/
theorem unresolved_eq_flatMap (index : ModuleIndex) (path source : String) :
    index.unresolved path source = (Text.lines source).flatMap (index.unresolved path) := by
  have hsource : index.unresolved path source =
      (Text.lines source).flatMap (index.missedIn (Text.splitOn '/' path).dropLast) := rfl
  rw [hsource]
  apply List.flatMap_congr
  intro line hline
  exact (unresolved_of_line index path (Text.not_mem_of_mem_lines hline)).symm

end ModuleIndex

namespace ImportLine

structure IsGap (cs : List Char) : Prop where
  nonempty : cs ≠ []
  blank : cs.all Text.isBlank = true

theorem isGap_space : IsGap [' '] := ⟨List.cons_ne_nil _ _, rfl⟩

/-- What a `from` import may name: dots and a dotted name, or dots alone. -/
inductive IsTarget : List Char → Prop where
  | named {level : Nat} {c : Char} {name : List Char} (hstart : isNameStart c = true)
      (hname : ∀ a ∈ name, isNameRest a = true) :
      IsTarget (List.replicate level '.' ++ c :: name)
  | dots {level : Nat} : IsTarget (List.replicate (level + 1) '.')

/-- A line that starts as a `from` import does, and the target in it. -/
inductive FromLine : List Char → List Char → Prop where
  | intro {indent gap target gap' imported : List Char} {b : Char}
      (hindent : indent.all Text.isBlank = true) (hgap : IsGap gap) (htarget : IsTarget target)
      (hgap' : IsGap gap') (hblank : Text.isBlank b = true) :
      FromLine (indent ++ ("from".toList ++ (gap ++ (target ++ (gap' ++
        ("import".toList ++ b :: imported)))))) target

def level (target : List Char) : Nat := (target.takeWhile (· == '.')).length

def unqualified (target : List Char) : String := .ofList (target.dropWhile (· == '.'))

/-- The absolute name of a module below some packages; without a name, of the innermost package. -/
def below (packages : List String) (name : String) : String :=
  Text.joinWith "." (packages ++ if name = "" then [] else [name])

def blankCodes : List Nat :=
  [9, 10, 11, 12, 13, 0x20, 0x85, 0xA0, 0x1680, 0x2000, 0x2001, 0x2002, 0x2003, 0x2004, 0x2005,
    0x2006, 0x2007, 0x2008, 0x2009, 0x200A, 0x2028, 0x2029, 0x202F, 0x205F, 0x3000]

theorem mem_blankCodes {c : Char} (hc : Text.isBlank c = true) : c.toNat ∈ blankCodes := by
  simp only [Text.isBlank, Bool.or_eq_true, Bool.and_eq_true, decide_eq_true_eq, beq_iff_eq] at hc
  simp only [blankCodes, List.mem_cons, List.not_mem_nil, or_false]
  omega

/-- No blank is part of a name. -/
theorem not_isNameRest_of_isBlank {c : Char} (hc : Text.isBlank c = true) :
    isNameRest c = false ∧ Text.isIdentifierRest c = false := by
  have hall : blankCodes.all (fun n => !isNameRest (Char.ofNat n) &&
      !Text.isIdentifierRest (Char.ofNat n)) = true := by decide +kernel
  have hsame := List.all_eq_true.mp hall c.toNat (mem_blankCodes hc)
  rw [Char.ofNat_toNat] at hsame
  simpa using hsame

theorem not_isNameStart_of_isBlank {c : Char} (hc : Text.isBlank c = true) :
    isNameStart c = false := by
  rw [Bool.eq_false_iff]
  intro hstart
  rw [not_isBlank_of_identifierChar (isIdentifierChar_of_isNameStart hstart)] at hc
  cases hc

theorem afterBlanks?_gap {gap rest : List Char} (hgap : IsGap gap)
    (hnext : rest.dropWhile Text.isBlank = rest) : afterBlanks? (gap ++ rest) = some rest := by
  obtain ⟨hne, hblank⟩ := hgap
  cases gap with
  | nil => exact absurd rfl hne
  | cons b more =>
    rw [List.all_cons, Bool.and_eq_true] at hblank
    simp [afterBlanks?, hblank.1, List.dropWhile_append_of_pos (List.all_eq_true.mp hblank.2),
      hnext]

theorem not_dot_of_isNameStart {c : Char} (hc : isNameStart c = true) : (c == '.') = false := by
  rw [beq_eq_false_iff_ne]
  rintro rfl
  cases hc

/-- The dots before a text that starts with no dot. -/
theorem span_dots (level : Nat) (cs : List Char) (hcs : cs.takeWhile (· == '.') = []) :
    (List.replicate level '.' ++ cs).takeWhile (· == '.') = List.replicate level '.' ∧
      (List.replicate level '.' ++ cs).dropWhile (· == '.') = cs := by
  have hdots : ∀ c ∈ List.replicate level '.', (c == '.') = true := by simp
  have hrest : cs.dropWhile (· == '.') = cs := by
    rw [List.takeWhile_eq_nil_iff] at hcs
    cases cs with
    | nil => rfl
    | cons c rest => simpa using hcs
  rw [List.takeWhile_append_of_pos hdots, List.dropWhile_append_of_pos hdots, hcs, hrest,
    List.append_nil]
  exact ⟨rfl, rfl⟩

/-- A target is read up to the blank behind it. -/
theorem target?_of_isTarget {target : List Char} {b : Char} (htarget : IsTarget target)
    (hblank : Text.isBlank b = true) (rest : List Char) :
    target? (target ++ b :: rest) =
      some (.fromTarget (level target) (unqualified target), b :: rest) := by
  cases htarget with
  | @named l c name hstart hname =>
    have hdot := not_dot_of_isNameStart hstart
    obtain ⟨htake, hdrop⟩ := span_dots l (c :: (name ++ b :: rest)) (by simp [hdot])
    obtain ⟨htake', hdrop'⟩ := span_dots l (c :: name) (by simp [hdot])
    have hstop := (not_isNameRest_of_isBlank hblank).1
    rw [List.append_assoc, List.cons_append]
    simp only [target?, htake, hdrop, dottedName?_append hstart hname hstop, level, unqualified,
      htake', hdrop']
  | @dots l =>
    have hother : (b == '.') = false := by
      rw [beq_eq_false_iff_ne]
      rintro rfl
      cases hblank
    obtain ⟨htake, hdrop⟩ := span_dots (l + 1) (b :: rest) (by simp [hother])
    obtain ⟨htake', hdrop'⟩ := span_dots (l + 1) [] rfl
    rw [List.append_nil] at htake' hdrop'
    simp only [target?, htake, hdrop, dottedName?, not_isNameStart_of_isBlank hblank, level,
      unqualified, htake', hdrop', List.length_replicate]
    rfl

theorem dropWhile_target {target : List Char} (htarget : IsTarget target) (rest : List Char) :
    (target ++ rest).dropWhile Text.isBlank = target ++ rest := by
  have hdot : Text.isBlank '.' = false := by decide
  cases htarget with
  | @named l c name hstart hname =>
    have hc := not_isBlank_of_identifierChar (isIdentifierChar_of_isNameStart hstart)
    cases l with
    | zero => simp [hc]
    | succ l => simp [List.replicate_succ, hdot]
  | dots => simp [List.replicate_succ, hdot]

/-- A line of the form of a `from` import is read as one. -/
theorem ofChars?_of_fromLine {line target : List Char} (hline : FromLine line target) :
    ofChars? line = some (.fromTarget (level target) (unqualified target)) := by
  obtain @⟨indent, gap, _, gap', imported, b, hindent, hgap, htarget, hgap', hblank⟩ := hline
  have hread : target? (target ++ (gap' ++ ("import".toList ++ b :: imported))) =
      some (.fromTarget (level target) (unqualified target),
        gap' ++ ("import".toList ++ b :: imported)) := by
    obtain ⟨b', more, rfl⟩ := List.exists_cons_of_ne_nil hgap'.nonempty
    have hfirst := List.all_eq_true.mp hgap'.blank b' List.mem_cons_self
    exact target?_of_isTarget htarget hfirst _
  have hkeyword : afterBlanks? (gap' ++ ("import".toList ++ b :: imported)) =
      some ("import".toList ++ b :: imported) := afterBlanks?_gap hgap' rfl
  have himported : afterBlanks? (b :: imported) = some (imported.dropWhile Text.isBlank) := by
    simp [afterBlanks?, hblank]
  have hfrom : from? ("from".toList ++ (gap ++ (target ++ (gap' ++
      ("import".toList ++ b :: imported))))) =
      some (.fromTarget (level target) (unqualified target)) := by
    simp only [from?, Option.bind_eq_bind, afterWord?_append, Option.bind_some,
      afterBlanks?_gap hgap (dropWhile_target htarget _), hread, hkeyword, himported]
    rfl
  have hstart (rest : List Char) : ("from".toList ++ rest).dropWhile Text.isBlank =
      "from".toList ++ rest := rfl
  rw [ofChars?_indent hindent, ofChars?]
  simp only [hstart, hfrom]

theorem targetText_level (target : List Char) :
    targetText (level target) (unqualified target) = .ofList target := by
  have hdots : target.takeWhile (· == '.') = List.replicate (level target) '.' := by
    apply List.eq_replicate_of_mem
    intro c hc
    simpa using List.mem_takeWhile_imp hc
  rw [targetText, unqualified, ← hdots, ← String.ofList_append, List.takeWhile_append_dropWhile]

variable {paths packages : List String} {target : List Char}

theorem missing_absolute (hlevel : level target = 0) :
    missing (.ofPaths paths) packages (.fromTarget (level target) (unqualified target)) =
      if ModuleIndex.Misses paths (.ofList target) then [.ofList target] else [] := by
  have htarget : unqualified target = .ofList target := by
    have hwhole := targetText_level target
    rw [hlevel] at hwhole
    simpa [targetText] using hwhole
  have hresolve : resolve? packages 0 (.ofList target) =
      some (ModuleName.ofText (.ofList target)) := rfl
  rw [missing, targetText_level, hlevel, htarget, hresolve]
  simp only [ModuleIndex.lacks_iff]

theorem missing_beyond (hbeyond : packages.length < level target) :
    missing (.ofPaths paths) packages (.fromTarget (level target) (unqualified target)) =
      [.ofList target] := by
  have hlevel : level target ≠ 0 := by omega
  have hresolve : resolve? packages (level target) (unqualified target) = none := by
    simp [resolve?, hlevel, hbeyond]
  rw [missing, targetText_level, hresolve]

theorem missing_relative (hlevel : 1 ≤ level target) (hinside : level target ≤ packages.length) :
    missing (.ofPaths paths) packages (.fromTarget (level target) (unqualified target)) =
      if ModuleIndex.Misses paths (below (packages.take (packages.length + 1 - level target))
        (unqualified target)) then [.ofList target] else [] := by
  have hpositive : level target ≠ 0 := by omega
  have hresolve : resolve? packages (level target) (unqualified target) =
      some (ModuleName.ofText (below (packages.take (packages.length + 1 - level target))
        (unqualified target))) := by
    have hnot : ¬ packages.length < level target := by omega
    by_cases hname : unqualified target = ""
    · simp [resolve?, below, hpositive, hnot, hname]
    · simp [resolve?, below, hpositive, hnot, hname]
  rw [missing, targetText_level, hresolve]
  simp only [ModuleIndex.lacks_iff]

end ImportLine

namespace ModuleIndex

open ImportLine (FromLine level unqualified below)

/-- A source is judged line by line, and a line that has the form of a `from` import is judged by its
target, which is returned as it is written. An absolute target is missed if it starts as a name of
the set does and is none. A relative one is missed if it has more dots than there are packages
around the file, and else exactly if the absolute name below the packages that its dots leave is.
Every slice that is taken of a list of segments is in range. -/
theorem from_imports_judged (paths : List String) (path source : String) :
    (ofPaths paths).unresolved path source =
      (Text.lines source).flatMap ((ofPaths paths).unresolved path) ∧
    (∀ line ∈ Text.lines source, ∀ target, FromLine line.toList target →
      let packages := (Text.splitOn '/' path).dropLast
      (level target = 0 → (ofPaths paths).unresolved path line =
        if Misses paths (.ofList target) then [.ofList target] else []) ∧
      (packages.length < level target →
        (ofPaths paths).unresolved path line = [.ofList target]) ∧
      (1 ≤ level target → level target ≤ packages.length →
        ∃ kept, ModuleName.slice? packages (packages.length + 1 - level target) = some kept ∧
          (ofPaths paths).unresolved path line =
            if Misses paths (below kept (unqualified target)) then [.ofList target] else [])) ∧
    ∀ module : ModuleName,
      (List.range' 1 module.length).map module.slice? = module.enclosing.map some := by
  refine ⟨unresolved_eq_flatMap _ path source, ?_, ModuleName.map_slice?⟩
  intro line hline target hform packages
  have hread : ImportLine.ofLine? line =
      some (.fromTarget (level target) (unqualified target)) := by
    rw [← String.ofList_toList (s := line), ImportLine.ofLine?_ofList]
    exact ImportLine.ofChars?_of_fromLine hform
  have hmissed : (ofPaths paths).unresolved path line =
      ImportLine.missing (ofPaths paths) packages
        (.fromTarget (level target) (unqualified target)) := by
    rw [unresolved_of_line _ path (Text.not_mem_of_mem_lines hline), missedIn, hread]
  rw [hmissed]
  refine ⟨ImportLine.missing_absolute, ImportLine.missing_beyond, ?_⟩
  intro hlevel hinside
  have hrange : packages.length + 1 - level target ≤ packages.length := by omega
  exact ⟨_, ModuleName.slice?_of_le hrange, ImportLine.missing_relative hlevel hinside⟩

/-- Two dots in a file two packages deep leave the outer package. -/
theorem from_imports_judged_outer :
    let paths := ["pkg/__init__.py", "pkg/sub/b.py"]
    let line := "from ..zz import x"
    line ∈ Text.lines "from ..zz import x\n" ∧ FromLine line.toList "..zz".toList ∧
      level "..zz".toList = 2 ∧ (Text.splitOn '/' "pkg/sub/b.py").dropLast.length = 2 ∧
      Misses paths "pkg.zz" ∧ (ofPaths paths).unresolved "pkg/sub/b.py" line = ["..zz"] := by
  intro paths line
  have hline : line ∈ Text.lines "from ..zz import x\n" := by decide
  have hform : FromLine line.toList "..zz".toList := by
    have hspelled : line.toList = [] ++ ("from".toList ++ ([' '] ++ ("..zz".toList ++ ([' '] ++
        ("import".toList ++ ' ' :: ['x']))))) := by decide
    have hgap := ImportLine.isGap_space
    have hname : ∀ a ∈ ['z'], ImportLine.isNameRest a = true :=
      List.forall_mem_singleton.mpr (by decide)
    have htarget : ImportLine.IsTarget (List.replicate 2 '.' ++ 'z' :: ['z']) :=
      .named (by decide) hname
    rw [hspelled]
    exact .intro rfl hgap htarget hgap (by decide)
  have hmisses : Misses paths "pkg.zz" := by decide
  obtain ⟨kept, hkept, hjudged⟩ := ((from_imports_judged paths "pkg/sub/b.py"
    "from ..zz import x\n").2.1 line hline _ hform).2.2 (by decide) (by decide)
  have hslice : ModuleName.slice? (Text.splitOn '/' "pkg/sub/b.py").dropLast
      ((Text.splitOn '/' "pkg/sub/b.py").dropLast.length + 1 - level "..zz".toList) =
      some ["pkg"] := by decide
  obtain rfl : kept = ["pkg"] := Option.some.inj (hkept.symm.trans hslice)
  have hbelow : below ["pkg"] (unqualified "..zz".toList) = "pkg.zz" := by decide
  refine ⟨hline, hform, by decide, by decide, hmisses, ?_⟩
  rw [hjudged, hbelow, if_pos hmisses]
  rfl

end ModuleIndex

end RamlScaffold

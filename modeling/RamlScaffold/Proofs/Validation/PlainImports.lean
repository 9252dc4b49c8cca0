import RamlScaffold.Proofs.Validation.FromImports

/-!
How plain imports are judged. A plain import lists dotted names, each alone or with an alias. The
names are read one after the other and each is judged by itself, but reading ends at the first
alias: the names behind it are never looked at. Letters count as well: a name has to start with an
ASCII letter or an underscore, and it is read as far as it has word characters.
-/

namespace RamlScaffold.ImportLine

/-- A segment of a name: a letter or an underscore, and then letters, digits and marks. -/
def isSegment : List Char → Bool
  | [] => false
  | c :: rest => Text.isIdentifierStart c && rest.all Text.isIdentifierRest

inductive Dotted : List Char → Prop where
  | one {name : List Char} (hname : isSegment name = true) : Dotted name
  | more {name rest : List Char} (hname : isSegment name = true) (hrest : Dotted rest) :
      Dotted (name ++ '.' :: rest)

/-- What a plain import lists: a dotted name, and an alias if it has one. -/
abbrev Listed := String × Option String

inductive Clause : List Char → Listed → Prop where
  | bare {name : List Char} (hname : Dotted name) : Clause name (.ofList name, none)
  | aliased {name gap gap' other : List Char} (hname : Dotted name) (hgap : IsGap gap)
      (hgap' : IsGap gap') (hother : isSegment other = true) :
      Clause (name ++ (gap ++ ("as".toList ++ (gap' ++ other)))) (.ofList name, some (.ofList other))

inductive Clauses : List Char → List Listed → Prop where
  | last {cs : List Char} {listed : Listed} (hclause : Clause cs listed) : Clauses cs [listed]
  | more {cs blanks blanks' rest : List Char} {listed : Listed} {others : List Listed}
      (hclause : Clause cs listed) (hblanks : blanks.all Text.isBlank = true)
      (hblanks' : blanks'.all Text.isBlank = true) (hrest : Clauses rest others) :
      Clauses (cs ++ (blanks ++ ',' :: (blanks' ++ rest))) (listed :: others)

/-- What may follow a statement on its line: blanks, and a comment or another statement. -/
def Ends (tail : List Char) : Prop :=
  ∀ c ∈ (tail.dropWhile Text.isBlank).head?, c = '#' ∨ c = ';'

inductive PlainLine : List Char → List Listed → Prop where
  | intro {indent gap body tail : List Char} {listed : List Listed}
      (hindent : indent.all Text.isBlank = true) (hgap : IsGap gap) (hbody : Clauses body listed)
      (htail : Ends tail) :
      PlainLine (indent ++ ("import".toList ++ (gap ++ (body ++ tail)))) listed

/-- Whether a name is read at all: it starts with an ASCII letter or an underscore. -/
def isOpened (name : List Char) : Bool := name.head?.any isNameStart

def isKnown (name : List Char) : Bool := isOpened name && name.all isNameRest

def readNames : List Listed → List String
  | [] => []
  | (name, other) :: rest =>
    if isOpened name.toList then
      .ofList (name.toList.takeWhile isNameRest) ::
        if name.toList.all isNameRest && other.isNone then readNames rest else []
    else []

def hiddenNames (listed : List Listed) : List String :=
  ((listed.dropWhile (·.2.isNone)).drop 1).map (·.1)

theorem isIdentifierRest_of_start {c : Char} (hc : Text.isIdentifierStart c = true) :
    Text.isIdentifierRest c = true := by
  simp [Text.isIdentifierRest, hc]

theorem not_isBlank_of_isIdentifierRest {c : Char} (hc : Text.isIdentifierRest c = true) :
    Text.isBlank c = false := by
  rw [Bool.eq_false_iff]
  intro hblank
  rw [(not_isNameRest_of_isBlank hblank).2] at hc
  cases hc

theorem Dotted.chars {name : List Char} (hname : Dotted name) :
    ∀ c ∈ name, Text.isIdentifierRest c = true ∨ c = '.' := by
  have hword {cs : List Char} (hcs : isSegment cs = true) :
      ∀ c ∈ cs, Text.isIdentifierRest c = true ∨ c = '.' := by
    cases cs with
    | nil => simp
    | cons first rest =>
      rw [isSegment, Bool.and_eq_true, List.all_eq_true] at hcs
      exact List.forall_mem_cons.mpr ⟨.inl (isIdentifierRest_of_start hcs.1),
        fun c hc => .inl (hcs.2 c hc)⟩
  induction hname with
  | one hname => exact hword hname
  | more hname _ ih =>
    exact List.forall_mem_append.mpr ⟨hword hname, List.forall_mem_cons.mpr ⟨.inr rfl, ih⟩⟩

theorem Dotted.ne_nil {name : List Char} (hname : Dotted name) : name ≠ [] := by
  cases hname with
  | one hname =>
    rintro rfl
    cases hname
  | more _ _ => simp

theorem isNameRest_of_isNameStart {c : Char} (hc : isNameStart c = true) : isNameRest c = true :=
  isNameRest_of_identifierChar (isIdentifierChar_of_isNameStart hc)

theorem dottedName?_of_isOpened {cs : List Char} (hcs : isOpened cs = true) :
    dottedName? cs = some (.ofList (cs.takeWhile isNameRest), cs.dropWhile isNameRest) := by
  cases cs with
  | nil => cases hcs
  | cons c rest =>
    have hstart : isNameStart c = true := by simpa [isOpened] using hcs
    simp [dottedName?, hstart, isNameRest_of_isNameStart hstart]

theorem dottedName?_of_not_isOpened {cs : List Char} (hcs : isOpened cs = false) :
    dottedName? cs = none := by
  cases cs with
  | nil => rfl
  | cons c rest =>
    have hstart : isNameStart c = false := by simpa [isOpened] using hcs
    simp [dottedName?, hstart]

/-- The names that are read from a text on, `fuel` of them at most behind the first. -/
def namesAt (fuel : Nat) (cs : List Char) : List String :=
  match dottedName? cs with
  | some (name, rest) => name :: moreNames fuel rest
  | none => []

theorem moreNames_comma (fuel : Nat) {blanks blanks' rest : List Char}
    (hblanks : blanks.all Text.isBlank = true) (hblanks' : blanks'.all Text.isBlank = true)
    (hrest : rest.dropWhile Text.isBlank = rest) :
    moreNames (fuel + 1) (blanks ++ ',' :: (blanks' ++ rest)) = namesAt fuel rest := by
  have hcomma : (',' :: (blanks' ++ rest)).dropWhile Text.isBlank = ',' :: (blanks' ++ rest) := rfl
  rw [moreNames, dropWhile_indent hblanks, hcomma]
  simp only [dropWhile_indent hblanks', hrest]
  rfl

/-- Reading ends where no comma follows. -/
theorem moreNames_eq_nil (fuel : Nat) {cs : List Char}
    (hcs : (cs.dropWhile Text.isBlank).head? ≠ some ',') : moreNames fuel cs = [] := by
  cases fuel with
  | zero => rfl
  | succ fuel =>
    rw [moreNames]
    split
    · next rest hcomma => exact absurd (by rw [hcomma]; rfl) hcs
    · rfl

def Stops (cs : List Char) : Prop := cs.takeWhile isNameRest = []

theorem stops_of_isBlank {b : Char} (hb : Text.isBlank b = true) (cs : List Char) :
    Stops (b :: cs) := by
  simp [Stops, (not_isNameRest_of_isBlank hb).1]

theorem stops_append_of_blanks {blanks cs : List Char} (hblanks : blanks.all Text.isBlank = true)
    (hcs : Stops cs) : Stops (blanks ++ cs) := by
  cases blanks with
  | nil => exact hcs
  | cons b more =>
    rw [List.all_cons, Bool.and_eq_true] at hblanks
    exact stops_of_isBlank hblanks.1 _

theorem stops_of_ends {tail : List Char} (htail : Ends tail) : Stops tail := by
  cases tail with
  | nil => rfl
  | cons c rest =>
    by_cases hblank : Text.isBlank c = true
    · exact stops_of_isBlank hblank rest
    · have hc := htail c (by simp [hblank])
      rcases hc with rfl | rfl <;> rfl

theorem not_comma_of_ends {tail : List Char} (htail : Ends tail) :
    (tail.dropWhile Text.isBlank).head? ≠ some ',' := by
  intro hcomma
  rcases htail ',' (by simp [hcomma]) with hc | hc <;> cases hc

theorem unknown_split {name : List Char} (hname : ¬ name.all isNameRest = true) :
    ∃ known d more, name = known ++ d :: more ∧ (∀ c ∈ known, isNameRest c = true) ∧
      isNameRest d = false := by
  induction name with
  | nil => exact absurd rfl hname
  | cons c rest ih =>
    by_cases hc : isNameRest c = true
    · obtain ⟨known, d, more, rfl, hknown, hd⟩ := ih (by simpa [hc] using hname)
      exact ⟨c :: known, d, more, rfl, List.forall_mem_cons.mpr ⟨hc, hknown⟩, hd⟩
    · exact ⟨[], c, rest, rfl, by simp, by simpa using hc⟩

/-- What is read of one name of a list and what is read behind it, when the name is followed by
something else. -/
theorem namesAt_name (fuel : Nat) {name after : List Char} (hname : Dotted name)
    (hafter : Stops after) :
    namesAt fuel (name ++ after) =
      if isOpened name then
        .ofList (name.takeWhile isNameRest) ::
          if name.all isNameRest then moreNames fuel after else []
      else [] := by
  have hopened : isOpened (name ++ after) = isOpened name := by
    obtain ⟨c, rest, rfl⟩ := List.exists_cons_of_ne_nil hname.ne_nil
    rfl
  rw [namesAt]
  cases hcase : isOpened name with
  | false =>
    rw [dottedName?_of_not_isOpened (hopened.trans hcase)]
    rfl
  | true =>
    rw [dottedName?_of_isOpened (hopened.trans hcase)]
    simp only [if_true]
    by_cases hall : name.all isNameRest = true
    · have hchars := List.all_eq_true.mp hall
      have hstop : after.dropWhile isNameRest = after := by
        have hwhole := List.takeWhile_append_dropWhile (p := isNameRest) (l := after)
        rwa [hafter, List.nil_append] at hwhole
      rw [List.takeWhile_append_of_pos hchars, List.dropWhile_append_of_pos hchars, hafter, hstop,
        if_pos hall, List.takeWhile_eq_self_iff.mpr hchars, List.append_nil]
    · obtain ⟨known, d, more, hsplit, hknown, hd⟩ := unknown_split hall
      have hrest := hname.chars d (by simp [hsplit])
      -- The character that ends the reading is part of an identifier, so it is no comma.
      have hend : moreNames fuel (d :: (more ++ after)) = [] := by
        apply moreNames_eq_nil
        rcases hrest with hrest | rfl
        · have hblank := not_isBlank_of_isIdentifierRest hrest
          rw [List.dropWhile_cons_of_neg (by simp [hblank]), List.head?_cons]
          rintro ⟨⟩
          cases hrest
        · cases hd
      rw [hsplit, List.append_assoc, List.cons_append, List.takeWhile_append_of_pos hknown,
        List.dropWhile_append_of_pos hknown, List.takeWhile_append_of_pos hknown,
        List.takeWhile_cons_of_neg (by simp [hd]), List.takeWhile_cons_of_neg (by simp [hd]),
        List.dropWhile_cons_of_neg (by simp [hd]), hend]
      simp [hd]

theorem dropWhile_dotted {name : List Char} (hname : Dotted name) (rest : List Char) :
    (name ++ rest).dropWhile Text.isBlank = name ++ rest := by
  obtain ⟨c, more, rfl⟩ := List.exists_cons_of_ne_nil hname.ne_nil
  have hblank : Text.isBlank c = false := by
    rcases hname.chars c List.mem_cons_self with hc | rfl
    · exact not_isBlank_of_isIdentifierRest hc
    · rfl
  simp [hblank]

/-- A clause is read up to its alias, and nothing is read behind an alias. -/
theorem namesAt_clause (fuel : Nat) {cs after : List Char} {listed : Listed}
    (hclause : Clause cs listed) (hafter : Stops after) :
    namesAt fuel (cs ++ after) =
      if isOpened listed.1.toList then
        .ofList (listed.1.toList.takeWhile isNameRest) ::
          if listed.1.toList.all isNameRest && listed.2.isNone then moreNames fuel after else []
      else [] := by
  cases hclause with
  | bare hname =>
    rw [namesAt_name fuel hname hafter]
    simp
  | @aliased name gap gap' other hname hgap hgap' hother =>
    have hstops : Stops (gap ++ ("as".toList ++ (gap' ++ other)) ++ after) := by
      obtain ⟨b, more, rfl⟩ := List.exists_cons_of_ne_nil hgap.nonempty
      exact stops_of_isBlank (List.all_eq_true.mp hgap.blank b List.mem_cons_self) _
    have hend : moreNames fuel (gap ++ ("as".toList ++ (gap' ++ other)) ++ after) = [] := by
      apply moreNames_eq_nil
      rw [List.append_assoc, dropWhile_indent hgap.blank]
      rintro ⟨⟩
    rw [List.append_assoc, namesAt_name fuel hname hstops, hend]
    simp

theorem dropWhile_clauses {cs : List Char} {listed : List Listed} (hclauses : Clauses cs listed)
    (rest : List Char) : (cs ++ rest).dropWhile Text.isBlank = cs ++ rest := by
  have hfirst {cs : List Char} {one : Listed} (hclause : Clause cs one) (rest : List Char) :
      (cs ++ rest).dropWhile Text.isBlank = cs ++ rest := by
    cases hclause with
    | bare hname => exact dropWhile_dotted hname rest
    | aliased hname _ _ _ =>
      rw [List.append_assoc]
      exact dropWhile_dotted hname _
  cases hclauses with
  | last hclause => exact hfirst hclause rest
  | more hclause _ _ _ =>
    rw [List.append_assoc]
    exact hfirst hclause _

theorem length_le_dropWhile {p : Char → Bool} {sep : Char} (hsep : p sep = false)
    (cs rest : List Char) : rest.length < ((cs ++ sep :: rest).dropWhile p).length := by
  induction cs with
  | nil => simp [hsep]
  | cons c cs ih =>
    rw [List.cons_append, List.dropWhile_cons]
    split
    · exact ih
    · simp only [List.length_cons, List.length_append]
      omega

/-- The names of a list are read one after the other. -/
theorem namesAt_clauses {fuel : Nat} {body tail : List Char} {listed : List Listed}
    (hbody : Clauses body listed) (htail : Ends tail)
    (hfuel : ((body ++ tail).dropWhile isNameRest).length ≤ fuel) :
    namesAt fuel (body ++ tail) = readNames listed := by
  induction hbody generalizing fuel with
  | last hclause =>
    rw [namesAt_clause fuel hclause (stops_of_ends htail),
      moreNames_eq_nil fuel (not_comma_of_ends htail)]
    rfl
  | @more cs blanks blanks' rest one others hclause hblanks hblanks' hrest ih =>
    have hstops : Stops (blanks ++ ',' :: (blanks' ++ rest) ++ tail) := by
      rw [List.append_assoc]
      exact stops_append_of_blanks hblanks rfl
    have hlength : (blanks' ++ (rest ++ tail)).length < fuel := by
      have hother : isNameRest ',' = false := by decide
      have hcomma := length_le_dropWhile hother (cs ++ blanks) (blanks' ++ (rest ++ tail))
      simp only [List.append_assoc, List.cons_append] at hfuel hcomma
      omega
    obtain ⟨fuel, rfl⟩ : ∃ n, fuel = n + 1 := ⟨fuel - 1, by omega⟩
    have hnext : moreNames (fuel + 1) (blanks ++ ',' :: (blanks' ++ rest) ++ tail) =
        readNames others := by
      rw [List.append_assoc, List.cons_append, List.append_assoc,
        moreNames_comma fuel hblanks hblanks' (dropWhile_clauses hrest tail)]
      apply ih
      have hshorter := (List.dropWhile_sublist isNameRest (l := rest ++ tail)).length_le
      rw [List.length_append] at hlength
      omega
    rw [List.append_assoc, namesAt_clause _ hclause hstops, hnext]
    rfl

/-- A plain import asks for the names that are read in it. -/
theorem missing_of_plainLine {line : List Char} {listed : List Listed}
    (hline : PlainLine line listed) (index : ModuleIndex) (packages : List String) :
    index.missedIn packages (.ofList line) =
      (readNames listed).filter fun name => index.lacks (ModuleName.ofText name) := by
  obtain @⟨indent, gap, body, tail, _, hindent, hgap, hbody, htail⟩ := hline
  have hnames := namesAt_clauses hbody htail (le_refl _)
  have hother : from? ("import".toList ++ (gap ++ (body ++ tail))) = none := rfl
  have hstart (rest : List Char) : ("import".toList ++ rest).dropWhile Text.isBlank =
      "import".toList ++ rest := rfl
  rw [ModuleIndex.missedIn, ofLine?_ofList, ofChars?_indent hindent, ofChars?]
  simp only [hstart, hother, plain?, Option.bind_eq_bind, afterWord?_append, Option.bind_some,
    afterBlanks?_gap hgap (dropWhile_clauses hbody tail)]
  rw [← hnames, namesAt]
  cases hopened : isOpened (body ++ tail) with
  | false =>
    rw [dottedName?_of_not_isOpened hopened]
    rfl
  | true =>
    rw [dottedName?_of_isOpened hopened]
    rfl

/-- Of names that are all known those behind the first alias are not read. -/
theorem readNames_append_hiddenNames {listed : List Listed}
    (hknown : ∀ one ∈ listed, isKnown one.1.toList = true) :
    readNames listed ++ hiddenNames listed = listed.map (·.1) := by
  induction listed with
  | nil => rfl
  | cons one rest ih =>
    obtain ⟨name, other⟩ := one
    rw [List.forall_mem_cons] at hknown
    obtain ⟨hopened, hall⟩ : isOpened name.toList = true ∧ name.toList.all isNameRest = true := by
      simpa [isKnown] using hknown.1
    have hwhole : name.toList.takeWhile isNameRest = name.toList :=
      List.takeWhile_eq_self_iff.mpr (List.all_eq_true.mp hall)
    cases other with
    | none => simpa [readNames, hiddenNames, hopened, hall, hwhole] using ih hknown.2
    | some other => simp [readNames, hiddenNames, hopened, hwhole]

end RamlScaffold.ImportLine

namespace RamlScaffold.ModuleIndex

open ImportLine (PlainLine isKnown readNames hiddenNames)

/-- A source is judged line by line, and a plain import by the names that are read in it, each by
itself and in order. When every name that it lists is one that can be read to its end, exactly the
missed ones of the whole list are returned if and only if none of them stands behind an alias. -/
theorem plain_imports_judged_iff (paths : List String) (path source : String) :
    (ofPaths paths).unresolved path source =
      (Text.lines source).flatMap ((ofPaths paths).unresolved path) ∧
    ∀ line ∈ Text.lines source, ∀ listed, PlainLine line.toList listed →
      (ofPaths paths).unresolved path line = (readNames listed).filter (Misses paths ·) ∧
      ((∀ one ∈ listed, isKnown one.1.toList = true) →
        ((ofPaths paths).unresolved path line = (listed.map (·.1)).filter (Misses paths ·) ↔
          ∀ name ∈ hiddenNames listed, ¬ Misses paths name)) := by
  refine ⟨unresolved_eq_flatMap _ path source, ?_⟩
  intro line hline listed hform
  have hjudged : (ofPaths paths).unresolved path line =
      (readNames listed).filter (Misses paths ·) := by
    rw [unresolved_of_line _ path (Text.not_mem_of_mem_lines hline),
      ← String.ofList_toList (s := line), ImportLine.missing_of_plainLine hform]
    apply List.filter_congr
    intro name _
    rw [Bool.eq_iff_iff, lacks_iff, decide_eq_true_iff]
  refine ⟨hjudged, fun hknown => ?_⟩
  rw [hjudged, ← ImportLine.readNames_append_hiddenNames hknown, List.filter_append,
    List.self_eq_append_right, List.filter_eq_nil_iff]
  simp

/-- An alias at the end of the list hides nothing. -/
theorem plain_imports_judged_iff_last :
    let paths := ["app/__init__.py"]
    let line := "import app.zz, os as system"
    let listed := [("app.zz", none), ("os", some "system")]
    line ∈ Text.lines line ∧ PlainLine line.toList listed ∧
      (∀ one ∈ listed, isKnown one.1.toList = true) ∧
      (ofPaths paths).unresolved "run.py" line = (listed.map (·.1)).filter (Misses paths ·) := by
  intro paths line listed
  have hline : line ∈ Text.lines line := by decide
  have hgap := ImportLine.isGap_space
  have hbody : ImportLine.Clauses ("app.zz".toList ++ ([] ++ ',' :: ([' '] ++ ("os".toList ++
      ([' '] ++ ("as".toList ++ ([' '] ++ "system".toList))))))) listed := by
    have hfirst : ImportLine.Dotted ("app".toList ++ '.' :: "zz".toList) :=
      .more (by decide) (.one (by decide))
    have hsecond : ImportLine.Dotted "os".toList := .one (by decide)
    exact .more (.bare hfirst) rfl rfl (.last (.aliased hsecond hgap hgap (by decide)))
  have hform : PlainLine line.toList listed := by
    have hspelled : line.toList = [] ++ ("import".toList ++ ([' '] ++ ("app.zz".toList ++ ([] ++
        ',' :: ([' '] ++ ("os".toList ++ ([' '] ++ ("as".toList ++ ([' '] ++
          "system".toList)))))) ++ []))) := by decide
    rw [hspelled]
    exact .intro rfl hgap hbody (by simp [ImportLine.Ends])
  have hknown : ∀ one ∈ listed, isKnown one.1.toList = true := by decide
  refine ⟨hline, hform, hknown, ?_⟩
  apply (((plain_imports_judged_iff paths "run.py" line).2 line hline listed hform).2 hknown).mpr
  decide

/-- A name that the set should have and has not goes unnoticed behind an alias. -/
theorem alias_hides_missing_name :
    let paths := ["app/__init__.py"]
    let line := "import os as system, app.missing"
    let listed := [("os", some "system"), ("app.missing", none)]
    PlainLine line.toList listed ∧
      (listed.map (·.1)).filter (Misses paths ·) = ["app.missing"] ∧
      (ofPaths paths).unresolved "run.py" line = [] := by
  intro paths line listed
  have hgap := ImportLine.isGap_space
  have hbody : ImportLine.Clauses ("os".toList ++ ([' '] ++ ("as".toList ++ ([' '] ++
      "system".toList))) ++ ([] ++ ',' :: ([' '] ++ "app.missing".toList))) listed := by
    have hfirst : ImportLine.Dotted "os".toList := .one (by decide)
    have hsecond : ImportLine.Dotted ("app".toList ++ '.' :: "missing".toList) :=
      .more (by decide) (.one (by decide))
    exact .more (.aliased hfirst hgap hgap (by decide)) rfl rfl (.last (.bare hsecond))
  have hform : PlainLine line.toList listed := by
    have hspelled : line.toList = [] ++ ("import".toList ++ ([' '] ++ ("os".toList ++ ([' '] ++
        ("as".toList ++ ([' '] ++ "system".toList))) ++ ([] ++ ',' :: ([' '] ++
          "app.missing".toList)) ++ []))) := by decide
    rw [hspelled]
    exact .intro rfl hgap hbody (by simp [ImportLine.Ends])
  exact ⟨hform, by decide, by decide⟩

end RamlScaffold.ModuleIndex

import RamlScaffold.Proofs.Artifact.Single
import RamlScaffold.Proofs.Validation.Imports

/-!
Imports in the skeleton of an artifact. A line is resolved when each line that is kept of it imports
nothing that the set should have and does not. Most lines are seen to be resolved by their fixed
beginning alone.
-/

namespace RamlScaffold

open Code (Mode isIdentifier isIdentifierChar)
open Code.Within (isBreak)
open Code.Mode (Ended Silent)
open ImportLine (OneWord leading ofChars?)

variable {index : ModuleIndex}

namespace ModuleIndex

variable {cs : List Char}

theorem resolves_iff (hunbroken : ∀ c ∈ cs, isBreak c = false) : index.Resolves cs ↔
    ∀ found, ofChars? cs = some found → ∀ package, found.missing index package = [] := by
  have hreturn : '\r' ∉ cs := fun hmem => absurd (hunbroken _ hmem) (by decide)
  rw [Resolves, Text.withoutReturn_eq_self hreturn]

theorem resolves_of_leading (hunbroken : ∀ c ∈ cs, isBreak c = false)
    (hleading : leading cs ∉ ImportLine.keywords) : index.Resolves cs := by
  rw [resolves_iff hunbroken]
  intro found hfound
  rw [ImportLine.ofChars?_eq_none hleading] at hfound
  cases hfound

theorem resolves_of_oneWord (hword : OneWord cs) : index.Resolves cs := by
  intro found hfound
  rw [(hword.sublist (Text.withoutReturn_sublist cs)).ofChars?_eq_none] at hfound
  cases hfound

end ModuleIndex

namespace Line

/-- What is kept of a line are lines whose imports the set has. The first of them has no break of
any kind, so that blanks may be put before it. -/
structure Resolved (index : ModuleIndex) (line : Line) : Prop where
  closed : Closed .code line
  lines : ∃ (first : List Char) (more : List (List Char)),
    Mode.code.kept (text line) = first ++ '\n' :: more.flatMap (· ++ ['\n']) ∧
      (∀ c ∈ first, isBreak c = false) ∧ index.Resolves first ∧
      ∀ b ∈ more, '\n' ∉ b ∧ index.Resolves b

/-- A line that does not break is resolved if what is kept of it is. -/
theorem Single.resolved {line : Line} {body : List Char} (hsingle : Single line)
    (hkept : Mode.code.kept (Line.text line) = body ++ ['\n'])
    (hresolves : (∀ c ∈ body, isBreak c = false) → index.Resolves body) : Resolved index line := by
  obtain ⟨found, hfound, hunbroken⟩ := hsingle.closed.kept_eq hsingle.unbroken
  obtain rfl : found = body := List.append_cancel_right (hfound.symm.trans hkept)
  exact ⟨hsingle.closed, found, [], hkept, hunbroken, hresolves hunbroken, by simp⟩

/-- Whether the first word of a text is complete and no keyword of an import. -/
def isOpening (cs : List Char) : Bool :=
  (cs.dropWhile Text.isBlank).any (!isIdentifierChar ·) &&
    !ImportLine.keywords.contains (leading cs)

/-- A line is resolved by what it starts with. -/
theorem resolves_of_isOpening {head rest : List Char} (hopening : isOpening head = true)
    (hunbroken : ∀ c ∈ head ++ rest, isBreak c = false) : index.Resolves (head ++ rest) := by
  simp only [isOpening, Bool.and_eq_true, Bool.not_eq_true', List.contains_eq_mem,
    decide_eq_false_iff_not] at hopening
  apply ModuleIndex.resolves_of_leading hunbroken
  rw [ImportLine.leading_append hopening.1]
  exact hopening.2

theorem Single.resolved_of_opening {line : Line} {head body : List Char} (hsingle : Single line)
    (hkept : Mode.code.kept (Line.text line) = head ++ (body ++ ['\n']))
    (hopening : isOpening head = true) : Resolved index line := by
  rw [← List.append_assoc] at hkept
  exact hsingle.resolved hkept (resolves_of_isOpening hopening)

/-- A line that starts with a fixed text, which may have opened a literal. -/
theorem Resolved.opened {text : String} {cs : List Char} {rest : Line} (htext : text = .ofList cs)
    (hhead : (!cs.any isBreak && isOpening (Mode.code.kept cs)) = true)
    (hclosed : Closed (Mode.code.after cs) rest) (hunbroken : Unbroken rest) :
    Resolved index (.code text :: rest) := by
  simp only [Bool.and_eq_true, Bool.not_eq_true', List.any_eq_false, Bool.not_eq_true] at hhead
  have hchars : text.toList = cs := by rw [htext, String.toList_ofList]
  have hsingle : Single (.code text :: rest) := by
    refine ⟨?_, hunbroken.cons_code (by rw [hchars]; exact hhead.1)⟩
    rw [Closed, hchars]
    exact hclosed
  obtain ⟨body, hbody, _⟩ := hclosed.kept_eq hunbroken
  have hkept : Mode.code.kept (Line.text (.code text :: rest)) =
      Mode.code.kept cs ++ (body ++ ['\n']) := by
    rw [text_cons, Piece.render, hchars, Mode.kept_append, hbody]
  exact hsingle.resolved_of_opening hkept hhead.2

theorem kept_code {text : String} (htext : Steady text) {rest : Line} (hrest : Single rest) :
    ∃ body, Mode.code.kept (Line.text (.code text :: rest)) =
      Mode.code.kept text.toList ++ (body ++ ['\n']) := by
  obtain ⟨body, hbody, _⟩ := hrest.closed.kept_eq hrest.unbroken
  refine ⟨body, ?_⟩
  rw [text_cons, Piece.render, Mode.kept_append, htext, hbody]

/-- A line that starts with a fixed text and goes on in code. -/
theorem Resolved.headed {text : String} {cs : List Char} {rest : Line} (htext : text = .ofList cs)
    (hhead : (isClean cs && isOpening (Mode.code.kept cs)) = true) (hrest : Single rest) :
    Resolved index (.code text :: rest) := by
  simp only [isClean, Bool.and_eq_true, beq_iff_eq] at hhead
  refine .opened htext (by simp [hhead]) ?_ hrest.unbroken
  rw [hhead.1.1]
  exact hrest.closed

/-- A name between fixed texts. -/
theorem Resolved.around {opening name closing : String} {cs ds : List Char}
    (hopening : opening = .ofList cs)
    (hhead : (isClean cs && isOpening (Mode.code.kept cs)) = true)
    (hname : isIdentifier name = true) (hclosing : closing = .ofList ds)
    (htail : isClean ds = true) : Resolved index [.code opening, .code name, .code closing] :=
  .headed hopening hhead <| .name hname <| .text hclosing htail .nil

theorem Resolved.literal {text : String} {rest : Line} (hapart : Apart rest)
    (hrest : Single rest) : Resolved index (.literal text :: rest) := by
  obtain ⟨body, hbody, _⟩ := hrest.closed.kept_eq hrest.unbroken
  have hkept : Mode.code.kept (Line.text (.literal text :: rest)) =
      ['\'', '\''] ++ (body ++ ['\n']) := by
    rw [text_cons, Piece.render, Mode.kept_append, (Mode.quote_read text).2,
      (hapart.read (Mode.quote_read text).1).2, hbody]
  exact (hrest.literal hapart).resolved_of_opening hkept rfl

theorem Resolved.docstring {before text after : String} {bs cs : List Char}
    (hbefore : before = .ofList bs) (hafter : after = .ofList cs)
    (hplain : (bs ++ cs).all Mode.isLongPlain = true) :
    Resolved index [.docstring before text after] := by
  have hsingle : Single [.docstring before text after] := .docstring hbefore hafter hplain
  obtain ⟨_, hfirst, hlast, _⟩ := hsingle.closed
  have hread := Mode.docstring_read text hfirst hlast
  have hkept : Mode.code.kept (Line.text [.docstring before text after]) =
      ['"', '"', '"', '"', '"', '"'] ++ ([] ++ ['\n']) := by
    rw [text_cons, Mode.kept_append, hread.1, hread.2]
    rfl
  exact hsingle.resolved_of_opening hkept rfl

/-- A name inside a literal of fixed text. -/
theorem Resolved.inside {opening name closing : String} {cs ds : List Char}
    (hopening : opening = .ofList cs)
    (hhead : (!cs.any isBreak && isOpening (Mode.code.kept cs)) = true)
    (hshort : Mode.code.after cs = .short '\'') (hname : isIdentifier name = true)
    (hclosing : closing = .ofList ds)
    (htail : (Mode.code == (Mode.short '\'').after ds && !ds.any isBreak) = true) :
    Resolved index [.code opening, .code name, .code closing] := by
  simp only [Bool.and_eq_true, beq_iff_eq, Bool.not_eq_true', List.any_eq_false,
    Bool.not_eq_true] at htail
  have hchars : closing.toList = ds := by rw [hclosing, String.toList_ofList]
  refine .opened hopening hhead ?_ ?_
  · rw [hshort, Closed, (Mode.silent_identifier hname).stays, Closed, hchars, ← htail.1]
    exact .nil
  · refine .cons_code (clean_identifier hname).unbroken (.cons_code ?_ Single.nil.unbroken)
    rw [hchars]
    exact htail.2

/-- Two texts of code are one. -/
theorem Resolved.fuse {first second : String} {rest : Line}
    (hresolved : Resolved index (.code (first ++ second) :: rest)) :
    Resolved index (.code first :: .code second :: rest) := by
  obtain ⟨hclosed, hlines⟩ := hresolved
  have hsame : text (.code first :: .code second :: rest) =
      text (.code (first ++ second) :: rest) := by
    simp [text_cons, Piece.render]
  refine ⟨?_, ?_⟩
  · rw [Closed, String.toList_append, Mode.after_append] at hclosed
    exact hclosed
  · rw [hsame]
    exact hlines

/-- A line that starts with a name which a fixed text continues or ends. -/
theorem Resolved.named {name text : String} {cs : List Char} {rest : Line}
    (hname : isIdentifier name = true) (htext : text = .ofList cs)
    (hclean : (isClean cs && (Mode.code.kept cs).any (!isIdentifierChar ·)) = true)
    (hword : name.toList ++ (Mode.code.kept cs).takeWhile isIdentifierChar ∉ ImportLine.keywords)
    (hrest : Single rest) : Resolved index (.code name :: .code text :: rest) := by
  rw [Bool.and_eq_true] at hclean
  have hown := clean_identifier hname
  have hmore := clean_fixed htext hclean.1
  have hkeeps : Mode.code.kept (name ++ text).toList = name.toList ++ Mode.code.kept cs := by
    have hplain : ∀ c ∈ name.toList, isPlain c = true :=
      fun c hc => isPlain_of_identifierChar (Code.isIdentifierChar_of_mem hname hc)
    rw [String.toList_append, Mode.kept_append, hown.steady, Mode.kept_of_plain hplain, htext,
      String.toList_ofList]
  obtain ⟨body, hkept⟩ := kept_code (hown.append hmore).steady hrest
  rw [hkeeps] at hkept
  apply Resolved.fuse
  refine (hrest.code (hown.append hmore)).resolved_of_opening hkept ?_
  simp only [isOpening, ImportLine.dropWhile_name hname, ImportLine.leading_name hname,
    List.any_append, hclean.2, Bool.or_true, Bool.true_and, Bool.not_eq_true',
    List.contains_eq_mem, decide_eq_false_iff_not]
  exact hword

/-- Blanks before a line. -/
theorem Resolved.indent {text : String} {cs : List Char} {line : Line} (htext : text = .ofList cs)
    (hblank : cs.all (· == ' ') = true) (hline : Resolved index line) :
    Resolved index (.code text :: line) := by
  obtain ⟨hclosed, first, more, hkept, hunbroken, hfirst, hmore⟩ := hline
  have hspaces : ∀ c ∈ cs, c = ' ' := fun c hc => by simpa using List.all_eq_true.mp hblank c hc
  have hplain : ∀ c ∈ cs, isPlain c = true := by
    intro c hc
    rw [hspaces c hc]
    decide
  have hsteady : Steady text := by
    apply steady_of_plain
    rwa [htext, String.toList_ofList]
  have hwhole : ∀ c ∈ cs ++ first, isBreak c = false := by
    rw [List.forall_mem_append]
    refine ⟨?_, hunbroken⟩
    intro c hc
    rw [hspaces c hc]
    decide
  have hblanks : cs.all Text.isBlank = true := by
    rw [List.all_eq_true]
    intro c hc
    rw [hspaces c hc]
    decide
  refine ⟨.code hsteady hclosed, cs ++ first, more, ?_, hwhole, ?_, hmore⟩
  · rw [text_cons, Piece.render, Mode.kept_append, hsteady, hkept, htext, String.toList_ofList,
      Mode.kept_of_plain hplain, List.append_assoc]
  · rw [ModuleIndex.resolves_iff hwhole, ImportLine.ofChars?_indent hblanks,
      ← ModuleIndex.resolves_iff hunbroken]
    exact hfirst

def importsOnly (targets : List String) (cs : List Char) : Bool :=
  match ofChars? cs with
  | none => true
  | some (.fromTarget 0 name) => targets.contains name
  | some (.fromTarget _ _) => false
  | some (.plain names) => names.all targets.contains

def Knows (index : ModuleIndex) (targets : List String) : Prop :=
  ∀ target ∈ targets, index.lacks (ModuleName.ofText target) = false

theorem Knows.missing_eq_nil {targets : List String} (hknown : Knows index targets)
    {name : String} (hname : name ∈ targets) (package : List String) :
    (ImportLine.fromTarget 0 name).missing index package = [] := by
  simp [ImportLine.missing, ImportLine.resolve?, hknown name hname]

theorem Knows.resolves {targets : List String} (hknown : Knows index targets) {cs : List Char}
    (himports : importsOnly targets cs = true) (hunbroken : ∀ c ∈ cs, isBreak c = false) :
    index.Resolves cs := by
  rw [ModuleIndex.resolves_iff hunbroken]
  intro found hfound package
  rw [importsOnly, hfound] at himports
  match found with
  | .fromTarget 0 name => exact hknown.missing_eq_nil (by simpa using himports) package
  | .fromTarget (dots + 1) name => cases himports
  | .plain names =>
    simp only [List.all_eq_true, List.contains_eq_mem, decide_eq_true_eq] at himports
    simp only [ImportLine.missing, List.filter_eq_nil_iff, Bool.not_eq_true]
    exact fun name hname => hknown name (himports name hname)

/-- Whether a line of fixed text is closed, does not break and imports at most some modules. -/
def isFixedLine (targets : List String) (cs : List Char) : Bool :=
  (Mode.code.after cs).step '\n' == (.code, ['\n']) && !cs.any isBreak &&
    importsOnly targets (Mode.code.kept cs)

theorem Knows.fixed {targets : List String} (hknown : Knows index targets) {text : String}
    {cs : List Char} (htext : text = .ofList cs) (hfixed : isFixedLine targets cs = true) :
    Resolved index [.code text] := by
  simp only [isFixedLine, Bool.and_eq_true, beq_iff_eq, Bool.not_eq_true', List.any_eq_false,
    Bool.not_eq_true] at hfixed
  obtain ⟨⟨hread, hflat⟩, himports⟩ := hfixed
  have hchars : text.toList = cs := by rw [htext, String.toList_ofList]
  have hsingle : Single [.code text] := by
    refine ⟨?_, Unbroken.cons_code (by rwa [hchars]) Single.nil.unbroken⟩
    rw [Closed, hchars]
    exact hread
  have hkept : Mode.code.kept (Line.text [.code text]) = Mode.code.kept cs ++ ['\n'] := by
    rw [text_cons, Piece.render, hchars, Mode.kept_append, text_nil, Mode.kept, hread]
    rfl
  exact hsingle.resolved hkept (hknown.resolves himports)

def IsDotted (name : String) : Prop :=
  ∃ c cs, name.toList = c :: cs ∧ ImportLine.isNameStart c = true ∧
    ∀ d ∈ cs, ImportLine.isNameRest d = true

theorem IsDotted.rest {name : String} (hname : IsDotted name) :
    ∀ c ∈ name.toList, ImportLine.isNameRest c = true := by
  obtain ⟨c, cs, hchars, hstart, hrest⟩ := hname
  rw [hchars, List.forall_mem_cons]
  refine ⟨?_, hrest⟩
  exact ImportLine.isNameRest_of_identifierChar (ImportLine.isIdentifierChar_of_isNameStart hstart)

theorem IsDotted.ne {name : String} (hname : IsDotted name) {c d : Char} (hc : c ∈ name.toList)
    (hd : ImportLine.isNameRest d = false) : c ≠ d := by
  rintro rfl
  rw [hname.rest c hc] at hd
  cases hd

theorem IsDotted.plain {name : String} (hname : IsDotted name) :
    ∀ c ∈ name.toList, isPlain c = true := by
  intro c hc
  have hquote : c ≠ '\'' := hname.ne hc (by decide)
  have hdouble : c ≠ '"' := hname.ne hc (by decide)
  have hsign : c ≠ '#' := hname.ne hc (by decide)
  simp [isPlain, Mode.isQuote, hquote, hdouble, hsign]

theorem IsDotted.clean {name : String} (hname : IsDotted name) : Clean name := by
  refine ⟨steady_of_plain hname.plain, ?_⟩
  intro c hc
  have hline : c ≠ '\n' := hname.ne hc (by decide)
  have hreturn : c ≠ '\r' := hname.ne hc (by decide)
  have hnull : c ≠ '\x00' := hname.ne hc (by decide)
  simp [isBreak, hline, hreturn, hnull]

/-- A `from` import of a module that the set has. -/
theorem Resolved.imports {target imported : String} {rest : Line} (htarget : IsDotted target)
    (himported : Clean imported)
    (hknown : index.lacks (ModuleName.ofText target) = false) (hrest : Single rest) :
    Resolved index (.code ("from " ++ target ++ " import " ++ imported) :: rest) := by
  have hfrom : Clean "from " := clean_fixed rfl rfl
  have himport : Clean " import " := clean_fixed rfl rfl
  have hopening := (hfrom.append htarget.clean).append himport
  have hclean := hopening.append himported
  have hplain : ∀ c ∈ ("from " ++ target ++ " import ").toList, isPlain c = true := by
    have hfixed : ("from ".toList ++ " import ".toList).all isPlain = true := by decide
    rw [List.all_append, Bool.and_eq_true, List.all_eq_true, List.all_eq_true] at hfixed
    simp only [String.toList_append, List.forall_mem_append]
    exact ⟨⟨hfixed.1, htarget.plain⟩, hfixed.2⟩
  obtain ⟨body, hkept⟩ := kept_code hclean.steady hrest
  obtain ⟨c, cs, hchars, hstart, hname⟩ := htarget
  have hread : Mode.code.kept ("from " ++ target ++ " import " ++ imported).toList ++ body =
      "from ".toList ++ c :: (cs ++ (" import ".toList ++
        (Mode.code.kept imported.toList ++ body))) := by
    rw [String.toList_append, Mode.kept_append, hopening.steady, Mode.kept_of_plain hplain]
    simp [hchars]
  rw [← List.append_assoc, hread] at hkept
  apply (hrest.code hclean).resolved hkept
  intro hunbroken
  rw [ModuleIndex.resolves_iff hunbroken]
  intro found hfound package
  rw [ImportLine.ofChars?_from hstart hname] at hfound
  obtain rfl := Option.some.inj hfound
  have hsame : String.ofList (c :: cs) = target := by rw [← hchars, String.ofList_toList]
  simp [ImportLine.missing, ImportLine.resolve?, hsame, hknown]

/-- A text that means nothing special between quotes, and no import if it breaks the line. -/
structure Enclosable (text : String) : Prop where
  plain : ∀ c ∈ text.toList, isPlain c = true ∧ c ≠ '\\'
  oneWord : OneWord (text.toList ++ ['\''])

theorem silent_between {cs : List Char} (hplain : ∀ c ∈ cs, isPlain c = true ∧ c ≠ '\\')
    (hbreak : '\n' ∉ cs) : Silent (.short '\'') cs := by
  apply Mode.silent_of_forall
  intro c hc
  have hquote : c ≠ '\'' := by
    rintro rfl
    exact absurd (hplain _ hc).1 (by decide)
  exact Mode.silent_short (hplain c hc).2 hquote (fun hsame => hbreak (hsame ▸ hc))

/-- A text that stands between quotes as it is. If it holds a line break the literal ends there, and
the rest of the text is code up to the closing quote, which opens another literal then. -/
theorem Resolved.enclosed {opening text closing : String} {cs ds : List Char}
    (hopening : opening = .ofList cs)
    (hhead : (Mode.code.after cs == .short '\'' && !cs.any isBreak &&
      isOpening (Mode.code.kept cs)) = true)
    (htext : Enclosable text) (hclosing : closing = .ofList ('\'' :: ds))
    (htail : (isClean ds && ((Mode.opened '\'').after ds).step '\n' == (.code, ['\n']) &&
      ((Mode.opened '\'').kept ds).isEmpty) = true) :
    Resolved index [.code opening, .code text, .code closing] := by
  obtain ⟨hplain, hword⟩ := htext
  simp only [Bool.and_eq_true, beq_iff_eq, Bool.not_eq_true', List.any_eq_false, Bool.not_eq_true,
    List.isEmpty_iff] at hhead htail
  obtain ⟨⟨hshort, hflat⟩, hfirst⟩ := hhead
  obtain ⟨⟨hclean, hended⟩, hsilent⟩ := htail
  have ⟨hsteady, hdsFlat⟩ : Mode.code.after ds = .code ∧ ∀ c ∈ ds, isBreak c = false := by
    simpa [isClean] using hclean
  have hline : Line.text [.code opening, .code text, .code closing] =
      cs ++ (text.toList ++ '\'' :: (ds ++ ['\n'])) := by
    simp [text_cons, text_nil, Piece.render, hopening, hclosing]
  have hkeptFlat : ∀ c ∈ Mode.code.kept cs, isBreak c = false :=
    fun c hc => hflat c (Mode.mem_of_mem_kept hc)
  by_cases hbreak : '\n' ∈ text.toList
  · obtain ⟨before, later, htext, hbefore⟩ := List.eq_append_cons_of_mem hbreak
    rw [htext] at hplain hword
    rw [List.forall_mem_append, List.forall_mem_cons] at hplain
    have hquiet := silent_between hplain.1 hbefore
    have hcode : ∀ c ∈ later, isPlain c = true := fun c hc => (hplain.2.2 c hc).1
    have hafter : (Mode.short '\'').after text.toList = .code := by
      rw [htext, Mode.after_append, hquiet.stays]
      exact after_of_plain hcode
    have hkeeps : (Mode.short '\'').kept text.toList = '\n' :: later := by
      rw [htext, Mode.kept_append, hquiet.stays, hquiet.keeps]
      change '\n' :: Mode.code.kept later = _
      rw [Mode.kept_of_plain hcode]
    obtain ⟨bodies, hbodies, hparts⟩ := Text.exists_whole (later ++ ['\''])
    refine ⟨?_, Mode.code.kept cs, bodies, ?_, hkeptFlat, ?_, ?_⟩
    · simp only [Closed, hopening, hclosing, String.toList_ofList, hshort, hafter]
      exact hended
    · rw [hline, Mode.kept_append, hshort, Mode.kept_append, hafter, hkeeps, ← hbodies]
      change _ ++ ('\n' :: later ++ '\'' :: (Mode.opened '\'').kept (ds ++ ['\n'])) = _
      rw [Mode.kept_append, hsilent, Mode.kept, hended]
      simp [Mode.kept]
    · rw [← List.append_nil (Mode.code.kept cs)] at hkeptFlat ⊢
      exact resolves_of_isOpening hfirst hkeptFlat
    · intro b hb
      refine ⟨(hparts b hb).1, ModuleIndex.resolves_of_oneWord (hword.sublist ?_)⟩
      have hpart := (List.sublist_cons_self '\n' later).trans (List.sublist_append_right before _)
      exact (hparts b hb).2.trans (hpart.append_right _)
  · have hquiet := silent_between hplain hbreak
    have hwhole : ∀ c ∈ Mode.code.kept cs ++ '\'' :: Mode.code.kept ds, isBreak c = false := by
      rw [List.forall_mem_append, List.forall_mem_cons]
      exact ⟨hkeptFlat, rfl, fun c hc => hdsFlat c (Mode.mem_of_mem_kept hc)⟩
    refine ⟨?_, Mode.code.kept cs ++ '\'' :: Mode.code.kept ds, [], ?_, ?_, ?_, by simp⟩
    · simp only [Closed, hopening, hclosing, String.toList_ofList, hshort, hquiet.stays]
      change (Mode.code.after ds).step '\n' = _
      rw [hsteady]
      rfl
    · rw [hline, Mode.kept_append, hshort, Mode.kept_append, hquiet.stays, hquiet.keeps]
      change _ ++ '\'' :: Mode.code.kept (ds ++ ['\n']) = _
      rw [Mode.kept_append, hsteady]
      simp [Mode.kept, Mode.step, Mode.inCode, Mode.isQuote]
    · exact hwhole
    · exact resolves_of_isOpening hfirst hwhole

end Line

namespace Source

def Resolved (index : ModuleIndex) (source : Source) : Prop :=
  ∀ line ∈ source, Line.Resolved index line

theorem Resolved.closed {source : Source} (hresolved : Resolved index source) : Closed source :=
  fun line hline => (hresolved line hline).closed

/-- What is kept of a resolved source are lines whose imports the set has. -/
theorem Resolved.kept_eq {source : Source} (hresolved : Resolved index source) :
    ∃ bodies : List (List Char),
      Mode.code.kept source.render.toList = bodies.flatMap (· ++ ['\n']) ∧
        ∀ b ∈ bodies, '\n' ∉ b ∧ index.Resolves b := by
  induction source with
  | nil => exact ⟨[], rfl, by simp⟩
  | cons line rest ih =>
    obtain ⟨bodies, hkept, hbodies⟩ := ih fun l hl => hresolved l (List.mem_cons_of_mem line hl)
    obtain ⟨hclosed, first, more, hline, hunbroken, hfirst, hmore⟩ :=
      hresolved line List.mem_cons_self
    refine ⟨first :: (more ++ bodies), ?_, ?_⟩
    · rw [toList_render_cons, Mode.kept_append, hclosed.read.1, hline, hkept]
      simp
    · have hwhole : '\n' ∉ first := fun hmem => absurd (hunbroken _ hmem) (by decide)
      exact List.forall_mem_cons.mpr ⟨⟨hwhole, hfirst⟩, List.forall_mem_append.mpr ⟨hmore, hbodies⟩⟩

theorem toList_render_append (first second : Source) :
    (render (first ++ second)).toList = (render first).toList ++ (render second).toList := by
  induction first with
  | nil => rfl
  | cons line rest ih =>
    rw [List.cons_append, toList_render_cons, toList_render_cons, ih, List.append_assoc]

theorem all_render {p : Char → Bool} {source : Source}
    (hlines : ∀ line ∈ source, (Line.text line).all p = true) :
    (render source).toList.all p = true := by
  induction source with
  | nil => rfl
  | cons line rest ih =>
    rw [List.forall_mem_cons] at hlines
    rw [toList_render_cons, List.all_append, hlines.1, ih hlines.2]
    rfl

theorem Resolved.unresolved_eq_nil {source : Source} (hresolved : Resolved index source)
    (path : String) : index.unresolved path (Code.skeleton source.render) = [] := by
  obtain ⟨bodies, hkept, hbodies⟩ := hresolved.kept_eq
  rw [Code.skeleton, hkept]
  exact ModuleIndex.unresolved_whole (fun b hb => (hbodies b hb).1) (fun b hb => (hbodies b hb).2) _

theorem Resolved.nil : Resolved index [] := by simp [Resolved]

theorem Resolved.cons {line : Line} {rest : Source} (hline : Line.Resolved index line)
    (hrest : Resolved index rest) : Resolved index (line :: rest) :=
  List.forall_mem_cons.mpr ⟨hline, hrest⟩

theorem Resolved.join_cons {part : Source} {parts : List Source} (hpart : Resolved index part)
    (hparts : Resolved index (join parts)) : Resolved index (join (part :: parts)) :=
  List.forall_mem_append.mpr ⟨hpart, hparts⟩

theorem Resolved.when {lines : Source} (hlines : Resolved index lines) (condition : Bool) :
    Resolved index (Source.when condition lines) := by
  cases condition with
  | true => exact hlines
  | false => exact .nil

theorem Resolved.each {α : Type} {items : List α} {lines : α → Source}
    (hlines : ∀ a ∈ items, Resolved index (lines a)) :
    Resolved index (Source.each items lines) := by
  intro line hline
  obtain ⟨a, ha, hmem⟩ := List.mem_flatMap.mp hline
  exact hlines a ha line hmem

end Source

end RamlScaffold

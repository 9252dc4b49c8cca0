import RamlScaffold.Proofs.Code.Skeleton

/-!
Lines whose literals are closed: a scanner of the source that comes to the line in code is in code
again whenever a literal or a docstring starts, and after the line. What stands between the quotes
of such lines can be replaced without a trace in the skeleton.
-/

namespace RamlScaffold

open Code (Mode isIdentifier isIdentifierChar)
open Code.Mode (Ended)

def Piece.erased : Piece → Piece
  | .code text => .code text
  | .literal _ => .literal ""
  | .docstring before _ after => .docstring before "" after

namespace Line

def text (line : Line) : List Char := (Text.concat (line.map Piece.render) ++ "\n").toList

theorem text_nil : text [] = ['\n'] := rfl

theorem text_cons (piece : Piece) (rest : Line) :
    text (piece :: rest) = piece.render.toList ++ text rest := by
  simp [text, Text.concat]

def erased (line : Line) : Line := line.map Piece.erased

/-- Whether a literal can stand before these pieces: no third quote follows its two. -/
def Apart : Line → Prop
  | [] => True
  | .code text :: rest =>
    match text.toList with
    | [] => Apart rest
    | c :: _ => c ≠ '\''
  | _ => False

/-- The literals of a line are closed when the scanner comes to it in some mode. -/
def Closed : Mode → Line → Prop
  | m, [] => m.step '\n' = (.code, ['\n'])
  | m, .code text :: rest => Closed (m.after text.toList) rest
  | m, .literal _ :: rest => m = .code ∧ Apart rest ∧ Closed .code rest
  | m, .docstring before _ after :: rest =>
    m = .code ∧ before.toList.all Mode.isLongPlain = true ∧
      after.toList.all Mode.isLongPlain = true ∧ Closed .code rest

theorem apart_erased (rest : Line) : Apart (erased rest) ↔ Apart rest := by
  induction rest with
  | nil => rfl
  | cons piece rest ih =>
    cases piece with
    | code text =>
      change Apart (.code text :: erased rest) ↔ _
      simp only [Apart]
      cases text.toList with
      | nil => exact ih
      | cons c cs => rfl
    | literal text => rfl
    | docstring before text after => rfl

theorem closed_erased (m : Mode) (line : Line) : Closed m (erased line) ↔ Closed m line := by
  induction line generalizing m with
  | nil => rfl
  | cons piece rest ih =>
    cases piece with
    | code text => exact ih _
    | literal text => exact and_congr_right' (and_congr (apart_erased rest) (ih _))
    | docstring before text after =>
      exact and_congr_right' (and_congr_right' (and_congr_right' (ih _)))

theorem Apart.first {rest : Line} (hapart : Apart rest) :
    ∃ c cs, text rest = c :: cs ∧ c ≠ '\'' := by
  induction rest with
  | nil => exact ⟨'\n', [], rfl, by decide⟩
  | cons piece rest ih =>
    cases piece with
    | code t =>
      rw [text_cons, Piece.render]
      simp only [Apart] at hapart
      cases ht : t.toList with
      | nil =>
        rw [ht] at hapart
        exact ih hapart
      | cons c cs =>
        rw [ht] at hapart
        exact ⟨c, cs ++ text rest, rfl, hapart⟩
    | literal t => cases hapart
    | docstring before t after => cases hapart

theorem step_of_ended {m : Mode} (hended : Ended '\'' m) {c : Char} (hc : c ≠ '\'') :
    m.step c = Mode.code.step c := by
  rcases hended with rfl | rfl
  · rfl
  · simp [Mode.step, hc]

/-- After an empty literal the scanner reads on as in code. -/
theorem Apart.read {rest : Line} (hapart : Apart rest) {m : Mode} (hended : Ended '\'' m) :
    m.after (text rest) = Mode.code.after (text rest) ∧
      m.kept (text rest) = Mode.code.kept (text rest) := by
  obtain ⟨c, cs, htext, hc⟩ := hapart.first
  rw [htext, Mode.after, Mode.after, Mode.kept, Mode.kept, step_of_ended hended hc]
  exact ⟨rfl, rfl⟩

/-- What is kept of a closed line does not depend on what stands between its quotes. -/
theorem Closed.read {m : Mode} {line : Line} (hclosed : Closed m line) :
    m.after (text line) = .code ∧ m.kept (text line) = m.kept (text (erased line)) := by
  induction line generalizing m with
  | nil =>
    have hbreak : m.step '\n' = (.code, ['\n']) := hclosed
    exact ⟨by simp [text_nil, Mode.after, hbreak], rfl⟩
  | cons piece rest ih =>
    cases piece with
    | code t =>
      obtain ⟨hafter, hkept⟩ := ih (m := m.after t.toList) hclosed
      constructor
      · rw [text_cons, Mode.after_append]
        exact hafter
      · change m.kept (text _) = m.kept (text (.code t :: erased rest))
        rw [text_cons, text_cons, Mode.kept_append, Mode.kept_append]
        exact congrArg _ hkept
    | literal t =>
      -- One of the two texts may be empty and the other not, so the scanner can be in different
      -- modes after them; the next character brings these together.
      obtain ⟨rfl, hapart, hrest⟩ := hclosed
      obtain ⟨hafter, hkept⟩ := ih hrest
      have hapart' := (apart_erased rest).mpr hapart
      constructor
      · rw [text_cons, Mode.after_append, Piece.render, (hapart.read (Mode.quote_read t).1).1]
        exact hafter
      · change Mode.code.kept (text _) = Mode.code.kept (text (.literal "" :: erased rest))
        rw [text_cons, text_cons, Mode.kept_append, Mode.kept_append, Piece.render, Piece.render,
          (hapart.read (Mode.quote_read t).1).2, (hapart'.read (Mode.quote_read "").1).2,
          (Mode.quote_read t).2, (Mode.quote_read "").2, hkept]
    | docstring before t after =>
      obtain ⟨rfl, hbefore, hclosing, hrest⟩ := hclosed
      obtain ⟨hafter, hkept⟩ := ih hrest
      have hread := Mode.docstring_read t hbefore hclosing
      have hempty := Mode.docstring_read "" hbefore hclosing
      constructor
      · rw [text_cons, Mode.after_append, hread.1]
        exact hafter
      · change Mode.code.kept (text _) =
          Mode.code.kept (text (.docstring before "" after :: erased rest))
        rw [text_cons, text_cons, Mode.kept_append, Mode.kept_append, hread.1, hread.2, hempty.1,
          hempty.2, hkept]

/-- A text that a scanner in code passes through and is in code after it. -/
def Steady (text : String) : Prop := Mode.code.after text.toList = .code

/-- A fixed text is given by its characters, which are then read one by one. -/
theorem steady_fixed {text : String} {cs : List Char} (htext : text = .ofList cs)
    (hread : Mode.code.after cs = .code) : Steady text := by
  rw [Steady, htext, String.toList_ofList]
  exact hread

def isPlain (c : Char) : Bool := !Mode.isQuote c && c != '#'

theorem step_of_isPlain {c : Char} (hc : isPlain c = true) : Mode.code.step c = (.code, [c]) := by
  simp only [isPlain, Bool.and_eq_true, Bool.not_eq_true', bne_iff_ne, ne_eq] at hc
  simp [Mode.step, Mode.inCode, hc.1, hc.2]

theorem after_of_plain {cs : List Char} (hplain : ∀ c ∈ cs, isPlain c = true) :
    Mode.code.after cs = .code := by
  induction cs with
  | nil => rfl
  | cons c rest ih =>
    rw [List.forall_mem_cons] at hplain
    rw [Mode.after, step_of_isPlain hplain.1]
    exact ih hplain.2

theorem steady_of_plain {text : String} (hplain : ∀ c ∈ text.toList, isPlain c = true) :
    Steady text :=
  after_of_plain hplain

theorem isPlain_of_identifierChar {c : Char} (hc : isIdentifierChar c = true) :
    isPlain c = true := by
  have hquote : c ≠ '\'' := by rintro rfl; exact absurd hc (by decide)
  have hdouble : c ≠ '"' := by rintro rfl; exact absurd hc (by decide)
  have hsign : c ≠ '#' := by rintro rfl; exact absurd hc (by decide)
  simp [isPlain, Mode.isQuote, hquote, hdouble, hsign]

theorem steady_identifier {name : String} (hname : isIdentifier name = true) : Steady name :=
  steady_of_plain fun _ hc => isPlain_of_identifierChar (Code.isIdentifierChar_of_mem hname hc)

theorem Steady.append {first second : String} (hfirst : Steady first) (hsecond : Steady second) :
    Steady (first ++ second) := by
  rw [Steady, String.toList_append, Mode.after_append, hfirst, hsecond]

theorem steady_concat {parts : List String} (hparts : ∀ part ∈ parts, Steady part) :
    Steady (Text.concat parts) := by
  induction parts with
  | nil => rfl
  | cons part rest ih =>
    rw [List.forall_mem_cons] at hparts
    exact hparts.1.append (ih hparts.2)

theorem steady_textIf (condition : Bool) {text : String} (htext : Steady text) :
    Steady (Source.textIf condition text) := by
  cases condition with
  | true => exact htext
  | false => rfl

theorem steady_digits (n : Nat) : Steady (toString n) := by
  apply steady_of_plain
  intro c hc
  have hdigit := Code.isDigit_of_mem_toString hc
  exact isPlain_of_identifierChar (by simp [isIdentifierChar, Text.isAlnum, hdigit])

theorem Apart.nil : Apart [] := trivial

theorem Apart.fixed {text : String} {c : Char} {cs : List Char} (htext : text = .ofList (c :: cs))
    (hc : (c == '\'') = false) {rest : Line} : Apart (.code text :: rest) := by
  rw [Apart, htext, String.toList_ofList]
  simpa using hc

/-- The text may be empty. -/
theorem Apart.code {text : String} {rest : Line} (htext : text.toList.head? ≠ some '\'')
    (hrest : Apart rest) : Apart (.code text :: rest) := by
  rw [Apart]
  cases hchars : text.toList with
  | nil => exact hrest
  | cons c cs =>
    rw [hchars] at htext
    simpa using htext

theorem Closed.nil : Closed .code [] := rfl

theorem Closed.code {text : String} {rest : Line} (htext : Steady text)
    (hrest : Closed .code rest) : Closed .code (.code text :: rest) := by
  rw [Closed, htext]
  exact hrest

theorem Closed.text {text : String} {cs : List Char} {rest : Line} (htext : text = .ofList cs)
    (hread : Mode.code.after cs = .code) (hrest : Closed .code rest) :
    Closed .code (.code text :: rest) :=
  .code (steady_fixed htext hread) hrest

theorem Closed.name {name : String} {rest : Line} (hname : isIdentifier name = true)
    (hrest : Closed .code rest) : Closed .code (.code name :: rest) :=
  .code (steady_identifier hname) hrest

theorem Closed.of_ended {m : Mode} {rest : Line} (hended : Ended '\'' m) (hapart : Apart rest)
    (hrest : Closed .code rest) : Closed m rest := by
  induction rest with
  | nil => rcases hended with rfl | rfl <;> rfl
  | cons piece rest ih =>
    cases piece with
    | code t =>
      simp only [Apart] at hapart
      rw [Closed] at hrest ⊢
      cases ht : t.toList with
      | nil =>
        rw [ht] at hapart hrest
        exact ih hapart hrest
      | cons c cs =>
        rw [ht] at hapart hrest
        rw [Mode.after, step_of_ended hended hapart]
        exact hrest
    | literal t => cases hapart
    | docstring before t after => cases hapart

/-- A text that is a literal as it stands. -/
theorem Closed.quoted {text : String} {rest : Line}
    (htext : Ended '\'' (Mode.code.after text.toList)) (hapart : Apart rest)
    (hrest : Closed .code rest) : Closed .code (.code text :: rest) := by
  rw [Closed]
  exact .of_ended htext hapart hrest

theorem Closed.literal {text : String} {rest : Line} (hapart : Apart rest)
    (hrest : Closed .code rest) : Closed .code (.literal text :: rest) :=
  ⟨rfl, hapart, hrest⟩

theorem Closed.docstring {before text after : String} {bs cs : List Char}
    (hbefore : before = .ofList bs) (hafter : after = .ofList cs)
    (hplain : (bs ++ cs).all Mode.isLongPlain = true) :
    Closed .code [.docstring before text after] := by
  rw [List.all_append, Bool.and_eq_true] at hplain
  refine ⟨rfl, ?_, ?_, .nil⟩
  · rw [hbefore, String.toList_ofList]
    exact hplain.1
  · rw [hafter, String.toList_ofList]
    exact hplain.2

end Line

namespace Source

def erased (source : Source) : Source := source.map Line.erased

def Closed (source : Source) : Prop := ∀ line ∈ source, Line.Closed .code line

theorem toList_render_cons (line : Line) (rest : Source) :
    (render (line :: rest)).toList = Line.text line ++ (render rest).toList := by
  simp [render, Line.text, Text.concat]

/-- What stands between the quotes of closed lines leaves no trace in the skeleton. -/
theorem Closed.kept_erased {source : Source} (hclosed : Closed source) (rest : Source) :
    Mode.code.kept (render (source ++ rest)).toList =
      Mode.code.kept (render (source.erased ++ rest)).toList := by
  induction source with
  | nil => rfl
  | cons line lines ih =>
    have hline := hclosed line List.mem_cons_self
    have hlines : Closed lines := fun l hl => hclosed l (List.mem_cons_of_mem line hl)
    have herased : Line.Closed .code (Line.erased line) := (Line.closed_erased _ _).mpr hline
    change Mode.code.kept (render (line :: (lines ++ rest))).toList =
      Mode.code.kept (render (Line.erased line :: (erased lines ++ rest))).toList
    rw [toList_render_cons, toList_render_cons, Mode.kept_append, Mode.kept_append, hline.read.1,
      herased.read.1, hline.read.2, ih hlines]

theorem erased_join_cons {part part' : Source} {parts parts' : List Source}
    (hpart : part.erased = part'.erased) (hparts : (join parts).erased = (join parts').erased) :
    (join (part :: parts)).erased = (join (part' :: parts')).erased := by
  simp only [erased, join, List.flatten_cons, List.map_append] at hpart hparts ⊢
  rw [hpart, hparts]

/-- Items that are replaced by others whose lines differ only between quotes. -/
theorem erased_each_map {α : Type} {f : α → α} {lines lines' : α → Source}
    (hlines : ∀ a, (lines a).erased = (lines' (f a)).erased) (items : List α) :
    (each items lines).erased = (each (items.map f) lines').erased := by
  simp only [erased, each, List.flatMap_map, List.map_flatMap]
  exact congrArg (items.flatMap ·) (funext hlines)

theorem closed_erased (source : Source) : Closed source.erased ↔ Closed source := by
  simp [Closed, erased, Line.closed_erased]

/-- Sources that start with closed lines and differ only between the quotes of these have the same
skeleton. -/
theorem skeleton_congr {first second : Source} (hfirst : Closed first)
    (hsame : first.erased = second.erased) (rest : Source) :
    Code.skeleton (render (first ++ rest)) = Code.skeleton (render (second ++ rest)) := by
  have hsecond : Closed second := by
    rw [← closed_erased, ← hsame, closed_erased]
    exact hfirst
  rw [Code.skeleton, Code.skeleton, hfirst.kept_erased, hsecond.kept_erased, hsame]

theorem skeleton_eq {source source' : Source} (hclosed : Closed source)
    (hsame : source.erased = source'.erased) :
    Code.skeleton source.render = Code.skeleton source'.render := by
  have hwhole := skeleton_congr hclosed hsame []
  rwa [List.append_nil, List.append_nil] at hwhole

theorem skeleton_join_congr {part part' : Source} (hpart : Closed part)
    (hsame : part.erased = part'.erased) (parts : List Source) :
    Code.skeleton (render (join (part :: parts))) =
      Code.skeleton (render (join (part' :: parts))) :=
  skeleton_congr hpart hsame (join parts)

/-- Sources that start with a docstring and differ only in its text have the same skeleton. -/
theorem skeleton_docstring_congr {before text text' after : String} {bs cs : List Char}
    (hbefore : before = .ofList bs) (hafter : after = .ofList cs)
    (hplain : (bs ++ cs).all Mode.isLongPlain = true) (rest : Source) :
    Code.skeleton (render ([.docstring before text after] :: rest)) =
      Code.skeleton (render ([.docstring before text' after] :: rest)) := by
  have hclosed : Closed [[.docstring before text after]] := by
    simpa [Closed] using Line.Closed.docstring hbefore hafter hplain
  have hsame : erased [[.docstring before text after]] =
      erased [[.docstring before text' after]] := rfl
  exact skeleton_congr hclosed hsame rest

theorem Closed.nil : Closed [] := by simp [Closed]

theorem Closed.cons {line : Line} {rest : Source} (hline : Line.Closed .code line)
    (hrest : Closed rest) : Closed (line :: rest) :=
  List.forall_mem_cons.mpr ⟨hline, hrest⟩

/-- A line of fixed text, given by its characters. -/
theorem Closed.fixed {text : String} {cs : List Char} {rest : Source} (htext : text = .ofList cs)
    (hread : (Mode.code.after cs).step '\n' = (.code, ['\n'])) (hrest : Closed rest) :
    Closed ([.code text] :: rest) := by
  refine .cons ?_ hrest
  rw [htext, Line.Closed, String.toList_ofList]
  exact hread

theorem Closed.append {first second : Source} (hfirst : Closed first) (hsecond : Closed second) :
    Closed (first ++ second) :=
  List.forall_mem_append.mpr ⟨hfirst, hsecond⟩

theorem Closed.join_cons {part : Source} {parts : List Source} (hpart : Closed part)
    (hparts : Closed (join parts)) : Closed (join (part :: parts)) :=
  hpart.append hparts

theorem Closed.each {α : Type} {items : List α} {lines : α → Source}
    (hlines : ∀ a ∈ items, Closed (lines a)) : Closed (Source.each items lines) := by
  intro line hline
  obtain ⟨a, ha, hmem⟩ := List.mem_flatMap.mp hline
  exact hlines a ha line hmem

end Source

/-- What is to be seen of an artifact apart from its literals: the skeleton of a Python source, and
nothing of other files. -/
def Artifact.outline (path text : String) : String :=
  if Text.endsWith ".py" path then Code.skeleton text else ""

def Artifact.outlines (artifacts : List (String × Source)) : List (String × String) :=
  artifacts.map fun (path, source) => (path, outline path source.render)

namespace Artifact

theorem outlines_append (first second : List (String × Source)) :
    outlines (first ++ second) = outlines first ++ outlines second :=
  List.map_append

theorem outlines_flatMap_congr {α : Type} {items : List α} {f g : α → List (String × Source)}
    (hsame : ∀ a ∈ items, outlines (f a) = outlines (g a)) :
    outlines (items.flatMap f) = outlines (items.flatMap g) := by
  simp only [outlines, List.map_flatMap] at hsame ⊢
  exact List.flatMap_congr hsame

theorem outline_congr {text text' : String} (hsame : Code.skeleton text = Code.skeleton text')
    (path : String) : outline path text = outline path text' := by
  rw [outline, outline, hsame]

end Artifact

end RamlScaffold

import RamlScaffold.Artifact.Source
import RamlScaffold.Proofs.Code.Value
import RamlScaffold.Proofs.Storage.Names

/-!
Reading generated lines. What an artifact says is read off the text of its lines. A literal in a
line is read up to its closing quote, and its value is what was quoted. The names that a module
binds are read off the words of its lines: imports, assignments and classes bind a name when they
are not indented.
-/

namespace RamlScaffold

def Line.written (line : Line) : String := Text.concat (line.map Piece.render)

@[simp] theorem Line.toList_written_nil : (Line.written []).toList = [] := rfl

@[simp] theorem Line.toList_written_cons (piece : Piece) (rest : Line) :
    (Line.written (piece :: rest)).toList = piece.render.toList ++ (Line.written rest).toList := by
  simp [Line.written, Text.concat]

@[simp] theorem Line.toList_written_append (first second : Line) :
    (Line.written (first ++ second)).toList =
      (Line.written first).toList ++ (Line.written second).toList := by
  induction first with
  | nil => rfl
  | cons piece rest ih => simp [ih]

namespace Code

/-- What a reader of a literal adds to its value up to the closing quote, and what follows. -/
def Within.scan : Within → List Char → Option (List Char × List Char)
  | .ended, rest => some ([], rest)
  | _, [] => none
  | p, c :: cs => do
    let (next, added) ← p.step false [] c
    let (value, rest) ← next.scan cs
    return (added ++ value, rest)

def literal? : List Char → Option (String × List Char)
  | '\'' :: body => (Within.text.scan body).map fun found => (.ofList found.1, found.2)
  | _ => none

namespace Within

variable {p q : Within} {cs rest added value tail : List Char}

theorem scan_ended (rest : List Char) : Within.ended.scan rest = some ([], rest) := by
  cases rest <;> rfl

theorem scan_of_reads (hreads : Reads false [] p cs q added)
    (hscan : q.scan rest = some (value, tail)) :
    p.scan (cs ++ rest) = some (added ++ value, tail) := by
  induction cs generalizing p added with
  | nil =>
    obtain ⟨rfl, rfl⟩ : p = q ∧ [] = added := by simpa [Reads, run] using hreads
    exact hscan
  | cons c later ih =>
    simp only [Reads, run, Option.bind_eq_bind, Option.bind_eq_some_iff] at hreads
    obtain ⟨⟨next, first⟩, hstep, ⟨last, more⟩, hrun, hwhole⟩ := hreads
    obtain ⟨rfl, rfl⟩ : last = q ∧ first ++ more = added := by simpa using hwhole
    have hopen : p ≠ .ended := by
      rintro rfl
      cases hstep
    rw [List.cons_append, scan, hstep]
    · simp [ih hrun]
    · exact hopen

end Within

/-- A quoted text is read back, and the reader stops behind it. -/
theorem literal?_quote (text : String) (rest : List Char) :
    literal? ((quote text).toList ++ rest) = some (text, rest) := by
  have hreads : Within.Reads false [] .text (text.toList.flatMap quoteChar ++ ['\'']) .ended
      text.toList := by
    have hbody : Within.Reads false [] .text (text.toList.flatMap quoteChar) .text text.toList :=
      Within.reads_flatMap (fun c => Within.reads_quoteChar (by simp)) text.toList
    have hclosing : Within.Reads false [] .text ['\''] .ended [] := rfl
    simpa using hbody.append hclosing
  have hscan := Within.scan_of_reads hreads (Within.scan_ended rest)
  simp only [quote, String.toList_ofList, List.cons_append, literal?, hscan, Option.map_some,
    List.append_nil, String.ofList_toList]

example : literal? "'a\\'b\\x00': 1".toList = some ("a'b\x00", ": 1".toList) := by decide

end Code

/-- The words of a line, by the spaces between them. An indented line starts with empty words. -/
def Line.words (line : Line) : List String := Text.splitOn ' ' line.written

theorem Line.words_eq {line : Line} {words : List String} (hwords : words ≠ [])
    (hwritten : line.written.toList = (Text.joinWith " " words).toList)
    (hplain : ∀ word ∈ words, ' ' ∉ word.toList) : line.words = words := by
  rw [Line.words, String.toList_inj.mp hwritten, Text.splitOn_joinWith rfl hwords hplain]

namespace Source

def opensList : List String → Bool
  | ["from", _, "import", "("] => true
  | _ => false

def boundName? : List String → Option String
  | ["from", _, "import", name] => some name
  | ["from", _, "import", _, "as", name] => some name
  | ["class", name] => Text.dropEnd? ":" name
  | name :: "=" :: _ => if Code.isIdentifier name then some name else none
  | _ => none

/-- The names that the lines of a module bind, in order. `listing` says whether an import is open
that lists its names. -/
def boundNames (listing : Bool) : Source → List String
  | [] => []
  | line :: rest =>
    if listing then
      if line.written == ")" then boundNames false rest
      else (Text.dropEnd? "," (Text.trim line.written)).toList ++ boundNames true rest
    else if opensList line.words then boundNames true rest
    else (boundName? line.words).toList ++ boundNames false rest

example : boundNames false [[.code "from a import ("], [.code "    b,"], [.code ")"],
    [.code "from c import D as _d"], [.code "e = f = 1"], [.code "class G:"], [.code "    h = 2"]] =
    ["b", "_d", "e", "G"] := by decide

def Binds (line : Line) (name : String) : Prop :=
  opensList line.words = false ∧ boundName? line.words = some name

/-- Lines that neither bind a name nor open a list of names. -/
def Silent (line : Line) : Prop :=
  opensList line.words = false ∧ boundName? line.words = none

/-- The first word of a line that binds a name is an identifier, so a line is silent when it starts
with a blank, a quote or a bracket. -/
theorem silent_of_head {line : Line}
    (hhead : ∀ c ∈ line.written.toList.head?,
      (Text.isUpper c || Text.isLower c || c == '_') = false) : Silent line := by
  obtain ⟨first, rest, hwords, hfirst⟩ : ∃ first rest, line.words = first :: rest ∧
      Code.isIdentifier first = false := by
    unfold Line.words Text.splitOn
    cases hchars : line.written.toList with
    | nil => exact ⟨"", [], rfl, rfl⟩
    | cons c rest =>
      have hc := hhead c (by simp [hchars])
      rw [Text.cutAt]
      split
      · exact ⟨"", _, rfl, rfl⟩
      · split
        · exact ⟨_, _, rfl, by simp [Code.isIdentifier, hc]⟩
        · exact ⟨_, _, rfl, by simp [Code.isIdentifier, hc]⟩
  have hfrom : first ≠ "from" := by
    rintro rfl
    cases hfirst
  have hclass : first ≠ "class" := by
    rintro rfl
    cases hfirst
  rw [Silent, hwords]
  constructor
  · unfold opensList
    split <;> simp_all
  · unfold boundName?
    split <;> simp_all

def startsNoName (c : Char) : Bool := !(Text.isUpper c || Text.isLower c || c == '_')

def isSilent : Line → Bool
  | [.code text] => text.toList.head?.all startsNoName
  | .code text :: _ => text.toList.head?.any startsNoName
  | .docstring .. :: _ => true
  | _ => false

theorem silent_of_isSilent {line : Line} (hline : isSilent line = true) : Silent line := by
  apply silent_of_head
  intro c hc
  unfold isSilent at hline
  split at hline
  · have hhead := (Option.all_eq_true _ _).mp hline c (by simpa [Piece.render] using hc)
    simpa [startsNoName] using hhead
  · obtain ⟨first, hfirst, hstart⟩ := (Option.any_eq_true _ _).mp hline
    obtain rfl : first = c := by
      rw [Line.toList_written_cons, Piece.render, List.head?_append, hfirst] at hc
      simpa using hc
    simpa [startsNoName] using hstart
  · obtain rfl : '"' = c := by simpa [Piece.render] using hc
    rfl
  · cases hline

theorem boundNames_cons {line : Line} {name : String} (hline : Binds line name) (rest : Source) :
    boundNames false (line :: rest) = name :: boundNames false rest := by
  simp [boundNames, hline.1, hline.2]

theorem boundNames_list {line : Line} (hopen : opensList line.words = true) (rest : Source) :
    boundNames false (line :: rest) = boundNames true rest := by
  simp [boundNames, hopen]

theorem boundNames_silent_cons {line : Line} (hline : isSilent line = true) (rest : Source) :
    boundNames false (line :: rest) = boundNames false rest := by
  obtain ⟨hopen, hname⟩ := silent_of_isSilent hline
  simp [boundNames, hopen, hname]

theorem boundNames_silent {lines : Source} (hlines : lines.all isSilent = true) :
    boundNames false lines = [] := by
  induction lines with
  | nil => rfl
  | cons line lines ih =>
    rw [List.all_cons, Bool.and_eq_true] at hlines
    rw [boundNames_silent_cons hlines.1, ih hlines.2]

/-- Lines that bind a name for each item. -/
theorem boundNames_each {α : Type} {items : List α} {line : α → Line} {name : α → String}
    (hitems : ∀ item ∈ items, Binds (line item) (name item)) (rest : Source) :
    boundNames false ((each items fun item => [line item]) ++ rest) =
      items.map name ++ boundNames false rest := by
  induction items with
  | nil => rfl
  | cons item items ih =>
    have hitem := hitems item List.mem_cons_self
    have hrest := ih fun other hother => hitems other (List.mem_cons_of_mem item hother)
    exact (boundNames_cons hitem _).trans (congrArg (List.cons _) hrest)

end Source

end RamlScaffold

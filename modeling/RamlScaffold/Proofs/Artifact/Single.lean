import RamlScaffold.Proofs.Artifact.Closed
import RamlScaffold.Proofs.Code.Value

/-!
Lines of an artifact without line breaks. What is kept of a closed line is one line of the skeleton,
unless text that may hold line breaks stands in its code.
-/

namespace RamlScaffold

open Code (Mode isIdentifier isIdentifierChar)
open Code.Within (isBreak)
open Code.Mode (Ended Silent)

namespace Code.Mode

theorem eq_of_mem_step {m : Mode} {c d : Char} (hc : c ∈ (m.step d).2) : c = d := by
  cases m <;> grind [step, inCode, inShort, inLong]

/-- Nothing is kept that was not there. -/
theorem mem_of_mem_kept {m : Mode} {cs : List Char} {c : Char} (hc : c ∈ m.kept cs) : c ∈ cs := by
  induction cs generalizing m with
  | nil => exact hc
  | cons d rest ih =>
    rw [kept, List.mem_append] at hc
    rcases hc with hfirst | hrest
    · rw [eq_of_mem_step hfirst]
      exact List.mem_cons_self
    · exact List.mem_cons_of_mem d (ih hrest)

theorem kept_of_plain {cs : List Char} (hplain : ∀ c ∈ cs, Line.isPlain c = true) :
    Mode.code.kept cs = cs := by
  induction cs with
  | nil => rfl
  | cons c rest ih =>
    rw [List.forall_mem_cons] at hplain
    rw [kept, Line.step_of_isPlain hplain.1, ih hplain.2]
    rfl

end Code.Mode

namespace Line

/-- A text that leaves a scanner in code and the line unbroken. -/
structure Clean (text : String) : Prop where
  steady : Steady text
  unbroken : ∀ c ∈ text.toList, isBreak c = false

def isClean (cs : List Char) : Bool := Mode.code.after cs == .code && !cs.any isBreak

theorem unbroken_of_any {cs : List Char} (hnone : cs.any isBreak = false) :
    ∀ c ∈ cs, isBreak c = false := by
  simpa only [List.any_eq_false, Bool.not_eq_true] using hnone

theorem clean_fixed {text : String} {cs : List Char} (htext : text = .ofList cs)
    (hclean : isClean cs = true) : Clean text := by
  simp only [isClean, Bool.and_eq_true, beq_iff_eq, Bool.not_eq_true'] at hclean
  refine ⟨steady_fixed htext hclean.1, ?_⟩
  rw [htext, String.toList_ofList]
  exact unbroken_of_any hclean.2

theorem not_isBreak_of_identifierChar {c : Char} (hc : isIdentifierChar c = true) :
    isBreak c = false := by
  rw [Bool.eq_false_iff]
  intro hbreak
  simp only [isBreak, Bool.or_eq_true, beq_iff_eq] at hbreak
  rcases hbreak with (rfl | rfl) | rfl <;> exact absurd hc (by decide)

theorem clean_identifier {name : String} (hname : isIdentifier name = true) : Clean name :=
  ⟨steady_identifier hname,
    fun _ hc => not_isBreak_of_identifierChar (Code.isIdentifierChar_of_mem hname hc)⟩

theorem clean_digits (n : Nat) : Clean (toString n) := by
  refine ⟨steady_digits n, ?_⟩
  intro c hc
  apply not_isBreak_of_identifierChar
  simp [isIdentifierChar, Text.isAlnum, Code.isDigit_of_mem_toString hc]

theorem Clean.append {first second : String} (hfirst : Clean first) (hsecond : Clean second) :
    Clean (first ++ second) := by
  refine ⟨hfirst.steady.append hsecond.steady, ?_⟩
  rw [String.toList_append, List.forall_mem_append]
  exact ⟨hfirst.unbroken, hsecond.unbroken⟩

theorem clean_joinWith {sep : String} (hsep : Clean sep) {parts : List String}
    (hparts : ∀ part ∈ parts, Clean part) : Clean (Text.joinWith sep parts) := by
  fun_induction Text.joinWith sep parts with
  | case1 => exact clean_fixed rfl rfl
  | case2 part => exact hparts part List.mem_cons_self
  | case3 part rest _ ih =>
    rw [List.forall_mem_cons] at hparts
    exact (hparts.1.append hsep).append (ih hparts.2)

theorem clean_textIf (condition : Bool) {text : String} (htext : Clean text) :
    Clean (Source.textIf condition text) := by
  cases condition with
  | true => exact htext
  | false => exact clean_fixed rfl rfl

theorem unbroken_quote (text : String) : ∀ c ∈ (Code.quote text).toList, isBreak c = false :=
  Code.not_isBreak_of_value? (Code.value?_quote [] text)

def Unbroken (line : Line) : Prop :=
  ∀ text, .code text ∈ line → ∀ c ∈ text.toList, isBreak c = false

/-- What is kept of a closed and unbroken line is a line. -/
theorem Closed.kept_eq {m : Mode} {line : Line} (hclosed : Closed m line)
    (hunbroken : Unbroken line) :
    ∃ body, m.kept (Line.text line) = body ++ ['\n'] ∧ ∀ c ∈ body, isBreak c = false := by
  induction line generalizing m with
  | nil =>
    have hbreak : m.step '\n' = (.code, ['\n']) := hclosed
    exact ⟨[], by simp [text_nil, Mode.kept, hbreak], by simp⟩
  | cons piece rest ih =>
    have hlater : Unbroken rest := fun t ht => hunbroken t (List.mem_cons_of_mem piece ht)
    cases piece with
    | code t =>
      obtain ⟨body, hkept, hbody⟩ := ih (m := m.after t.toList) hclosed hlater
      refine ⟨m.kept t.toList ++ body, ?_, ?_⟩
      · rw [text_cons, Mode.kept_append, List.append_assoc]
        exact congrArg _ hkept
      · rw [List.forall_mem_append]
        exact ⟨fun c hc => hunbroken t List.mem_cons_self c (Mode.mem_of_mem_kept hc), hbody⟩
    | literal t =>
      obtain ⟨rfl, hapart, hrest⟩ := hclosed
      obtain ⟨body, hkept, hbody⟩ := ih hrest hlater
      refine ⟨['\'', '\''] ++ body, ?_, ?_⟩
      · rw [text_cons, Mode.kept_append, Piece.render, (Mode.quote_read t).2,
          (hapart.read (Mode.quote_read t).1).2, hkept, List.append_assoc]
      · rw [List.forall_mem_append]
        exact ⟨unbroken_of_any rfl, hbody⟩
    | docstring before t after =>
      obtain ⟨rfl, hbefore, hclosing, hrest⟩ := hclosed
      obtain ⟨body, hkept, hbody⟩ := ih hrest hlater
      have hread := Mode.docstring_read t hbefore hclosing
      refine ⟨['"', '"', '"', '"', '"', '"'] ++ body, ?_, ?_⟩
      · rw [text_cons, Mode.kept_append, hread.1, hread.2, hkept, List.append_assoc]
      · rw [List.forall_mem_append]
        exact ⟨unbroken_of_any rfl, hbody⟩

structure Single (line : Line) : Prop where
  closed : Closed .code line
  unbroken : Unbroken line

theorem Single.nil : Single [] := ⟨.nil, fun _ ht => by cases ht⟩

theorem Unbroken.cons_code {text : String} {rest : Line}
    (htext : ∀ c ∈ text.toList, isBreak c = false) (hrest : Unbroken rest) :
    Unbroken (.code text :: rest) := by
  intro t ht
  rcases List.mem_cons.mp ht with hsame | hmem
  · rw [Piece.code.inj hsame]
    exact htext
  · exact hrest t hmem

theorem Single.code {text : String} {rest : Line} (htext : Clean text) (hrest : Single rest) :
    Single (.code text :: rest) :=
  ⟨.code htext.steady hrest.closed, hrest.unbroken.cons_code htext.unbroken⟩

theorem Single.text {text : String} {cs : List Char} {rest : Line} (htext : text = .ofList cs)
    (hclean : isClean cs = true) (hrest : Single rest) : Single (.code text :: rest) :=
  .code (clean_fixed htext hclean) hrest

theorem Single.name {name : String} {rest : Line} (hname : isIdentifier name = true)
    (hrest : Single rest) : Single (.code name :: rest) :=
  .code (clean_identifier hname) hrest

theorem Single.literal {text : String} {rest : Line} (hapart : Apart rest) (hrest : Single rest) :
    Single (.literal text :: rest) := by
  refine ⟨.literal hapart hrest.closed, ?_⟩
  intro t ht
  rcases List.mem_cons.mp ht with hsame | hmem
  · cases hsame
  · exact hrest.unbroken t hmem

/-- A text that is a literal as it stands, or ends in one. -/
theorem Single.quoted {text : String} {rest : Line}
    (hended : Ended '\'' (Mode.code.after text.toList))
    (hunbroken : ∀ c ∈ text.toList, isBreak c = false) (hapart : Apart rest) (hrest : Single rest) :
    Single (.code text :: rest) :=
  ⟨.quoted hended hapart hrest.closed, hrest.unbroken.cons_code hunbroken⟩

theorem Single.docstring {before text after : String} {bs cs : List Char}
    (hbefore : before = .ofList bs) (hafter : after = .ofList cs)
    (hplain : (bs ++ cs).all Mode.isLongPlain = true) : Single [.docstring before text after] := by
  refine ⟨.docstring hbefore hafter hplain, ?_⟩
  intro t ht
  rcases List.mem_cons.mp ht with hsame | hmem
  · cases hsame
  · cases hmem

end Line

end RamlScaffold

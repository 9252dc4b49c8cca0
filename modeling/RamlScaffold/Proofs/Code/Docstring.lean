import RamlScaffold.Artifact.Source
import RamlScaffold.Proofs.Code.Escapes
import RamlScaffold.Proofs.Code.Skeleton

/-!
Docstrings cannot be closed from inside. Every double quote of the escaped text stands behind a
backslash that counts, and the text ends outside an escape, so a reader of the literal comes out of
the text as it went in: what follows is read as if the text were not there, and the value has the
trimmed text where the escaped one stood. Only quotes of the code around it close the literal.
-/

namespace RamlScaffold.Code

def rewritten (c : Char) (spelling cs : List Char) : List Char :=
  cs.flatMap fun d => if d == c then spelling else [d]

/-- The value of a literal in triple double quotes from behind its opening quotes, and what follows
the literal. It ends at the first three quotes in a row, and a quote behind a backslash is none of
them. -/
def longBody? : List Char → Option (List Char × List Char)
  | '"' :: '"' :: '"' :: rest => some ([], rest)
  | '\\' :: c :: rest => do
    let d ← Within.escaped? c
    let (value, following) ← longBody? rest
    return (d :: value, following)
  | c :: rest => do
    let (value, following) ← longBody? rest
    return (c :: value, following)
  | [] => none

def longLiteral? : List Char → Option (List Char × List Char)
  | '"' :: '"' :: '"' :: rest => longBody? rest
  | _ => none

example : longLiteral? "\"\"\"a \"b\" \\\\\\\"\"\"\" c".toList =
    some ("a \"b\" \\\"".toList, " c".toList) := by decide

/-- Characters that denote a text inside a literal in triple double quotes and do not reach beyond
themselves. -/
structure Encloses (body text : List Char) : Prop where
  /-- Wherever they stand in a literal, each double quote among them is escaped. -/
  quotes : ∀ lead, escapesNext lead = false → ∀ before after,
    body = before ++ '"' :: after → escapesNext (lead ++ before) = true
  /-- What follows is not escaped by them. -/
  ended : ∀ lead, escapesNext lead = false → escapesNext (lead ++ body) = false
  /-- The literal goes on behind them as if it started there, and has the text before the rest of
  its value. -/
  value : ∀ rest, longBody? (body ++ rest) =
    (longBody? rest).map fun found => (text ++ found.1, found.2)

namespace Encloses

variable {body body' text text' : List Char}

theorem nil : Encloses [] [] where
  quotes := by simp
  ended := by simp
  value rest := by simp

theorem append (hfirst : Encloses body text) (hsecond : Encloses body' text') :
    Encloses (body ++ body') (text ++ text') where
  quotes lead hlead := by
    apply forall_before_append (hfirst.quotes lead hlead)
    intro before after hsplit
    rw [← List.append_assoc]
    exact hsecond.quotes (lead ++ body) (hfirst.ended lead hlead) before after hsplit
  ended lead hlead := by
    rw [← List.append_assoc]
    exact hsecond.ended (lead ++ body) (hfirst.ended lead hlead)
  value rest := by
    rw [List.append_assoc, hfirst.value, hsecond.value, Option.map_map]
    simp [Function.comp_def]

/-- A character without a meaning of its own denotes itself. -/
theorem plain {c : Char} (hplain : Mode.isLongPlain c = true) : Encloses [c] [c] := by
  simp only [Mode.isLongPlain, Bool.and_eq_true, bne_iff_ne, ne_eq] at hplain
  obtain ⟨hquote, hescape⟩ := hplain
  refine ⟨?_, ?_, ?_⟩
  · intro lead _ before after hsplit
    have hmem : '"' ∈ [c] := by simp [hsplit]
    exact absurd (List.mem_singleton.mp hmem).symm hquote
  · intro lead _
    exact escapesNext_concat_of_ne lead hescape
  · intro rest
    have hread : longBody? (c :: rest) =
        (longBody? rest).bind fun found => some (c :: found.1, found.2) := by
      rw [longBody?.eq_3] <;> simp_all
    simp only [List.singleton_append, hread, Option.map_eq_bind]
    rfl

/-- A backslash and a character that is written behind one denote the character. -/
theorem escape {c : Char} (hc : Within.escaped? c = some c) : Encloses ['\\', c] [c] := by
  have hopened {lead : List Char} (hlead : escapesNext lead = false) :
      escapesNext (lead ++ ['\\']) = true := by
    simp [escapesNext_concat, hlead]
  refine ⟨?_, ?_, ?_⟩
  · intro lead hlead before after hsplit
    obtain rfl := before_of_escaped (by decide) hsplit
    exact hopened hlead
  · intro lead hlead
    rw [List.append_cons, escapesNext_concat, hopened hlead, Bool.not_true, Bool.and_false]
  · intro rest
    have hread : longBody? ('\\' :: c :: rest) =
        (longBody? rest).bind fun found => some (c :: found.1, found.2) := by
      rw [longBody?.eq_2, hc]
      rfl
    simp only [List.cons_append, List.nil_append, hread, Option.map_eq_bind]
    rfl

theorem docstringChar (c : Char) : Encloses (docstringChar c) [c] := by
  unfold Code.docstringChar
  split
  · next hslash =>
    rw [beq_iff_eq.mp hslash]
    exact escape rfl
  · next hslash =>
    split
    · next hquote =>
      rw [beq_iff_eq.mp hquote]
      exact escape rfl
    · next hquote => exact plain (by simp_all [Mode.isLongPlain])

theorem flatMap {f : Char → List Char} {cs : List Char} (hf : ∀ c ∈ cs, Encloses (f c) [c]) :
    Encloses (cs.flatMap f) cs := by
  induction cs with
  | nil => exact nil
  | cons c rest ih =>
    rw [List.forall_mem_cons] at hf
    exact hf.1.append (ih hf.2)

end Encloses

theorem encloses_docstring (text : String) :
    Encloses (docstring text).toList (Text.trim text).toList := by
  rw [docstring, String.toList_ofList]
  exact .flatMap fun c _ => .docstringChar c

theorem encloses_of_plain {fixed : String} (hfixed : fixed.toList.all Mode.isLongPlain = true) :
    Encloses fixed.toList fixed.toList := by
  have hchars : Encloses (fixed.toList.flatMap fun c => [c]) fixed.toList :=
    .flatMap fun c hc => .plain (List.all_eq_true.mp hfixed c hc)
  rwa [List.flatMap_singleton'] at hchars

/-- Escaping quotes after backslashes does not touch the backslashes that it adds, so both are
escaped in one pass. -/
theorem docstring_eq_rewritten (text : String) :
    (docstring text).toList =
      rewritten '"' ['\\', '"'] (rewritten '\\' ['\\', '\\'] (Text.trim text).toList) := by
  rw [docstring, String.toList_ofList, rewritten, rewritten, List.flatMap_assoc]
  congr 1
  funext c
  unfold docstringChar
  split
  · rfl
  · rw [List.flatMap_singleton]

/-- A docstring holds its text and no more. The text is escaped so that every double quote in it is
behind a backslash that counts and nothing behind it is escaped; undoing the escapes gives the
trimmed text; and the literal around it ends at the quotes that the code has behind it, whatever
the text is. -/
theorem docstring_closed_from_outside (text : String) :
    (docstring text).toList =
      rewritten '"' ['\\', '"'] (rewritten '\\' ['\\', '\\'] (Text.trim text).toList) ∧
    Encloses (docstring text).toList (Text.trim text).toList ∧
    ∀ before after : String, before.toList.all Mode.isLongPlain = true →
      after.toList.all Mode.isLongPlain = true → ∀ rest,
      longLiteral? ((Piece.docstring before text after).render.toList ++ rest) =
        some (before.toList ++ (Text.trim text).toList ++ after.toList, rest) := by
  refine ⟨docstring_eq_rewritten text, encloses_docstring text, ?_⟩
  intro before after hbefore hafter rest
  have hbody := ((encloses_of_plain hbefore).append (encloses_docstring text)).append
    (encloses_of_plain hafter)
  have hread := hbody.value ('"' :: '"' :: '"' :: rest)
  simp only [longBody?, Option.map_some, List.append_nil] at hread
  rw [← hread]
  simp [Piece.render, longLiteral?]

/-- Three quotes in the text, and a backslash right before the closing quotes, end nothing. -/
theorem docstring_closed_from_outside_quotes :
    let text := " \"\"\" \\"
    "\n".toList.all Mode.isLongPlain = true ∧ "".toList.all Mode.isLongPlain = true ∧
    longLiteral? ((Piece.docstring "\n" text "").render.toList ++ "\nx = 1".toList) =
      some ("\n".toList ++ (Text.trim text).toList ++ "".toList, "\nx = 1".toList) := by
  intro text
  have hbefore : "\n".toList.all Mode.isLongPlain = true := by decide
  have hafter : "".toList.all Mode.isLongPlain = true := by decide
  exact ⟨hbefore, hafter, (docstring_closed_from_outside text).2.2 "\n" "" hbefore hafter _⟩

end RamlScaffold.Code

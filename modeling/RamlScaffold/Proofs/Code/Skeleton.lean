import RamlScaffold.Code.Literal
import RamlScaffold.Proofs.Code.Emitted
import RamlScaffold.Route.Param

/-!
The lexical skeleton of a Python source: the source with the bodies of its string literals erased.
A scanner reads one character at a time and keeps what is code. The main statements say what it
makes of the texts that carry their own quotes: a quoted text, the text of a docstring and the
expression for a path each bring it back into code, and what is kept of them is fixed.
-/

namespace RamlScaffold.Code

inductive Mode where
  | code
  | comment
  /-- After the first quote of a literal. -/
  | opened (q : Char)
  /-- After two quotes: an empty literal, unless a third quote follows. -/
  | paired (q : Char)
  | short (q : Char)
  | shortEscape (q : Char)
  /-- Inside a literal between triple quotes, after some quotes that may be the first ones of its
  end. -/
  | long (q : Char) (closing : Nat)
  | longEscape (q : Char)
deriving DecidableEq, Repr

namespace Mode

def isQuote (c : Char) : Bool := c == '\'' || c == '"'

def inCode (c : Char) : Mode × List Char :=
  if isQuote c then (.opened c, [c]) else if c == '#' then (.comment, [c]) else (.code, [c])

/-- A character between single quotes. The end of the line ends the literal, closed or not. -/
def inShort (q c : Char) : Mode × List Char :=
  if c == '\\' then (.shortEscape q, [])
  else if c == q || c == '\n' then (.code, [c])
  else (.short q, [])

def inLong (q : Char) (closing : Nat) (c : Char) : Mode × List Char :=
  if c == '\\' then (.longEscape q, [])
  else if c == q then if closing == 2 then (.code, [q, q, q]) else (.long q (closing + 1), [])
  else (.long q 0, [])

/-- Where the scanner is after a character, and what is kept of it. -/
def step : Mode → Char → Mode × List Char
  | .code, c => inCode c
  | .comment, c => (if c == '\n' then .code else .comment, [c])
  | .opened q, c => if c == q then (.paired q, [c]) else inShort q c
  | .paired q, c => if c == q then (.long q 0, [c]) else inCode c
  | .short q, c => inShort q c
  | .shortEscape q, _ => (.short q, [])
  | .long q closing, c => inLong q closing c
  | .longEscape q, _ => (.long q 0, [])

def after : Mode → List Char → Mode
  | m, [] => m
  | m, c :: cs =>
    -- The match has each step computed before the next one is taken.
    match m.step c with
    | (next, _) => after next cs

def kept : Mode → List Char → List Char
  | _, [] => []
  | m, c :: cs => (m.step c).2 ++ kept (m.step c).1 cs

end Mode

/-- A source with the bodies of its string literals erased; their quotes stay. -/
def skeleton (source : String) : String := .ofList (Mode.code.kept source.toList)

example : skeleton "f('it\\'s', \"\")  # don't\n" = "f('', \"\")  # don't\n" := by decide

namespace Mode

variable {m : Mode} {q : Char} {cs body : List Char}

theorem after_append (m : Mode) (first second : List Char) :
    m.after (first ++ second) = (m.after first).after second := by
  induction first generalizing m with
  | nil => rfl
  | cons c rest ih => exact ih _

theorem kept_append (m : Mode) (first second : List Char) :
    m.kept (first ++ second) = m.kept first ++ (m.after first).kept second := by
  induction first generalizing m with
  | nil => rfl
  | cons c rest ih => simp only [List.cons_append, kept, after, ih, List.append_assoc]

/-- A text that the scanner passes over where it is: it stays there and keeps nothing. -/
structure Silent (m : Mode) (cs : List Char) : Prop where
  stays : m.after cs = m
  keeps : m.kept cs = []

theorem Silent.append {first second : List Char} (hfirst : Silent m first)
    (hsecond : Silent m second) : Silent m (first ++ second) := by
  constructor
  · rw [after_append, hfirst.stays, hsecond.stays]
  · rw [kept_append, hfirst.stays, hfirst.keeps, hsecond.keeps, List.append_nil]

theorem silent_flatMap {f : Char → List Char} (hf : ∀ c ∈ cs, Silent m (f c)) :
    Silent m (cs.flatMap f) := by
  induction cs with
  | nil => exact ⟨rfl, rfl⟩
  | cons c rest ih =>
    rw [List.flatMap_cons]
    exact (hf c List.mem_cons_self).append (ih fun d hd => hf d (List.mem_cons_of_mem c hd))

theorem silent_of_forall (hall : ∀ c ∈ cs, Silent m [c]) : Silent m cs := by
  rw [← List.flatMap_singleton' cs]
  exact silent_flatMap hall

theorem silent_short {c : Char} (hescape : c ≠ '\\') (hquote : c ≠ q) (hline : c ≠ '\n') :
    Silent (.short q) [c] := by
  constructor <;> simp [after, kept, step, inShort, hescape, hquote, hline]

theorem silent_identifier {name : String} (hname : isIdentifier name = true) :
    Silent (.short '\'') name.toList := by
  apply silent_of_forall
  intro c hc
  have hchar := isIdentifierChar_of_mem hname hc
  refine silent_short ?_ ?_ ?_ <;> rintro rfl <;> exact absurd hchar (by decide)

theorem hexDigit_plain :
    ∀ n < 16, Json.hexDigit n ≠ '\\' ∧ Json.hexDigit n ≠ '\'' ∧ Json.hexDigit n ≠ '\n' := by
  decide

theorem silent_quoteChar (c : Char) : Silent (.short '\'') (quoteChar c) := by
  fun_cases quoteChar c
  case case6 hcontrol =>
    have hsmall : c.toNat < 160 := by
      simp only [Text.isControl, Bool.or_eq_true, Bool.and_eq_true, decide_eq_true_eq] at hcontrol
      omega
    have hhigh := hexDigit_plain (c.toNat / 16) (by omega)
    have hlow := hexDigit_plain (c.toNat % 16) (Nat.mod_lt _ (by omega))
    have hescaped : Silent (.short '\'') ['\\', 'x'] := ⟨rfl, rfl⟩
    exact hescaped.append ((silent_short hhigh.1 hhigh.2.1 hhigh.2.2).append
      (silent_short hlow.1 hlow.2.1 hlow.2.2))
  case case7 hescape hquote hline _ _ _ =>
    simp only [beq_iff_eq] at hescape hquote hline
    exact silent_short hescape hquote hline
  all_goals exact ⟨rfl, rfl⟩

theorem silent_formatChar (c : Char) : Silent (.short '\'') (formatChar c) := by
  unfold formatChar
  split
  · next hbrace =>
    simp only [Bool.or_eq_true, beq_iff_eq] at hbrace
    rcases hbrace with rfl | rfl <;> exact ⟨rfl, rfl⟩
  · exact silent_quoteChar c

/-- A literal has been closed: the scanner is in code again, or waits to see whether the quotes of
an empty literal are the first two of three. -/
def Ended (q : Char) (m : Mode) : Prop := m = .code ∨ m = .paired q

/-- A text between quotes that stays silent there does not start with a quote, so it is read as a
literal. -/
theorem literal_read (hbody : Silent (.short '\'') body) :
    Ended '\'' (Mode.code.after ('\'' :: (body ++ ['\'']))) ∧
      Mode.code.kept ('\'' :: (body ++ ['\''])) = ['\'', '\''] := by
  cases body with
  | nil => exact ⟨Or.inr rfl, rfl⟩
  | cons c rest =>
    have hfirst : c ≠ '\'' := by
      rintro rfl
      exact absurd hbody.keeps (by simp [kept, step, inShort])
    have hopen : (Mode.opened '\'').step c = (Mode.short '\'').step c := by
      simp [step, hfirst]
    have hafter : (Mode.opened '\'').after (c :: rest) = .short '\'' := by
      rw [after, hopen]
      exact hbody.stays
    have hkept : (Mode.opened '\'').kept (c :: rest) = [] := by
      rw [kept, hopen]
      exact hbody.keeps
    constructor
    · left
      change (Mode.opened '\'').after (c :: rest ++ ['\'']) = _
      rw [after_append, hafter]
      rfl
    · change '\'' :: (Mode.opened '\'').kept (c :: rest ++ ['\'']) = _
      rw [kept_append, hafter, hkept]
      rfl

theorem quote_read (text : String) :
    Ended '\'' (Mode.code.after (quote text).toList) ∧
      Mode.code.kept (quote text).toList = ['\'', '\''] := by
  rw [quote, String.toList_ofList]
  exact literal_read (silent_flatMap fun c _ => silent_quoteChar c)

def isLongPlain (c : Char) : Bool := c != '"' && c != '\\'

theorem silent_long {c : Char} (hplain : isLongPlain c = true) : Silent (.long '"' 0) [c] := by
  simp only [isLongPlain, Bool.and_eq_true, bne_iff_ne, ne_eq] at hplain
  constructor <;> simp [after, kept, step, inLong, hplain.1, hplain.2]

theorem silent_docstringChar (c : Char) : Silent (.long '"' 0) (docstringChar c) := by
  unfold docstringChar
  split
  · exact ⟨rfl, rfl⟩
  · next hescape =>
    split
    · exact ⟨rfl, rfl⟩
    · next hquote =>
      simp only [beq_iff_eq] at hescape hquote
      exact silent_long (by simp [isLongPlain, hescape, hquote])

/-- The quotes are kept of a docstring, whatever text it holds. -/
theorem docstring_read {before closing : String} (text : String)
    (hbefore : before.toList.all isLongPlain = true)
    (hclosing : closing.toList.all isLongPlain = true) :
    Mode.code.after (Piece.docstring before text closing).render.toList = .code ∧
      Mode.code.kept (Piece.docstring before text closing).render.toList =
        ['"', '"', '"', '"', '"', '"'] := by
  have hplain {t : String} (ht : t.toList.all isLongPlain = true) :
      Silent (.long '"' 0) t.toList :=
    silent_of_forall fun c hc => silent_long (List.all_eq_true.mp ht c hc)
  have htext : Silent (.long '"' 0) (docstring text).toList := by
    rw [docstring, String.toList_ofList]
    exact silent_flatMap fun c _ => silent_docstringChar c
  have hbody := ((hplain hbefore).append htext).append (hplain hclosing)
  have hrender : (Piece.docstring before text closing).render.toList =
      ['"', '"', '"'] ++ (before.toList ++ (docstring text).toList ++ closing.toList) ++
        ['"', '"', '"'] := by
    simp [Piece.render]
  have hopened : Mode.code.after ['"', '"', '"'] = .long '"' 0 := rfl
  rw [hrender]
  constructor
  · rw [after_append, after_append, hopened, hbody.stays]
    rfl
  · rw [kept_append, kept_append, after_append, hopened, hbody.stays, hbody.keeps]
    rfl

/-- A filled URI is silent if its characters and what its placeholders are filled with are. -/
theorem silent_fill {f : Char → List Char} (hf : ∀ c, Silent m (f c)) {texts : List String}
    (htexts : ∀ text ∈ texts, Silent m text.toList) (pieces : List Uri.Piece) :
    Silent m (Uri.fill f pieces texts) := by
  fun_induction Uri.fill f pieces texts with
  | case1 => exact ⟨rfl, rfl⟩
  | case2 c rest texts ih => exact (hf c).append (ih htexts)
  | case3 cs rest ih => exact (silent_flatMap fun c _ => hf c).append (ih htexts)
  | case4 cs rest text texts ih =>
    exact (htexts text List.mem_cons_self).append
      (ih fun t ht => htexts t (List.mem_cons_of_mem text ht))

/-- The expression for a path is one literal when the arguments in it are identifiers. -/
theorem pathExpression_read (uri : String) {params : List RouteParam}
    (hparams : ∀ p ∈ params, isIdentifier p.arg = true) :
    Ended '\'' (Mode.code.after (pathExpression uri params).toList) := by
  unfold pathExpression
  split
  · exact (quote_read uri).1
  · have hfillers : ∀ text ∈ params.map (fun p => "\x7b" ++ p.arg ++ "\x7d"),
        Silent (.short '\'') text.toList := by
      intro text htext
      obtain ⟨p, hp, rfl⟩ := List.mem_map.mp htext
      have harg := silent_identifier (hparams p hp)
      have hleft : Silent (.short '\'') ['\x7b'] := ⟨rfl, rfl⟩
      have hright : Silent (.short '\'') ['\x7d'] := ⟨rfl, rfl⟩
      simpa using (hleft.append harg).append hright
    have hbody := silent_fill silent_formatChar hfillers (Uri.split uri)
    have hread := (literal_read hbody).1
    rw [String.toList_ofList]
    exact hread

end Mode

end RamlScaffold.Code

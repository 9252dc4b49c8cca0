import RamlScaffold.Document.Value
import RamlScaffold.Proofs.Code.Emitted
import RamlScaffold.Proofs.Document.Lookup
import RamlScaffold.Proofs.Spec.Uri
import RamlScaffold.Route.Param
import RamlScaffold.Text.Number

/-!
The value of a string expression: a literal in single quotes, or an f-string whose fields are names.
A reader takes one character at a time and says what it adds to the value; it refuses what does not
fit on a line, escape sequences it does not know and fields that are not the name of a value. What a
text is quoted by is shown to be read back as the text, character by character.
-/

namespace RamlScaffold.Code

inductive Within where
  | text
  | escape
  /-- Before the first of two digits of a code point. -/
  | code
  /-- Before the second digit. -/
  | codeLow (high : Nat)
  /-- After an opening brace. -/
  | opened
  | field (name : List Char)
  /-- After a closing brace that ends no field. -/
  | unopened
  | ended
deriving DecidableEq, Repr

namespace Within

def escaped? : Char → Option Char
  | '\\' => some '\\'
  | '\'' => some '\''
  | '"' => some '"'
  | 'a' => some '\x07'
  | 'b' => some '\x08'
  | 'f' => some '\x0c'
  | 'n' => some '\n'
  | 'r' => some '\r'
  | 't' => some '\t'
  | 'v' => some '\x0b'
  | _ => none

def isBreak (c : Char) : Bool := c == '\n' || c == '\r' || c == '\x00'

def valueOf? (scope : Fields String) (name : List Char) : Option String :=
  if isIdentifier (.ofList name) && !isKeyword (.ofList name) then
    Fields.get? (.ofList name) scope
  else none

/-- Where the reader is after a character of the text, and what the character adds. Braces only
count in an f-string. -/
def inText (formatted : Bool) (c : Char) : Option (Within × List Char) :=
  if c == '\'' then some (.ended, [])
  else if c == '\\' then some (.escape, [])
  else if isBreak c then none
  else if formatted && c == '\x7b' then some (.opened, [])
  else if formatted && c == '\x7d' then some (.unopened, [])
  else some (.text, [c])

def step (formatted : Bool) (scope : Fields String) : Within → Char → Option (Within × List Char)
  | .text, c => inText formatted c
  | .escape, c =>
    if c == 'x' then some (.code, []) else (escaped? c).map fun d => (.text, [d])
  | .code, c => (Text.digitValue? 16 c).map fun high => (.codeLow high, [])
  | .codeLow high, c =>
    (Text.digitValue? 16 c).map fun low => (.text, [Char.ofNat (16 * high + low)])
  | .opened, c =>
    if c == '\x7b' then some (.text, [c])
    else if isIdentifierChar c then some (.field [c], [])
    else none
  | .field name, c =>
    if c == '\x7d' then (valueOf? scope name).map fun value => (.text, value.toList)
    else if isIdentifierChar c then some (.field (name ++ [c]), [])
    else none
  | .unopened, c => if c == '\x7d' then some (.text, [c]) else none
  | .ended, _ => none

def run (formatted : Bool) (scope : Fields String) :
    Within → List Char → Option (Within × List Char)
  | p, [] => some (p, [])
  | p, c :: cs => do
    let (next, added) ← p.step formatted scope c
    let (last, more) ← next.run formatted scope cs
    return (last, added ++ more)

end Within

/-- The value of a literal after its opening quote: the closing quote is its last character. -/
def bodyValue? (formatted : Bool) (scope : Fields String) (body : List Char) : Option String :=
  match Within.text.run formatted scope body with
  | some (.ended, value) => some (.ofList value)
  | _ => none

/-- The value of a string expression, with values for the names that its fields refer to. -/
def value? (scope : Fields String) (expression : String) : Option String :=
  match expression.toList with
  | '\'' :: body => bodyValue? false scope body
  | 'f' :: '\'' :: body => bodyValue? true scope body
  | _ => none

example : value? [("id", "7")] "f'/\\'a\\x00\x7b\x7b\x7d\x7d/\x7bid\x7d'" =
    some "/'a\x00\x7b\x7d/7" := by decide

namespace Within

variable {formatted : Bool} {scope : Fields String} {p q r : Within} {cs ds added more : List Char}

def Reads (formatted : Bool) (scope : Fields String) (p : Within) (cs : List Char) (q : Within)
    (added : List Char) : Prop :=
  p.run formatted scope cs = some (q, added)

theorem Reads.nil : Reads formatted scope p [] p [] := rfl

theorem Reads.cons {c : Char} (hstep : p.step formatted scope c = some (q, added))
    (hrest : Reads formatted scope q cs r more) :
    Reads formatted scope p (c :: cs) r (added ++ more) := by
  have hrun : q.run formatted scope cs = some (r, more) := hrest
  simp [Reads, run, hstep, hrun]

theorem Reads.append (hfirst : Reads formatted scope p cs q added)
    (hsecond : Reads formatted scope q ds r more) :
    Reads formatted scope p (cs ++ ds) r (added ++ more) := by
  induction cs generalizing p added with
  | nil =>
    obtain ⟨rfl, rfl⟩ : p = q ∧ [] = added := by simpa [Reads, run] using hfirst
    exact hsecond
  | cons c rest ih =>
    simp only [Reads, run, Option.bind_eq_bind, Option.bind_eq_some_iff] at hfirst
    obtain ⟨⟨next, first⟩, hstep, ⟨last, later⟩, hrun, hwhole⟩ := hfirst
    obtain ⟨rfl, rfl⟩ : last = q ∧ first ++ later = added := by simpa using hwhole
    rw [List.cons_append, List.append_assoc]
    exact .cons hstep (ih hrun)

theorem step_of_isBreak {c : Char} (hbreak : isBreak c = true) (p : Within) :
    p.step formatted scope c = none := by
  have hcases : (c = '\n' ∨ c = '\r') ∨ c = '\x00' := by
    simpa only [isBreak, Bool.or_eq_true, beq_iff_eq] using hbreak
  rcases hcases with (rfl | rfl) | rfl <;> cases p <;> rfl

/-- What is read fits on a line. -/
theorem not_isBreak_of_reads (hreads : Reads formatted scope p cs q added) :
    ∀ c ∈ cs, isBreak c = false := by
  induction cs generalizing p added with
  | nil => simp
  | cons c rest ih =>
    simp only [Reads, run, Option.bind_eq_bind, Option.bind_eq_some_iff] at hreads
    obtain ⟨⟨next, first⟩, hstep, ⟨last, later⟩, hrun, hwhole⟩ := hreads
    obtain ⟨rfl, -⟩ : last = q ∧ first ++ later = added := by simpa using hwhole
    intro d hd
    rcases List.mem_cons.mp hd with rfl | hrest
    · by_contra hbreak
      rw [step_of_isBreak (by simpa using hbreak)] at hstep
      cases hstep
    · exact ih hrun d hrest

theorem digitValue?_hexDigit : ∀ n < 16, Text.digitValue? 16 (Json.hexDigit n) = some n := by
  decide

theorem reads_plain {c : Char} (hquote : c ≠ '\'') (hescape : c ≠ '\\') (hbreak : isBreak c = false)
    (hbraces : formatted = true → c ≠ '\x7b' ∧ c ≠ '\x7d') :
    Reads formatted scope .text [c] .text [c] := by
  have hstep : Within.text.step formatted scope c = some (.text, [c]) := by
    cases formatted with
    | false => simp [step, inText, hquote, hescape, hbreak]
    | true => simp [step, inText, hquote, hescape, hbreak, hbraces]
  exact .cons hstep .nil

theorem reads_control {c : Char} (hcontrol : Text.isControl c = true) :
    Reads formatted scope .text
      ['\\', 'x', Json.hexDigit (c.toNat / 16), Json.hexDigit (c.toNat % 16)] .text [c] := by
  have hsmall : c.toNat < 160 := by
    simp only [Text.isControl, Bool.or_eq_true, Bool.and_eq_true, decide_eq_true_eq] at hcontrol
    omega
  have hhigh := digitValue?_hexDigit (c.toNat / 16) (by omega)
  have hlow := digitValue?_hexDigit (c.toNat % 16) (by omega)
  have hcode : Char.ofNat (16 * (c.toNat / 16) + c.toNat % 16) = c := by
    rw [Nat.div_add_mod, Char.ofNat_toNat]
  have hescaped : Reads formatted scope .text ['\\', 'x'] .code [] := by cases formatted <;> rfl
  have hfirst : Within.code.step formatted scope (Json.hexDigit (c.toNat / 16)) =
      some (.codeLow (c.toNat / 16), []) := by simp [step, hhigh]
  have hsecond : (Within.codeLow (c.toNat / 16)).step formatted scope
      (Json.hexDigit (c.toNat % 16)) = some (.text, [c]) := by simp [step, hlow, hcode]
  exact hescaped.append (.cons hfirst (.cons hsecond .nil))

/-- A quoted character is read as the character, in an f-string if it is no brace. -/
theorem reads_quoteChar {c : Char} (hbraces : formatted = true → c ≠ '\x7b' ∧ c ≠ '\x7d') :
    Reads formatted scope .text (quoteChar c) .text [c] := by
  fun_cases quoteChar c
  case case6 hcontrol => exact reads_control hcontrol
  case case7 hescape hquote hline hreturn _ hcontrol =>
    simp only [beq_iff_eq] at hescape hquote hline hreturn
    have hnull : c ≠ '\x00' := by
      rintro rfl
      exact hcontrol (by decide)
    exact reads_plain hquote hescape (by simp [isBreak, hline, hreturn, hnull]) hbraces
  all_goals simp_all only [beq_iff_eq]; cases formatted <;> rfl

theorem reads_formatChar (c : Char) : Reads true scope .text (formatChar c) .text [c] := by
  unfold formatChar
  split
  · next hbrace =>
    simp only [Bool.or_eq_true, beq_iff_eq] at hbrace
    rcases hbrace with rfl | rfl <;> rfl
  · next hother =>
    simp only [Bool.or_eq_true, beq_iff_eq, not_or] at hother
    exact reads_quoteChar fun _ => hother

theorem reads_flatMap {f : Char → List Char}
    (hf : ∀ c, Reads formatted scope .text (f c) .text [c]) (cs : List Char) :
    Reads formatted scope .text (cs.flatMap f) .text cs := by
  induction cs with
  | nil => rfl
  | cons c rest ih =>
    rw [List.flatMap_cons, ← List.singleton_append]
    exact (hf c).append ih

theorem reads_name {name : List Char} (hname : ∀ c ∈ name, isIdentifierChar c = true)
    (before : List Char) :
    Reads formatted scope (.field before) name (.field (before ++ name)) [] := by
  induction name generalizing before with
  | nil => simp [Reads, run]
  | cons c rest ih =>
    rw [List.forall_mem_cons] at hname
    have hbrace : c ≠ '\x7d' := by
      rintro rfl
      exact absurd hname.1 (by decide)
    have hrest := ih hname.2 (before ++ [c])
    rw [List.append_assoc, List.singleton_append] at hrest
    have hstep : (Within.field before).step formatted scope c =
        some (.field (before ++ [c]), []) := by simp [step, hbrace, hname.1]
    exact .cons hstep hrest

/-- A field with a bare name is read as the value of the name. -/
theorem reads_field {words : List String} {name value : String} (hname : Bare words name)
    (hvalue : Fields.get? name scope = some value) :
    Reads true scope .text ('\x7b' :: (name.toList ++ ['\x7d'])) .text value.toList := by
  have hchars : ∀ c ∈ name.toList, isIdentifierChar c = true :=
    fun c hc => isIdentifierChar_of_mem hname.form hc
  have hfound : valueOf? scope name.toList = some value := by
    have hword : isKeyword name = false := by simpa [isKeyword] using hname.notKeyword
    simp [valueOf?, hname.form, hword, hvalue]
  cases hspelled : name.toList with
  | nil =>
    have hform := hname.form
    rw [isIdentifier, hspelled] at hform
    cases hform
  | cons c rest =>
    rw [hspelled, List.forall_mem_cons] at hchars
    have hbrace : c ≠ '\x7b' := by
      rintro rfl
      exact absurd hchars.1 (by decide)
    have hfirst : Within.opened.step true scope c = some (.field [c], []) := by
      simp [step, hbrace, hchars.1]
    have hlast : (Within.field (c :: rest)).step true scope '\x7d' =
        some (.text, value.toList) := by
      rw [← hspelled]
      simp [step, hfound]
    have hinside : Reads true scope (.field [c]) rest (.field (c :: rest)) [] :=
      reads_name hchars.2 [c]
    have hopening : Within.text.step true scope '\x7b' = some (.opened, []) := rfl
    have hwhole := Reads.cons hopening (.cons hfirst (hinside.append (.cons hlast .nil)))
    simpa using hwhole

/-- Literals with texts between them are read as the literals with the values of the texts between
them. -/
theorem reads_weave {f : Char → List Char} (hf : ∀ c, Reads formatted scope .text (f c) .text [c])
    (head : List Char) {texts values : List String}
    (htexts : List.Forall₂ (fun text value : String =>
      Reads formatted scope .text text.toList .text value.toList) texts values)
    (holes : Uri.Holes) :
    Reads formatted scope .text
      (Uri.weave (head.flatMap f) texts (holes.map fun hole => (hole.1, hole.2.flatMap f))) .text
      (Uri.weave head values holes) := by
  refine (reads_flatMap hf head).append ?_
  induction htexts generalizing holes with
  | nil => rfl
  | cons htext _ ih =>
    cases holes with
    | nil => rfl
    | cons hole rest =>
      exact (htext.append (reads_flatMap hf hole.2)).append (ih rest)

theorem bodyValue?_of_reads (hreads : Reads formatted scope .text cs .text added) :
    bodyValue? formatted scope (cs ++ ['\'']) = some (.ofList added) := by
  have hclosing : Reads formatted scope .text ['\''] .ended [] := rfl
  have hwhole := hreads.append hclosing
  rw [List.append_nil] at hwhole
  rw [bodyValue?, hwhole]

end Within

/-- An expression with a value fits on a line. -/
theorem not_isBreak_of_value? {scope : Fields String} {expression value : String}
    (hvalue : value? scope expression = some value) :
    ∀ c ∈ expression.toList, Within.isBreak c = false := by
  have hbody {formatted : Bool} {body : List Char}
      (hbody : bodyValue? formatted scope body = some value) :
      ∀ c ∈ body, Within.isBreak c = false := by
    unfold bodyValue? at hbody
    split at hbody
    · next hrun => exact Within.not_isBreak_of_reads hrun
    · cases hbody
  unfold value? at hvalue
  split at hvalue
  · next body hspelled =>
    rw [hspelled]
    simpa [Within.isBreak] using hbody hvalue
  · next body hspelled =>
    rw [hspelled]
    simpa [Within.isBreak] using hbody hvalue
  · cases hvalue

/-- A quoted text is read as the text. -/
theorem value?_quote (scope : Fields String) (text : String) :
    value? scope (quote text) = some text := by
  have hreads : Within.Reads false scope .text (text.toList.flatMap quoteChar) .text text.toList :=
    Within.reads_flatMap (fun c => Within.reads_quoteChar (by simp)) text.toList
  rw [value?, quote, String.toList_ofList]
  simpa using Within.bodyValue?_of_reads hreads

end RamlScaffold.Code

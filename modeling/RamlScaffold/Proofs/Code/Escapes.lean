import Mathlib.Data.List.DropRight
import RamlScaffold.Proofs.Code.Value

/-!
Literals round-trip. `Spells` is the grammar of a literal, one rule for each escape; a body is read
in one way only, since every escape starts with a backslash and says itself how long it is. What a
text is quoted by is in the grammar, has no character that would end the line or the literal early,
and denotes the text and nothing else.
-/

namespace RamlScaffold.Code

/-- Characters of a source that spell one character between single quotes. -/
inductive Spells : List Char → Char → Prop where
  | itself {c : Char} (hquote : c ≠ '\'') (hescape : c ≠ '\\')
      (hcontrol : Text.isControl c = false) : Spells [c] c
  | backslash : Spells ['\\', '\\'] '\\'
  | quote : Spells ['\\', '\''] '\''
  | lineFeed : Spells ['\\', 'n'] '\n'
  | carriageReturn : Spells ['\\', 'r'] '\r'
  | tab : Spells ['\\', 't'] '\t'
  /-- Two hexadecimal digits are the code point. -/
  | code {high low : Char} {m n : Nat} (hhigh : Text.digitValue? 16 high = some m)
      (hlow : Text.digitValue? 16 low = some n) :
      Spells ['\\', 'x', high, low] (Char.ofNat (16 * m + n))

inductive SpellsOut : List Char → List Char → Prop where
  | nil : SpellsOut [] []
  | cons {chunk cs text : List Char} {c : Char} (hchunk : Spells chunk c)
      (hrest : SpellsOut cs text) : SpellsOut (chunk ++ cs) (c :: text)

/-- Whether the next character is escaped: an odd number of backslashes stands right before it. -/
def escapesNext (before : List Char) : Bool :=
  (before.rtakeWhile (· == '\\')).length % 2 == 1

structure Denotes (literal text : String) : Prop where
  spelled : ∃ body, literal.toList = '\'' :: (body ++ ['\'']) ∧ SpellsOut body text.toList
  /-- The last quote is the only one behind the first that is not escaped. -/
  closed : ∀ before after, literal.toList = '\'' :: (before ++ '\'' :: after) →
    (after = [] ↔ escapesNext before = false)
  oneLine : '\n' ∉ literal.toList ∧ '\r' ∉ literal.toList
  printable : ∀ c ∈ literal.toList, Text.isControl c = false
  value : value? [] literal = some text

theorem spells_quoteChar (c : Char) : Spells (quoteChar c) c := by
  fun_cases quoteChar c
  case case6 hcontrol =>
    have hsmall : c.toNat < 160 := by
      simp only [Text.isControl, Bool.or_eq_true, Bool.and_eq_true, decide_eq_true_eq] at hcontrol
      omega
    have hcode : Char.ofNat (16 * (c.toNat / 16) + c.toNat % 16) = c := by
      rw [Nat.div_add_mod, Char.ofNat_toNat]
    have hspelled := Spells.code (Within.digitValue?_hexDigit (c.toNat / 16) (by omega))
      (Within.digitValue?_hexDigit (c.toNat % 16) (by omega))
    rwa [hcode] at hspelled
  case case7 hescape hquote _ _ _ hcontrol =>
    exact .itself (by simpa using hquote) (by simpa using hescape) (by simpa using hcontrol)
  case case1 hc =>
    rw [beq_iff_eq.mp hc]
    exact .backslash
  case case2 hc =>
    rw [beq_iff_eq.mp hc]
    exact .quote
  case case3 hc =>
    rw [beq_iff_eq.mp hc]
    exact .lineFeed
  case case4 hc =>
    rw [beq_iff_eq.mp hc]
    exact .carriageReturn
  case case5 hc =>
    rw [beq_iff_eq.mp hc]
    exact .tab

theorem spellsOut_flatMap (text : List Char) : SpellsOut (text.flatMap quoteChar) text := by
  induction text with
  | nil => exact .nil
  | cons c rest ih => exact .cons (spells_quoteChar c) ih

theorem Spells.reads {chunk : List Char} {c : Char} (hchunk : Spells chunk c) :
    Within.Reads false [] .text chunk .text [c] := by
  cases hchunk with
  | itself hquote hescape hcontrol =>
    have hbreak : Within.isBreak c = false := by
      rw [← Bool.not_eq_true]
      intro hbreak
      have hcases : (c = '\n' ∨ c = '\r') ∨ c = '\x00' := by
        simpa only [Within.isBreak, Bool.or_eq_true, beq_iff_eq] using hbreak
      rcases hcases with (rfl | rfl) | rfl <;> exact absurd hcontrol (by decide)
    exact Within.reads_plain hquote hescape hbreak (by simp)
  | backslash => rfl
  | quote => rfl
  | lineFeed => rfl
  | carriageReturn => rfl
  | tab => rfl
  | @code high low m n hhigh hlow =>
    have hopened : Within.Reads false [] .text ['\\', 'x'] .code [] := rfl
    have hfirst : Within.code.step false [] high = some (.codeLow m, []) := by
      simp [Within.step, hhigh]
    have hsecond : (Within.codeLow m).step false [] low =
        some (.text, [Char.ofNat (16 * m + n)]) := by
      simp [Within.step, hlow]
    exact hopened.append (.cons hfirst (.cons hsecond .nil))

theorem SpellsOut.reads {cs text : List Char} (hcs : SpellsOut cs text) :
    Within.Reads false [] .text cs .text text := by
  induction hcs with
  | nil => exact .nil
  | cons hchunk _ ih => exact hchunk.reads.append ih

/-- A body spells out one text only: a reader that takes one character at a time comes to it. -/
theorem SpellsOut.unique {cs text other : List Char} (htext : SpellsOut cs text)
    (hother : SpellsOut cs other) : text = other := by
  have hsame := htext.reads.symm.trans hother.reads
  simpa using hsame

theorem range_of_digitValue? {c : Char} {n : Nat} (hc : Text.digitValue? 16 c = some n) :
    48 ≤ c.toNat ∧ c.toNat < 92 ∨ 97 ≤ c.toNat ∧ c.toNat < 127 := by
  have hkind : Text.isDigit c = true ∨ Text.isLower c = true ∨ Text.isUpper c = true := by
    by_contra hnone
    simp only [not_or, Bool.not_eq_true] at hnone
    simp [Text.digitValue?, hnone] at hc
  rw [Text.isDigit_iff, Text.isLower_iff, Text.isUpper_iff] at hkind
  omega

theorem not_isControl_of_range {c : Char} (hlow : 32 ≤ c.toNat) (hhigh : c.toNat < 127) :
    Text.isControl c = false := by
  have hdelete : ¬ 127 ≤ c.toNat := by omega
  have hspace : ¬ c.toNat < 32 := by omega
  simp [Text.isControl, hdelete, hspace]

theorem Spells.printable {chunk : List Char} {c : Char} (hchunk : Spells chunk c) :
    ∀ d ∈ chunk, Text.isControl d = false := by
  cases hchunk with
  | itself _ _ hcontrol => exact List.forall_mem_singleton.mpr hcontrol
  | @code high low m n hhigh hlow =>
    have hhigh := range_of_digitValue? hhigh
    have hlow := range_of_digitValue? hlow
    simp only [List.forall_mem_cons]
    exact ⟨by decide, by decide, not_isControl_of_range (by omega) (by omega),
      not_isControl_of_range (by omega) (by omega), List.forall_mem_nil _⟩
  | _ => exact List.forall_mem_cons.mpr ⟨by decide, List.forall_mem_singleton.mpr (by decide)⟩

theorem SpellsOut.printable {cs text : List Char} (hcs : SpellsOut cs text) :
    ∀ d ∈ cs, Text.isControl d = false := by
  induction hcs with
  | nil => exact List.forall_mem_nil _
  | cons hchunk _ ih => exact List.forall_mem_append.mpr ⟨hchunk.printable, ih⟩

/-- A backslash escapes what follows unless it is escaped itself; nothing else does. -/
theorem escapesNext_concat (before : List Char) (c : Char) :
    escapesNext (before ++ [c]) = (c == '\\' && !escapesNext before) := by
  unfold escapesNext
  by_cases hc : c = '\\'
  · rw [List.rtakeWhile_concat_pos _ _ _ (by simpa using hc), List.length_append,
      List.length_singleton, hc]
    rcases Nat.mod_two_eq_zero_or_one (before.rtakeWhile (· == '\\')).length with heven | hodd
    · simp [heven, Nat.add_mod]
    · simp [hodd, Nat.add_mod]
  · rw [List.rtakeWhile_concat_neg _ _ _ (by simpa using hc)]
    simp [hc]

theorem escapesNext_concat_of_ne (before : List Char) {c : Char} (hc : c ≠ '\\') :
    escapesNext (before ++ [c]) = false := by
  simp [escapesNext_concat, hc]

/-- A whole escape leaves nothing escaped behind it. -/
theorem Spells.completes {chunk before : List Char} {c : Char} (hchunk : Spells chunk c)
    (hbefore : escapesNext before = false) : escapesNext (before ++ chunk) = false := by
  have hopened : escapesNext (before ++ ['\\']) = true := by simp [escapesNext_concat, hbefore]
  have hpair (d : Char) : escapesNext (before ++ ['\\', d]) = false := by
    rw [List.append_cons, escapesNext_concat, hopened, Bool.not_true, Bool.and_false]
  cases hchunk with
  | itself _ hescape _ => exact escapesNext_concat_of_ne before hescape
  | @code high low m n hhigh hlow =>
    have hlow := range_of_digitValue? hlow
    have hne : low ≠ '\\' := by
      rintro rfl
      revert hlow
      decide
    have hsplit : before ++ ['\\', 'x', high, low] = (before ++ ['\\', 'x', high]) ++ [low] := by
      simp
    rw [hsplit]
    exact escapesNext_concat_of_ne _ hne
  | _ => exact hpair _

/-- In a backslash and a character, anything else than a backslash is that character. -/
theorem before_of_escaped {c q : Char} {before after : List Char} (hq : q ≠ '\\')
    (hsplit : ['\\', c] = before ++ q :: after) : before = ['\\'] := by
  rcases before with _ | ⟨d, _ | ⟨e, more⟩⟩
  · obtain ⟨rfl, -⟩ := List.cons.inj hsplit
    exact absurd rfl hq
  · obtain ⟨rfl, -⟩ := List.cons.inj hsplit
    rfl
  · simp at hsplit

/-- The only escape with a quote in it has the quote behind its backslash. -/
theorem Spells.quote_escaped {chunk before inside after : List Char} {c : Char}
    (hchunk : Spells chunk c) (hbefore : escapesNext before = false)
    (hquote : chunk = inside ++ '\'' :: after) : escapesNext (before ++ inside) = true := by
  have hmem : '\'' ∈ chunk := by simp [hquote]
  cases hchunk with
  | itself hne _ _ => exact absurd (List.mem_singleton.mp hmem).symm hne
  | quote =>
    obtain rfl := before_of_escaped (by decide) hquote
    simp [escapesNext_concat, hbefore]
  | @code high low m n hhigh hlow =>
    have hhigh := range_of_digitValue? hhigh
    have hlow := range_of_digitValue? hlow
    have hcases : '\'' = high ∨ '\'' = low := by simpa using hmem
    rcases hcases with rfl | rfl
    · exact absurd hhigh (by decide)
    · exact absurd hlow (by decide)
  | _ => exact absurd hmem (by decide)

/-- What holds before every occurrence of a character in two texts in a row. -/
theorem forall_before_append {q : Char} {P : List Char → Prop} {first second : List Char}
    (hfirst : ∀ before after, first = before ++ q :: after → P before)
    (hsecond : ∀ before after, second = before ++ q :: after → P (first ++ before)) :
    ∀ before after, first ++ second = before ++ q :: after → P before := by
  intro before after hsplit
  rcases List.append_eq_append_iff.mp hsplit with ⟨more, rfl, hrest⟩ | ⟨more, rfl, hrest⟩
  · exact hsecond more after hrest
  · cases more with
    | nil => simpa using hsecond [] after (by simpa using hrest.symm)
    | cons d more =>
      obtain ⟨rfl, -⟩ := List.cons.inj hrest
      exact hfirst before more rfl

/-- Every quote of a body is escaped, and what follows the body is not. -/
theorem SpellsOut.quotes_escaped {cs text : List Char} (hcs : SpellsOut cs text)
    {before : List Char} (hbefore : escapesNext before = false) :
    escapesNext (before ++ cs) = false ∧
      ∀ inside after, cs = inside ++ '\'' :: after → escapesNext (before ++ inside) = true := by
  induction hcs generalizing before with
  | nil => exact ⟨by simpa using hbefore, by simp⟩
  | @cons chunk cs text c hchunk _ ih =>
    obtain ⟨hwhole, hlater⟩ := ih (hchunk.completes hbefore)
    refine ⟨by rwa [← List.append_assoc], ?_⟩
    apply forall_before_append
    · intro inside after hfirst
      exact hchunk.quote_escaped hbefore hfirst
    · intro inside after hrest
      rw [← List.append_assoc]
      exact hlater inside after hrest

theorem toList_quote (text : String) :
    (quote text).toList = '\'' :: (text.toList.flatMap quoteChar ++ ['\'']) := by
  rw [quote, String.toList_ofList]

theorem closed_quote (text : String) {before after : List Char}
    (hsplit : (quote text).toList = '\'' :: (before ++ '\'' :: after)) :
    after = [] ↔ escapesNext before = false := by
  have hstart : escapesNext [] = false := by decide
  obtain ⟨hwhole, hinside⟩ := (spellsOut_flatMap text.toList).quotes_escaped hstart
  rw [toList_quote, List.cons.injEq] at hsplit
  rcases List.append_eq_append_iff.mp hsplit.2 with ⟨more, rfl, hlast⟩ | ⟨more, hbody, hlast⟩
  · -- The quote is the last character.
    obtain ⟨rfl, rfl⟩ : more = [] ∧ after = [] := by
      cases more with
      | nil => simpa using hlast.symm
      | cons _ _ => simp at hlast
    simpa using hwhole
  · cases more with
    | nil =>
      rw [List.append_nil] at hbody
      obtain rfl : after = [] := by simpa using hlast.symm
      rw [← hbody]
      simpa using hwhole
    | cons q more =>
      obtain ⟨rfl, hafter⟩ := List.cons.inj hlast
      have hescaped : escapesNext before = true := hinside before more hbody
      simp [hescaped, hafter]

theorem denotes_quote (text : String) : Denotes (quote text) text := by
  have hspelled := spellsOut_flatMap text.toList
  have hprintable : ∀ c ∈ (quote text).toList, Text.isControl c = false := by
    rw [toList_quote, List.forall_mem_cons, List.forall_mem_append, List.forall_mem_singleton]
    exact ⟨by decide, hspelled.printable, by decide⟩
  refine ⟨⟨_, toList_quote text, hspelled⟩, fun before after => closed_quote text, ?_,
    hprintable, value?_quote [] text⟩
  constructor
  · intro hmem
    exact absurd (hprintable _ hmem) (by decide)
  · intro hmem
    exact absurd (hprintable _ hmem) (by decide)

theorem Denotes.unique {literal text other : String} (htext : Denotes literal text)
    (hother : Denotes literal other) : text = other := by
  obtain ⟨body, hbody, hspelled⟩ := htext.spelled
  obtain ⟨body', hbody', hspelled'⟩ := hother.spelled
  obtain rfl : body = body' := by
    rw [hbody] at hbody'
    simpa using hbody'
  exact String.toList_inj.mp (hspelled.unique hspelled')

/-- A quoted text denotes the text and no other, so distinct texts have distinct literals. -/
theorem literals_round_trip (text other : String) :
    (Denotes (quote text) other ↔ other = text) ∧ (quote other = quote text ↔ other = text) := by
  refine ⟨⟨fun hother => hother.unique (denotes_quote text), ?_⟩, ⟨fun hsame => ?_, ?_⟩⟩
  · rintro rfl
    exact denotes_quote other
  · have hother := denotes_quote other
    rw [hsame] at hother
    exact hother.unique (denotes_quote text)
  · rintro rfl
    rfl

end RamlScaffold.Code

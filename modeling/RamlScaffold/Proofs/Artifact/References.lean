import RamlScaffold.Proofs.Artifact.Single

/-!
The names that an expression evaluates. They are read off its skeleton word by word: a word is a
name unless it is a keyword or a number, stands behind a point, or names an argument. The lemmas
read a call from left to right.
-/

namespace RamlScaffold.Code

/-- Whether a word of an expression refers to a name, by the character behind it: an equals sign
makes it the name of an argument, and a quote part of a literal. -/
def isReference (member : Bool) (word : List Char) (next : Option Char) : Bool :=
  !member && isIdentifier (.ofList word) && !isKeyword (.ofList word) &&
    !next.any fun c => c == '=' || Mode.isQuote c

def referenceAt (member : Bool) (word : List Char) (next : Option Char) : List String :=
  if isReference member word next then [.ofList word] else []

/-- The names to which the skeleton of an expression refers, after a word that has been begun. Words
behind a point are attributes. -/
def references (member : Bool) (word : List Char) : List Char → List String
  | [] => referenceAt member word none
  | c :: rest =>
    if isIdentifierChar c then references member (word ++ [c]) rest
    else referenceAt member word (some c) ++ references (c == '.') [] rest

def evaluated (expression : List Char) : List String :=
  references false [] (Mode.code.kept expression)

example : evaluated "db.C(n=T('x'))".toList = ["db", "T"] := by decide

theorem referenceAt_member (word : List Char) (next : Option Char) :
    referenceAt true word next = [] := rfl

theorem referenceAt_nil (member : Bool) (next : Option Char) : referenceAt member [] next = [] := by
  simp [referenceAt, isReference, isIdentifier]

theorem references_word {word : List Char} (hword : ∀ c ∈ word, isIdentifierChar c = true)
    {c : Char} (hc : isIdentifierChar c = false) (member : Bool) (begun rest : List Char) :
    references member begun (word ++ c :: rest) =
      referenceAt member (begun ++ word) (some c) ++ references (c == '.') [] rest := by
  induction word generalizing begun with
  | nil => simp [references, hc]
  | cons d word ih =>
    rw [List.forall_mem_cons] at hword
    rw [List.cons_append, references, if_pos hword.1, ih hword.2, List.append_assoc,
      List.singleton_append]

/-- Whether a character stands between words of code, and not in front of an attribute. -/
def isDivider (c : Char) : Bool := !isIdentifierChar c && Line.isPlain c && c != '.'

theorem kept_word {word : List Char} (hword : ∀ c ∈ word, isIdentifierChar c = true)
    {c : Char} (hc : Line.isPlain c = true) (rest : List Char) :
    Mode.code.kept (word ++ c :: rest) = word ++ c :: Mode.code.kept rest := by
  have hplain : ∀ d ∈ word, Line.isPlain d = true :=
    fun d hd => Line.isPlain_of_identifierChar (hword d hd)
  rw [Mode.kept_append, Mode.kept_of_plain hplain, Line.after_of_plain hplain, Mode.kept,
    Line.step_of_isPlain hc]
  rfl

theorem evaluated_word {word : List Char} (hword : word.all isIdentifierChar = true) {c : Char}
    (hc : isDivider c = true) (rest : List Char) :
    evaluated (word ++ c :: rest) = referenceAt false word (some c) ++ evaluated rest := by
  rw [List.all_eq_true] at hword
  simp only [isDivider, Bool.and_eq_true, Bool.not_eq_true', bne_iff_ne, ne_eq] at hc
  obtain ⟨⟨hend, hplain⟩, hpoint⟩ := hc
  unfold evaluated
  rw [kept_word hword hplain, references_word hword hend, beq_eq_false_iff_ne.mpr hpoint,
    List.nil_append]

@[simp] theorem evaluated_nil : evaluated [] = [] := by decide

theorem evaluated_divider {c : Char} (hc : isDivider c = true) (rest : List Char) :
    evaluated (c :: rest) = evaluated rest := by
  have hread := evaluated_word List.all_nil hc rest
  rwa [referenceAt_nil] at hread

/-- Of a name with an attribute behind it the name is evaluated. -/
theorem evaluated_dotted {name kind : List Char} {c : Char}
    (hname : name.all isIdentifierChar = true) (hrefers : isReference false name (some '.') = true)
    (hkind : kind.all isIdentifierChar = true) (hc : isDivider c = true) (rest : List Char) :
    evaluated (name ++ '.' :: (kind ++ c :: rest)) = .ofList name :: evaluated rest := by
  rw [List.all_eq_true] at hname hkind
  simp only [isDivider, Bool.and_eq_true, Bool.not_eq_true', bne_iff_ne, ne_eq] at hc
  obtain ⟨⟨hword, hplain⟩, hpoint⟩ := hc
  have hdot : isIdentifierChar '.' = false := by decide
  unfold evaluated
  rw [kept_word hname (by decide), kept_word hkind hplain, references_word hname hdot,
    beq_self_eq_true, references_word hkind hword, referenceAt_member,
    beq_eq_false_iff_ne.mpr hpoint, List.nil_append, List.nil_append, referenceAt, if_pos hrefers,
    List.singleton_append]

/-- An argument that is given a constant evaluates nothing. -/
theorem evaluated_argument {name constant : List Char} {c : Char}
    (hname : name.all isIdentifierChar = true) (hconstant : constant.all isIdentifierChar = true)
    (hkeyword : isKeyword (.ofList constant) = true) (hc : isDivider c = true) (rest : List Char) :
    evaluated (name ++ '=' :: (constant ++ c :: rest)) = evaluated rest := by
  have hargument : referenceAt false name (some '=') = [] := by simp [referenceAt, isReference]
  have hvalue : referenceAt false constant (some c) = [] := by
    simp [referenceAt, isReference, hkeyword]
  rw [evaluated_word (c := '=') hname rfl, hargument, List.nil_append,
    evaluated_word hconstant hc, hvalue, List.nil_append]

theorem evaluated_quote (text : String) {rest : List Char} (hrest : rest.head? ≠ some '\'') :
    evaluated ((quote text).toList ++ rest) = evaluated rest := by
  obtain ⟨hended, hkept⟩ := Mode.quote_read text
  have hread : (Mode.code.after (quote text).toList).kept rest = Mode.code.kept rest := by
    cases rest with
    | nil => rw [Mode.kept, Mode.kept]
    | cons c rest =>
      have hc : c ≠ '\'' := by simpa using hrest
      rw [Mode.kept, Mode.kept, Line.step_of_ended hended hc]
  have hquote : isIdentifierChar '\'' = false := by decide
  have hskip (cs : List Char) : references false [] ('\'' :: cs) = references false [] cs := by
    have hpoint : ('\'' == '.') = false := by decide
    rw [references, if_neg (by simp [hquote]), referenceAt_nil, List.nil_append, hpoint]
  unfold evaluated
  rw [Mode.kept_append, hkept, hread, List.cons_append, hskip, List.cons_append, hskip,
    List.nil_append]

end RamlScaffold.Code

import RamlScaffold.Code.Identifier
import RamlScaffold.Proofs.Naming.Fresh
import RamlScaffold.Proofs.Naming.Snake

/-!
Names that may stand alone in generated code: they have the form of an identifier, are no keyword
and none of the words reserved for their place. A name goes through several layers on its way
there, and each is shown to keep what the ones before it gave: the guards end the name in an
underscore and numbering ends it in a digit, while keywords and most reserved words end in a letter.
-/

namespace RamlScaffold.Code

def isIdentifierChar (c : Char) : Bool := Text.isAlnum c || c == '_'

/-- The form of identifiers: a letter or an underscore, then letters, digits and underscores. -/
def isIdentifier (s : String) : Bool :=
  match s.toList with
  | [] => false
  | c :: rest => (Text.isUpper c || Text.isLower c || c == '_') && rest.all isIdentifierChar

/-- Names that may stand alone in a place with reserved words. -/
structure Bare (words : List String) (s : String) : Prop where
  form : isIdentifier s = true
  notKeyword : s ∉ keywords
  notWord : s ∉ words

instance (words : List String) (s : String) : Decidable (Bare words s) :=
  decidable_of_iff (isIdentifier s = true ∧ s ∉ keywords ∧ s ∉ words)
    ⟨fun h => ⟨h.1, h.2.1, h.2.2⟩, fun h => ⟨h.form, h.notKeyword, h.notWord⟩⟩

structure Stem (s : String) : Prop where
  shaped : Naming.SnakeShaped s.toList
  letter : ∃ c, s.toList.head? = some c ∧ Text.isLower c = true

theorem isIdentifierChar_of_snakeChar {c : Char} (hc : Naming.SnakeChar c) :
    isIdentifierChar c = true := by
  by_cases hsep : c = '_'
  · simp [isIdentifierChar, hsep]
  · simp [isIdentifierChar, hc.isAlnum hsep]

theorem isIdentifier_append {s t : String} (hs : isIdentifier s = true)
    (ht : ∀ c ∈ t.toList, isIdentifierChar c = true) : isIdentifier (s ++ t) = true := by
  unfold isIdentifier at hs ⊢
  rw [String.toList_append]
  cases hchars : s.toList with
  | nil => simp [hchars] at hs
  | cons c rest =>
    simp only [hchars, Bool.and_eq_true, List.cons_append, List.all_append] at hs ⊢
    exact ⟨hs.1, hs.2, List.all_eq_true.mpr ht⟩

theorem Stem.isIdentifier {s : String} (hs : Stem s) : isIdentifier s = true := by
  obtain ⟨first, hfirst, hlower⟩ := hs.letter
  unfold Code.isIdentifier
  cases hchars : s.toList with
  | nil => simp [hchars] at hfirst
  | cons c rest =>
    obtain rfl : c = first := by simpa [hchars] using hfirst
    simp only [hlower, Bool.or_true, Bool.true_or, Bool.true_and, List.all_eq_true]
    intro d hd
    apply isIdentifierChar_of_snakeChar (hs.shaped.chars d _)
    rw [hchars]
    exact List.mem_cons_of_mem c hd

theorem stem_of_snake_eq {s : String} (hs : Naming.snake s = s)
    (hletter : ∃ c, s.toList.head? = some c ∧ Text.isLower c = true) : Stem s := by
  refine ⟨?_, hletter⟩
  rw [← hs]
  exact Naming.snakeShaped_snake s

theorem avoid_cases (words : List String) (s : String) :
    (s ∉ words ∧ avoid words s = s) ∨ (s ∈ words ∧ avoid words s = s ++ "_") := by
  by_cases hs : s ∈ words
  · exact Or.inr ⟨hs, by simp [avoid, hs]⟩
  · exact Or.inl ⟨hs, by simp [avoid, hs]⟩

theorem isIdentifier_avoid (words : List String) {s : String} (hs : isIdentifier s = true) :
    isIdentifier (avoid words s) = true := by
  rcases avoid_cases words s with ⟨-, hkept⟩ | ⟨-, hguarded⟩
  · rw [hkept]
    exact hs
  · rw [hguarded]
    exact isIdentifier_append hs (by simp [isIdentifierChar])

def endsInLetter (word : String) : Bool := word.toList.getLast?.any Text.isLower

theorem keywords_end : ∀ word ∈ keywords, endsInLetter word = true := by decide

/-- A guarded name is none of the words that end in a letter. -/
theorem guarded_not_mem {words : List String} (hwords : ∀ word ∈ words, endsInLetter word = true)
    (s : String) : s ++ "_" ∉ words := by
  intro hmem
  have hends := hwords _ hmem
  have hlast : (s ++ "_").toList.getLast? = some '_' := by simp
  rw [endsInLetter, hlast] at hends
  exact Bool.false_ne_true hends

/-- The keyword guard leaves no keyword. -/
theorem bare_nonKeyword {s : String} (hs : isIdentifier s = true) : Bare [] (nonKeyword s) := by
  refine ⟨isIdentifier_avoid keywords hs, ?_, List.not_mem_nil⟩
  rcases avoid_cases keywords s with ⟨hnew, hkept⟩ | ⟨hword, hguarded⟩
  · rw [nonKeyword, hkept]
    exact hnew
  · rw [nonKeyword, hguarded]
    exact guarded_not_mem keywords_end s

/-- A guard for reserved words leaves none of them, and makes no keyword. -/
theorem Bare.avoid {words : List String} {s : String} (hs : Bare [] s)
    (hwords : ∀ word ∈ words, word ++ "_" ∉ words) :
    Bare words (avoid words s) := by
  rcases avoid_cases words s with ⟨hnew, hkept⟩ | ⟨hword, hguarded⟩
  · rw [hkept]
    exact ⟨hs.form, hs.notKeyword, hnew⟩
  · refine ⟨isIdentifier_avoid words hs.form, ?_, ?_⟩
    · rw [hguarded]
      exact guarded_not_mem keywords_end s
    · rw [hguarded]
      exact hwords s hword

/-- The fallback and an underscore before a leading digit keep the shape of the name. -/
theorem stem_of_leading_digit {name fallback : String} {c : Char}
    (hname : Naming.SnakeShaped name.toList) (hc : name.toList.head? = some c)
    (hfallback : Stem fallback) : Stem (fallback ++ "_" ++ name) := by
  have htext : (fallback ++ "_" ++ name).toList = fallback.toList ++ '_' :: name.toList := by
    simp
  obtain ⟨first, hfirst, hlower⟩ := hfallback.letter
  have hhead : (fallback.toList ++ '_' :: name.toList).head? = some first := by
    rw [List.head?_append, hfirst, Option.some_or]
  have hlast : (fallback.toList ++ '_' :: name.toList).getLast? = name.toList.getLast? := by
    cases hchars : name.toList with
    | nil => simp [hchars] at hc
    | cons d rest => simp [List.getLast?_cons]
  refine ⟨?_, first, by rw [htext, hhead], hlower⟩
  rw [htext]
  constructor
  · intro d hd
    rcases List.mem_append.mp hd with hd | hd
    · exact hfallback.shaped.chars d hd
    · rcases List.mem_cons.mp hd with rfl | hd
      · exact Or.inr (Or.inr rfl)
      · exact hname.chars d hd
  · apply hfallback.shaped.apart.append
    · rw [List.isChain_cons]
      refine ⟨?_, hname.apart⟩
      intro next hnext hboth
      exact hname.head (hboth.2 ▸ hnext)
    · intro before hbefore after hafter hboth
      exact hfallback.shaped.last (hboth.1 ▸ hbefore)
  · rw [hhead, ← hfirst]
    exact hfallback.shaped.head
  · rw [hlast]
    exact hname.last

/-- An identifier made from a text is a stem behind the keyword guard. -/
theorem identifier_stem (text : String) {fallback : String} (hfallback : Stem fallback) :
    ∃ stem, Stem stem ∧ identifier (Naming.snake text) fallback = nonKeyword stem := by
  have hshaped := Naming.snakeShaped_snake text
  unfold identifier
  cases hchars : (Naming.snake text).toList with
  | nil => exact ⟨fallback, hfallback, rfl⟩
  | cons c rest =>
    have hhead : (Naming.snake text).toList.head? = some c := by rw [hchars, List.head?_cons]
    by_cases hdigit : Text.isDigit c = true
    · refine ⟨fallback ++ "_" ++ Naming.snake text, ?_, if_pos hdigit⟩
      exact stem_of_leading_digit hshaped hhead hfallback
    · refine ⟨Naming.snake text, ⟨hshaped, c, hhead, ?_⟩, if_neg hdigit⟩
      rcases hshaped.chars c (List.mem_of_mem_head? hhead) with hlower | hdigit' | rfl
      · exact hlower
      · exact absurd hdigit' hdigit
      · exact absurd hhead hshaped.head

theorem bare_identifier (text : String) {fallback : String} (hfallback : Stem fallback) :
    Bare [] (identifier (Naming.snake text) fallback) := by
  obtain ⟨stem, hstem, hname⟩ := identifier_stem text hfallback
  rw [hname]
  exact bare_nonKeyword hstem.isIdentifier

theorem isDigit_of_mem_toString {i : Nat} {c : Char} (hc : c ∈ (toString i).toList) :
    Text.isDigit c = true := by
  rw [Nat.toString_eq_repr, Nat.toList_repr] at hc
  have hdigit := Nat.isDigit_of_mem_toDigits (by decide) (by decide) hc
  simpa [Text.isDigit, Char.isDigit, Char.le_def] using hdigit

theorem toString_ne_nil (i : Nat) : (toString i).toList ≠ [] := by
  rw [Nat.toString_eq_repr, Nat.toList_repr]
  exact Nat.toDigits_ne_nil

/-- A numbered name is none of the words that end in a letter. -/
theorem numbered_not_mem {words : List String} (hwords : ∀ word ∈ words, endsInLetter word = true)
    (base : String) (i : Nat) : Naming.numbered base i ∉ words := by
  intro hmem
  have hends := hwords _ hmem
  have hlast := List.getLast?_eq_some_getLast (toString_ne_nil i)
  have hnumbered : (Naming.numbered base i).toList.getLast? = (toString i).toList.getLast? := by
    rw [Naming.numbered, String.toList_append, List.getLast?_append, hlast, Option.some_or]
  have hdigit := isDigit_of_mem_toString (List.getLast_mem (toString_ne_nil i))
  rw [endsInLetter, hnumbered, hlast, Option.any_some, Text.not_lower_of_digit hdigit] at hends
  exact Bool.false_ne_true hends

theorem Bare.numbered {words : List String} {base : String} (hbase : Bare words base)
    (hwords : ∀ word ∈ words, endsInLetter word = true) (i : Nat) :
    Bare words (Naming.numbered base i) := by
  refine ⟨?_, numbered_not_mem keywords_end base i, numbered_not_mem hwords base i⟩
  rw [Naming.numbered, String.append_assoc]
  apply isIdentifier_append hbase.form
  intro c hc
  rw [String.toList_append, List.mem_append] at hc
  rcases hc with hsep | hdigit
  · obtain rfl : c = '_' := by simpa using hsep
    rfl
  · simp [isIdentifierChar, Text.isAlnum, isDigit_of_mem_toString hdigit]

/-- Names handed out for bare names are bare. -/
theorem bare_freshAll {words : List String} (seen bases : List String)
    (hwords : ∀ word ∈ words, endsInLetter word = true)
    (hbases : ∀ base ∈ bases, Bare words base) :
    ∀ name ∈ Naming.freshAll seen bases, Bare words name := by
  apply Naming.freshAll_forall
  intro base hbase
  exact ⟨hbases base hbase, (hbases base hbase).numbered hwords⟩

end RamlScaffold.Code

import RamlScaffold.Naming.GroupName
import RamlScaffold.Proofs.Code.Identifier

/-!
The pascal and camel spellings of a name, and when two names share one. Joining words forgets the
underscores between them. A capital shows again where a word began, unless the word begins with a
digit, which has no capital: so two names share their spelling exactly when they differ in nothing
but underscores before digits.
-/

namespace RamlScaffold.Naming

/-- The words of a name joined with a capital each. -/
def capitalized (cs : List Char) : List Char :=
  (Text.cutAt '_' cs).flatMap capitalize

/-- The words of a name joined with a capital each but the first. -/
def continued (cs : List Char) : List Char :=
  (Text.cutAt '_' cs).headD [] ++ (Text.cutAt '_' cs).tail.flatMap capitalize

def joinDigits : List Char → List Char
  | a :: b :: rest =>
    if a == '_' && Text.isDigit b then joinDigits (b :: rest) else a :: joinDigits (b :: rest)
  | cs => cs

def markWord (c : Char) : List Char :=
  if Text.isUpper c then ['_', Text.lowerChar c] else [c]

@[simp] theorem capitalized_nil : capitalized [] = [] := rfl

@[simp] theorem continued_nil : continued [] = [] := rfl

@[simp] theorem capitalized_underscore (cs : List Char) :
    capitalized ('_' :: cs) = capitalized cs := by
  simp [capitalized, Text.cutAt, capitalize]

@[simp] theorem continued_underscore (cs : List Char) : continued ('_' :: cs) = capitalized cs := by
  simp [continued, capitalized, Text.cutAt]

theorem capitalized_cons {c : Char} (hc : c ≠ '_') (cs : List Char) :
    capitalized (c :: cs) = Text.upperChar c :: continued cs := by
  cases hpieces : Text.cutAt '_' cs <;>
    simp [capitalized, continued, Text.cutAt, hc, hpieces, capitalize]

theorem continued_cons {c : Char} (hc : c ≠ '_') (cs : List Char) :
    continued (c :: cs) = c :: continued cs := by
  cases hpieces : Text.cutAt '_' cs <;> simp [continued, Text.cutAt, hc, hpieces]

theorem capitalized_digit {c : Char} (hc : Text.isDigit c = true) (cs : List Char) :
    capitalized (c :: cs) = continued (c :: cs) := by
  have hsep : c ≠ '_' := by
    rintro rfl
    exact Bool.false_ne_true hc
  rw [capitalized_cons hsep, continued_cons hsep,
    Text.upperChar_of_not_lower (Text.not_lower_of_digit hc)]

/-- Underscores before digits leave no trace in joined words. -/
theorem joined_joinDigits (cs : List Char) :
    capitalized (joinDigits cs) = capitalized cs ∧ continued (joinDigits cs) = continued cs := by
  fun_induction joinDigits cs with
  | case1 a b rest hdrop ih =>
    obtain ⟨rfl, hdigit⟩ : a = '_' ∧ Text.isDigit b = true := by simpa using hdrop
    rw [capitalized_underscore, continued_underscore, ih.1, ih.2]
    exact ⟨rfl, (capitalized_digit hdigit rest).symm⟩
  | case2 a b rest hkeep ih =>
    by_cases ha : a = '_'
    · subst ha
      rw [capitalized_underscore, continued_underscore, capitalized_underscore,
        continued_underscore]
      exact ⟨ih.1, ih.1⟩
    · rw [capitalized_cons ha, continued_cons ha, capitalized_cons ha, continued_cons ha, ih.2]
      exact ⟨rfl, rfl⟩
  | case3 cs hshort => exact ⟨rfl, rfl⟩

theorem markWord_snakeChar {c : Char} (hc : SnakeChar c) : markWord c = [c] := by
  simp [markWord, hc.not_upper]

theorem markWord_upperChar {c : Char} (hc : Text.isLower c = true) :
    markWord (Text.upperChar c) = ['_', c] := by
  simp [markWord, Text.isUpper_upperChar hc, Text.lowerChar_upperChar hc]

/-- Marking the capitals again gives back all of a name but underscores before digits. -/
theorem flatMap_markWord_continued (cs : List Char) (hchars : ∀ c ∈ cs, SnakeChar c)
    (hapart : cs.IsChain Apart) (hlast : '_' ∉ cs.getLast?) :
    (continued cs).flatMap markWord = joinDigits cs := by
  fun_induction joinDigits cs with
  | case1 a b rest hdrop ih =>
    obtain ⟨rfl, hdigit⟩ : a = '_' ∧ Text.isDigit b = true := by simpa using hdrop
    rw [continued_underscore, capitalized_digit hdigit]
    exact ih (fun c hc => hchars c (List.mem_cons_of_mem _ hc))
      (List.isChain_cons_cons.mp hapart).2 (by simpa using hlast)
  | case2 a b rest hkeep ih =>
    have ih := ih (fun c hc => hchars c (List.mem_cons_of_mem _ hc))
      (List.isChain_cons_cons.mp hapart).2 (by simpa using hlast)
    by_cases ha : a = '_'
    · subst ha
      -- The next character is neither an underscore nor a digit, so it gets a capital.
      have hb : b ≠ '_' := fun hb => (List.isChain_cons_cons.mp hapart).1 ⟨rfl, hb⟩
      have hlower : Text.isLower b = true := by
        rcases hchars b (by simp) with hlower | hdigit | hsep
        · exact hlower
        · simp [hdigit] at hkeep
        · exact absurd hsep hb
      rw [continued_cons hb, List.flatMap_cons, markWord_snakeChar (hchars b (by simp))] at ih
      rw [continued_underscore, capitalized_cons hb, List.flatMap_cons,
        markWord_upperChar hlower, ← ih]
      rfl
    · rw [continued_cons ha, List.flatMap_cons, markWord_snakeChar (hchars a (by simp)), ih]
      rfl
  | case3 cs hshort =>
    rcases cs with _ | ⟨a, _ | ⟨b, rest⟩⟩
    · rfl
    · have ha : a ≠ '_' := by
        rintro rfl
        exact hlast rfl
      rw [continued_cons ha, continued_nil, List.flatMap_cons,
        markWord_snakeChar (hchars a (by simp))]
      rfl
    · exact absurd rfl (hshort a b rest)

theorem isAlnum_upperChar {c : Char} (hc : Text.isAlnum c = true) :
    Text.isAlnum (Text.upperChar c) = true := by
  by_cases hlower : Text.isLower c = true
  · exact (Text.isAlnum_iff _).mpr (Or.inl (Text.isUpper_upperChar hlower))
  · rw [Text.upperChar_of_not_lower (by simpa using hlower)]
    exact hc

/-- Joined words have letters and digits only. -/
theorem isAlnum_joined (cs : List Char) (hchars : ∀ c ∈ cs, SnakeChar c) :
    (∀ c ∈ capitalized cs, Text.isAlnum c = true) ∧
      (∀ c ∈ continued cs, Text.isAlnum c = true) := by
  induction cs with
  | nil => simp
  | cons a rest ih =>
    obtain ⟨hcapital, hcontinued⟩ := ih fun c hc => hchars c (List.mem_cons_of_mem a hc)
    by_cases ha : a = '_'
    · subst ha
      rw [capitalized_underscore, continued_underscore]
      exact ⟨hcapital, hcapital⟩
    · have halnum := (hchars a List.mem_cons_self).isAlnum ha
      rw [capitalized_cons ha, continued_cons ha, List.forall_mem_cons, List.forall_mem_cons]
      exact ⟨⟨isAlnum_upperChar halnum, hcontinued⟩, halnum, hcontinued⟩

theorem snake_nonKeyword {stem : String} (hstem : Code.Stem stem) :
    snake (Code.nonKeyword stem) = stem := by
  rcases Code.avoid_cases Code.keywords stem with ⟨-, hkept⟩ | ⟨-, hguarded⟩
  · rw [Code.nonKeyword, hkept]
    exact snake_eq_self hstem.shaped
  · obtain ⟨c, hc, -⟩ := hstem.letter
    rw [Code.nonKeyword, hguarded]
    apply snake_append_underscore hstem.shaped
    intro hnil
    simp [hnil] at hc

theorem pascal_nonKeyword {stem : String} (hstem : Code.Stem stem) :
    pascal (Code.nonKeyword stem) = .ofList (capitalized stem.toList) := by
  rw [pascal, snake_nonKeyword hstem]
  rfl

/-- The two joined forms of a stem differ in the case of the first letter only. -/
theorem joined_of_stem {stem : String} (hstem : Code.Stem stem) :
    ∃ c rest, stem.toList = c :: rest ∧ Text.isLower c = true ∧
      capitalized stem.toList = Text.upperChar c :: continued rest ∧
      continued stem.toList = c :: continued rest := by
  obtain ⟨c, hc, hlower⟩ := hstem.letter
  obtain ⟨rest, hchars⟩ := List.head?_eq_some_iff.mp hc
  have hsep : c ≠ '_' := by
    rintro rfl
    exact Bool.false_ne_true hlower
  refine ⟨c, rest, hchars, hlower, ?_, ?_⟩
  · rw [hchars, capitalized_cons hsep]
  · rw [hchars, continued_cons hsep]

theorem camel_nonKeyword {stem : String} (hstem : Code.Stem stem) :
    camel (Code.nonKeyword stem) = .ofList (continued stem.toList) := by
  obtain ⟨c, rest, -, hlower, hcapital, hcontinued⟩ := joined_of_stem hstem
  rw [camel, pascal_nonKeyword hstem, String.toList_ofList, hcapital, hcontinued]
  simp [Text.lowerChar_upperChar hlower]

/-- Names share the pascal form exactly when they differ only in underscores before digits. -/
theorem capitalized_eq_iff {s t : String} (hs : Code.Stem s) (ht : Code.Stem t) :
    capitalized s.toList = capitalized t.toList ↔ joinDigits s.toList = joinDigits t.toList := by
  have hmark {stem : String} (hstem : Code.Stem stem) :
      (capitalized stem.toList).flatMap markWord = '_' :: joinDigits stem.toList := by
    obtain ⟨c, rest, hchars, hlower, hcapital, hcontinued⟩ := joined_of_stem hstem
    have hshaped := hstem.shaped
    have hback := flatMap_markWord_continued _ hshaped.chars hshaped.apart hshaped.last
    have hc : SnakeChar c := Or.inl hlower
    rw [← hback, hcapital, hcontinued, List.flatMap_cons, List.flatMap_cons,
      markWord_upperChar hlower, markWord_snakeChar hc]
    rfl
  constructor
  · intro hsame
    have hmarked := congrArg (List.flatMap markWord) hsame
    rw [hmark hs, hmark ht] at hmarked
    exact (List.cons.inj hmarked).2
  · intro hsame
    rw [← (joined_joinDigits s.toList).1, hsame, (joined_joinDigits t.toList).1]

/-- The camel form tells the same names apart as the pascal form. -/
theorem continued_eq_iff {s t : String} (hs : Code.Stem s) (ht : Code.Stem t) :
    continued s.toList = continued t.toList ↔ joinDigits s.toList = joinDigits t.toList := by
  constructor
  · intro hsame
    rw [← flatMap_markWord_continued _ hs.shaped.chars hs.shaped.apart hs.shaped.last, hsame,
      flatMap_markWord_continued _ ht.shaped.chars ht.shaped.apart ht.shaped.last]
  · intro hsame
    rw [← (joined_joinDigits s.toList).2, hsame, (joined_joinDigits t.toList).2]

/-- What stands before the first underscore shows through a guard. -/
theorem takeWhile_avoid (words : List String) (s : String) :
    (Code.avoid words s).toList.takeWhile (· != '_') = s.toList.takeWhile (· != '_') := by
  rcases Code.avoid_cases words s with ⟨-, hkept⟩ | ⟨-, hguarded⟩
  · rw [hkept]
  · rw [hguarded, String.toList_append]
    induction s.toList with
    | nil => rfl
    | cons c rest ih => simp only [List.cons_append, List.takeWhile_cons, ih]

/-- Guards keep joined words apart, since only a guard can put an underscore there. -/
theorem guard_eq_iff (guard : String → String)
    (hguard : ∀ s, (guard s).toList.takeWhile (· != '_') = s.toList.takeWhile (· != '_'))
    {cs ds : List Char} (hcs : ∀ c ∈ cs, Text.isAlnum c = true)
    (hds : ∀ c ∈ ds, Text.isAlnum c = true) :
    guard (.ofList cs) = guard (.ofList ds) ↔ cs = ds := by
  have hwhole {cs : List Char} (hcs : ∀ c ∈ cs, Text.isAlnum c = true) :
      cs.takeWhile (· != '_') = cs := by
    rw [List.takeWhile_eq_self_iff]
    intro c hc
    have hsep : c ≠ '_' := by
      rintro rfl
      exact Bool.false_ne_true (hcs _ hc)
    simpa using hsep
  constructor
  · intro hsame
    have hshown := congrArg (fun name => name.toList.takeWhile (· != '_')) hsame
    simpa only [hguard, String.toList_ofList, hwhole hcs, hwhole hds] using hshown
  · rintro rfl
    rfl

theorem joinDigits_eq_self (cs : List Char) (hcs : ∀ c ∈ cs, Text.isDigit c = false) :
    joinDigits cs = cs := by
  fun_induction joinDigits cs with
  | case1 a b rest hdrop ih => simp [hcs b (by simp)] at hdrop
  | case2 a b rest hkeep ih => rw [ih fun c hc => hcs c (List.mem_cons_of_mem a hc)]
  | case3 cs hshort => rfl

theorem mem_joinDigits {c : Char} (hc : c ≠ '_') (cs : List Char) (hmem : c ∈ cs) :
    c ∈ joinDigits cs := by
  fun_induction joinDigits cs with
  | case1 a b rest hdrop ih =>
    obtain ⟨rfl, -⟩ : a = '_' ∧ Text.isDigit b = true := by simpa using hdrop
    exact ih ((List.mem_cons.mp hmem).resolve_left hc)
  | case2 a b rest hkeep ih =>
    rcases List.mem_cons.mp hmem with rfl | hmem
    · exact List.mem_cons_self
    · exact List.mem_cons_of_mem a (ih hmem)
  | case3 cs hshort => exact hmem

/-- Only a name itself becomes a text without digits. -/
theorem eq_of_joinDigits_eq {cs ds : List Char} (hds : ∀ c ∈ ds, Text.isDigit c = false)
    (hsame : joinDigits cs = ds) : cs = ds := by
  rw [← hsame, joinDigits_eq_self]
  intro c hc
  by_cases hsep : c = '_'
  · subst hsep
    rfl
  · exact hds c (hsame ▸ mem_joinDigits hsep cs hc)

theorem keyword_digit_free {word : String} (hword : word ∈ Code.keywords) :
    ∀ c ∈ word.toList, Text.isDigit c = false := by
  have hall : Code.keywords.all (fun word => word.toList.all (!Text.isDigit ·)) = true := by
    decide
  intro c hc
  simpa using List.all_eq_true.mp (List.all_eq_true.mp hall word hword) c hc

/-- A keyword behind the guard shares its digit-joined form with no other stem, with or without the
guard on both. -/
theorem joinDigits_keyword_iff {word t : String} (hstem : Code.Stem word) (ht : Code.Stem t)
    (hword : word ∈ Code.keywords) :
    (joinDigits (Code.nonKeyword t).toList = joinDigits (Code.nonKeyword word).toList ↔ t = word) ∧
      (joinDigits t.toList = joinDigits word.toList ↔ t = word) := by
  have hplain := keyword_digit_free hword
  have hguarded : Code.nonKeyword word = word ++ "_" := by
    simp [Code.nonKeyword, Code.avoid, hword]
  have hfree : ∀ c ∈ (word ++ "_").toList, Text.isDigit c = false := by
    intro c hc
    rw [String.toList_append, List.mem_append] at hc
    rcases hc with hc | hsep
    · exact hplain c hc
    · obtain rfl : c = '_' := by simpa using hsep
      rfl
  constructor
  · refine ⟨fun hsame => ?_, fun heq => by rw [heq]⟩
    rw [hguarded, joinDigits_eq_self _ hfree, ← hguarded] at hsame
    have hnames := String.toList_inj.mp (eq_of_joinDigits_eq (by rw [hguarded]; exact hfree) hsame)
    rw [← snake_nonKeyword ht, hnames, snake_nonKeyword hstem]
  · refine ⟨fun hsame => ?_, fun heq => by rw [heq]⟩
    rw [joinDigits_eq_self _ hplain] at hsame
    exact String.toList_inj.mp (eq_of_joinDigits_eq hplain hsame)

/-- The keyword guard neither makes nor breaks a shared digit-joined form. -/
theorem joinDigits_nonKeyword_iff {s t : String} (hs : Code.Stem s) (ht : Code.Stem t) :
    joinDigits (Code.nonKeyword s).toList = joinDigits (Code.nonKeyword t).toList ↔
      joinDigits s.toList = joinDigits t.toList := by
  by_cases htword : t ∈ Code.keywords
  · obtain ⟨hguarded, hplain⟩ := joinDigits_keyword_iff ht hs htword
    rw [hguarded, hplain]
  · by_cases hsword : s ∈ Code.keywords
    · obtain ⟨hguarded, hplain⟩ := joinDigits_keyword_iff hs ht hsword
      rw [eq_comm, hguarded, ← hplain, eq_comm]
    · simp [Code.nonKeyword, Code.avoid, hsword, htword]

end RamlScaffold.Naming

namespace RamlScaffold.GroupName

structure SpelledBy (root : String) (name : GroupName) : Prop where
  stem : Code.Stem root
  snake : name.snake = Code.nonKeyword root
  pascal : name.pascal = Code.nonKeyword (.ofList (Naming.capitalized root.toList))
  camel : name.camel =
    Code.avoid aggregateMembers (Code.nonKeyword (.ofList (Naming.continued root.toList)))

theorem spelledBy_derive (raw : String) : ∃ root, SpelledBy root (derive raw) := by
  have hfallback : Code.Stem "resource" :=
    Code.stem_of_snake_eq (by decide) ⟨'r', by decide, by decide⟩
  obtain ⟨root, hroot, hname⟩ := Code.identifier_stem raw hfallback
  refine ⟨root, hroot, ?_, ?_, ?_⟩
  · simp only [derive, hname]
  · simp only [derive, hname, Naming.pascal_nonKeyword hroot]
  · simp only [derive, hname, Naming.camel_nonKeyword hroot]

/-- Two names share the pascal spelling exactly when they share the camel spelling, and exactly
when their snake spellings differ in nothing but underscores before digits. -/
theorem SpelledBy.shared_iff {s t : String} {a b : GroupName} (ha : SpelledBy s a)
    (hb : SpelledBy t b) :
    (a.pascal = b.pascal ↔
      Naming.joinDigits a.snake.toList = Naming.joinDigits b.snake.toList) ∧
    (a.camel = b.camel ↔
      Naming.joinDigits a.snake.toList = Naming.joinDigits b.snake.toList) := by
  have hjoined := Naming.joinDigits_nonKeyword_iff ha.stem hb.stem
  have hsalnum := Naming.isAlnum_joined s.toList ha.stem.shaped.chars
  have htalnum := Naming.isAlnum_joined t.toList hb.stem.shaped.chars
  rw [ha.snake, hb.snake, hjoined, ha.pascal, hb.pascal, ha.camel, hb.camel]
  constructor
  · rw [← Naming.capitalized_eq_iff ha.stem hb.stem]
    exact Naming.guard_eq_iff Code.nonKeyword (Naming.takeWhile_avoid Code.keywords)
      hsalnum.1 htalnum.1
  · rw [← Naming.continued_eq_iff ha.stem hb.stem]
    apply Naming.guard_eq_iff (fun s => Code.avoid aggregateMembers (Code.nonKeyword s)) _
      hsalnum.2 htalnum.2
    intro s
    rw [Naming.takeWhile_avoid, Code.nonKeyword, Naming.takeWhile_avoid]

end RamlScaffold.GroupName

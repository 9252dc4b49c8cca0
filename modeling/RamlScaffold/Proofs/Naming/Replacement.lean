import RamlScaffold.Proofs.Naming.Snake

/-!
Snake case by replacing patterns. A global replacement goes through a text from the left and goes on
behind each match, so what one match has taken cannot start the next one. The passes of `snake` look
at every character instead. Nothing is lost by that: where a match takes the character in front of a
capital, that character is a lower-case letter, and the next pass separates the two.
-/

namespace RamlScaffold.Naming

/-- A pattern is given a character and what follows it. When a match starts there, the pattern says
what to put in its place and how many of the following characters it takes. -/
abbrev Pattern := Char → List Char → Option (List Char × Nat)

def replaceAll (pattern : Pattern) : List Char → List Char
  | [] => []
  | c :: rest =>
    match pattern c rest with
    | some (replacement, taken) => replacement ++ replaceAll pattern (rest.drop taken)
    | none => c :: replaceAll pattern rest
termination_by cs => cs.length
decreasing_by
  · rw [List.length_drop, List.length_cons]
    omega
  · exact Nat.lt_succ_self _

def opens (kind : Char → Bool) (cs : List Char) : Bool := cs.head?.any kind

@[simp] theorem opens_nil (kind : Char → Bool) : opens kind [] = false := rfl

@[simp] theorem opens_cons (kind : Char → Bool) (c : Char) (cs : List Char) :
    opens kind (c :: cs) = kind c := rfl

theorem opens_congr {kind : Char → Bool} {cs ds : List Char} (hhead : cs.head? = ds.head?) :
    opens kind cs = opens kind ds := by
  rw [opens, hhead, opens]

namespace Pattern

/-- `[^A-Za-z0-9]+` by an underscore. -/
def separators : Pattern := fun c rest =>
  if Text.isAlnum c then none else some (['_'], (rest.takeWhile (!Text.isAlnum ·)).length)

/-- `(.)([A-Z][a-z]+)` by the two groups with an underscore between them. The first group is any
character but a line feed. -/
def capitalWords : Pattern
  | a, b :: rest =>
    if a != '\n' && Text.isUpper b && opens Text.isLower rest then
      some (a :: '_' :: b :: rest.takeWhile Text.isLower, (rest.takeWhile Text.isLower).length + 1)
    else none
  | _, [] => none

/-- `([a-z0-9])([A-Z])` by the two groups with an underscore between them. -/
def rises : Pattern
  | a, b :: _ =>
    if (Text.isLower a || Text.isDigit a) && Text.isUpper b then some ([a, '_', b], 1) else none
  | _, [] => none

/-- `_+` by an underscore. -/
def underscores : Pattern := fun c rest =>
  if c == '_' then some (['_'], (rest.takeWhile (· == '_')).length) else none

end Pattern

def replaced (text : String) : String :=
  let spaced := replaceAll .separators text.toList
  let split := replaceAll .rises (replaceAll .capitalWords spaced)
  .ofList (Text.trimWhile (· == '_') (replaceAll .underscores (split.map Text.lowerChar)))

/-- An underscore wherever a capital follows and either a lower-case letter or digit stands before
it or a lower-case letter behind it. -/
def mark : List Char → List Char
  | a :: b :: rest =>
    if Text.isUpper b && (Text.isLower a || Text.isDigit a || opens Text.isLower rest) then
      a :: '_' :: mark (b :: rest)
    else a :: mark (b :: rest)
  | cs => cs

theorem drop_length_takeWhile (p : Char → Bool) (cs : List Char) :
    cs.drop (cs.takeWhile p).length = cs.dropWhile p := by
  have hsplit := List.takeWhile_append_dropWhile (p := p) (l := cs)
  calc cs.drop (cs.takeWhile p).length
      = (cs.takeWhile p ++ cs.dropWhile p).drop (cs.takeWhile p).length := by rw [hsplit]
    _ = cs.dropWhile p := List.drop_left

theorem spaced_true (cs : List Char) :
    spaced true cs = spaced false (cs.dropWhile (!Text.isAlnum ·)) := by
  induction cs with
  | nil => rfl
  | cons c rest ih =>
    by_cases hc : Text.isAlnum c = true
    · simp [spaced, hc]
    · simp [spaced, hc, ih]

theorem replaceAll_separators (cs : List Char) : replaceAll .separators cs = spaced false cs := by
  fun_induction replaceAll Pattern.separators cs with
  | case1 => rfl
  | case2 c rest replacement taken hmatch ih =>
    by_cases hc : Text.isAlnum c = true
    · simp [Pattern.separators, hc] at hmatch
    · obtain ⟨rfl, rfl⟩ : ['_'] = replacement ∧
          (rest.takeWhile (!Text.isAlnum ·)).length = taken := by
        simpa [Pattern.separators, hc] using hmatch
      rw [ih, drop_length_takeWhile, ← spaced_true]
      simp [spaced, hc]
  | case3 c rest hmatch ih =>
    have hc : Text.isAlnum c = true := by simpa [Pattern.separators] using hmatch
    simp [spaced, hc, ih]

theorem collapse_underscore (cs : List Char) :
    collapse ('_' :: cs) = '_' :: collapse (cs.dropWhile (· == '_')) := by
  induction cs with
  | nil => rfl
  | cons c rest ih =>
    by_cases hc : c = '_'
    · subst hc
      simpa [collapse] using ih
    · simp [collapse, hc]

theorem collapse_cons {c : Char} (hc : c ≠ '_') (cs : List Char) :
    collapse (c :: cs) = c :: collapse cs := by
  cases cs with
  | nil => rfl
  | cons d rest => simp [collapse, hc]

theorem replaceAll_underscores (cs : List Char) : replaceAll .underscores cs = collapse cs := by
  fun_induction replaceAll Pattern.underscores cs with
  | case1 => rfl
  | case2 c rest replacement taken hmatch ih =>
    by_cases hc : c = '_'
    · subst hc
      obtain ⟨rfl, rfl⟩ : ['_'] = replacement ∧ (rest.takeWhile (· == '_')).length = taken := by
        simpa [Pattern.underscores] using hmatch
      rw [ih, drop_length_takeWhile, collapse_underscore]
      rfl
    · simp [Pattern.underscores, hc] at hmatch
  | case3 c rest hmatch ih =>
    have hc : c ≠ '_' := by simpa [Pattern.underscores] using hmatch
    rw [ih, collapse_cons hc]

theorem markRises_cons (a : Char) (cs : List Char) :
    markRises (a :: cs) =
      if (Text.isLower a || Text.isDigit a) && opens Text.isUpper cs then a :: '_' :: markRises cs
      else a :: markRises cs := by
  cases cs with
  | nil => simp [markRises]
  | cons b rest => rfl

theorem markCapitals_cons (a : Char) (cs : List Char) :
    markCapitals (a :: cs) =
      if opens Text.isUpper cs && opens Text.isLower cs.tail then a :: '_' :: markCapitals cs
      else a :: markCapitals cs := by
  rcases cs with _ | ⟨b, _ | ⟨c, rest⟩⟩
  · rfl
  · simp [markCapitals]
  · rfl

theorem mark_cons (a : Char) (cs : List Char) :
    mark (a :: cs) =
      if opens Text.isUpper cs && (Text.isLower a || Text.isDigit a || opens Text.isLower cs.tail)
      then a :: '_' :: mark cs
      else a :: mark cs := by
  cases cs with
  | nil => rfl
  | cons b rest => rfl

theorem head_markCapitals (cs : List Char) : (markCapitals cs).head? = cs.head? := by
  cases cs with
  | nil => rfl
  | cons a rest =>
    rw [markCapitals_cons]
    split <;> rfl

/-- An underscore is no reason for a mark before or behind it. -/
theorem underscore_kind :
    Text.isUpper '_' = false ∧ (Text.isLower '_' || Text.isDigit '_') = false := ⟨rfl, rfl⟩

/-- The two passes that look for capitals come to the same marks as one. -/
theorem markRises_markCapitals (cs : List Char) : markRises (markCapitals cs) = mark cs := by
  induction cs with
  | nil => rfl
  | cons a rest ih =>
    rw [markCapitals_cons, mark_cons]
    by_cases hcapital : (opens Text.isUpper rest && opens Text.isLower rest.tail) = true
    · rw [if_pos hcapital, markRises_cons, markRises_cons, ih]
      rw [Bool.and_eq_true] at hcapital
      simp [underscore_kind, hcapital]
    · rw [if_neg hcapital, markRises_cons, opens_congr (head_markCapitals rest), ih]
      rw [Bool.and_eq_true, not_and, Bool.not_eq_true] at hcapital
      by_cases hupper : opens Text.isUpper rest = true
      · simp [hupper, hcapital hupper]
      · simp [hupper]

theorem not_low_of_upper {c : Char} (hc : Text.isUpper c = true) :
    (Text.isLower c || Text.isDigit c) = false := by
  rw [← Bool.not_eq_true, Bool.or_eq_true]
  rintro (hlower | hdigit)
  · simp [Text.not_upper_of_lower hlower] at hc
  · simp [Text.not_upper_of_digit hdigit] at hc

/-- The capital at the end of a match could not have started the next one. -/
theorem replaceAll_rises (cs : List Char) : replaceAll .rises cs = markRises cs := by
  fun_induction replaceAll Pattern.rises cs with
  | case1 => rfl
  | case2 a rest replacement taken hmatch ih =>
    cases rest with
    | nil => simp [Pattern.rises] at hmatch
    | cons b rest =>
      obtain ⟨⟨hrise, hupper⟩, rfl, rfl⟩ :
          ((Text.isLower a || Text.isDigit a) = true ∧ Text.isUpper b = true) ∧
            [a, '_', b] = replacement ∧ 1 = taken := by
        simpa [Pattern.rises] using hmatch
      rw [List.drop_one, List.tail_cons] at ih ⊢
      rw [markRises_cons, markRises_cons, ih]
      simp [hrise, hupper, not_low_of_upper hupper]
  | case3 a rest hmatch ih =>
    rw [ih, markRises_cons]
    cases rest with
    | nil => simp
    | cons b rest =>
      have hnone : ¬ ((Text.isLower a || Text.isDigit a) && Text.isUpper b) = true := by
        simpa [Pattern.rises] using hmatch
      rw [opens_cons, if_neg hnone]

/-- A match takes a capital and all the lower-case letters behind it. -/
theorem capitalWords_eq_some {a : Char} {rest replacement : List Char} {taken : Nat}
    (hmatch : Pattern.capitalWords a rest = some (replacement, taken)) :
    ∃ b low, Text.isUpper b = true ∧ low ≠ [] ∧ (∀ c ∈ low, Text.isLower c = true) ∧
      rest = b :: (low ++ rest.drop taken) ∧ replacement = a :: '_' :: b :: low := by
  cases rest with
  | nil => cases hmatch
  | cons b rest =>
    rw [Pattern.capitalWords] at hmatch
    split at hmatch
    · next hcapital =>
      simp only [Bool.and_eq_true] at hcapital
      simp only [Option.some.injEq, Prod.mk.injEq] at hmatch
      obtain ⟨rfl, rfl⟩ := hmatch
      refine ⟨b, rest.takeWhile Text.isLower, hcapital.1.2, ?_, ?_, ?_, rfl⟩
      · cases rest with
        | nil => simp at hcapital
        | cons c later =>
          have hc : Text.isLower c = true := hcapital.2
          simp [hc]
      · exact fun c hc => List.mem_takeWhile_imp hc
      · rw [List.drop_succ_cons, drop_length_takeWhile, List.takeWhile_append_dropWhile]
    · cases hmatch

theorem head_replaceAll_capitalWords (cs : List Char) :
    (replaceAll .capitalWords cs).head? = cs.head? := by
  fun_cases replaceAll Pattern.capitalWords cs with
  | case1 => rfl
  | case2 a rest replacement taken hmatch =>
    obtain ⟨b, low, -, -, -, -, rfl⟩ := capitalWords_eq_some hmatch
    rfl
  | case3 a rest hmatch => rfl

/-- A run of lower-case letters in front of a text: nothing is marked inside it, and a capital
behind it is. -/
theorem marks_behind_lower {low : List Char} (hlow : ∀ c ∈ low, Text.isLower c = true)
    (hne : low ≠ []) (cs : List Char) :
    markRises (low ++ cs) =
        low ++ (if opens Text.isUpper cs then '_' :: markRises cs else markRises cs) ∧
      mark (low ++ cs) = low ++ (if opens Text.isUpper cs then '_' :: mark cs else mark cs) := by
  induction low with
  | nil => exact absurd rfl hne
  | cons c rest ih =>
    rw [List.forall_mem_cons] at hlow
    rw [List.cons_append, markRises_cons, mark_cons]
    cases rest with
    | nil =>
      by_cases hupper : opens Text.isUpper cs = true
      · simp [hlow.1, hupper]
      · simp [hupper]
    | cons d later =>
      have hd : Text.isUpper d = false := Text.not_upper_of_lower (hlow.2 d List.mem_cons_self)
      obtain ⟨hrises, hmark⟩ := ih hlow.2 (by simp)
      rw [hrises, hmark]
      simp [hd]

/-- A capital with lower-case letters behind it is marked by either pass. -/
theorem marks_at_capital {a b : Char} {low : List Char} (hupper : Text.isUpper b = true)
    (hlow : ∀ c ∈ low, Text.isLower c = true) (hne : low ≠ []) (cs : List Char) :
    markRises (a :: '_' :: b :: (low ++ cs)) = a :: '_' :: b :: markRises (low ++ cs) ∧
      mark (a :: b :: (low ++ cs)) = a :: '_' :: b :: mark (low ++ cs) := by
  obtain ⟨c, later, rfl⟩ := List.exists_cons_of_ne_nil hne
  have hc : Text.isLower c = true := hlow c List.mem_cons_self
  have hc' := Text.not_upper_of_lower hc
  constructor
  · rw [markRises_cons, markRises_cons, markRises_cons b]
    simp [underscore_kind, hc']
  · rw [mark_cons, mark_cons b]
    simp [hupper, hc, hc']

/-- A match for a capital may take the character before the next capital, but that is a lower-case
letter then, and the rise behind it is marked all the same. -/
theorem markRises_replaceAll_capitalWords (cs : List Char) (hline : '\n' ∉ cs) :
    markRises (replaceAll .capitalWords cs) = mark cs := by
  fun_induction replaceAll Pattern.capitalWords cs with
  | case1 => rfl
  | case2 a rest replacement taken hmatch ih =>
    obtain ⟨b, low, hupper, hne, hlow, hrest, rfl⟩ := capitalWords_eq_some hmatch
    have hbelow : '\n' ∉ rest.drop taken := fun hmem =>
      hline (List.mem_cons_of_mem a (List.mem_of_mem_drop hmem))
    have hmarked : mark (a :: rest) = a :: '_' :: b :: mark (low ++ rest.drop taken) := by
      nth_rewrite 1 [hrest]
      exact (marks_at_capital hupper hlow hne _).2
    rw [hmarked, (marks_behind_lower hlow hne _).2, ← ih hbelow]
    simp only [List.cons_append]
    rw [(marks_at_capital hupper hlow hne _).1, (marks_behind_lower hlow hne _).1,
      opens_congr (head_replaceAll_capitalWords _)]
  | case3 a rest hmatch ih =>
    rw [List.mem_cons, not_or] at hline
    rw [markRises_cons, opens_congr (head_replaceAll_capitalWords rest), ih hline.2, mark_cons]
    cases rest with
    | nil => simp
    | cons b rest =>
      have ha : a ≠ '\n' := fun h => hline.1 h.symm
      have hnone : Text.isUpper b = true → opens Text.isLower rest = false := by
        simpa [Pattern.capitalWords, ha] using hmatch
      by_cases hupper : Text.isUpper b = true
      · simp [hupper, hnone hupper]
      · simp [hupper]

/-- The four replacements give the snake spelling. -/
theorem replaced_eq_snake (text : String) : replaced text = snake text := by
  have hline : '\n' ∉ spaced false text.toList := by
    intro hmem
    rcases mem_spaced false text.toList hmem with halnum | hsep
    · exact absurd halnum (by decide)
    · exact absurd hsep (by decide)
  simp only [replaced, snake, replaceAll_separators, replaceAll_rises, replaceAll_underscores,
    markRises_replaceAll_capitalWords _ hline, markRises_markCapitals]

end RamlScaffold.Naming

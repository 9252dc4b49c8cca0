import RamlScaffold.Proofs.Naming.Replacement

/-!
Snake case as word splitting. `words` cuts a text twice: at everything that is no letter or digit,
and inside the runs that remain where the case of the letters shows that a word begins. The passes
of `snake` mark these cuts with underscores, more than one at times and also at the ends, and the
last passes leave one between neighbours. Runs are followed through all the passes, so the spelling
is the words in lower case with an underscore between them.
-/

namespace RamlScaffold.Naming

def runs (kind : Char → Bool) (cs : List Char) : List (List Char) :=
  (cs.splitOnP fun c => !kind c).filter fun run => !run.isEmpty

/-- Whether a word ends behind a letter or digit: a capital follows a lower-case letter or digit, or
a capital follows a capital and has a lower-case letter behind it. -/
def endsWord (a : Char) (rest : List Char) : Bool :=
  (Text.isLower a || Text.isDigit a) && opens Text.isUpper rest ||
    Text.isUpper a && opens Text.isUpper rest && opens Text.isLower rest.tail

def cutCase : List Char → List (List Char)
  | [] => []
  | a :: rest =>
    if rest.isEmpty || endsWord a rest then [a] :: cutCase rest
    else (cutCase rest).modifyHead (a :: ·)

def words (cs : List Char) : List (List Char) := (runs Text.isAlnum cs).flatMap cutCase

example : words "--HTTPServer2Go é".toList =
    ["HTTP".toList, "Server2".toList, "Go".toList] := by decide

/-- Words of lower-case letters and digits with an underscore between neighbours, as in
`[a-z0-9]+(_[a-z0-9]+)*`, or no word at all. -/
def IsJoined (name : String) : Prop :=
  ∃ ws : List (List Char), name.toList = ['_'].intercalate ws ∧
    ∀ w ∈ ws, w ≠ [] ∧ ∀ c ∈ w, Text.isLower c = true ∨ Text.isDigit c = true

def inWord (c : Char) : Bool := c != '_'

section Runs

variable {kind : Char → Bool} {c : Char} {cs ds : List Char}

@[simp] theorem runs_nil : runs kind [] = [] := rfl

theorem runs_cons_of_not (hc : kind c = false) (cs : List Char) :
    runs kind (c :: cs) = runs kind cs := by
  simp [runs, List.splitOnP_cons_eq_if_modifyHead, hc]

theorem runs_append_cons (hc : kind c = false) (cs ds : List Char) :
    runs kind (cs ++ c :: ds) = runs kind cs ++ runs kind ds := by
  rw [runs, List.splitOnP_append_cons _ _ (by simp [hc]), List.filter_append]
  rfl

theorem runs_of_forall (hcs : ∀ d ∈ cs, kind d = true) (hne : cs ≠ []) : runs kind cs = [cs] := by
  rw [runs, List.splitOnP_eq_singleton (by simpa using hcs)]
  simp [hne]

/-- A run goes as far as the kind does. -/
theorem runs_cons (hc : kind c = true) (cs : List Char) :
    runs kind (c :: cs) = (c :: cs.takeWhile kind) :: runs kind (cs.dropWhile kind) := by
  have hrun : ∀ d ∈ c :: cs.takeWhile kind, kind d = true :=
    List.forall_mem_cons.mpr ⟨hc, fun d hd => List.mem_takeWhile_imp hd⟩
  have hsplit : c :: cs = (c :: cs.takeWhile kind) ++ cs.dropWhile kind := by simp
  rw [hsplit]
  cases hrest : cs.dropWhile kind with
  | nil =>
    rw [List.append_nil, runs_of_forall hrun (by simp)]
    rfl
  | cons d ds =>
    have hd : kind d = false := by
      have hfirst := List.head?_dropWhile_not kind cs
      simpa [hrest] using hfirst
    rw [runs_append_cons hd, runs_of_forall hrun (by simp), runs_cons_of_not hd]
    rfl

theorem runs_cons_alone (hc : kind c = true) (hcs : opens kind cs = false) :
    runs kind (c :: cs) = [c] :: runs kind cs := by
  rw [runs_cons hc]
  cases cs with
  | nil => rfl
  | cons d ds =>
    have hd : kind d = false := hcs
    simp [hd]

theorem runs_cons_joined (hc : kind c = true) (hcs : opens kind cs = true) :
    runs kind (c :: cs) = (runs kind cs).modifyHead (c :: ·) := by
  cases cs with
  | nil => cases hcs
  | cons d ds =>
    have hd : kind d = true := hcs
    rw [runs_cons hc, runs_cons hd]
    simp [hd]

/-- What stands in front of a text matters to its runs by the first character only. -/
theorem runs_cons_congr (hhead : cs.head? = ds.head?) (hruns : runs kind cs = runs kind ds)
    (c : Char) : runs kind (c :: cs) = runs kind (c :: ds) := by
  have hopens : opens kind cs = opens kind ds := opens_congr hhead
  by_cases hc : kind c = true
  · by_cases hcs : opens kind cs = true
    · rw [runs_cons_joined hc hcs, runs_cons_joined hc (hopens ▸ hcs), hruns]
    · rw [Bool.not_eq_true] at hcs
      rw [runs_cons_alone hc hcs, runs_cons_alone hc (hopens ▸ hcs), hruns]
  · rw [Bool.not_eq_true] at hc
    rw [runs_cons_of_not hc, runs_cons_of_not hc, hruns]

theorem runs_map {f : Char → Char} (hf : ∀ c, kind (f c) = kind c) (cs : List Char) :
    runs kind (cs.map f) = (runs kind cs).map (List.map f) := by
  induction cs with
  | nil => rfl
  | cons c rest ih =>
    have hopens : opens kind (rest.map f) = opens kind rest := by
      cases rest with
      | nil => rfl
      | cons d ds => exact hf d
    rw [List.map_cons]
    by_cases hc : kind c = true
    · have hfc : kind (f c) = true := (hf c).trans hc
      by_cases hrest : opens kind rest = true
      · rw [runs_cons_joined hfc (hopens.trans hrest), runs_cons_joined hc hrest, ih]
        cases runs kind rest <;> rfl
      · rw [Bool.not_eq_true] at hrest
        rw [runs_cons_alone hfc (hopens.trans hrest), runs_cons_alone hc hrest, ih]
        rfl
    · rw [Bool.not_eq_true] at hc
      rw [runs_cons_of_not ((hf c).trans hc), runs_cons_of_not hc, ih]

theorem runs_dropWhile (cs : List Char) : runs kind (cs.dropWhile (!kind ·)) = runs kind cs := by
  induction cs with
  | nil => rfl
  | cons c rest ih =>
    by_cases hc : kind c = true
    · simp [hc]
    · rw [Bool.not_eq_true] at hc
      rw [List.dropWhile_cons_of_pos (by simp [hc]), ih, runs_cons_of_not hc]

theorem runs_rdropWhile (cs : List Char) : runs kind (cs.rdropWhile (!kind ·)) = runs kind cs := by
  induction cs using List.reverseRecOn with
  | nil => rfl
  | append_singleton rest c ih =>
    by_cases hc : kind c = true
    · rw [List.rdropWhile_concat_neg _ _ _ (by simp [hc])]
    · rw [Bool.not_eq_true] at hc
      rw [List.rdropWhile_concat_pos _ _ _ (by simp [hc]), ih, runs_append_cons hc, runs_nil,
        List.append_nil]

/-- The characters of the runs are those of the kind, in order. -/
theorem flatten_runs (cs : List Char) : (runs kind cs).flatten = cs.filter kind := by
  induction cs with
  | nil => rfl
  | cons c rest ih =>
    by_cases hc : kind c = true
    · rw [List.filter_cons_of_pos hc, ← ih]
      by_cases hrest : opens kind rest = true
      · rw [runs_cons_joined hc hrest]
        cases hruns : runs kind rest with
        | nil =>
          cases rest with
          | nil => cases hrest
          | cons d ds =>
            rw [runs_cons hrest] at hruns
            cases hruns
        | cons run more => rfl
      · rw [Bool.not_eq_true] at hrest
        rw [runs_cons_alone hc hrest]
        rfl
    · rw [List.filter_cons_of_neg hc, runs_cons_of_not ((Bool.not_eq_true _).mp hc), ih]

end Runs

theorem cutCase_ne_nil (a : Char) (rest : List Char) : cutCase (a :: rest) ≠ [] := by
  induction rest generalizing a with
  | nil => simp [cutCase]
  | cons b rest ih =>
    rw [cutCase]
    split
    · simp
    · simpa using ih b

theorem flatten_cutCase (run : List Char) : (cutCase run).flatten = run := by
  induction run with
  | nil => rfl
  | cons a rest ih =>
    rw [cutCase]
    split
    · rw [List.flatten_cons, ih]
      rfl
    · cases hwords : cutCase rest with
      | nil =>
        rw [hwords] at ih
        simp_all
      | cons w ws =>
        rw [hwords] at ih
        simpa using ih

theorem ne_nil_of_mem_cutCase {w : List Char} (run : List Char) (hw : w ∈ cutCase run) :
    w ≠ [] := by
  induction run generalizing w with
  | nil => cases hw
  | cons a rest ih =>
    rw [cutCase] at hw
    split at hw
    · rcases List.mem_cons.mp hw with rfl | hw
      · simp
      · exact ih hw
    · cases hwords : cutCase rest with
      | nil => simp [hwords] at hw
      | cons v vs =>
        rw [hwords, List.modifyHead_cons] at hw
        rcases List.mem_cons.mp hw with rfl | hw
        · simp
        · exact ih (by rw [hwords]; exact List.mem_cons_of_mem v hw)

theorem cutCase_of_not_upper {run : List Char} (hrun : ∀ c ∈ run, Text.isUpper c = false)
    (hne : run ≠ []) : cutCase run = [run] := by
  induction run with
  | nil => exact absurd rfl hne
  | cons a rest ih =>
    rw [List.forall_mem_cons] at hrun
    cases rest with
    | nil => simp [cutCase]
    | cons b rest =>
      have hb : Text.isUpper b = false := hrun.2 b List.mem_cons_self
      rw [cutCase, ih hrun.2 (by simp)]
      simp [endsWord, hb]

theorem flatten_words (cs : List Char) : (words cs).flatten = cs.filter Text.isAlnum := by
  rw [words, ← flatten_runs]
  induction runs Text.isAlnum cs with
  | nil => rfl
  | cons run rest ih =>
    rw [List.flatMap_cons, List.flatten_append, flatten_cutCase, ih, List.flatten_cons]

theorem ne_nil_of_mem_words {w cs : List Char} (hw : w ∈ words cs) : w ≠ [] := by
  obtain ⟨run, -, hw⟩ := List.mem_flatMap.mp hw
  exact ne_nil_of_mem_cutCase run hw

theorem isAlnum_of_mem_words {w cs : List Char} (hw : w ∈ words cs) :
    ∀ c ∈ w, Text.isAlnum c = true := by
  intro c hc
  have hmem : c ∈ (words cs).flatten := List.mem_flatten.mpr ⟨w, hw, hc⟩
  rw [flatten_words] at hmem
  exact (List.mem_filter.mp hmem).2

/-- Where a run ends makes no difference to where its words end. -/
theorem endsWord_takeWhile (a : Char) (cs : List Char) :
    endsWord a (cs.takeWhile Text.isAlnum) = endsWord a cs := by
  have hopens (kind : Char → Bool) (hkind : ∀ c, kind c = true → Text.isAlnum c = true)
      (cs : List Char) : opens kind (cs.takeWhile Text.isAlnum) = opens kind cs := by
    cases cs with
    | nil => rfl
    | cons c rest =>
      by_cases hc : Text.isAlnum c = true
      · simp [hc]
      · have hno : kind c = false := by
          rw [← Bool.not_eq_true]
          exact fun h => hc (hkind c h)
        simp [hc, hno]
  have hupper := hopens Text.isUpper fun c hc => (Text.isAlnum_iff c).mpr (Or.inl hc)
  have hlower := hopens Text.isLower fun c hc =>
    (Text.isAlnum_iff c).mpr (Or.inr (Or.inl hc))
  rw [endsWord, endsWord, hupper]
  cases cs with
  | nil => rfl
  | cons b rest =>
    by_cases hb : Text.isAlnum b = true
    · simp [hb, hlower]
    · have hno : Text.isUpper b = false := by
        rw [← Bool.not_eq_true]
        exact fun h => hb ((Text.isAlnum_iff b).mpr (Or.inl h))
      simp [hno]

theorem words_cons_of_not {a : Char} (ha : Text.isAlnum a = false) (cs : List Char) :
    words (a :: cs) = words cs := by
  rw [words, runs_cons_of_not ha, words]

theorem words_cons_alone {a : Char} {cs : List Char} (ha : Text.isAlnum a = true)
    (hcs : opens Text.isAlnum cs = false) : words (a :: cs) = [a] :: words cs := by
  rw [words, runs_cons_alone ha hcs, List.flatMap_cons, words]
  simp [cutCase]

theorem words_cons_joined {a : Char} {cs : List Char} (ha : Text.isAlnum a = true)
    (hcs : opens Text.isAlnum cs = true) :
    words (a :: cs) =
      if endsWord a cs then [a] :: words cs else (words cs).modifyHead (a :: ·) := by
  cases cs with
  | nil => cases hcs
  | cons b rest =>
    have hb : Text.isAlnum b = true := hcs
    have hends := endsWord_takeWhile a (b :: rest)
    rw [List.takeWhile_cons_of_pos hb] at hends
    rw [words, words, runs_cons ha, runs_cons hb, List.takeWhile_cons_of_pos hb,
      List.dropWhile_cons_of_pos hb, List.flatMap_cons, List.flatMap_cons, cutCase, hends]
    obtain ⟨w, ws, hwords⟩ := List.exists_cons_of_ne_nil
      (cutCase_ne_nil b (rest.takeWhile Text.isAlnum))
    rw [hwords]
    split
    · next hcut =>
      have hcut : endsWord a (b :: rest) = true := by simpa using hcut
      simp [hcut]
    · next hcut =>
      have hcut : endsWord a (b :: rest) = false := by simpa using hcut
      simp [hcut]

theorem head_mark (cs : List Char) : (mark cs).head? = cs.head? := by
  cases cs with
  | nil => rfl
  | cons a rest =>
    rw [mark_cons]
    split <;> rfl

/-- Behind a letter or digit a capital is marked where a word ends. -/
theorem endsWord_eq {a : Char} (ha : Text.isAlnum a = true) (rest : List Char) :
    endsWord a rest = (opens Text.isUpper rest &&
      (Text.isLower a || Text.isDigit a || opens Text.isLower rest.tail)) := by
  rw [endsWord]
  rcases (Text.isAlnum_iff a).mp ha with hupper | hlower | hdigit
  · have hlow := not_low_of_upper hupper
    rw [hlow, hupper]
    simp
  · simp [hlower, Text.not_upper_of_lower hlower]
  · simp [hdigit, Text.not_upper_of_digit hdigit]

theorem inWord_of_isAlnum {c : Char} (hc : Text.isAlnum c = true) : inWord c = true := by
  have hne : c ≠ '_' := by
    rintro rfl
    exact Bool.false_ne_true hc
  simpa [inWord] using hne

theorem runs_mark (cs : List Char) (hcs : ∀ c ∈ cs, Text.isAlnum c = true ∨ c = '_') :
    runs inWord (mark cs) = words cs := by
  induction cs with
  | nil => rfl
  | cons a rest ih =>
    rw [List.forall_mem_cons] at hcs
    have ih := ih hcs.2
    have hopens : opens inWord (mark rest) = opens Text.isAlnum rest := by
      rw [opens_congr (head_mark rest)]
      cases rest with
      | nil => rfl
      | cons b later =>
        rcases hcs.2 b List.mem_cons_self with hb | rfl
        · simp [hb, inWord_of_isAlnum hb]
        · rfl
    rcases hcs.1 with ha | rfl
    · have hin := inWord_of_isAlnum ha
      by_cases hrest : opens Text.isAlnum rest = true
      · rw [words_cons_joined ha hrest, endsWord_eq ha, mark_cons]
        split
        · rw [runs_cons_alone hin rfl, runs_cons_of_not rfl, ih]
        · rw [runs_cons_joined hin (hopens.trans hrest), ih]
      · rw [Bool.not_eq_true] at hrest
        have hupper : opens Text.isUpper rest = false := by
          cases rest with
          | nil => rfl
          | cons b later =>
            rcases hcs.2 b List.mem_cons_self with hb | rfl
            · rw [opens_cons, hb] at hrest
              cases hrest
            · rfl
        rw [words_cons_alone ha hrest, mark_cons, hupper, Bool.false_and,
          if_neg Bool.false_ne_true, runs_cons_alone hin (hopens.trans hrest), ih]
    · rw [words_cons_of_not rfl, mark_cons, ← ih]
      split
      · rw [runs_cons_of_not rfl, runs_cons_of_not rfl]
      · rw [runs_cons_of_not rfl]

theorem runs_spaced (inRun : Bool) (cs : List Char) :
    runs Text.isAlnum (spaced inRun cs) = runs Text.isAlnum cs := by
  induction cs generalizing inRun with
  | nil => rfl
  | cons c rest ih =>
    by_cases hc : Text.isAlnum c = true
    · have hhead : opens Text.isAlnum (spaced false rest) = opens Text.isAlnum rest := by
        cases rest with
        | nil => rfl
        | cons d later =>
          by_cases hd : Text.isAlnum d = true
          · simp [spaced, hd]
          · simp only [spaced, hd, opens_cons]
            rfl
      rw [spaced, if_pos hc]
      by_cases hrest : opens Text.isAlnum rest = true
      · rw [runs_cons_joined hc (hhead.trans hrest), runs_cons_joined hc hrest, ih]
      · rw [Bool.not_eq_true] at hrest
        rw [runs_cons_alone hc (hhead.trans hrest), runs_cons_alone hc hrest, ih]
    · rw [spaced, if_neg hc, runs_cons_of_not ((Bool.not_eq_true _).mp hc)]
      split
      · exact ih true
      · rw [runs_cons_of_not rfl]
        exact ih true

theorem inWord_lowerChar (c : Char) : inWord (Text.lowerChar c) = inWord c := by
  by_cases hc : Text.isUpper c = true
  · have hlower := Text.isLower_lowerChar hc
    rw [inWord_of_isAlnum ((Text.isAlnum_iff _).mpr (Or.inr (Or.inl hlower))),
      inWord_of_isAlnum ((Text.isAlnum_iff _).mpr (Or.inl hc))]
  · rw [Text.lowerChar_of_not_upper ((Bool.not_eq_true _).mp hc)]

theorem runs_collapse (cs : List Char) : runs inWord (collapse cs) = runs inWord cs := by
  fun_induction collapse cs with
  | case1 a b rest hboth ih =>
    obtain ⟨rfl, rfl⟩ : a = '_' ∧ b = '_' := by simpa using hboth
    rw [ih, runs_cons_of_not (c := '_') rfl ('_' :: rest)]
  | case2 a b rest hboth ih => exact runs_cons_congr (head_collapse _) ih a
  | case3 cs hshort => rfl

theorem runs_trim (cs : List Char) :
    runs inWord (Text.trimWhile (· == '_') cs) = runs inWord cs := by
  have hkind : (fun c : Char => c == '_') = (!inWord ·) := by
    funext c
    simp [inWord, bne]
  rw [Text.trimWhile, Text.dropTailWhile_eq_rdropWhile, hkind, runs_rdropWhile, runs_dropWhile]

/-- A text without needless underscores is its runs with an underscore between neighbours. -/
theorem intercalate_runs {cs : List Char} (hapart : cs.IsChain Apart) (hhead : '_' ∉ cs.head?)
    (hlast : '_' ∉ cs.getLast?) : ['_'].intercalate (runs inWord cs) = cs := by
  induction hlength : cs.length using Nat.strong_induction_on generalizing cs with
  | _ n ih =>
    cases cs with
    | nil => rfl
    | cons c rest =>
      have hc : inWord c = true := by
        have hne : c ≠ '_' := fun h => hhead (by simp [h])
        simpa [inWord] using hne
      have hsplit := List.takeWhile_append_dropWhile (p := inWord) (l := rest)
      rw [runs_cons hc]
      cases hrest : rest.dropWhile inWord with
      | nil =>
        rw [hrest, List.append_nil] at hsplit
        simp [hsplit]
      | cons d more =>
        -- An underscore follows the first run, and another run follows it.
        obtain rfl : d = '_' := by
          have hfirst := List.head?_dropWhile_not inWord rest
          simpa [hrest, inWord] using hfirst
        have hwhole : c :: rest = (c :: rest.takeWhile inWord) ++ '_' :: more := by
          rw [← hrest, List.cons_append, hsplit]
        have hne : more ≠ [] := by
          rintro rfl
          exact hlast (by rw [hwhole, List.getLast?_concat]; rfl)
        have hpiece : '_' :: more <:+: c :: rest :=
          ⟨c :: rest.takeWhile inWord, [], by rw [List.append_nil, ← hwhole]⟩
        have hbehind := List.IsChain.infix hapart hpiece
        have hchain := List.isChain_cons.mp hbehind
        have hshort : more.length < n := by
          rw [← hlength, hwhole, List.length_append, List.length_cons, List.length_cons]
          omega
        have hmore : ['_'].intercalate (runs inWord more) = more := by
          refine ih more.length hshort hchain.2 (fun h => hchain.1 '_' h ⟨rfl, rfl⟩) ?_ rfl
          intro h
          apply hlast
          rw [hwhole, List.getLast?_append, List.getLast?_cons]
          simp [Option.mem_def.mp h]
        have hruns : runs inWord more ≠ [] := by
          intro hnil
          rw [hnil] at hmore
          exact hne hmore.symm
        rw [runs_cons_of_not rfl, List.intercalate_cons_of_ne_nil hruns, hmore, hwhole]
        simp

def lowerWords (text : String) : List (List Char) :=
  (words text.toList).map (List.map Text.lowerChar)

theorem toList_snake (text : String) :
    (snake text).toList = ['_'].intercalate (lowerWords text) := by
  have hshaped := snakeShaped_snake text
  have hmarked : runs inWord (markRises (markCapitals (spaced false text.toList))) =
      words text.toList := by
    rw [markRises_markCapitals, runs_mark _ fun c hc => mem_spaced false _ hc, words, runs_spaced,
      words]
  have hruns : runs inWord (snake text).toList = lowerWords text := by
    rw [snake, String.toList_ofList, runs_trim, runs_collapse, runs_map inWord_lowerChar, hmarked,
      lowerWords]
  rw [← hruns, intercalate_runs hshaped.apart hshaped.head hshaped.last]

theorem lowerWords_form (text : String) :
    ∀ w ∈ lowerWords text, w ≠ [] ∧
      ∀ c ∈ w, Text.isLower c = true ∨ Text.isDigit c = true := by
  intro w hw
  obtain ⟨v, hv, rfl⟩ := List.mem_map.mp hw
  refine ⟨by simpa using ne_nil_of_mem_words hv, ?_⟩
  intro c hc
  obtain ⟨d, hd, rfl⟩ := List.mem_map.mp hc
  rcases (Text.isAlnum_iff d).mp (isAlnum_of_mem_words hv d hd) with hupper | hlower | hdigit
  · exact Or.inl (Text.isLower_lowerChar hupper)
  · rw [Text.lowerChar_of_not_upper (Text.not_upper_of_lower hlower)]
    exact Or.inl hlower
  · rw [Text.lowerChar_of_not_upper (Text.not_upper_of_digit hdigit)]
    exact Or.inr hdigit

theorem isJoined_snake (text : String) : IsJoined (snake text) :=
  ⟨lowerWords text, toList_snake text, lowerWords_form text⟩

/-- Words that are joined by underscores are found again. -/
theorem words_intercalate {ws : List (List Char)}
    (hws : ∀ w ∈ ws, w ≠ [] ∧ ∀ c ∈ w, Text.isLower c = true ∨ Text.isDigit c = true) :
    words (['_'].intercalate ws) = ws := by
  have hword {w : List Char}
      (hw : w ≠ [] ∧ ∀ c ∈ w, Text.isLower c = true ∨ Text.isDigit c = true) : words w = [w] := by
    have halnum : ∀ c ∈ w, Text.isAlnum c = true := fun c hc =>
      (Text.isAlnum_iff c).mpr (Or.inr (hw.2 c hc))
    have hlow : ∀ c ∈ w, Text.isUpper c = false := fun c hc =>
      (hw.2 c hc).elim Text.not_upper_of_lower Text.not_upper_of_digit
    rw [words, runs_of_forall halnum hw.1, List.flatMap_singleton, cutCase_of_not_upper hlow hw.1]
  induction ws with
  | nil => rfl
  | cons w rest ih =>
    rw [List.forall_mem_cons] at hws
    cases rest with
    | nil => simpa using hword hws.1
    | cons v later =>
      rw [List.intercalate_cons_of_ne_nil (by simp), List.append_assoc, List.singleton_append,
        words, runs_append_cons rfl, List.flatMap_append]
      exact congrArg₂ _ (hword hws.1) (ih hws.2)

theorem snake_of_isJoined {name : String} (hname : IsJoined name) : snake name = name := by
  obtain ⟨ws, hchars, hws⟩ := hname
  apply String.toList_inj.mp
  have hlow : ws.map (List.map Text.lowerChar) = ws := by
    rw [List.map_congr_left, List.map_id']
    intro w hw
    rw [List.map_congr_left, List.map_id']
    intro c hc
    exact Text.lowerChar_of_not_upper
      (((hws w hw).2 c hc).elim Text.not_upper_of_lower Text.not_upper_of_digit)
  rw [toList_snake, lowerWords, hchars, words_intercalate hws, hlow]

theorem filter_intercalate {ws : List (List Char)} (hws : ∀ w ∈ ws, '_' ∉ w) :
    (['_'].intercalate ws).filter inWord = ws.flatten := by
  have hword {w : List Char} (hw : '_' ∉ w) : w.filter inWord = w := by
    rw [List.filter_eq_self]
    intro c hc
    have hne : c ≠ '_' := fun h => hw (h ▸ hc)
    simpa [inWord] using hne
  induction ws with
  | nil => rfl
  | cons w rest ih =>
    rw [List.forall_mem_cons] at hws
    cases rest with
    | nil => simpa using hword hws.1
    | cons v later =>
      rw [List.intercalate_cons_of_ne_nil (by simp), List.filter_append, List.filter_append,
        hword hws.1, ih hws.2]
      simp [inWord]

theorem filter_snake (text : String) :
    (snake text).toList.filter inWord =
      (text.toList.filter Text.isAlnum).map Text.lowerChar := by
  have hwords : ∀ w ∈ lowerWords text, '_' ∉ w := by
    intro w hw hmem
    rcases (lowerWords_form text w hw).2 '_' hmem with hlower | hdigit
    · exact Bool.false_ne_true hlower
    · exact Bool.false_ne_true hdigit
  rw [toList_snake, filter_intercalate hwords, lowerWords, ← List.map_flatten, flatten_words]

/-- The snake spelling of a text is its words in lower case with an underscore between neighbours,
and four replacements come to the same. It keeps the letters and digits in order, and exactly the
texts that are joined words in lower case are their own spelling. -/
theorem snake_splits_words (text : String) :
    snake text = .ofList (['_'].intercalate (lowerWords text)) ∧ replaced text = snake text ∧
      IsJoined (snake text) ∧
      (snake text).toList.filter (· != '_') =
        (text.toList.filter Text.isAlnum).map Text.lowerChar ∧
      (snake text = text ↔ IsJoined text) ∧ snake (snake text) = snake text := by
  refine ⟨?_, replaced_eq_snake text, isJoined_snake text, filter_snake text,
    ⟨fun hsame => ?_, snake_of_isJoined⟩, snake_of_isJoined (isJoined_snake text)⟩
  · rw [← toList_snake, String.ofList_toList]
  · rw [← hsame]
    exact isJoined_snake text

end RamlScaffold.Naming

import Mathlib.Data.List.DropRight
import RamlScaffold.Client.Basic

/-!
The URL that requests start with. Whatever the base URI and the version, it is absolute and no slash
ends it, so that a path can be put behind it. A URL of this form is its own base URL for every
version exactly when the placeholder of the version does not occur in it.
-/

namespace RamlScaffold.Client

def Absolute (url : String) : Prop :=
  Text.startsWith "http://" url = true ∨ Text.startsWith "https://" url = true

/-- A URL that a path can be put behind. -/
structure Rooted (url : String) : Prop where
  absolute : Absolute url
  unslashed : Text.endsWith "/" url = false

/-- The last character of the URL and the first one of the path are both slashes. -/
def DoubledAtJoint (url path : String) : Prop :=
  ∃ before after, (url ++ path).toList = before ++ '/' :: '/' :: after ∧
    before.length + 1 = url.toList.length

def HasMark (text : String) : Prop := Text.hasInfix versionMark text.toList = true

theorem endsWith_slash_iff (url : String) :
    Text.endsWith "/" url = true ↔ url.toList.getLast? = some '/' := by
  rw [Text.endsWith, List.isSuffixOf_iff_suffix, List.getLast?_eq_some_iff]
  exact exists_congr fun before => eq_comm

theorem Rooted.getLast?_ne {url : String} (hurl : Rooted url) : url.toList.getLast? ≠ some '/' := by
  rw [ne_eq, ← endsWith_slash_iff, hurl.unslashed]
  exact Bool.false_ne_true

theorem Rooted.not_doubledAtJoint {url : String} (hurl : Rooted url) (path : String) :
    ¬ DoubledAtJoint url path := by
  rintro ⟨before, after, hjoined, hlength⟩
  have hsplit : url.toList ++ path.toList = (before ++ ['/']) ++ '/' :: after := by
    rw [← String.toList_append, hjoined, List.append_assoc, List.singleton_append]
  obtain ⟨hends, -⟩ := List.append_inj hsplit (by simp [← hlength])
  exact hurl.getLast?_ne (by rw [hends, List.getLast?_concat])

section

variable {part replacement cs : List Char} {fuel : Nat}

theorem replaceAll_of_not_hasInfix (hnone : Text.hasInfix part cs = false) :
    replaceAll part replacement fuel cs = cs := by
  induction fuel generalizing cs with
  | zero => rfl
  | succ fuel ih =>
    cases cs with
    | nil => rfl
    | cons c rest =>
      obtain ⟨hhere, hlater⟩ := Bool.or_eq_false_iff.mp hnone
      rw [replaceAll, hhere, if_neg Bool.false_ne_true, ih hlater]

/-- A replacement is written out at least once where there is something to replace. -/
theorem count_le_count_replaceAll (c : Char) (hpart : part ≠ [])
    (hsome : Text.hasInfix part cs = true) (hfuel : cs.length ≤ fuel) :
    replacement.count c ≤ (replaceAll part replacement fuel cs).count c := by
  induction fuel generalizing cs with
  | zero =>
    obtain rfl := List.length_eq_zero_iff.mp (Nat.le_zero.mp hfuel)
    exact absurd (List.isEmpty_iff.mp hsome) hpart
  | succ fuel ih =>
    cases cs with
    | nil => exact absurd (List.isEmpty_iff.mp hsome) hpart
    | cons d rest =>
      rw [replaceAll]
      split
      · rw [List.count_append]
        exact Nat.le_add_right _ _
      · next hother =>
        have hlater : Text.hasInfix part rest = true := by
          simpa [Text.hasInfix, hother] using hsome
        exact (ih hlater (Nat.le_of_succ_le_succ hfuel)).trans List.count_le_count_cons

end

/-- Trimming takes slashes only. -/
theorem count_dropWhile_slash (cs : List Char) {c : Char} (hc : c ≠ '/') :
    (cs.dropWhile (· == '/')).count c = cs.count c := by
  have hnone : (cs.takeWhile (· == '/')).count c = 0 :=
    List.count_eq_zero.mpr fun hmem => hc (by simpa using List.mem_takeWhile_imp hmem)
  have hsplit : cs.takeWhile (· == '/') ++ cs.dropWhile (· == '/') = cs :=
    List.takeWhile_append_dropWhile
  calc (cs.dropWhile (· == '/')).count c
      = (cs.takeWhile (· == '/') ++ cs.dropWhile (· == '/')).count c := by
        rw [List.count_append, hnone, Nat.zero_add]
    _ = cs.count c := by rw [hsplit]

theorem count_rdropWhile_slash (cs : List Char) {c : Char} (hc : c ≠ '/') :
    (cs.rdropWhile (· == '/')).count c = cs.count c := by
  rw [List.rdropWhile, List.count_reverse, count_dropWhile_slash _ hc, List.count_reverse]

def filled (baseUri version : String) : List Char :=
  replaceAll versionMark version.toList baseUri.toList.length baseUri.toList

def trimmed (baseUri version : String) : List Char :=
  (filled baseUri version).rdropWhile (· == '/')

/-- The trimmed URI itself, the default host alone, or the URI below the default host. -/
theorem baseUrl_cases (baseUri version : String) :
    (Absolute (.ofList (trimmed baseUri version)) ∧
      (baseUrl baseUri version).toList = trimmed baseUri version) ∨
    (¬ Absolute (.ofList (trimmed baseUri version)) ∧
      (trimmed baseUri version = [] ∧ baseUrl baseUri version = defaultHost ∨
       trimmed baseUri version ≠ [] ∧ (baseUrl baseUri version).toList =
        (defaultHost.toList ++ ['/']) ++ (trimmed baseUri version).dropWhile (· == '/'))) := by
  have htrim : Text.trimTailChar '/' (.ofList (filled baseUri version)) =
      .ofList (trimmed baseUri version) := by
    rw [Text.trimTailChar, String.toList_ofList]
    rfl
  have hurl : baseUrl baseUri version =
      if Text.startsWith "http://" (.ofList (trimmed baseUri version)) ||
          Text.startsWith "https://" (.ofList (trimmed baseUri version)) then
        .ofList (trimmed baseUri version)
      else if String.ofList (trimmed baseUri version) == "" then defaultHost
      else defaultHost ++ "/" ++ Text.trimHeadChar '/' (.ofList (trimmed baseUri version)) := by
    rw [← htrim]
    rfl
  rw [hurl]
  split
  · next habsolute =>
    exact .inl ⟨by simpa [Absolute] using habsolute, String.toList_ofList⟩
  · next habsolute =>
    refine .inr ⟨by simpa [Absolute] using habsolute, ?_⟩
    split
    · next hempty => exact .inl ⟨by simpa using hempty, rfl⟩
    · next hempty => exact .inr ⟨by simpa using hempty, by simp [Text.trimHeadChar]⟩

theorem getLast?_trimmed (baseUri version : String) :
    (trimmed baseUri version).getLast? ≠ some '/' := by
  intro hslash
  have hne : trimmed baseUri version ≠ [] := by
    intro hnil
    simp [hnil] at hslash
  rw [List.getLast?_eq_some_getLast hne, Option.some.injEq] at hslash
  exact List.rdropWhile_last_not _ (filled baseUri version) hne (beq_iff_eq.mpr hslash)

/-- A text that ends in another character is not used up by dropping slashes in front, and keeps
its end. -/
theorem dropWhile_slash_keeps_last {cs : List Char} (hne : cs ≠ [])
    (hlast : cs.getLast? ≠ some '/') :
    cs.dropWhile (· == '/') ≠ [] ∧ (cs.dropWhile (· == '/')).getLast? = cs.getLast? := by
  have hkept : cs.dropWhile (· == '/') ≠ [] := by
    intro hnil
    have hslash := List.dropWhile_eq_nil_iff.mp hnil _ (List.getLast_mem hne)
    exact hlast (by simpa [List.getLast?_eq_some_getLast hne] using hslash)
  have hsplit : cs.takeWhile (· == '/') ++ cs.dropWhile (· == '/') = cs :=
    List.takeWhile_append_dropWhile
  refine ⟨hkept, ?_⟩
  rw [← List.getLast?_append_of_ne_nil (cs.takeWhile (· == '/')) hkept, hsplit]

theorem rooted_of_getLast?_ne {url : String} (habsolute : Absolute url)
    (hlast : url.toList.getLast? ≠ some '/') : Rooted url := by
  refine ⟨habsolute, ?_⟩
  rwa [← Bool.not_eq_true, endsWith_slash_iff]

theorem rooted_baseUrl (baseUri version : String) : Rooted (baseUrl baseUri version) := by
  have hlast := getLast?_trimmed baseUri version
  rcases baseUrl_cases baseUri version with ⟨habsolute, hurl⟩ | ⟨-, ⟨-, hurl⟩ | ⟨hne, hurl⟩⟩
  · rw [← hurl] at hlast
    rw [← hurl, String.ofList_toList] at habsolute
    exact rooted_of_getLast?_ne habsolute hlast
  · rw [hurl]
    exact ⟨.inl (by decide), by decide⟩
  · obtain ⟨hkept, hends⟩ := dropWhile_slash_keeps_last hne hlast
    apply rooted_of_getLast?_ne
    · left
      rw [Text.startsWith, List.isPrefixOf_iff_prefix, hurl, List.append_assoc]
      exact .trans (by decide) (List.prefix_append _ _)
    · rwa [hurl, List.getLast?_append_of_ne_nil _ hkept, hends]

/-- A URL that needs no change is not changed. -/
theorem baseUrl_eq_self {url : String} (hurl : Rooted url) (hmark : ¬ HasMark url)
    (version : String) : baseUrl url version = url := by
  have hfilled : filled url version = url.toList :=
    replaceAll_of_not_hasInfix (by simpa [HasMark] using hmark)
  have htrimmed : trimmed url version = url.toList := by
    rw [trimmed, hfilled, List.rdropWhile_eq_self_iff]
    intro hne hslash
    exact hurl.getLast?_ne (by simpa [List.getLast?_eq_some_getLast hne] using hslash)
  rcases baseUrl_cases url version with ⟨-, hresult⟩ | ⟨hrelative, -⟩
  · exact String.toList_inj.mp (hresult.trans htrimmed)
  · rw [htrimmed, String.ofList_toList] at hrelative
    exact absurd hurl.absolute hrelative

theorem count_filled_le (baseUri version : String) {c : Char} (hc : c ≠ '/') :
    (filled baseUri version).count c ≤ (baseUrl baseUri version).toList.count c := by
  rw [← count_rdropWhile_slash _ hc, ← trimmed]
  rcases baseUrl_cases baseUri version with ⟨-, hurl⟩ | ⟨-, ⟨hnil, -⟩ | ⟨-, hurl⟩⟩
  · rw [hurl]
  · simp [hnil]
  · rw [hurl, List.count_append, count_dropWhile_slash _ hc]
    exact Nat.le_add_left _ _

/-- The URLs that stay as they are for every version. -/
theorem baseUrl_eq_self_iff (url : String) :
    (∀ version, baseUrl url version = url) ↔ Rooted url ∧ ¬ HasMark url := by
  constructor
  · intro hfixed
    refine ⟨hfixed "" ▸ rooted_baseUrl url "", fun hmark => ?_⟩
    -- A version longer than the whole URL cannot be written into it unseen.
    let long := String.ofList (List.replicate (url.toList.length + 1) 'v')
    have hlong : long.toList.count 'v' = url.toList.length + 1 := by simp [long]
    have hwritten : long.toList.count 'v' ≤ url.toList.count 'v' :=
      calc long.toList.count 'v'
          ≤ (filled url long).count 'v' :=
            count_le_count_replaceAll 'v' (by decide) hmark le_rfl
        _ ≤ (baseUrl url long).toList.count 'v' := count_filled_le url long (by decide)
        _ = url.toList.count 'v' := by rw [hfixed long]
    have hcount : url.toList.count 'v' ≤ url.toList.length := List.count_le_length
    omega
  · rintro ⟨hurl, hmark⟩ version
    exact baseUrl_eq_self hurl hmark version

/-- The base URL is absolute and no slash ends it, so that none is doubled where a path is put
behind it. Without a placeholder it is its own base URL for every version, and so is every URL of
this form. -/
theorem base_url_absolute_and_joinable (baseUri version : String) :
    Rooted (baseUrl baseUri version) ∧
    (∀ path, ¬ DoubledAtJoint (baseUrl baseUri version) path) ∧
    (¬ HasMark (baseUrl baseUri version) →
      ∀ other, baseUrl (baseUrl baseUri version) other = baseUrl baseUri version) ∧
    ((∀ other, baseUrl baseUri other = baseUri) ↔ Rooted baseUri ∧ ¬ HasMark baseUri) := by
  have hrooted := rooted_baseUrl baseUri version
  exact ⟨hrooted, hrooted.not_doubledAtJoint, baseUrl_eq_self hrooted, baseUrl_eq_self_iff baseUri⟩

/-- A version that brings a scheme and slashes of its own into a base URI of slashes. -/
theorem base_url_absolute_and_joinable_nested :
    baseUrl "///\x7bversion\x7d//" "https://h/" = "http://localhost:5000/https://h" ∧
      ¬ HasMark (baseUrl "///\x7bversion\x7d//" "https://h/") ∧
      baseUrl "http://localhost:5000/https://h" "v2" = "http://localhost:5000/https://h" := by
  have hurl : baseUrl "///\x7bversion\x7d//" "https://h/" = "http://localhost:5000/https://h" := by
    decide
  have hmark : ¬ HasMark (baseUrl "///\x7bversion\x7d//" "https://h/") := by
    rw [hurl]
    exact Bool.false_ne_true
  obtain ⟨-, -, hfixed, -⟩ := base_url_absolute_and_joinable "///\x7bversion\x7d//" "https://h/"
  refine ⟨hurl, hmark, ?_⟩
  rw [← hurl]
  exact hfixed hmark "v2"

end RamlScaffold.Client

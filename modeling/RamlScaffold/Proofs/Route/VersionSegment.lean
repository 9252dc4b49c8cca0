import RamlScaffold.Proofs.Route.Item

/-!
The version at the start of a URI. It is dropped as a whole segment or not at all: the first segment
goes if it is the version and a slash follows it, and no other segment ever does. All slashes before
the version are dropped with it, but only one of those behind it. The path below the version
therefore starts with a single slash exactly when no second slash follows the version.
-/

namespace RamlScaffold

namespace Uri

/-- A text is slashes, its first segment, and what follows from the next slash on. -/
structure FirstSegment (cs slashes segment rest : List Char) : Prop where
  spelled : cs = slashes ++ (segment ++ rest)
  leading : ∀ c ∈ slashes, c = '/'
  nonempty : segment ≠ []
  unbroken : '/' ∉ segment
  ends : rest = [] ∨ rest.head? = some '/'

theorem FirstSegment.dropWhile_slash {cs slashes segment rest : List Char}
    (hfirst : FirstSegment cs slashes segment rest) :
    cs.dropWhile (· == '/') = segment ++ rest := by
  obtain ⟨c, more, rfl⟩ := List.exists_cons_of_ne_nil hfirst.nonempty
  have hc : c ≠ '/' := fun hsame => hfirst.unbroken (hsame ▸ List.mem_cons_self)
  rw [hfirst.spelled, List.dropWhile_append_of_pos (by simpa using hfirst.leading),
    List.cons_append, List.dropWhile_cons_of_neg (by simpa using hc)]

end Uri

namespace Endpoint

open Uri (FirstSegment)

/-- The first segment of a URI is the version, and `rest` follows it behind a slash. -/
def VersionBefore (version uri : String) (rest : List Char) : Prop :=
  ∃ slashes, FirstSegment uri.toList slashes version.toList ('/' :: rest)

variable {version uri : String} {rest : List Char}

theorem below_of_versionBefore (hbefore : VersionBefore version uri rest) :
    below version.toList uri.toList = rest := by
  obtain ⟨slashes, hfirst⟩ := hbefore
  simp [below, hfirst.dropWhile_slash]

/-- A version that is a segment can only be dropped as the first one. -/
theorem below_of_not_versionBefore (hne : version ≠ "") (hplain : '/' ∉ version.toList)
    (hother : ∀ rest, ¬ VersionBefore version uri rest) :
    below version.toList uri.toList = uri.toList.dropWhile (· == '/') := by
  unfold below
  dsimp only
  rw [if_neg]
  rintro ⟨rest, hrest⟩
  rw [List.append_assoc, List.singleton_append] at hrest
  refine hother rest ⟨uri.toList.takeWhile (· == '/'), ?_, ?_, by simpa using hne, hplain, .inr rfl⟩
  · rw [hrest, List.takeWhile_append_dropWhile]
  · intro c hc
    simpa using List.mem_takeWhile_imp hc

theorem head?_dropWhile_slash (cs : List Char) : (cs.dropWhile (· == '/')).head? ≠ some '/' := by
  intro hslash
  have hhead := List.head?_dropWhile_not (· == '/') cs
  rw [hslash] at hhead
  cases hhead

/-- A second slash starts the path below the version exactly when two slashes follow the version. -/
theorem head?_below (hne : version ≠ "") (hplain : '/' ∉ version.toList) :
    (below version.toList uri.toList).head? = some '/' ↔
      ∃ rest, VersionBefore version uri ('/' :: rest) := by
  constructor
  · intro hslash
    by_cases hbefore : ∃ rest, VersionBefore version uri rest
    · obtain ⟨rest, hrest⟩ := hbefore
      rw [below_of_versionBefore hrest] at hslash
      obtain ⟨more, rfl⟩ := List.head?_eq_some_iff.mp hslash
      exact ⟨more, hrest⟩
    · rw [below_of_not_versionBefore hne hplain (not_exists.mp hbefore)] at hslash
      exact absurd hslash (head?_dropWhile_slash _)
  · rintro ⟨rest, hrest⟩
    rw [below_of_versionBefore hrest]
    rfl

theorem segments_of_leading (slashes : List Char) {text : String}
    (hslashes : ∀ c ∈ slashes, c = '/') (huri : uri.toList = slashes ++ text.toList) :
    segments uri = segments text := by
  rw [← String.ofList_toList (s := uri), huri, segments_leading hslashes, String.ofList_toList]

theorem segments_dropVersion (version uri : String) :
    segments (dropVersion version uri) =
      segments (.ofList (below version.toList uri.toList)) := by
  apply segments_of_leading ['/'] (by simp)
  rw [toList_dropVersion, String.toList_ofList, List.singleton_append]

theorem segments_of_versionBefore (hbefore : VersionBefore version uri rest) :
    segments uri = version :: segments (dropVersion version uri) := by
  rw [segments_dropVersion, below_of_versionBefore hbefore]
  obtain ⟨slashes, hfirst⟩ := hbefore
  have hversion : segments version = [version] := by
    have hword := segments_word hfirst.nonempty hfirst.unbroken
    rwa [String.ofList_toList] at hword
  have htext : (String.ofList (version.toList ++ '/' :: rest)).toList =
      version.toList ++ '/' :: (String.ofList rest).toList := by
    simp
  have hspelled : uri.toList = slashes ++ (String.ofList (version.toList ++ '/' :: rest)).toList :=
    hfirst.spelled.trans (by rw [String.toList_ofList])
  rw [segments_of_leading slashes hfirst.leading hspelled, segments_of_append htext, hversion,
    List.singleton_append]

theorem segments_of_not_versionBefore (hne : version ≠ "") (hplain : '/' ∉ version.toList)
    (hother : ∀ rest, ¬ VersionBefore version uri rest) :
    segments (dropVersion version uri) = segments uri := by
  rw [segments_dropVersion, below_of_not_versionBefore hne hplain hother]
  symm
  apply segments_of_leading (uri.toList.takeWhile (· == '/'))
  · intro c hc
    simpa using List.mem_takeWhile_imp hc
  · rw [String.toList_ofList, List.takeWhile_append_dropWhile]

/-- A version that is a segment is dropped from a URI exactly as a segment: the first segment goes
if it is the version and a slash follows it, and otherwise all segments stay. The path that is left
starts with a slash, and with one only exactly when the version is not followed by two. -/
theorem version_dropped_as_segment_iff (hne : version ≠ "") (hplain : '/' ∉ version.toList)
    (uri : String) :
    (∃ path, (dropVersion version uri).toList = '/' :: path ∧
      (path.head? ≠ some '/' ↔ ¬ ∃ rest, VersionBefore version uri ('/' :: rest))) ∧
    (∀ rest, VersionBefore version uri rest →
      segments uri = version :: segments (dropVersion version uri)) ∧
    ((¬ ∃ rest, VersionBefore version uri rest) →
      segments (dropVersion version uri) = segments uri) := by
  refine ⟨⟨_, toList_dropVersion version uri, not_congr (head?_below hne hplain)⟩, ?_, ?_⟩
  · intro rest hbefore
    exact segments_of_versionBefore hbefore
  · intro hother
    exact segments_of_not_versionBefore hne hplain (not_exists.mp hother)

/-- The version twice behind several slashes: one of the two stays. -/
theorem version_dropped_as_segment_iff_repeated :
    VersionBefore "v1" "//v1/v1/users" "v1/users".toList ∧
      dropVersion "v1" "//v1/v1/users" = "/v1/users" ∧
      segments "//v1/v1/users" = "v1" :: segments "/v1/users" := by
  have hbefore : VersionBefore "v1" "//v1/v1/users" "v1/users".toList :=
    ⟨['/', '/'], by decide, by simp, by decide, by decide, .inr rfl⟩
  have hpath : dropVersion "v1" "//v1/v1/users" = "/v1/users" := by decide
  have hdropped := @version_dropped_as_segment_iff "v1" (by decide) (by decide) "//v1/v1/users"
  refine ⟨hbefore, hpath, ?_⟩
  rw [← hpath]
  exact hdropped.2.1 _ hbefore

/-- Of several slashes at the start of a URI one is kept, of several behind the version all but
one. -/
theorem slashes_behind_version_kept :
    dropVersion "v1" "//users" = "/users" ∧ dropVersion "v1" "//v1/users" = "/users" ∧
      dropVersion "v1" "/v1//users" = "//users" := by
  decide

end Endpoint

end RamlScaffold

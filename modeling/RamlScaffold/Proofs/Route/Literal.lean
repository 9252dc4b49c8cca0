import RamlScaffold.Proofs.Storage.Names
import RamlScaffold.Route.Group

/-!
The last literal segment of a URI, after which a group is named. It is told by the text alone:
nothing but slashes and segments between braces comes after it, and it does not itself stand between
braces. Every URI either has one such segment or consists of slashes and segments between braces
only, and the name that grouping goes by is then a fixed one.
-/

namespace RamlScaffold

namespace Uri

def InBraces (segment : List Char) : Prop := ∃ name, segment = '\x7b' :: (name ++ ['\x7d'])

/-- What may follow a segment: slashes, and behind a slash a segment between braces. -/
inductive ParamsOnly : List Char → Prop where
  | nil : ParamsOnly []
  | slash {rest : List Char} (hrest : ParamsOnly rest) : ParamsOnly ('/' :: rest)
  | param {segment rest : List Char} (hplain : '/' ∉ segment) (hbraces : InBraces segment)
    (hrest : ParamsOnly rest) : ParamsOnly ('/' :: (segment ++ rest))

structure LastLiteral (cs before segment after : List Char) : Prop where
  spelled : cs = before ++ (segment ++ after)
  starts : before = [] ∨ before.getLast? = some '/'
  nonempty : segment ≠ []
  unbroken : '/' ∉ segment
  literal : ¬ InBraces segment
  behind : ParamsOnly after

/-- The text that the group of a URI is named after. A URI of parameters only need not start with a
slash, so one is put in front of it. -/
inductive NamedAfter (uri : String) : String → Prop where
  | segment {before segment after : List Char}
    (hlast : LastLiteral uri.toList before segment after) : NamedAfter uri (.ofList segment)
  | fallback (hparams : ParamsOnly ('/' :: uri.toList)) : NamedAfter uri "resource"

variable {cs word rest before segment after : List Char}

theorem ParamsOnly.head_slash (hrest : ParamsOnly rest) : rest = [] ∨ rest.head? = some '/' := by
  cases hrest with
  | nil => exact .inl rfl
  | slash | param => exact .inr rfl

/-- A first segment before parameters is a parameter too, or it is the last literal one. -/
theorem paramsOnly_or_lastLiteral (hplain : '/' ∉ word) (hrest : ParamsOnly rest) :
    ParamsOnly ('/' :: (word ++ rest)) ∨ LastLiteral (word ++ rest) [] word rest := by
  by_cases hempty : word = []
  · rw [hempty]
    exact .inl (.slash hrest)
  by_cases hbraces : InBraces word
  · exact .inl (.param hplain hbraces hrest)
  · exact .inr ⟨rfl, .inl rfl, hempty, hplain, hbraces, hrest⟩

theorem LastLiteral.below (hlast : LastLiteral cs before segment after) (first : List Char) :
    LastLiteral (first ++ '/' :: cs) (first ++ '/' :: before) segment after where
  spelled := by simp [hlast.spelled]
  starts := by
    rcases hlast.starts with hnone | hslash
    · simp [hnone]
    · obtain ⟨above, rfl⟩ := List.getLast?_eq_some_iff.mp hslash
      rw [← List.cons_append, ← List.append_assoc, List.getLast?_concat]
      exact .inr rfl
  nonempty := hlast.nonempty
  unbroken := hlast.unbroken
  literal := hlast.literal
  behind := hlast.behind

theorem exists_lastLiteral (cs : List Char) :
    ParamsOnly ('/' :: cs) ∨ ∃ before segment after, LastLiteral cs before segment after := by
  -- The induction takes off the first segment with its slash: what is left decides, and only when
  -- it holds parameters alone does the first segment count.
  by_cases hslash : '/' ∈ cs
  · obtain ⟨word, rest, hcs, hplain⟩ := List.eq_append_cons_of_mem hslash
    have hshorter : rest.length < cs.length := by
      rw [hcs, List.length_append, List.length_cons]
      omega
    rcases exists_lastLiteral rest with hparams | ⟨before, segment, after, hlast⟩
    · rw [hcs]
      exact (paramsOnly_or_lastLiteral hplain hparams).imp_right fun h => ⟨_, _, _, h⟩
    · rw [hcs]
      exact .inr ⟨_, _, _, hlast.below word⟩
  · have hwhole := paramsOnly_or_lastLiteral hslash .nil
    rw [List.append_nil] at hwhole
    exact hwhole.imp_right fun h => ⟨_, _, _, h⟩
termination_by cs.length

theorem exists_namedAfter (uri : String) : ∃ name, NamedAfter uri name := by
  rcases exists_lastLiteral uri.toList with hparams | ⟨_, _, _, hlast⟩
  · exact ⟨_, .fallback hparams⟩
  · exact ⟨_, .segment hlast⟩

end Uri

namespace Endpoint

open Uri (InBraces LastLiteral NamedAfter ParamsOnly)

theorem isParamSegment_iff {segment : List Char} :
    isParamSegment (.ofList segment) = true ↔ InBraces segment := by
  rw [isParamSegment, Bool.and_eq_true, beq_iff_eq, beq_iff_eq, String.toList_ofList]
  constructor
  · rintro ⟨hopens, hcloses⟩
    obtain ⟨inner, rfl⟩ := List.head?_eq_some_iff.mp hopens
    cases inner with
    | nil => simp at hcloses
    | cons c inner =>
      rw [List.getLast?_cons_cons] at hcloses
      obtain ⟨name, hname⟩ := List.getLast?_eq_some_iff.mp hcloses
      exact ⟨name, by rw [hname]⟩
  · rintro ⟨name, rfl⟩
    rw [← List.cons_append, List.getLast?_concat]
    exact ⟨rfl, rfl⟩

theorem segments_of_append {uri first rest : String}
    (huri : uri.toList = first.toList ++ '/' :: rest.toList) :
    segments uri = segments first ++ segments rest := by
  rw [segments, Text.splitOn_of_append huri, List.filter_append]
  rfl

theorem segments_word {word : List Char} (hne : word ≠ []) (hplain : '/' ∉ word) :
    segments (.ofList word) = [.ofList word] := by
  have hnonempty : String.ofList word ≠ "" := by simpa using hne
  rw [segments, Text.splitOn_plain (by simpa using hplain)]
  simpa using hnonempty

theorem segments_slash_cons (rest : List Char) :
    segments (.ofList ('/' :: rest)) = segments (.ofList rest) :=
  @segments_of_append (.ofList ('/' :: rest)) "" (.ofList rest) (by simp)

/-- Slashes in front of a text add no segment. -/
theorem segments_leading {slashes : List Char} (hslashes : ∀ c ∈ slashes, c = '/')
    (rest : List Char) : segments (.ofList (slashes ++ rest)) = segments (.ofList rest) := by
  induction slashes with
  | nil => rfl
  | cons c slashes ih =>
    obtain ⟨rfl, hmore⟩ := List.forall_mem_cons.mp hslashes
    rw [List.cons_append, segments_slash_cons, ih hmore]

theorem segments_concat_slash (first : List Char) :
    segments (.ofList (first ++ ['/'])) = segments (.ofList first) := by
  rw [@segments_of_append (.ofList (first ++ ['/'])) (.ofList first) "" (by simp)]
  exact List.append_nil _

/-- A URI may be cut before a slash. -/
theorem segments_before_slash (first : List Char) {rest : List Char}
    (hrest : rest = [] ∨ rest.head? = some '/') :
    segments (.ofList (first ++ rest)) = segments (.ofList first) ++ segments (.ofList rest) := by
  rcases hrest with rfl | hslash
  · rw [List.append_nil]
    exact (List.append_nil _).symm
  · obtain ⟨below, rfl⟩ := List.head?_eq_some_iff.mp hslash
    rw [segments_slash_cons]
    exact segments_of_append (by simp)

/-- A URI may be cut behind a slash. -/
theorem segments_behind_slash {first : List Char} (rest : List Char)
    (hfirst : first = [] ∨ first.getLast? = some '/') :
    segments (.ofList (first ++ rest)) = segments (.ofList first) ++ segments (.ofList rest) := by
  rcases hfirst with rfl | hslash
  · rfl
  · obtain ⟨above, rfl⟩ := List.getLast?_eq_some_iff.mp hslash
    rw [segments_concat_slash]
    exact segments_of_append (by simp)

theorem isParamSegment_of_paramsOnly {cs : List Char} (hparams : ParamsOnly cs) :
    ∀ s ∈ segments (.ofList cs), isParamSegment s = true := by
  induction hparams with
  | nil => decide
  | slash _ ih =>
    rw [segments_slash_cons]
    exact ih
  | @param segment rest hplain hbraces hrest ih =>
    have hne : segment ≠ [] := by
      obtain ⟨name, rfl⟩ := hbraces
      exact List.cons_ne_nil _ _
    rw [segments_slash_cons, segments_before_slash segment hrest.head_slash,
      segments_word hne hplain, List.singleton_append]
    exact List.forall_mem_cons.mpr ⟨isParamSegment_iff.mpr hbraces, ih⟩

theorem literals_of_paramsOnly {cs : List Char} (hparams : ParamsOnly cs) :
    (segments (.ofList cs)).filter (fun s => !isParamSegment s) = [] := by
  rw [List.filter_eq_nil_iff]
  intro s hs
  simp [isParamSegment_of_paramsOnly hparams s hs]

theorem groupOf_of_lastLiteral {uri : String} {before segment after : List Char}
    (hlast : LastLiteral uri.toList before segment after) : groupOf uri = .ofList segment := by
  have hsegments : segments uri =
      segments (.ofList before) ++ (.ofList segment :: segments (.ofList after)) := by
    rw [← String.ofList_toList (s := uri), hlast.spelled, segments_behind_slash _ hlast.starts,
      segments_before_slash _ hlast.behind.head_slash,
      segments_word hlast.nonempty hlast.unbroken, List.singleton_append]
  have hliteral : isParamSegment (.ofList segment) = false :=
    Bool.eq_false_iff.mpr fun hparam => hlast.literal (isParamSegment_iff.mp hparam)
  rw [groupOf, hsegments, List.filter_append, List.filter_cons, hliteral,
    literals_of_paramsOnly hlast.behind]
  simp

/-- Grouping goes by the last literal segment. -/
theorem groupOf_of_namedAfter {uri name : String} (hname : NamedAfter uri name) :
    groupOf uri = name := by
  cases hname with
  | segment hlast => exact groupOf_of_lastLiteral hlast
  | fallback hparams =>
    have hnone := literals_of_paramsOnly hparams
    rw [segments_slash_cons, String.ofList_toList] at hnone
    rw [groupOf, hnone]
    rfl

theorem namedAfter_iff {uri name : String} : NamedAfter uri name ↔ name = groupOf uri := by
  constructor
  · intro hname
    exact (groupOf_of_namedAfter hname).symm
  · rintro rfl
    obtain ⟨name, hname⟩ := Uri.exists_namedAfter uri
    rwa [groupOf_of_namedAfter hname]

end Endpoint

end RamlScaffold

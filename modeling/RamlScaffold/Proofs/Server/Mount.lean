import RamlScaffold.Proofs.Artifact.Reading
import RamlScaffold.Proofs.Route.Collision
import RamlScaffold.Proofs.Route.Item
import RamlScaffold.Proofs.Server.Version
import RamlScaffold.Server.Files

/-!
Where a server is mounted. The check of the settings looks at the version without the blanks around
it, while everything else uses the version as it is given: as the first segment to drop from a URI,
and between the quotes of the prefix in the factory and in the tests. All of these uses are what the
check promises exactly when there are no blanks around the version.
-/

namespace RamlScaffold

namespace Uri

/-- Characters with which no placeholder starts stay before whatever is put in. -/
theorem substitute_append {before : String} (hbefore : '\x7b' ∉ before.toList) (path : String)
    (texts : List String) :
    substitute (before ++ path) texts = before ++ substitute path texts := by
  obtain ⟨head, holes, hcut⟩ := cut_exists path.toList
  have hwhole : Cut (before ++ path).toList (before.toList ++ head) holes := by
    rw [String.toList_append]
    exact hcut.prepend hbefore
  have hlayout : layout (before.toList ++ head) holes =
      before.toList.map .char ++ layout head holes := by
    simp [layout]
  apply String.toList_inj.mp
  rw [substitute, substitute, hwhole.split_eq, hcut.split_eq, hlayout, fill_chars]
  simp

end Uri

namespace Endpoint

structure BoundFrom (e : Endpoint) (path : String) : Prop where
  routePath : e.routePath = routeRule path e.params
  testPath : e.testPath = samplePath path e.params

/-- A first segment is dropped only if it is the whole version. -/
theorem below_segment {version word : List Char} (hversion : '/' ∉ version) (hword : '/' ∉ word)
    (hne : word ≠ []) (rest : List Char) :
    below version ('/' :: (word ++ '/' :: rest)) =
      if version = word then rest else word ++ '/' :: rest := by
  have hrelative : ('/' :: (word ++ '/' :: rest)).dropWhile (· == '/') = word ++ '/' :: rest := by
    obtain ⟨c, more, rfl⟩ := List.exists_cons_of_ne_nil hne
    have hc : c ≠ '/' := fun hsame => hword (hsame ▸ List.mem_cons_self)
    simp [hc]
  have hfirst {cs : List Char} (hcs : '/' ∉ cs) (after : List Char) :
      (cs ++ '/' :: after).takeWhile (· != '/') = cs := by
    rw [List.takeWhile_append_of_pos]
    · simp
    · intro c hc
      simpa using fun hsame : c = '/' => hcs (hsame ▸ hc)
  have hstart : version ++ ['/'] <+: word ++ '/' :: rest ↔ version = word := by
    constructor
    · rintro ⟨after, hsplit⟩
      rw [List.append_assoc, List.singleton_append] at hsplit
      rw [← hfirst hversion after, hsplit, hfirst hword]
    · rintro rfl
      exact ⟨rest, by simp⟩
  simp only [below, hrelative, hstart]
  split
  · next hsame => simp [hsame]
  · rfl

/-- A path under a segment is bound without the segment exactly when that is the version. -/
theorem boundFrom_iff {version word rest : String} (hversion : '/' ∉ version.toList)
    (hword : '/' ∉ word.toList) (hbrace : '\x7b' ∉ word.toList) (hne : word ≠ "")
    (group : GroupName) (taken : List String) {r : Resource}
    (huri : r.uri = "/" ++ word ++ "/" ++ rest) :
    (ofResource group version taken r).BoundFrom ("/" ++ rest) ↔ version = word := by
  have hbelow := below_segment hversion hword (by simpa using hne) rest.toList
  have hdropped : dropVersion version r.uri =
      if version = word then "/" ++ rest else "/" ++ word ++ ("/" ++ rest) := by
    apply String.toList_inj.mp
    rw [toList_dropVersion, huri]
    simp only [String.toList_inj] at hbelow
    have htext : ("/" ++ word ++ "/" ++ rest).toList =
        '/' :: (word.toList ++ '/' :: rest.toList) := by
      simp
    rw [htext, hbelow]
    split <;> simp
  constructor
  · intro hbound
    by_contra hother
    have hroute := hbound.routePath
    simp only [ofResource, hdropped, if_neg hother, routeRule] at hroute
    rw [Uri.substitute_append (by simpa using hbrace)] at hroute
    have hlength := congrArg (fun s => s.toList.length) hroute
    simp only [String.toList_append, List.length_append] at hlength
    have hslash : "/".toList.length = 1 := rfl
    omega
  · intro hsame
    rw [if_pos hsame] at hdropped
    constructor
    · simp only [ofResource, hdropped]
    · simp only [ofResource, hdropped]

end Endpoint

namespace Code.Within

theorem reads_self {scope : Fields String} {cs : List Char}
    (hcs : ∀ c ∈ cs, c ≠ '\'' ∧ c ≠ '\\' ∧ isBreak c = false) :
    Reads false scope .text cs .text cs := by
  induction cs with
  | nil => rfl
  | cons c rest ih =>
    obtain ⟨⟨hquote, hescape, hbreak⟩, hrest⟩ := List.forall_mem_cons.mp hcs
    rw [← List.singleton_append]
    exact (reads_plain hquote hescape hbreak (by simp)).append (ih hrest)

end Code.Within

namespace ServerSettings

/-- Versions that are one segment of plain characters. -/
def IsSegment (version : String) : Prop :=
  version ≠ "" ∧ version.toList.all isVersionChar = true

def mount (s : ServerSettings) : String := "'/api/" ++ s.apiVersion ++ "'"

variable {settings : ServerSettings}

theorem not_isBlank_of_isVersionChar {c : Char} (hc : isVersionChar c = true) :
    Text.isBlank c = false := by
  obtain ⟨hlow, hhigh⟩ := printed_of_isVersionChar hc
  exact ImportLine.not_isBlank_of_printed hlow hhigh

theorem isSegment_trim_of_check (hcheck : settings.check = .ok ()) :
    IsSegment (Text.trim settings.apiVersion) := by
  unfold check at hcheck
  dsimp only at hcheck
  split_ifs at hcheck with hempty hsegment
  exact ⟨by simpa using hempty, by simpa using hsegment⟩

/-- A segment has no blanks to trim. -/
theorem trim_eq_self_of_isSegment {version : String} (hsegment : IsSegment version) :
    Text.trim version = version := by
  have hplain : ∀ c ∈ version.toList, Text.isBlank c = false := fun c hc =>
    not_isBlank_of_isVersionChar (List.all_eq_true.mp hsegment.2 c hc)
  rw [Text.trim, Text.trimWhile_eq_self, String.ofList_toList]
  · intro c hc
    exact hplain c (List.mem_of_mem_head? hc)
  · intro c hc
    exact hplain c (List.mem_of_getLast? hc)

/-- The literal breaks off at a line break among the blanks; otherwise it has the version in it. -/
theorem value?_mount (hcheck : settings.check = .ok ()) :
    Code.value? [] settings.mount =
      if '\n' ∈ settings.apiVersion.toList ∨ '\r' ∈ settings.apiVersion.toList then none
      else some ("/api/" ++ settings.apiVersion) := by
  have hspelled : settings.mount.toList =
      '\'' :: (("/api/" ++ settings.apiVersion).toList ++ ['\'']) := by
    simp [mount]
  split
  · next hbreak =>
    cases hvalue : Code.value? [] settings.mount with
    | none => rfl
    | some value =>
      have hfits := Code.not_isBreak_of_value? hvalue
      rcases hbreak with hline | hreturn
      · exact absurd (hfits '\n' (by simp [hspelled, hline])) (by decide)
      · exact absurd (hfits '\r' (by simp [hspelled, hreturn])) (by decide)
  · next hbreak =>
    rw [not_or] at hbreak
    have hversion : Code.Within.Reads false [] .text settings.apiVersion.toList .text
        settings.apiVersion.toList := by
      apply Code.Within.reads_self
      intro c hc
      have hother (d : Char) (hd : d ∉ settings.apiVersion.toList) : c ≠ d :=
        fun hsame => hd (hsame ▸ hc)
      have hquote := hother '\'' (notMem_of_check hcheck (by decide))
      have hescape := hother '\\' (notMem_of_check hcheck (by decide))
      have hnull := hother '\x00' (notMem_of_check hcheck (by decide))
      refine ⟨hquote, hescape, ?_⟩
      simp [Code.Within.isBreak, hother '\n' hbreak.1, hother '\r' hbreak.2, hnull]
    have hmount : Code.Within.Reads false [] .text "/api/".toList .text "/api/".toList := rfl
    have hvalue := Code.Within.bodyValue?_of_reads (hmount.append hversion)
    rw [← String.toList_append, String.ofList_toList] at hvalue
    rw [Code.value?, hspelled]
    exact hvalue

end ServerSettings

namespace Server

/-- How a server uses the version of its settings. `word` is the text that was checked. -/
structure UsesVersion (settings : ServerSettings) (c : Context) (word : String) : Prop where
  checked : ServerSettings.IsSegment word
  padded : ∃ before after, settings.apiVersion.toList = before ++ word.toList ++ after ∧
    before.all Text.isBlank = true ∧ after.all Text.isBlank = true
  segment_iff : ServerSettings.IsSegment settings.apiVersion ↔ settings.apiVersion = word
  /-- The factory and the tests of each group have the version in a literal. -/
  mounted : ∃ line ∈ applicationModule c, line.written =
    "    app.register_blueprint(api_bp, url_prefix=" ++ settings.mount ++ ")"
  tested : ∀ g ∈ c.groups, ∃ line ∈ groupTests c g, line.written = "BASE = " ++ settings.mount
  mount_iff : Code.value? [] settings.mount = some ("/api/" ++ word) ↔ settings.apiVersion = word
  broken_iff : Code.value? [] settings.mount = none ↔
    '\n' ∈ settings.apiVersion.toList ∨ '\r' ∈ settings.apiVersion.toList
  /-- Below the version an endpoint starts behind the segment that was checked. -/
  bound_iff : ∀ g ∈ c.groups, ∀ e ∈ g.endpoints, ∀ rest, e.uri = "/" ++ word ++ "/" ++ rest →
    (e.BoundFrom ("/" ++ rest) ↔ settings.apiVersion = word)

theorem mem_applicationModule (c : Context) : ∃ line ∈ applicationModule c, line.written =
    "    app.register_blueprint(api_bp, url_prefix=" ++ c.settings.mount ++ ")" := by
  refine ⟨[.code "    app.register_blueprint(api_bp, url_prefix='/api/",
    .code c.settings.apiVersion, .code "')"], ?_, ?_⟩
  · simp [applicationModule, Source.join]
  · apply String.toList_inj.mp
    simp [ServerSettings.mount, Piece.render]

theorem mem_groupTests (c : Context) (g : Group) : ∃ line ∈ groupTests c g, line.written =
    "BASE = " ++ c.settings.mount := by
  refine ⟨[.code "BASE = '/api/", .code c.settings.apiVersion, .code "'"], ?_, ?_⟩
  · simp [groupTests, Source.join]
  · apply String.toList_inj.mp
    simp [ServerSettings.mount, Piece.render]

/-- An accepted version is a segment with blanks around it, and it is used with these blanks. What
the check promises of each use holds exactly when there are none. -/
theorem version_used_as_checked_iff {settings : ServerSettings}
    (hcheck : settings.check = .ok ()) (spec : Specification) :
    UsesVersion settings (.ofSpecification settings spec) (Text.trim settings.apiVersion) := by
  have hchecked := ServerSettings.isSegment_trim_of_check hcheck
  have hword (c : Char) (hc : ServerSettings.isVersionChar c = false) :
      c ∉ (Text.trim settings.apiVersion).toList := by
    intro hmem
    rw [List.all_eq_true.mp hchecked.2 c hmem] at hc
    cases hc
  have hvalue := ServerSettings.value?_mount hcheck
  refine ⟨hchecked, ?_, ⟨?_, ?_⟩, mem_applicationModule _, fun g _ => mem_groupTests _ g,
    ⟨?_, ?_⟩, ⟨?_, ?_⟩, ?_⟩
  · obtain ⟨before, after, hsplit, hblank⟩ :=
      Text.trimWhile_split Text.isBlank settings.apiVersion.toList
    exact ⟨before, after, by rw [Text.trim, String.toList_ofList]; exact hsplit, hblank⟩
  · intro hsegment
    exact (ServerSettings.trim_eq_self_of_isSegment hsegment).symm
  · intro hsame
    rw [hsame]
    exact hchecked
  · intro hmount
    rw [hvalue] at hmount
    split at hmount
    · cases hmount
    · simpa using hmount
  · intro hsame
    have hline := hword '\n' (by decide)
    have hreturn := hword '\r' (by decide)
    rw [← hsame] at hline hreturn
    rw [hvalue, if_neg (not_or.mpr ⟨hline, hreturn⟩), ← hsame]
  · intro hmount
    by_contra hunbroken
    rw [hvalue, if_neg hunbroken] at hmount
    cases hmount
  · intro hbreak
    rw [hvalue, if_pos hbreak]
  · intro g hg e he rest huri
    obtain ⟨⟨name, resources⟩, -, rfl⟩ := List.mem_map.mp hg
    obtain ⟨r, -, taken, rfl⟩ := Endpoint.mem_ofResources he
    exact Endpoint.boundFrom_iff (ServerSettings.notMem_of_check hcheck (by decide))
      (hword '/' (by decide)) (hword '\x7b' (by decide)) hchecked.1 name taken huri

/-- Blanks of several kinds stand around the version. -/
theorem version_used_as_checked_iff_padded :
    let settings : ServerSettings := { ServerSettings.default with apiVersion := "\t v1\u2028\n" }
    let spec := Group.bareSpecification ["/v1/users"]
    settings.check = .ok () ∧ UsesVersion settings (.ofSpecification settings spec) "v1" ∧
      Code.value? [] settings.mount = none := by
  intro settings spec
  have hcheck : settings.check = .ok () := by decide
  have huses := version_used_as_checked_iff hcheck spec
  rw [show Text.trim settings.apiVersion = "v1" by decide] at huses
  exact ⟨hcheck, huses, by decide⟩

/-- A blank after the version is accepted. It stands in the prefix, and the version is not dropped
from the URI. -/
theorem padded_version_kept :
    let settings : ServerSettings := { ServerSettings.default with apiVersion := "v1 " }
    let c := Context.ofSpecification settings (Group.bareSpecification ["/v1/users"])
    settings.check = .ok () ∧ ¬ ServerSettings.IsSegment settings.apiVersion ∧
      settings.mount = "'/api/v1 '" ∧
      c.groups.map (fun g => g.endpoints.map (·.routePath)) = [["/v1/users"]] := by
  refine ⟨by decide, ?_, by decide, by decide⟩
  exact fun hsegment => absurd hsegment.2 (by decide)

end Server

end RamlScaffold

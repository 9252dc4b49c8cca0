import Mathlib.Data.List.TakeWhile
import RamlScaffold.Artifact.Settings
import RamlScaffold.Proofs.Spec.Uri
import RamlScaffold.Route.Group

/-!
How routes bind their arguments. The paths of an endpoint are all made from the URI by putting a
text in for each placeholder. Two of them stand below the version; dropping the version takes away
characters with which no placeholder starts, so the placeholders stay what they are and where they
are, and the texts that were found for the URI fit.
-/

namespace RamlScaffold

open Uri (Cut Holes weave)

variable {version : String} {head rest : List Char} {holes : Holes}

namespace Endpoint

def below (version cs : List Char) : List Char :=
  let relative := cs.dropWhile (· == '/')
  if version ++ ['/'] <+: relative then relative.drop (version ++ ['/']).length else relative

theorem toList_dropVersion (version uri : String) :
    (dropVersion version uri).toList = '/' :: below version.toList uri.toList := by
  have hslash : (version ++ "/").toList = version.toList ++ ['/'] := by simp
  simp only [dropVersion, Text.dropStart?, Text.startsWith, Text.trimHeadChar,
    String.toList_ofList, hslash, below, List.isPrefixOf_iff_prefix]
  split <;> simp

/-- What is dropped are slashes and characters of the version. -/
theorem below_eq (version cs : List Char) :
    ∃ dropped, cs = dropped ++ below version cs ∧ ∀ c ∈ dropped, c = '/' ∨ c ∈ version := by
  have hslashes : ∀ c ∈ cs.takeWhile (· == '/'), c = '/' := by
    intro c hc
    simpa using List.mem_takeWhile_imp hc
  have hcs : cs = cs.takeWhile (· == '/') ++ cs.dropWhile (· == '/') :=
    List.takeWhile_append_dropWhile.symm
  unfold below
  dsimp only
  split
  · next hversion =>
    obtain ⟨kept, hkept⟩ := hversion
    refine ⟨cs.takeWhile (· == '/') ++ (version ++ ['/']), ?_, ?_⟩
    · rw [← hkept, List.drop_left, List.append_assoc, hkept, ← hcs]
    · intro c hc
      simp only [List.mem_append, List.mem_singleton] at hc
      rcases hc with hslash | hchar | hslash
      · exact Or.inl (hslashes c hslash)
      · exact Or.inr hchar
      · exact Or.inl hslash
  · exact ⟨_, hcs, fun c hc => Or.inl (hslashes c hc)⟩

theorem prefix_append_cons_iff {part cs rest : List Char} {c : Char} (hc : c ∉ part) :
    part <+: cs ++ c :: rest ↔ part <+: cs := by
  refine ⟨?_, fun hpart => hpart.trans (List.prefix_append _ _)⟩
  rintro ⟨after, hsplit⟩
  rcases List.append_eq_append_iff.mp hsplit with ⟨more, hcs, -⟩ | ⟨more, hpart, hrest⟩
  · exact ⟨more, hcs.symm⟩
  · cases more with
    | nil => exact ⟨[], by simpa using hpart⟩
    | cons d more =>
      obtain rfl : c = d := (List.cons.inj hrest).1
      exact absurd (by simp [hpart]) hc

/-- Nothing is dropped from where a character stands that is neither a slash nor part of the
version. -/
theorem below_append {version : List Char} {c : Char} (hslash : c ≠ '/') (hversion : c ∉ version)
    (head rest : List Char) :
    below version (head ++ c :: rest) = below version head ++ c :: rest := by
  have hrelative : (head ++ c :: rest).dropWhile (· == '/') =
      head.dropWhile (· == '/') ++ c :: rest := by
    rw [List.dropWhile_append]
    split
    · next hempty =>
      rw [List.isEmpty_iff.mp hempty, List.dropWhile_cons_of_neg (by simpa using hslash)]
      rfl
    · rfl
  have hstart : version ++ ['/'] <+: head.dropWhile (· == '/') ++ c :: rest ↔
      version ++ ['/'] <+: head.dropWhile (· == '/') := by
    apply prefix_append_cons_iff
    simp [hslash, hversion]
  simp only [below, hrelative, hstart]
  split
  · next hversion =>
    rw [List.drop_append_of_le_length hversion.length_le]
  · rfl

/-- Dropping the version leaves all placeholders of a URI and the literals after them. -/
theorem cut_dropVersion (hversion : '\x7b' ∉ version.toList) {uri : String}
    (hcut : Cut uri.toList head holes) :
    Cut (dropVersion version uri).toList (dropVersion version (.ofList head)).toList holes := by
  obtain ⟨dropped, hhead, hchars⟩ := below_eq version.toList head
  have hbrace : '\x7b' ∉ dropped := by
    intro hmember
    rcases hchars _ hmember with hslash | hchar
    · cases hslash
    · exact hversion hchar
  have hwhole : below version.toList uri.toList = below version.toList head ++
      holes.flatMap fun hole => '\x7b' :: (hole.1 ++ '\x7d' :: hole.2) := by
    rw [hcut.spelled]
    cases holes with
    | nil => simp
    | cons hole holes => exact below_append (by decide) hversion head _
  have huri : uri.toList = dropped ++ below version.toList uri.toList := by
    rw [hwhole, ← List.append_assoc, ← hhead]
    exact hcut.spelled
  have hrest : Cut (below version.toList uri.toList) (below version.toList head) holes := by
    apply Cut.of_prepend hbrace
    rw [← huri, ← hhead]
    exact hcut
  rw [toList_dropVersion, toList_dropVersion, String.toList_ofList]
  have hslash : '\x7b' ∉ ['/'] := by decide
  exact hrest.prepend hslash

end Endpoint

theorem RouteParam.names_ofParameters (seen : List String) (parameters : List PathParameter) :
    (ofParameters seen parameters).map (·.name) = parameters.map (·.name) := by
  induction parameters generalizing seen with
  | nil => rfl
  | cons p rest ih => simp only [ofParameters, List.map_cons, ih]

theorem RouteParam.names_ofResource (r : Resource) :
    (ofResource r).map (·.name) = Uri.names r.uri := by
  rw [ofResource, names_ofParameters, Resource.pathParameters, List.map_map]
  exact List.map_id _

namespace Endpoint

/-- An endpoint has a parameter for each placeholder of a URI, and its paths are the literals of the
URI with a text for each parameter between them. -/
structure Binds (e : Endpoint) (version : String) (head : List Char) (holes : Holes) : Prop where
  names : e.params.map (·.name) = holes.map fun hole => .ofList hole.1
  args : e.args = Text.joinWith ", " (e.params.map (·.arg))
  clientTestPath : e.clientTestPath.toList =
    weave head (e.params.map (·.converter.sampleText)) holes
  /-- Below the version only the first literal differs, by what the version makes of it. -/
  routePath : e.routePath.toList =
    weave (dropVersion version (.ofList head)).toList (e.params.map RouteParam.rule) holes
  testPath : e.testPath.toList =
    weave (dropVersion version (.ofList head)).toList
      (e.params.map (·.converter.sampleText)) holes
  rules : ∀ p ∈ e.params, p.rule =
    if p.converter = .text then "<" ++ p.arg ++ ">"
    else "<" ++ p.converter.name ++ ":" ++ p.arg ++ ">"

theorem binds_ofResource (hversion : '\x7b' ∉ version.toList) (group : GroupName)
    (seen : List String) {r : Resource} (hcut : Cut r.uri.toList head holes) :
    (ofResource group version seen r).Binds version head holes := by
  have hnames : (RouteParam.ofResource r).map (·.name) = holes.map fun hole => .ofList hole.1 := by
    rw [RouteParam.names_ofResource, hcut.names_eq]
  have hcount : (RouteParam.ofResource r).length = holes.length := by
    simpa using congrArg List.length hnames
  have hbelow := cut_dropVersion hversion hcut
  refine ⟨hnames, rfl, ?_, ?_, ?_, ?_⟩
  · simp [ofResource, samplePath, hcut.substitute_eq, hcount]
  · simp [ofResource, routeRule, hbelow.substitute_eq, hcount]
  · simp [ofResource, samplePath, hbelow.substitute_eq, hcount]
  · intro p _
    simp [RouteParam.rule]

theorem brace_not_mem_version (hversion : version.toList.all ServerSettings.isVersionChar = true) :
    '\x7b' ∉ version.toList := by
  intro hbrace
  exact absurd (List.all_eq_true.mp hversion _ hbrace) (by decide)

/-- Routes bind exactly their arguments. The URI is cut at its placeholders in one way, and so it is
below the version, where only the first literal differs; the endpoint has one parameter for each
placeholder and puts one text for each between the literals. -/
theorem routes_bind_arguments (hversion : version.toList.all ServerSettings.isVersionChar = true)
    (group : GroupName) (seen : List String) (r : Resource) :
    ∃ head holes, Cut r.uri.toList head holes ∧
      (∀ head' holes', Cut r.uri.toList head' holes' → head' = head ∧ holes' = holes) ∧
      Cut (dropVersion version r.uri).toList (dropVersion version (.ofList head)).toList holes ∧
      (ofResource group version seen r).params = RouteParam.ofResource r ∧
      (ofResource group version seen r).Binds version head holes := by
  have hbrace := brace_not_mem_version hversion
  obtain ⟨head, holes, hcut⟩ := Uri.cut_exists r.uri.toList
  refine ⟨head, holes, hcut, ?_, cut_dropVersion hbrace hcut, rfl, ?_⟩
  · intro head' holes' hagain
    exact hagain.unique hcut
  · exact binds_ofResource hbrace group seen hcut

/-- The version stands before braces that are no placeholder, and a name starts with a brace. -/
theorem routes_bind_arguments_braces :
    let r : Resource :=
      ⟨"//v1/\x7b\x7d\x7b\x7ba\x7d/\x7bb\x7d\x7d", "", "", [], [("b", .text "integer")]⟩
    "v1".toList.all ServerSettings.isVersionChar = true ∧
    ∃ head holes, Cut r.uri.toList head holes ∧
      (ofResource (.derive "a") "v1" [] r).Binds "v1" head holes ∧
      (ofResource (.derive "a") "v1" [] r).routePath = "/\x7b\x7d<a>/<int:b>\x7d" := by
  intro r
  have hversion : "v1".toList.all ServerSettings.isVersionChar = true := by decide
  obtain ⟨head, holes, hcut, -, -, -, hbinds⟩ := routes_bind_arguments hversion (.derive "a") [] r
  exact ⟨hversion, head, holes, hcut, hbinds, by decide⟩

end Endpoint

end RamlScaffold

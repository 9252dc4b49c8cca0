import RamlScaffold.Proofs.Code.Emitted
import RamlScaffold.Proofs.Route.Binding
import RamlScaffold.Proofs.Route.Literal
import RamlScaffold.Proofs.Spec.Segment
import RamlScaffold.Server.Routes

/-!
Endpoints for one record. A URI that ends in a segment between braces is taken for the URI of a
record, and the record is looked up by the last argument of the route. Whether there are braces is
read off the segment, and the arguments are read off the placeholders of the whole URI: the two
agree exactly when a placeholder starts in the last segment. Otherwise the record is looked up by
an argument that stands elsewhere in the URI, or by nothing at all.
-/

namespace RamlScaffold

namespace Endpoint

open Uri (LastSegment)

/-- The last segment that is not empty stands before the slashes at the end. -/
theorem getLast?_segments {uri : String} {outer segment slashes : List Char}
    (hlast : LastSegment uri.toList outer segment slashes) :
    (segments uri).getLast? = some (.ofList segment) := by
  have htrailing : slashes = [] ∨ slashes.head? = some '/' := by
    cases slashes with
    | nil => exact .inl rfl
    | cons c rest => exact .inr (congrArg some (hlast.trailing c List.mem_cons_self))
  have hnone : segments (.ofList slashes) = [] := by
    have hslashes := segments_leading hlast.trailing []
    rw [List.append_nil] at hslashes
    exact hslashes.trans (by decide)
  rw [← String.ofList_toList (s := uri), hlast.spelled, segments_behind_slash _ hlast.starts,
    segments_before_slash _ htrailing, segments_word hlast.nonempty hlast.unbroken, hnone,
    List.append_nil, List.getLast?_concat]

/-- The URI of a record has a last segment, and that stands between braces. -/
theorem braces_of_isItem {uri : String} (hitem : isItem uri = true) :
    ∀ outer segment slashes, LastSegment uri.toList outer segment slashes →
      segment.getLast? = some '\x7d' := by
  intro outer segment slashes hlast
  rw [isItem, getLast?_segments hlast] at hitem
  simp only [isParamSegment, String.toList_ofList, Bool.and_eq_true, beq_iff_eq] at hitem
  exact hitem.2

/-- The record of an endpoint is identified by the last argument, and that is the one bound in the
last segment of the URI. -/
def Identified (e : Endpoint) : Prop :=
  ∃ p, e.params.getLast? = some p ∧ e.idArg = some p.arg ∧ Uri.EndsIn e.uri.toList p.name.toList

theorem mem_ofResources {group : GroupName} {version : String} {seen : List String}
    {resources : List Resource} {e : Endpoint} (he : e ∈ ofResources group version seen resources) :
    ∃ r ∈ resources, ∃ taken, e = ofResource group version taken r := by
  induction resources generalizing seen with
  | nil => cases he
  | cons r rest ih =>
    rcases List.mem_cons.mp he with rfl | hlater
    · exact ⟨r, List.mem_cons_self, seen, rfl⟩
    · obtain ⟨other, hother, htaken⟩ := ih hlater
      exact ⟨other, List.mem_cons_of_mem r hother, htaken⟩

theorem getLast?_params {r : Resource} {name literal head : List Char} {holes : Uri.Holes}
    (hcut : Uri.Cut r.uri.toList head (holes ++ [(name, literal)])) :
    ∃ p, (RouteParam.ofResource r).getLast? = some p ∧ p.name = .ofList name := by
  have hnames : (RouteParam.ofResource r).map (·.name) =
      (holes ++ [(name, literal)]).map fun hole => .ofList hole.1 := by
    rw [RouteParam.names_ofResource, hcut.names_eq]
  have hlast := congrArg List.getLast? hnames
  rw [List.getLast?_map, List.map_append, List.map_singleton, List.getLast?_concat,
    Option.map_eq_some_iff] at hlast
  exact hlast

/-- The last argument is bound in the last segment exactly when a placeholder starts there. -/
theorem identified_ofResource_iff (group : GroupName) (version : String) (taken : List String)
    {r : Resource} (hitem : isItem r.uri = true) :
    (ofResource group version taken r).Identified ↔ Uri.OpensLast r.uri.toList := by
  constructor
  · rintro ⟨p, -, -, hends⟩
    exact Uri.opensLast_of_endsIn hends
  · intro hopens
    obtain ⟨name, hends⟩ := Uri.endsIn_of_opensLast hopens (braces_of_isItem hitem)
    have hlastHole := hends
    obtain ⟨_, _, _, _, _, _, hcut, _⟩ := hlastHole
    obtain ⟨p, hlast, hname⟩ := getLast?_params hcut
    refine ⟨p, hlast, ?_, ?_⟩
    · exact congrArg (Option.map (·.arg)) hlast
    · rw [hname, String.toList_ofList]
      exact hends

theorem isItem_of_mem {group : GroupName} {params : List RouteParam} {isItem : Bool}
    {seen : List String} {methods : List Method} {op : Operation}
    (hop : op ∈ Operation.ofMethods group params isItem seen methods) : op.isItem = isItem := by
  induction methods generalizing seen with
  | nil => cases hop
  | cons m rest ih =>
    rcases List.mem_cons.mp hop with rfl | hlater
    · rfl
    · exact ih hlater

/-- What a route looks a record up by is an argument of it exactly when the URI has a placeholder
somewhere. -/
theorem lookup_bound_iff (group : GroupName) (version : String) (taken : List String)
    (r : Resource) :
    let e := ofResource group version taken r
    e.idArg.getD "None" ∈ e.params.map (·.arg) ↔ Uri.names e.uri ≠ [] := by
  intro e
  have hnames : e.params.map (·.name) = Uri.names e.uri := RouteParam.names_ofResource r
  rw [← hnames]
  rcases List.eq_nil_or_concat' e.params with hnone | ⟨before, p, hlast⟩
  · simp [hnone]
  · simp [idArg, hlast]

/-- The functions that change or return one record start by looking it up. -/
theorem head?_handler (g : Group) (e : Endpoint) {op : Operation} (hitem : op.isItem = true)
    (hverb : op.verb ∈ [.get, .put, .patch, .delete]) :
    (Server.handler g e op).head? = some [.code "    record = ", .code g.name.pascal,
      .code "Service.get_by_id(", .code (e.idArg.getD "None"), .code ")"] := by
  simp only [List.mem_cons, List.not_mem_nil, or_false] at hverb
  rcases hverb with hverb | hverb | hverb | hverb <;>
  · simp only [Server.handler, hverb, hitem]
    rfl

/-- Every operation on a record looks it up by the last argument of its route. This is the one bound
in the last segment of the URI exactly when a placeholder starts there: at a brace that is not
closed at once, while no brace before it is open. It is an argument at all exactly when the URI has
a placeholder; otherwise the record is looked up by `None`. -/
theorem items_identified_iff {spec : Specification} {version : String} {g : Group} {e : Endpoint}
    {op : Operation} (hg : g ∈ Group.ofSpecification spec version) (he : e ∈ g.endpoints)
    (hop : op ∈ e.operations) (hitem : op.isItem = true) :
    (e.Identified ↔ Uri.OpensLast e.uri.toList) ∧
      (op.verb ∈ [.get, .put, .patch, .delete] →
        (Server.handler g e op).head? = some [.code "    record = ", .code g.name.pascal,
          .code "Service.get_by_id(", .code (e.idArg.getD "None"), .code ")"]) ∧
      (e.idArg.getD "None" ∈ e.params.map (·.arg) ↔ Uri.names e.uri ≠ []) := by
  obtain ⟨⟨name, resources⟩, -, rfl⟩ := List.mem_map.mp hg
  obtain ⟨r, -, taken, rfl⟩ := mem_ofResources he
  have huri : isItem r.uri = true := (isItem_of_mem hop).symm.trans hitem
  exact ⟨identified_ofResource_iff name version taken huri, head?_handler _ _ hitem,
    lookup_bound_iff name version taken r⟩

def readableAt (uri : String) : Specification :=
  { Group.bareSpecification [] with resources := [⟨uri, "", "", [.bare .get], []⟩] }

/-- Braces without a name before the last segment, and a slash after it. -/
theorem items_identified_iff_slash :
    ∃ g ∈ Group.ofSpecification (readableAt "/\x7b\x7d/\x7buser-id\x7d/") "v1",
      ∃ e ∈ g.endpoints, ∃ op ∈ e.operations, op.isItem = true ∧ e.Identified ∧
        e.idArg = some "user_id" := by
  have hopens : Uri.OpensLast "/\x7b\x7d/\x7buser-id\x7d/".toList := by
    have hslash : Uri.Closed ['/'] := Uri.closed_of_notMem (by decide)
    exact ⟨['/', '\x7b', '\x7d', '/'], [], 'u', "ser-id\x7d".toList, ['/'],
      ⟨by decide, by decide, by decide, by decide, by simp⟩,
      hslash.append_brace ['/', '\x7b'], by decide⟩
  refine ⟨_, List.mem_cons_self, _, List.mem_cons_self, _, List.mem_cons_self, by decide, ?_,
    by decide⟩
  exact (@items_identified_iff (readableAt "/\x7b\x7d/\x7buser-id\x7d/") "v1" _ _ _
    List.mem_cons_self List.mem_cons_self List.mem_cons_self (by decide)).1.mpr hopens

/-- The URI of a record has braces without a name, and nothing identifies the record. -/
theorem nameless_item_unidentified :
    ∃ g ∈ Group.ofSpecification (readableAt "/users/\x7b\x7d") "v1",
      ∃ e ∈ g.endpoints, ∃ op ∈ e.operations, op.isItem = true ∧ e.idArg = none ∧
        ¬ e.Identified := by
  refine ⟨_, List.mem_cons_self, _, List.mem_cons_self, _, List.mem_cons_self, by decide,
    by decide, ?_⟩
  rintro ⟨p, -, hid, -⟩
  cases hid

end Endpoint

end RamlScaffold

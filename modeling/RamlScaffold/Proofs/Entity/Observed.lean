import RamlScaffold.Proofs.Artifact.Files
import RamlScaffold.Proofs.Route.Partition
import RamlScaffold.Proofs.Server.PrimaryKey
import RamlScaffold.Spec.Build

/-!
Properties in the order in which they are first seen. A property of a body has a site: the positions
of its resource and method, the place of the body among the bodies of the method, and its position
in the body. Sites are in order when requests come before responses and maps go by the order of
their keys. The names that are collected from bodies are followed through a list of all sites in
order: each name is there once, and its first site is before every site of the names behind it.
-/

namespace RamlScaffold

inductive BodyPlace where
  | request (media : String)
  | response (status media : String)
deriving DecidableEq, Repr

/-- Requests come before responses, status codes and media types in the order of their texts. -/
def BodyPlace.Before : BodyPlace → BodyPlace → Prop
  | .request media, .request media' => media < media'
  | .request _, .response _ _ => True
  | .response _ _, .request _ => False
  | .response status media, .response status' media' =>
    status < status' ∨ status = status' ∧ media < media'

namespace Method

def bodyAt? (m : Method) : BodyPlace → Option Body
  | .request media => Fields.get? media m.body
  | .response status media =>
    (Fields.get? status m.responses).bind fun response => Fields.get? media response.body

structure MapsInOrder (m : Method) : Prop where
  requests : Fields.InOrder m.body
  responses : Fields.InOrder m.responses
  each : ∀ entry ∈ m.responses, Fields.InOrder entry.2.body

def placedBodies (m : Method) : List (BodyPlace × Body) :=
  m.body.map (fun entry => (.request entry.1, entry.2)) ++
    m.responses.flatMap fun response =>
      response.2.body.map fun entry => (.response response.1 entry.1, entry.2)

theorem map_placedBodies (m : Method) : m.placedBodies.map Prod.snd = m.allBodies := by
  simp only [placedBodies, allBodies, List.map_append, List.map_map, List.map_flatMap]
  rfl

theorem mem_placedBodies {m : Method} (hm : m.MapsInOrder) {place : BodyPlace} {b : Body} :
    (place, b) ∈ m.placedBodies ↔ m.bodyAt? place = some b := by
  have hrequests := hm.requests.nodup_keys
  have hresponses := hm.responses.nodup_keys
  cases place with
  | request media =>
    rw [bodyAt?, ← Fields.mem_iff_get? hrequests]
    simp [placedBodies]
  | response status media =>
    have hmem : (.response status media, b) ∈ m.placedBodies ↔
        ∃ response, (status, response) ∈ m.responses ∧ (media, b) ∈ response.body := by
      simp [placedBodies]
    rw [hmem, bodyAt?, Option.bind_eq_some_iff]
    apply exists_congr
    intro response
    rw [Fields.mem_iff_get? hresponses]
    apply and_congr_right
    intro hfound
    have hbodies := (hm.each _ (Fields.mem_of_get? hfound)).nodup_keys
    exact Fields.mem_iff_get? hbodies

theorem pairwise_placedBodies {m : Method} (hm : m.MapsInOrder) :
    m.placedBodies.Pairwise fun p q => p.1.Before q.1 := by
  rw [placedBodies, List.pairwise_append]
  refine ⟨?_, ?_, ?_⟩
  · rw [List.pairwise_map]
    exact (List.pairwise_map.mp hm.requests).imp fun hmedia => hmedia
  · rw [List.pairwise_flatMap]
    constructor
    · intro response hresponse
      rw [List.pairwise_map]
      exact (List.pairwise_map.mp (hm.each response hresponse)).imp fun hmedia =>
        Or.inr ⟨rfl, hmedia⟩
    · refine (List.pairwise_map.mp hm.responses).imp ?_
      intro response response' hstatus p hp q hq
      obtain ⟨entry, -, rfl⟩ := List.mem_map.mp hp
      obtain ⟨entry', -, rfl⟩ := List.mem_map.mp hq
      exact Or.inl hstatus
  · intro p hp q hq
    obtain ⟨entry, -, rfl⟩ := List.mem_map.mp hp
    obtain ⟨response, -, hq⟩ := List.mem_flatMap.mp hq
    obtain ⟨entry', -, rfl⟩ := List.mem_map.mp hq
    trivial

end Method

structure Site where
  resource : Nat
  method : Nat
  place : BodyPlace
  property : Nat
deriving DecidableEq, Repr

namespace Site

def Before (a b : Site) : Prop :=
  a.resource < b.resource ∨ a.resource = b.resource ∧
    (a.method < b.method ∨ a.method = b.method ∧
      (a.place.Before b.place ∨ a.place = b.place ∧ a.property < b.property))

def name? (resources : List Resource) (site : Site) : Option String := do
  let r ← resources[site.resource]?
  let m ← r.methods[site.method]?
  let b ← m.bodyAt? site.place
  (Fields.keys b.properties)[site.property]?

/-- Names that are in the order in which they are first seen. -/
structure FirstSeen (resources : List Resource) (names : List String) : Prop where
  distinct : names.Nodup
  complete : ∀ name, name ∈ names ↔ ∃ site, name? resources site = some name
  inOrder : names.Pairwise fun name later => ∃ site, name? resources site = some name ∧
    ∀ other, name? resources other = some later → site.Before other

def ofBody (resource method : Nat) (place : BodyPlace) (b : Body) : List (Site × String) :=
  (Fields.keys b.properties).zipIdx.map fun p => (⟨resource, method, place, p.2⟩, p.1)

def ofMethod (resource method : Nat) (m : Method) : List (Site × String) :=
  m.placedBodies.flatMap fun p => ofBody resource method p.1 p.2

def ofResource (resource : Nat) (r : Resource) : List (Site × String) :=
  r.methods.zipIdx.flatMap fun p => ofMethod resource p.2 p.1

def ofResources (resources : List Resource) : List (Site × String) :=
  resources.zipIdx.flatMap fun p => ofResource p.2 p.1

theorem flatMap_zipIdx {α β : Type} (items : List α) (f : α → List β) :
    items.zipIdx.flatMap (fun p => f p.1) = items.flatMap f := by
  rw [← List.flatMap_map Prod.fst f, List.zipIdx_map_fst]

theorem names_ofResources (resources : List Resource) :
    (ofResources resources).map Prod.snd = resources.flatMap fun r => r.methods.flatMap fun m =>
      m.allBodies.flatMap fun b => Fields.keys b.properties := by
  have hbody (i j : Nat) (place : BodyPlace) (b : Body) :
      (ofBody i j place b).map Prod.snd = Fields.keys b.properties := by
    rw [ofBody, List.map_map]
    exact List.zipIdx_map_fst 0 _
  have hmethod (i j : Nat) (m : Method) : (ofMethod i j m).map Prod.snd =
      m.allBodies.flatMap fun b => Fields.keys b.properties := by
    rw [ofMethod, List.map_flatMap, ← m.map_placedBodies, List.flatMap_map]
    simp only [hbody]
  have hresource (i : Nat) (r : Resource) : (ofResource i r).map Prod.snd =
      r.methods.flatMap fun m => m.allBodies.flatMap fun b => Fields.keys b.properties := by
    rw [ofResource, List.map_flatMap]
    simp only [hmethod]
    exact flatMap_zipIdx r.methods fun m => m.allBodies.flatMap fun b => Fields.keys b.properties
  rw [ofResources, List.map_flatMap]
  simp only [hresource]
  exact flatMap_zipIdx resources fun r => r.methods.flatMap fun m =>
    m.allBodies.flatMap fun b => Fields.keys b.properties

variable {resources : List Resource}

theorem mem_ofResources (hmaps : ∀ r ∈ resources, ∀ m ∈ r.methods, m.MapsInOrder) {site : Site}
    {name : String} :
    (site, name) ∈ ofResources resources ↔ name? resources site = some name := by
  obtain ⟨i, j, place, k⟩ := site
  have hbody (b : Body) : (⟨i, j, place, k⟩, name) ∈ ofBody i j place b ↔
      (Fields.keys b.properties)[k]? = some name := by
    simp [ofBody, List.mk_mem_zipIdx_iff_getElem?]
  simp only [ofResources, ofResource, ofMethod, name?, List.mem_flatMap, Prod.exists,
    List.mk_mem_zipIdx_iff_getElem?, Option.bind_eq_bind, Option.bind_eq_some_iff]
  constructor
  · rintro ⟨r, i', hr, m, j', hm, place', b, hplace, hmem⟩
    obtain ⟨p, -, hsite⟩ := List.mem_map.mp hmem
    obtain ⟨rfl, rfl, rfl, -⟩ : i' = i ∧ j' = j ∧ place' = place ∧ p.2 = k := by
      simpa using congrArg Prod.fst hsite
    have horder := hmaps r (List.mem_of_getElem? hr) m (List.mem_of_getElem? hm)
    exact ⟨r, hr, m, hm, b, (Method.mem_placedBodies horder).mp hplace, (hbody b).mp hmem⟩
  · rintro ⟨r, hr, m, hm, b, hplace, hkey⟩
    have horder := hmaps r (List.mem_of_getElem? hr) m (List.mem_of_getElem? hm)
    exact ⟨r, i, hr, m, j, hm, place, b, (Method.mem_placedBodies horder).mpr hplace,
      (hbody b).mpr hkey⟩

theorem pairwise_ofMethod {m : Method} (hm : m.MapsInOrder) (i j : Nat) :
    (ofMethod i j m).Pairwise fun p q => p.1.Before q.1 := by
  rw [ofMethod, List.pairwise_flatMap]
  constructor
  · rintro ⟨place, b⟩ -
    rw [ofBody, List.pairwise_map]
    exact (Group.pairwise_zipIdx _).imp fun hindex =>
      Or.inr ⟨rfl, Or.inr ⟨rfl, Or.inr ⟨rfl, hindex⟩⟩⟩
  · refine (Method.pairwise_placedBodies hm).imp ?_
    intro p q hbefore a ha b hb
    obtain ⟨_, -, rfl⟩ := List.mem_map.mp ha
    obtain ⟨_, -, rfl⟩ := List.mem_map.mp hb
    exact Or.inr ⟨rfl, Or.inr ⟨rfl, Or.inl hbefore⟩⟩

theorem pairwise_ofResource {r : Resource} (hr : ∀ m ∈ r.methods, m.MapsInOrder) (i : Nat) :
    (ofResource i r).Pairwise fun p q => p.1.Before q.1 := by
  rw [ofResource, List.pairwise_flatMap]
  constructor
  · rintro ⟨m, j⟩ hm
    have hmethod := List.mem_of_getElem? (List.mk_mem_zipIdx_iff_getElem?.mp hm)
    exact pairwise_ofMethod (hr m hmethod) i j
  · refine (Group.pairwise_zipIdx _).imp ?_
    intro p q hindex a ha b hb
    obtain ⟨_, -, ha⟩ := List.mem_flatMap.mp ha
    obtain ⟨_, -, hb⟩ := List.mem_flatMap.mp hb
    obtain ⟨_, -, rfl⟩ := List.mem_map.mp ha
    obtain ⟨_, -, rfl⟩ := List.mem_map.mp hb
    exact Or.inr ⟨rfl, Or.inl hindex⟩

theorem resource_of_mem {r : Resource} {i : Nat} {p : Site × String} (hp : p ∈ ofResource i r) :
    p.1.resource = i := by
  obtain ⟨_, -, hp⟩ := List.mem_flatMap.mp hp
  obtain ⟨_, -, hp⟩ := List.mem_flatMap.mp hp
  obtain ⟨_, -, rfl⟩ := List.mem_map.mp hp
  rfl

theorem pairwise_ofResources (hmaps : ∀ r ∈ resources, ∀ m ∈ r.methods, m.MapsInOrder) :
    (ofResources resources).Pairwise fun p q => p.1.Before q.1 := by
  rw [ofResources, List.pairwise_flatMap]
  constructor
  · rintro ⟨r, i⟩ hr
    have hresource := List.mem_of_getElem? (List.mk_mem_zipIdx_iff_getElem?.mp hr)
    exact pairwise_ofResource (hmaps r hresource) i
  · refine (Group.pairwise_zipIdx _).imp ?_
    intro p q hindex a ha b hb
    refine Or.inl ?_
    rwa [resource_of_mem ha, resource_of_mem hb]

end Site

namespace Field

theorem mem_distinct {seen names : List String} {name : String} :
    name ∈ distinct seen names ↔ name ∈ names ∧ name ∉ seen := by
  induction names generalizing seen with
  | nil => simp [distinct]
  | cons first rest ih =>
    rw [distinct]
    by_cases hseen : first ∈ seen
    · rw [if_pos (by simpa using hseen), ih, List.mem_cons]
      constructor
      · exact fun h => ⟨Or.inr h.1, h.2⟩
      · rintro ⟨rfl | hrest, hnew⟩
        · exact absurd hseen hnew
        · exact ⟨hrest, hnew⟩
    · rw [if_neg (by simpa using hseen), List.mem_cons, ih, List.mem_cons, List.mem_cons, not_or]
      constructor
      · rintro (rfl | ⟨hrest, -, hnew⟩)
        · exact ⟨Or.inl rfl, hseen⟩
        · exact ⟨Or.inr hrest, hnew⟩
      · rintro ⟨hmem, hnew⟩
        by_cases hsame : name = first
        · exact Or.inl hsame
        · exact Or.inr ⟨hmem.resolve_left hsame, hsame, hnew⟩

/-- Of names with sites in order the first sites are kept, and they stay in order. -/
theorem pairwise_distinct {occurrences : List (Site × String)}
    (horder : occurrences.Pairwise fun p q => p.1.Before q.1) (seen : List String) :
    (distinct seen (occurrences.map Prod.snd)).Pairwise fun name later =>
      ∃ site, (site, name) ∈ occurrences ∧
        ∀ other, (other, later) ∈ occurrences → site.Before other := by
  induction occurrences generalizing seen with
  | nil => exact List.Pairwise.nil
  | cons first rest ih =>
    obtain ⟨site, name⟩ := first
    obtain ⟨hfirst, hrest⟩ := List.pairwise_cons.mp horder
    -- A name behind the first one is new, so none of its sites is the first site.
    have hlift {seen : List String} (hname : name ∈ seen) :
        (distinct seen (rest.map Prod.snd)).Pairwise fun earlier later =>
          ∃ place, (place, earlier) ∈ (site, name) :: rest ∧
            ∀ other, (other, later) ∈ (site, name) :: rest → place.Before other := by
      refine (ih hrest seen).imp_of_mem ?_
      rintro earlier later - hlater ⟨place, hplace, hbefore⟩
      refine ⟨place, List.mem_cons_of_mem _ hplace, fun other hother => ?_⟩
      rcases List.mem_cons.mp hother with hsame | hother
      · obtain ⟨-, rfl⟩ := Prod.mk.inj hsame
        exact absurd hname (mem_distinct.mp hlater).2
      · exact hbefore other hother
    rw [List.map_cons, distinct]
    split
    · next hseen => exact hlift (by simpa using hseen)
    · refine List.pairwise_cons.mpr ⟨?_, hlift List.mem_cons_self⟩
      intro later hlater
      refine ⟨site, List.mem_cons_self, fun other hother => ?_⟩
      rcases List.mem_cons.mp hother with hsame | hother
      · obtain ⟨-, rfl⟩ := Prod.mk.inj hsame
        exact absurd List.mem_cons_self (mem_distinct.mp hlater).2
      · exact hfirst _ hother

theorem firstSeen_observedKeys {resources : List Resource}
    (hmaps : ∀ r ∈ resources, ∀ m ∈ r.methods, m.MapsInOrder) :
    Site.FirstSeen resources (observedKeys resources) := by
  have hkeys : observedKeys resources =
      distinct [] ((Site.ofResources resources).map Prod.snd) := by
    rw [Site.names_ofResources]
    rfl
  rw [hkeys]
  refine ⟨(distinct_nodup [] _).1, fun name => ?_, ?_⟩
  · rw [mem_distinct, List.mem_map]
    constructor
    · rintro ⟨⟨⟨site, name⟩, hmem, rfl⟩, -⟩
      exact ⟨site, (Site.mem_ofResources hmaps).mp hmem⟩
    · rintro ⟨site, hsite⟩
      exact ⟨⟨(site, name), (Site.mem_ofResources hmaps).mpr hsite, rfl⟩, List.not_mem_nil⟩
  · refine (pairwise_distinct (Site.pairwise_ofResources hmaps) []).imp ?_
    rintro name later ⟨site, hsite, hbefore⟩
    refine ⟨site, (Site.mem_ofResources hmaps).mp hsite, fun other hother => ?_⟩
    exact hbefore other ((Site.mem_ofResources hmaps).mpr hother)

end Field

end RamlScaffold

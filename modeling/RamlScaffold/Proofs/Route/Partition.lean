import Mathlib.Algebra.GroupWithZero.Nat
import Mathlib.Data.List.Forall2
import Mathlib.Data.List.Perm.Basic
import Mathlib.Data.List.Range
import RamlScaffold.Proofs.Route.Collision
import RamlScaffold.Proofs.Route.Literal

/-!
Grouping loses, repeats and reorders nothing. `classes` says what grouping is: the first item of a
list takes along all later ones that look the same, and the others are grouped after it. The
clusters of a description are the classes of its resources by the snake spelling of their names,
and each class is followed through a list whose items carry their positions.
-/

namespace RamlScaffold

section Classes

variable {α β : Type} {look : α → String}

def alike (look : α → String) (a : α) (items : List α) : List α :=
  items.filter fun b => look b == look a

def unlike (look : α → String) (a : α) (items : List α) : List α :=
  items.filter fun b => !(look b == look a)

/-- The items of a list by what they look like, in order of first appearance. -/
def classes (look : α → String) : List α → List (List α)
  | [] => []
  | a :: rest => (a :: alike look a rest) :: classes look (unlike look a rest)
termination_by items => items.length
decreasing_by exact Nat.lt_succ_of_le (List.length_filter_le _ _)

theorem mem_alike_iff {a b : α} {items : List α} :
    b ∈ alike look a items ↔ b ∈ items ∧ look b = look a := by
  simp [alike]

theorem mem_unlike_iff {a b : α} {items : List α} :
    b ∈ unlike look a items ↔ b ∈ items ∧ look b ≠ look a := by
  simp [unlike]

theorem unlike_sublist (a : α) (items : List α) : (unlike look a items).Sublist items :=
  List.filter_sublist

theorem classes_map (look : β → String) (f : α → β) (items : List α) :
    classes look (items.map f) = (classes (look ∘ f) items).map (List.map f) := by
  fun_induction classes (look ∘ f) items with
  | case1 => simp [classes]
  | case2 a rest ih =>
    rw [List.map_cons, classes, List.map_cons, ← ih]
    simp only [alike, unlike, List.filter_map, List.map_cons, Function.comp_def]

theorem flatten_classes_perm (look : α → String) (items : List α) :
    (classes look items).flatten.Perm items := by
  fun_induction classes look items with
  | case1 => exact .refl []
  | case2 a rest ih =>
    have hsplit : (alike look a rest ++ unlike look a rest).Perm rest :=
      List.filter_append_perm _ rest
    rw [List.flatten_cons, List.cons_append]
    exact ((ih.append_left _).trans hsplit).cons a

theorem sublist_of_mem_classes {items members : List α}
    (hmember : members ∈ classes look items) : members.Sublist items := by
  fun_induction classes look items with
  | case1 => cases hmember
  | case2 a rest ih =>
    rcases List.mem_cons.mp hmember with rfl | hlater
    · exact List.filter_sublist.cons_cons a
    · exact ((ih hlater).trans (unlike_sublist a rest)).cons a

/-- An item is in the class of another one exactly when it looks the same. -/
theorem mem_class_iff {items members : List α} (hmember : members ∈ classes look items) {a b : α}
    (ha : a ∈ members) (hb : b ∈ items) : b ∈ members ↔ look b = look a := by
  fun_induction classes look items with
  | case1 => cases hmember
  | case2 c rest ih =>
    rcases List.mem_cons.mp hmember with rfl | hlater
    · have hlook : look a = look c := by
        rcases List.mem_cons.mp ha with rfl | ha
        · rfl
        · exact (mem_alike_iff.mp ha).2
      rw [hlook, List.mem_cons, mem_alike_iff]
      constructor
      · rintro (rfl | ⟨_, hsame⟩)
        · rfl
        · exact hsame
      · intro hsame
        exact (List.mem_cons.mp hb).imp_right fun hrest => ⟨hrest, hsame⟩
    · have hinside := (sublist_of_mem_classes hlater).subset
      have hother := (mem_unlike_iff.mp (hinside ha)).2
      by_cases hlook : look b = look c
      · -- The first class has taken `b`, and `a` looks different from all of that class.
        refine ⟨fun hmem => absurd hlook (mem_unlike_iff.mp (hinside hmem)).2, fun hsame => ?_⟩
        exact absurd (hsame.symm.trans hlook) hother
      · have hrest : b ∈ rest := by
          rcases List.mem_cons.mp hb with rfl | hrest
          · exact absurd rfl hlook
          · exact hrest
        exact ih hlater (mem_unlike_iff.mpr ⟨hrest, hlook⟩)

/-- Classes come in the order of their first items. -/
theorem pairwise_head_classes {R : α → α → Prop} {items : List α} (hitems : items.Pairwise R) :
    (classes look items).Pairwise fun m n => ∀ a ∈ m.head?, ∀ b ∈ n.head?, R a b := by
  fun_induction classes look items with
  | case1 => exact List.Pairwise.nil
  | case2 c rest ih =>
    obtain ⟨hfirst, hrest⟩ := List.pairwise_cons.mp hitems
    refine List.pairwise_cons.mpr ⟨?_, ih (hrest.sublist (unlike_sublist c rest))⟩
    intro members hmember a ha b hb
    obtain rfl : c = a := by simpa using ha
    have hinside := (sublist_of_mem_classes hmember).trans (unlike_sublist c rest)
    exact hfirst b (hinside.subset (List.mem_of_mem_head? hb))

end Classes

def Resource.groupName (r : Resource) : GroupName := GroupName.derive (Endpoint.groupOf r.uri)

namespace Group

def lookOf (r : Resource) : String := r.groupName.snake

/-- Resources that meet a cluster of their name join it; the others pass it by. -/
theorem foldl_addResource_cons (name : GroupName) (held : List Resource) (found : List Cluster)
    (resources : List Resource) :
    resources.foldl (fun found r => addResource r.groupName r found) ((name, held) :: found) =
      (name, held ++ resources.filter fun r => lookOf r == name.snake) ::
        (resources.filter fun r => !(lookOf r == name.snake)).foldl
          (fun found r => addResource r.groupName r found) found := by
  induction resources generalizing held found with
  | nil => simp
  | cons r rest ih =>
    by_cases hsame : name.snake = r.groupName.snake
    · simp [addResource, lookOf, hsame, ih]
    · have hother : ¬ r.groupName.snake = name.snake := Ne.symm hsame
      simp [addResource, lookOf, hsame, hother, ih]

theorem clusters_cons (r : Resource) (rest : List Resource) :
    clusters (r :: rest) =
      (r.groupName, r :: alike lookOf r rest) :: clusters (unlike lookOf r rest) :=
  foldl_addResource_cons r.groupName [r] [] rest

/-- The clusters are the classes of the resources, each under the name of its first resource. -/
theorem clusters_classes (resources : List Resource) :
    List.Forall₂ (fun cluster members => cluster.2 = members ∧
      members.head?.map Resource.groupName = some cluster.1)
      (clusters resources) (classes lookOf resources) := by
  fun_induction classes lookOf resources with
  | case1 => exact .nil
  | case2 r rest ih =>
    rw [clusters_cons]
    exact .cons ⟨rfl, rfl⟩ ih

end Group

/-- An operation has all but its name from a method and the form of the URI. -/
structure Operation.StandsFor (op : Operation) (uri : String) (m : Method) : Prop where
  verb : op.verb = m.verb
  description : op.description = m.description
  isItem : op.isItem = Endpoint.isItem uri
  secured : op.secured = isSecured m
  successStatus : op.successStatus = statusOf m

/-- An endpoint has the URI of a resource and one operation for each of its methods, in order. -/
structure Endpoint.StandsFor (e : Endpoint) (r : Resource) : Prop where
  uri : e.uri = r.uri
  operations : List.Forall₂ (fun op m => op.StandsFor r.uri m) e.operations r.methods

theorem Operation.ofMethods_standFor (group : GroupName) (params : List RouteParam) (uri : String)
    (seen : List String) (methods : List Method) :
    List.Forall₂ (fun op m => op.StandsFor uri m)
      (ofMethods group params (Endpoint.isItem uri) seen methods) methods := by
  induction methods generalizing seen with
  | nil => exact .nil
  | cons m rest ih => exact .cons ⟨rfl, rfl, rfl, rfl, rfl⟩ (ih _)

theorem Endpoint.ofResources_standFor (group : GroupName) (version : String) (seen : List String)
    (resources : List Resource) :
    List.Forall₂ StandsFor (ofResources group version seen resources) resources := by
  induction resources generalizing seen with
  | nil => exact .nil
  | cons r rest ih =>
    exact .cons ⟨rfl, Operation.ofMethods_standFor group _ r.uri seen r.methods⟩ (ih _)

namespace Group

/-- A group holds endpoints for the resources at given positions, in that order, and is named after
the last literal segment of the first of them. -/
structure Gathers (resources : List Resource) (g : Group) (positions : List Nat) : Prop where
  endpoints : List.Forall₂ (fun e i => ∃ r, resources[i]? = some r ∧ e.StandsFor r)
    g.endpoints positions
  named : ∃ i r segment, positions.head? = some i ∧ resources[i]? = some r ∧
    Uri.NamedAfter r.uri segment ∧ g.name.raw = segment ∧ g.name = GroupName.derive segment

/-- Groups share out resources: `members` lists, group by group, the positions of the resources
that the group has endpoints for. -/
structure Partitions (resources : List Resource) (groups : List Group)
    (members : List (List Nat)) : Prop where
  gathered : List.Forall₂ (Gathers resources) groups members
  /-- Every resource is in one group, and there once. -/
  each_once : members.flatten.Perm (List.range resources.length)
  in_order : ∀ positions ∈ members, positions.Pairwise (· < ·)
  by_first : members.Pairwise fun a b => ∀ i ∈ a.head?, ∀ j ∈ b.head?, i < j
  /-- Resources are together when the names of their last literal segments are spelled alike. -/
  by_name : ∀ i j r s a b, resources[i]? = some r → resources[j]? = some s →
    Uri.NamedAfter r.uri a → Uri.NamedAfter s.uri b →
    ((∃ positions ∈ members, i ∈ positions ∧ j ∈ positions) ↔
      (GroupName.derive a).snake = (GroupName.derive b).snake)
  none_empty : ∀ g ∈ groups, g.endpoints ≠ []

abbrev Placed := Resource × Nat

def placedClasses (resources : List Resource) : List (List Placed) :=
  classes (fun p => lookOf p.1) resources.zipIdx

theorem map_placedClasses (resources : List Resource) :
    (placedClasses resources).map (List.map Prod.fst) = classes lookOf resources := by
  have hmapped := classes_map lookOf Prod.fst resources.zipIdx
  rw [List.zipIdx_map_fst] at hmapped
  exact hmapped.symm

theorem getElem?_of_placed {resources : List Resource} {members : List Placed}
    (hmember : members ∈ placedClasses resources) {p : Placed} (hp : p ∈ members) :
    resources[p.2]? = some p.1 :=
  List.mem_zipIdx_iff_getElem?.mp ((sublist_of_mem_classes hmember).subset hp)

theorem pairwise_zipIdx {α : Type} (items : List α) :
    items.zipIdx.Pairwise fun p q => p.2 < q.2 := by
  rw [← List.pairwise_map (f := Prod.snd), List.zipIdx_map_snd]
  exact List.pairwise_lt_range'

theorem flatten_positions_perm (resources : List Resource) :
    ((placedClasses resources).map (List.map Prod.snd)).flatten.Perm
      (List.range resources.length) := by
  rw [← List.map_flatten, List.range_eq_range', ← List.zipIdx_map_snd]
  exact (flatten_classes_perm _ _).map _

theorem positions_in_order {resources : List Resource} {positions : List Nat}
    (hmember : positions ∈ (placedClasses resources).map (List.map Prod.snd)) :
    positions.Pairwise (· < ·) := by
  obtain ⟨members, hclass, rfl⟩ := List.mem_map.mp hmember
  rw [List.pairwise_map]
  exact (pairwise_zipIdx resources).sublist (sublist_of_mem_classes hclass)

theorem positions_by_first (resources : List Resource) :
    ((placedClasses resources).map (List.map Prod.snd)).Pairwise
      fun a b => ∀ i ∈ a.head?, ∀ j ∈ b.head?, i < j := by
  rw [List.pairwise_map]
  apply (pairwise_head_classes (pairwise_zipIdx resources)).imp
  intro members members' hfirst i hi j hj
  rw [List.head?_map, Option.mem_def, Option.map_eq_some_iff] at hi hj
  obtain ⟨p, hp, rfl⟩ := hi
  obtain ⟨q, hq, rfl⟩ := hj
  exact hfirst p hp q hq

/-- Two positions are in one class exactly when the resources there are spelled alike. -/
theorem same_class_iff {resources : List Resource} {i j : Nat} {r s : Resource}
    (hr : resources[i]? = some r) (hs : resources[j]? = some s) :
    (∃ positions ∈ (placedClasses resources).map (List.map Prod.snd),
      i ∈ positions ∧ j ∈ positions) ↔ lookOf r = lookOf s := by
  have hplaced {k : Nat} {t : Resource} (ht : resources[k]? = some t) :
      (t, k) ∈ resources.zipIdx := List.mem_zipIdx_iff_getElem?.mpr ht
  have hin {k : Nat} {t : Resource} (ht : resources[k]? = some t) {members : List Placed}
      (hclass : members ∈ placedClasses resources) (hk : k ∈ members.map Prod.snd) :
      (t, k) ∈ members := by
    obtain ⟨⟨t', k'⟩, hp, rfl⟩ := List.mem_map.mp hk
    have hsame := (getElem?_of_placed hclass hp).symm.trans ht
    rwa [← Option.some.inj hsame]
  constructor
  · rintro ⟨positions, hmember, hi, hj⟩
    obtain ⟨members, hclass, rfl⟩ := List.mem_map.mp hmember
    exact (mem_class_iff hclass (hin hs hclass hj) (hplaced hr)).mp (hin hr hclass hi)
  · intro hlook
    have hsomewhere : (s, j) ∈ (placedClasses resources).flatten :=
      (flatten_classes_perm _ _).mem_iff.mpr (hplaced hs)
    obtain ⟨members, hclass, hmem⟩ := List.mem_flatten.mp hsomewhere
    have hmem' := (mem_class_iff hclass hmem (hplaced hr)).mpr hlook
    exact ⟨members.map Prod.snd, List.mem_map.mpr ⟨members, hclass, rfl⟩,
      List.mem_map.mpr ⟨_, hmem', rfl⟩, List.mem_map.mpr ⟨_, hmem, rfl⟩⟩

/-- Each group has the endpoints of one class and the name of its first resource. -/
theorem ofSpecification_classes (spec : Specification) (version : String) :
    List.Forall₂ (fun g members => List.Forall₂ Endpoint.StandsFor g.endpoints members ∧
      members.head?.map Resource.groupName = some g.name)
      (ofSpecification spec version) (classes lookOf spec.resources) := by
  rw [ofSpecification, List.forall₂_map_left_iff]
  apply (clusters_classes spec.resources).imp
  rintro ⟨name, held⟩ members ⟨rfl, hfirst⟩
  exact ⟨Endpoint.ofResources_standFor name version [] held, hfirst⟩

theorem gathers_of_placed {resources : List Resource} {members : List Placed}
    (hclass : members ∈ placedClasses resources) {g : Group}
    (hendpoints : List.Forall₂ Endpoint.StandsFor g.endpoints (members.map Prod.fst))
    (hfirst : (members.map Prod.fst).head?.map Resource.groupName = some g.name) :
    Gathers resources g (members.map Prod.snd) := by
  constructor
  · rw [List.forall₂_map_right_iff, List.forall₂_iff_zip] at hendpoints ⊢
    refine ⟨hendpoints.1, ?_⟩
    intro e p hpair
    exact ⟨p.1, getElem?_of_placed hclass (List.of_mem_zip hpair).2, hendpoints.2 hpair⟩
  · cases members with
    | nil => simp at hfirst
    | cons p rest =>
      have hname : p.1.groupName = g.name := by simpa using hfirst
      refine ⟨p.2, p.1, Endpoint.groupOf p.1.uri, rfl,
        getElem?_of_placed hclass List.mem_cons_self, Endpoint.namedAfter_iff.mpr rfl, ?_,
        hname.symm⟩
      rw [← hname]
      rfl

theorem gathered (spec : Specification) (version : String) :
    List.Forall₂ (Gathers spec.resources) (ofSpecification spec version)
      ((placedClasses spec.resources).map (List.map Prod.snd)) := by
  have hclasses := ofSpecification_classes spec version
  rw [← map_placedClasses, List.forall₂_map_right_iff, List.forall₂_iff_zip] at hclasses
  rw [List.forall₂_map_right_iff, List.forall₂_iff_zip]
  refine ⟨hclasses.1, ?_⟩
  intro g members hpair
  obtain ⟨hendpoints, hfirst⟩ := hclasses.2 hpair
  exact gathers_of_placed (List.of_mem_zip hpair).2 hendpoints hfirst

theorem Gathers.endpoints_ne_nil {resources : List Resource} {g : Group} {positions : List Nat}
    (hgathers : Gathers resources g positions) : g.endpoints ≠ [] := by
  obtain ⟨i, _, _, hfirst, _⟩ := hgathers.named
  intro hempty
  have hnone : positions = [] := by
    have hendpoints := hgathers.endpoints
    rw [hempty] at hendpoints
    exact List.forall₂_nil_left_iff.mp hendpoints
  simp [hnone] at hfirst

/-- The operations of a group are as many as the methods that its endpoints stand for. -/
theorem length_operations {g : Group} {resources : List Resource}
    (hendpoints : List.Forall₂ Endpoint.StandsFor g.endpoints resources) :
    g.operations.length = (resources.map (·.methods.length)).sum := by
  have hlengths : g.endpoints.map (·.operations.length) = resources.map (·.methods.length) := by
    rw [← List.forall₂_eq_eq_eq, List.forall₂_map_left_iff, List.forall₂_map_right_iff]
    exact hendpoints.imp fun e r hstands => hstands.operations.length_eq
  simp [operations, List.length_flatMap, hlengths]

theorem sum_operations (spec : Specification) (version : String) :
    ((ofSpecification spec version).map (·.operations.length)).sum = spec.methodCount := by
  have heach : (ofSpecification spec version).map (·.operations.length) =
      (classes lookOf spec.resources).map fun members => (members.map (·.methods.length)).sum := by
    rw [← List.forall₂_eq_eq_eq, List.forall₂_map_left_iff, List.forall₂_map_right_iff]
    exact (ofSpecification_classes spec version).imp fun g members h => length_operations h.1
  have hflat := (flatten_classes_perm lookOf spec.resources).map (·.methods.length)
  rw [List.map_flatten] at hflat
  calc ((ofSpecification spec version).map (·.operations.length)).sum
      = (((classes lookOf spec.resources).map (List.map (·.methods.length))).flatten).sum := by
        rw [heach, List.sum_flatten, List.map_map]
        rfl
    _ = (spec.resources.map (·.methods.length)).sum := hflat.sum_nat
    _ = spec.methodCount := List.sum_eq_foldl_nat

theorem together_iff {resources : List Resource} {i j : Nat} {r s : Resource} {a b : String}
    (hr : resources[i]? = some r) (hs : resources[j]? = some s)
    (ha : Uri.NamedAfter r.uri a) (hb : Uri.NamedAfter s.uri b) :
    (∃ positions ∈ (placedClasses resources).map (List.map Prod.snd),
      i ∈ positions ∧ j ∈ positions) ↔
      (GroupName.derive a).snake = (GroupName.derive b).snake := by
  rw [same_class_iff hr hs, Endpoint.namedAfter_iff.mp ha, Endpoint.namedAfter_iff.mp hb]
  rfl

/-- Grouping is a stable partition of the resources by their last literal segments, of which every
URI has one to be named after, and no method is lost or repeated on the way to the operations. -/
theorem grouping_partitions (spec : Specification) (version : String) :
    (∀ uri, ∃! segment, Uri.NamedAfter uri segment) ∧
      (∃ members, Partitions spec.resources (ofSpecification spec version) members) ∧
      ((ofSpecification spec version).map (·.operations.length)).sum = spec.methodCount := by
  refine ⟨?_, ⟨(placedClasses spec.resources).map (List.map Prod.snd), ?_⟩,
    sum_operations spec version⟩
  · intro uri
    exact ⟨Endpoint.groupOf uri, Endpoint.namedAfter_iff.mpr rfl,
      fun _ hname => Endpoint.namedAfter_iff.mp hname⟩
  have hgathered := gathered spec version
  exact {
    gathered := hgathered
    each_once := flatten_positions_perm spec.resources
    in_order := fun _ => positions_in_order
    by_first := positions_by_first spec.resources
    by_name := fun _ _ _ _ _ _ => together_iff
    none_empty := by
      have hboth := hgathered.imp fun g positions hgathers =>
        And.intro hgathers.endpoints_ne_nil hgathers
      exact ((List.forall₂_and_left _ _).mp hboth).1 }

/-- A collection and its records are together, also where other parameters or spellings come in
between, and a URI of parameters only has a group of its own. -/
theorem grouping_partitions_users :
    let spec := bareSpecification
      ["/users", "/users/\x7bid\x7d", "/\x7btenant\x7d/\x7bid\x7d", "\x7btenant\x7d/Users/"]
    ∃ members, Partitions spec.resources (ofSpecification spec "v1") members ∧
      (∃ positions ∈ members, 0 ∈ positions ∧ 1 ∈ positions) ∧
      (∃ positions ∈ members, 0 ∈ positions ∧ 3 ∈ positions) ∧
      ¬ ∃ positions ∈ members, 0 ∈ positions ∧ 2 ∈ positions := by
  intro spec
  obtain ⟨-, ⟨members, hparts⟩, -⟩ := grouping_partitions spec "v1"
  have hbraces (name : List Char) : Uri.InBraces ('\x7b' :: (name ++ ['\x7d'])) := ⟨name, rfl⟩
  have hliteral {c : Char} {cs : List Char} (hc : c ≠ '\x7b') : ¬ Uri.InBraces (c :: cs) := by
    rintro ⟨name, hname⟩
    exact hc (List.cons.inj hname).1
  have hid : Uri.ParamsOnly "/\x7bid\x7d".toList := .param (by decide) (hbraces "id".toList) .nil
  have husers : Uri.NamedAfter "/users" "users" :=
    @Uri.NamedAfter.segment "/users" ['/'] "users".toList []
      ⟨rfl, .inr rfl, by decide, by decide, hliteral (by decide), .nil⟩
  have huser : Uri.NamedAfter "/users/\x7bid\x7d" "users" :=
    @Uri.NamedAfter.segment "/users/\x7bid\x7d" ['/'] "users".toList "/\x7bid\x7d".toList
      ⟨rfl, .inr rfl, by decide, by decide, hliteral (by decide), hid⟩
  have hparams : Uri.NamedAfter "/\x7btenant\x7d/\x7bid\x7d" "resource" :=
    .fallback (.slash (.param (by decide) (hbraces "tenant".toList) hid))
  have htenant : Uri.NamedAfter "\x7btenant\x7d/Users/" "Users" :=
    @Uri.NamedAfter.segment _ "\x7btenant\x7d/".toList "Users".toList ['/']
      ⟨rfl, .inr rfl, by decide, by decide, hliteral (by decide), .slash .nil⟩
  refine ⟨members, hparts, ?_, ?_, ?_⟩
  · exact (hparts.by_name 0 1 _ _ _ _ rfl rfl husers huser).mpr rfl
  · exact (hparts.by_name 0 3 _ _ _ _ rfl rfl husers htenant).mpr (by decide)
  · rw [hparts.by_name 0 2 _ _ _ _ rfl rfl husers hparams]
    decide

end Group

end RamlScaffold

import Mathlib.Data.List.Nodup
import RamlScaffold.Proofs.Naming.Spelling
import RamlScaffold.Route.Group

/-!
The names of the groups of a description. Resources are put together by the snake spelling of their
names, so this spelling tells the groups apart. The pascal and camel spellings do so exactly when
the snake spellings stay distinct without their underscores before digits.
-/

namespace RamlScaffold.Group

/-- Clusters with distinct snake spellings, each under a derived name. -/
structure Named (found : List Cluster) : Prop where
  distinct : (found.map (·.1.snake)).Nodup
  derived : ∀ cluster ∈ found, ∃ raw, cluster.1 = GroupName.derive raw

/-- A resource goes to the cluster with its snake spelling; a new spelling comes last. -/
theorem snakes_addResource (name : GroupName) (r : Resource) (found : List Cluster) :
    (addResource name r found).map (·.1.snake) =
      if name.snake ∈ found.map (·.1.snake) then found.map (·.1.snake)
      else found.map (·.1.snake) ++ [name.snake] := by
  induction found with
  | nil => simp [addResource]
  | cons cluster rest ih =>
    by_cases hsame : cluster.1.snake = name.snake
    · simp [addResource, hsame]
    · have hother : name.snake ≠ cluster.1.snake := Ne.symm hsame
      simp only [addResource, beq_iff_eq, hsame, if_false, List.map_cons, ih, List.mem_cons,
        hother, false_or]
      split <;> rfl

theorem mem_addResource {name : GroupName} {r : Resource} {found : List Cluster}
    {cluster : Cluster} (hmem : cluster ∈ addResource name r found) :
    cluster.1 = name ∨ ∃ old ∈ found, cluster.1 = old.1 := by
  induction found with
  | nil =>
    obtain rfl : cluster = (name, [r]) := by simpa [addResource] using hmem
    exact Or.inl rfl
  | cons first rest ih =>
    rw [addResource] at hmem
    split at hmem
    · rcases List.mem_cons.mp hmem with rfl | hmem
      · exact Or.inr ⟨first, List.mem_cons_self, rfl⟩
      · exact Or.inr ⟨cluster, List.mem_cons_of_mem first hmem, rfl⟩
    · rcases List.mem_cons.mp hmem with rfl | hmem
      · exact Or.inr ⟨_, List.mem_cons_self, rfl⟩
      · rcases ih hmem with hnew | ⟨old, hold, hname⟩
        · exact Or.inl hnew
        · exact Or.inr ⟨old, List.mem_cons_of_mem first hold, hname⟩

theorem Named.addResource {found : List Cluster} (hfound : Named found) (raw : String)
    (r : Resource) : Named (addResource (GroupName.derive raw) r found) := by
  constructor
  · rw [snakes_addResource]
    split
    · exact hfound.distinct
    · rename_i hnew
      exact List.nodup_append_comm.mp (List.nodup_cons.mpr ⟨hnew, hfound.distinct⟩)
  · intro cluster hmem
    rcases mem_addResource hmem with hname | ⟨old, hold, hname⟩
    · exact ⟨raw, hname⟩
    · rw [hname]
      exact hfound.derived old hold

theorem named_clusters (resources : List Resource) : Named (clusters resources) := by
  have hrun (found : List Cluster) (hfound : Named found) :
      Named (resources.foldl (fun found r =>
        Group.addResource (GroupName.derive (Endpoint.groupOf r.uri)) r found) found) := by
    induction resources generalizing found with
    | nil => exact hfound
    | cons r rest ih => exact ih _ (hfound.addResource _ r)
  exact hrun [] ⟨List.nodup_nil, by simp⟩

theorem names_ofSpecification (spec : Specification) (version : String) :
    (ofSpecification spec version).map (·.name) = (clusters spec.resources).map (·.1) := by
  simp [ofSpecification, Function.comp_def]

theorem derived_of_mem {spec : Specification} {version : String} {g : Group}
    (hg : g ∈ ofSpecification spec version) : ∃ raw, g.name = GroupName.derive raw := by
  have hname : g.name ∈ (clusters spec.resources).map (·.1) := by
    rw [← names_ofSpecification spec version]
    exact List.mem_map_of_mem hg
  obtain ⟨cluster, hcluster, hsame⟩ := List.mem_map.mp hname
  rw [← hsame]
  exact (named_clusters spec.resources).derived cluster hcluster

theorem snakes_nodup (spec : Specification) (version : String) :
    ((ofSpecification spec version).map (·.name.snake)).Nodup := by
  have hsnakes : (ofSpecification spec version).map (·.name.snake) =
      (clusters spec.resources).map (·.1.snake) := by
    have hnames := congrArg (List.map GroupName.snake) (names_ofSpecification spec version)
    simpa only [List.map_map, Function.comp_def] using hnames
  rw [hsnakes]
  exact (named_clusters spec.resources).distinct

/-- Two views that tell the same items of a list apart are distinct together. -/
theorem nodup_map_congr {α β γ : Type} {items : List α} {f : α → β} {g : α → γ}
    (hsame : ∀ a ∈ items, ∀ b ∈ items, f a = f b ↔ g a = g b) :
    (items.map f).Nodup ↔ (items.map g).Nodup := by
  rw [List.Nodup, List.Nodup, List.pairwise_map, List.pairwise_map]
  apply List.Pairwise.iff_of_mem
  intro a b ha hb
  exact not_congr (hsame a ha b hb)

/-- The snake spellings of the groups are distinct. Their pascal spellings and their camel
spellings are distinct exactly when the snake spellings stay so without the underscores before
digits; otherwise the client of one group hides that of another. -/
theorem spellings_distinct_iff (spec : Specification) (version : String) :
    let groups := ofSpecification spec version
    let joined := groups.map fun g => Naming.joinDigits g.name.snake.toList
    (groups.map (·.name.snake)).Nodup ∧
      ((groups.map (·.name.pascal)).Nodup ↔ joined.Nodup) ∧
      ((groups.map (·.name.camel)).Nodup ↔ joined.Nodup) := by
  intro groups joined
  have hshared : ∀ g ∈ groups, ∀ h ∈ groups,
      (g.name.pascal = h.name.pascal ↔
        Naming.joinDigits g.name.snake.toList = Naming.joinDigits h.name.snake.toList) ∧
      (g.name.camel = h.name.camel ↔
        Naming.joinDigits g.name.snake.toList = Naming.joinDigits h.name.snake.toList) := by
    intro g hg h hh
    obtain ⟨raw, hraw⟩ := derived_of_mem hg
    obtain ⟨other, hother⟩ := derived_of_mem hh
    obtain ⟨root, hroot⟩ := GroupName.spelledBy_derive raw
    obtain ⟨root', hroot'⟩ := GroupName.spelledBy_derive other
    rw [hraw, hother]
    exact hroot.shared_iff hroot'
  refine ⟨snakes_nodup spec version, ?_, ?_⟩
  · exact nodup_map_congr fun g hg h hh => (hshared g hg h hh).1
  · exact nodup_map_congr fun g hg h hh => (hshared g hg h hh).2

def bareSpecification (uris : List String) : Specification where
  title := "API"
  version := ""
  baseUri := ""
  description := ""
  mediaType := ""
  protocols := []
  securitySchemes := []
  traits := []
  resources := uris.map fun uri => ⟨uri, "", "", [], []⟩
  types := []

/-- The groups of `/a1` and `/a_1` have snake spellings of their own, but share the class
`A1Client` and the accessor `a1`. -/
theorem digit_words_collide :
    let groups := ofSpecification (bareSpecification ["/a1", "/a_1"]) "v1"
    groups.map (·.name.snake) = ["a1", "a_1"] ∧
      ¬ (groups.map (·.name.pascal)).Nodup ∧ ¬ (groups.map (·.name.camel)).Nodup := by
  decide +kernel

end RamlScaffold.Group

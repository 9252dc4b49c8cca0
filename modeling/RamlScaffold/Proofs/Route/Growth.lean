import RamlScaffold.Proofs.Route.Collision

/-!
Descriptions that grow at the end. Resources that are added after the others join the clusters that
are there, behind what these hold, or open new ones behind them. The names of operations are handed
out along the endpoints of a group, so those that a group had before stay as they were.
-/

namespace RamlScaffold

namespace Group

/-- Clusters that came from others by adding resources at the end. -/
inductive Grown : List Cluster → List Cluster → Prop where
  | opened (added : List Cluster) : Grown [] added
  | kept {found later : List Cluster} (name : GroupName) (held more : List Resource)
    (hrest : Grown found later) : Grown ((name, held) :: found) ((name, held ++ more) :: later)

theorem Grown.refl (found : List Cluster) : Grown found found := by
  induction found with
  | nil => exact .opened []
  | cons cluster rest ih =>
    have hsame := ih.kept cluster.1 cluster.2 []
    rwa [List.append_nil] at hsame

theorem Grown.trans {found later last : List Cluster} (hfirst : Grown found later)
    (hsecond : Grown later last) : Grown found last := by
  induction hfirst generalizing last with
  | opened added => exact .opened last
  | kept name held more _ ih =>
    cases hsecond with
    | kept _ _ again hrest =>
      rw [List.append_assoc]
      exact .kept name held (more ++ again) (ih hrest)

theorem grown_addResource (name : GroupName) (r : Resource) (found : List Cluster) :
    Grown found (addResource name r found) := by
  induction found with
  | nil => exact .opened _
  | cons cluster rest ih =>
    obtain ⟨n, held⟩ := cluster
    rw [addResource]
    split
    · exact .kept n held [r] (.refl rest)
    · have hpassed := ih.kept n held []
      rwa [List.append_nil] at hpassed

theorem grown_clusters (resources extra : List Resource) :
    Grown (clusters resources) (clusters (resources ++ extra)) := by
  have hrun (found : List Cluster) : Grown found (extra.foldl (fun found r =>
      addResource (GroupName.derive (Endpoint.groupOf r.uri)) r found) found) := by
    induction extra generalizing found with
    | nil => exact .refl found
    | cons r rest ih => exact (grown_addResource _ r found).trans (ih _)
  rw [clusters, clusters, List.foldl_append]
  exact hrun _

theorem Grown.names_prefix {found later : List Cluster} (hgrown : Grown found later) :
    found.map (·.1) <+: later.map (·.1) := by
  induction hgrown with
  | opened added => exact List.nil_prefix
  | kept name held more _ ih => exact List.cons_prefix_cons.mpr ⟨rfl, ih⟩

theorem Grown.mem {found later : List Cluster} (hgrown : Grown found later) {cluster : Cluster}
    (hcluster : cluster ∈ found) : ∃ more, (cluster.1, cluster.2 ++ more) ∈ later := by
  induction hgrown with
  | opened added => cases hcluster
  | kept name held more _ ih =>
    rcases List.mem_cons.mp hcluster with rfl | hlater
    · exact ⟨more, List.mem_cons_self⟩
    · obtain ⟨again, hfound⟩ := ih hlater
      exact ⟨again, List.mem_cons_of_mem _ hfound⟩

end Group

/-- The endpoints of resources do not depend on the resources after them: names are new to those
before. -/
theorem Endpoint.ofResources_prefix (group : GroupName) (version : String) (seen : List String)
    (resources extra : List Resource) :
    ofResources group version seen resources <+:
      ofResources group version seen (resources ++ extra) := by
  induction resources generalizing seen with
  | nil => exact List.nil_prefix
  | cons r rest ih => exact List.cons_prefix_cons.mpr ⟨rfl, ih _⟩

namespace Group

theorem cluster_of_mem {spec : Specification} {version : String} {g : Group}
    (hg : g ∈ ofSpecification spec version) : ∃ cluster ∈ clusters spec.resources,
      g.name = cluster.1 ∧ g.endpoints = Endpoint.ofResources cluster.1 version [] cluster.2 := by
  obtain ⟨cluster, hcluster, rfl⟩ := List.mem_map.mp hg
  exact ⟨cluster, hcluster, rfl, rfl⟩

/-- Appending resources renames nothing: the groups of a description stay the first ones, with the
names they had, and the endpoints of each group stay the first ones of the group that has its name.
Only the fields of a group may change. -/
theorem appending_keeps_endpoints (spec : Specification) (extra : List Resource)
    (version : String) :
    let groups := ofSpecification spec version
    let grown := ofSpecification { spec with resources := spec.resources ++ extra } version
    groups.map (·.name) <+: grown.map (·.name) ∧
      ∀ g ∈ groups, ∀ h ∈ grown, h.name.snake = g.name.snake → g.endpoints <+: h.endpoints := by
  intro groups grown
  have hgrown := grown_clusters spec.resources extra
  constructor
  · rw [names_ofSpecification, names_ofSpecification]
    exact hgrown.names_prefix
  · intro g hg h hh hsame
    obtain ⟨cluster, hcluster, hname, hendpoints⟩ := cluster_of_mem hg
    obtain ⟨cluster', hcluster', hname', hendpoints'⟩ := cluster_of_mem hh
    obtain ⟨more, hmore⟩ := hgrown.mem hcluster
    have hdistinct := (named_clusters (spec.resources ++ extra)).distinct
    have hcluster_eq : cluster' = (cluster.1, cluster.2 ++ more) := by
      apply List.inj_on_of_nodup_map hdistinct hcluster' hmore
      rw [← hname', hsame, hname]
    rw [hendpoints, hendpoints', hcluster_eq]
    exact Endpoint.ofResources_prefix cluster.1 version [] cluster.2 more

/-- A second resource asks for the name of the first one's operation and gets a number; a third one
opens a group. -/
theorem appending_keeps_endpoints_users :
    let resource (uri : String) : Resource := ⟨uri, "", "", [.bare .get], []⟩
    let spec := { bareSpecification [] with resources := [resource "/users"] }
    let extra := [resource "/v2/users", resource "/orders"]
    let groups := ofSpecification spec "v1"
    let grown := ofSpecification { spec with resources := spec.resources ++ extra } "v1"
    groups.map (fun g => g.operations.map (·.2.name)) = [["list_users"]] ∧
    grown.map (fun g => g.operations.map (·.2.name)) =
      [["list_users", "list_users_1"], ["list_orders"]] ∧
    groups.map (·.name) <+: grown.map (·.name) ∧
      ∀ g ∈ groups, ∀ h ∈ grown, h.name.snake = g.name.snake → g.endpoints <+: h.endpoints :=
  ⟨by decide +kernel, by decide +kernel, appending_keeps_endpoints _ _ _⟩

end Group

end RamlScaffold

import RamlScaffold.Proofs.Server.GroupImports
import RamlScaffold.Proofs.Spec.Prose
import RamlScaffold.Server.Files

/-!
Prose in the artifacts of a server. The title stands in the configuration and the descriptions of
methods in the routes; both are closed there. All other modules are the same without the prose.
-/

namespace RamlScaffold.Server

open Artifact Line Source

def Context.withoutProse (c : Context) : Context :=
  ⟨c.settings, c.spec.withoutProse, c.groups.map Group.withoutProse⟩

theorem Context.ofSpecification_withoutProse (settings : ServerSettings) (spec : Specification) :
    ofSpecification settings spec.withoutProse = (ofSpecification settings spec).withoutProse := by
  simp only [ofSpecification, withoutProse, Group.ofSpecification_withoutProse]

section Routes

variable {g : Group}

/-- Routes are closed for the reason that they are resolved, in a set of their own. -/
theorem closed_routesModule (c : Context) (hg : g.WellNamed) : Closed (routesModule c g) := by
  have hscope : Code.Scope [] [g.name.snake] :=
    ⟨by simpa using hg.snake, List.nodup_singleton g.name.snake⟩
  have hserves : Serves (.ofPaths (paths [g.name.snake] false)) [g.name.snake] :=
    serves_paths hscope fun _ => Iff.rfl
  exact (resolved_routesModule hserves hg c (List.mem_singleton_self _)).closed

theorem erased_routeFunction (c : Context) (g : Group) (e : Endpoint) (op : Operation) :
    (routeFunction c g e op).erased =
      (routeFunction c.withoutProse g.withoutProse e.withoutProse op.withoutProse).erased := by
  have hhandler : handler g.withoutProse e.withoutProse op.withoutProse = handler g e op := rfl
  rw [routeFunction, routeFunction, hhandler]
  exact erased_join_cons rfl <| erased_join_cons rfl <| erased_join_cons rfl rfl

theorem any_guards_withoutProse (c : Context) (g : Group) :
    g.withoutProse.operations.any (fun (_, op) => c.withoutProse.guards op) =
      g.operations.any fun (_, op) => c.guards op := by
  simp only [Group.operations, Group.withoutProse, Endpoint.withoutProse, List.flatMap_map,
    List.any_flatMap, List.any_map]
  rfl

theorem erased_routesModule (c : Context) (g : Group) :
    (routesModule c g).erased = (routesModule c.withoutProse g.withoutProse).erased := by
  rw [routesModule, routesModule, any_guards_withoutProse]
  refine erased_join_cons rfl <| erased_join_cons rfl <| erased_join_cons rfl <|
    erased_join_cons ?_ rfl
  exact erased_each_map (fun e => erased_each_map (fun op => erased_routeFunction c g e op) _) _

theorem skeleton_routesModule (c : Context) (hg : g.WellNamed) :
    Code.skeleton (routesModule c g).render =
      Code.skeleton (routesModule c.withoutProse g.withoutProse).render :=
  skeleton_eq (closed_routesModule c hg) (erased_routesModule c g)

end Routes

theorem skeleton_configModule (c : Context) :
    Code.skeleton (configModule c).render = Code.skeleton (configModule c.withoutProse).render := by
  unfold configModule
  refine skeleton_join_congr ?_ ?_ _
  · refine .cons (.docstring rfl rfl rfl) ?_
    repeat refine .fixed rfl rfl ?_
    refine .cons (.text rfl rfl (.docstring rfl rfl rfl)) ?_
    repeat refine .fixed rfl rfl ?_
    exact .cons (.text rfl rfl (.literal .nil .nil)) <|
      .cons (.text rfl rfl (.literal .nil .nil)) .nil
  · rfl

theorem outlines_fixedArtifacts (c : Context) :
    outlines (fixedArtifacts c) = outlines (fixedArtifacts c.withoutProse) := by
  have hconfig := outline_congr (skeleton_configModule c) "app/config.py"
  have hreadme (text : String) : outline "README.md" text = "" := rfl
  have hresources : resourcesModule c.withoutProse = resourcesModule c := by
    simp only [resourcesModule, Context.withoutProse, each, List.flatMap_map]
    rfl
  have hblueprint : blueprintModule c.withoutProse = blueprintModule c := by
    simp only [blueprintModule, Context.withoutProse, each, List.flatMap_map]
    rfl
  simp only [outlines, fixedArtifacts, List.map_cons, List.map_nil, hconfig, hreadme, hresources,
    hblueprint]
  rfl

theorem outlines_groupArtifacts (c : Context) {g : Group} (hg : g.WellNamed) :
    outlines (groupArtifacts c g) = outlines (groupArtifacts c.withoutProse g.withoutProse) := by
  have hroutes := outline_congr (skeleton_routesModule c hg) (groupDirectory g ++ "/routes.py")
  simp only [outlines, groupArtifacts, List.map_cons, List.map_nil, hroutes]
  rfl

theorem testArtifacts_withoutProse (c : Context) :
    testArtifacts c.withoutProse = testArtifacts c := by
  have htests (g : Group) : groupTests c.withoutProse g.withoutProse = groupTests c g := by
    simp only [groupTests, Group.withoutProse, Endpoint.withoutProse, each, List.flatMap_map]
    rfl
  have hgroups : c.withoutProse.groups = c.groups.map Group.withoutProse := rfl
  simp only [testArtifacts, hgroups, List.map_map, Function.comp_def, htests]
  rfl

/-- The outlines of a server are those for the description without its prose. -/
theorem outlines_artifacts (c : Context) (hgroups : ∀ g ∈ c.groups, g.WellNamed) :
    outlines (artifacts c) = outlines (artifacts c.withoutProse) := by
  have hmap : outlines (c.groups.flatMap (groupArtifacts c)) =
      outlines (c.withoutProse.groups.flatMap (groupArtifacts c.withoutProse)) := by
    have hfound : c.withoutProse.groups = c.groups.map Group.withoutProse := rfl
    rw [hfound, List.flatMap_map]
    exact outlines_flatMap_congr fun g hg => outlines_groupArtifacts c (hgroups g hg)
  have hsettings : c.withoutProse.settings = c.settings := rfl
  simp only [artifacts, outlines_append, outlines_fixedArtifacts c, hmap, hsettings,
    testArtifacts_withoutProse]

end RamlScaffold.Server

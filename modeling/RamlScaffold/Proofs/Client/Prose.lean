import RamlScaffold.Client.Files
import RamlScaffold.Proofs.Artifact.Closed
import RamlScaffold.Proofs.Spec.Prose

/-!
Prose in the artifacts of a client library. The title stands in docstrings of several modules, the
descriptions of types in those of the data classes and the descriptions of methods in those of the
client methods; the build script has the description of the document as a literal. All of them are
closed, and all other modules are the same without the prose.
-/

namespace RamlScaffold

/-- The path of a request is the expression for the URI of its endpoint. -/
theorem Endpoint.clientPath_of_mem {group : GroupName} {version : String} {seen : List String}
    {resources : List Resource} {e : Endpoint} (he : e ∈ ofResources group version seen resources) :
    e.clientPath = pathExpression e.uri e.params := by
  induction resources generalizing seen with
  | nil => simp [ofResources] at he
  | cons r rest ih =>
    rcases List.mem_cons.mp he with rfl | hlater
    · rfl
    · exact ih hlater

theorem Group.clientPath_of_mem {spec : Specification} {version : String} {g : Group}
    (hg : g ∈ ofSpecification spec version) {e : Endpoint} (he : e ∈ g.endpoints) :
    e.clientPath = pathExpression e.uri e.params := by
  obtain ⟨⟨name, resources⟩, -, rfl⟩ := List.mem_map.mp hg
  exact Endpoint.clientPath_of_mem he

namespace Client

open Artifact Line Source
open Code (Mode isIdentifier)
open Code.Mode (Ended)

namespace Context

def withoutProse (c : Context) : Context :=
  ⟨c.settings, c.spec.withoutProse, c.groups.map Group.withoutProse⟩

theorem ofSpecification_withoutProse (settings : ClientSettings) (spec : Specification) :
    ofSpecification settings spec.withoutProse = (ofSpecification settings spec).withoutProse := by
  simp only [ofSpecification, withoutProse, Group.ofSpecification_withoutProse]

theorem className_withoutProse (c : Context) : c.withoutProse.className = c.className := by
  simp only [className, withoutProse, aggregateName, List.any_map]
  rfl

theorem models_withoutProse (c : Context) :
    c.withoutProse.models = c.models.map Model.withoutProse :=
  Model.ofTypes_withoutProse Model.taken c.spec.types

theorem examples_withoutProse (c : Context) : c.withoutProse.examples = c.examples := by
  have hcall (g : Group) : exampleCall? g.withoutProse = exampleCall? g := by
    have hoperations : g.withoutProse.operations =
        g.operations.map fun found => (found.1.withoutProse, found.2.withoutProse) := by
      simp only [Group.operations, Group.withoutProse, Endpoint.withoutProse, List.flatMap_map,
        List.map_flatMap, List.map_map]
      rfl
    simp only [exampleCall?, hoperations, List.find?_map, Option.map_map]
    rfl
  simp only [examples, withoutProse, List.filterMap_map, Function.comp_def, hcall]

end Context

theorem skeleton_packageModule (c : Context) :
    Code.skeleton (packageModule c).render =
      Code.skeleton (packageModule c.withoutProse).render := by
  have hgroups : c.withoutProse.groups = c.groups.map Group.withoutProse := rfl
  unfold packageModule
  -- Once the names are taken from the groups as they were, only the first line differs.
  simp only [Context.className_withoutProse, hgroups, each, List.flatMap_map]
  exact skeleton_docstring_congr rfl rfl rfl _

theorem skeleton_errorsModule (c : Context) :
    Code.skeleton (errorsModule c).render = Code.skeleton (errorsModule c.withoutProse).render :=
  skeleton_docstring_congr rfl rfl rfl _

theorem skeleton_usageExample (c : Context) :
    Code.skeleton (usageExample c).render = Code.skeleton (usageExample c.withoutProse).render := by
  unfold usageExample
  rw [Context.className_withoutProse, Context.examples_withoutProse]
  exact skeleton_docstring_congr rfl rfl rfl _

theorem steady_typeHint (column : Column) : Steady column.typeHint := by
  cases column <;> exact steady_fixed rfl rfl

theorem closed_modelsModule (c : Context) : Closed (modelsModule c) := by
  have hclass (m : Model) (hm : m ∈ c.models) : isIdentifier m.className = true :=
    ((Model.scope_classNames c.spec.types).bare _ (List.mem_map_of_mem hm)).form
  have hattr (m : Model) (hm : m ∈ c.models) (f : Field) (hf : f ∈ m.fields) :
      isIdentifier f.attr = true :=
    ((Model.scope_attrs Model.taken c.spec.types m hm).bare _ (List.mem_map_of_mem hf)).form
  refine .join_cons (.cons (.docstring rfl rfl rfl) (.fixed rfl rfl (.fixed rfl rfl .nil))) <|
    .join_cons (.each fun m hm => ?_) <|
    .join_cons (.fixed rfl rfl (.fixed rfl rfl .nil)) <|
    .join_cons (.each fun m hm => .cons ?_ .nil) <|
    .join_cons (.fixed rfl rfl .nil) .nil
  · refine .join_cons (.fixed rfl rfl <| .fixed rfl rfl <| .fixed rfl rfl <| .cons ?_ <|
      .cons ?_ <| .fixed rfl rfl .nil) <|
      .join_cons (.each fun f hf => .cons ?_ .nil) <|
      .join_cons (.fixed rfl rfl <| .fixed rfl rfl <| .fixed rfl rfl <| .fixed rfl rfl .nil) <|
      .join_cons (.each fun f hf => .cons ?_ .nil) <|
      .join_cons (.fixed rfl rfl <| .fixed rfl rfl <| .fixed rfl rfl <| .fixed rfl rfl .nil) <|
      .join_cons (.each fun f hf => .cons ?_ .nil) <|
      .join_cons (.fixed rfl rfl .nil) .nil
    · exact .text rfl rfl <| .name (hclass m hm) <| .text rfl rfl .nil
    · exact .text rfl rfl (.docstring rfl rfl rfl)
    · exact .text rfl rfl <| .name (hattr m hm f hf) <| .text rfl rfl <|
        .code (steady_typeHint f.column) <| .text rfl rfl .nil
    · exact .text rfl rfl <| .name (hattr m hm f hf) <| .text rfl rfl <|
        .literal (.fixed rfl rfl) <| .text rfl rfl .nil
    · exact .text rfl rfl <| .literal (.fixed rfl rfl) <| .text rfl rfl <|
        .name (hattr m hm f hf) <| .text rfl rfl .nil
  · exact .text rfl rfl <| .literal (.fixed rfl rfl) <| .text rfl rfl .nil

theorem erased_modelsModule (c : Context) :
    (modelsModule c).erased = (modelsModule c.withoutProse).erased := by
  rw [modelsModule, modelsModule, Context.models_withoutProse]
  exact erased_join_cons rfl <| erased_join_cons (erased_each_map (fun _ => by rfl) _) <|
    erased_join_cons rfl <| erased_join_cons (erased_each_map (fun _ => by rfl) _) rfl

theorem closed_groupClient {g : Group} (hg : g.WellNamed)
    (hpaths : ∀ e ∈ g.endpoints, e.clientPath = pathExpression e.uri e.params) :
    Closed (groupClient g) := by
  refine .join_cons (.cons (.docstring rfl rfl rfl) <| .fixed rfl rfl <| .fixed rfl rfl <|
      .cons ?_ <| .cons ?_ <| .fixed rfl rfl <| .fixed rfl rfl <| .fixed rfl rfl .nil) <|
    .join_cons (.each fun e he => .each fun op hop => ?_) .nil
  · exact .text rfl rfl <| .name hg.pascal.form <| .text rfl rfl .nil
  · exact .text rfl rfl (.docstring rfl rfl rfl)
  · have hargs (p : RouteParam) (hp : p ∈ e.params) : isIdentifier p.arg = true :=
      ((hg.args e he).bare p.arg (List.mem_map_of_mem hp)).form
    have hparams : Steady (Text.concat (e.params.map fun p => ", " ++ p.arg)) := by
      apply steady_concat
      intro part hpart
      obtain ⟨p, hp, rfl⟩ := List.mem_map.mp hpart
      exact (steady_fixed rfl rfl).append (steady_identifier (hargs p hp))
    have hpath : Ended '\'' (Mode.code.after e.clientPath.toList) := by
      rw [hpaths e he]
      exact Mode.pathExpression_read e.uri hargs
    refine .fixed rfl rfl <| .cons ?_ <| .cons ?_ <| .cons ?_ .nil
    · exact .text rfl rfl <| .name (hg.bare_operation he hop).form <| .text rfl rfl <|
        .code hparams <| .code (steady_textIf _ (steady_fixed rfl rfl)) <| .text rfl rfl .nil
    · exact .text rfl rfl (.docstring rfl rfl rfl)
    -- The path is written as a literal of its own, and may be an empty one.
    · exact .text rfl rfl <| .literal (.fixed rfl rfl) <| .text rfl rfl <|
        .quoted hpath (.fixed rfl rfl) <| .text rfl rfl <|
        .code (steady_textIf _ (steady_fixed rfl rfl)) <| .text rfl rfl .nil

theorem erased_groupClient (g : Group) :
    (groupClient g).erased = (groupClient g.withoutProse).erased := by
  refine erased_join_cons rfl <| erased_join_cons ?_ rfl
  exact erased_each_map (fun _ => by exact erased_each_map (fun _ => by rfl) _) _

theorem skeleton_modelsModule (c : Context) :
    Code.skeleton (modelsModule c).render = Code.skeleton (modelsModule c.withoutProse).render :=
  skeleton_eq (closed_modelsModule c) (erased_modelsModule c)

theorem skeleton_groupClient {g : Group} (hg : g.WellNamed)
    (hpaths : ∀ e ∈ g.endpoints, e.clientPath = pathExpression e.uri e.params) :
    Code.skeleton (groupClient g).render = Code.skeleton (groupClient g.withoutProse).render :=
  skeleton_eq (closed_groupClient hg hpaths) (erased_groupClient g)

theorem skeleton_setupScript (c : Context) :
    Code.skeleton (setupScript c).render = Code.skeleton (setupScript c.withoutProse).render := by
  have hargument {name : String} {cs : List Char} (hname : name = .ofList cs)
      (hread : Mode.code.after cs = .code) (text : String) :
      Line.Closed .code [.code name, .literal text, ","] :=
    .text hname hread <| .literal (.fixed rfl rfl) <| .text rfl rfl .nil
  refine skeleton_eq ?_ rfl
  refine .fixed rfl rfl <| .fixed rfl rfl <| .fixed rfl rfl <| .cons (hargument rfl rfl _) <|
    .cons (hargument rfl rfl _) <| .cons (hargument rfl rfl _) ?_
  repeat refine .fixed rfl rfl ?_
  exact .nil

theorem outlines_packageArtifacts (c : Context) :
    outlines (packageArtifacts c) = outlines (packageArtifacts c.withoutProse) := by
  have hpackage := outline_congr (skeleton_packageModule c) (c.package ++ "/__init__.py")
  have herrors := outline_congr (skeleton_errorsModule c) (c.package ++ "/exceptions.py")
  have hmodels := outline_congr (skeleton_modelsModule c) (c.package ++ "/models.py")
  have hresources : resourcesModule c.withoutProse = resourcesModule c := by
    simp only [resourcesModule, Context.withoutProse, each, List.flatMap_map]
    rfl
  have hname : c.withoutProse.package = c.package := rfl
  have hempty : c.withoutProse.models.isEmpty = c.models.isEmpty := by
    rw [Context.models_withoutProse, List.isEmpty_map]
  simp only [packageArtifacts, outlines_append, hname, hempty, hresources]
  split <;> simp only [outlines, List.map_cons, List.map_nil, hpackage, herrors, hmodels] <;> rfl

theorem outlines_groupArtifacts (c : Context) {g : Group} (hg : g.WellNamed)
    (hpaths : ∀ e ∈ g.endpoints, e.clientPath = pathExpression e.uri e.params) :
    outlines (groupArtifacts c g) = outlines (groupArtifacts c.withoutProse g.withoutProse) := by
  have hclient := outline_congr (skeleton_groupClient hg hpaths)
    (groupDirectory c g ++ "/client.py")
  have htests : groupTests g.withoutProse = groupTests g := by
    simp only [groupTests, Group.withoutProse, Endpoint.withoutProse, each, List.flatMap_map]
    rfl
  simp only [groupArtifacts, outlines_append, htests]
  simp only [outlines, List.map_cons, List.map_nil, hclient]
  rfl

theorem testArtifacts_withoutProse (c : Context) :
    testArtifacts c.withoutProse = testArtifacts c := by
  have hfixtures : fixtures c.withoutProse = fixtures c := by
    simp only [fixtures, Context.className_withoutProse]
    rfl
  have haggregate : aggregateTests c.withoutProse = aggregateTests c := by
    simp only [aggregateTests, Context.className_withoutProse]
    simp only [Context.withoutProse, each, List.flatMap_map]
    rfl
  rw [testArtifacts, testArtifacts, hfixtures, haggregate]

theorem outlines_projectArtifacts (c : Context) :
    outlines (projectArtifacts c) = outlines (projectArtifacts c.withoutProse) := by
  have hsetup := outline_congr (skeleton_setupScript c) "setup.py"
  have husage := outline_congr (skeleton_usageExample c) "examples/basic_usage.py"
  have hreadme (text : String) : outline "README.md" text = "" := rfl
  have hpytest : pytestSettings c.withoutProse = pytestSettings c := by
    rw [pytestSettings, pytestSettings, Context.className_withoutProse]
  simp only [outlines, projectArtifacts, List.map_cons, List.map_nil, hsetup, husage, hreadme,
    hpytest]

/-- The outlines of a client library are those for the description without its prose. -/
theorem outlines_artifacts (c : Context) (hgroups : ∀ g ∈ c.groups, g.WellNamed)
    (hpaths : ∀ g ∈ c.groups, ∀ e ∈ g.endpoints, e.clientPath = pathExpression e.uri e.params) :
    outlines (artifacts c) = outlines (artifacts c.withoutProse) := by
  have hmap : outlines (c.groups.flatMap (groupArtifacts c)) =
      outlines (c.withoutProse.groups.flatMap (groupArtifacts c.withoutProse)) := by
    have hfound : c.withoutProse.groups = c.groups.map Group.withoutProse := rfl
    rw [hfound, List.flatMap_map]
    exact outlines_flatMap_congr fun g hg =>
      outlines_groupArtifacts c (hgroups g hg) (hpaths g hg)
  have hsettings : c.withoutProse.settings = c.settings := rfl
  simp only [artifacts, outlines_append, outlines_packageArtifacts c, hmap, hsettings,
    testArtifacts_withoutProse, outlines_projectArtifacts c]

end Client

end RamlScaffold

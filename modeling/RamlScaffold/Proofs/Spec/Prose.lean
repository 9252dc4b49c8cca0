import RamlScaffold.Client.Basic

/-!
The prose of a description: its title, its own description and those of resources, methods and
types. Groups and data classes are formed without a look at it. They take the descriptions over as
they are, so leaving the prose out before or after they are formed comes to the same.
-/

namespace RamlScaffold

def Method.withoutProse (m : Method) : Method := { m with description := "" }

def Resource.withoutProse (r : Resource) : Resource :=
  { r with description := "", methods := r.methods.map Method.withoutProse }

def TypeDef.withoutProse (t : TypeDef) : TypeDef := { t with description := "" }

def Specification.withoutProse (spec : Specification) : Specification :=
  { spec with
    title := "", description := "", resources := spec.resources.map Resource.withoutProse,
    types := spec.types.map TypeDef.withoutProse }

def Operation.withoutProse (op : Operation) : Operation := { op with description := "" }

def Endpoint.withoutProse (e : Endpoint) : Endpoint :=
  { e with description := "", operations := e.operations.map Operation.withoutProse }

def Group.withoutProse (g : Group) : Group :=
  { g with endpoints := g.endpoints.map Endpoint.withoutProse }

def Client.Model.withoutProse (m : Client.Model) : Client.Model := { m with description := "" }

theorem Operation.ofMethods_withoutProse (group : GroupName) (params : List RouteParam)
    (isItem : Bool) (seen : List String) (methods : List Method) :
    ofMethods group params isItem seen (methods.map Method.withoutProse) =
      (ofMethods group params isItem seen methods).map withoutProse := by
  induction methods generalizing seen with
  | nil => rfl
  | cons m rest ih =>
    simp only [List.map_cons, ofMethods, ih]
    rfl

theorem Endpoint.ofResource_withoutProse (group : GroupName) (version : String)
    (seen : List String) (r : Resource) :
    ofResource group version seen r.withoutProse =
      (ofResource group version seen r).withoutProse := by
  simp only [ofResource, withoutProse, Resource.withoutProse, Operation.ofMethods_withoutProse]
  rfl

theorem Endpoint.ofResources_withoutProse (group : GroupName) (version : String)
    (seen : List String) (resources : List Resource) :
    ofResources group version seen (resources.map Resource.withoutProse) =
      (ofResources group version seen resources).map withoutProse := by
  induction resources generalizing seen with
  | nil => rfl
  | cons r rest ih =>
    have hnames : (ofResource group version seen r).withoutProse.operations.map (·.name) =
        (ofResource group version seen r).operations.map (·.name) := by
      simp [withoutProse, Operation.withoutProse, Function.comp_def]
    simp only [List.map_cons, ofResources, ofResource_withoutProse, hnames, ih]

namespace Group

def Cluster.withoutProse (cluster : Cluster) : Cluster :=
  (cluster.1, cluster.2.map Resource.withoutProse)

theorem addResource_withoutProse (name : GroupName) (r : Resource) (found : List Cluster) :
    addResource name r.withoutProse (found.map Cluster.withoutProse) =
      (addResource name r found).map Cluster.withoutProse := by
  induction found with
  | nil => rfl
  | cons cluster rest ih =>
    obtain ⟨n, rs⟩ := cluster
    simp only [List.map_cons, Cluster.withoutProse, addResource] at ih ⊢
    split
    · simp [Cluster.withoutProse]
    · simp [Cluster.withoutProse, ih]

theorem clusters_withoutProse (resources : List Resource) :
    clusters (resources.map Resource.withoutProse) =
      (clusters resources).map Cluster.withoutProse := by
  have hfold (found : List Cluster) :
      (resources.map Resource.withoutProse).foldl (fun found r =>
        addResource (GroupName.derive (Endpoint.groupOf r.uri)) r found)
        (found.map Cluster.withoutProse) =
      (resources.foldl (fun found r =>
        addResource (GroupName.derive (Endpoint.groupOf r.uri)) r found) found).map
        Cluster.withoutProse := by
    induction resources generalizing found with
    | nil => rfl
    | cons r rest ih =>
      simp only [List.map_cons, List.foldl_cons]
      rw [← ih, ← addResource_withoutProse]
      rfl
  exact hfold []

end Group

theorem Field.infer_withoutProse (spec : Specification) (groupName : String)
    (resources : List Resource) :
    infer spec.withoutProse groupName (resources.map Resource.withoutProse) =
      infer spec groupName resources := by
  have htype : spec.withoutProse.typeDef? groupName =
      (spec.typeDef? groupName).map TypeDef.withoutProse := by
    simp only [Specification.typeDef?, Specification.withoutProse, List.find?_map]
    rfl
  have hkeys : observedKeys (resources.map Resource.withoutProse) = observedKeys resources := by
    simp only [observedKeys, List.flatMap_map, Resource.withoutProse]
    rfl
  unfold infer
  rw [htype, hkeys]
  cases spec.typeDef? groupName <;> rfl

/-- Prose decides nothing about the groups of a description. -/
theorem Group.ofSpecification_withoutProse (spec : Specification) (version : String) :
    ofSpecification spec.withoutProse version =
      (ofSpecification spec version).map withoutProse := by
  simp only [ofSpecification, Specification.withoutProse, clusters_withoutProse, List.map_map]
  apply List.map_congr_left
  rintro ⟨name, resources⟩ -
  have hfields := Field.infer_withoutProse spec name.raw resources
  simp only [Function.comp_apply, Cluster.withoutProse, withoutProse,
    Endpoint.ofResources_withoutProse]
  rw [← hfields]
  rfl

theorem Client.Model.ofTypes_withoutProse (seen : List String) (types : List TypeDef) :
    ofTypes seen (types.map TypeDef.withoutProse) = (ofTypes seen types).map withoutProse := by
  induction types generalizing seen with
  | nil => rfl
  | cons t rest ih =>
    simp only [List.map_cons, ofTypes]
    rw [← ih]
    rfl

end RamlScaffold

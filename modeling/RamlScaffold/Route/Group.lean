import RamlScaffold.Entity.Field
import RamlScaffold.Route.Operation

/-!
Resource groups, the units for which artifacts are made. Resources belong together when the last
literal segments of their URIs give the same name.
-/

namespace RamlScaffold

structure Endpoint where
  uri : String
  /-- The route rule below the version. -/
  routePath : String
  /-- The Python expression for the path of a request. -/
  clientPath : String
  /-- A concrete path below the version. -/
  testPath : String
  /-- A concrete path for the client. -/
  clientTestPath : String
  description : String
  params : List RouteParam
  operations : List Operation
deriving DecidableEq, Repr

namespace Endpoint

def args (e : Endpoint) : String := Text.joinWith ", " (e.params.map (·.arg))

/-- The argument that identifies the entity: the last one. -/
def idArg (e : Endpoint) : Option String := e.params.getLast?.map (·.arg)

def isParamSegment (segment : String) : Bool :=
  segment.toList.head? == some '\x7b' && segment.toList.getLast? == some '\x7d'

def segments (uri : String) : List String := (Text.splitOn '/' uri).filter (· != "")

/-- The name of the group when a URI has no literal segment. -/
def fallbackGroup : String := "resource"

/-- The last literal segment of a URI. -/
def groupOf (uri : String) : String :=
  ((segments uri).filter fun s => !isParamSegment s).getLast?.getD fallbackGroup

def isItem (uri : String) : Bool :=
  match (segments uri).getLast? with
  | some s => isParamSegment s
  | none => false

/-- The URI below the version: with one slash in front, and without the version when that is the
first of several segments. -/
def dropVersion (version uri : String) : String :=
  let relative := Text.trimHeadChar '/' uri
  "/" ++ (Text.dropStart? (version ++ "/") relative).getD relative

def ofResource (group : GroupName) (version : String) (seen : List String) (r : Resource) :
    Endpoint :=
  let params := RouteParam.ofResource r
  let relative := dropVersion version r.uri
  { uri := r.uri
    routePath := routeRule relative params
    clientPath := pathExpression r.uri params
    testPath := samplePath relative params
    clientTestPath := samplePath r.uri params
    description := r.description
    params
    operations := Operation.ofMethods group params (isItem r.uri) seen r.methods }

/-- The endpoints of resources in order, with operation names new to `seen` and to those before. -/
def ofResources (group : GroupName) (version : String) (seen : List String) :
    List Resource → List Endpoint
  | [] => []
  | r :: rest =>
    let endpoint := ofResource group version seen r
    endpoint :: ofResources group version (endpoint.operations.map (·.name) ++ seen) rest

end Endpoint

structure Group where
  name : GroupName
  endpoints : List Endpoint
  fields : List Field
  origin : Field.Origin
deriving DecidableEq, Repr

namespace Group

def operations (g : Group) : List (Endpoint × Operation) :=
  g.endpoints.flatMap fun e => e.operations.map fun op => (e, op)

def hasVerb (g : Group) (verb : Verb) : Bool := g.operations.any fun (_, op) => op.verb == verb

/-- A name with the resources that were found for it. -/
abbrev Cluster := GroupName × List Resource

/-- Adds a resource to the cluster of its name, or opens one at the end. -/
def addResource (name : GroupName) (r : Resource) : List Cluster → List Cluster
  | [] => [(name, [r])]
  | (n, rs) :: rest =>
    if n.snake == name.snake then (n, rs ++ [r]) :: rest else (n, rs) :: addResource name r rest

/-- The resources by name, in order of first appearance. -/
def clusters (resources : List Resource) : List Cluster :=
  resources.foldl (fun found r =>
    addResource (GroupName.derive (Endpoint.groupOf r.uri)) r found) []

def ofSpecification (spec : Specification) (version : String) : List Group :=
  (clusters spec.resources).map fun (name, resources) =>
    let (fields, origin) := Field.infer spec name.raw resources
    { name, endpoints := Endpoint.ofResources name version [] resources, fields, origin }

end Group

end RamlScaffold

import RamlScaffold.Document.Value
import RamlScaffold.Spec.Uri
import RamlScaffold.Spec.Verb
import RamlScaffold.Text.Blank

/-!
API descriptions: resources with their methods, bodies and responses, and the declared types.
-/

namespace RamlScaffold

structure Body where
  typeName : String
  properties : Fields Value
  required : List String
  sample : Value
  /-- The text of a schema; empty when there is none. -/
  schema : String
deriving Repr

def Body.ofType (typeName : String) : Body := ⟨typeName, [], [], .map [], ""⟩

/-- Bodies by media type, in byte order of the media types. -/
abbrev Bodies := Fields Body

structure Response where
  description : String
  headers : Fields Value
  body : Bodies
deriving Repr

structure Method where
  verb : Verb
  displayName : String
  description : String
  queryParameters : Fields Value
  headers : Fields Value
  body : Bodies
  /-- Responses by status code, in byte order of the codes. -/
  responses : Fields Response
  securedBy : List String
  traits : List String
deriving Repr

namespace Method

/-- A method about which nothing is said but its verb. -/
def bare (verb : Verb) : Method := ⟨verb, verb.upper, "", [], [], [], [], [], []⟩

/-- The request bodies and then the response bodies. -/
def allBodies (m : Method) : List Body :=
  m.body.map (·.2) ++ m.responses.flatMap fun r => r.2.body.map (·.2)

end Method

/-- A placeholder of a resource URI and what is declared for it. -/
structure PathParameter where
  name : String
  declared : Option Value
deriving Repr

/-- The declared type of a parameter: a text, or the `type` of a mapping; otherwise `string`. -/
def PathParameter.declaredType (p : PathParameter) : String :=
  match p.declared with
  | some (.text s) => s
  | some (.map fields) =>
    match Fields.get? "type" fields with
    | some (.text s) => s
    | _ => "string"
  | _ => "string"

structure Resource where
  /-- The URI of the enclosing resource followed by the own key. -/
  uri : String
  displayName : String
  description : String
  methods : List Method
  /-- Declarations by parameter name. -/
  uriParameters : Fields Value
deriving Repr

namespace Resource

/-- The placeholders of the URI in order, each with its declaration. -/
def pathParameters (r : Resource) : List PathParameter :=
  (Uri.names r.uri).map fun name => ⟨name, Fields.get? name r.uriParameters⟩

/-- The declared parameters that the URI does not mention. -/
def strayParameters (r : Resource) : List String :=
  r.uriParameters.keys.filter fun name => !(Uri.names r.uri).contains name

end Resource

structure TypeDef where
  name : String
  kind : String
  properties : Fields Value
  required : List String
  description : String
  sample : Value
deriving Repr

def TypeDef.bare (name kind : String) : TypeDef := ⟨name, kind, [], [], "", .map []⟩

structure Specification where
  title : String
  version : String
  baseUri : String
  description : String
  /-- The media type of bodies that are declared without one. -/
  mediaType : String
  protocols : List String
  securitySchemes : Fields Value
  traits : Fields Value
  /-- Resources in document order, each before the ones nested in it. -/
  resources : List Resource
  types : List TypeDef
deriving Repr

namespace Specification

def typeDef? (spec : Specification) (name : String) : Option TypeDef :=
  spec.types.find? (·.name == name)

def methodCount (spec : Specification) : Nat :=
  (spec.resources.map (·.methods.length)).foldl (· + ·) 0

/-- The title in lower case, with an underscore for everything but ASCII letters and digits and
none at either end. -/
def slug (spec : Specification) : String :=
  Text.trimChar '_' (Text.mapChars (fun c => if Text.isAlnum c then [c] else ['_'])
    (Text.lower spec.title))

end Specification

end RamlScaffold

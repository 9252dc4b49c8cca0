import RamlScaffold.Document.Sorted
import RamlScaffold.Json.Reader
import RamlScaffold.Spec.Basic

/-!
From the fields of a document to an API description. Nothing is refused: a field of an unexpected
shape counts as absent, and keys without a meaning are passed over.
-/

namespace RamlScaffold.Spec

def textOr (fallback : String) (value : Option Value) : String :=
  (value.bind Value.scalar?).getD fallback

def fieldsOr (value : Option Value) : Fields Value := (value.bind Value.fields?).getD []

/-- References written as one name, a list of names, or mappings whose keys are the names. -/
def references : Value → List String
  | .list items => items.filterMap fun item =>
    match item with
    | .null => some "null"
    | .map fields => (Fields.keys fields).head?
    | other => other.scalar?
  | .null => []
  | .map fields => Fields.keys fields
  | other => other.scalar?.toList

/-- The name of a type and the properties written inside it. -/
def splitType : Option Value → String × Fields Value
  | some (.map fields) =>
    (textOr "object" (Fields.get? "type" fields), fieldsOr (Fields.get? "properties" fields))
  | some (.list items) =>
    let names := items.filterMap Value.scalar?
    (if names.isEmpty then "object" else Text.joinWith " | " names, [])
  | some other => (other.scalar?.getD "object", [])
  | none => ("object", [])

/-- Whether the schema of a property says `required: true`. -/
def saysRequired : Value → Bool
  | .map fields =>
    match Fields.get? "required" fields with
    | some (.bool b) => b
    | _ => false
  | _ => false

/-- The names in a `required` list; without a list, the properties that say so themselves. -/
def requiredNames (fields properties : Fields Value) : List String :=
  match Fields.get? "required" fields with
  | some (.list items) => items.filterMap Value.scalar?
  | _ => (properties.filter fun p => saysRequired p.2).map (·.1)

/-- The `properties` of a mapping, or those that its `type` holds. -/
def propertiesOr (inline fields : Fields Value) : Fields Value :=
  match Fields.get? "properties" fields with
  | some (.map properties) => properties
  | _ => inline

/-- The `example` of a mapping, or an empty mapping. -/
def sampleOf (fields : Fields Value) : Value := (Fields.get? "example" fields).getD (.map [])

def bodyOf (fields : Fields Value) : Body :=
  let (typeName, inline) := splitType (Fields.get? "type" fields)
  let properties := propertiesOr inline fields
  { typeName
    properties
    required := requiredNames fields properties
    sample := sampleOf fields
    schema := textOr "" (Fields.get? "schema" fields) }

/-- Keys that show that a body is written without its media type. -/
def bodyKeys : List String := ["type", "properties", "example", "schema", "required"]

/-- Whether a mapping is a single body rather than bodies by media type. -/
def isSingleBody (fields : Fields Value) : Bool :=
  !fields.isEmpty && fields.keys.all (fun k => !k.toList.contains '/')
    && fields.keys.any fun k => bodyKeys.contains k

/-- Bodies by media type; a body without one belongs to `mediaType`. -/
def bodiesOf (mediaType : String) : Value → Bodies
  | .map fields =>
    if isSingleBody fields then [(mediaType, bodyOf fields)]
    else Fields.sorted (fields.map fun (media, value) =>
      (media, match value with
        | .map inner => bodyOf inner
        | .null => .ofType "object"
        | other => .ofType (other.scalar?.getD "object")))
  | .text typeName => [(mediaType, .ofType typeName)]
  | _ => []

def responsesOf (mediaType : String) (fields : Fields Value) : Fields Response :=
  Fields.sorted (fields.map fun (status, value) =>
    (status, match value with
      | .map data =>
        { description := textOr "" (Fields.get? "description" data)
          headers := fieldsOr (Fields.get? "headers" data)
          body := ((Fields.get? "body" data).map (bodiesOf mediaType)).getD [] }
      | other => ⟨other.scalar?.getD "", [], []⟩))

/-- A method from whatever its key holds: fields, a description, or nothing of use. -/
def methodOf (mediaType : String) (verb : Verb) : Value → Method
  | .map data =>
    { verb
      displayName := textOr verb.upper (Fields.get? "displayName" data)
      description := textOr "" (Fields.get? "description" data)
      queryParameters := fieldsOr (Fields.get? "queryParameters" data)
      headers := fieldsOr (Fields.get? "headers" data)
      body := ((Fields.get? "body" data).map (bodiesOf mediaType)).getD []
      responses := (((Fields.get? "responses" data).bind Value.fields?).map
        (responsesOf mediaType)).getD []
      securedBy := ((Fields.get? "securedBy" data).map references).getD []
      traits := ((Fields.get? "is" data).map references).getD [] }
  | other => { Method.bare verb with description := other.scalar?.getD "" }

/-- The methods among the fields of a resource, in document order. -/
def methodsOf (mediaType : String) (fields : Fields Value) : List Method :=
  fields.filterMap fun (key, value) =>
    (Verb.parse? key).map fun verb => methodOf mediaType verb value

/-- The resource under a key, without the ones nested in it. -/
def resourceOf (mediaType uri key : String) (fields : Fields Value) : Resource :=
  { uri
    displayName := textOr key (Fields.get? "displayName" fields)
    description := textOr "" (Fields.get? "description" fields)
    methods := methodsOf mediaType fields
    uriParameters := fieldsOr (Fields.get? "uriParameters" fields) }

def isResourceKey (key : String) : Bool := key.toList.head? == some '/'

mutual

/-- The resources nested in a value, each before the ones nested in it. -/
def resourcesIn (mediaType parent : String) : Value → List Resource
  | .map fields => resourcesOf mediaType parent fields
  | _ => []
termination_by structural v => v

def resourcesOf (mediaType parent : String) : List (String × Value) → List Resource
  | [] => []
  | (key, value) :: rest =>
    (if isResourceKey key then
      let uri := parent ++ key
      resourceOf mediaType uri key (value.fields?.getD []) :: resourcesIn mediaType uri value
    else []) ++ resourcesOf mediaType parent rest
termination_by structural fs => fs

end

/-- A type from the fields of its declaration. -/
def typeOfFields (name : String) (fields : Fields Value) : TypeDef :=
  let (kind, inline) := splitType (Fields.get? "type" fields)
  let properties := propertiesOr inline fields
  { name
    kind
    properties
    required := requiredNames fields properties
    description := textOr "" (Fields.get? "description" fields)
    sample := sampleOf fields }

/-- A type from its declaration. A text of several lines is taken as JSON. -/
def typeOf (name : String) : Value → TypeDef
  | .map fields => typeOfFields name fields
  | .text s =>
    if s.toList.contains '\n' then
      match Json.parse? s with
      | some (.map fields) => typeOfFields name fields
      | _ => .bare name "object"
    else .bare name s
  | other => .bare name (other.scalar?.getD "object")

def typesOf : Value → List TypeDef
  | .map fields => fields.map fun (name, value) => typeOf name value
  | _ => []

def present (value : Option Value) : Option Value := value.filter fun v => !v.isNull

def ofFields (root : Fields Value) : Specification :=
  let mediaType := textOr "application/json" (Fields.get? "mediaType" root)
  { title := textOr "API" (Fields.get? "title" root)
    version := textOr "1.0" (Fields.get? "version" root)
    baseUri := textOr "/api" (Fields.get? "baseUri" root)
    description := textOr "" (Fields.get? "description" root)
    mediaType
    protocols := ((present (Fields.get? "protocols" root)).map references).getD ["HTTP", "HTTPS"]
    securitySchemes := fieldsOr (Fields.get? "securitySchemes" root)
    traits := fieldsOr (Fields.get? "traits" root)
    resources := resourcesOf mediaType "" root
    types := (((present (Fields.get? "types" root)).or (Fields.get? "schemas" root)).map
      typesOf).getD [] }

end RamlScaffold.Spec

import RamlScaffold.Code.Identifier
import RamlScaffold.Code.Literal
import RamlScaffold.Entity.Column
import RamlScaffold.Naming.Fresh
import RamlScaffold.Naming.Words
import RamlScaffold.Spec.Basic

/-!
The stored fields of an entity: each has its key in documents, its attribute in Python and a
column. Attributes are valid identifiers, distinct within an entity, and never names that the
generated classes use themselves.
-/

namespace RamlScaffold

structure Field where
  /-- The property name as it is written. -/
  key : String
  attr : String
  column : Column
  required : Bool
  default : Option String
deriving DecidableEq, Repr

namespace Field

/-- Attributes that the generated classes or their base classes have already. -/
def reserved : List String :=
  ["metadata", "query", "query_class", "registry", "fields", "opts", "context", "load", "loads",
    "dump", "dumps", "validate", "to_dict", "from_dict", "create", "update", "delete"]

/-- The attribute for a property. Question marks at the end of a key mark optional properties and
are not part of the name. -/
def attrOf (key : String) : String :=
  Code.avoid reserved (Code.identifier (Naming.snake (Text.trimTailChar '?' key)) "field")

/-- Whether the field is the primary key: that is the attribute `id`. -/
def primaryKey (f : Field) : Bool := f.attr == "id"

/-- Whether the key in documents differs from the attribute. -/
def renamed (f : Field) : Bool := f.key != f.attr

def sample (f : Field) : String := f.column.sample f.attr

/-- What is declared of a property: its key, its type and whether it is required. -/
structure Declaration where
  key : String
  typeName : String
  required : Bool
deriving DecidableEq, Repr

/-- The fields for a list of declarations, in order, with distinct attributes. -/
def ofDeclarations (seen : List String) : List Declaration → List Field
  | [] => []
  | d :: rest =>
    let attr := Naming.fresh seen (attrOf d.key)
    { key := d.key, attr, column := Column.ofType d.typeName, required := d.required,
      default := none } :: ofDeclarations (attr :: seen) rest

/-- The type of a property by its schema: the text itself, or what the facets of a mapping say. -/
def propertyType : Value → String
  | .text s => s
  | .map facets =>
    match Fields.get? "type" facets with
    | some (.text s) => s
    | some (.map _) => "object"
    | some (.list _) => "string"
    | _ =>
      if (Fields.get? "properties" facets).isSome then "object"
      else if (Fields.get? "items" facets).isSome then "array"
      else "string"
  | _ => "string"

def ofProperties (properties : Fields Value) (required : List String) : List Field :=
  ofDeclarations [] (properties.map fun (key, schema) =>
    ⟨key, propertyType schema, required.contains key⟩)

def defaults : List Field :=
  [⟨"id", "id", .integer, true, none⟩, ⟨"name", "name", .string, true, none⟩,
    ⟨"created_at", "created_at", .dateTime, false, some "datetime.utcnow"⟩]

/-- Where the fields of an entity come from. -/
inductive Origin where
  /-- The declared type with the name of the group. -/
  | declared
  /-- The properties of request and response bodies. -/
  | observed
  | default
deriving DecidableEq, Repr

def Origin.text : Origin → String
  | .declared => "TypeDef"
  | .observed => "Observed"
  | .default => "Default"

/-- The list without repetitions, each item at its first place. -/
def distinct (seen : List String) : List String → List String
  | [] => []
  | s :: rest => if seen.contains s then distinct seen rest else s :: distinct (s :: seen) rest

/-- The property names in the bodies of resources, in the order in which they are first met. -/
def observedKeys (resources : List Resource) : List String :=
  distinct [] (resources.flatMap fun r => r.methods.flatMap fun m =>
    m.allBodies.flatMap fun b => b.properties.keys)

/-- The fields of a group. A type with the group's name decides alone; without one the bodies of
the resources count; when neither gives a property the defaults are used. -/
def infer (spec : Specification) (groupName : String) (resources : List Resource) :
    List Field × Origin :=
  match spec.typeDef? groupName with
  | some type =>
    if type.properties.isEmpty then (defaults, .default)
    else (ofProperties type.properties type.required, .declared)
  | none =>
    match observedKeys resources with
    | [] => (defaults, .default)
    | keys => (ofDeclarations [] (keys.map fun key => ⟨key, "string", false⟩), .observed)

/-- A dictionary of sample data: all fields but the primary key, those with a default and those
without a sample. -/
def samplePayload (fields : List Field) : String :=
  let shown := fields.filter fun f => !(f.primaryKey || f.default.isSome || f.sample == "None")
  "\x7b" ++ Text.joinWith ", " (shown.map fun f => Code.quote f.key ++ ": " ++ f.sample) ++ "\x7d"

/-- The field that a search looks into: the name, else the first text that is no primary key. -/
def searchField? (fields : List Field) : Option Field :=
  match fields.find? fun f => f.attr == "name" && f.column == .string with
  | some f => some f
  | none => fields.find? fun f => f.column == .string && !f.primaryKey

end Field

end RamlScaffold

import RamlScaffold.Naming.GroupName
import RamlScaffold.Route.Param
import RamlScaffold.Text.Number

/-!
Operations: one verb on one endpoint, with the name that the route, its test and the client method
share.
-/

namespace RamlScaffold

structure Operation where
  name : String
  verb : Verb
  description : String
  /-- Whether the URI ends in a parameter. -/
  isItem : Bool
  secured : Bool
  successStatus : Nat
deriving DecidableEq, Repr

namespace Operation

def word (isItem : Bool) : Verb → String
  | .get => if isItem then "get" else "list"
  | .post => "create"
  | .put => "update"
  | .patch => "patch"
  | .delete => "delete"
  | .head => "head"
  | .options => "options"

/-- The name that an operation asks for: the word, the group and the arguments. -/
def baseName (verb : Verb) (isItem : Bool) (group : GroupName) (params : List RouteParam) :
    String :=
  let stem := word isItem verb ++ "_" ++ group.snake
  if params.isEmpty then stem
  else
    stem ++ "_by_" ++ Text.joinWith "_and_" (params.map fun p => Text.trimTailChar '_' p.arg)

/-- The status of success for a verb when none is declared. -/
def defaultStatus : Verb → Nat
  | .post => 201
  | .delete => 204
  | _ => 200

/-- The number that a status key spells; a plus sign may stand before the digits. -/
def statusCode? (key : String) : Option Nat :=
  match key.toList with
  | '+' :: digits => Text.natOfDigits? 10 digits
  | digits => Text.natOfDigits? 10 digits

/-- The first declared status of success, or the default of the verb. -/
def statusOf (method : Method) : Nat :=
  let codes := method.responses.keys.filterMap statusCode?
  (codes.find? fun code => 200 ≤ code && code < 300).getD (defaultStatus method.verb)

/-- Whether a method is secured by anything but the null scheme. -/
def isSecured (method : Method) : Bool := method.securedBy.any (· != "null")

/-- What an operation does: its description, else its verb and URI. -/
def summary (op : Operation) (uri : String) : String :=
  if op.description == "" then op.verb.upper ++ " " ++ uri else op.description

def hasBody (op : Operation) : Bool := op.verb == .post || op.verb == .put || op.verb == .patch

/-- The statuses that a request to an empty database may have. -/
def expectedStatuses (op : Operation) : List Nat :=
  match op.verb, op.isItem with
  | .get, true => [op.successStatus, 404]
  | .post, _ => [op.successStatus, 400]
  | .put, true => [op.successStatus, 400, 404]
  | .patch, true => [op.successStatus, 400, 404]
  | .delete, true => [op.successStatus, 404]
  | .put, false => [405]
  | .patch, false => [405]
  | .delete, false => [405]
  | _, _ => [op.successStatus]

/-- The operations for methods of one endpoint, with names new to `seen`. -/
def ofMethods (group : GroupName) (params : List RouteParam) (isItem : Bool) (seen : List String) :
    List Method → List Operation
  | [] => []
  | m :: rest =>
    let name := Naming.fresh seen (baseName m.verb isItem group params)
    { name, verb := m.verb, description := m.description, isItem, secured := isSecured m,
      successStatus := statusOf m } :: ofMethods group params isItem (name :: seen) rest

end Operation

end RamlScaffold

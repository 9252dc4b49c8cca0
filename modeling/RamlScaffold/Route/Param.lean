import RamlScaffold.Code.Identifier
import RamlScaffold.Code.Literal
import RamlScaffold.Naming.Fresh
import RamlScaffold.Naming.Words
import RamlScaffold.Spec.Basic

/-!
Route parameters: the placeholders of a URI bound to Python arguments.
-/

namespace RamlScaffold

inductive Converter where
  | text
  | integer
  | float
deriving DecidableEq, Repr

namespace Converter

def ofType (typeName : String) : Converter :=
  match typeName with
  | "integer" => .integer
  | "number" => .float
  | _ => .text

/-- The name of the converter in a route rule; texts have none. -/
def name : Converter → String
  | .text => ""
  | .integer => "int"
  | .float => "float"

def sampleText : Converter → String
  | .text => "test"
  | .integer => "1"
  | .float => "1.5"

def sampleLiteral : Converter → String
  | .text => Code.quote "test"
  | .integer => "1"
  | .float => "1.5"

end Converter

structure RouteParam where
  /-- The name between the braces. -/
  name : String
  arg : String
  converter : Converter
deriving DecidableEq, Repr

namespace RouteParam

/-- Argument names that the generated functions use themselves. -/
def reserved : List String := ["self", "data", "params", "base", "client", "request"]

/-- The argument name that a parameter asks for. -/
def argument (name : String) : String :=
  Code.avoid reserved (Code.identifier (Naming.snake name) "param")

def ofParameters (seen : List String) : List PathParameter → List RouteParam
  | [] => []
  | p :: rest =>
    let arg := Naming.fresh seen (argument p.name)
    ⟨p.name, arg, Converter.ofType p.declaredType⟩ :: ofParameters (arg :: seen) rest

def ofResource (resource : Resource) : List RouteParam := ofParameters [] resource.pathParameters

/-- The variable part of a route rule. -/
def rule (p : RouteParam) : String :=
  if p.converter == .text then "<" ++ p.arg ++ ">"
  else "<" ++ p.converter.name ++ ":" ++ p.arg ++ ">"

def sample (p : RouteParam) : String := p.converter.sampleLiteral

end RouteParam

def routeRule (path : String) (params : List RouteParam) : String :=
  Uri.substitute path (params.map RouteParam.rule)

def samplePath (path : String) (params : List RouteParam) : String :=
  Uri.substitute path (params.map (·.converter.sampleText))

/-- The Python expression for a path: a plain literal, or an f-string when there are parameters. -/
def pathExpression (uri : String) (params : List RouteParam) : String :=
  if params.isEmpty then Code.quote uri
  else
    let fillers := params.map fun p => "\x7b" ++ p.arg ++ "\x7d"
    .ofList (['f', '\''] ++ Uri.fill Code.formatChar (Uri.split uri) fillers ++ ['\''])

end RamlScaffold

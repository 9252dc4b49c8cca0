import RamlScaffold.Decimal.Shortest

/-!
Document values: what a YAML or JSON text denotes once tags and includes are gone. Mappings keep
the order of their keys; a key written twice keeps its first position and its last value.
-/

namespace RamlScaffold

inductive Number where
  | int (value : Int)
  | float (negative : Bool) (magnitude : Decimal.Binary64)
deriving DecidableEq, Repr

/-- The text of a number: integers in decimal, floats with the fewest digits that read back. -/
def Number.text : Number → String
  | .int value => if value < 0 then "-" ++ String.ofList (Nat.toDigits 10 value.natAbs)
    else String.ofList (Nat.toDigits 10 value.natAbs)
  | .float negative magnitude =>
    .ofList ((if negative then ['-'] else []) ++ magnitude.render)

abbrev Fields (α : Type) := List (String × α)

namespace Fields

variable {α β : Type}

def get? (key : String) : Fields α → Option α
  | [] => none
  | (k, v) :: rest => if k == key then some v else get? key rest

def keys (fields : Fields α) : List String := fields.map (·.1)

/-- Sets a key: in place when it is present, at the end when it is new. -/
def put (key : String) (value : α) : Fields α → Fields α
  | [] => [(key, value)]
  | (k, v) :: rest => if k == key then (k, value) :: rest else (k, v) :: put key value rest

/-- The mapping written by a sequence of entries: each key once, in the order of first occurrence,
with the value of its last occurrence. -/
def ofEntries (entries : List (String × α)) : Fields α :=
  entries.foldl (fun fields entry => put entry.1 entry.2 fields) []

end Fields

inductive Value where
  | null
  | bool (value : Bool)
  | number (value : Number)
  | text (value : String)
  | list (items : List Value)
  | map (fields : List (String × Value))
deriving Inhabited, Repr

namespace Value

def fields? : Value → Option (Fields Value)
  | .map fields => some fields
  | _ => none

def text? : Value → Option String
  | .text s => some s
  | _ => none

def isNull : Value → Bool
  | .null => true
  | _ => false

/-- The text of a scalar: strings, numbers and booleans have one. -/
def scalar? : Value → Option String
  | .text s => some s
  | .number n => some n.text
  | .bool b => some (if b then "true" else "false")
  | _ => none

end Value

end RamlScaffold

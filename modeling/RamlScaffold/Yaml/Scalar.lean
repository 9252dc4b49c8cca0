import RamlScaffold.Text.Basic
import RamlScaffold.Text.Number
import RamlScaffold.Text.Shown
import RamlScaffold.Yaml.Fault

/-!
What scalars denote. Plain text that spells null, a boolean or a number denotes it; a tag can ask
for one of these kinds, and all other text denotes itself. Integers that need more than 64 bits
are refused up to 128 bits and become floats beyond.
-/

namespace RamlScaffold.Yaml

inductive Scalar where
  | null
  | bool (value : Bool)
  | number (value : Number)
  | text (value : String)
deriving DecidableEq, Repr

def spellsNull (s : String) : Bool := s == "null" || s == "Null" || s == "NULL" || s == "~"

def bool? (s : String) : Option Bool :=
  if s == "true" || s == "True" || s == "TRUE" then some true
  else if s == "false" || s == "False" || s == "FALSE" then some false
  else none

/-- Digits with a zero in front, after an optional sign, are a text and no number. -/
def isZeroPadded (cs : List Char) : Bool :=
  let body :=
    match cs with
    | '-' :: more => more
    | '+' :: more => more
    | _ => cs
  match body with
  | '0' :: d :: more => (d :: more).all Text.isDigit
  | _ => false

def magnitude? (padded : Bool) (cs : List Char) : Option Nat :=
  match cs with
  | '0' :: 'x' :: more => Text.natOfDigits? 16 more
  | '0' :: 'o' :: more => Text.natOfDigits? 8 more
  | '0' :: 'b' :: more => Text.natOfDigits? 2 more
  | _ => if padded then none else Text.natOfDigits? 10 cs

/-- The integer that a text spells: an optional sign, an optional base mark, digits. -/
def int? (cs : List Char) : Option Int :=
  let padded := isZeroPadded cs
  match cs with
  | '-' :: more => (magnitude? padded more).map fun n => -(n : Int)
  | '+' :: more => (magnitude? padded more).map fun n => (n : Int)
  | _ => (magnitude? padded cs).map fun n => (n : Int)

/-- The integer of a text when it fits 64 bits, an error when it needs up to 128, none otherwise. -/
def integer? (s : String) : Except BadValue (Option Number) :=
  match int? s.toList with
  | none => .ok none
  | some value =>
    if -(Text.bitLimit 63 : Int) ≤ value && value < Text.bitLimit 64 then .ok (some (.int value))
    else if 0 ≤ value && value < Text.bitLimit 128 then .error (.wideInteger value false)
    else if -(Text.bitLimit 127 : Int) ≤ value && value < 0 then .error (.wideInteger value true)
    else .ok none

/-- What a float that is not finite becomes: its name. -/
def nonFinite? (s : String) : Option String :=
  if s == ".inf" || s == ".Inf" || s == ".INF" || s == "+.inf" || s == "+.Inf" || s == "+.INF" then
    some "inf"
  else if s == "-.inf" || s == "-.Inf" || s == "-.INF" then some "-inf"
  else if s == ".nan" || s == ".NaN" || s == ".NAN" then some "NaN"
  else none

def floatScalar? (s : String) : Option Scalar :=
  match nonFinite? s with
  | some name => some (.text name)
  | none =>
    match s.toList with
    | '+' :: '+' :: _ => none
    | '+' :: '-' :: _ => none
    | cs => (Text.float? cs).map .number

def plainScalar (s : String) : Except BadValue Scalar :=
  if s == "" || spellsNull s then .ok .null
  else
    match bool? s with
    | some b => .ok (.bool b)
    | none =>
      match integer? s with
      | .error bad => .error bad
      | .ok (some n) => .ok (.number n)
      | .ok none =>
        match (if isZeroPadded s.toList then none else floatScalar? s) with
        | some scalar => .ok scalar
        | none => .ok (.text s)

def quoteChar (c : Char) : List Char :=
  if c == '"' then ['\\', '"']
  else if c == '\\' then ['\\', '\\']
  else if c == '\x00' then ['\\', '0']
  else if c == '\t' then ['\\', 't']
  else if c == '\n' then ['\\', 'n']
  else if c == '\r' then ['\\', 'r']
  else if Text.isShown c then [c]
  else "\\u\x7b".toList ++ Nat.toDigits 16 c.toNat ++ ['\x7d']

def quoted (s : String) : String := .ofList ('"' :: (s.toList.flatMap quoteChar ++ ['"']))

def coreTag (kind : String) : String := "tag:yaml.org,2002:" ++ kind

/-- What a scalar denotes, given its tag. Local tags are handled before this: they come as none. -/
def taggedScalar (tag : Option String) (s : String) (plain : Bool) : Except BadValue Scalar :=
  let wanting (wanted : Expectation) : Option Scalar → Except BadValue Scalar
    | some scalar => .ok scalar
    | none => .error (.unexpected (quoted s) wanted)
  match tag with
  | none => if plain then plainScalar s else .ok (.text s)
  | some t =>
    if t == coreTag "bool" then wanting .boolean ((bool? s).map .bool)
    else if t == coreTag "int" then
      match integer? s with
      | .error bad => .error bad
      | .ok n => wanting .integer (n.map .number)
    else if t == coreTag "float" then wanting .float (floatScalar? s)
    else if t == coreTag "null" then wanting .null (if spellsNull s then some .null else none)
    else .ok (.text s)

end RamlScaffold.Yaml

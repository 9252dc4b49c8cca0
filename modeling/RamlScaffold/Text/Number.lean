import RamlScaffold.Document.Value
import RamlScaffold.Text.Case

/-!
Numbers as texts spell them: digits in a base, and decimal floats.
-/

namespace RamlScaffold.Text

/-- The first natural number that needs more than `bits` bits. -/
def bitLimit (bits : Nat) : Nat := Nat.pow 2 bits

def digitValue? (base : Nat) (c : Char) : Option Nat :=
  let v :=
    if isDigit c then c.toNat - 48
    else if isLower c then c.toNat - 87
    else if isUpper c then c.toNat - 55
    else base
  if v < base then some v else none

/-- The natural number that a non-empty list of digits spells. -/
def natOfDigits? (base : Nat) (cs : List Char) : Option Nat :=
  if cs.isEmpty then none
  else cs.foldl (fun acc c => do return (← acc) * base + (← digitValue? base c)) (some 0)

/-- A run of decimal digits at the start, and the rest. -/
def spanDigits (cs : List Char) : List Char × List Char :=
  (cs.takeWhile isDigit, cs.dropWhile isDigit)

def decimalValue (ds : List Char) : Nat :=
  ds.foldl (fun n d => n * 10 + (d.toNat - 48)) 0

/-- A decimal number without sign: digits with at most one point and an optional exponent. The
result is a whole number and the power of ten it is scaled by. -/
def decimal? (cs : List Char) : Option (Nat × Int) :=
  let (whole, rest) := spanDigits cs
  let (fraction, rest) :=
    match rest with
    | '.' :: more => spanDigits more
    | _ => ([], rest)
  if whole.isEmpty && fraction.isEmpty then none
  else
    let digits := decimalValue (whole ++ fraction)
    let shift : Int := -(fraction.length : Int)
    match rest with
    | [] => some (digits, shift)
    | e :: tail =>
      if e == 'e' || e == 'E' then
        let (negative, tail) :=
          match tail with
          | '+' :: more => (false, more)
          | '-' :: more => (true, more)
          | _ => (false, tail)
        let (power, rest) := spanDigits tail
        if power.isEmpty || !rest.isEmpty then none
        else
          let p : Int := decimalValue power
          some (digits, shift + (if negative then -p else p))
      else none

/-- The finite float that a decimal with an optional sign denotes. -/
def float? (cs : List Char) : Option Number :=
  let (negative, body) :=
    match cs with
    | '-' :: more => (true, more)
    | '+' :: more => (false, more)
    | _ => (false, cs)
  match decimal? body with
  | none => none
  | some (digits, power) =>
    match Decimal.Binary64.ofDecimal digits power with
    | none => none
    | some magnitude => some (.float negative magnitude)

end RamlScaffold.Text

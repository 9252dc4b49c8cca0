import RamlScaffold.Text.Number

/-!
Numbers in JSON text. Integers up to 64 bits are exact. A float is read in two roundings: its
first digits, as many as 64 bits hold, become a significand, which is then scaled by a power of ten.
-/

namespace RamlScaffold.Json

open Decimal (Binary64)

def powerOfTen (n : Nat) : Binary64 := (Binary64.ofDecimal 1 n).getD .zero

/-- Scales a magnitude by a power of ten: one rounded product or quotient up to the exponent 308;
below, repeated quotients; above, only zero can be scaled. -/
def scale : Nat → Binary64 → Int → Option Binary64
  | 0, x, _ => some x
  | fuel + 1, x, power =>
    if power.natAbs ≤ 308 then
      if 0 ≤ power then x.mul (powerOfTen power.natAbs) else x.div (powerOfTen power.natAbs)
    else if x.isZero then some x
    else if 0 ≤ power then none
    else (x.div (powerOfTen 308)).bind fun y => scale fuel y (power + 308)

def float? (negative : Bool) (significand : Nat) (power : Int) : Option Number :=
  ((Binary64.ofRatio significand 1).bind fun x => scale 8 x power).map (.float negative)

/-- Adds digits to a significand as long as it fits 64 bits: the significand, how many digits were
added, and the digits left over. -/
def absorb : Nat → List Char → Nat → Nat × Nat × List Char
  | significand, [], count => (significand, count, [])
  | significand, d :: ds, count =>
    let next := significand * 10 + (d.toNat - 48)
    if next < Text.bitLimit 64 then absorb next ds (count + 1) else (significand, count, d :: ds)

/-- The largest exponent that is read as a number. -/
def exponentLimit : Nat := 2147483647

/-- An exponent after its mark: the power, and the rest of the text. A power beyond the limit is
none when it is positive. -/
def exponent? (cs : List Char) : Option (Int × List Char) :=
  let (negative, cs) :=
    match cs with
    | '+' :: more => (false, more)
    | '-' :: more => (true, more)
    | _ => (false, cs)
  let (digits, rest) := Text.spanDigits cs
  if digits.isEmpty then none
  else
    let n := min (Text.decimalValue digits) (exponentLimit + 1)
    some (if negative then -(n : Int) else (n : Int), rest)

def number? (cs : List Char) : Option (Number × List Char) :=
  let (negative, cs) :=
    match cs with
    | '-' :: more => (true, more)
    | _ => (false, cs)
  let (whole, rest) := Text.spanDigits cs
  if whole.isEmpty || (whole.head? == some '0' && whole.length > 1) then none
  else
    let (significand, _, left) := absorb 0 whole 0
    let (isFloat, significand, power, rest, ok) :=
      match rest with
      | '.' :: more =>
        let (fraction, rest) := Text.spanDigits more
        let (significand, count, _) := absorb significand fraction 0
        (true, significand, (left.length : Int) - (count : Int), rest, !fraction.isEmpty)
      | _ => (!left.isEmpty, significand, (left.length : Int), rest, true)
    if !ok then none
    else
      match rest with
      | e :: more =>
        if e == 'e' || e == 'E' then
          match exponent? more with
          | none => none
          | some (x, rest) =>
            if x.natAbs > exponentLimit then
              if significand != 0 && 0 ≤ x then none
              else some (.float negative .zero, rest)
            else (float? negative significand (power + x)).map (·, rest)
        else finish isFloat negative significand power rest
      | [] => finish isFloat negative significand power []
where
  /-- A number without an exponent. -/
  finish (isFloat negative : Bool) (significand : Nat) (power : Int) (rest : List Char) :
      Option (Number × List Char) :=
    if isFloat then (float? negative significand power).map (·, rest)
    else if !negative then some (.int significand, rest)
    else if significand == 0 || significand > Text.bitLimit 63 then
      (float? true significand 0).map (·, rest)
    else some (.int (-(significand : Int)), rest)

end RamlScaffold.Json

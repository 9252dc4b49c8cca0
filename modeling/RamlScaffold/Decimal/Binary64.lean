/-!
Binary floating point with 53 bits of precision, as exact natural numbers. A magnitude is
`significand * 2 ^ exponent`; every operation forms the exact quotient of two naturals and rounds
it once, to nearest, a tie to the even significand.
-/

namespace RamlScaffold.Decimal

/-- A finite magnitude `significand * 2 ^ exponent`. The significand has 53 bits, or fewer when
the exponent is the least one, -1074. -/
structure Binary64 where
  significand : Nat
  exponent : Int
deriving DecidableEq, Repr

namespace Binary64

def zero : Binary64 := ⟨0, -1074⟩

def isZero (x : Binary64) : Bool := x.significand == 0

/-- The magnitude as a fraction of two naturals. -/
def toRatio (x : Binary64) : Nat × Nat :=
  if 0 ≤ x.exponent then (x.significand * Nat.pow 2 x.exponent.toNat, 1)
  else (x.significand, Nat.pow 2 (-x.exponent).toNat)

/-- `num / den` scaled by `2 ^ (-exponent)`, as a fraction. -/
def scaled (num den : Nat) (exponent : Int) : Nat × Nat :=
  if 0 ≤ exponent then (num, den * Nat.pow 2 exponent.toNat)
  else (num * Nat.pow 2 (-exponent).toNat, den)

/-- The quotient to nearest, a tie to the even one. -/
def roundDiv (num den : Nat) : Nat :=
  let q := num / den
  let twice := 2 * (num % den)
  if twice < den then q
  else if twice == den then (if q % 2 == 0 then q else q + 1)
  else q + 1

/-- The magnitude nearest to `num / den`; `none` when it lies beyond the largest one. -/
def ofRatio (num den : Nat) : Option Binary64 :=
  if num == 0 then some zero
  else
    let guess : Int := (Nat.log2 num : Int) - (Nat.log2 den : Int) - 52
    let floorAt (e : Int) : Nat := let (n, d) := scaled num den e; n / d
    let fitted := if floorAt guess < Nat.pow 2 52 then guess - 1 else guess
    let exponent := max fitted (-1074)
    let (n, d) := scaled num den exponent
    let q := roundDiv n d
    let x : Binary64 := if q == Nat.pow 2 53 then ⟨Nat.pow 2 52, exponent + 1⟩ else ⟨q, exponent⟩
    if x.exponent > 971 then none else some x

/-- The magnitude nearest to `digits * 10 ^ power`; `none` when it lies beyond the largest one. -/
def ofDecimal (digits : Nat) (power : Int) : Option Binary64 :=
  if digits == 0 then some zero
  else
    let size : Int := (Nat.toDigits 10 digits).length
    if size + power > 310 then none
    else if size + power < -326 then some zero
    else if 0 ≤ power then ofRatio (digits * Nat.pow 10 power.toNat) 1
    else ofRatio digits (Nat.pow 10 (-power).toNat)

def mul (x y : Binary64) : Option Binary64 :=
  let (a, b) := x.toRatio
  let (c, d) := y.toRatio
  ofRatio (a * c) (b * d)

def div (x y : Binary64) : Option Binary64 :=
  let (a, b) := x.toRatio
  let (c, d) := y.toRatio
  ofRatio (a * d) (b * c)

end Binary64

end RamlScaffold.Decimal

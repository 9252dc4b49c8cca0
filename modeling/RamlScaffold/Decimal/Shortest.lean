import RamlScaffold.Decimal.Binary64

/-!
The fewest decimal digits that read back to a magnitude, and how they are written. Digits are
selected in exact arithmetic: on the grid of one, two, ... significant digits the two neighbours of
the value are tried, and the first grid with a neighbour inside the rounding interval wins.
-/

namespace RamlScaffold.Decimal

/-- A decimal `0.d₁d₂d₃… * 10 ^ (scale + 1)`: `scale` is the exponent of the first digit. -/
structure Digits where
  digits : List Char
  scale : Int
deriving DecidableEq, Repr

/-- The exponent of the first significant decimal digit of `num / den`, both positive. -/
def leadingExponent (num den : Nat) : Int :=
  if den ≤ num then ((Nat.toDigits 10 (num / den)).length : Int) - 1
  else
    let guess := (Nat.toDigits 10 den).length - (Nat.toDigits 10 num).length
    if den ≤ num * Nat.pow 10 guess then -(guess : Int) else -((guess + 1 : Nat) : Int)

/-- The interval of values that round to `x`: lower and upper end over a common denominator, and
whether the ends belong to it. -/
structure Interval where
  lower : Nat
  upper : Nat
  den : Nat
  closed : Bool

def Binary64.interval (x : Binary64) : Interval :=
  let below := if x.significand == Nat.pow 2 52 && x.exponent > -1074 then 1 else 2
  let low := 4 * x.significand - below
  let high := 4 * x.significand + 2
  let closed := x.significand % 2 == 0
  if 0 ≤ x.exponent then
    let unit := Nat.pow 2 x.exponent.toNat
    ⟨low * unit, high * unit, 4, closed⟩
  else ⟨low, high, 4 * Nat.pow 2 (-x.exponent).toNat, closed⟩

/-- Whether `count * 10 ^ power` lies in the interval. -/
def Interval.holds (i : Interval) (count : Nat) (power : Int) : Bool :=
  let (n, d) :=
    if 0 ≤ power then (count * Nat.pow 10 power.toNat, 1) else (count, Nat.pow 10 (-power).toNat)
  let at_ := n * i.den
  let low := i.lower * d
  let high := i.upper * d
  if i.closed then low ≤ at_ && at_ ≤ high else low < at_ && at_ < high

/-- The neighbour of `num / den` on the grid of `10 ^ power` that lies in the interval, the nearer
one when both do. -/
def gridPoint? (i : Interval) (num den : Nat) (power : Int) : Option Nat :=
  let (n, d) :=
    if 0 ≤ power then (num, den * Nat.pow 10 power.toNat)
    else (num * Nat.pow 10 (-power).toNat, den)
  let lo := n / d
  let hi := lo + 1
  let okLo := lo != 0 && i.holds lo power
  let okHi := i.holds hi power
  let twice := 2 * (n % d)
  if okLo && okHi then
    if twice < d then some lo
    else if twice == d then (if lo % 2 == 0 then some lo else some hi)
    else some hi
  else if okLo then some lo
  else if okHi then some hi
  else none

/-- Tries grids of one more digit each time, `budget` of them. -/
def selectDigits (i : Interval) (num den : Nat) (top : Int) : Nat → Nat → Nat × Int
  | 0, count => (num / den, top - count)
  | budget + 1, count =>
    let power := top - count
    match gridPoint? i num den power with
    | some point => (point, power)
    | none => selectDigits i num den top budget (count + 1)

/-- The fewest digits that read back to a non-zero magnitude. -/
def Binary64.shortest (x : Binary64) : Digits :=
  let (num, den) := x.toRatio
  let top := leadingExponent num den
  let (point, power) := selectDigits x.interval num den top 17 0
  let all := Nat.toDigits 10 point
  let kept := (all.reverse.dropWhile (· == '0')).reverse
  ⟨kept, power + (all.length : Int) - 1⟩

/-- Positional notation from `10 ^ -5` up to below `10 ^ 16`, at least one place after the point;
otherwise one digit before the point and a signed exponent. -/
def Digits.render (d : Digits) : List Char :=
  if -5 ≤ d.scale && d.scale < 16 then
    if 0 ≤ d.scale then
      let whole := d.scale.toNat + 1
      let front := d.digits.take whole
      let back := d.digits.drop whole
      front ++ List.replicate (whole - front.length) '0'
        ++ '.' :: (if back.isEmpty then ['0'] else back)
    else '0' :: '.' :: (List.replicate ((-d.scale).toNat - 1) '0' ++ d.digits)
  else
    let front := d.digits.take 1
    let back := d.digits.drop 1
    let point := if back.isEmpty then [] else '.' :: back
    let sign := if 0 ≤ d.scale then '+' else '-'
    front ++ point ++ 'e' :: sign :: Nat.toDigits 10 d.scale.natAbs

def Binary64.render (x : Binary64) : List Char :=
  if x.isZero then ['0', '.', '0'] else x.shortest.render

end RamlScaffold.Decimal

import RamlScaffold.Text.Number

/-!
Scalars without quotes: booleans, integers, floats, dates and times.
-/

namespace RamlScaffold.Toml

inductive Scalar where
  | text (value : String)
  | bool (value : Bool)
  | integer (value : Int)
  | float
  /-- A number that is too large to be held. -/
  | beyond
  | dateTime
deriving DecidableEq, Repr

/-- The digits of a number with its underscores dropped; an underscore has to stand between two
digits. -/
def grouped? (isBaseDigit : Char → Bool) : List Char → Option (List Char)
  | [] => none
  | [c] => if isBaseDigit c then some [c] else none
  | c :: d :: rest =>
    if !isBaseDigit c then none
    else if d == '_' then (grouped? isBaseDigit rest).map (c :: ·)
    else (grouped? isBaseDigit (d :: rest)).map (c :: ·)

def signed (cs : List Char) : Bool × List Char :=
  match cs with
  | '-' :: rest => (true, rest)
  | '+' :: rest => (false, rest)
  | _ => (false, cs)

/-- The digits of a whole number that does not start with an idle zero. -/
def whole? (cs : List Char) : Option (List Char) :=
  match cs with
  | '0' :: _ :: _ => none
  | _ => grouped? Text.isDigit cs

def based? (base : Nat) (cs : List Char) : Option Int :=
  match grouped? (fun c => (Text.digitValue? base c).isSome) cs with
  | some digits => (Text.natOfDigits? base digits).map Int.ofNat
  | none => none

def integer? (cs : List Char) : Option Int :=
  match cs with
  | '0' :: 'x' :: rest => based? 16 rest
  | '0' :: 'o' :: rest => based? 8 rest
  | '0' :: 'b' :: rest => based? 2 rest
  | _ =>
    let (negative, body) := signed cs
    (whole? body).map fun digits =>
      let n : Int := Text.decimalValue digits
      if negative then -n else n

/-- Whether an integer can be held at all: 128 bits, with or without a sign. -/
def inRange (n : Int) : Bool := -(Text.bitLimit 127 : Int) ≤ n && n < Text.bitLimit 128

/-- The exponent of a float after its mark, as a decimal reads it. -/
def exponent? (cs : List Char) : Option (List Char) :=
  let (negative, body) := signed cs
  (grouped? Text.isDigit body).map fun digits => (if negative then ['-'] else []) ++ digits

def floatDigits? (cs : List Char) : Option (List Char) := do
  let (_, body) := signed cs
  let isMark (c : Char) : Bool := c == 'e' || c == 'E'
  let front := body.takeWhile fun c => !isMark c
  let back := body.dropWhile fun c => !isMark c
  let power ←
    match back with
    | [] => some []
    | _ :: rest => (exponent? rest).map ('e' :: ·)
  let int ← whole? (front.takeWhile (· != '.'))
  match front.dropWhile (· != '.') with
  | [] => if power.isEmpty then none else some (int ++ power)
  | _ :: rest => return int ++ '.' :: (← grouped? Text.isDigit rest) ++ power

def Scalar.ofInteger (n : Int) : Scalar := if inRange n then .integer n else .beyond

/-- A finite float, an infinity or not a number. A finite one has a limit. -/
def float? (cs : List Char) : Option Scalar :=
  let (_, body) := signed cs
  if body == ['i', 'n', 'f'] || body == ['n', 'a', 'n'] then some .float
  else (floatDigits? cs).map fun digits =>
    if (Text.float? digits).isSome then .float else .beyond

def fixedDigits? (n : Nat) (cs : List Char) : Option (Nat × List Char) :=
  let digits := cs.take n
  if digits.length == n && digits.all Text.isDigit then
    some (Text.decimalValue digits, cs.drop n)
  else none

def after? (c : Char) (cs : List Char) : Option (List Char) :=
  match cs with
  | d :: rest => if d == c then some rest else none
  | [] => none

def isLeapYear (year : Nat) : Bool := year % 4 == 0 && (year % 100 != 0 || year % 400 == 0)

def daysIn (year month : Nat) : Nat :=
  if month == 2 then (if isLeapYear year then 29 else 28)
  else if month == 4 || month == 6 || month == 9 || month == 11 then 30
  else 31

def date? (cs : List Char) : Option (List Char) := do
  let (year, cs) ← fixedDigits? 4 cs
  let (month, cs) ← fixedDigits? 2 (← after? '-' cs)
  let (day, cs) ← fixedDigits? 2 (← after? '-' cs)
  if 1 ≤ month && month ≤ 12 && 1 ≤ day && day ≤ daysIn year month then some cs else none

def clock? (cs : List Char) : Option (List Char) := do
  let (hour, cs) ← fixedDigits? 2 cs
  let (minute, cs) ← fixedDigits? 2 (← after? ':' cs)
  if hour ≤ 23 && minute ≤ 59 then some cs else none

/-- A time at the start of the text, and the rest. Seconds may be left out. -/
def time? (cs : List Char) : Option (List Char) := do
  let cs ← clock? cs
  match cs with
  | ':' :: rest =>
    let (second, rest) ← fixedDigits? 2 rest
    if second > 60 then none
    else
      match rest with
      | '.' :: fraction =>
        if (fraction.takeWhile Text.isDigit).isEmpty then none
        else some (fraction.dropWhile Text.isDigit)
      | _ => some rest
  | _ => some cs

/-- Whether a text is an offset from universal time, or nothing. -/
def isOffset (cs : List Char) : Bool :=
  match cs with
  | [] => true
  | ['Z'] => true
  | ['z'] => true
  | c :: rest => (c == '+' || c == '-') && clock? rest == some []

def isDateTime (cs : List Char) : Bool :=
  match date? cs with
  | some [] => true
  | some (c :: rest) =>
    (c == 'T' || c == 't' || c == ' ')
      && match time? rest with
        | some offset => isOffset offset
        | none => false
  | none => time? cs == some []

def Scalar.ofAtom? (cs : List Char) : Option Scalar :=
  if cs == "true".toList then some (.bool true)
  else if cs == "false".toList then some (.bool false)
  else if isDateTime cs then some .dateTime
  else
    match integer? cs with
    | some n => some (.ofInteger n)
    | none => float? cs

end RamlScaffold.Toml

import RamlScaffold.Code.Terminal
import RamlScaffold.Text.Case

/-!
Number literals. Digits may be grouped by single underscores; old-style octal and long literals are
accepted.
-/

namespace RamlScaffold.Code

/-- How many characters of digits stand at the start. One underscore may follow a digit. -/
def digitsFrom (afterDigit : Bool) : List Char → Nat
  | [] => 0
  | c :: rest =>
    if Text.isDigit c then 1 + digitsFrom true rest
    else if c == '_' && afterDigit then 1 + digitsFrom false rest
    else 0

def digitsLength (cs : List Char) : Nat := digitsFrom false cs

/-- How many characters of digits of a base stand at the start, each group after at most one
underscore. -/
def basedLength (isBaseDigit : Char → Bool) : List Char → Nat
  | [] => 0
  | [c] => if isBaseDigit c then 1 else 0
  | c :: d :: rest =>
    if isBaseDigit c then 1 + basedLength isBaseDigit (d :: rest)
    else if c == '_' && isBaseDigit d then 2 + basedLength isBaseDigit rest
    else 0

def isHexDigit (c : Char) : Bool :=
  Text.isDigit c || ('a' ≤ c && c ≤ 'f') || ('A' ≤ c && c ≤ 'F')

/-- The number of characters if one of the given ones stands at the start. -/
def optionalChar (chars : List Char) (cs : List Char) : Nat :=
  match cs with
  | c :: _ => if chars.contains c then 1 else 0
  | [] => 0

def exponentLength (cs : List Char) : Nat :=
  match cs with
  | e :: rest =>
    if e == 'e' || e == 'E' then
      let sign := optionalChar ['+', '-'] rest
      let digits := digitsLength (rest.drop sign)
      if digits == 0 then 0 else 1 + sign + digits
    else 0
  | [] => 0

/-- The length of a literal with a base mark; zero when there is none. -/
def basedLiteralLength (cs : List Char) : Nat :=
  match cs with
  | '0' :: mark :: rest =>
    let digits :=
      if mark == 'x' || mark == 'X' then basedLength isHexDigit rest
      else if mark == 'o' || mark == 'O' then basedLength (fun c => '0' ≤ c && c ≤ '7') rest
      else if mark == 'b' || mark == 'B' then basedLength (fun c => c == '0' || c == '1') rest
      else 0
    if digits == 0 then 0 else 2 + digits + optionalChar ['l', 'L'] (rest.drop digits)
  | _ => 0

/-- The length of a decimal literal, and whether it has a point or an exponent; zero when there is
none. -/
def decimalLiteralLength (cs : List Char) : Nat × Bool :=
  let whole := digitsLength cs
  match cs.drop whole with
  | '.' :: rest =>
    let fraction := digitsLength rest
    if whole == 0 && fraction == 0 then (0, true)
    else
      let upTo := whole + 1 + fraction
      let power := exponentLength (cs.drop upTo)
      (upTo + power + optionalChar ['j', 'J'] (cs.drop (upTo + power)), true)
  | rest =>
    if whole == 0 then (0, false)
    else
      let power := exponentLength rest
      if power == 0 then (whole + optionalChar ['l', 'L', 'j', 'J'] rest, false)
      else (whole + power + optionalChar ['j', 'J'] (rest.drop power), true)

def number? (cs : List Char) : Option (Terminal × Nat) :=
  let based := basedLiteralLength cs
  if based != 0 then some (.integer, based)
  else
    match decimalLiteralLength cs with
    | (0, _) => none
    | (length, true) => some (.float, length)
    | (length, false) => some (.integer, length)

end RamlScaffold.Code

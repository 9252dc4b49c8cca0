/-!
Upper and lower case, as far as ASCII letters are concerned. Names, slugs and keywords keep ASCII
letters and digits only, so the case of any other letter never shows.
-/

namespace RamlScaffold.Text

def isUpper (c : Char) : Bool := 'A' ≤ c && c ≤ 'Z'

def isLower (c : Char) : Bool := 'a' ≤ c && c ≤ 'z'

def isDigit (c : Char) : Bool := '0' ≤ c && c ≤ '9'

def isAlnum (c : Char) : Bool := isUpper c || isLower c || isDigit c

/-- The lower-case form of an ASCII letter; every other character is its own. -/
def lowerChar (c : Char) : Char :=
  if isUpper c then Char.ofNat (c.toNat + 32) else c

def upperChar (c : Char) : Char :=
  if isLower c then Char.ofNat (c.toNat - 32) else c

def lowerAscii (s : String) : String := .ofList (s.toList.map lowerChar)

/-- The lower-case form of a character, exact on those whose form has an ASCII letter. Outside
ASCII there are two: the dotted capital I, which becomes an i and a combining dot, and the Kelvin
sign, which becomes a k. -/
def lowerForm (c : Char) : List Char :=
  if c == '\u0130' then ['i', '\u0307']
  else if c == '\u212a' then ['k']
  else [lowerChar c]

/-- The text in lower case, exact on its ASCII letters and digits. -/
def lower (s : String) : String := .ofList (s.toList.flatMap lowerForm)

/-- Whether two texts differ at most in the case of ASCII letters. -/
def sameIgnoringCase (a b : String) : Bool := lowerAscii a == lowerAscii b

end RamlScaffold.Text

/-!
White space and control characters, and the trimming that rests on them. White space is Unicode's
`White_Space` property, control characters are general category `Cc`.
-/

namespace RamlScaffold.Text

/-- White space in the sense of Unicode's `White_Space` property. -/
def isBlank (c : Char) : Bool :=
  let n := c.toNat
  (9 ≤ n && n ≤ 13) || n == 0x20 || n == 0x85 || n == 0xA0 || n == 0x1680
    || (0x2000 ≤ n && n ≤ 0x200A) || n == 0x2028 || n == 0x2029 || n == 0x202F
    || n == 0x205F || n == 0x3000

/-- Control characters: the two blocks below the printable ASCII and Latin-1 ranges, and DEL. -/
def isControl (c : Char) : Bool :=
  c.toNat < 0x20 || (0x7F ≤ c.toNat && c.toNat < 0xA0)

/-- The text without its longest tail of characters that satisfy `p`. -/
def dropTailWhile (p : Char → Bool) (cs : List Char) : List Char :=
  (cs.reverse.dropWhile p).reverse

def trimWhile (p : Char → Bool) (cs : List Char) : List Char :=
  dropTailWhile p (cs.dropWhile p)

def trim (s : String) : String :=
  .ofList (trimWhile isBlank s.toList)

def trimChar (c : Char) (s : String) : String :=
  .ofList (trimWhile (· == c) s.toList)

def trimTailChar (c : Char) (s : String) : String :=
  .ofList (dropTailWhile (· == c) s.toList)

def trimHeadChar (c : Char) (s : String) : String :=
  .ofList (s.toList.dropWhile (· == c))

end RamlScaffold.Text

import RamlScaffold.Yaml.Fault

/-!
Characters that no text may hold. A text is read block by block and a block is looked through before
anything in it is used, so such a character shuts off its whole block and all that follows, while
faults in the blocks before come first.
-/

namespace RamlScaffold.Yaml

def isAllowed (c : Char) : Bool :=
  let n := c.toNat
  n == 0x09 || n == 0x0A || n == 0x0D || (0x20 ≤ n && n ≤ 0x7E) || n == 0x85
    || (0xA0 ≤ n && n ≤ 0xD7FF) || (0xE000 ≤ n && n ≤ 0xFFFD) || 0x10000 ≤ n

/-- The first character that cannot be used, and why. -/
structure Wall where
  index : Nat
  fault : Fault
deriving DecidableEq, Repr

namespace Wall

def blockSize : Nat := 16384

/-- Looks through the rest of a text. `mark` is the number of characters before it and `offset` that
of bytes; the block starts at character `block`, and `stop` bytes are at hand. A character that is
not complete in one block counts to the next. -/
def find? : List Char → Nat → Nat → Nat → Nat → Option Wall
  | [], _, _, _, _ => none
  | c :: rest, mark, offset, block, stop =>
    let next := offset + c.utf8Size
    let (block, stop) := if stop < next then (mark, offset + blockSize) else (block, stop)
    if isAllowed c then find? rest (mark + 1) next block stop else some ⟨block, .control offset⟩

def ofText? (s : String) : Option Wall := find? s.toList 0 0 0 blockSize

def isReached (w : Wall) (m : Mark) : Bool := w.index ≤ m.index

end Wall

end RamlScaffold.Yaml

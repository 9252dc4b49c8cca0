/-!
Positions in a text: how many characters precede it, and its line and column counted from zero.
-/

namespace RamlScaffold.Yaml

structure Mark where
  index : Nat
  line : Nat
  column : Nat
deriving DecidableEq, Repr

namespace Mark

def start : Mark := ⟨0, 0, 0⟩

/-- The first position of a text has no location of its own in messages. -/
def isStart (m : Mark) : Bool := m.line == 0 && m.column == 0

def samePlace (a b : Mark) : Bool := a.line == b.line && a.column == b.column

def right (m : Mark) : Mark := ⟨m.index + 1, m.line, m.column + 1⟩

def rightBy (m : Mark) (n : Nat) : Mark := ⟨m.index + n, m.line, m.column + n⟩

/-- The start of the next line, after a break of `n` characters. -/
def nextLine (m : Mark) (n : Nat) : Mark := ⟨m.index + n, m.line + 1, 0⟩

/-- Line and column counted from one, as messages show them. -/
def text (m : Mark) : String :=
  "line " ++ toString (m.line + 1) ++ " column " ++ toString (m.column + 1)

end Mark

end RamlScaffold.Yaml

import RamlScaffold.Yaml.Cursor

/-!
Gaps inside a scalar: the blanks and line breaks between two of its words, and what they
contribute to its value. Blanks on one line stand for themselves; a single break is a space; of
several breaks all but the first remain.
-/

namespace RamlScaffold.Yaml

/-- A gap: the blanks before its first break, that break, and the breaks after it. -/
structure Gap where
  blanks : List Char
  broken : Bool
  first : Option Char
  more : List Char
deriving Repr

namespace Gap

def empty : Gap := ⟨[], false, none, []⟩

/-- A gap that begins with a break which contributes nothing. -/
def continued : Gap := ⟨[], true, none, []⟩

def isEmpty (g : Gap) : Bool := g.blanks.isEmpty && !g.broken

def addBlank (g : Gap) (c : Char) : Gap :=
  if g.broken then g else { g with blanks := g.blanks ++ [c] }

def addBreak (g : Gap) (c : Char) : Gap :=
  if g.broken then { g with more := g.more ++ [breakValue c] }
  else { g with blanks := [], broken := true, first := some (breakValue c) }

def value (g : Gap) : List Char :=
  if g.broken then
    if g.first == some '\n' then (if g.more.isEmpty then [' '] else g.more)
    else g.first.toList ++ g.more
  else g.blanks

/-- The longest gap from here, after what was already found of it. `tabLimit` gives the column
below which no tab may stand on a continued line; the position of such a tab is the error. -/
def scan (tabLimit : Option Int) : List Char → Mark → Gap → Except Mark (Gap × Cursor)
  | [], mark, gap => .ok (gap, ⟨[], mark⟩)
  | '\r' :: '\n' :: rest, mark, gap => scan tabLimit rest (mark.nextLine 2) (gap.addBreak '\r')
  | c :: rest, mark, gap =>
    if isSpace c then
      if gap.broken && c == '\t' && (match tabLimit with
          | some limit => decide ((mark.column : Int) < limit)
          | none => false) then .error mark
      else scan tabLimit rest mark.right (gap.addBlank c)
    else if isBreak c then scan tabLimit rest (mark.nextLine 1) (gap.addBreak c)
    else .ok (gap, ⟨c :: rest, mark⟩)

end Gap

end RamlScaffold.Yaml

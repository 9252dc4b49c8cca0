/-!
Places in a source text.
-/

namespace RamlScaffold.Code

/-- A place in the source: the line from one, the column in bytes from zero. -/
structure Place where
  line : Nat
  column : Nat
deriving DecidableEq, Repr

namespace Place

def after (p : Place) (c : Char) : Place :=
  if c == '\n' then ⟨p.line + 1, 0⟩ else ⟨p.line, p.column + c.utf8Size⟩

def isBefore (p q : Place) : Bool := p.line < q.line || (p.line == q.line && p.column < q.column)

end Place

structure Cursor where
  rest : List Char
  place : Place
deriving Repr

namespace Cursor

def skip (cur : Cursor) : Nat → Cursor
  | 0 => cur
  | n + 1 =>
    match cur.rest with
    | [] => cur
    | c :: rest => skip ⟨rest, cur.place.after c⟩ n

/-- The cursor at the start of a source text, behind a byte order mark. -/
def start (source : String) : Cursor :=
  let cur : Cursor := ⟨source.toList, ⟨1, 0⟩⟩
  if cur.rest.head? == some '\ufeff' then cur.skip 1 else cur

end Cursor

end RamlScaffold.Code

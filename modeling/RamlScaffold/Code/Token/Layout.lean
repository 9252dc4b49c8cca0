import RamlScaffold.Code.Cursor
import RamlScaffold.Code.Terminal
import RamlScaffold.Code.Token.Quoted

/-!
Line structure and strings: the terminals that depend on what is open. Which of them are looked for
depends on what the grammar expects: a line only ends where a statement can, and elsewhere a line
break is white space. A line that is indented less than the open block ends the block even where no
block can end, unless a bracket can be closed or a string starts there.
-/

namespace RamlScaffold.Code

/-- What is open: blocks and strings. -/
structure Layout where
  /-- The indentations of the open blocks, the innermost first. -/
  indents : List Nat
  strings : List Quoting
  /-- Whether the last string that opened has interpolations and no string has ended since. -/
  inFormat : Bool
deriving DecidableEq, Repr

namespace Layout

def empty : Layout := ⟨[0], [], false⟩

def mostStrings : Nat := 255

def mostBlocks : Nat := 511

def openBlock (l : Layout) (indent : Nat) : Layout :=
  { l with indents := if l.indents.length ≤ mostBlocks then indent :: l.indents else l.indents }

def closeBlock (l : Layout) : Layout := { l with indents := l.indents.drop 1 }

def openString (l : Layout) (q : Quoting) : Layout :=
  { l with
    strings := if l.strings.length < mostStrings then q :: l.strings else l.strings
    inFormat := q.format }

def closeString (l : Layout) : Layout :=
  { l with strings := l.strings.drop 1, inFormat := false }

end Layout

/-- A terminal with the cursors where it starts and stops, and what is open after it. -/
structure Scanned where
  terminal : Terminal
  start : Cursor
  stop : Cursor
  layout : Layout

/-- White space, comments and continued lines before a terminal. -/
structure Gap where
  cursor : Cursor
  lineEnded : Bool
  /-- The indentation of the line where the gap ends. -/
  indent : Nat
  /-- The indentation of the first comment on a line of its own. -/
  comment : Option Nat

/-- Whether a line or a block can end here, or start. -/
def atBoundary (valid : Terminal → Bool) : Bool :=
  valid .indent || valid .dedent || valid .newline || valid (.fixed "except")

/-- Goes through the gap before a terminal, which is at most `fuel` characters long. A tab counts as
eight blanks. Comments belong to it only where a line or a block can end, and only from the second
line on; none when a comment comes first, or a backslash that does not continue a line. -/
def gapFrom (valid : Terminal → Bool) : Nat → Gap → Option Gap
  | 0, gap => some gap
  | fuel + 1, gap =>
    let skip (n : Nat) : Gap := { gap with cursor := gap.cursor.skip n }
    match gap.cursor.rest with
    | [] => some { gap with lineEnded := true, indent := 0 }
    | c :: rest =>
      if c == '\n' then gapFrom valid fuel { skip 1 with lineEnded := true, indent := 0 }
      else if c == ' ' then gapFrom valid fuel { skip 1 with indent := gap.indent + 1 }
      else if c == '\r' || c == '\x0c' then gapFrom valid fuel { skip 1 with indent := 0 }
      else if c == '\t' then gapFrom valid fuel { skip 1 with indent := gap.indent + 8 }
      else if c == '#' && atBoundary valid then
        if gap.lineEnded then
          let length := (gap.cursor.rest.takeWhile fun d => d != '\n' && d != '\x00').length
          gapFrom valid fuel
            { skip (length + 1) with indent := 0, comment := gap.comment.or (some gap.indent) }
        else none
      else if c == '\\' then
        match rest with
        | [] => gapFrom valid fuel (skip 1)
        | '\n' :: _ => gapFrom valid fuel (skip 2)
        | ['\r'] => gapFrom valid fuel (skip 2)
        | '\r' :: '\n' :: _ => gapFrom valid fuel (skip 3)
        | _ => none
      else some gap

namespace Layout

/-- Whether a bracket can be closed. -/
def canClose (valid : Terminal → Bool) : Bool :=
  valid (.fixed ")") || valid (.fixed "]") || valid (.fixed "\x7d")

/-- Whether a block ends at a gap, the innermost one having the given indentation. A comment that is
indented like the block still belongs to it. -/
def blockEnds (l : Layout) (valid : Terminal → Bool) (gap : Gap) (current : Nat) : Bool :=
  let atQuote := gap.cursor.rest.head?.any fun c => c == '"' || c == '\'' || c == '\x60'
  gap.indent < current && !l.inFormat && gap.comment.all (· < current)
    && (valid .dedent || (!valid .newline && !(atQuote && valid .stringStart) && !canClose valid))

/-- The end of a line or of a block, or the start of a block, at the end of a line. -/
def lineEnd (l : Layout) (valid : Terminal → Bool) (cur : Cursor) (gap : Gap) : Option Scanned :=
  let current := l.indents.headD 0
  if current < gap.indent && valid .indent then
    some ⟨.indent, cur, cur, l.openBlock gap.indent⟩
  else if l.blockEnds valid gap current then
    some ⟨.dedent, cur, cur, l.closeBlock⟩
  else if valid .newline then some ⟨.newline, cur, cur, l⟩
  else none

def stringStart (l : Layout) (valid : Terminal → Bool) (gap : Gap) : Option Scanned :=
  match Quoting.open? gap.cursor.rest with
  | some (q, length) =>
    if gap.comment.isNone && valid .stringStart then
      some ⟨.stringStart, gap.cursor, gap.cursor.skip length, l.openString q⟩
    else none
  | none => none

def between (l : Layout) (valid : Terminal → Bool) (fuel : Nat) (cur : Cursor) :
    Option Scanned := do
  let gap ← gapFrom valid fuel ⟨cur, false, 0, none⟩
  let ended := if gap.lineEnded then l.lineEnd valid cur gap else none
  ended.or (l.stringStart valid gap)

/-- The terminals that depend on what is open, in a text of at most `fuel` characters. -/
def scan (l : Layout) (valid : Terminal → Bool) (fuel : Nat) (cur : Cursor) : Option Scanned :=
  match l.strings with
  | [] => l.between valid fuel cur
  | q :: _ =>
    let isBrace (c : Char) : Bool := c == '\x7b' || c == '\x7d'
    let first := cur.rest.head?
    if q.format && first.any isBrace && valid .doubledBrace then
      if (cur.rest.drop 1).head? == first then some ⟨.doubledBrace, cur, cur.skip 2, l⟩ else none
    else if valid .stringContent then
      match q.contentFrom fuel cur.rest 0 false with
      | .plain length => some ⟨.stringContent, cur, cur.skip length, l⟩
      | .close length => some ⟨.stringEnd, cur, cur.skip length, l.closeString⟩
      | .other => none
      | .endless length => l.between valid fuel (cur.skip length)
    else l.between valid fuel cur

end Layout

end RamlScaffold.Code

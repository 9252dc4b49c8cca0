import RamlScaffold.Yaml.Cursor

/-!
Block scalars, literal and folded. The header may fix the indentation and what becomes of the
breaks at the end; without a fixed indentation the first line that is not empty decides.
-/

namespace RamlScaffold.Yaml

inductive Chomping where
  | strip
  | clip
  | keep
deriving DecidableEq, Repr

/-- Empty lines as read: their breaks, the widest column met, the position after the last break and
the current position. -/
structure EmptyLines where
  breaks : List Char
  widest : Nat
  stop : Mark
  after : Cursor

/-- Reads indentation and empty lines. `indent` is the indentation, zero while it is unknown; a tab
within it is refused, and the error is where it stands. -/
def emptyLines (indent : Nat) :
    List Char → Mark → List Char → Nat → Mark → Except Mark EmptyLines
  | [], mark, breaks, widest, stop => .ok ⟨breaks, max widest mark.column, stop, ⟨[], mark⟩⟩
  | '\r' :: '\n' :: rest, mark, breaks, widest, _ =>
    emptyLines indent rest (mark.nextLine 2) (breaks ++ ['\n']) (max widest mark.column)
      (mark.nextLine 2)
  | c :: rest, mark, breaks, widest, stop =>
    let within := indent == 0 || mark.column < indent
    if c == ' ' && within then emptyLines indent rest mark.right breaks widest stop
    else if c == '\t' && within then .error mark
    else if isBreak c then
      emptyLines indent rest (mark.nextLine 1) (breaks ++ [breakValue c]) (max widest mark.column)
        (mark.nextLine 1)
    else .ok ⟨breaks, max widest mark.column, stop, ⟨c :: rest, mark⟩⟩

structure BlockText where
  value : List Char
  /-- The break that ended the last line. -/
  lastBreak : List Char
  /-- The breaks of the empty lines after it. -/
  emptyBreaks : List Char
  /-- Whether the last line began with a blank. -/
  blankStart : Bool
  stop : Mark
  cursor : Cursor

/-- What stands between the last line and the next one, which begins with a blank or not. -/
def BlockText.joint (t : BlockText) (literal blankNext : Bool) : List Char :=
  if !literal && t.lastBreak == ['\n'] && !t.blankStart && !blankNext then
    (if t.emptyBreaks.isEmpty then [' '] else []) ++ t.emptyBreaks
  else t.lastBreak ++ t.emptyBreaks

def blockLines (literal : Bool) (indent : Nat) (start : Mark) :
    Nat → BlockText → Except Fault BlockText
  | 0, t => .ok t
  | fuel + 1, t =>
    match t.cursor.peek with
    | none => .ok t
    | some c =>
      if t.cursor.mark.column != indent then .ok t
      else
        let blank := isSpace c
        let (line, atBreak) := t.cursor.takeRun (fun d => !isBreak d)
        let value := t.value ++ t.joint literal blank ++ line
        let lastBreak := (atBreak.peek.map breakValue).toList
        let next := atBreak.skipBreak
        match emptyLines indent next.rest next.mark [] 0 next.mark with
        | .error place => .error (problemIn .tabIndent place .blockScalar start)
        | .ok lines =>
          blockLines literal indent start fuel
            ⟨value, lastBreak, lines.breaks, blank, lines.stop, lines.after⟩

/-- The header of a block scalar: chomping and indentation in either order, the indentation zero
when it is not fixed. -/
def blockHeader (start : Mark) (c : Cursor) : Except Fault (Chomping × Nat × Cursor) :=
  let chomping? (d : Option Char) : Option Chomping :=
    if d == some '+' then some .keep else if d == some '-' then some .strip else none
  let digit? (c : Cursor) : Except Fault (Nat × Cursor) :=
    match c.peek with
    | some d =>
      if Text.isDigit d then
        if d == '0' then .error (problemIn .zeroIndent c.mark .blockScalar start)
        else .ok (d.toNat - 48, c.skip)
      else .ok (0, c)
    | none => .ok (0, c)
  match chomping? c.peek with
  | some chomping =>
    match digit? c.skip with
    | .error fault => .error fault
    | .ok (increment, next) => .ok (chomping, increment, next)
  | none =>
    match digit? c with
    | .error fault => .error fault
    | .ok (increment, next) =>
      if increment == 0 then .ok (.clip, 0, next)
      else
        match chomping? next.peek with
        | some chomping => .ok (chomping, increment, next.skip)
        | none => .ok (.clip, increment, next)

/-- Reads the block scalar that starts here, in a collection indented by `outer`: its text, where
it ends, and the position after it. -/
def scanBlock (literal : Bool) (outer : Int) (c : Cursor) :
    Except Fault (List Char × Mark × Cursor) :=
  let start := c.mark
  match blockHeader start c.skip with
  | .error fault => .error fault
  | .ok (chomping, increment, afterHeader) =>
    let lineEnd := afterHeader.skipComment
    if !breakOrEnd lineEnd.peek then
      .error (problemIn .scalarHeaderTail lineEnd.mark .blockScalar start)
    else
      let first := lineEnd.skipBreak
      let fixed : Nat :=
        if increment == 0 then 0 else if 0 ≤ outer then outer.toNat + increment else increment
      match emptyLines fixed first.rest first.mark [] 0 first.mark with
      | .error place => .error (problemIn .tabIndent place .blockScalar start)
      | .ok lines =>
        let indent :=
          if fixed == 0 then max (max lines.widest (outer + 1).toNat) 1 else fixed
        match blockLines literal indent start (first.rest.length + 1)
            ⟨[], [], lines.breaks, false, lines.stop, lines.after⟩ with
        | .error fault => .error fault
        | .ok t =>
          let ending :=
            match chomping with
            | .strip => []
            | .clip => t.lastBreak
            | .keep => t.lastBreak ++ t.emptyBreaks
          .ok (t.value ++ ending, t.stop, t.cursor)

end RamlScaffold.Yaml

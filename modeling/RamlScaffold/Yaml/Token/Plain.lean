import RamlScaffold.Yaml.Token.Gap

/-!
Plain scalars: text without quotes, up to an indicator, a comment or a line that is not indented
far enough.
-/

namespace RamlScaffold.Yaml

def isFlowIndicator (c : Char) : Bool :=
  c == ',' || c == '[' || c == ']' || c == '\x7b' || c == '\x7d'

/-- The length of the word that starts here. Inside a flow collection a colon directly before
another indicator is refused; the error is its distance. -/
def plainWord (flow : Bool) : List Char → Except Nat Nat
  | [] => .ok 0
  | c :: rest =>
    if isSpace c || isBreak c then .ok 0
    else if flow && c == ':' && rest.head?.any (fun d => isFlowIndicator d || d == '?') then
      .error 0
    else if (c == ':' && blankOrEnd rest.head?) || (flow && isFlowIndicator c) then .ok 0
    else
      match plainWord flow rest with
      | .ok n => .ok (n + 1)
      | .error n => .error (n + 1)

/-- A plain scalar as read: its text, where it ends, the position after the gap behind it, and
whether that gap holds a line break. -/
structure PlainScalar where
  value : List Char
  stop : Mark
  after : Cursor
  broken : Bool

/-- Reads words and gaps, `fuel` pairs at most. `indent` is the least column of a continued line. -/
def plainWords (flow : Bool) (indent : Int) (start : Mark) :
    Nat → Cursor → Gap → List Char → Mark → Except Fault PlainScalar
  | 0, c, gap, value, stop => .ok ⟨value, stop, c, gap.broken⟩
  | fuel + 1, c, gap, value, stop =>
    if c.atDocumentIndicator || c.peek == some '#' then .ok ⟨value, stop, c, gap.broken⟩
    else
      match plainWord flow c.rest with
      | .error n => .error (problemIn .unexpectedColon (c.mark.rightBy n) .plainScalar start)
      | .ok n =>
        let after := c.skipBy n
        let joined := if n == 0 then value else value ++ gap.value ++ c.rest.take n
        let stop := if n == 0 then stop else after.mark
        let gap := if n == 0 then gap else .empty
        if !(after.peek.any fun d => isSpace d || isBreak d) then
          .ok ⟨joined, stop, after, gap.broken⟩
        else
          match Gap.scan (some indent) after.rest after.mark gap with
          | .error place => .error (problemIn .tabBelowIndent place .plainScalar start)
          | .ok (gap, next) =>
            if !flow && decide ((next.mark.column : Int) < indent) then
              .ok ⟨joined, stop, next, gap.broken⟩
            else plainWords flow indent start fuel next gap joined stop

def scanPlain (flow : Bool) (indent : Int) (c : Cursor) : Except Fault PlainScalar :=
  plainWords flow (indent + 1) c.mark (c.rest.length + 1) c .empty [] c.mark

end RamlScaffold.Yaml

import RamlScaffold.Yaml.Token
import RamlScaffold.Yaml.Token.Tag

/-!
Directives: lines before a document that state the version of the markup or abbreviate tags.
-/

namespace RamlScaffold.Yaml

/-- Reads a version number of at most nine digits. -/
def scanVersionNumber (start : Mark) (c : Cursor) : Except Fault (Nat × Cursor) :=
  let (digits, after) := c.takeRun Text.isDigit
  if digits.length > 9 then
    .error (problemIn .longVersion (c.mark.rightBy 9) .versionDirective start)
  else if digits.isEmpty then .error (problemIn .missingVersion after.mark .versionDirective start)
  else .ok (digits.foldl (fun n d => n * 10 + (d.toNat - 48)) 0, after)

def scanVersion (start : Mark) (c : Cursor) : Except Fault (TokenKind × Cursor) := do
  let (major, after) ← scanVersionNumber start (c.skipRun isSpace)
  if after.peek != some '.' then
    throw (problemIn .missingVersionDot after.mark .versionDirective start)
  let (minor, after) ← scanVersionNumber start after.skip
  return (.versionDirective major minor, after)

def scanTagDirective (start : Mark) (c : Cursor) : Except Fault (TokenKind × Cursor) := do
  let (handle, after) ← scanHandle .tagDirectiveScan start (c.skipRun isSpace)
  if !isFullHandle handle && handle.length > 1 then
    throw (problemIn .missingHandleMark after.mark .tagDirectiveHandle start)
  if !(after.peek.any isSpace) then
    throw (problemIn .missingSpace after.mark .tagDirective start)
  let (uri, after) ← scanUri true .tagDirectiveUri start false (after.skipRun isSpace)
  if !blankOrEnd after.peek then
    throw (problemIn .missingSpaceOrBreak after.mark .tagDirective start)
  return (.tagDirective (.ofList handle) (.ofList uri), after)

def scanDirective (c : Cursor) : Except Fault (Token × Cursor) := do
  let start := c.mark
  let (name, after) := c.skip.takeRun isNameChar
  if name.isEmpty then throw (problemIn .missingDirectiveName after.mark .directive start)
  if !blankOrEnd after.peek then throw (problemIn .badDirectiveName after.mark .directive start)
  let (kind, after) ←
    if name == "YAML".toList then scanVersion start after
    else if name == "TAG".toList then scanTagDirective start after
    else throw (problemIn .unknownDirective after.mark .directive start)
  let lineEnd := after.skipComment
  if !breakOrEnd lineEnd.peek then
    throw (problemIn .directiveTail lineEnd.mark .directive start)
  return (⟨kind, start, after.mark⟩, lineEnd.skipBreak)

end RamlScaffold.Yaml

import RamlScaffold.Text.Case
import RamlScaffold.Yaml.Fault

/-!
A position in a text together with the characters after it, and the character classes that the
grammar is written in. The end of the text counts as blank wherever a blank may end something.
-/

namespace RamlScaffold.Yaml

/-- Line breaks: line feed, carriage return, next line, line and paragraph separator. -/
def isBreak (c : Char) : Bool :=
  c == '\n' || c == '\r' || c == '\x85' || c == '\u2028' || c == '\u2029'

def isSpace (c : Char) : Bool := c == ' ' || c == '\t'

/-- Letters, digits, underscore and hyphen: what names of anchors and handles are made of. -/
def isNameChar (c : Char) : Bool := Text.isAlnum c || c == '_' || c == '-'

def hexValue? (c : Char) : Option Nat :=
  if '0' ≤ c && c ≤ '9' then some (c.toNat - 48)
  else if 'a' ≤ c && c ≤ 'f' then some (c.toNat - 87)
  else if 'A' ≤ c && c ≤ 'F' then some (c.toNat - 55)
  else none

def blankOrEnd : Option Char → Bool
  | none => true
  | some c => isSpace c || isBreak c

def breakOrEnd : Option Char → Bool
  | none => true
  | some c => isBreak c

/-- What a line break contributes to a value: the separators stand for themselves, all other breaks
for a line feed. -/
def breakValue (c : Char) : Char :=
  if c == '\u2028' || c == '\u2029' then c else '\n'

structure Cursor where
  rest : List Char
  mark : Mark
deriving Repr

namespace Cursor

def ofText (s : String) : Cursor := ⟨s.toList, .start⟩

def peek (c : Cursor) : Option Char := c.rest.head?

def peekAt (c : Cursor) (n : Nat) : Option Char := c.rest[n]?

def skip (c : Cursor) : Cursor :=
  match c.rest with
  | [] => c
  | _ :: rest => ⟨rest, c.mark.right⟩

def skipBy (c : Cursor) (n : Nat) : Cursor := ⟨c.rest.drop n, c.mark.rightBy n⟩

/-- Past a line break, where a carriage return and a line feed are one break. -/
def skipBreak (c : Cursor) : Cursor :=
  match c.rest with
  | '\r' :: '\n' :: rest => ⟨rest, c.mark.nextLine 2⟩
  | d :: rest => if isBreak d then ⟨rest, c.mark.nextLine 1⟩ else c
  | [] => c

/-- The longest run of characters that satisfy `p`, none of which may be a line break, and the
position after it. -/
def takeRun (p : Char → Bool) (c : Cursor) : List Char × Cursor :=
  let run := c.rest.takeWhile p
  (run, ⟨c.rest.drop run.length, c.mark.rightBy run.length⟩)

def skipRun (p : Char → Bool) (c : Cursor) : Cursor := (c.takeRun p).2

def skipComment (c : Cursor) : Cursor :=
  let c := c.skipRun isSpace
  if c.peek == some '#' then c.skipRun (fun d => !isBreak d) else c

/-- Whether a document indicator, three times `d` and then a blank, stands here. -/
def atIndicator (c : Cursor) (d : Char) : Bool :=
  c.mark.column == 0 && c.peekAt 0 == some d && c.peekAt 1 == some d && c.peekAt 2 == some d
    && blankOrEnd (c.peekAt 3)

def atDocumentIndicator (c : Cursor) : Bool := c.atIndicator '-' || c.atIndicator '.'

end Cursor

/-- A grammar fault at `place`, met while reading something that began at `since`. -/
def problemIn (problem : Problem) (place : Mark) (context : Context) (since : Mark) : Fault :=
  .grammar problem place (some (context, since))

end RamlScaffold.Yaml

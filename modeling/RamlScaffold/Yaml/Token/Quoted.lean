import RamlScaffold.Yaml.Token.Gap

/-!
Quoted scalars. Inside single quotes only a doubled quote is special; inside double quotes a
backslash starts an escape or hides a line break.
-/

namespace RamlScaffold.Yaml

def simpleEscape? (c : Char) : Option Char :=
  match c with
  | '0' => some '\x00'
  | 'a' => some '\x07'
  | 'b' => some '\x08'
  | 't' => some '\t'
  | '\t' => some '\t'
  | 'n' => some '\n'
  | 'v' => some '\x0b'
  | 'f' => some '\x0c'
  | 'r' => some '\r'
  | 'e' => some '\x1b'
  | ' ' => some ' '
  | '"' => some '"'
  | '/' => some '/'
  | '\\' => some '\\'
  | 'N' => some '\u0085'
  | '_' => some '\u00a0'
  | 'L' => some '\u2028'
  | 'P' => some '\u2029'
  | _ => none

/-- Escapes that spell a code point, with their number of digits. -/
def escapeWidth? (c : Char) : Option Nat :=
  match c with
  | 'x' => some 2
  | 'u' => some 4
  | 'U' => some 8
  | _ => none

def hexNumber? (digits : List Char) : Option Nat :=
  digits.foldl (fun acc c => do return (← acc) * 16 + (← hexValue? c)) (some 0)

/-- A code point that is a character: no surrogate and within the range. -/
def isScalarValue (n : Nat) : Bool := (n < 0xD800 || 0xDFFF < n) && n ≤ 0x10FFFF

/-- An escape in double quotes, from its backslash on: the character and the position after it. -/
def scanEscape (start : Mark) (c : Cursor) : Except Fault (Char × Cursor) :=
  match c.peekAt 1 with
  | none => .error (problemIn .unknownEscape c.mark .quotedEscape start)
  | some letter =>
    match simpleEscape? letter with
    | some d => .ok (d, c.skipBy 2)
    | none =>
      match escapeWidth? letter with
      | none => .error (problemIn .unknownEscape c.mark .quotedEscape start)
      | some width =>
        let body := c.skipBy 2
        let digits := body.rest.take width
        match (if digits.length == width then hexNumber? digits else none) with
        | none => .error (problemIn .missingHex body.mark .quotedEscape start)
        | some n =>
          if isScalarValue n then .ok (Char.ofNat n, body.skipBy width)
          else .error (problemIn .badCodePoint body.mark .quotedEscape start)

/-- The word that starts here: its characters, the position after it, and whether a hidden line
break ended it. What was read so far is held in reverse. -/
def quotedWord (single : Bool) (start : Mark) :
    Nat → Cursor → List Char → Except Fault (List Char × Cursor × Bool)
  | 0, c, value => .ok (value.reverse, c, false)
  | fuel + 1, c, value =>
    match c.peek with
    | none => .ok (value.reverse, c, false)
    | some d =>
      if isSpace d || isBreak d then .ok (value.reverse, c, false)
      else if single && d == '\'' && c.peekAt 1 == some '\'' then
        quotedWord single start fuel (c.skipBy 2) ('\'' :: value)
      else if d == (if single then '\'' else '"') then .ok (value.reverse, c, false)
      else if !single && d == '\\' && (c.peekAt 1).any isBreak then
        .ok (value.reverse, c.skip.skipBreak, true)
      else if !single && d == '\\' then
        match scanEscape start c with
        | .error fault => .error fault
        | .ok (e, next) => quotedWord single start fuel next (e :: value)
      else quotedWord single start fuel c.skip (d :: value)

def quotedWords (single : Bool) (start : Mark) :
    Nat → Cursor → List Char → Except Fault (List Char × Cursor)
  | 0, c, _ => .error (problemIn .unexpectedEnd c.mark .quotedScalar start)
  | fuel + 1, c, value =>
    if c.atDocumentIndicator then
      .error (problemIn .unexpectedIndicator c.mark .quotedScalar start)
    else if c.rest.isEmpty then .error (problemIn .unexpectedEnd c.mark .quotedScalar start)
    else
      match quotedWord single start c.rest.length c [] with
      | .error fault => .error fault
      | .ok (word, after, continued) =>
        if after.peek == some (if single then '\'' else '"') then .ok (value ++ word, after.skip)
        else
          match Gap.scan none after.rest after.mark (if continued then .continued else .empty) with
          | .error place => .error (problemIn .unexpectedEnd place .quotedScalar start)
          | .ok (gap, next) => quotedWords single start fuel next (value ++ word ++ gap.value)

/-- Reads the quoted scalar that starts here: its text and the position after its closing quote. -/
def scanQuoted (single : Bool) (c : Cursor) : Except Fault (List Char × Cursor) :=
  quotedWords single c.mark (c.rest.length + 1) c.skip []

end RamlScaffold.Yaml

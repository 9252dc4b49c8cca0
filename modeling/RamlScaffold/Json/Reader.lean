import RamlScaffold.Json.Number

/-!
JSON text to document values. Objects keep the order of their keys; a key written twice keeps its
first place and its last value. Arrays and objects may be nested 127 deep.
-/

namespace RamlScaffold.Json

def isSpace (c : Char) : Bool := c == ' ' || c == '\n' || c == '\t' || c == '\r'

def skipSpace (cs : List Char) : List Char := cs.dropWhile isSpace

def hex4? : List Char → Option (Nat × List Char)
  | a :: b :: c :: d :: rest => (Text.natOfDigits? 16 [a, b, c, d]).map (·, rest)
  | _ => none

/-- The character that a code unit after `\u` spells, a second unit included when the first is the
leading half of a pair. -/
def codeUnit? (cs : List Char) : Option (Char × List Char) :=
  match hex4? cs with
  | none => none
  | some (high, rest) =>
    if 0xDC00 ≤ high && high ≤ 0xDFFF then none
    else if 0xD800 ≤ high && high ≤ 0xDBFF then
      match rest with
      | '\\' :: 'u' :: more =>
        match hex4? more with
        | none => none
        | some (low, rest) =>
          if 0xDC00 ≤ low && low ≤ 0xDFFF then
            some (Char.ofNat (0x10000 + (high - 0xD800) * 0x400 + (low - 0xDC00)), rest)
          else none
      | _ => none
    else some (Char.ofNat high, rest)

/-- The rest of a string after its opening quote, `fuel` characters at most; what was read is held
in reverse. -/
def stringTail? : Nat → List Char → List Char → Option (List Char × List Char)
  | 0, _, _ => none
  | fuel + 1, found, cs =>
    match cs with
    | [] => none
    | '"' :: rest => some (found.reverse, rest)
    | '\\' :: rest =>
      match rest with
      | '"' :: more => stringTail? fuel ('"' :: found) more
      | '\\' :: more => stringTail? fuel ('\\' :: found) more
      | '/' :: more => stringTail? fuel ('/' :: found) more
      | 'b' :: more => stringTail? fuel ('\x08' :: found) more
      | 'f' :: more => stringTail? fuel ('\x0c' :: found) more
      | 'n' :: more => stringTail? fuel ('\n' :: found) more
      | 'r' :: more => stringTail? fuel ('\r' :: found) more
      | 't' :: more => stringTail? fuel ('\t' :: found) more
      | 'u' :: more =>
        match codeUnit? more with
        | some (c, rest) => stringTail? fuel (c :: found) rest
        | none => none
      | _ => none
    | c :: rest => if c.toNat < 0x20 then none else stringTail? fuel (c :: found) rest

def string? (cs : List Char) : Option (String × List Char) :=
  (stringTail? (cs.length + 1) [] cs).map fun (s, rest) => (.ofList s, rest)

def word? (word cs : List Char) : Option (List Char) :=
  if word.isPrefixOf cs then some (cs.drop word.length) else none

mutual

/-- A value at the start of the text, `depth` more levels allowed, and the rest. -/
def value? : Nat → Nat → List Char → Option (Value × List Char)
  | 0, _, _ => none
  | fuel + 1, depth, cs =>
    match skipSpace cs with
    | 'n' :: rest => (word? "ull".toList rest).map (.null, ·)
    | 't' :: rest => (word? "rue".toList rest).map (.bool true, ·)
    | 'f' :: rest => (word? "alse".toList rest).map (.bool false, ·)
    | '"' :: rest => (string? rest).map fun (s, rest) => (.text s, rest)
    | '[' :: rest =>
      if depth ≤ 1 then none
      else
        match skipSpace rest with
        | ']' :: more => some (.list [], more)
        | more => (items? fuel (depth - 1) more []).map fun (vs, rest) => (.list vs, rest)
    | '\x7b' :: rest =>
      if depth ≤ 1 then none
      else
        match skipSpace rest with
        | '\x7d' :: more => some (.map [], more)
        | more => (members? fuel (depth - 1) more []).map fun (fs, rest) => (.map fs, rest)
    | more => (number? more).map fun (n, rest) => (.number n, rest)
termination_by structural fuel => fuel

def items? : Nat → Nat → List Char → List Value → Option (List Value × List Char)
  | 0, _, _, _ => none
  | fuel + 1, depth, cs, found =>
    match value? fuel depth cs with
    | none => none
    | some (v, rest) =>
      match skipSpace rest with
      | ',' :: more => items? fuel depth more (v :: found)
      | ']' :: more => some ((v :: found).reverse, more)
      | _ => none
termination_by structural fuel => fuel

def members? : Nat → Nat → List Char → Fields Value → Option (Fields Value × List Char)
  | 0, _, _, _ => none
  | fuel + 1, depth, cs, found =>
    match skipSpace cs with
    | '"' :: rest =>
      match string? rest with
      | none => none
      | some (key, rest) =>
        match skipSpace rest with
        | ':' :: rest =>
          match value? fuel depth rest with
          | none => none
          | some (v, rest) =>
            match skipSpace rest with
            | ',' :: more => members? fuel depth more (found.put key v)
            | '\x7d' :: more => some (found.put key v, more)
            | _ => none
        | _ => none
    | _ => none
termination_by structural fuel => fuel

end

/-- The value of a JSON text; none when the text is not JSON or nested too deeply. -/
def parse? (s : String) : Option Value :=
  let cs := s.toList
  match value? (cs.length + 1) 128 cs with
  | some (v, rest) => if (skipSpace rest).isEmpty then some v else none
  | none => none

end RamlScaffold.Json

import RamlScaffold.Yaml.Cursor

/-!
Node properties: anchors, aliases and tags, and the URIs that tags are made of. Escaped octets in a
URI spell characters in UTF-8.
-/

namespace RamlScaffold.Yaml

def scanAnchorName (context : Context) (c : Cursor) : Except Fault (List Char × Cursor) :=
  let start := c.mark
  let (name, after) := c.skip.takeRun isNameChar
  let mayFollow (d : Char) : Bool :=
    isSpace d || isBreak d || d == '?' || d == ':' || d == ',' || d == ']' || d == '\x7d'
      || d == '%' || d == '@' || d == '\x60'
  if name.isEmpty || !(match after.peek with | none => true | some d => mayFollow d) then
    .error (problemIn .missingAnchorName after.mark context start)
  else .ok (name, after)

/-- Characters of a URI; `wide` admits the ones that end a tag inside a flow collection. -/
def isUriChar (wide : Bool) (c : Char) : Bool :=
  isNameChar c || c == ';' || c == '/' || c == '?' || c == ':' || c == '@' || c == '&' || c == '='
    || c == '+' || c == '$' || c == '.' || c == '%' || c == '!' || c == '~' || c == '*'
    || c == '\'' || c == '(' || c == ')' || (wide && (c == ',' || c == '[' || c == ']'))

def octet? (c : Cursor) : Option Nat :=
  if c.peek == some '%' then do
    return (← hexValue? (← c.peekAt 1)) * 16 + (← hexValue? (← c.peekAt 2))
  else none

def octetCount? (octet : Nat) : Option Nat :=
  if octet < 0x80 then some 1
  else if octet / 0x20 == 0x6 then some 2
  else if octet / 0x10 == 0xE then some 3
  else if octet / 0x08 == 0x1E then some 4
  else none

def trailingOctets (context : Context) (start : Mark) :
    Nat → Cursor → Nat → Except Fault (Nat × Cursor)
  | 0, c, value => .ok (value, c)
  | count + 1, c, value =>
    match octet? c with
    | none => .error (problemIn .missingOctet c.mark context start)
    | some octet =>
      if octet / 0x40 == 0x2 then
        trailingOctets context start count (c.skipBy 3) (value * 0x40 + octet % 0x40)
      else .error (problemIn .badTrailingOctet c.mark context start)

/-- Reads the escaped octets of one character. An encoding that spells no character gives the
replacement character. -/
def scanEscapedChar (context : Context) (start : Mark) (c : Cursor) :
    Except Fault (Char × Cursor) :=
  match octet? c with
  | none => .error (problemIn .missingOctet c.mark context start)
  | some octet =>
    match octetCount? octet with
    | none => .error (problemIn .badLeadingOctet c.mark context start)
    | some count =>
      let lead := if count == 1 then octet else octet % Nat.pow 2 (7 - count)
      match trailingOctets context start (count - 1) (c.skipBy 3) lead with
      | .error fault => .error fault
      | .ok (value, next) =>
        .ok (if value.isValidChar then Char.ofNat value else '\ufffd', next)

def uriChars (wide : Bool) (context : Context) (start : Mark) :
    Nat → Cursor → List Char → Except Fault (List Char × Cursor)
  | 0, c, uri => .ok (uri.reverse, c)
  | fuel + 1, c, uri =>
    match c.peek with
    | none => .ok (uri.reverse, c)
    | some d =>
      if !isUriChar wide d then .ok (uri.reverse, c)
      else if d == '%' then
        match scanEscapedChar context start c with
        | .error fault => .error fault
        | .ok (e, next) => uriChars wide context start fuel next (e :: uri)
      else uriChars wide context start fuel c.skip (d :: uri)

/-- Reads a URI; one without any character is refused unless something was read before it. -/
def scanUri (wide : Bool) (context : Context) (start : Mark) (begun : Bool) (c : Cursor) :
    Except Fault (List Char × Cursor) :=
  match uriChars wide context start c.rest.length c [] with
  | .error fault => .error fault
  | .ok (uri, after) =>
    if uri.isEmpty && !begun then .error (problemIn .missingUri after.mark context start)
    else .ok (uri, after)

/-- Reads a tag handle: an exclamation mark, a name and, if there is one, a second mark. -/
def scanHandle (context : Context) (start : Mark) (c : Cursor) :
    Except Fault (List Char × Cursor) :=
  if c.peek != some '!' then .error (problemIn .missingHandleMark c.mark context start)
  else
    let (name, after) := c.skip.takeRun isNameChar
    if after.peek == some '!' then .ok ('!' :: (name ++ ['!']), after.skip)
    else .ok ('!' :: name, after)

/-- Whether a handle has its second mark. -/
def isFullHandle (handle : List Char) : Bool :=
  handle.length > 1 && handle.getLast? == some '!'

/-- Reads a tag: its handle, its suffix and the position after it. A verbatim tag has no handle. -/
def scanTag (flow : Bool) (c : Cursor) : Except Fault (List Char × List Char × Cursor) := do
  let start := c.mark
  let (handle, suffix, after) ←
    if c.peekAt 1 == some '<' then do
      let (uri, after) ← scanUri true .tagUri start false (c.skipBy 2)
      if after.peek != some '>' then throw (problemIn .missingTagEnd after.mark .tagScan start)
      pure (([] : List Char), uri, after.skip)
    else do
      let (handle, after) ← scanHandle .tagScan start c
      if isFullHandle handle then
        let (uri, after) ← scanUri false .tagUri start false after
        pure (handle, uri, after)
      else
        let (uri, after) ← scanUri false .tagUri start true after
        let suffix := handle.drop 1 ++ uri
        if suffix.isEmpty then pure ([], ['!'], after) else pure (['!'], suffix, after)
  if blankOrEnd after.peek || (flow && after.peek == some ',') then
    return (handle, suffix, after)
  else throw (problemIn .missingSpaceOrBreak after.mark .tagScan start)

end RamlScaffold.Yaml

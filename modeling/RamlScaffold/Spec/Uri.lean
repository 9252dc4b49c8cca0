import RamlScaffold.Text.Basic

/-!
Resource URIs as literals and placeholders. A placeholder is an opening brace, one or more
characters other than a closing brace, and a closing brace; an opening brace that no closing brace
follows is a literal.
-/

namespace RamlScaffold.Uri

/-- The name of the placeholder that starts after an opening brace, and the rest of the URI. -/
def placeholder? (cs : List Char) : Option (List Char × List Char) :=
  let name := cs.takeWhile (· != '\x7d')
  match cs.drop name.length with
  | _ :: rest => if name.isEmpty then none else some (name, rest)
  | [] => none

/-- The characters of a URI with its placeholders cut out. -/
inductive Piece where
  | char (c : Char)
  | name (cs : List Char)
deriving DecidableEq, Repr

/-- Cuts a URI into characters and placeholders, `fuel` steps at most. -/
def pieces : Nat → List Char → List Piece
  | 0, _ => []
  | _, [] => []
  | fuel + 1, c :: rest =>
    if c == '\x7b' then
      match placeholder? rest with
      | some (name, rest) => .name name :: pieces fuel rest
      | none => .char c :: pieces fuel rest
    else .char c :: pieces fuel rest

def split (uri : String) : List Piece := pieces uri.toList.length uri.toList

def names (uri : String) : List String :=
  (split uri).filterMap fun piece =>
    match piece with
    | .name cs => some (.ofList cs)
    | .char _ => none

/-- The URI with the `i`-th placeholder replaced by the `i`-th text, and every other character by
what `f` makes of it. A placeholder without a text stays as it is written. -/
def fill (f : Char → List Char) : List Piece → List String → List Char
  | [], _ => []
  | .char c :: rest, texts => f c ++ fill f rest texts
  | .name cs :: rest, [] => ('\x7b' :: cs ++ ['\x7d']).flatMap f ++ fill f rest []
  | .name _ :: rest, text :: texts => text.toList ++ fill f rest texts

def substitute (uri : String) (texts : List String) : String :=
  .ofList (fill (fun c => [c]) (split uri) texts)

end RamlScaffold.Uri

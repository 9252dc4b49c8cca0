/-!
Tab expansion. A tab becomes the spaces that lead to the next multiple of the width; columns are
counted in characters and start again after a line feed or a carriage return.
-/

namespace RamlScaffold.Text

/-- Expands the tabs of `cs`, of which the first character stands in column `column`. -/
def expandFrom (width : Nat) : Nat → List Char → List Char
  | _, [] => []
  | column, c :: rest =>
    if c == '\t' then
      let pad := width - column % width
      List.replicate pad ' ' ++ expandFrom width (column + pad) rest
    else if c == '\n' || c == '\r' then c :: expandFrom width 0 rest
    else c :: expandFrom width (column + 1) rest

/-- Replaces tabs with spaces up to the next multiple of `width`; a width of zero acts as one. -/
def expandTabs (width : Nat) (s : String) : String :=
  .ofList (expandFrom (max width 1) 0 s.toList)

end RamlScaffold.Text

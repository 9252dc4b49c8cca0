import RamlScaffold.Text.Basic
import RamlScaffold.Text.Blank
import RamlScaffold.Text.Case

/-!
Names by the words in a text. Words are runs of ASCII letters and digits, cut again where the case
of the letters shows that a word begins.
-/

namespace RamlScaffold.Naming

/-- One underscore for each run of characters other than ASCII letters and digits. `inRun` says
whether such a run has begun. -/
def spaced (inRun : Bool) : List Char → List Char
  | [] => []
  | c :: rest =>
    if Text.isAlnum c then c :: spaced false rest
    else if inRun then spaced true rest
    else '_' :: spaced true rest

/-- An underscore before each capital that a lower-case letter follows, unless it comes first. -/
def markCapitals : List Char → List Char
  | a :: b :: c :: rest =>
    if Text.isUpper b && Text.isLower c then a :: '_' :: markCapitals (b :: c :: rest)
    else a :: markCapitals (b :: c :: rest)
  | cs => cs

/-- An underscore between a lower-case letter or digit and a capital. -/
def markRises : List Char → List Char
  | a :: b :: rest =>
    if (Text.isLower a || Text.isDigit a) && Text.isUpper b then a :: '_' :: markRises (b :: rest)
    else a :: markRises (b :: rest)
  | cs => cs

/-- One underscore for each run of underscores. -/
def collapse : List Char → List Char
  | a :: b :: rest =>
    if a == '_' && b == '_' then collapse (b :: rest) else a :: collapse (b :: rest)
  | cs => cs

def snake (text : String) : String :=
  let marked := markRises (markCapitals (spaced false text.toList))
  .ofList (Text.trimWhile (· == '_') (collapse (marked.map Text.lowerChar)))

def capitalize : List Char → List Char
  | [] => []
  | c :: rest => Text.upperChar c :: rest

def pascal (text : String) : String :=
  .ofList ((Text.cutAt '_' (snake text).toList).flatMap capitalize)

/-- Like `pascal`, but starting in lower case. -/
def camel (text : String) : String :=
  match (pascal text).toList with
  | [] => ""
  | c :: rest => .ofList (Text.lowerChar c :: rest)

end RamlScaffold.Naming

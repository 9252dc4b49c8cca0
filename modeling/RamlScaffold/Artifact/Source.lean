import RamlScaffold.Code.Literal
import RamlScaffold.Text.Basic

/-!
The text of an artifact as lines of pieces. Text from a document enters code only as a literal or
inside a docstring, and both kinds of piece carry their own quotes, so what a document says cannot
reach the code around them.
-/

namespace RamlScaffold

inductive Piece where
  | code (text : String)
  | literal (text : String)
  /-- A docstring: fixed texts around an escaped one. -/
  | docstring (before text after : String)
deriving DecidableEq, Repr

instance : Coe String Piece := ⟨.code⟩

def Piece.render : Piece → String
  | .code text => text
  | .literal text => Code.quote text
  | .docstring before text after => "\"\"\"" ++ before ++ Code.docstring text ++ after ++ "\"\"\""

/-- The pieces of one line; the line break is not among them. -/
abbrev Line := List Piece

instance : Coe String Line := ⟨fun text => [.code text]⟩

abbrev Source := List Line

namespace Source

def render (source : Source) : String :=
  Text.concat (source.map fun line => Text.concat (line.map Piece.render) ++ "\n")

def join (parts : List Source) : Source := parts.flatten

def when (condition : Bool) (lines : Source) : Source := if condition then lines else []

def each {α : Type} (items : List α) (lines : α → Source) : Source := items.flatMap lines

def textIf (condition : Bool) (text : String) : String := if condition then text else ""

end Source

end RamlScaffold

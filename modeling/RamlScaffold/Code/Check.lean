import RamlScaffold.Code.Parse
import RamlScaffold.Text.Blank

/-!
Whether a text is Python source by its form, and what is said about it if not.
-/

namespace RamlScaffold.Code

structure SyntaxFault where
  place : Place
  message : String
deriving DecidableEq, Repr

def insertable : List (Terminal × String) :=
  [(.identifier, "identifier"), (.fixed ")", ")"), (.fixed "]", "]"), (.fixed "\x7d", "\x7d")]

/-- Whether a terminal completes a production on a stack, and can come next. -/
def completes (a : Automaton) (t : Terminal) (stack : Stack) : Bool :=
  match a.terminals[t]?, a.top stack with
  | some terminal, some s =>
    (a.moves s stack terminal).completed.any fun after =>
      a.possibleFrom terminal (Automaton.mostCompletions after) after
  | _, _ => false

/-- Tells which terminal has been left out: one that is complete when the next terminal comes. -/
def Refusal.leftOut? (a : Automaton) (r : Refusal) : Option SyntaxFault := do
  let next ← r.terminal
  let (_, name) ← insertable.find? fun (t, _) =>
    (a.read r.thread.stack t).any (completes a next.terminal)
  return ⟨r.thread.cursor.place, "missing '" ++ name ++ "'"⟩

/-- The lexemes from the start of the last statement on. With `outermost`, statements inside blocks
do not count. `depth` is the number of open blocks, `found` what the answer is so far. -/
def lastStatement (outermost : Bool) : Nat → List Lexeme → List Lexeme → List Lexeme
  | _, found, [] => found
  | depth, found, l :: rest =>
    match l.terminal with
    | .indent => lastStatement outermost (depth + 1) (if outermost then found else rest) rest
    | .dedent =>
      lastStatement outermost (depth - 1) (if outermost && 1 < depth then found else rest) rest
    | .newline =>
      lastStatement outermost depth (if outermost && 0 < depth then found else rest) rest
    | _ => lastStatement outermost depth found rest

def cursorAt (place : Place) : Nat → Cursor → Cursor
  | 0, cur => cur
  | fuel + 1, cur => if cur.place == place then cur else cursorAt place fuel (cur.skip 1)

def pastSpace : Nat → Cursor → Cursor
  | 0, cur => cur
  | fuel + 1, cur => if cur.rest.head?.any isSpace then pastSpace fuel (cur.skip 1) else cur

/-- The start of the statement that is not well-formed. At the end of the text it is the outermost
one, as no block in it can be complete. -/
def Refusal.statement (source : String) (r : Refusal) : Cursor :=
  let size := source.length + 1
  let before := r.thread.lexemes.reverse
  let atEnd := r.terminal.any (·.terminal == .endOfText)
  match lastStatement atEnd 0 before before with
  | l :: _ => cursorAt l.start size (Cursor.start source)
  | [] => pastSpace size r.thread.cursor

/-- Says that a statement is not well-formed, with the start of its first line. -/
def Refusal.broken (source : String) (r : Refusal) : SyntaxFault :=
  let cur := r.statement source
  let snippet := Text.trim (.ofList ((cur.rest.takeWhile (· != '\n')).take 40))
  ⟨cur.place, if snippet == "" then "invalid syntax" else "invalid syntax near '" ++ snippet ++ "'"⟩

/-- Checks the form of a text. -/
def check (source : String) : Except SyntaxFault Unit :=
  match readSource source with
  | .ok () => .ok ()
  | .error r => .error ((r.leftOut? automaton).getD (r.broken source))

end RamlScaffold.Code

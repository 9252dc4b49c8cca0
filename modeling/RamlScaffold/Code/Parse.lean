import RamlScaffold.Code.Stack
import RamlScaffold.Code.Token.Scan

/-!
Reading a source text with the automaton. Where several ways to read it are open they are followed
together, the one that is behind first. The text is accepted if one of them reaches its end.
-/

namespace RamlScaffold.Code

/-- A terminal with the places where it starts and stops. -/
structure Lexeme where
  terminal : Terminal
  start : Place
  stop : Place
deriving DecidableEq, Repr

/-- One way to read the text so far. -/
structure Thread where
  stack : Stack
  layout : Layout
  cursor : Cursor
  /-- What has been read, the last one first. -/
  lexemes : List Lexeme

namespace Thread

def start (source : String) : Thread := ⟨[0], Layout.empty, Cursor.start source, []⟩

/-- Whether two threads have the same way before them. -/
def agrees (t u : Thread) : Bool :=
  t.cursor.place == u.cursor.place && t.stack == u.stack && t.layout == u.layout

/-- What comes next for a thread. -/
inductive Progress where
  | done
  | onward (threads : List Thread)
  /-- No way leads on; the terminal that came next, if it is one. -/
  | stuck (terminal : Option Scanned)

def advance (a : Automaton) (fuel : Nat) (t : Thread) : Progress :=
  match next (a.possible t.stack) fuel t.layout t.cursor with
  | .unknown => .stuck none
  | .comment stop => .onward [{ t with cursor := stop }]
  | .terminal s =>
    match a.read t.stack s.terminal with
    | [] => .stuck (some s)
    | found =>
      if s.terminal == .endOfText then .done
      else .onward (found.map fun stack =>
        ⟨stack, s.layout, s.stop, ⟨s.terminal, s.start.place, s.stop.place⟩ :: t.lexemes⟩)

end Thread

/-- Adds threads to others that do not agree with them. -/
def addThreads (threads : List Thread) (more : List Thread) : List Thread :=
  more.foldl (fun all t => if all.any t.agrees then all else t :: all) threads

/-- Why a text was refused: the last thread, and the terminal on which it got stuck. -/
structure Refusal where
  thread : Thread
  terminal : Option Scanned

/-- The threads that are furthest behind, and the others. -/
def splitThreads : List Thread → List Thread × List Thread
  | [] => ([], [])
  | t :: rest =>
    match splitThreads rest with
    | ([], ahead) => ([t], ahead)
    | (u :: behind, ahead) =>
      if t.cursor.place.isBefore u.cursor.place then ([t], u :: behind ++ ahead)
      else if u.cursor.place.isBefore t.cursor.place then (u :: behind, t :: ahead)
      else (t :: u :: behind, ahead)

/-- Lets the threads that are behind read a terminal each: the threads after that, and the last
refusal. None when the end has been reached. -/
def round (a : Automaton) (fuel : Nat) (last : Refusal) :
    List Thread → List Thread → Option (List Thread × Refusal)
  | [], after => some (after, last)
  | t :: behind, after =>
    match t.advance a fuel with
    | .done => none
    | .onward threads => round a fuel last behind (addThreads after threads)
    | .stuck terminal => round a fuel ⟨t, terminal⟩ behind after

def readThreads (a : Automaton) (size : Nat) : Nat → Refusal → List Thread → Except Refusal Unit
  | 0, last, _ => .error last
  | _ + 1, last, [] => .error last
  | fuel + 1, last, threads =>
    let (behind, ahead) := splitThreads threads
    match round a size last behind ahead with
    | none => .ok ()
    | some (threads, last) => readThreads a size fuel last threads

/-- Reads a source text. Each character and each open block can take a few rounds. -/
def readSource (source : String) : Except Refusal Unit :=
  let size := source.length + 2
  let start := Thread.start source
  readThreads automaton size (8 * size) ⟨start, none⟩ [start]

end RamlScaffold.Code

import RamlScaffold.Text.Basic

/-!
Command-line options: which ones a command takes, and how its arguments name them.

A value can follow as an argument of its own or be attached (`--output=out`, `-o=out`, `-oout`).
The values of one option are settled when the next option begins, so an argument that is not known
is refused before a value that came earlier.
-/

namespace RamlScaffold.Command

/-- Why arguments are refused, or what is shown in place of running them. -/
inductive UsageFault where
  | help
  | helpForNothing
  | unknownCommand
  | unknownArgument
  | missingOption
  | repeatedOption
  | badValue
  | unexpectedValue
deriving DecidableEq, Repr

inductive Arity where
  | none
  | one
  /-- One or more, and the option can be repeated. -/
  | many
deriving DecidableEq, Repr

structure OptionRule where
  long : String
  short : Option Char
  arity : Arity
  /-- Whether values can be empty; a path cannot. -/
  emptyAllowed : Bool
  required : Bool
deriving DecidableEq, Repr

namespace OptionRule

def switch (long : String) : OptionRule := ⟨long, .none, .none, true, false⟩

def text (long : String) : OptionRule := ⟨long, .none, .one, true, false⟩

def path (long : String) : OptionRule := ⟨long, .none, .one, false, false⟩

def requiredPath (long : String) (short : Char) : OptionRule :=
  ⟨long, some short, .one, false, true⟩

def requiredPaths (long : String) (short : Char) : OptionRule :=
  ⟨long, some short, .many, false, true⟩

def help : OptionRule := ⟨"help", some 'h', .none, true, false⟩

end OptionRule

/-- Options with their values, in the order in which they were settled. -/
abbrev Given := List (String × List String)

namespace Given

def has (given : Given) (long : String) : Bool := given.any (·.1 == long)

def values (given : Given) (long : String) : List String :=
  (given.filter (·.1 == long)).flatMap (·.2)

def value? (given : Given) (long : String) : Option String := (given.values long).head?

end Given

structure Pending where
  rule : OptionRule
  values : List String
deriving DecidableEq, Repr

def Pending.wantsMore (p : Pending) : Bool :=
  match p.rule.arity with
  | .none => false
  | .one => p.values.isEmpty
  | .many => true

/-- How far the arguments are read. -/
structure Reading where
  given : Given
  pending : Option Pending
deriving DecidableEq, Repr

namespace Reading

def start : Reading := ⟨[], none⟩

def record (rule : OptionRule) (values : List String) (given : Given) : Except UsageFault Given :=
  if rule.arity != .none && values.isEmpty then .error .badValue
  else if rule.arity != .many && given.has rule.long then .error .repeatedOption
  else if !rule.emptyAllowed && values.contains "" then .error .badValue
  else .ok (given ++ [(rule.long, values)])

def settle (r : Reading) : Except UsageFault Given :=
  match r.pending with
  | none => .ok r.given
  | some p => record p.rule p.values r.given

def switch (rule : OptionRule) (r : Reading) : Except UsageFault Reading := do
  let given ← r.settle
  if rule == .help then throw .help
  return ⟨← record rule [] given, none⟩

/-- An option that takes values, with the one that is attached to it. -/
def begin (rule : OptionRule) (attached : Option String) (r : Reading) :
    Except UsageFault Reading := do
  let given ← r.settle
  match attached with
  | some value => return ⟨← record rule [value] given, none⟩
  | none => return ⟨given, some ⟨rule, []⟩⟩

def value (text : String) (r : Reading) : Except UsageFault Reading :=
  match r.pending with
  | some p =>
    if p.wantsMore then .ok { r with pending := some { p with values := p.values ++ [text] } }
    else .error .unknownArgument
  | none => .error .unknownArgument

end Reading

/-- The text before the first equals sign, and the text after it. -/
def splitAttached (cs : List Char) : String × Option String :=
  let name := cs.takeWhile (· != '=')
  match cs.drop name.length with
  | [] => (.ofList name, none)
  | _ :: rest => (.ofList name, some (.ofList rest))

def readLong (rules : List OptionRule) (body : List Char) (r : Reading) :
    Except UsageFault Reading :=
  let (name, attached) := splitAttached body
  match rules.find? (·.long == name) with
  | none => .error .unknownArgument
  | some rule =>
    if rule.arity != .none then r.begin rule attached
    else if attached.isSome then .error .unexpectedValue
    else r.switch rule

/-- What follows a short name in the same argument. -/
def attachedToShort : List Char → Option String
  | [] => none
  | '=' :: rest => some (.ofList rest)
  | rest => some (.ofList rest)

/-- An argument after one dash: short names, the last of which can have a value attached. -/
def readShort (rules : List OptionRule) : List Char → Reading → Except UsageFault Reading
  | [], r => .ok r
  | c :: rest, r =>
    match rules.find? (·.short == some c) with
    | none => .error .unknownArgument
    | some rule =>
      if rule.arity != .none then r.begin rule (attachedToShort rest)
      else r.switch rule >>= readShort rules rest

/-- Reads arguments. After two dashes alone no argument is an option, and there is nothing that
takes the others. -/
def readArguments (rules : List OptionRule) : List String → Reading → Except UsageFault Reading
  | [], r => .ok r
  | argument :: rest, r =>
    match argument.toList with
    | ['-', '-'] => if rest.isEmpty then .ok r else .error .unknownArgument
    | '-' :: '-' :: body => readLong rules body r >>= readArguments rules rest
    | '-' :: c :: body => readShort rules (c :: body) r >>= readArguments rules rest
    | _ => r.value argument >>= readArguments rules rest

def readOptions (rules : List OptionRule) (arguments : List String) : Except UsageFault Given := do
  let given ← (← readArguments (rules ++ [.help]) arguments .start).settle
  if rules.any fun rule => rule.required && !given.has rule.long then throw .missingOption
  return given

end RamlScaffold.Command

import RamlScaffold.Code.Terminal

/-!
Rules of a grammar and the productions that they stand for. A part of a rule can carry a precedence
and a side to associate to; both decide between the productions that fit the same text.
-/

namespace RamlScaffold.Code

inductive Side where
  | left
  | right
deriving DecidableEq, Repr

def Side.label : Side → String
  | .left => " left"
  | .right => " right"

inductive Rule where
  | terminal (t : Terminal)
  | named (name : String)
  | sequence (parts : List Rule)
  | choice (alternatives : List Rule)
  /-- One or more times. -/
  | repeated (body : Rule)
  | ranked (precedence : Int) (side : Option Side) (body : Rule)

instance : Coe String Rule := ⟨fun text => .terminal (.fixed text)⟩

instance : Coe Terminal Rule := ⟨.terminal⟩

namespace Rule

def optional (rule : Rule) : Rule := .choice [rule, .sequence []]

def any (rule : Rule) : Rule := optional (.repeated rule)

def separated (between rule : Rule) : Rule := .sequence [rule, any (.sequence [between, rule])]

def commas (rule : Rule) : Rule := separated "," rule

/-- One or more with commas between them; a comma may end them. -/
def listed (rule : Rule) : Rule := .sequence [commas rule, optional ","]

def ranking (precedence : Int) (parts : List Rule) : Rule :=
  .ranked precedence none (.sequence parts)

def siding (side : Side) (precedence : Int) (parts : List Rule) : Rule :=
  .ranked precedence (some side) (.sequence parts)

mutual

def label : Rule → String
  | .terminal t => t.label
  | .named name => name
  | .sequence parts => "(" ++ labels " " parts ++ ")"
  | .choice alternatives => "(" ++ labels " or " alternatives ++ ")"
  | .repeated body => body.label ++ " again"
  | .ranked precedence side body =>
    body.label ++ " of " ++ toString precedence ++ (side.map Side.label).getD ""
termination_by structural r => r

def labels (between : String) : List Rule → String
  | [] => ""
  | rule :: rest => rule.label ++ between ++ labels between rest
termination_by structural rs => rs

end

mutual

def repetitions : Rule → List (String × Rule)
  | .terminal _ => []
  | .named _ => []
  | .sequence parts => repetitionsOf parts
  | .choice alternatives => repetitionsOf alternatives
  | .repeated body => ((Rule.repeated body).label, body) :: body.repetitions
  | .ranked _ _ body => body.repetitions
termination_by structural r => r

def repetitionsOf : List Rule → List (String × Rule)
  | [] => []
  | rule :: rest => rule.repetitions ++ repetitionsOf rest
termination_by structural rs => rs

end

end Rule

inductive Part where
  | terminal (t : Terminal)
  | rule (name : String)
deriving DecidableEq, Hashable, Repr

/-- A part of a production with the precedence and the side that hold once it has been read. -/
structure Step where
  part : Part
  precedence : Option Int
  side : Option Side
deriving DecidableEq, Repr

def setLast (f : Step → Step) : List Step → List Step
  | [] => []
  | [step] => [f step]
  | step :: rest => step :: setLast f rest

namespace Rule

mutual

/-- The ways to read a rule, inside a part with a precedence and a side. A part that ends before the
rule does hands its rank back, so that the last step of a production decides about it. -/
def readings (precedence : Option Int) (side : Option Side) (atEnd : Bool) :
    Rule → List (List Step)
  | .terminal t => [[⟨.terminal t, precedence, side⟩]]
  | .named name => [[⟨.rule name, precedence, side⟩]]
  | .sequence parts => sequenceReadings precedence side atEnd parts
  | .choice alternatives => choiceReadings precedence side atEnd alternatives
  | .repeated body => [[⟨.rule (Rule.repeated body).label, precedence, side⟩]]
  | .ranked p s body =>
    let inner := body.readings (some p) (s.or side) atEnd
    if atEnd then inner
    else inner.map (setLast fun step =>
      { step with precedence, side := if s.isSome then side else step.side })
termination_by structural r => r

def sequenceReadings (precedence : Option Int) (side : Option Side) (atEnd : Bool) :
    List Rule → List (List Step)
  | [] => [[]]
  | rule :: rest =>
    (rule.readings precedence side (atEnd && rest.isEmpty)).flatMap fun first =>
      (sequenceReadings precedence side atEnd rest).map (first ++ ·)
termination_by structural rs => rs

def choiceReadings (precedence : Option Int) (side : Option Side) (atEnd : Bool) :
    List Rule → List (List Step)
  | [] => []
  | rule :: rest =>
    rule.readings precedence side atEnd ++ choiceReadings precedence side atEnd rest
termination_by structural rs => rs

end

end Rule

/-- A rule and one way to read it. -/
structure Production where
  rule : String
  steps : List Step
deriving DecidableEq, Repr

/-- Rules by name. The productions of an inlined rule take its place where it is used. -/
structure Grammar where
  start : String
  rules : List (String × Rule)
  inlined : List String

namespace Grammar

/-- The readings of the inlined rules. -/
def inlinedReadings (g : Grammar) : List (String × List (List Step)) :=
  g.rules.filterMap fun (name, rule) =>
    if g.inlined.contains name then some (name, rule.readings none none true) else none

/-- Puts the readings of inlined rules into a production. Their last step takes over the rank of the
step that they replace, if it has none of its own. -/
def inlineSteps (inlined : List (String × List (List Step))) : List Step → List (List Step)
  | [] => [[]]
  | step :: rest =>
    let after := inlineSteps inlined rest
    let here :=
      match step.part with
      | .rule name =>
        match inlined.lookup name with
        | some readings => readings.map (setLast fun last =>
            { last with
              precedence := last.precedence.or step.precedence
              side := last.side.or step.side })
        | none => [[step]]
      | .terminal _ => [[step]]
    here.flatMap fun first => after.map (first ++ ·)

/-- The productions of a repeated part: once, or after itself. -/
def repetitionReadings (name : String) (body : Rule) : List (List Step) :=
  let once := body.readings none none true
  once ++ once.map (⟨.rule name, none, none⟩ :: ·)

def repetitions (g : Grammar) : List (String × Rule) :=
  (g.rules.flatMap fun (_, rule) => rule.repetitions).foldl
    (fun seen (name, body) => if (seen.map (·.1)).contains name then seen else (name, body) :: seen)
    []

/-- All productions. The first one is for the whole text. -/
def productions (g : Grammar) : List Production :=
  let inlined := g.inlinedReadings
  let named := g.rules.filterMap fun (name, rule) =>
    if g.inlined.contains name then none else some (name, rule.readings none none true)
  let repeated := g.repetitions.map fun (name, body) => (name, repetitionReadings name body)
  ⟨"", [⟨.rule g.start, none, none⟩, ⟨.terminal .endOfText, none, none⟩]⟩ ::
    (named ++ repeated).flatMap fun (name, readings) =>
      ((readings.flatMap (inlineSteps inlined)).eraseDups).map (⟨name, ·⟩)

end Grammar

end RamlScaffold.Code

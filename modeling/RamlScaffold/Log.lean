import RamlScaffold.Text.Case

/-!
Settings of the log, as environment variables give them.
-/

namespace RamlScaffold

inductive LogLevel where
  | trace
  | debug
  | info
  | warn
  | error
deriving DecidableEq, Repr

namespace LogLevel

/-- The level with that name; warnings for any other text. -/
def ofName (name : String) : LogLevel :=
  match Text.lower name with
  | "trace" => .trace
  | "debug" => .debug
  | "info" => .info
  | "error" => .error
  | _ => .warn

def text : LogLevel → String
  | .trace => "TRACE"
  | .debug => "DEBUG"
  | .info => "INFO"
  | .warn => "WARN"
  | .error => "ERROR"

end LogLevel

inductive LogFormat where
  | json
  | pretty
deriving DecidableEq, Repr

namespace LogFormat

/-- The format with that name; the readable one for any other text. -/
def ofName (name : String) : LogFormat := if Text.lower name == "json" then .json else .pretty

def text : LogFormat → String
  | .json => "json"
  | .pretty => "pretty"

end LogFormat

structure LogSettings where
  levelName : String
  format : LogFormat
  targetFilter : Option String
deriving DecidableEq, Repr

namespace LogSettings

def level (s : LogSettings) : LogLevel := .ofName s.levelName

def ofVariables (level format filter : Option String) : LogSettings :=
  ⟨level.getD "warn", (format.map LogFormat.ofName).getD .pretty, filter⟩

end LogSettings

end RamlScaffold

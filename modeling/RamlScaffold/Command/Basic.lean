import RamlScaffold.Command.Option
import RamlScaffold.Settings

/-!
The commands: generating projects, looking into a description, and checking what would be generated.
-/

namespace RamlScaffold

structure GenerateCommand where
  specs : List String
  output : String
  overrides : Settings.Overrides
  settingsFile : Option String
  /-- Only list the paths of the files. -/
  dryRun : Bool
deriving DecidableEq, Repr

structure CheckCommand where
  specs : List String
  client : Bool
  settingsFile : Option String
deriving DecidableEq, Repr

inductive Command where
  | generate (command : GenerateCommand)
  | inspect (spec : String)
  | check (command : CheckCommand)
deriving DecidableEq, Repr

namespace Command

inductive Kind where
  | generate
  | inspect
  | check
deriving DecidableEq, Repr

def Kind.ofName? : String → Option Kind
  | "generate" => some .generate
  | "inspect" => some .inspect
  | "check" => some .check
  | _ => none

def helpName : String := "help"

def Kind.rules : Kind → List OptionRule
  | .generate =>
    [.requiredPaths "spec" 's', .requiredPath "output" 'o', .text "app-name", .text "api-version",
      .switch "no-auth", .switch "no-cors", .switch "no-tests", .switch "client", .path "config",
      .switch "dry-run"]
  | .inspect => [.requiredPath "spec" 's']
  | .check => [.requiredPaths "spec" 's', .switch "client", .path "config"]

/-- The command that options give. Options that are missing have been refused before. -/
def ofGiven (given : Given) : Kind → Command
  | .generate => .generate {
      specs := given.values "spec"
      output := (given.value? "output").getD ""
      overrides := {
        appName := given.value? "app-name"
        apiVersion := given.value? "api-version"
        noAuth := given.has "no-auth"
        noCors := given.has "no-cors"
        noTests := given.has "no-tests"
        client := given.has "client" }
      settingsFile := given.value? "config"
      dryRun := given.has "dry-run" }
  | .inspect => .inspect ((given.value? "spec").getD "")
  | .check => .check {
      specs := given.values "spec"
      client := given.has "client"
      settingsFile := given.value? "config" }

def usage : String := Text.joinWith "\n" [
  "RAML to Flask code generator",
  "",
  "Commands:",
  "  generate --spec <FILE>... --output <DIR>  Generate a Flask application for each specification",
  "           [--app-name <NAME>] [--api-version <VERSION>] [--no-auth] [--no-cors] [--no-tests]",
  "           [--client] [--config <FILE>] [--dry-run]",
  "  inspect --spec <FILE>                     Print the resources and groups of a specification",
  "  check --spec <FILE>... [--client] [--config <FILE>]",
  "                                            Generate and validate without writing anything",
  "  help [COMMAND]                            Print this text"]

def UsageFault.message : UsageFault → String
  | .help => usage
  | .helpForNothing => usage
  | .unknownCommand => "error: unrecognized subcommand"
  | .unknownArgument => "error: unexpected argument found"
  | .missingOption => "error: a required argument was not provided"
  | .repeatedOption => "error: an argument cannot be used multiple times"
  | .badValue => "error: a value is required for an argument but none was supplied"
  | .unexpectedValue => "error: unexpected value for an argument that takes none"

def helpOn : List String → UsageFault
  | [] => .help
  | [name] => if (Kind.ofName? name).isSome || name == helpName then .help else .unknownCommand
  | _ => .unknownCommand

/-- The fault of a first argument that names no command, among the others. -/
def strayFault (rest : List String) : List Char → UsageFault
  | ['-', '-'] =>
    match rest with
    | [] => .helpForNothing
    | name :: _ =>
      if (Kind.ofName? name).isSome || name == helpName then .unknownArgument else .unknownCommand
  | '-' :: '-' :: body =>
    match splitAttached body with
    | ("help", none) => .help
    | ("help", some _) => .unexpectedValue
    | _ => .unknownArgument
  | '-' :: c :: _ => if c == 'h' then .help else .unknownArgument
  | _ => .unknownCommand

def ofArguments : List String → Except UsageFault Command
  | [] => .error .helpForNothing
  | name :: rest =>
    match Kind.ofName? name with
    | some kind => (readOptions kind.rules rest).map fun given => ofGiven given kind
    | none =>
      if name == helpName then .error (helpOn rest) else .error (strayFault rest name.toList)

end Command

end RamlScaffold

import RamlScaffold.Text.Basic
import RamlScaffold.Text.Blank
import RamlScaffold.Text.Case

/-!
Column types of the generated tables, and what each stands for in models, schemas, type hints and
sample data.
-/

namespace RamlScaffold

inductive Column where
  | string
  | integer
  | float
  | boolean
  | date
  | dateTime
  | time
  | binary
  | json
deriving DecidableEq, Repr

namespace Column

def all : List Column :=
  [.string, .integer, .float, .boolean, .date, .dateTime, .time, .binary, .json]

def text : Column → String
  | .string => "db.String(255)"
  | .integer => "db.Integer"
  | .float => "db.Float"
  | .boolean => "db.Boolean"
  | .date => "db.Date"
  | .dateTime => "db.DateTime"
  | .time => "db.Time"
  | .binary => "db.LargeBinary"
  | .json => "db.JSON"

def schemaField : Column → String
  | .string => "fields.String"
  | .integer => "fields.Integer"
  | .float => "fields.Float"
  | .boolean => "fields.Boolean"
  | .date => "fields.Date"
  | .dateTime => "fields.DateTime"
  | .time => "fields.Time"
  | .binary => "fields.Raw"
  | .json => "fields.Raw"

def typeHint : Column → String
  | .string => "str"
  | .integer => "int"
  | .float => "float"
  | .boolean => "bool"
  | .date => "str"
  | .dateTime => "str"
  | .time => "str"
  | .binary => "bytes"
  | .json => "Any"

/-- The literal that stands for a value of an attribute in sample data. -/
def sample (attr : String) : Column → String
  | .string => "'sample " ++ attr ++ "'"
  | .integer => "1"
  | .float => "1.5"
  | .boolean => "True"
  | .date => "'2024-01-01'"
  | .dateTime => "'2024-01-01T00:00:00'"
  | .time => "'12:00:00'"
  | .binary => "None"
  | .json => "None"

/-- The column with that expression; a string column for any other text. -/
def ofText (text : String) : Column :=
  (all.find? fun column => column.text == text).getD .string

/-- The column for a declared type. Types that are not known are stored as strings, arrays and
objects as JSON. -/
def ofType (typeName : String) : Column :=
  let name := Text.lowerAscii (Text.trim typeName)
  if Text.endsWith "[]" name then .json
  else
    match name with
    | "integer" => .integer
    | "number" => .float
    | "boolean" => .boolean
    | "date" => .date
    | "date-only" => .date
    | "datetime" => .dateTime
    | "datetime-only" => .dateTime
    | "time-only" => .time
    | "file" => .binary
    | "array" => .json
    | "object" => .json
    | _ => .string

end Column

end RamlScaffold

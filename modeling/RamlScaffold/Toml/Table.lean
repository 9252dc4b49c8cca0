import RamlScaffold.Document.Value
import RamlScaffold.Toml.Scalar

/-!
Tables, and the rules by which the lines of a document fill them: a key is set once, a header opens
a table once, and a table that is written out in one place is not added to from another.
-/

namespace RamlScaffold.Toml

inductive Item where
  | scalar (value : Scalar)
  | list (items : List Item)
  /-- A table that is written as a value. -/
  | inlineTable (fields : List (String × Item))
  /-- A table that lines fill: `implicit` when no header has opened it, `dotted` when a dotted key
  has made it. -/
  | table (implicit dotted : Bool) (fields : List (String × Item))
  /-- Tables that are opened one after the other under one name. -/
  | tables (rows : List (List (String × Item)))
deriving Inhabited, Repr

namespace Item

mutual

def isHeld : Item → Bool
  | .scalar .beyond => false
  | .scalar _ => true
  | .list items => areHeld items
  | .inlineTable fields => fieldsHeld fields
  | .table _ _ fields => fieldsHeld fields
  | .tables rows => rowsHeld rows
termination_by structural item => item

def areHeld : List Item → Bool
  | [] => true
  | item :: rest => item.isHeld && areHeld rest
termination_by structural items => items

def fieldsHeld : List (String × Item) → Bool
  | [] => true
  | (_, item) :: rest => item.isHeld && fieldsHeld rest
termination_by structural fields => fields

def rowsHeld : List (List (String × Item)) → Bool
  | [] => true
  | fields :: rest => fieldsHeld fields && rowsHeld rest
termination_by structural rows => rows

end

end Item

abbrev Table := Fields Item

namespace Table

/-- Sets a dotted key in a table. `dotted` tells of the table, and `viaPath` whether a part of the
key has led to it: the two have to agree. -/
def assign (item : Item) : List String → Bool → Bool → Table → Option Table
  | [], _, _, _ => none
  | [key], dotted, viaPath, t =>
    if dotted != viaPath || (Fields.get? key t).isSome then none else some (t ++ [(key, item)])
  | key :: rest, _, _, t =>
    match Fields.get? key t with
    | none => (assign item rest true true []).map fun inner => t ++ [(key, .table true true inner)]
    | some (.table implicit dotted inner) =>
      if implicit then
        (assign item rest dotted true inner).map fun inner =>
          Fields.put key (.table implicit dotted inner) t
      else none
    | some (.tables rows) =>
      match rows.getLast? with
      | some row =>
        (assign item rest false true row).map fun row =>
          Fields.put key (.tables (rows.dropLast ++ [row])) t
      | none => none
    | some _ => none

/-- Changes the table at the end of a path of headers. Tables that are missing on the way are made;
of tables in a row the last one counts. -/
def change (f : Table → Option Table) : List String → Table → Option Table
  | [], t => f t
  | key :: rest, t =>
    match Fields.get? key t with
    | none => (change f rest []).map fun inner => t ++ [(key, .table true false inner)]
    | some (.table implicit dotted inner) =>
      (change f rest inner).map fun inner => Fields.put key (.table implicit dotted inner) t
    | some (.tables rows) =>
      match rows.getLast? with
      | some row =>
        (change f rest row).map fun row => Fields.put key (.tables (rows.dropLast ++ [row])) t
      | none => none
    | some _ => none

/-- Opens a table in the enclosing one. -/
def openTable (key : String) (t : Table) : Option Table :=
  match Fields.get? key t with
  | none => some (t ++ [(key, .table false false [])])
  | some (.table true false inner) => some (Fields.put key (.table false false inner) t)
  | some _ => none

def openRow (key : String) (t : Table) : Option Table :=
  match Fields.get? key t with
  | none => some (t ++ [(key, .tables [[]])])
  | some (.tables rows) => some (Fields.put key (.tables (rows ++ [[]])) t)
  | some _ => none

end Table

inductive Statement where
  | assign (key : List String) (item : Item)
  | header (path : List String)
  | rowHeader (path : List String)
deriving Repr

/-- A document while it is read: all of it, and the path of the table that lines fill. -/
structure Document where
  root : Table
  path : List String
deriving Repr

/-- The document with one more line; none when the line breaks a rule. -/
def Document.add (d : Document) : Statement → Option Document
  | .assign key item =>
    (Table.change (Table.assign item key false false) d.path d.root).map fun root => { d with root }
  | .header path =>
    match path.getLast? with
    | none => none
    | some key =>
      (Table.change (Table.openTable key) path.dropLast d.root).map fun root => ⟨root, path⟩
  | .rowHeader path =>
    match path.getLast? with
    | none => none
    | some key =>
      (Table.change (Table.openRow key) path.dropLast d.root).map fun root => ⟨root, path⟩

def Table.ofStatements? (statements : List Statement) : Option Table :=
  (statements.foldlM Document.add ⟨[], []⟩).map Document.root

end RamlScaffold.Toml

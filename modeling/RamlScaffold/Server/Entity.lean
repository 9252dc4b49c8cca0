import RamlScaffold.Server.Basic

/-!
The modules of a group that hold its data: model, schemas and data access.
-/

namespace RamlScaffold.Server

open Source

def groupModule (g : Group) : Source :=
  [[.docstring "" g.name.pascal " resource"]]

/-- The default of a column as an argument. -/
def defaultArgument (f : Field) : String :=
  match f.default with
  | some expression => textIf (expression != "") (", default=" ++ expression)
  | none => ""

def usesDateTime (g : Group) : Bool :=
  g.fields.any fun f => Text.startsWith "datetime." (f.default.getD "")

/-- The line with the names of the attributes that an update may change. -/
def updatableLine (g : Group) : Line :=
  let names :=
    (g.fields.filter fun f => !f.primaryKey).flatMap fun f => [.literal f.attr, .code ", "]
  .code "    UPDATABLE_FIELDS = (" :: names ++ [.code ")"]

def modelModule (g : Group) : Source :=
  .join [
    [[.docstring "\n" g.name.pascal " model\n"]],
    when (usesDateTime g)
      ["from datetime import datetime",
       ""],
    ["from app.extensions.db import db",
     "",
     "",
     "def _plain(value):",
     ["    ", .docstring "JSON-friendly form of a column value" "" ""],
     "    if hasattr(value, 'isoformat'):",
     "        return value.isoformat()",
     "    return value",
     "",
     "",
     ["class ", g.name.pascal, "(db.Model):"],
     ["    ", .docstring "" (g.name.raw ++ " entity") ""],
     "",
     ["    __tablename__ = ", .literal g.name.snake],
     ""],
    when (needsKey g) ["    id = db.Column(db.Integer, primary_key=True, autoincrement=True)"],
    each g.fields fun f =>
      [["    ", f.attr, " = db.Column(", f.column.text, textIf f.primaryKey ", primary_key=True",
        textIf (f.required && !f.primaryKey) ", nullable=False", defaultArgument f, ")"]],
    ["",
     updatableLine g,
     "",
     "    def to_dict(self):",
     ["        ", .docstring "Plain dict keyed by the document property names" "" ""],
     "        return \x7b"],
    when (needsKey g) ["            'id': self.id,"],
    each g.fields fun f =>
      [["            ", .literal f.key, ": _plain(self.", f.attr, "),"]],
    ["        \x7d",
     "",
     "    def __repr__(self):",
     ["        return f'<", g.name.pascal, " \x7bself.id\x7d>'"]]]

/-- The arguments of a schema field. Keys that the database assigns and columns with a default are
only written out. -/
def schemaArguments (f : Field) : String :=
  let assigned := (f.primaryKey && f.column == .integer) || f.default.isSome
  let presence :=
    if assigned then "dump_only=True" else if f.required then "required=True" else "allow_none=True"
  presence ++ textIf f.renamed (", data_key=" ++ Code.quote f.key)

def schemaModule (g : Group) : Source :=
  .join [
    [[.docstring "\n" g.name.pascal " serialization schemas\n"],
     "from marshmallow import EXCLUDE, Schema, fields",
     "",
     "",
     ["class ", g.name.pascal, "Schema(Schema):"],
     ["    ", .docstring "" ("Request and response shape of " ++ g.name.raw) ""],
     "",
     "    class Meta:",
     "        unknown = EXCLUDE",
     ""],
    when (needsKey g) ["    id = fields.Integer(dump_only=True)"],
    each g.fields fun f =>
      [["    ", f.attr, " = ", f.column.schemaField, "(", schemaArguments f, ")"]],
    ["",
     "",
     ["class ", g.name.pascal, "ListSchema(Schema):"],
     ["    ", .docstring "Paginated collection of " g.name.pascal " records"],
     "",
     ["    items = fields.List(fields.Nested(", g.name.pascal, "Schema))"],
     "    total = fields.Integer()",
     "    page = fields.Integer()",
     "    per_page = fields.Integer()",
     "    pages = fields.Integer()"]]

/-- Whether records can be narrowed by a column. -/
def filterable (f : Field) : Bool := f.column != .json && f.column != .binary

/-- The lines of a search: a substring of a text column, or nothing to find. -/
def searchLines (g : Group) : Source :=
  match Field.searchField? g.fields with
  | some f =>
    [["        query = select(", g.name.pascal, ").where(", g.name.pascal, ".", f.attr,
      ".ilike('%' + term + '%'))"]]
  | none => [["        query = select(", g.name.pascal, ").where(false())"]]

def serviceModule (g : Group) : Source :=
  .join [
    [[.docstring "\n" g.name.pascal " data access\n"],
     "from sqlalchemy import false, select",
     "from sqlalchemy.exc import SQLAlchemyError",
     "",
     "from app.extensions.db import db",
     ["from app.resources.", g.name.snake, ".model import ", g.name.pascal],
     "",
     "",
     "def _commit():",
     "    try:",
     "        db.session.commit()",
     "    except SQLAlchemyError:",
     "        db.session.rollback()",
     "        raise",
     "",
     "",
     ["class ", g.name.pascal, "Service:"],
     ["    ", .docstring "CRUD operations on " g.name.pascal ""],
     "",
     "    FILTERS = \x7b"],
    each (g.fields.filter filterable) fun f =>
      [["        ", .literal f.key, ": ", g.name.pascal, ".", f.attr, ","]],
    ["    \x7d",
     "",
     "    @staticmethod",
     "    def get_all(page=1, per_page=20, filters=None):",
     ["        ", .docstring "Page through records, narrowed by exact column values" "" ""],
     ["        query = select(", g.name.pascal, ").order_by(", g.name.pascal, ".id)"],
     "        for key, value in (filters or \x7b\x7d).items():",
     ["            column = ", g.name.pascal, "Service.FILTERS.get(key)"],
     "            if column is not None:",
     "                query = query.where(column == value)",
     "        return db.paginate(query, page=page, per_page=per_page, error_out=False)",
     "",
     "    @staticmethod",
     "    def get_by_id(record_id):",
     ["        return db.session.get(", g.name.pascal, ", record_id)"],
     "",
     "    @staticmethod",
     "    def create(data):",
     ["        record = ", g.name.pascal, "(**data)"],
     "        db.session.add(record)",
     "        _commit()",
     "        return record",
     "",
     "    @staticmethod",
     "    def update(record, data):",
     ["        for attr in ", g.name.pascal, ".UPDATABLE_FIELDS:"],
     "            if attr in data:",
     "                setattr(record, attr, data[attr])",
     "        _commit()",
     "        return record"],
    ["",
     "    @staticmethod",
     "    def delete(record):",
     "        db.session.delete(record)",
     "        _commit()",
     "",
     "    @staticmethod",
     "    def search(term, page=1, per_page=20):",
     ["        ", .docstring "Case-insensitive substring search" "" ""]],
    searchLines g,
    [["        return db.paginate(query.order_by(", g.name.pascal,
      ".id), page=page, per_page=per_page, error_out=False)"]]]

end RamlScaffold.Server

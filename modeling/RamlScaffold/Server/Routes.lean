import RamlScaffold.Server.Basic

/-!
The routes of a group: one function for each operation.
-/

namespace RamlScaffold.Server

open Source

/-- The lines that look a record up, or answer that there is none. -/
def lookup (g : Group) (e : Endpoint) : Source :=
  [["    record = ", g.name.pascal, "Service.get_by_id(", e.idArg.getD "None", ")"],
   "    if record is None:",
   "        return jsonify(\x7b'error': 'Not found'\x7d), 404"]

def recordAnswer (g : Group) (op : Operation) : Line :=
  ["    return jsonify(", g.name.snake, "_schema.dump(record)), ", toString op.successStatus]

def updateLines (g : Group) (e : Endpoint) (op : Operation) (parts : String) : Source :=
  .join [
    lookup g e,
    [["    data = ", g.name.snake,
      "_schema.load(request.get_json(silent=True) or \x7b\x7d, partial=", parts, ")"],
     ["    record = ", g.name.pascal, "Service.update(record, data)"],
     recordAnswer g op]]

def emptyAnswer (op : Operation) : Source := [["    return '', ", toString op.successStatus]]

def handler (g : Group) (e : Endpoint) (op : Operation) : Source :=
  match op.verb, op.isItem with
  | .get, true => .join [lookup g e, [recordAnswer g op]]
  | .get, false =>
    ["    page, per_page = pagination_args(request)",
     "    term = request.args.get('q')",
     "    if term:",
     ["        result = ", g.name.pascal, "Service.search(term, page, per_page)"],
     "    else:",
     ["        result = ", g.name.pascal, "Service.get_all(page, per_page, filter_args(request))"],
     ["    return jsonify(", g.name.snake, "_list_schema.dump(_page(result))), ",
      toString op.successStatus]]
  | .post, _ =>
    [["    data = ", g.name.snake, "_schema.load(request.get_json(silent=True) or \x7b\x7d)"],
     ["    record = ", g.name.pascal, "Service.create(data)"],
     recordAnswer g op]
  | .put, true => updateLines g e op "False"
  | .patch, true => updateLines g e op "True"
  | .delete, true =>
    .join [lookup g e, [["    ", g.name.pascal, "Service.delete(record)"]], emptyAnswer op]
  | .head, _ => emptyAnswer op
  | .options, _ => emptyAnswer op
  | _, false => ["    return jsonify(\x7b'error': 'Method not allowed on a collection'\x7d), 405"]

def routeFunction (c : Context) (g : Group) (e : Endpoint) (op : Operation) : Source :=
  .join [
    ["",
     "",
     ["@", g.name.snake, "_bp.route(", .literal e.routePath, ", methods=[",
      .literal op.verb.upper, "])"]],
    when (c.guards op) ["@jwt_required()"],
    [["def ", op.name, "(", e.args, "):"],
     ["    ", .docstring "" (op.summary e.uri) ""]],
    handler g e op]

def routesModule (c : Context) (g : Group) : Source :=
  .join [
    [[.docstring "\n" g.name.pascal " routes\n"],
     "from flask import Blueprint, jsonify, request"],
    when (g.operations.any fun (_, op) => c.guards op)
      ["from flask_jwt_extended import jwt_required"],
    ["",
     ["from app.resources.", g.name.snake, ".schema import ", g.name.pascal, "ListSchema, ",
      g.name.pascal, "Schema"],
     ["from app.resources.", g.name.snake, ".service import ", g.name.pascal, "Service"],
     "from app.utils import filter_args, pagination_args",
     "",
     [g.name.snake, "_bp = Blueprint(", .literal g.name.snake, ", __name__)"],
     [g.name.snake, "_schema = ", g.name.pascal, "Schema()"],
     [g.name.snake, "_list_schema = ", g.name.pascal, "ListSchema()"],
     "",
     "",
     "def _page(result):",
     "    return \x7b",
     "        'items': result.items,",
     "        'total': result.total,",
     "        'page': result.page,",
     "        'per_page': result.per_page,",
     "        'pages': result.pages,",
     "    \x7d"],
    each g.endpoints fun e => each e.operations fun op => routeFunction c g e op]

end RamlScaffold.Server

import RamlScaffold.Proofs.Artifact.References
import RamlScaffold.Proofs.Server.Keys

/-!
Names that generated classes hide from themselves. The body of a class is run line by line, and an
assignment hides a name of the module from the lines behind it. The names that an assignment
evaluates are read off the skeleton of its value. Schemas evaluate `fields`, which no attribute is
called. Models evaluate `db`, and an attribute can have that name: it is hidden from all columns
behind that one.
-/

namespace RamlScaffold

namespace Naming

theorem dropLast_freshAll (seen bases : List String) :
    (freshAll seen bases).dropLast = freshAll seen bases.dropLast := by
  induction bases generalizing seen with
  | nil => rfl
  | cons base rest ih =>
    cases rest with
    | nil => rfl
    | cons next rest =>
      have hnames : freshAll (fresh seen base :: seen) (next :: rest) ≠ [] := List.cons_ne_nil _ _
      rw [freshAll, List.dropLast_cons_of_ne_nil hnames, ih,
        List.dropLast_cons_of_ne_nil (List.cons_ne_nil next rest), freshAll]

/-- Of the names handed out, one that ends in a letter is a base. -/
theorem mem_freshAll_iff {bases : List String} {name : String}
    (hletter : Code.endsInLetter name = true) : name ∈ freshAll [] bases ↔ name ∈ bases := by
  constructor
  · intro hname
    have hbases : ∀ given ∈ freshAll [] bases, given = name → name ∈ bases := by
      apply freshAll_forall
      intro base hbase
      refine ⟨fun hsame => hsame ▸ hbase, fun i hsame => ?_⟩
      have hwords : ∀ word ∈ [name], Code.endsInLetter word = true :=
        List.forall_mem_singleton.mpr hletter
      exact absurd (List.mem_singleton.mpr hsame) (Code.numbered_not_mem hwords base i)
    exact hbases name hname rfl
  · intro hname
    exact (mem_freshAll hname).resolve_left List.not_mem_nil

end Naming

/-- A guard makes no word that ends in a letter. -/
theorem Code.avoid_eq_iff {words : List String} {s target : String}
    (hletter : endsInLetter target = true) (hfree : target ∉ words) :
    avoid words s = target ↔ s = target := by
  have hwords : ∀ word ∈ [target], endsInLetter word = true := List.forall_mem_singleton.mpr hletter
  rcases avoid_cases words s with ⟨-, hkept⟩ | ⟨hmem, hguarded⟩
  · rw [hkept]
  · rw [hguarded]
    constructor
    · intro hsame
      exact absurd (List.mem_singleton.mpr hsame) (guarded_not_mem hwords s)
    · rintro rfl
      exact absurd hmem hfree

namespace Field

theorem attrOf_eq_db (key : String) :
    attrOf key = "db" ↔ Naming.snake (Text.trimTailChar '?' key) = "db" := by
  have hletter : Code.endsInLetter "db" = true := by decide
  have hkeyword : "db" ∉ Code.keywords := by decide
  rw [attrOf, Code.avoid_eq_iff hletter (by decide)]
  generalize Naming.snake (Text.trimTailChar '?' key) = name
  have hfirst (hdb : name = "db") : name.toList.head? = some 'd' := by
    rw [hdb]
    decide
  unfold Code.identifier
  split
  · next hempty =>
    rw [Code.nonKeyword, Code.avoid_eq_iff hletter hkeyword]
    constructor
    · intro hfallback
      exact absurd hfallback (by decide)
    · intro hdb
      rw [hempty] at hfirst
      cases hfirst hdb
  · next c rest hchars =>
    split
    · next hdigit =>
      rw [Code.nonKeyword, Code.avoid_eq_iff hletter hkeyword]
      constructor
      · intro hprefixed
        have hchar := congrArg (fun s => s.toList.head?) hprefixed
        simp at hchar
      · intro hdb
        rw [hchars] at hfirst
        obtain rfl : c = 'd' := by simpa using hfirst hdb
        exact absurd hdigit (by decide)
    · rw [Code.nonKeyword, Code.avoid_eq_iff hletter hkeyword]

theorem db_mem_attrs_dropLast (declarations : List Declaration) :
    "db" ∈ ((ofDeclarations [] declarations).map (·.attr)).dropLast ↔
      ∃ d ∈ declarations.dropLast, Naming.snake (Text.trimTailChar '?' d.key) = "db" := by
  have hletter : Code.endsInLetter "db" = true := by decide
  rw [attrs_ofDeclarations, Naming.dropLast_freshAll, Naming.mem_freshAll_iff hletter,
    ← List.map_dropLast, List.mem_map]
  simp only [attrOf_eq_db]

end Field

namespace Server

open Source

/-- The attribute that a line of a class body assigns, with the names that its value evaluates. What
is indented deeper belongs to a function or an inner class, which do not see the attributes. -/
def assignment? (line : Line) : Option (String × List String) :=
  (assigned? "" line).map fun found => (found.1, Code.evaluated found.2)

def assignments (body : Source) : List (String × List String) := body.filterMap assignment?

/-- An assignment in the body of a class hides a name that a later one evaluates. -/
def Shadows (body : Source) (name : String) : Prop :=
  ∃ earlier later, [earlier, later].Sublist (assignments body) ∧ earlier.1 = name ∧ name ∈ later.2

theorem not_shadows_iff {body : Source} {name : String} :
    ¬ Shadows body name ↔
      (assignments body).Pairwise fun earlier later => earlier.1 = name → name ∉ later.2 := by
  rw [List.pairwise_iff_forall_sublist]
  constructor
  · intro hnone earlier later hpair hname hlater
    exact hnone ⟨earlier, later, hpair, hname, hlater⟩
  · rintro hall ⟨earlier, later, hpair, hname, hlater⟩
    exact hall hpair hname hlater

theorem assignment?_eq_some {line : Line} {name : String} {value : List Char}
    (hname : Code.isIdentifier name = true)
    (hwritten : line.written.toList = "    ".toList ++ (name.toList ++ (" = ".toList ++ value))) :
    assignment? line = some (name, Code.evaluated value) := by
  have hassigned : assigned? "" line = some (name, value) := by
    apply assigned?_eq_some hname
    simpa using hwritten
  rw [assignment?, hassigned, Option.map_some]

theorem assignment?_eq_none {line : Line} {known more : List Char}
    (hwritten : line.written.toList = known ++ more) (hother : isOther "" known = true) :
    assignment? line = none := by
  rw [assignment?, assigned?_eq_none hwritten hother]
  rfl

theorem column_text (column : Column) :
    ∃ kind closing : List Char, column.text.toList = ['d', 'b'] ++ '.' :: (kind ++ closing) ∧
      kind.all Code.isIdentifierChar = true ∧ (closing = [] ∨ closing = "(255)".toList) := by
  by_cases hstring : column = .string
  · rw [hstring]
    exact ⟨"String".toList, "(255)".toList, by decide, by decide, Or.inr rfl⟩
  · refine ⟨column.text.toList.drop 3, [], ?_, ?_, Or.inl rfl⟩
    · cases column <;> decide
    · revert hstring
      cases column <;> decide

theorem evaluated_type (column : Column) {c : Char} (hc : Code.isDivider c = true)
    (rest : List Char) :
    Code.evaluated (column.text.toList ++ c :: rest) = "db" :: Code.evaluated rest := by
  have hname : List.all ['d', 'b'] Code.isIdentifierChar = true := by decide
  have hrefers : Code.isReference false ['d', 'b'] (some '.') = true := by decide
  obtain ⟨kind, closing, htext, hkind, hclosing⟩ := column_text column
  have hsplit : column.text.toList ++ c :: rest =
      ['d', 'b'] ++ '.' :: (kind ++ (closing ++ c :: rest)) := by
    rw [htext]
    simp
  rw [hsplit]
  rcases hclosing with rfl | rfl
  · exact Code.evaluated_dotted hname hrefers hkind hc rest
  · have hdigits : List.all ['2', '5', '5'] Code.isIdentifierChar = true := by decide
    have hnumber : Code.referenceAt false ['2', '5', '5'] (some ')') = [] := by decide
    have hlength := Code.evaluated_word (c := ')') hdigits rfl (c :: rest)
    rw [hnumber, List.nil_append, Code.evaluated_divider hc] at hlength
    have hwhole := Code.evaluated_dotted (c := '(') hname hrefers hkind rfl
      (['2', '5', '5'] ++ ')' :: c :: rest)
    rw [hlength] at hwhole
    exact hwhole

theorem evaluated_call (rest : List Char) :
    Code.evaluated ("db.Column(".toList ++ rest) = "db" :: Code.evaluated rest := by
  have hdotted : Code.evaluated (['d', 'b'] ++ '.' :: ("Column".toList ++ '(' :: rest)) =
      "db" :: Code.evaluated rest :=
    Code.evaluated_dotted (by decide) (by decide) (by decide) (by decide) rest
  exact hdotted

theorem evaluated_column (column : Column) (isKey required : Bool) :
    Code.evaluated ("db.Column(".toList ++ (column.text.toList ++
      (Line.written [textIf isKey ", primary_key=True",
        textIf (required && !isKey) ", nullable=False", ")"]).toList)) = ["db", "db"] := by
  have hmore : ∃ c more, (Line.written [textIf isKey ", primary_key=True",
      textIf (required && !isKey) ", nullable=False", ")"]).toList = c :: more ∧
        Code.isDivider c = true ∧ Code.evaluated more = [] := by
    cases isKey with
    | true => exact ⟨',', " primary_key=True)".toList, by cases required <;> decide, by decide⟩
    | false =>
      cases required with
      | true => exact ⟨',', " nullable=False)".toList, by decide⟩
      | false => exact ⟨')', [], by decide⟩
  obtain ⟨c, more, hwritten, hc, hrest⟩ := hmore
  rw [hwritten, evaluated_call, evaluated_type column hc, hrest]

theorem assignment?_columnLine {f : Field} (hattr : Code.isIdentifier f.attr = true)
    (hdefault : f.default = none) :
    assignment? (columnLine f) = some (f.attr, ["db", "db"]) := by
  have hnone : defaultArgument f = "" := by rw [defaultArgument, hdefault]
  rw [← evaluated_column f.column f.primaryKey f.required]
  apply assignment?_eq_some hattr
  simp [columnLine, Piece.render, hnone]

theorem evaluated_true {name : List Char} (hname : name.all Code.isIdentifierChar = true) {c : Char}
    (hc : Code.isDivider c = true) (rest : List Char) :
    Code.evaluated (name ++ '=' :: ("True".toList ++ c :: rest)) = Code.evaluated rest :=
  Code.evaluated_argument hname (by decide) (by decide) hc rest

theorem assignment?_keyColumn :
    assignment? "    id = db.Column(db.Integer, primary_key=True, autoincrement=True)" =
      some ("id", ["db", "db"]) := by
  have hkey : List.all "primary_key".toList Code.isIdentifierChar = true := by decide
  have hcounts : List.all "autoincrement".toList Code.isIdentifierChar = true := by decide
  have hvalue : Code.evaluated ("db.Column(".toList ++ (Column.integer.text.toList ++
      ',' :: ' ' :: ("primary_key".toList ++ '=' :: ("True".toList ++
        ',' :: ' ' :: ("autoincrement".toList ++ '=' :: ("True".toList ++ [')'])))))) =
      ["db", "db"] := by
    rw [evaluated_call, evaluated_type (c := ',') _ rfl, Code.evaluated_divider (c := ' ') rfl,
      evaluated_true (c := ',') hkey rfl, Code.evaluated_divider (c := ' ') rfl,
      evaluated_true (c := ')') hcounts rfl, Code.evaluated_nil]
  rw [← hvalue]
  apply assignment?_eq_some (by decide)
  simp [Piece.render, Column.text]

theorem schemaField_text (column : Column) :
    ∃ kind : List Char, column.schemaField.toList = "fields".toList ++ '.' :: kind ∧
      kind.all Code.isIdentifierChar = true :=
  ⟨column.schemaField.toList.drop 7, by cases column <;> decide, by cases column <;> decide⟩

theorem schemaArguments_text (f : Field) :
    ∃ name : List Char, name.all Code.isIdentifierChar = true ∧ (schemaArguments f).toList =
      name ++ '=' :: ("True".toList ++
        (textIf f.renamed (", data_key=" ++ Code.quote f.key)).toList) := by
  unfold schemaArguments
  dsimp only
  split_ifs
  · exact ⟨"dump_only".toList, by decide, by simp⟩
  · exact ⟨"required".toList, by decide, by simp⟩
  · exact ⟨"allow_none".toList, by decide, by simp⟩

theorem evaluated_arguments (f : Field) :
    Code.evaluated ((schemaArguments f).toList ++ [')']) = [] := by
  obtain ⟨name, hname, harguments⟩ := schemaArguments_text f
  rw [harguments]
  cases f.renamed with
  | false =>
    have hlast := evaluated_true (c := ')') hname rfl []
    simpa [textIf] using hlast
  | true =>
    have hfirst := evaluated_true (c := ',') hname rfl
      (' ' :: ("data_key".toList ++ '=' :: ((Code.quote f.key).toList ++ [')'])))
    have hkey : List.all "data_key".toList Code.isIdentifierChar = true := by decide
    have hargument : Code.referenceAt false "data_key".toList (some '=') = [] := by
      simp [Code.referenceAt, Code.isReference]
    rw [Code.evaluated_divider (c := ' ') rfl, Code.evaluated_word (c := '=') hkey rfl,
      hargument, List.nil_append, Code.evaluated_quote f.key (by decide),
      Code.evaluated_divider (c := ')') rfl] at hfirst
    simpa [textIf] using hfirst

theorem evaluated_field (column : Column) (rest : List Char) :
    Code.evaluated (column.schemaField.toList ++ '(' :: rest) =
      "fields" :: Code.evaluated rest := by
  obtain ⟨kind, hfield, hkind⟩ := schemaField_text column
  have hrefers : Code.isReference false "fields".toList (some '.') = true := by decide
  have hname : List.all "fields".toList Code.isIdentifierChar = true := by decide
  rw [hfield, List.append_assoc, List.cons_append,
    Code.evaluated_dotted (c := '(') hname hrefers hkind rfl, String.ofList_toList]

theorem assignment?_schemaKey :
    assignment? "    id = fields.Integer(dump_only=True)" = some ("id", ["fields"]) := by
  have hpresence : List.all "dump_only".toList Code.isIdentifierChar = true := by decide
  have hvalue : Code.evaluated (Column.integer.schemaField.toList ++
      '(' :: ("dump_only".toList ++ '=' :: ("True".toList ++ [')']))) = ["fields"] := by
    rw [evaluated_field, evaluated_true (c := ')') hpresence rfl, Code.evaluated_nil]
  rw [← hvalue]
  apply assignment?_eq_some (by decide)
  simp [Piece.render, Column.schemaField]

theorem assignment?_schemaLine {f : Field} (hattr : Code.isIdentifier f.attr = true) :
    assignment? (schemaLine f) = some (f.attr, ["fields"]) := by
  have hvalue := evaluated_field f.column ((schemaArguments f).toList ++ [')'])
  rw [evaluated_arguments] at hvalue
  rw [← hvalue]
  apply assignment?_eq_some hattr
  simp [schemaLine, Piece.render]

theorem assignments_append (first second : Source) :
    assignments (first ++ second) = assignments first ++ assignments second :=
  List.filterMap_append

theorem assignments_eq_nil {lines : Source} (hlines : ∀ line ∈ lines, assignment? line = none) :
    assignments lines = [] :=
  List.filterMap_eq_nil_iff.mpr hlines

theorem assignments_each {fields : List Field} {line : Field → Line} {names : List String}
    (hlines : ∀ f ∈ fields, assignment? (line f) = some (f.attr, names)) :
    assignments (each fields fun f => [line f]) = fields.map fun f => (f.attr, names) := by
  rw [assignments, each_eq_map, List.filterMap_map, ← List.filterMap_eq_map]
  exact List.filterMap_congr hlines

theorem assignments_when {line : Line} {name : String} {names : List String}
    (hline : assignment? line = some (name, names)) (condition : Bool) :
    assignments (when condition [line]) = if condition then [(name, names)] else [] := by
  cases condition with
  | true => exact List.filterMap_cons_some hline
  | false => rfl

theorem assignment?_gap : assignment? [.code ""] = none := by decide

/-- A docstring in the body of a class. -/
theorem assignment?_docstring (text : String) :
    assignment? ["    ", .docstring "" text ""] = none := by
  obtain ⟨body, hbody⟩ := render_docstring "" text ""
  have hwritten : (Line.written ["    ", .docstring "" text ""]).toList =
      [' ', ' ', ' ', ' ', '"'] ++ (body ++ ['"']) := by
    rw [Line.toList_written_cons, Line.toList_written_cons, hbody]
    simp [Piece.render]
  exact assignment?_eq_none hwritten rfl

theorem assignments_schemaFrame (g : Group) : assignments (schemaFrame g) = [] := by
  apply assignments_eq_nil
  rw [schemaFrame]
  simp only [List.forall_mem_cons]
  exact ⟨assignment?_docstring _, assignment?_gap, by decide, by decide, assignment?_gap,
    List.forall_mem_nil _⟩

theorem assignments_schemaModule {g : Group}
    (hattrs : ∀ f ∈ g.fields, Code.isIdentifier f.attr = true) :
    assignments (classLines (schemaModule g)) =
      (if needsKey g then [("id", ["fields"])] else []) ++
        g.fields.map fun f => (f.attr, ["fields"]) := by
  have hgaps : assignments [[.code ""], [.code ""]] = [] := by
    rw [assignments, List.filterMap_cons_none assignment?_gap,
      List.filterMap_cons_none assignment?_gap, List.filterMap_nil]
  rw [classLines_schemaModule, assignments_append, assignments_append, assignments_schemaFrame,
    hgaps, schemaLines, assignments_append, assignments_when assignment?_schemaKey, List.nil_append,
    List.append_nil, assignments_each fun f hf => assignment?_schemaLine (hattrs f hf)]

def modelHead (g : Group) : Source :=
  join [
    [[.docstring "\n" g.name.pascal " model\n"]],
    when (usesDateTime g)
      ["from datetime import datetime",
       ""],
    ["from app.extensions.db import db",
     "",
     "",
     "def _plain(value):",
     ["    ", .docstring "JSON-friendly form of a column value" "" ""],
     "    if hasattr(value, 'isoformat'):",
     "        return value.isoformat()",
     "    return value",
     "",
     ""]]

def modelOpening (g : Group) : Line := ["class ", g.name.pascal, "(db.Model):"]

def modelFrame (g : Group) : Source :=
  [["    ", .docstring "" (g.name.raw ++ " entity") ""],
    "",
    ["    __tablename__ = ", .literal g.name.snake],
    ""]

def modelLines (g : Group) : Source :=
  when (needsKey g) ["    id = db.Column(db.Integer, primary_key=True, autoincrement=True)"] ++
    each g.fields fun f => [columnLine f]

def modelMethods (g : Group) : Source :=
  join [
    ["",
     "    def to_dict(self):",
     ["        ", .docstring "Plain dict keyed by the document property names" "" ""],
     "        return \x7b"],
    when (needsKey g) ["            'id': self.id,"],
    each g.fields fun f => [entryLine f],
    ["        \x7d",
     "",
     "    def __repr__(self):",
     ["        return f'<", g.name.pascal, " \x7bself.id\x7d>'"]]]

def modelRest (g : Group) : Source := [.code ""] :: updatableLine g :: modelMethods g

/-- The last class of a module. -/
theorem classLines_last {before body : Source} {head : Line}
    (hbefore : ∀ line ∈ before, Text.startsWith "class " line.written = false)
    (hhead : Text.startsWith "class " head.written = true)
    (hbody : ∀ line ∈ body, line.written.toList.head?.any (· != ' ') = false) :
    classLines (before ++ head :: body) = body := by
  have hdropped : (before ++ head :: body).dropWhile
      (fun line => !Text.startsWith "class " line.written) = head :: body := by
    rw [List.dropWhile_append_of_pos fun line hline => by simp [hbefore line hline]]
    exact List.dropWhile_cons_of_neg (by simp [hhead])
  rw [classLines, between, hdropped, List.drop_one, List.tail_cons, List.takeWhile_eq_self_iff]
  intro line hline
  rw [hbody line hline, Bool.not_false]

theorem modelModule_eq (g : Group) :
    modelModule g =
      modelHead g ++ modelOpening g :: (modelFrame g ++ modelLines g ++ modelRest g) := by
  simp only [modelModule, modelHead, modelOpening, modelFrame, modelLines, modelRest, modelMethods,
    columnLine, entryLine, join, List.flatten_cons, List.flatten_nil, List.append_nil,
    List.append_assoc, List.cons_append, List.nil_append]

def deeper (cs : List Char) : String := .ofList (' ' :: ' ' :: ' ' :: ' ' :: ' ' :: ' ' :: cs)

/-- The methods of a model have lines of their own, empty ones, and others that are indented deeper
than the attributes. -/
theorem forall_mem_modelMethods {P : Line → Prop} (g : Group) (hgap : P [.code ""])
    (hdict : P "    def to_dict(self):") (hrepr : P "    def __repr__(self):")
    (hdeep : ∀ cs rest, P (.code (deeper cs) :: rest)) :
    ∀ line ∈ modelMethods g, P line := by
  rw [modelMethods]
  simp only [join, List.flatten_cons, List.flatten_nil, List.append_nil, List.forall_mem_append,
    List.forall_mem_cons]
  exact ⟨⟨hgap, hdict, hdeep _ _, hdeep _ _, List.forall_mem_nil _⟩,
    forall_mem_when (List.forall_mem_singleton.mpr (hdeep _ _)) _,
    forall_mem_each fun f => hdeep _ _,
    hdeep _ _, hgap, hrepr, hdeep _ _, List.forall_mem_nil _⟩

theorem classLines_modelModule (g : Group) :
    classLines (modelModule g) = modelFrame g ++ modelLines g ++ modelRest g := by
  rw [modelModule_eq]
  apply classLines_last
  · rw [modelHead]
    simp only [join, List.flatten_cons, List.flatten_nil, List.append_nil, List.forall_mem_append,
      List.forall_mem_singleton]
    refine ⟨?_, forall_mem_when ?_ _, ?_⟩
    · simp [Text.startsWith, Piece.render, List.isPrefixOf]
    · simp [Text.startsWith, Piece.render, List.isPrefixOf]
    · simp [Text.startsWith, Piece.render, List.isPrefixOf]
  · simp [modelOpening, Text.startsWith, Piece.render]
  · rw [List.forall_mem_append, List.forall_mem_append]
    refine ⟨⟨?_, ?_⟩, ?_⟩
    · simp [modelFrame, Piece.render]
    · rw [modelLines, List.forall_mem_append]
      refine ⟨forall_mem_when (List.forall_mem_singleton.mpr (by decide)) _, forall_mem_each ?_⟩
      intro f
      simp [columnLine, Piece.render]
    · rw [modelRest, List.forall_mem_cons, List.forall_mem_cons]
      refine ⟨by decide, ?_, forall_mem_modelMethods g ?_ ?_ ?_ ?_⟩
      · simp [updatableLine, Piece.render]
      · decide
      · decide
      · decide
      · intro cs rest
        simp [Piece.render, deeper]

theorem assignment?_tablename (name : String) :
    assignment? ["    __tablename__ = ", .literal name] = some ("__tablename__", []) := by
  have hquote : Code.evaluated ((Code.quote name).toList ++ []) = [] :=
    Code.evaluated_quote name (by decide)
  rw [← hquote]
  apply assignment?_eq_some (by decide)
  simp [Piece.render]

def attrLiterals (fields : List Field) : Line :=
  fields.flatMap fun f => [.literal f.attr, .code ", "]

theorem evaluated_attrLiterals (fields : List Field) :
    Code.evaluated ((attrLiterals fields).written.toList ++ [')']) = [] := by
  induction fields with
  | nil => exact Code.evaluated_divider (c := ')') rfl []
  | cons f rest ih =>
    have hsplit : (attrLiterals (f :: rest)).written.toList ++ [')'] =
        (Code.quote f.attr).toList ++
          ',' :: ' ' :: ((attrLiterals rest).written.toList ++ [')']) := by
      simp [attrLiterals, Piece.render]
    rw [hsplit, Code.evaluated_quote f.attr (by simp), Code.evaluated_divider (c := ',') rfl,
      Code.evaluated_divider (c := ' ') rfl, ih]

theorem assignment?_updatableLine (g : Group) :
    assignment? (updatableLine g) = some ("UPDATABLE_FIELDS", []) := by
  have hnames := evaluated_attrLiterals (g.fields.filter fun f => !f.primaryKey)
  rw [← hnames, ← Code.evaluated_divider (c := '(') rfl]
  apply assignment?_eq_some (by decide)
  simp [updatableLine, attrLiterals, Piece.render]

theorem not_shadows_schemaModule {g : Group} (hattrs : Code.Scope Field.reserved
    (g.fields.map (·.attr))) (name : String) :
    ¬ Shadows (classLines (schemaModule g)) name := by
  have hidentifiers : ∀ f ∈ g.fields, Code.isIdentifier f.attr = true :=
    fun f hf => (hattrs.bare f.attr (List.mem_map_of_mem hf)).form
  rintro ⟨earlier, later, hpair, rfl, hlater⟩
  rw [assignments_schemaModule hidentifiers] at hpair
  have hmem : ∀ a ∈ [earlier, later], a.2 = ["fields"] ∧ a.1 ≠ "fields" := by
    intro a ha
    rcases List.mem_append.mp (hpair.subset ha) with hown | hfield
    · split at hown
      · rw [List.mem_singleton.mp hown]
        exact ⟨rfl, by decide⟩
      · cases hown
    · obtain ⟨f, hf, rfl⟩ := List.mem_map.mp hfield
      refine ⟨rfl, fun hname : f.attr = "fields" => ?_⟩
      have hfree := (hattrs.bare f.attr (List.mem_map_of_mem hf)).notWord
      rw [hname] at hfree
      exact hfree (by decide)
  rw [List.forall_mem_cons, List.forall_mem_singleton] at hmem
  rw [hmem.2.1, List.mem_singleton] at hlater
  exact hmem.1.2 hlater

theorem pairwise_of_forall_dropLast {α : Type} {P : α → Prop} {items : List α}
    (hitems : ∀ a ∈ items.dropLast, P a) : items.Pairwise fun a _ => P a := by
  induction items with
  | nil => exact .nil
  | cons a rest ih =>
    by_cases hrest : rest = []
    · rw [hrest]
      exact List.pairwise_singleton _ _
    · rw [List.dropLast_cons_of_ne_nil hrest, List.forall_mem_cons] at hitems
      exact List.pairwise_cons.mpr ⟨fun _ _ => hitems.1, ih hitems.2⟩

theorem sublist_of_mem_dropLast {α : Type} {a : α} {items : List α} (ha : a ∈ items.dropLast) :
    ∃ b, [a, b].Sublist items := by
  have hne : items ≠ [] := by
    rintro rfl
    cases ha
  refine ⟨items.getLast hne, ?_⟩
  have hpair := (List.singleton_sublist.mpr ha).append (List.Sublist.refl [items.getLast hne])
  rwa [List.dropLast_append_getLast hne] at hpair

section Model

variable {g : Group} (hattrs : ∀ f ∈ g.fields, Code.isIdentifier f.attr = true)
  (hdefaults : ∀ f ∈ g.fields, f.default = none)

include hattrs hdefaults

theorem assignments_modelModule :
    assignments (classLines (modelModule g)) =
      ("__tablename__", []) :: ((if needsKey g then [("id", ["db", "db"])] else []) ++
        g.fields.map (fun f => (f.attr, ["db", "db"])) ++ [("UPDATABLE_FIELDS", [])]) := by
  have hframe : assignments (modelFrame g) = [("__tablename__", [])] := by
    rw [modelFrame, assignments, List.filterMap_cons_none (assignment?_docstring _),
      List.filterMap_cons_none assignment?_gap, List.filterMap_cons_some (assignment?_tablename _),
      List.filterMap_cons_none assignment?_gap, List.filterMap_nil]
  have hmethods : assignments (modelMethods g) = [] := by
    apply assignments_eq_nil
    apply forall_mem_modelMethods (P := fun line => assignment? line = none) g assignment?_gap
    · decide
    · decide
    · intro cs rest
      have hwritten : (Line.written (.code (deeper cs) :: rest)).toList =
          [' ', ' ', ' ', ' ', ' ', ' '] ++ (cs ++ (Line.written rest).toList) := by
        simp [Piece.render, deeper]
      exact assignment?_eq_none hwritten rfl
  have hrest : assignments (modelRest g) = [("UPDATABLE_FIELDS", [])] := by
    rw [modelRest, assignments, List.filterMap_cons_none assignment?_gap,
      List.filterMap_cons_some (assignment?_updatableLine g)]
    exact congrArg _ hmethods
  have hcolumns := assignments_each fun f hf =>
    assignment?_columnLine (hattrs f hf) (hdefaults f hf)
  rw [classLines_modelModule, assignments_append, assignments_append, hframe, hrest, modelLines,
    assignments_append, assignments_when assignment?_keyColumn, hcolumns, List.cons_append,
    List.nil_append, List.cons_append]

theorem uses_modelModule :
    ∀ a ∈ assignments (classLines (modelModule g)), ∀ name ∈ a.2, name = "db" := by
  rw [assignments_modelModule hattrs hdefaults, List.forall_mem_cons, List.forall_mem_append,
    List.forall_mem_append]
  refine ⟨by simp, ⟨?_, ?_⟩, by simp⟩
  · split <;> simp
  · intro a ha name hname
    obtain ⟨f, -, rfl⟩ := List.mem_map.mp ha
    simpa using hname

/-- Where no column but the last one is called `db`, it is hidden from none. -/
theorem pairwise_modelModule (hnone : ∀ f ∈ g.fields.dropLast, f.attr ≠ "db") :
    (assignments (classLines (modelModule g))).Pairwise fun earlier later =>
      earlier.1 = "db" → "db" ∉ later.2 := by
  rw [assignments_modelModule hattrs hdefaults, List.pairwise_cons, List.pairwise_append,
    List.pairwise_append]
  refine ⟨fun _ _ hname => absurd hname (by decide), ⟨?_, ?_, ?_⟩, List.pairwise_singleton _ _, ?_⟩
  · split
    · exact List.pairwise_singleton _ _
    · exact List.Pairwise.nil
  · rw [List.pairwise_map]
    exact (pairwise_of_forall_dropLast hnone).imp fun hother hname => absurd hname hother
  · intro a ha b _ hname
    split at ha
    · rw [List.mem_singleton.mp ha] at hname
      exact absurd hname (by decide)
    · cases ha
  · intro a _ b hb _
    rw [List.mem_singleton.mp hb]
    exact List.not_mem_nil

theorem shadows_modelModule {name : String} :
    Shadows (classLines (modelModule g)) name ↔
      name = "db" ∧ "db" ∈ (g.fields.map (·.attr)).dropLast := by
  constructor
  · intro hshadows
    have hdb : name = "db" := by
      obtain ⟨earlier, later, hpair, -, hlater⟩ := hshadows
      have hmem : later ∈ [earlier, later] := List.mem_cons_of_mem _ List.mem_cons_self
      exact uses_modelModule hattrs hdefaults later (hpair.subset hmem) name hlater
    refine ⟨hdb, ?_⟩
    by_contra hnone
    refine not_shadows_iff.mpr ?_ hshadows
    subst hdb
    apply pairwise_modelModule hattrs hdefaults
    intro f hf hattr
    apply hnone
    rw [← List.map_dropLast]
    exact List.mem_map.mpr ⟨f, hf, hattr⟩
  · -- The last column comes behind the one called `db`, and evaluates it as all columns do.
    rintro ⟨rfl, hdb⟩
    rw [← List.map_dropLast, List.mem_map] at hdb
    obtain ⟨f, hf, hattr⟩ := hdb
    obtain ⟨last, hpair⟩ := sublist_of_mem_dropLast hf
    refine ⟨(f.attr, ["db", "db"]), (last.attr, ["db", "db"]), ?_, hattr, List.mem_cons_self⟩
    rw [assignments_modelModule hattrs hdefaults]
    apply List.Sublist.cons
    apply List.Sublist.trans _ (List.sublist_append_left _ _)
    exact (hpair.map fun f => (f.attr, ["db", "db"])).trans (List.sublist_append_right _ _)

end Model

/-- Whatever properties are declared or observed, the schema hides no name that it evaluates. The
model hides `db` when a property other than the last one is called so, and nothing else. -/
theorem classes_hide_db_iff (g : Group) (declarations : List Field.Declaration) :
    let entity := { g with fields := Field.ofDeclarations [] declarations }
    (∀ name, ¬ Shadows (classLines (schemaModule entity)) name) ∧
      ∀ name, Shadows (classLines (modelModule entity)) name ↔
        name = "db" ∧
          ∃ d ∈ declarations.dropLast, Naming.snake (Text.trimTailChar '?' d.key) = "db" := by
  intro entity
  have hscope := Field.scope_ofDeclarations declarations
  have hattrs : ∀ f ∈ entity.fields, Code.isIdentifier f.attr = true :=
    fun f hf => (hscope.bare f.attr (List.mem_map_of_mem hf)).form
  have hdefaults : ∀ f ∈ entity.fields, f.default = none := by
    intro f hf
    obtain ⟨d, -, hstored⟩ := Field.mem_ofDeclarations hf
    exact hstored.default
  refine ⟨not_shadows_schemaModule hscope, fun name => ?_⟩
  rw [shadows_modelModule hattrs hdefaults, Field.db_mem_attrs_dropLast]

/-- The column `db` comes before another one, which calls `db.Column`. -/
theorem db_column_hides_db :
    Shadows (classLines (modelModule ⟨GroupName.derive "users", [],
      Field.ofProperties [("db", .text "string"), ("name", .text "string")] [], .declared⟩))
      "db" := by
  apply (shadows_modelModule ?_ ?_).mpr
  · decide
  · decide
  · decide

end Server

end RamlScaffold

import RamlScaffold.Proofs.Artifact.Reading
import RamlScaffold.Proofs.Route.Collision
import RamlScaffold.Proofs.Route.Version
import RamlScaffold.Proofs.Server.PrimaryKey
import RamlScaffold.Server.Entity

/-!
The keys of generated entities, read off the lines of their modules: the columns that a model marks
as primary key, the entries of the dictionary that it writes a record to, and the fields of a schema
with the keys that they give. There is one primary key, and dictionary and schema have the keys of
the entity, which are distinct.
-/

namespace RamlScaffold

namespace Source

/-- The lines after the first one that opens a block, up to one that closes it. -/
def between (opens closes : Line → Bool) (source : Source) : Source :=
  ((source.dropWhile fun line => !opens line).drop 1).takeWhile fun line => !closes line

theorem between_eq {opens closes : Line → Bool} {before body after : Source} {head next : Line}
    (hbefore : ∀ line ∈ before, opens line = false) (hhead : opens head = true)
    (hbody : ∀ line ∈ body, closes line = false) (hnext : closes next = true) :
    between opens closes (before ++ head :: (body ++ next :: after)) = body := by
  have hdropped : (before ++ head :: (body ++ next :: after)).dropWhile (fun line => !opens line) =
      head :: (body ++ next :: after) := by
    rw [List.dropWhile_append_of_pos fun line hline => by simp [hbefore line hline]]
    exact List.dropWhile_cons_of_neg (by simp [hhead])
  rw [between, hdropped, List.drop_one, List.tail_cons,
    List.takeWhile_append_of_pos fun line hline => by simp [hbody line hline]]
  simp [hnext]

theorem forall_mem_when {P : Line → Prop} {lines : Source} (hlines : ∀ line ∈ lines, P line)
    (condition : Bool) : ∀ line ∈ when condition lines, P line := by
  cases condition with
  | true => exact hlines
  | false => exact List.forall_mem_nil _

theorem forall_mem_each {α : Type} {P : Line → Prop} {items : List α} {line : α → Line}
    (hlines : ∀ item, P (line item)) : ∀ l ∈ each items fun item => [line item], P l := by
  intro l hl
  obtain ⟨item, -, hitem⟩ := List.mem_flatMap.mp hl
  rw [List.mem_singleton.mp hitem]
  exact hlines item

theorem each_eq_map {α : Type} (items : List α) (line : α → Line) :
    each items (fun item => [line item]) = items.map line :=
  List.flatMap_pure_eq_map _ _

/-- The attribute to which an indented line assigns a call, and what follows in the call. -/
def assigned? (call : String) (line : Line) : Option (String × List Char) := do
  let text ← Text.dropStart? "    " line.written
  let value ← Text.dropStart? (" = " ++ call)
    (.ofList (text.toList.dropWhile Code.isIdentifierChar))
  return (.ofList (text.toList.takeWhile Code.isIdentifierChar), value.toList)

theorem assigned?_eq_some {line : Line} {name call : String} {rest : List Char}
    (hname : Code.isIdentifier name = true)
    (hwritten : line.written.toList =
      "    ".toList ++ (name.toList ++ ((" = " ++ call).toList ++ rest))) :
    assigned? call line = some (name, rest) := by
  have hchars : ∀ c ∈ name.toList, Code.isIdentifierChar c = true :=
    fun c hc => Code.isIdentifierChar_of_mem hname hc
  have hstop : Code.isIdentifierChar ' ' = false := rfl
  simp [assigned?, Text.dropStart?, Text.startsWith, hwritten, List.dropWhile_append_of_pos hchars,
    List.takeWhile_append_of_pos hchars, hstop]

def isOther (call : String) (known : List Char) : Bool :=
  differ [' ', ' ', ' ', ' '] known ||
    differ (' ' :: '=' :: ' ' :: call.toList) ((known.drop 4).dropWhile Code.isIdentifierChar)

theorem assigned?_eq_none {call : String} {line : Line} {known more : List Char}
    (hwritten : line.written.toList = known ++ more) (hother : isOther call known = true) :
    assigned? call line = none := by
  rw [isOther, Bool.or_eq_true] at hother
  by_cases hindent : [' ', ' ', ' ', ' '] <+: known ++ more
  · have hvalue := hother.resolve_left fun hdiffer => not_prefix_of_differ hdiffer more hindent
    have hword : (known.drop 4).dropWhile Code.isIdentifierChar ≠ [] := by
      intro hnil
      rw [hnil] at hvalue
      cases hvalue
    have hlong : 4 ≤ known.length := by
      by_contra hshort
      exact hword (by rw [List.drop_eq_nil_of_le (by omega), List.dropWhile_nil])
    have hrest : ((known ++ more).drop 4).dropWhile Code.isIdentifierChar =
        (known.drop 4).dropWhile Code.isIdentifierChar ++ more := by
      rw [List.drop_append_of_le_length hlong, List.dropWhile_append, if_neg (by simpa using hword)]
    have hno := not_prefix_of_differ hvalue more
    simp [assigned?, Text.dropStart?, Text.startsWith, hwritten, hindent, hrest, hno]
  · simp [assigned?, Text.dropStart?, Text.startsWith, hwritten, hindent]

end Source

namespace Server

open Source

def entryKey? (line : Line) : Option String := do
  let (key, rest) ← Code.literal? (line.written.toList.dropWhile (· == ' '))
  if rest.head? = some ':' then some key else none

def dictLines (source : Source) : Source :=
  between (fun line => Text.endsWith "return \x7b" line.written)
    (fun line => Text.endsWith "\x7d" line.written) source

/-- The keys of the dictionary that a module returns. All lines of it have to be entries. -/
def dictKeys (source : Source) : Option (List String) := (dictLines source).mapM entryKey?

def marksKey (arguments : List Char) : Bool :=
  ", primary_key=True".toList.isPrefixOf (arguments.dropWhile (· != ','))

def keyColumn? (line : Line) : Option String := do
  let (name, arguments) ← assigned? "db.Column(" line
  if marksKey arguments then some name else none

/-- The key that a field of a schema has in documents: the one it gives, or its attribute. -/
def schemaKey? (line : Line) : Option String := do
  let (name, arguments) ← assigned? "fields." line
  match Text.dropStart? ", data_key=" (.ofList (arguments.dropWhile (· != ','))) with
  | some rest => (Code.literal? rest.toList).map (·.1)
  | none => some name

theorem keyColumn?_of_assigned {line : Line} {name : String} {arguments : List Char}
    (hassigned : assigned? "db.Column(" line = some (name, arguments)) :
    keyColumn? line = if marksKey arguments then some name else none := by
  rw [keyColumn?, hassigned]
  rfl

theorem schemaKey?_of_assigned {line : Line} {name : String} {arguments : List Char}
    (hassigned : assigned? "fields." line = some (name, arguments)) :
    schemaKey? line =
      match Text.dropStart? ", data_key=" (.ofList (arguments.dropWhile (· != ','))) with
      | some rest => (Code.literal? rest.toList).map (·.1)
      | none => some name := by
  rw [schemaKey?, hassigned]
  rfl

def classLines (source : Source) : Source :=
  between (fun line => Text.startsWith "class " line.written)
    (fun line => line.written.toList.head?.any (· != ' ')) source

def schemaKeys (source : Source) : List String := (classLines source).filterMap schemaKey?

variable {spec : Specification} {version : String} {g : Group}

/-- Lines that neither make a column a primary key nor open a dictionary. -/
structure Quiet (line : Line) : Prop where
  noKey : keyColumn? line = none
  noDict : Text.endsWith "return \x7b" line.written = false

theorem endsWith_eq_false {part text : String} {c : Char} (hpart : part.toList.getLast? = some c)
    (hlast : c ∉ text.toList.getLast?) : Text.endsWith part text = false := by
  rw [← Bool.not_eq_true, Text.endsWith, List.isSuffixOf_iff_suffix]
  rintro ⟨before, htext⟩
  rw [← htext, List.getLast?_append, hpart] at hlast
  exact hlast rfl

theorem keyColumn?_eq_none {line : Line} {known more : List Char}
    (hwritten : line.written.toList = known ++ more) (hother : isOther "db.Column(" known = true) :
    keyColumn? line = none := by
  rw [keyColumn?, assigned?_eq_none hwritten hother]
  rfl

theorem quiet_of_ends {line : Line} {known more : List Char} {c : Char}
    (hwritten : line.written.toList = known ++ more) (hother : isOther "db.Column(" known = true)
    (hlast : line.written.toList.getLast? = some c) (hc : c ≠ '\x7b') : Quiet line := by
  have hpart : "return \x7b".toList.getLast? = some '\x7b' := by decide
  refine ⟨keyColumn?_eq_none hwritten hother, endsWith_eq_false hpart ?_⟩
  rw [hlast]
  simpa using hc

theorem quiet_empty : Quiet [.code ""] := ⟨by decide, by decide⟩

/-- A fixed line, given by its characters, so that they are compared one by one. -/
theorem quiet_code {text : String} {cs : List Char} {c : Char} (htext : text = .ofList cs)
    (hother : isOther "db.Column(" cs = true) (hlast : cs.getLast? = some c) (hc : c ≠ '\x7b') :
    Quiet [.code text] := by
  subst htext
  have hwritten : (Line.written [.code (.ofList cs)]).toList = cs ++ [] := by simp [Piece.render]
  apply quiet_of_ends hwritten hother _ hc
  rw [hwritten, List.append_nil]
  exact hlast

/-- A line with a fixed text first and a known character last. -/
theorem quiet_pieces {text : String} {cs : List Char} {rest : Line} {c : Char}
    (htext : text = .ofList cs) (hother : isOther "db.Column(" cs = true)
    (hlast : (Line.written rest).toList.getLast? = some c) (hc : c ≠ '\x7b') :
    Quiet (.code text :: rest) := by
  subst htext
  have hwritten : (Line.written (.code (.ofList cs) :: rest)).toList =
      cs ++ (Line.written rest).toList := by
    simp [Piece.render]
  apply quiet_of_ends hwritten hother _ hc
  rw [hwritten, List.getLast?_append, hlast]
  rfl

theorem render_docstring (before text after : String) :
    ∃ body, (Piece.docstring before text after).render.toList = '"' :: (body ++ ['"']) :=
  ⟨['"', '"'] ++ before.toList ++ (Code.docstring text).toList ++ after.toList ++ ['"', '"'],
    by simp [Piece.render]⟩

theorem render_literal (text : String) :
    ∃ body, (Piece.literal text).render.toList = '\'' :: (body ++ ['\'']) :=
  ⟨text.toList.flatMap Code.quoteChar, by simp [Piece.render, Code.quote]⟩

/-- A fixed text with a literal or docstring behind it. -/
theorem quiet_quoted {text : String} {cs : List Char} {piece : Piece} {q : Char}
    (hpiece : ∃ body, piece.render.toList = q :: (body ++ [q])) (htext : text = .ofList cs)
    (hother : isOther "db.Column(" (cs ++ [q]) = true) (hq : q ≠ '\x7b') :
    Quiet [.code text, piece] := by
  subst htext
  obtain ⟨body, hbody⟩ := hpiece
  have hwritten : (Line.written [.code (.ofList cs), piece]).toList =
      cs ++ [q] ++ (body ++ [q]) := by
    rw [Line.toList_written_cons, Line.toList_written_cons, hbody]
    simp [Piece.render]
  apply quiet_of_ends hwritten hother _ hq
  rw [hwritten, List.getLast?_append, List.getLast?_append]
  rfl

theorem quiet_docstring (before text after : String) : Quiet [.docstring before text after] := by
  have hwritten : Line.written [.docstring before text after] =
      Line.written [.code "", .docstring before text after] := by
    simp [Line.written, Text.concat, Piece.render]
  have hbehind : Quiet [.code "", .docstring before text after] :=
    quiet_quoted (render_docstring before text after) rfl rfl (by decide)
  exact ⟨by rw [keyColumn?, assigned?, hwritten]; exact hbehind.noKey,
    by rw [hwritten]; exact hbehind.noDict⟩

/-- What is read off a module with columns and a dictionary. -/
theorem reads_join {head clock frame own columns middle ownEntry entries tail : Source}
    (hhead : ∀ line ∈ head ++ clock ++ frame, Quiet line)
    (hcolumns : ∀ line ∈ own ++ columns, Text.endsWith "return \x7b" line.written = false)
    (hmiddle : ∀ line ∈ middle.dropLast, Quiet line)
    (hopen : middle.getLast? = some [.code "        return \x7b"])
    (hentries : ∀ line ∈ ownEntry ++ entries, Text.endsWith "\x7d" line.written = false ∧
      keyColumn? line = none)
    (htail : ∀ line ∈ tail, Quiet line) :
    let source := join [head, clock, frame, own, columns, middle, ownEntry, entries,
      [.code "        \x7d"] :: tail]
    dictLines source = ownEntry ++ entries ∧
      source.filterMap keyColumn? = (own ++ columns).filterMap keyColumn? := by
  intro source
  have hsource : source = (head ++ clock ++ frame) ++ (own ++ columns) ++ middle.dropLast ++
      [.code "        return \x7b"] ::
        ((ownEntry ++ entries) ++ [.code "        \x7d"] :: tail) := by
    have hparts := List.dropLast_append_getLast? _ hopen
    simp only [source, join, List.flatten_cons, List.flatten_nil, List.append_nil]
    rw [← hparts]
    simp
  constructor
  · rw [hsource]
    apply between_eq
    · intro line hline
      rcases List.mem_append.mp hline with hline | hline
      · rcases List.mem_append.mp hline with hline | hline
        · exact (hhead line hline).noDict
        · exact hcolumns line hline
      · exact (hmiddle line hline).noDict
    · decide
    · exact fun line hline => (hentries line hline).1
    · decide
  · have hquiet {lines : Source} (hlines : ∀ line ∈ lines, Quiet line) :
        lines.filterMap keyColumn? = [] :=
      List.filterMap_eq_nil_iff.mpr fun line hline => (hlines line hline).noKey
    have hbraces : keyColumn? [.code "        return \x7b"] = none ∧
        keyColumn? [.code "        \x7d"] = none := by decide
    have hdict : ((ownEntry ++ entries) ++ [.code "        \x7d"] :: tail).filterMap keyColumn? =
        [] := by
      rw [List.filterMap_append, List.filterMap_cons_none hbraces.2, hquiet htail, List.append_nil]
      exact List.filterMap_eq_nil_iff.mpr fun line hline => (hentries line hline).2
    rw [hsource, List.filterMap_append, List.filterMap_append, List.filterMap_append, hquiet hhead,
      hquiet hmiddle, List.filterMap_cons_none hbraces.1, hdict]
    simp

theorem mapM_eq_some {f : Line → Option String} {lines : Source} {keys : List String}
    (hlines : lines.map f = keys.map some) : lines.mapM f = some keys := by
  induction lines generalizing keys with
  | nil =>
    obtain rfl : keys = [] := by simpa using hlines.symm
    rfl
  | cons line lines ih =>
    cases keys with
    | nil => cases hlines
    | cons key keys =>
      obtain ⟨hline, hrest⟩ := List.cons.inj hlines
      rw [List.mapM_cons, hline, ih hrest]
      rfl

def entryLine (f : Field) : Line :=
  ["            ", .literal f.key, ": _plain(self.", f.attr, "),"]

theorem entryKey?_entryLine (f : Field) : entryKey? (entryLine f) = some f.key := by
  have hwritten : (entryLine f).written.toList.dropWhile (· == ' ') =
      (Code.quote f.key).toList ++ (Line.written [": _plain(self.", f.attr, "),"]).toList := by
    simp [entryLine, Piece.render, Code.quote]
  rw [entryKey?, hwritten, Code.literal?_quote]
  simp [Piece.render]

theorem defaultArgument_cases (f : Field) :
    defaultArgument f = "" ∨ ∃ expression, defaultArgument f = ", default=" ++ expression := by
  unfold defaultArgument
  split
  · next expression _ =>
    unfold textIf
    split
    · exact Or.inr ⟨expression, rfl⟩
    · exact Or.inl rfl
  · exact Or.inl rfl

def columnLine (f : Field) : Line :=
  ["    ", f.attr, " = db.Column(", f.column.text, textIf f.primaryKey ", primary_key=True",
    textIf (f.required && !f.primaryKey) ", nullable=False", defaultArgument f, ")"]

/-- A column is a primary key when its field is. -/
theorem keyColumn?_columnLine {f : Field} (hattr : Code.isIdentifier f.attr = true) :
    keyColumn? (columnLine f) = if f.primaryKey then some f.attr else none := by
  set more := (Line.written [textIf f.primaryKey ", primary_key=True",
    textIf (f.required && !f.primaryKey) ", nullable=False", defaultArgument f, ")"]).toList
    with hmore
  have hassigned : assigned? "db.Column(" (columnLine f) =
      some (f.attr, f.column.text.toList ++ more) := by
    apply assigned?_eq_some hattr
    simp [hmore, columnLine, Piece.render]
  have htype : ∀ c ∈ f.column.text.toList, (c != ',') = true := by
    have hall : f.column.text.toList.all (· != ',') = true := by
      cases f.column <;> decide
    exact List.all_eq_true.mp hall
  have hmark : marksKey (f.column.text.toList ++ more) = f.primaryKey := by
    rw [marksKey, List.dropWhile_append_of_pos htype, hmore]
    cases f.primaryKey with
    | true => simp [Piece.render, textIf]
    | false =>
      cases f.required with
      | true => simp [Piece.render, textIf, List.isPrefixOf]
      | false =>
        rcases defaultArgument_cases f with hnone | ⟨expression, hsome⟩
        · simp [Piece.render, textIf, hnone]
        · simp [Piece.render, textIf, hsome, List.isPrefixOf]
  rw [keyColumn?_of_assigned hassigned, hmark]

theorem reads_modelModule (g : Group) :
    dictLines (modelModule g) =
        when (needsKey g) ["            'id': self.id,"] ++ each g.fields (fun f => [entryLine f]) ∧
      (modelModule g).filterMap keyColumn? = (when (needsKey g)
          ["    id = db.Column(db.Integer, primary_key=True, autoincrement=True)"] ++
        each g.fields fun f => [columnLine f]).filterMap keyColumn? := by
  apply reads_join
  · rw [List.forall_mem_append, List.forall_mem_append]
    refine ⟨⟨?_, ?_⟩, ?_⟩
    · exact List.forall_mem_singleton.mpr (quiet_docstring _ _ _)
    · apply forall_mem_when
      rw [List.forall_mem_cons, List.forall_mem_singleton]
      exact ⟨quiet_code rfl rfl rfl (by decide), quiet_empty⟩
    · simp only [List.forall_mem_cons]
      exact ⟨quiet_code rfl rfl rfl (by decide), quiet_empty, quiet_empty,
        quiet_code rfl rfl rfl (by decide),
        quiet_quoted (render_docstring _ _ _) rfl rfl (by decide),
        quiet_code rfl rfl rfl (by decide), quiet_code rfl rfl rfl (by decide),
        quiet_code rfl rfl rfl (by decide), quiet_empty, quiet_empty,
        quiet_pieces (c := ':') rfl rfl (by simp [Piece.render]) (by decide),
        quiet_quoted (render_docstring _ _ _) rfl rfl (by decide), quiet_empty,
        quiet_quoted (render_literal _) rfl rfl (by decide),
        quiet_empty, List.forall_mem_nil _⟩
  · have hpart : "return \x7b".toList.getLast? = some '\x7b' := by decide
    rw [List.forall_mem_append]
    refine ⟨forall_mem_when (List.forall_mem_singleton.mpr (by decide)) _, forall_mem_each ?_⟩
    intro f
    apply endsWith_eq_false hpart
    simp [Piece.render, List.getLast?_cons]
  · change ∀ line ∈ [_, _, _, _, _], _
    simp only [List.forall_mem_cons]
    exact ⟨quiet_empty, quiet_pieces (c := ')') rfl rfl (by simp [Piece.render]) (by decide),
      quiet_empty, quiet_code rfl rfl rfl (by decide),
      quiet_quoted (render_docstring _ _ _) rfl rfl (by decide),
      List.forall_mem_nil _⟩
  · rfl
  · have hpart : "\x7d".toList.getLast? = some '\x7d' := by decide
    rw [List.forall_mem_append]
    refine ⟨forall_mem_when (List.forall_mem_singleton.mpr (by decide)) _, forall_mem_each ?_⟩
    intro f
    refine ⟨endsWith_eq_false hpart (by simp [Piece.render, List.getLast?_cons]), ?_⟩
    exact keyColumn?_eq_none (Line.toList_written_cons _ _) rfl
  · simp only [List.forall_mem_cons]
    exact ⟨quiet_empty, quiet_code rfl rfl rfl (by decide),
      quiet_pieces (c := '\'') rfl rfl (by simp [Piece.render]) (by decide), List.forall_mem_nil _⟩

theorem dictKeys_modelModule (g : Group) : dictKeys (modelModule g) = some (entityKeys g) := by
  rw [dictKeys, (reads_modelModule g).1]
  apply mapM_eq_some
  rw [entityKeys, List.map_append, List.map_append]
  congr 1
  · unfold when
    split
    · have hown : entryKey? "            'id': self.id," = some "id" := by decide
      simp [hown]
    · rfl
  · rw [each_eq_map, List.map_map, List.map_map]
    exact List.map_congr_left fun f _ => entryKey?_entryLine f

theorem keyColumns_modelModule (hattrs : ∀ f ∈ g.fields, Code.isIdentifier f.attr = true) :
    (modelModule g).filterMap keyColumn? =
      (if needsKey g then ["id"] else []) ++ (g.fields.filter (·.primaryKey)).map (·.attr) := by
  have hown : keyColumn?
      "    id = db.Column(db.Integer, primary_key=True, autoincrement=True)" = some "id" := by
    have hassigned : assigned? "db.Column("
        "    id = db.Column(db.Integer, primary_key=True, autoincrement=True)" =
        some ("id", "db.Integer, primary_key=True, autoincrement=True)".toList) :=
      assigned?_eq_some (by decide) (by simp [Piece.render])
    rw [keyColumn?_of_assigned hassigned]
    simp [marksKey]
  have hcolumns : (each g.fields fun f => [columnLine f]).filterMap keyColumn? =
      (g.fields.filter (·.primaryKey)).map (·.attr) := by
    rw [each_eq_map, List.filterMap_map, ← List.filterMap_eq_filter, List.map_filterMap]
    apply List.filterMap_congr
    intro f hf
    rw [Function.comp_apply, keyColumn?_columnLine (hattrs f hf)]
    simp [Option.guard]
  rw [(reads_modelModule g).2, List.filterMap_append, hcolumns]
  unfold when
  split
  · simp [hown]
  · rfl

def schemaLine (f : Field) : Line :=
  ["    ", f.attr, " = ", f.column.schemaField, "(", schemaArguments f, ")"]

theorem schemaField_eq (column : Column) :
    ∃ kind : List Char, column.schemaField.toList = "fields.".toList ++ kind ∧
      kind.all (· != ',') = true :=
  ⟨column.schemaField.toList.drop 7, by cases column <;> decide, by cases column <;> decide⟩

theorem schemaArguments_eq (f : Field) :
    ∃ presence : String, presence.toList.all (· != ',') = true ∧
      schemaArguments f = presence ++ textIf f.renamed (", data_key=" ++ Code.quote f.key) := by
  refine ⟨_, ?_, rfl⟩
  split_ifs <;> decide

/-- A field of a schema has the key of its field: it gives it when the attribute is another. -/
theorem schemaKey?_schemaLine {f : Field} (hattr : Code.isIdentifier f.attr = true) :
    schemaKey? (schemaLine f) = some f.key := by
  obtain ⟨kind, hkind, hkindPlain⟩ := schemaField_eq f.column
  obtain ⟨presence, hpresencePlain, harguments⟩ := schemaArguments_eq f
  set more := (textIf f.renamed (", data_key=" ++ Code.quote f.key)).toList ++ [')'] with hmore
  have hassigned : assigned? "fields." (schemaLine f) =
      some (f.attr, (kind ++ '(' :: presence.toList) ++ more) := by
    apply assigned?_eq_some hattr
    simp [hmore, schemaLine, Piece.render, hkind, harguments]
  have hplain : ∀ c ∈ kind ++ '(' :: presence.toList, (c != ',') = true := by
    rw [← List.all_eq_true, List.all_append, List.all_cons, hkindPlain, hpresencePlain]
    rfl
  rw [schemaKey?_of_assigned hassigned, List.dropWhile_append_of_pos hplain, hmore]
  cases hrenamed : f.renamed with
  | true =>
    have hread := Code.literal?_quote f.key [')']
    simp [textIf, Text.dropStart?, Text.startsWith, hread]
  | false =>
    have hsame : f.key = f.attr := by simpa [Field.renamed] using hrenamed
    simp [textIf, Text.dropStart?, Text.startsWith, hsame]

theorem schemaKey?_eq_none {line : Line} {known more : List Char}
    (hwritten : line.written.toList = known ++ more) (hother : isOther "fields." known = true) :
    schemaKey? line = none := by
  rw [schemaKey?, assigned?_eq_none hwritten hother]
  rfl

def schemaFrame (g : Group) : Source :=
  [["    ", .docstring "" ("Request and response shape of " ++ g.name.raw) ""],
    "",
    "    class Meta:",
    "        unknown = EXCLUDE",
    ""]

def schemaLines (g : Group) : Source :=
  when (needsKey g) ["    id = fields.Integer(dump_only=True)"] ++
    each g.fields fun f => [schemaLine f]

/-- The first class of a module whose lines are given in parts. -/
theorem classLines_join {title imports gap gap' head last last' next : Line}
    {frame own fields tail : Source}
    (hbefore : ∀ line ∈ [title, imports, gap, gap'], Text.startsWith "class " line.written = false)
    (hhead : Text.startsWith "class " head.written = true)
    (hbody : ∀ line ∈ frame ++ (own ++ fields) ++ [last, last'],
      line.written.toList.head?.any (· != ' ') = false)
    (hnext : next.written.toList.head?.any (· != ' ') = true) :
    classLines (join [title :: imports :: gap :: gap' :: head :: frame, own, fields,
      last :: last' :: next :: tail]) = frame ++ (own ++ fields) ++ [last, last'] := by
  have hsource : join [title :: imports :: gap :: gap' :: head :: frame, own, fields,
      last :: last' :: next :: tail] = [title, imports, gap, gap'] ++
        head :: ((frame ++ (own ++ fields) ++ [last, last']) ++ next :: tail) := by
    simp [join]
  rw [hsource, classLines, between_eq hbefore hhead hbody hnext]

theorem classLines_schemaModule (g : Group) :
    classLines (schemaModule g) = schemaFrame g ++ schemaLines g ++ [[.code ""], [.code ""]] := by
  apply classLines_join
  · simp only [List.forall_mem_cons]
    refine ⟨?_, by decide, by decide, by decide, List.forall_mem_nil _⟩
    simp [Text.startsWith, Piece.render, List.isPrefixOf]
  · simp [Text.startsWith, Piece.render]
  · simp only [List.forall_mem_append, List.forall_mem_cons]
    refine ⟨⟨⟨?_, by decide, by decide, by decide, by decide, List.forall_mem_nil _⟩,
      forall_mem_when (List.forall_mem_singleton.mpr (by decide)) _, forall_mem_each ?_⟩,
      by decide, by decide, List.forall_mem_nil _⟩
    · simp [Piece.render]
    · intro f
      simp [Piece.render]
  · simp [Piece.render]

theorem schemaKeys_schemaFrame (g : Group) : (schemaFrame g).filterMap schemaKey? = [] := by
  rw [List.filterMap_eq_nil_iff, schemaFrame]
  simp only [List.forall_mem_cons]
  refine ⟨?_, by decide, by decide, by decide, by decide, List.forall_mem_nil _⟩
  obtain ⟨body, hbody⟩ := render_docstring "" ("Request and response shape of " ++ g.name.raw) ""
  have hwritten : (Line.written ["    ", .docstring "" ("Request and response shape of " ++
      g.name.raw) ""]).toList = [' ', ' ', ' ', ' ', '"'] ++ (body ++ ['"']) := by
    rw [Line.toList_written_cons, Line.toList_written_cons, hbody]
    simp [Piece.render]
  exact schemaKey?_eq_none hwritten rfl

theorem schemaKeys_schemaLines (hattrs : ∀ f ∈ g.fields, Code.isIdentifier f.attr = true) :
    (schemaLines g).filterMap schemaKey? = entityKeys g := by
  rw [schemaLines, List.filterMap_append, entityKeys]
  congr 1
  · unfold when
    split
    · decide
    · rfl
  · have hkeys : ∀ f ∈ g.fields, schemaKey? (schemaLine f) = some f.key :=
      fun f hf => schemaKey?_schemaLine (hattrs f hf)
    rw [each_eq_map, List.filterMap_map, ← List.filterMap_eq_map]
    exact List.filterMap_congr hkeys

theorem schemaKeys_schemaModule (hattrs : ∀ f ∈ g.fields, Code.isIdentifier f.attr = true) :
    schemaKeys (schemaModule g) = entityKeys g := by
  have hgap : schemaKey? [.code ""] = none := by decide
  rw [schemaKeys, classLines_schemaModule, List.filterMap_append, List.filterMap_append,
    schemaKeys_schemaFrame, schemaKeys_schemaLines hattrs, List.filterMap_cons_none hgap,
    List.filterMap_cons_none hgap, List.filterMap_nil, List.append_nil, List.nil_append]

/-- An entity has one primary key and unambiguous keys. -/
structure Keyed (g : Group) : Prop where
  primary : (needsKey g = true ∧ g.fields.countP (·.primaryKey) = 0) ∨
    (needsKey g = false ∧ g.fields.countP (·.primaryKey) = 1)
  column : (modelModule g).filterMap keyColumn? = ["id"]
  dict : dictKeys (modelModule g) = some (entityKeys g)
  schema : schemaKeys (schemaModule g) = entityKeys g
  distinct : (entityKeys g).Nodup

theorem isIdentifier_attrs (hg : g ∈ Group.ofSpecification spec version) :
    ∀ f ∈ g.fields, Code.isIdentifier f.attr = true := fun _ hf =>
  ((Group.wellNamed_of_mem hg).attrs.bare _ (List.mem_map_of_mem hf)).form

theorem keyColumns_eq (hg : g ∈ Group.ofSpecification spec version) :
    (modelModule g).filterMap keyColumn? = ["id"] := by
  have hmarked : (g.fields.filter (·.primaryKey)).map (·.attr) =
      List.replicate (g.fields.countP (·.primaryKey)) "id" := by
    rw [List.eq_replicate_iff, List.length_map, List.countP_eq_length_filter]
    refine ⟨rfl, fun attr hattr => ?_⟩
    obtain ⟨f, hf, rfl⟩ := List.mem_map.mp hattr
    simpa [Field.primaryKey] using (List.mem_filter.mp hf).2
  rw [keyColumns_modelModule (isIdentifier_attrs hg), hmarked]
  rcases countP_primaryKey hg with ⟨hneeds, hcount⟩ | ⟨hneeds, hcount⟩
  · rw [hneeds, hcount]
    rfl
  · rw [hneeds, hcount]
    rfl

/-- Every group of a description is keyed, when no declared type has a property twice. -/
theorem entities_keyed (hg : g ∈ Group.ofSpecification spec version)
    (hkeys : ∀ t ∈ spec.types, (Fields.keys t.properties).Nodup) : Keyed g :=
  ⟨countP_primaryKey hg, keyColumns_eq hg, dictKeys_modelModule g,
    schemaKeys_schemaModule (isIdentifier_attrs hg), nodup_entityKeys hg hkeys⟩

/-- Three keys ask for the attribute `id` in one group, and none does in the other. -/
theorem entities_keyed_clash :
    let spec := { Group.bareSpecification ["/users", "/tags"] with
      types := [⟨"users", "object", [("ID", .text "integer"), ("id", .text "string"),
        ("id?", .text "string")], ["id"], "", .map []⟩,
        ⟨"tags", "object", [("label", .text "string"), ("i-d", .text "string")], [], "", .map []⟩] }
    ∃ users tags, Group.ofSpecification spec "v1" = [users, tags] ∧ Keyed users ∧ Keyed tags ∧
      (entityKeys users, users.fields.map (·.attr)) =
        (["ID", "id", "id?"], ["id", "id_1", "id_2"]) ∧
      (entityKeys tags, tags.fields.map (·.attr)) = (["id", "label", "i-d"], ["label", "i_d"]) := by
  intro spec
  have hkeys : ∀ t ∈ spec.types, (Fields.keys t.properties).Nodup := by decide
  have hread : (Group.ofSpecification spec "v1").map
      (fun g => (entityKeys g, g.fields.map (·.attr))) =
        [(["ID", "id", "id?"], ["id", "id_1", "id_2"]),
          (["id", "label", "i-d"], ["label", "i_d"])] := by
    decide
  obtain ⟨users, tags, hgroups⟩ : ∃ users tags, Group.ofSpecification spec "v1" = [users, tags] :=
    List.length_eq_two.mp (by decide)
  have husers : users ∈ Group.ofSpecification spec "v1" := by simp [hgroups]
  have htags : tags ∈ Group.ofSpecification spec "v1" := by simp [hgroups]
  rw [hgroups] at hread
  obtain ⟨hfirst, hsecond⟩ := List.cons.inj hread
  exact ⟨users, tags, hgroups, entities_keyed husers hkeys, entities_keyed htags hkeys, hfirst,
    (List.cons.inj hsecond).1⟩

end Server

end RamlScaffold

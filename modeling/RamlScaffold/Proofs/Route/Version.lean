import Mathlib.Data.List.Forall2
import RamlScaffold.Client.Files
import RamlScaffold.Proofs.Code.Emitted
import RamlScaffold.Server.Files

/-!
A server and a client for one description offer the same operations. The groups are formed once for
the version of the server and once for no version; the version is dropped from two paths of each
endpoint and decides nothing else, in particular no name. The functions that routes, client methods
and both kinds of test define are then read off the generated sources.
-/

namespace RamlScaffold

/-- The endpoint without the two paths that are written below the version. -/
def Endpoint.unversioned (e : Endpoint) : Endpoint := { e with routePath := "", testPath := "" }

def Group.unversioned (g : Group) : Group :=
  { g with endpoints := g.endpoints.map Endpoint.unversioned }

/-- The names handed out to one endpoint do not depend on the version, so neither do those that the
next endpoint has to avoid. -/
theorem Endpoint.ofResources_unversioned (group : GroupName) (v w : String) (seen : List String)
    (resources : List Resource) :
    (ofResources group v seen resources).map unversioned =
      (ofResources group w seen resources).map unversioned := by
  induction resources generalizing seen with
  | nil => rfl
  | cons r rest ih =>
    simp only [ofResources, List.map_cons, unversioned, ofResource, ih]

theorem Group.ofSpecification_unversioned (spec : Specification) (v w : String) :
    (ofSpecification spec v).map unversioned = (ofSpecification spec w).map unversioned := by
  simp only [ofSpecification, List.map_map]
  apply List.map_congr_left
  rintro ⟨name, resources⟩ -
  simp only [Function.comp_apply, unversioned,
    Endpoint.ofResources_unversioned name v w [] resources]

def Group.operationNames (g : Group) : List String := g.operations.map (·.2.name)

theorem Group.operationNames_unversioned (g : Group) :
    g.unversioned.operationNames = g.operationNames := by
  simp [operationNames, operations, unversioned, Endpoint.unversioned, List.flatMap_map,
    List.map_flatMap, Function.comp_def]

/-- Groups that agree up to the version have the same names. -/
theorem Group.forall₂_names {gs hs : List Group}
    (hsame : gs.map unversioned = hs.map unversioned) :
    List.Forall₂ (fun g h => g.name = h.name ∧ g.operationNames = h.operationNames) gs hs := by
  have hpairs : List.Forall₂ (· = ·) (gs.map unversioned) (hs.map unversioned) := by
    rw [List.forall₂_eq_eq_eq]
    exact hsame
  rw [List.forall₂_map_left_iff, List.forall₂_map_right_iff] at hpairs
  apply hpairs.imp
  intro g h hequal
  have hname : g.unversioned.name = h.unversioned.name := congrArg Group.name hequal
  refine ⟨hname, ?_⟩
  rw [← operationNames_unversioned g, hequal, operationNames_unversioned h]

namespace Source

/-- The name that a line defines when it starts with `head`: what follows, up to a parenthesis. -/
def definedName? (head : String) (line : Line) : Option String :=
  (Text.dropStart? head (Text.concat (line.map Piece.render))).map fun rest =>
    .ofList (rest.toList.takeWhile (· != '('))

def definedNames (head : String) (source : Source) : List String :=
  source.filterMap (definedName? head)

theorem definedNames_append (head : String) (first second : Source) :
    definedNames head (first ++ second) = definedNames head first ++ definedNames head second :=
  List.filterMap_append

theorem definedNames_join (head : String) (parts : List Source) :
    definedNames head (join parts) = parts.flatMap (definedNames head) := by
  induction parts with
  | nil => rfl
  | cons part rest ih =>
    rw [List.flatMap_cons, ← ih, ← definedNames_append]
    rfl

theorem definedNames_each {α : Type} (head : String) (items : List α) (lines : α → Source) :
    definedNames head (each items lines) = items.flatMap fun a => definedNames head (lines a) := by
  induction items with
  | nil => rfl
  | cons a rest ih =>
    rw [List.flatMap_cons, ← ih, ← definedNames_append]
    rfl

theorem definedNames_cons_none {head : String} {line : Line} (hline : definedName? head line = none)
    (rest : Source) : definedNames head (line :: rest) = definedNames head rest :=
  List.filterMap_cons_none hline

theorem definedNames_cons_some {head name : String} {line : Line}
    (hline : definedName? head line = some name) (rest : Source) :
    definedNames head (line :: rest) = name :: definedNames head rest :=
  List.filterMap_cons_some hline

theorem definedNames_when {head : String} {lines : Source} (hnone : definedNames head lines = [])
    (condition : Bool) : definedNames head (when condition lines) = [] := by
  cases condition with
  | true => exact hnone
  | false => rfl

def differ : List Char → List Char → Bool
  | a :: as, b :: bs => a != b || differ as bs
  | _, _ => false

theorem not_prefix_of_differ {as bs : List Char} (hdiffer : differ as bs = true)
    (rest : List Char) : ¬ as <+: bs ++ rest := by
  induction as generalizing bs with
  | nil => simp [differ] at hdiffer
  | cons a as ih =>
    cases bs with
    | nil => simp [differ] at hdiffer
    | cons b bs =>
      rw [List.cons_append, List.cons_prefix_cons]
      rintro ⟨rfl, hlater⟩
      exact ih (by simpa [differ] using hdiffer) hlater

/-- A line defines nothing when its text soon differs from `head`. The texts are given by their
characters, so that two fixed texts are compared character by character. -/
theorem definedName?_of_differ {head : String} {line : Line} {hs cs : List Char}
    (rest : List Char) (hhead : head = .ofList hs) (hdiffer : differ hs cs = true)
    (htext : (Text.concat (line.map Piece.render)).toList = cs ++ rest) :
    definedName? head line = none := by
  subst hhead
  have hno := not_prefix_of_differ hdiffer rest
  simp [definedName?, Text.dropStart?, Text.startsWith, htext, hno]

theorem definedName?_code {head text : String} {hs cs : List Char} (hhead : head = .ofList hs)
    (htext : text = .ofList cs) (hdiffer : differ hs cs = true) (rest : Line) :
    definedName? head (.code text :: rest) = none := by
  subst htext
  apply definedName?_of_differ (Text.concat (rest.map Piece.render)).toList hhead hdiffer
  simp [Text.concat, Piece.render]

theorem definedName?_empty {head : String} {c : Char} {hs : List Char}
    (hhead : head = .ofList (c :: hs)) : definedName? head [.code ""] = none := by
  subst hhead
  simp [definedName?, Text.dropStart?, Text.startsWith, Text.concat, Piece.render]

theorem definedName?_docstring {head : String} {hs : List Char} (hhead : head = .ofList hs)
    (hdiffer : differ hs ['"'] = true) (before text after : String) :
    definedName? head [.docstring before text after] = none := by
  apply definedName?_of_differ _ hhead hdiffer
  simp [Text.concat, Piece.render]
  rfl

/-- A docstring behind an indentation defines nothing either: `head` goes on with a letter. -/
theorem definedName?_indented {head indent : String} {hs cs : List Char}
    (hhead : head = .ofList hs) (hindent : indent = .ofList cs)
    (hdiffer : differ hs (cs ++ ['"']) = true) (before text after : String) :
    definedName? head [.code indent, .docstring before text after] = none := by
  subst hindent
  apply definedName?_of_differ _ hhead hdiffer
  simp [Text.concat, Piece.render]
  rfl

/-- A line that starts with a name of several words is no definition: the word of a definition ends
in a space, and here an underscore comes first. -/
theorem definedName?_name {name text : String} {cs : List Char} (hname : ' ' ∉ name.toList)
    (htext : text = .ofList ('_' :: cs)) (rest : Line) :
    definedName? "def " (.code name :: .code text :: rest) = none := by
  subst htext
  have hno (tail : List Char) : ¬ ['d', 'e', 'f', ' '] <+: name.toList ++ '_' :: tail := by
    match hchars : name.toList with
    | [] => simp
    | [_] => simp
    | [_, _] => simp
    | [_, _, _] => simp
    | _ :: _ :: _ :: d :: _ =>
      have hd : d ∈ name.toList := by simp [hchars]
      have hspace : ¬ ' ' = d := fun h => hname (h ▸ hd)
      simp [hspace]
  simp [definedName?, Text.dropStart?, Text.startsWith, Text.concat, Piece.render, hno]

/-- A definition names what stands between its head and the parenthesis. -/
theorem definedName?_eq_some {head name opening : String} {cs : List Char}
    (hname : '(' ∉ name.toList) (hopening : opening = .ofList ('(' :: cs)) (rest : Line) :
    definedName? head (.code head :: .code name :: .code opening :: rest) = some name := by
  subst hopening
  have hstop : ∀ c ∈ name.toList, (c != '(') = true := by
    intro c hc
    rw [bne_iff_ne]
    exact fun hparen => hname (hparen ▸ hc)
  simp [definedName?, Text.dropStart?, Text.startsWith, Text.concat, Piece.render,
    List.takeWhile_append_of_pos hstop]

end Source

open Source

/-- Names of operations are identifiers, so no parenthesis ends them early. -/
theorem Group.WellNamed.not_mem_operation {g : Group} (hg : g.WellNamed) {e : Endpoint}
    {op : Operation} (he : e ∈ g.endpoints) (hop : op ∈ e.operations) : '(' ∉ op.name.toList := by
  intro hparen
  have hchar := Code.isIdentifierChar_of_mem (hg.bare_operation he hop).form hparen
  exact absurd hchar (by decide)

/-- A source that has one definition for each operation defines the operations of the group. -/
theorem definedNames_operations {head : String} {g : Group} (hg : g.WellNamed)
    {lines : Endpoint → Operation → Source}
    (hlines : ∀ e op, '(' ∉ op.name.toList → definedNames head (lines e op) = [op.name]) :
    definedNames head (each g.endpoints fun e => each e.operations fun op => lines e op) =
      g.operationNames := by
  rw [definedNames_each, Group.operationNames, Group.operations, List.map_flatMap]
  apply List.flatMap_congr
  intro e he
  rw [definedNames_each, List.map_map, List.map_eq_flatMap]
  apply List.flatMap_congr
  intro op hop
  exact hlines e op (hg.not_mem_operation he hop)

namespace Server

/-- The body of a route is indented and defines no function of the module. -/
theorem definedNames_handler (g : Group) (e : Endpoint) (op : Operation) :
    definedNames "def " (handler g e op) = [] := by
  obtain ⟨name, verb, description, isItem, secured, status⟩ := op
  cases verb <;> cases isItem
  all_goals
    repeat refine (definedNames_cons_none (definedName?_code rfl rfl rfl _) _).trans ?_
    rfl

theorem definedNames_routeFunction (c : Context) (g : Group) (e : Endpoint) {op : Operation}
    (hname : '(' ∉ op.name.toList) :
    definedNames "def " (routeFunction c g e op) = [op.name] := by
  have hguard : definedNames "def " (when (c.guards op) ["@jwt_required()"]) = [] :=
    definedNames_when (definedNames_cons_none (definedName?_code rfl rfl rfl _) _) _
  simp only [routeFunction, definedNames_join, List.flatMap_cons, List.flatMap_nil, hguard,
    definedNames_handler, List.nil_append, List.append_nil]
  rw [definedNames_cons_none (definedName?_empty rfl),
    definedNames_cons_none (definedName?_empty rfl),
    definedNames_cons_none (definedName?_code rfl rfl rfl _),
    definedNames_cons_some (definedName?_eq_some hname rfl _),
    definedNames_cons_none (definedName?_indented rfl rfl rfl _ _ _)]
  rfl

/-- A module of routes defines one helper and then the operations of its group. -/
theorem definedNames_routesModule (c : Context) {g : Group} (hg : g.WellNamed) :
    definedNames "def " (routesModule c g) = "_page" :: g.operationNames := by
  have hsnake : ' ' ∉ g.name.snake.toList := by
    intro hspace
    exact absurd (Code.isIdentifierChar_of_mem hg.snake.form hspace) (by decide)
  have hroutes := definedNames_operations hg fun e op => definedNames_routeFunction c g e
  have hpage : definedName? "def " [.code "def _page(result):"] = some "_page" := by
    simp [definedName?, Text.dropStart?, Text.startsWith, Text.concat, Piece.render]
  have hguard (condition : Bool) : definedNames "def "
      (when condition ["from flask_jwt_extended import jwt_required"]) = [] :=
    definedNames_when (definedNames_cons_none (definedName?_code rfl rfl rfl _) _) _
  simp only [routesModule, definedNames_join, List.flatMap_cons, List.flatMap_nil, hguard, hroutes,
    List.append_nil]
  rw [definedNames_cons_none (definedName?_docstring rfl rfl _ _ _)]
  repeat first
    | rw [definedNames_cons_none (definedName?_code rfl rfl rfl _)]
    | rw [definedNames_cons_none (definedName?_empty rfl)]
    | rw [definedNames_cons_none (definedName?_name hsnake rfl _)]
    | rw [definedNames_cons_some hpage]
  rfl

/-- A module of server tests defines a sample and then one test for each operation. -/
theorem definedNames_groupTests (c : Context) {g : Group} (hg : g.WellNamed) :
    definedNames "def test_" (groupTests c g) = g.operationNames := by
  simp only [groupTests, definedNames_join, List.flatMap_cons, List.flatMap_nil, List.append_nil]
  rw [definedNames_operations hg, definedNames_cons_none (definedName?_docstring rfl rfl _ _ _)]
  · repeat first
      | rw [definedNames_cons_none (definedName?_code rfl rfl rfl _)]
      | rw [definedNames_cons_none (definedName?_empty rfl)]
    rfl
  · intro e op hname
    rw [definedNames_cons_none (definedName?_empty rfl),
      definedNames_cons_none (definedName?_empty rfl),
      definedNames_cons_some (definedName?_eq_some hname rfl _),
      definedNames_cons_none (definedName?_code rfl rfl rfl _),
      definedNames_cons_none (definedName?_code rfl rfl rfl _),
      definedNames_cons_none (definedName?_code rfl rfl rfl _)]
    rfl

end Server

namespace Client

/-- The client of a group has a constructor and then one method for each operation. -/
theorem definedNames_groupClient {g : Group} (hg : g.WellNamed) :
    definedNames "    def " (groupClient g) = "__init__" :: g.operationNames := by
  have hinit : definedName? "    def " [.code "    def __init__(self, base):"] =
      some "__init__" := by
    simp [definedName?, Text.dropStart?, Text.startsWith, Text.concat, Piece.render]
  simp only [groupClient, definedNames_join, List.flatMap_cons, List.flatMap_nil, List.append_nil]
  rw [definedNames_operations hg, definedNames_cons_none (definedName?_docstring rfl rfl _ _ _)]
  · repeat first
      | rw [definedNames_cons_none (definedName?_code rfl rfl rfl _)]
      | rw [definedNames_cons_none (definedName?_empty rfl)]
      | rw [definedNames_cons_none (definedName?_indented rfl rfl rfl _ _ _)]
      | rw [definedNames_cons_some hinit]
    rfl
  · intro e op hname
    rw [definedNames_cons_none (definedName?_empty rfl),
      definedNames_cons_some (definedName?_eq_some hname rfl _),
      definedNames_cons_none (definedName?_code rfl rfl rfl _),
      definedNames_cons_none (definedName?_code rfl rfl rfl _)]
    rfl

/-- A module of client tests defines one test for each operation. -/
theorem definedNames_groupTests {g : Group} (hg : g.WellNamed) :
    definedNames "def test_" (groupTests g) = g.operationNames := by
  simp only [groupTests, definedNames_join, List.flatMap_cons, List.flatMap_nil, List.append_nil]
  rw [definedNames_operations hg, definedNames_cons_none (definedName?_docstring rfl rfl _ _ _)]
  · rfl
  · intro e op hname
    rw [definedNames_cons_none (definedName?_empty rfl),
      definedNames_cons_none (definedName?_empty rfl),
      definedNames_cons_some (definedName?_eq_some hname rfl _)]
    repeat rw [definedNames_cons_none (definedName?_code rfl rfl rfl _)]
    rfl

end Client

/-- For every two versions the groups agree on all but the route and the test path of their
endpoints. A server and a client therefore have the same groups in the same order, and the routes
of a group and their tests on the one side are named as its methods and their tests on the other,
whatever the settings are. -/
theorem operations_shared (spec : Specification) :
    (∀ v w, (Group.ofSpecification spec v).map Group.unversioned =
      (Group.ofSpecification spec w).map Group.unversioned) ∧
    ∀ (serverSettings : ServerSettings) (clientSettings : ClientSettings),
      let server := Server.Context.ofSpecification serverSettings spec
      let client := Client.Context.ofSpecification clientSettings spec
      List.Forall₂ (fun g h => g.name = h.name ∧ ∃ names,
        definedNames "def " (Server.routesModule server g) = "_page" :: names ∧
        definedNames "def test_" (Server.groupTests server g) = names ∧
        definedNames "    def " (Client.groupClient h) = "__init__" :: names ∧
        definedNames "def test_" (Client.groupTests h) = names) server.groups client.groups := by
  refine ⟨Group.ofSpecification_unversioned spec, ?_⟩
  intro serverSettings clientSettings server client
  have hsame : List.Forall₂ (fun g h => g.name = h.name ∧ g.operationNames = h.operationNames)
      server.groups client.groups :=
    Group.forall₂_names (Group.ofSpecification_unversioned spec _ _)
  rw [List.forall₂_iff_zip] at hsame ⊢
  refine ⟨hsame.1, ?_⟩
  intro g h hpair
  obtain ⟨hserver, hclient⟩ := List.of_mem_zip hpair
  have hg : g.WellNamed := Group.wellNamed_of_mem hserver
  have hh : h.WellNamed := Group.wellNamed_of_mem hclient
  obtain ⟨hname, hnames⟩ := hsame.2 hpair
  refine ⟨hname, g.operationNames, Server.definedNames_routesModule server hg,
    Server.definedNames_groupTests server hg, ?_, ?_⟩
  · rw [Client.definedNames_groupClient hh, hnames]
  · rw [Client.definedNames_groupTests hh, hnames]

end RamlScaffold

import RamlScaffold.Proofs.Include.Graph

/-!
Documents whose files do not include themselves. `Expands` describes expansion without a stack:
every directive stands for the whole content of the file that it finds, however often that file was
expanded before. Where a file leads back to itself there is no such value. Where none does, there is
exactly one, and it is what `resolve` computes; the guard against cycles never comes into play.
-/

namespace RamlScaffold.Include

section Guard

variable [Yaml.EventSource]
variable {project : Option Project} {active : List Location} {name : String} {l : Location}
  {node : Yaml.Node} {v : Value}

mutual

/-- The value of a node with every directive in it expanded in full. -/
inductive Expands (project : Option Project) : Yaml.Node → Value → Prop where
  | null : Expands project .null .null
  | bool (b : Bool) : Expands project (.bool b) (.bool b)
  | number (n : Number) : Expands project (.number n) (.number n)
  | text (s : String) : Expands project (.text s) (.text s)
  | list {items : List Yaml.Node} {values : List Value}
    (hitems : ExpandsItems project items values) :
    Expands project (.list items) (.list values)
  | map {entries : List (String × Yaml.Node)} {values : List (String × Value)}
    (hentries : ExpandsFields project entries values) : Expands project (.map entries) (.map values)
  | directive {written : String} {v : Value} (hname : ExpandsName project (Text.trim written) v) :
    Expands project (.tagged directiveTag (.text written)) v
  | nameless {inner : Yaml.Node} (hinner : ∀ written, inner ≠ .text written) :
    Expands project (.tagged directiveTag inner) .null
  | annotated {tag : String} {inner : Yaml.Node} {v : Value} (htag : tag ≠ directiveTag)
    (hinner : Expands project inner v) : Expands project (.tagged tag inner) v

inductive ExpandsItems (project : Option Project) : List Yaml.Node → List Value → Prop where
  | nil : ExpandsItems project [] []
  | cons {n : Yaml.Node} {v : Value} {rest : List Yaml.Node} {values : List Value}
    (hfirst : Expands project n v) (hrest : ExpandsItems project rest values) :
    ExpandsItems project (n :: rest) (v :: values)

inductive ExpandsFields (project : Option Project) :
    List (String × Yaml.Node) → List (String × Value) → Prop where
  | nil : ExpandsFields project [] []
  | cons {key : String} {n : Yaml.Node} {v : Value} {rest : List (String × Yaml.Node)}
    {values : List (String × Value)} (hfirst : Expands project n v)
    (hrest : ExpandsFields project rest values) :
    ExpandsFields project ((key, n) :: rest) ((key, v) :: values)

/-- The value of a directive by its name: a placeholder when there is no readable file for it, and
otherwise what the first one holds. -/
inductive ExpandsName (project : Option Project) : String → Value → Prop where
  | missing {name : String} (hmissing : lookup project name = none) :
    ExpandsName project name (placeholder name)
  | text {name path raw : String} (hfound : lookup project name = some (path, raw))
    (htext : isDocument path = false) :
    ExpandsName project name (.text (Text.expandTabs tabWidth raw))
  | malformed {name path raw : String} {fault : Yaml.Fault}
    (hfound : lookup project name = some (path, raw)) (hdocument : isDocument path = true)
    (hread : Yaml.read (Text.expandTabs tabWidth raw) = .error fault) :
    ExpandsName project name (faultValue ((Path.fileName? path).getD name) fault)
  | document {name path raw : String} {node : Yaml.Node} {v : Value}
    (hfound : lookup project name = some (path, raw)) (hdocument : isDocument path = true)
    (hread : Yaml.read (Text.expandTabs tabWidth raw) = .ok node) (hnode : Expands project node v) :
    ExpandsName project name v

end

/-- The rules for a directive as one choice. -/
theorem expandsName_iff_of_lookup :
    ExpandsName project name v ↔
      match lookup project name with
      | none => v = placeholder name
      | some (path, raw) =>
        if isDocument path then
          match Yaml.read (Text.expandTabs tabWidth raw) with
          | .ok node => Expands project node v
          | .error fault => v = faultValue ((Path.fileName? path).getD name) fault
        else v = .text (Text.expandTabs tabWidth raw) := by
  constructor
  · intro hexpands
    cases hexpands with
    | missing hmissing => simp [hmissing]
    | text hfound htext => simp [hfound, htext]
    | malformed hfound hdocument hread => simp [hfound, hdocument, hread]
    | document hfound hdocument hread hnode => simpa [hfound, hdocument, hread] using hnode
  · intro hvalue
    cases hfound : lookup project name with
    | none =>
      obtain rfl : v = placeholder name := by simpa [hfound] using hvalue
      exact .missing hfound
    | some file =>
      obtain ⟨path, raw⟩ := file
      by_cases hdocument : isDocument path = true
      · cases hread : Yaml.read (Text.expandTabs tabWidth raw) with
        | ok node =>
          exact .document hfound hdocument hread
            (by simpa [hfound, hdocument, hread] using hvalue)
        | error fault =>
          obtain rfl : v = faultValue ((Path.fileName? path).getD name) fault := by
            simpa [hfound, hdocument, hread] using hvalue
          exact .malformed hfound hdocument hread
      · obtain rfl : v = .text (Text.expandTabs tabWidth raw) := by
          simpa [hfound, hdocument] using hvalue
        exact .text hfound (by simpa using hdocument)

mutual

/-- When the directives of a node have one value each, so has the node. -/
theorem expands_iff {value : String → Value} (n : Yaml.Node)
    (hvalue : ∀ name ∈ directives n, ∀ v, ExpandsName project name v ↔ v = value name)
    (v : Value) : Expands project n v ↔ v = resolve value n := by
  match n with
  | .null => exact ⟨fun h => by cases h; rfl, fun h => h ▸ .null⟩
  | .bool b => exact ⟨fun h => by cases h; rfl, fun h => h ▸ .bool b⟩
  | .number m => exact ⟨fun h => by cases h; rfl, fun h => h ▸ .number m⟩
  | .text s => exact ⟨fun h => by cases h; rfl, fun h => h ▸ .text s⟩
  | .list items =>
    have hitems := expandsItems_iff items (by simpa [directives] using hvalue)
    constructor
    · rintro ⟨⟩
      next values h => rw [(hitems values).mp h, resolve]
    · rintro rfl
      exact .list ((hitems _).mpr rfl)
  | .map entries =>
    have hentries := expandsFields_iff entries (by simpa [directives] using hvalue)
    constructor
    · rintro ⟨⟩
      next values h => rw [(hentries values).mp h, resolve]
    · rintro rfl
      exact .map ((hentries _).mpr rfl)
  | .tagged tag inner =>
    by_cases htag : tag = directiveTag
    · subst htag
      cases inner
      case text written =>
        have hname := hvalue (Text.trim written) (by simp [directives]) v
        have hsame : resolve value (.tagged directiveTag (.text written)) =
            value (Text.trim written) := by
          simp [resolve]
        rw [hsame, ← hname]
        constructor
        · intro hexpands
          cases hexpands with
          | directive hname => exact hname
          | nameless hinner => exact absurd rfl (hinner written)
          | annotated htag _ => exact absurd rfl htag
        · exact .directive
      all_goals
        constructor
        · intro hexpands
          cases hexpands with
          | nameless _ => simp [resolve]
          | annotated htag _ => exact absurd rfl htag
        · intro hnull
          rw [hnull]
          simp only [resolve, beq_self_eq_true, if_true]
          exact .nameless (by simp)
    · have hinner := expands_iff inner (by simpa [directives, htag] using hvalue) v
      have hsame : resolve value (.tagged tag inner) = resolve value inner := by
        simp [resolve, htag]
      rw [hsame, ← hinner]
      constructor
      · intro hexpands
        cases hexpands with
        | directive _ => exact absurd rfl htag
        | nameless _ => exact absurd rfl htag
        | annotated _ hinner => exact hinner
      · exact .annotated htag
termination_by structural n

theorem expandsItems_iff {value : String → Value} (items : List Yaml.Node)
    (hvalue : ∀ name ∈ directivesOfItems items, ∀ v, ExpandsName project name v ↔ v = value name)
    (values : List Value) :
    ExpandsItems project items values ↔ values = resolveItems value items := by
  match items with
  | [] => exact ⟨fun h => by cases h; rfl, fun h => h ▸ .nil⟩
  | n :: rest =>
    have hfirst := expands_iff n fun name hname => hvalue name (by simp [directivesOfItems, hname])
    have hrest := expandsItems_iff rest fun name hname =>
      hvalue name (by simp [directivesOfItems, hname])
    constructor
    · rintro ⟨⟩
      next v values h hs => rw [(hfirst v).mp h, (hrest values).mp hs, resolveItems]
    · rintro rfl
      exact .cons ((hfirst _).mpr rfl) ((hrest _).mpr rfl)
termination_by structural items

theorem expandsFields_iff {value : String → Value} (entries : List (String × Yaml.Node))
    (hvalue : ∀ name ∈ directivesOfFields entries, ∀ v,
      ExpandsName project name v ↔ v = value name)
    (values : List (String × Value)) :
    ExpandsFields project entries values ↔ values = resolveFields value entries := by
  match entries with
  | [] => exact ⟨fun h => by cases h; rfl, fun h => h ▸ .nil⟩
  | (key, n) :: rest =>
    have hfirst := expands_iff n fun name hname => hvalue name (by simp [directivesOfFields, hname])
    have hrest := expandsFields_iff rest fun name hname =>
      hvalue name (by simp [directivesOfFields, hname])
    constructor
    · rintro ⟨⟩
      next v values h hs => rw [(hfirst v).mp h, (hrest values).mp hs, resolveFields]
    · rintro rfl
      exact .cons ((hfirst _).mpr rfl) ((hrest _).mpr rfl)
termination_by structural entries

end

def Includes (project : Option Project) (f g : Location) : Prop :=
  ∃ name node, opened? project name = some (f, node) ∧
    ∃ inner ∈ directives node, target? project inner = some g

/-- No file that the names lead to, directly or through other files, leads back to itself. -/
def Acyclic (project : Option Project) (names : List String) : Prop :=
  ∀ name l, Met project names name → target? project name = some l →
    ¬ Relation.TransGen (Includes project) l l

/-- A name that is met below the files of a chain, each of which leads to the file of the name. -/
structure Below (project : Option Project) (names : List String) (active : List Location)
    (name : String) : Prop where
  met : Met project names name
  leads : ∀ l ∈ active, ∀ g, target? project name = some g →
    Relation.TransGen (Includes project) l g

theorem Below.inside {names : List String} {inner : String}
    (hbelow : Below project names active name) (hopened : opened? project name = some (l, node))
    (hinner : inner ∈ directives node) : Below project names (l :: active) inner := by
  refine ⟨.inside hbelow.met hopened hinner, ?_⟩
  intro f hf g htarget
  have hlast : Includes project l g := ⟨name, node, hopened, inner, hinner, htarget⟩
  rcases List.mem_cons.mp hf with rfl | hactive
  · exact .single hlast
  · exact (hbelow.leads f hactive l (target?_of_opened? hopened)).tail hlast

/-- A file of the chain cannot be met again. -/
theorem Below.not_mem {names : List String} (hacyclic : Acyclic project names)
    (hbelow : Below project names active name) (htarget : target? project name = some l) :
    l ∉ active := by
  intro hactive
  exact hacyclic name l hbelow.met htarget (hbelow.leads l hactive l htarget)

/-- Below a chain without cycles a directive has one value, which the bounded expansion computes. -/
theorem expandsName_iff {names : List String} (hacyclic : Acyclic project names) (levels : Nat)
    (hchain : Chain project active) (henough : (locations project).length < levels + active.length)
    (hbelow : Below project names active name) (v : Value) :
    ExpandsName project name v ↔ v = expandWithin project levels active name := by
  induction levels generalizing active name v with
  | zero =>
    have hbound := hchain.length_le
    omega
  | succ levels ih =>
    rw [expandsName_iff_of_lookup, expandWithin_succ]
    cases hfound : lookup project name with
    | none => exact Iff.rfl
    | some file =>
      obtain ⟨path, raw⟩ := file
      have htarget : target? project name = some (located project path) := by
        simp [target?, hfound]
      have hnew := hbelow.not_mem hacyclic htarget
      simp only [List.contains_iff_mem, hnew, if_false]
      by_cases hdocument : isDocument path = true
      · simp only [hdocument, if_true]
        cases hread : Yaml.read (Text.expandTabs tabWidth raw) with
        | error fault => exact Iff.rfl
        | ok node =>
          have hopened : opened? project name = some (located project path, node) :=
            opened?_eq_some_iff.mpr ⟨path, raw, hfound, hdocument, hread, rfl⟩
          apply expands_iff
          intro inner hinner
          apply ih (hchain.cons hnew (located_mem_locations hfound))
          · simp only [List.length_cons]
            omega
          · exact hbelow.inside hopened hinner
      · simp only [hdocument]
        exact Iff.rfl

/-- Where no file leads back to itself, `resolve` gives the one value that full expansion has, and
no directive of the run leads to a file on the stack: the only placeholders are those of directives
without a readable file. -/
theorem guard_invisible (project : Option Project) (document : Yaml.Node)
    (hacyclic : Acyclic project (directives document)) :
    (∀ v, Expands project document v ↔ v = resolve (expandIn project) document) ∧
    ∀ s name l, Steps project ⟨.node document, [], []⟩ s → s.control = .directive name →
      target? project name = some l → l ∉ s.active := by
  constructor
  · intro v
    apply expands_iff
    intro name hname v
    rw [expandIn_eq_valueIn]
    apply expandsName_iff hacyclic _ (Chain.nil project)
    · have hbound := locations_length_le project
      simp only [List.length_nil]
      omega
    · exact ⟨.here hname, by simp⟩
  · intro s name l hrun hat htarget
    have hstart : Pending (Below project (directives document)) ⟨.node document, [], []⟩ :=
      ⟨fun _ hname => ⟨.here hname, by simp⟩, trivial⟩
    have hpending := hstart.steps (fun hbelow hopened _ hinner => hbelow.inside hopened hinner) hrun
    have hbelow := hpending.now name (by simp [hat, Control.pending])
    exact hbelow.not_mem hacyclic htarget

/-- The inclusions of one file. Texts that are no documents are read as well. -/
def inclusionsOf (p : Project) : Location × Content → List (Location × Location)
  | (_, .binary) => []
  | (l, .text raw) =>
    ((directivesOfText (Text.expandTabs tabWidth raw)).filterMap (target? (some p))).map (l, ·)

def inclusions (p : Project) : List (Location × Location) := p.files.files.flatMap (inclusionsOf p)

theorem mem_inclusions {p : Project} {f g : Location} (hincludes : Includes (some p) f g) :
    (f, g) ∈ inclusions p := by
  obtain ⟨name, node, hopened, inner, hinner, htarget⟩ := hincludes
  obtain ⟨path, raw, hfound, _, hread, hlocated⟩ := opened?_eq_some_iff.mp hopened
  have hcontent := text_of_lookup hfound
  rw [hlocated, FileSystem.content?, Option.map_eq_some_iff] at hcontent
  obtain ⟨⟨place, content⟩, hentry, rfl⟩ := hcontent
  obtain rfl : place = f := by simpa using List.find?_some hentry
  have hasked : inner ∈ directivesOfText (Text.expandTabs tabWidth raw) := by
    unfold directivesOfText
    rw [hread]
    exact hinner
  have hfile : (place, g) ∈ inclusionsOf p (place, .text raw) := by
    rw [inclusionsOf, List.mem_map]
    exact ⟨g, List.mem_filterMap.mpr ⟨inner, hasked, htarget⟩, rfl⟩
  exact List.mem_flatMap.mpr ⟨_, List.mem_of_find?_eq_some hentry, hfile⟩

/-- Files that can be ranked so that every inclusion goes down do not include themselves. -/
theorem acyclic_of_rank {p : Project} (rank : Location → Nat)
    (hrank : ∀ e ∈ inclusions p, rank e.2 < rank e.1) (names : List String) :
    Acyclic (some p) names := by
  have hdown {f g : Location} (hpath : Relation.TransGen (Includes (some p)) f g) :
      rank g < rank f := by
    induction hpath with
    | single hlast => exact hrank _ (mem_inclusions hlast)
    | tail _ hlast ih => exact Nat.lt_trans (hrank _ (mem_inclusions hlast)) ih
  intro name l _ _ hcycle
  exact Nat.lt_irrefl _ (hdown hcycle)

end Guard

def diamond : Project where
  files := ⟨[(["a.raml"], .text "x: !include c\n"), (["b.raml"], .text "y: !include c\n"),
    (["c.raml"], .text "z: 1\n")], [], [], []⟩
  directory := "."

def diamondDocument : Yaml.Node :=
  .list [.tagged directiveTag (.text "a"), .tagged directiveTag (.text "b"),
    .tagged directiveTag (.text "d")]

/-- The shared file is expanded below both of the others, and only the missing one has a
placeholder. -/
theorem guard_invisible_diamond :
    Json.render (resolve (expandIn (some diamond)) diamondDocument) =
      "[\x7b\"x\":\x7b\"z\":1\x7d\x7d,\x7b\"y\":\x7b\"z\":1\x7d\x7d,\"string\"]" ∧
    (∀ v, Expands (some diamond) diamondDocument v ↔
      v = resolve (expandIn (some diamond)) diamondDocument) ∧
    ∀ s name l, Steps (some diamond) ⟨.node diamondDocument, [], []⟩ s →
      s.control = .directive name → target? (some diamond) name = some l → l ∉ s.active :=
  have hrank : ∀ e ∈ inclusions diamond,
      (if e.2 = ["c.raml"] then 0 else 1) < if e.1 = ["c.raml"] then 0 else 1 := by
    decide +kernel
  have hacyclic : Acyclic (some diamond) (directives diamondDocument) :=
    acyclic_of_rank (if · = ["c.raml"] then 0 else 1) hrank _
  ⟨by decide +kernel, guard_invisible _ _ hacyclic⟩

end RamlScaffold.Include

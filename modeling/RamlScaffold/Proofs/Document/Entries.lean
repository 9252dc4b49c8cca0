import RamlScaffold.Proofs.Document.Merge
import RamlScaffold.Yaml.Node

/-!
The entries that a mapping is read from. Keys and values are read in turn from the events between
the start and the end of a mapping, and each value is set under the text of its key. Reading a node
passes at least one event, so a document has more events than any of its mappings has entries: the
bound on their number never ends the reading of a mapping. All mappings of a tree, at any depth and
in keys too, are therefore merged from the entries that stand for them.
-/

namespace RamlScaffold.Yaml

theorem bind_eq_ok_iff {ε α β : Type} {x : Except ε α} {f : α → Except ε β} {b : β} :
    x >>= f = .ok b ↔ ∃ a, x = .ok a ∧ f a = .ok b := by
  constructor
  · intro hbind
    cases x with
    | error fault => cases hbind
    | ok a => exact ⟨a, rfl, hbind⟩
  · rintro ⟨a, rfl, hnext⟩
    exact hnext

def NodeEvent.endsMapping : NodeEvent → Bool
  | .mappingEnd | .void => true
  | _ => false

def NodeEvent.step : NodeEvent → Step
  | .scalar _ text _ => .key text
  | _ => .unknown

def withKeyText (entry : Node × Node) : String × Node := (entry.1.keyText, entry.2)

namespace Document

/-- Keys and values that are read in turn, from a position up to the end of a mapping. -/
inductive Entries (d : Document) (readKey read : NodePath → Position → Read) (path : NodePath) :
    Position → List (Node × Node) → Position → Prop where
  | done {p : Position} {e : NodeEvent} {mark : Mark} (hevent : d.event p.event = .ok (e, mark))
      (hend : e.endsMapping = true) :
      Entries d readKey read path p [] { p with event := p.event + 1 }
  | next {p p' p'' q : Position} {e : NodeEvent} {mark : Mark} {key value : Node}
      {entries : List (Node × Node)} (hevent : d.event p.event = .ok (e, mark))
      (hgoes : e.endsMapping = false) (hkey : readKey path p = .ok (key, p'))
      (hvalue : read (e.step :: path) p' = .ok (value, p''))
      (hrest : Entries d readKey read path p'' entries q) :
      Entries d readKey read path p ((key, value) :: entries) q

variable {d : Document} {readKey read : NodePath → Position → Read} {path : NodePath}

theorem fields_succ (fuel : Nat) (p : Position) (found : Fields Node) :
    d.fields readKey read path (fuel + 1) p found =
      d.event p.event >>= fun event =>
        if event.1.endsMapping then .ok (found, { p with event := p.event + 1 })
        else readKey path p >>= fun key => read (event.1.step :: path) key.2 >>= fun value =>
          d.fields readKey read path fuel value.2 (found.put key.1.keyText value.1) := by
  rw [Document.fields]
  congr 1
  funext event
  obtain ⟨e, mark⟩ := event
  cases e <;> rfl

/-- A mapping is read exactly if its entries are, and it is filled with them. -/
theorem fields_eq_ok_iff {fuel : Nat} {p q : Position} {found fields : Fields Node} :
    d.fields readKey read path fuel p found = .ok (fields, q) ↔
      ∃ entries, Entries d readKey read path p entries q ∧ entries.length < fuel ∧
        fields = (entries.map withKeyText).foldl (fun fs e => Fields.put e.1 e.2 fs) found := by
  induction fuel generalizing p found with
  | zero =>
    constructor
    · intro hfields
      cases hfields
    · rintro ⟨entries, -, hlength, -⟩
      cases hlength
  | succ fuel ih =>
    rw [fields_succ, bind_eq_ok_iff]
    constructor
    · rintro ⟨⟨e, mark⟩, hevent, hrest⟩
      cases hend : e.endsMapping with
      | true =>
        simp only [hend, if_true] at hrest
        cases hrest
        exact ⟨[], .done hevent hend, Nat.succ_pos fuel, rfl⟩
      | false =>
        simp only [hend] at hrest
        obtain ⟨⟨key, p'⟩, hkey, hrest⟩ := bind_eq_ok_iff.mp hrest
        obtain ⟨⟨value, p''⟩, hvalue, hrest⟩ := bind_eq_ok_iff.mp hrest
        obtain ⟨entries, hentries, hlength, hfields⟩ := ih.mp hrest
        exact ⟨(key, value) :: entries, .next hevent hend hkey hvalue hentries,
          Nat.succ_lt_succ hlength, hfields⟩
    · rintro ⟨entries, hentries, hlength, rfl⟩
      cases hentries with
      | @done _ e mark hevent hend =>
        refine ⟨(e, mark), hevent, ?_⟩
        simp only [hend, if_true]
        rfl
      | @next _ p' p'' _ e mark key value entries hevent hgoes hkey hvalue hrest =>
        refine ⟨(e, mark), hevent, ?_⟩
        simp only [hgoes]
        refine bind_eq_ok_iff.mpr ⟨(key, p'), hkey, ?_⟩
        refine bind_eq_ok_iff.mpr ⟨(value, p''), hvalue, ?_⟩
        exact ih.mpr ⟨entries, hrest, Nat.lt_of_succ_lt_succ hlength, rfl⟩

/-- A node that is read at a position, and where reading goes on. A collection that stands for an
alias is read elsewhere, from event `n` on, and reading goes on behind the alias. -/
inductive NodeRead (d : Document) (path : NodePath) (p : Position) :
    Nat → Node → Position → Prop where
  | scalar {depth : Nat} {q : Position} (tag : Option String) (scalar : Scalar)
      (hq : q.event = p.event + 1) : NodeRead d path p depth (tagWith tag (.ofScalar scalar)) q
  | void {depth : Nat} {q : Position} (hq : q.event = p.event + 1) : NodeRead d path p depth .null q
  | list {depth n : Nat} {q start stop : Position} {items : List Node} (tag : Option String)
      (hstart : start.event = n + 1)
      (hitems : d.items (d.node depth false) path (d.events.size + 1) 0 start [] =
        .ok (items, stop))
      (hq : q.event = if n = p.event then stop.event else p.event + 1) :
      NodeRead d path p (depth + 1) (tagWith tag (.list items)) q
  | map {depth n : Nat} {q start stop : Position} {fields : Fields Node} {tag : Option String}
      {mark : Mark} (written : Option String) (covering : Bool)
      (hevent : d.event n = .ok (.mappingStart tag, mark)) (hstart : start.event = n + 1)
      (hfields : d.fields (d.node depth covering) (d.node depth false) path (d.events.size + 1)
        start [] = .ok (fields, stop))
      (hq : q.event = if n = p.event then stop.event else p.event + 1) :
      NodeRead d path p (depth + 1) (tagWith written (.map fields)) q

theorem nodeRead_of_ok {depth : Nat} {covered : Bool} {p q : Position} {node : Node}
    (hnode : d.node depth covered path p = .ok (node, q)) : NodeRead d path p depth node q := by
  rw [Document.node] at hnode
  obtain ⟨⟨n, p'⟩, -, hnode⟩ := bind_eq_ok_iff.mp hnode
  obtain ⟨⟨e, mark⟩, hevent, hnode⟩ := bind_eq_ok_iff.mp hnode
  have hresume (stop : Position) :
      (if n == p.event then stop else { stop with event := p.event + 1 }).event =
        if n = p.event then stop.event else p.event + 1 := by
    by_cases hsame : n = p.event <;> simp [hsame]
  cases e with
  | scalar tag text plain =>
    simp only at hnode
    split at hnode
    · cases hnode
    · cases hnode
      exact .scalar _ _ rfl
  | sequenceStart tag =>
    cases depth with
    | zero => cases hnode
    | succ depth =>
      obtain ⟨⟨items, stop⟩, hitems, hnode⟩ := bind_eq_ok_iff.mp hnode
      cases hnode
      exact .list _ rfl hitems (hresume stop)
  | mappingStart tag =>
    cases depth with
    | zero => cases hnode
    | succ depth =>
      obtain ⟨⟨fields, stop⟩, hfields, hnode⟩ := bind_eq_ok_iff.mp hnode
      cases hnode
      exact .map _ _ hevent rfl hfields (hresume stop)
  | void =>
    cases hnode
    exact .void rfl
  | _ => cases hnode

def Advances (read : NodePath → Position → Read) : Prop :=
  ∀ path p node q, read path p = .ok (node, q) → p.event < q.event

/-- Items are what was read for them, and reading them goes forward. -/
theorem items_ok {P : Node → Prop}
    (hread : ∀ path p node q, read path p = .ok (node, q) → P node ∧ p.event < q.event)
    {fuel index : Nat} {p q : Position} {found items : List Node} (hfound : ∀ node ∈ found, P node)
    (hitems : d.items read path fuel index p found = .ok (items, q)) :
    (∀ node ∈ items, P node) ∧ p.event < q.event := by
  induction fuel generalizing index p found with
  | zero => cases hitems
  | succ fuel ih =>
    rw [Document.items] at hitems
    obtain ⟨⟨e, mark⟩, -, hitems⟩ := bind_eq_ok_iff.mp hitems
    have hended (hsame : (pure (found.reverse, { p with event := p.event + 1 }) :
        Except Fault (List Node × Position)) = .ok (items, q)) :
        (∀ node ∈ items, P node) ∧ p.event < q.event := by
      cases hsame
      exact ⟨by simpa using hfound, Nat.lt_succ_self p.event⟩
    simp only at hitems
    split at hitems
    · exact hended hitems
    · exact hended hitems
    · obtain ⟨⟨node, p'⟩, hnode, hitems⟩ := bind_eq_ok_iff.mp hitems
      obtain ⟨hfirst, hforward⟩ := hread _ _ _ _ hnode
      obtain ⟨hall, hlater⟩ := ih (List.forall_mem_cons.mpr ⟨hfirst, hfound⟩) hitems
      exact ⟨hall, hforward.trans hlater⟩

theorem Entries.advances (hkeys : Advances readKey) (hvalues : Advances read) {p q : Position}
    {entries : List (Node × Node)} (hentries : Entries d readKey read path p entries q) :
    p.event < q.event := by
  induction hentries with
  | @done p _ _ _ _ => exact Nat.lt_succ_self p.event
  | next _ _ hkey hvalue _ ih =>
    have hkey := hkeys _ _ _ _ hkey
    have hvalue := hvalues _ _ _ _ hvalue
    omega

/-- Each entry has an event of its own, and one more event ends the mapping. -/
theorem Entries.length_lt (hkeys : Advances readKey) (hvalues : Advances read) {p q : Position}
    {entries : List (Node × Node)} (hentries : Entries d readKey read path p entries q) :
    p.event + entries.length < d.events.size := by
  induction hentries with
  | @done p e mark hevent _ =>
    unfold event at hevent
    split at hevent
    · next found hfound =>
      obtain ⟨hbound, -⟩ := Array.getElem?_eq_some_iff.mp hfound
      exact hbound
    · cases hevent
  | next _ _ hkey hvalue _ ih =>
    have hkey := hkeys _ _ _ _ hkey
    have hvalue := hvalues _ _ _ _ hvalue
    rw [List.length_cons]
    omega

theorem node_advances (d : Document) (depth : Nat) (covered : Bool) :
    Advances (d.node depth covered) := by
  induction depth generalizing covered with
  | zero =>
    intro path p node q hnode
    cases nodeRead_of_ok hnode with
    | scalar tag scalar hq => omega
    | void hq => omega
  | succ depth ih =>
    intro path p node q hnode
    cases nodeRead_of_ok hnode with
    | scalar tag scalar hq => omega
    | void hq => omega
    | list tag hstart hitems hq =>
      have hread path p node q h := And.intro trivial (ih false path p node q h)
      obtain ⟨-, hstop⟩ := items_ok hread (List.forall_mem_nil _) hitems
      split at hq <;> omega
    | map written covering hevent hstart hfields hq =>
      obtain ⟨entries, hentries, -, -⟩ := fields_eq_ok_iff.mp hfields
      have hstop := hentries.advances (ih covering) (ih false)
      split at hq <;> omega

/-- A mapping is read exactly if its entries are, and it is merged from them. -/
theorem fields_node_eq_ok_iff {depth : Nat} {covering : Bool} {p q : Position}
    {fields : Fields Node} :
    d.fields (d.node depth covering) (d.node depth false) path (d.events.size + 1) p [] =
        .ok (fields, q) ↔
      ∃ entries, Entries d (d.node depth covering) (d.node depth false) path p entries q ∧
        fields = Fields.ofEntries (entries.map withKeyText) := by
  rw [fields_eq_ok_iff]
  refine exists_congr fun entries => and_congr_right fun hentries => ?_
  have hlength := hentries.length_lt (node_advances d depth covering) (node_advances d depth false)
  exact and_iff_right (by omega)

/-- A tree of the document in which every mapping, also in a key, is merged from the entries that
are read behind the event that starts it. -/
inductive Merged (d : Document) : Node → Prop where
  | null : Merged d .null
  | bool (b : Bool) : Merged d (.bool b)
  | number (n : Number) : Merged d (.number n)
  | text (s : String) : Merged d (.text s)
  | list {items : List Node} (hitems : ∀ item ∈ items, Merged d item) : Merged d (.list items)
  | map {depth n : Nat} {covering : Bool} {path : NodePath} {tag : Option String} {mark : Mark}
      {start stop : Position} {entries : List (Node × Node)} {fields : Fields Node}
      (hevent : d.event n = .ok (.mappingStart tag, mark)) (hstart : start.event = n + 1)
      (hentries : Entries d (d.node depth covering) (d.node depth false) path start entries stop)
      (hkeys : ∀ entry ∈ entries, Merged d entry.1) (hvalues : ∀ entry ∈ entries, Merged d entry.2)
      (hmerges : Fields.Merges (entries.map withKeyText) fields) : Merged d (.map fields)
  | tagged {tag : String} {node : Node} (hnode : Merged d node) : Merged d (.tagged tag node)

theorem Merged.tagWith {node : Node} (hnode : Merged d node) (tag : Option String) :
    Merged d (tagWith tag node) := by
  unfold Document.tagWith
  split
  · exact .tagged hnode
  · exact hnode

theorem merged_ofScalar (d : Document) (scalar : Scalar) : Merged d (.ofScalar scalar) := by
  cases scalar with
  | null => exact .null
  | bool b => exact .bool b
  | number n => exact .number n
  | text s => exact .text s

theorem Entries.forall {P Q : Node → Prop}
    (hkeys : ∀ path p node q, readKey path p = .ok (node, q) → P node)
    (hvalues : ∀ path p node q, read path p = .ok (node, q) → Q node) {p q : Position}
    {entries : List (Node × Node)} (hentries : Entries d readKey read path p entries q) :
    ∀ entry ∈ entries, P entry.1 ∧ Q entry.2 := by
  induction hentries with
  | done _ _ => exact List.forall_mem_nil _
  | next _ _ hkey hvalue _ ih =>
    exact List.forall_mem_cons.mpr ⟨⟨hkeys _ _ _ _ hkey, hvalues _ _ _ _ hvalue⟩, ih⟩

/-- Collections are read one level less deep, so the induction is on the depth. -/
theorem node_merged (d : Document) (depth : Nat) (covered : Bool) (path : NodePath) (p : Position)
    (node : Node) (q : Position) (hnode : d.node depth covered path p = .ok (node, q)) :
    Merged d node := by
  induction depth generalizing covered path p node q with
  | zero =>
    cases nodeRead_of_ok hnode with
    | scalar tag scalar _ => exact (merged_ofScalar d scalar).tagWith tag
    | void _ => exact .null
  | succ depth ih =>
    cases nodeRead_of_ok hnode with
    | scalar tag scalar _ => exact (merged_ofScalar d scalar).tagWith tag
    | void _ => exact .null
    | list tag _ hitems _ =>
      have hread path p node q h :=
        And.intro (ih false path p node q h) (node_advances d depth false path p node q h)
      obtain ⟨hmerged, -⟩ := items_ok hread (List.forall_mem_nil _) hitems
      exact (Merged.list hmerged).tagWith tag
    | map written covering hevent hstart hfields _ =>
      obtain ⟨entries, hentries, rfl⟩ := fields_node_eq_ok_iff.mp hfields
      have hmerged := hentries.forall (ih covering) (ih false)
      exact (Merged.map hevent hstart hentries (fun entry h => (hmerged entry h).1)
        (fun entry h => (hmerged entry h).2) (Fields.merges_ofEntries _)).tagWith written

end Document

/-- Every mapping of the tree of a text is merged from its entries. -/
theorem read_merged [EventSource] {text : String} {node : Node} (hread : read text = .ok node) :
    (EventSource.document text).Merged node := by
  unfold read at hread
  simp only at hread
  split at hread
  · cases hread
  · next found p hfound =>
    split at hread
    · cases hread
    · split at hread
      · cases hread
      · cases hread
        exact Document.node_merged _ _ _ _ _ _ _ hfound

end RamlScaffold.Yaml

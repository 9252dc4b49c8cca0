import RamlScaffold.Proofs.Include.Termination

/-!
The names that expansion meets. From the directives of a document one comes to files, and from the
directives of these to further files; `Met` is the closure of this, and says nothing of a stack or
of an order. The machine comes to exactly these names, although it leaves out what a file on its
stack would add: such a file is being expanded further down, and its directives are met there.
-/

namespace RamlScaffold.Include

/-- What a path gives when it is read depends only on where it leads to. -/
theorem text_of_lookup {p : Project} {name path raw : String}
    (hfound : lookup (some p) name = some (path, raw)) :
    p.files.content? (located (some p) path) = some (.text raw) := by
  have hread := read_of_firstReadable? (by simpa [lookup] using hfound)
  unfold FileSystem.read at hread
  cases hlocate : p.files.locate path with
  | error fault => simp [hlocate] at hread
  | ok l =>
    simp only [hlocate] at hread
    simp only [located, hlocate, Except.toOption, Option.getD_some]
    split at hread
    · cases hread
    · split at hread
      · next text hcontent => rw [hcontent, Except.ok.inj hread]
      · cases hread
      · cases hread

variable [Yaml.EventSource]
variable {project : Option Project} {active : List Location} {name : String} {l : Location}
  {node : Yaml.Node}

def target? (project : Option Project) (name : String) : Option Location :=
  (lookup project name).map fun file => located project file.1

def opened? (project : Option Project) (name : String) : Option (Location × Yaml.Node) :=
  match lookup project name with
  | none => none
  | some (path, raw) =>
    if isDocument path then
      match Yaml.read (Text.expandTabs tabWidth raw) with
      | .ok node => some (located project path, node)
      | .error _ => none
    else none

/-- The names that expansion starting from some names comes to. -/
inductive Met (project : Option Project) (names : List String) : String → Prop where
  | here {name : String} (hname : name ∈ names) : Met project names name
  | inside {name inner : String} {l : Location} {node : Yaml.Node}
    (houter : Met project names name) (hopened : opened? project name = some (l, node))
    (hinner : inner ∈ directives node) : Met project names inner

theorem opened?_eq_some_iff :
    opened? project name = some (l, node) ↔
      ∃ path raw, lookup project name = some (path, raw) ∧ isDocument path = true ∧
        Yaml.read (Text.expandTabs tabWidth raw) = .ok node ∧ located project path = l := by
  unfold opened?
  cases hfound : lookup project name with
  | none => simp
  | some file =>
    obtain ⟨path, raw⟩ := file
    by_cases hdocument : isDocument path = true
    · cases hread : Yaml.read (Text.expandTabs tabWidth raw) with
      | error fault => simp [hdocument, hread]
      | ok found => simp [hdocument, hread, and_comm]
    · simp [hdocument]

theorem target?_of_opened? (hopened : opened? project name = some (l, node)) :
    target? project name = some l := by
  obtain ⟨path, raw, hfound, _, _, hlocated⟩ := opened?_eq_some_iff.mp hopened
  simp [target?, hfound, hlocated]

/-- Two directives that open one file open the same document. -/
theorem opened?_unique {other : String} {node' : Yaml.Node}
    (hopened : opened? project name = some (l, node))
    (hother : opened? project other = some (l, node')) : node = node' := by
  obtain ⟨path, raw, hfound, _, hread, hlocated⟩ := opened?_eq_some_iff.mp hopened
  obtain ⟨path', raw', hfound', _, hread', hlocated'⟩ := opened?_eq_some_iff.mp hother
  cases project with
  | none => simp [lookup] at hfound
  | some p =>
    have htext := text_of_lookup hfound
    have htext' := text_of_lookup hfound'
    rw [hlocated] at htext
    rw [hlocated', htext] at htext'
    have hraw : raw = raw' := by simpa using htext'
    rw [hraw, hread'] at hread
    exact (Except.ok.inj hread).symm

theorem enter_of_mem (htarget : target? project name = some l) (hactive : l ∈ active)
    (frames : List Frame) :
    enter project name frames active = ⟨.value (placeholder name), frames, active⟩ := by
  unfold target? at htarget
  unfold enter
  cases hfound : lookup project name with
  | none => simp [hfound] at htarget
  | some file =>
    have hlocated : located project file.1 = l := by simpa [hfound] using htarget
    simp [hlocated, hactive]

theorem enter_of_opened? (hopened : opened? project name = some (l, node)) (hnew : l ∉ active)
    (frames : List Frame) :
    enter project name frames active = ⟨.node node, .leave :: frames, l :: active⟩ := by
  obtain ⟨path, raw, hfound, hdocument, hread, hlocated⟩ := opened?_eq_some_iff.mp hopened
  simp [enter, hfound, hdocument, hread, hlocated, hnew]

/-- A directive has a value at once, or it opens a document whose file is not on the stack. -/
theorem enter_opens (project : Option Project) (name : String) (frames : List Frame)
    (active : List Location) :
    (∃ v, enter project name frames active = ⟨.value v, frames, active⟩) ∨
      ∃ l node, opened? project name = some (l, node) ∧ l ∉ active ∧
        enter project name frames active = ⟨.node node, .leave :: frames, l :: active⟩ := by
  cases hopened : opened? project name with
  | some found =>
    obtain ⟨l, node⟩ := found
    by_cases hactive : l ∈ active
    · exact Or.inl ⟨_, enter_of_mem (target?_of_opened? hopened) hactive frames⟩
    · exact Or.inr ⟨l, node, rfl, hactive, enter_of_opened? hopened hactive frames⟩
  | none =>
    left
    unfold opened? at hopened
    unfold enter
    cases hfound : lookup project name with
    | none => exact ⟨_, rfl⟩
    | some file =>
      obtain ⟨path, raw⟩ := file
      simp only [hfound] at hopened ⊢
      split
      · exact ⟨_, rfl⟩
      · split
        · next hdocument =>
          rw [if_pos hdocument] at hopened
          cases hread : Yaml.read (Text.expandTabs tabWidth raw) with
          | ok found => simp [hread] at hopened
          | error fault => exact ⟨_, rfl⟩
        · exact ⟨_, rfl⟩

def Control.pending : Control → List String
  | .node n => directives n
  | .fields entries => directivesOfFields entries
  | .directive name => [name]
  | .value _ => []
  | .mapping _ => []

/-- Whether `P` holds of the names that frames have still to look at, each under the files that are
on the stack when its turn comes. -/
def Awaits (P : List Location → String → Prop) : List Frame → List Location → Prop
  | [], _ => True
  | .item _ rest :: frames, active =>
    (∀ name ∈ directivesOfItems rest, P active name) ∧ Awaits P frames active
  | .entry _ _ rest :: frames, active =>
    (∀ name ∈ directivesOfFields rest, P active name) ∧ Awaits P frames active
  | .wrap :: frames, active => Awaits P frames active
  | .leave :: frames, active => Awaits P frames active.tail

structure Pending (P : List Location → String → Prop) (s : State) : Prop where
  now : ∀ name ∈ s.control.pending, P s.active name
  later : Awaits P s.frames s.active

/-- What is to come stays within `P` when `P` goes over from a directive to the document that it
opens. -/
theorem Pending.step {P : List Location → String → Prop}
    (hinside : ∀ {active name l node inner}, P active name →
      opened? project name = some (l, node) → l ∉ active → inner ∈ directives node →
      P (l :: active) inner)
    {s t : State} (hpending : Pending P s) (hstep : Include.step project s = some t) :
    Pending P t := by
  obtain ⟨hnow, hlater⟩ := hpending
  unfold Include.step at hstep
  split at hstep
  case h_8 =>
    split at hstep
    · next htag =>
      split at hstep
      · cases hstep
        exact ⟨by simpa [Control.pending, directives, htag] using hnow, hlater⟩
      · cases hstep
        exact ⟨by simp [Control.pending], hlater⟩
    · next htag =>
      cases hstep
      exact ⟨by simpa [Control.pending, directives, htag] using hnow, hlater⟩
  case h_11 name frames active =>
    cases hstep
    rcases enter_opens project name frames active with
      ⟨v, hentered⟩ | ⟨l, node, hopened, hnew, hentered⟩
    · rw [hentered]
      exact ⟨by simp [Control.pending], hlater⟩
    · rw [hentered]
      refine ⟨?_, hlater⟩
      intro inner hinner
      exact hinside (hnow name List.mem_cons_self) hopened hnew hinner
  case h_18 => cases hstep
  all_goals
    cases hstep
    constructor <;>
      simp_all [Control.pending, Awaits, directives, directivesOfItems, directivesOfFields]

theorem Pending.steps {P : List Location → String → Prop}
    (hinside : ∀ {active name l node inner}, P active name →
      opened? project name = some (l, node) → l ∉ active → inner ∈ directives node →
      P (l :: active) inner)
    {s t : State} (hpending : Pending P s) (hrun : Steps project s t) : Pending P t := by
  induction hrun with
  | refl => exact hpending
  | tail _ hstep ih => exact ih.step hinside hstep

/-- A file comes onto the stack by a directive that opens it. -/
theorem mem_active_step {s t : State} (hstep : Include.step project s = some t)
    (hactive : l ∈ t.active) :
    l ∈ s.active ∨ ∃ name node, s.control = .directive name ∧ l ∉ s.active ∧
      opened? project name = some (l, node) := by
  unfold Include.step at hstep
  split at hstep
  case h_8 =>
    split at hstep
    · split at hstep <;> cases hstep <;> exact Or.inl hactive
    · cases hstep
      exact Or.inl hactive
  case h_11 name frames active =>
    cases hstep
    rcases enter_opens project name frames active with
      ⟨v, hentered⟩ | ⟨l', node, hopened, hnew, hentered⟩
    · rw [hentered] at hactive
      exact Or.inl hactive
    · rw [hentered] at hactive
      rcases List.mem_cons.mp hactive with rfl | hbefore
      · exact Or.inr ⟨name, node, rfl, hnew, hopened⟩
      · exact Or.inl hbefore
  case h_16 =>
    cases hstep
    exact Or.inl (List.mem_of_mem_tail hactive)
  case h_18 => cases hstep
  all_goals
    cases hstep
    exact Or.inl hactive

/-- Every file on the stack was opened by a directive that the run has met before. -/
theorem opened_of_mem_active {call : Control} {s : State}
    (hrun : Steps project ⟨call, [], []⟩ s) (hactive : l ∈ s.active) :
    ∃ name frames active node, Steps project ⟨call, [], []⟩ ⟨.directive name, frames, active⟩ ∧
      l ∉ active ∧ opened? project name = some (l, node) := by
  induction hrun with
  | refl => cases hactive
  | @tail before _ hbefore hstep ih =>
    rcases mem_active_step hstep hactive with hold | ⟨name, node, hat, hnew, hopened⟩
    · exact ih hold
    · refine ⟨name, before.frames, before.active, node, ?_, hnew, hopened⟩
      rw [← hat]
      exact hbefore

mutual

/-- The machine comes to every directive of a node: what stands before it returns. -/
theorem node_meets (hchain : Chain project active) (n : Yaml.Node) (frames : List Frame)
    (hname : name ∈ directives n) :
    ∃ later, Steps project ⟨.node n, frames, active⟩ ⟨.directive name, later, active⟩ := by
  match n with
  | .null => simp [directives] at hname
  | .bool b => simp [directives] at hname
  | .number m => simp [directives] at hname
  | .text s => simp [directives] at hname
  | .list [] => simp [directives, directivesOfItems] at hname
  | .list (first :: rest) =>
    have henter : Steps project ⟨.node (.list (first :: rest)), frames, active⟩
        ⟨.node first, .item [] rest :: frames, active⟩ := .one rfl
    rcases List.mem_append.mp (by simpa [directives, directivesOfItems] using hname) with
      hfirst | hrest
    · obtain ⟨later, hmeets⟩ := node_meets hchain first (.item [] rest :: frames) hfirst
      exact ⟨later, henter.trans hmeets⟩
    · obtain ⟨later, hmeets⟩ := items_meet hchain rest [] _ frames hrest
      have hreturns := node_returns (call_returns hchain) first (.item [] rest :: frames)
      exact ⟨later, henter.trans (hreturns.trans hmeets)⟩
  | .map entries =>
    have henter : Steps project ⟨.node (.map entries), frames, active⟩
        ⟨.fields entries, .wrap :: frames, active⟩ := .one rfl
    obtain ⟨later, hmeets⟩ := fields_meet hchain entries (.wrap :: frames)
      (by simpa [directives] using hname)
    exact ⟨later, henter.trans hmeets⟩
  | .tagged tag inner =>
    by_cases hdirective : (tag == directiveTag) = true
    · cases inner
      case text written =>
        obtain rfl : name = Text.trim written := by simpa [directives, hdirective] using hname
        exact ⟨frames, .one (by simp [step, hdirective])⟩
      all_goals simp [directives, hdirective] at hname
    · have hplain : Steps project ⟨.node (.tagged tag inner), frames, active⟩
          ⟨.node inner, frames, active⟩ := .one (by simp [step, hdirective])
      obtain ⟨later, hmeets⟩ := node_meets hchain inner frames
        (by simpa [directives, hdirective] using hname)
      exact ⟨later, hplain.trans hmeets⟩
termination_by structural n

theorem items_meet (hchain : Chain project active) (rest : List Yaml.Node) (done : List Value)
    (v : Value) (frames : List Frame) (hname : name ∈ directivesOfItems rest) :
    ∃ later, Steps project ⟨.value v, .item done rest :: frames, active⟩
      ⟨.directive name, later, active⟩ := by
  match rest with
  | [] => simp [directivesOfItems] at hname
  | next :: rest =>
    have henter : Steps project ⟨.value v, .item done (next :: rest) :: frames, active⟩
        ⟨.node next, .item (done ++ [v]) rest :: frames, active⟩ := .one rfl
    rcases List.mem_append.mp (by simpa [directivesOfItems] using hname) with hnext | hrest
    · obtain ⟨later, hmeets⟩ := node_meets hchain next (.item (done ++ [v]) rest :: frames) hnext
      exact ⟨later, henter.trans hmeets⟩
    · obtain ⟨later, hmeets⟩ := items_meet hchain rest (done ++ [v]) _ frames hrest
      have hreturns := node_returns (call_returns hchain) next (.item (done ++ [v]) rest :: frames)
      exact ⟨later, henter.trans (hreturns.trans hmeets)⟩
termination_by structural rest

theorem fields_meet (hchain : Chain project active) (entries : List (String × Yaml.Node))
    (frames : List Frame) (hname : name ∈ directivesOfFields entries) :
    ∃ later, Steps project ⟨.fields entries, frames, active⟩ ⟨.directive name, later, active⟩ := by
  match entries with
  | [] => simp [directivesOfFields] at hname
  | (key, n) :: rest =>
    have henter : Steps project ⟨.fields ((key, n) :: rest), frames, active⟩
        ⟨.node n, .entry [] key rest :: frames, active⟩ := .one rfl
    rcases List.mem_append.mp (by simpa [directivesOfFields] using hname) with hfirst | hrest
    · obtain ⟨later, hmeets⟩ := node_meets hchain n (.entry [] key rest :: frames) hfirst
      exact ⟨later, henter.trans hmeets⟩
    · obtain ⟨later, hmeets⟩ := entries_meet hchain rest [] key _ frames hrest
      have hreturns := node_returns (call_returns hchain) n (.entry [] key rest :: frames)
      exact ⟨later, henter.trans (hreturns.trans hmeets)⟩
termination_by structural entries

theorem entries_meet (hchain : Chain project active) (rest : List (String × Yaml.Node))
    (done : List (String × Value)) (key : String) (v : Value) (frames : List Frame)
    (hname : name ∈ directivesOfFields rest) :
    ∃ later, Steps project ⟨.value v, .entry done key rest :: frames, active⟩
      ⟨.directive name, later, active⟩ := by
  match rest with
  | [] => simp [directivesOfFields] at hname
  | (next, n) :: rest =>
    have henter : Steps project ⟨.value v, .entry done key ((next, n) :: rest) :: frames, active⟩
        ⟨.node n, .entry (done ++ [(key, v)]) next rest :: frames, active⟩ := .one rfl
    rcases List.mem_append.mp (by simpa [directivesOfFields] using hname) with hnext | hrest
    · obtain ⟨later, hmeets⟩ :=
        node_meets hchain n (.entry (done ++ [(key, v)]) next rest :: frames) hnext
      exact ⟨later, henter.trans hmeets⟩
    · obtain ⟨later, hmeets⟩ := entries_meet hchain rest (done ++ [(key, v)]) next _ frames hrest
      have hreturns := node_returns (call_returns hchain) n
        (.entry (done ++ [(key, v)]) next rest :: frames)
      exact ⟨later, henter.trans (hreturns.trans hmeets)⟩
termination_by structural rest

end

/-- The machine comes to every name that a call has to look at. -/
theorem control_meets (hchain : Chain project active) (call : Control) (frames : List Frame)
    (hname : name ∈ call.pending) :
    ∃ later, Steps project ⟨call, frames, active⟩ ⟨.directive name, later, active⟩ := by
  cases call with
  | node n => exact node_meets hchain n frames hname
  | fields entries => exact fields_meet hchain entries frames hname
  | directive given =>
    obtain rfl : name = given := by simpa [Control.pending] using hname
    exact ⟨frames, .refl⟩
  | value v => simp [Control.pending] at hname
  | mapping entries => simp [Control.pending] at hname

/-- The names that a run meets are those of the closure. -/
theorem met_iff (call : Control) (name : String) :
    (∃ frames active, Steps project ⟨call, [], []⟩ ⟨.directive name, frames, active⟩) ↔
      Met project call.pending name := by
  constructor
  · rintro ⟨frames, active, hrun⟩
    have hpending : Pending (fun _ name => Met project call.pending name) ⟨call, [], []⟩ :=
      ⟨fun _ hname => .here hname, trivial⟩
    have hthere := hpending.steps
      (fun houter hopened _ hinner => .inside houter hopened hinner) hrun
    exact hthere.now name List.mem_cons_self
  · intro hmet
    have hchain {s : State} (hrun : Steps project ⟨call, [], []⟩ s) : Chain project s.active :=
      (Invariant.steps ⟨Chain.nil project, rfl⟩ hrun).chain
    induction hmet with
    | here hname =>
      obtain ⟨later, hmeets⟩ := control_meets (Chain.nil project) call [] hname
      exact ⟨later, [], hmeets⟩
    | @inside outer inner l node _ hopened hinner ih =>
      obtain ⟨frames, active, hrun⟩ := ih
      -- If the file is on the stack, the run opened it earlier, and met `inner` from there.
      have hentered : ∃ frames active, l ∉ active ∧ ∃ name, opened? project name = some (l, node) ∧
          Steps project ⟨call, [], []⟩ ⟨.directive name, frames, active⟩ := by
        by_cases hactive : l ∈ active
        · obtain ⟨name, before, below, node', hrun', hnew, hopened'⟩ :=
            opened_of_mem_active hrun hactive
          obtain rfl := opened?_unique hopened hopened'
          exact ⟨before, below, hnew, name, hopened', hrun'⟩
        · exact ⟨frames, active, hactive, outer, hopened, hrun⟩
      obtain ⟨frames, active, hnew, name, hopened, hrun⟩ := hentered
      have hstep : Steps project ⟨.directive name, frames, active⟩
          ⟨.node node, .leave :: frames, l :: active⟩ := by
        rw [← enter_of_opened? hopened hnew frames]
        exact .one rfl
      have hinside := hrun.trans hstep
      obtain ⟨later, hmeets⟩ := node_meets (hchain hinside) node (.leave :: frames) hinner
      exact ⟨later, l :: active, hinside.trans hmeets⟩

/-- The files that a run expands are those that the names it meets open. -/
theorem expanded_iff (call : Control) (l : Location) :
    (∃ s, Steps project ⟨call, [], []⟩ s ∧ l ∈ s.active) ↔
      ∃ name node, Met project call.pending name ∧ opened? project name = some (l, node) := by
  constructor
  · rintro ⟨s, hrun, hactive⟩
    obtain ⟨name, frames, active, node, hmeets, _, hopened⟩ := opened_of_mem_active hrun hactive
    exact ⟨name, node, (met_iff call name).mp ⟨frames, active, hmeets⟩, hopened⟩
  · rintro ⟨name, node, hmet, hopened⟩
    obtain ⟨frames, active, hrun⟩ := (met_iff call name).mpr hmet
    by_cases hactive : l ∈ active
    · exact ⟨_, hrun, hactive⟩
    · have hstep : Steps project ⟨.directive name, frames, active⟩
          (enter project name frames active) := .one rfl
      rw [enter_of_opened? hopened hactive frames] at hstep
      exact ⟨_, hrun.trans hstep, List.mem_cons_self⟩

end RamlScaffold.Include

import Mathlib.Data.List.Dedup
import Mathlib.Data.List.Perm.Subperm
import Mathlib.Logic.Relation
import RamlScaffold.Spec.Include

/-!
The expansion of directives as a machine that takes one step at a time. The machine keeps the files
that are being expanded on a stack of its own, which it pushes before it enters the document of a
file and pops after it has left it; nothing bounds its steps. `resolve` and `expand` hand the stack
down as an argument and count levels instead.

This module holds the machine and what every one of its steps preserves: no file stands twice on
the stack, there are only files on it, and it is as high as expansions are nested.
-/

namespace RamlScaffold.Include

inductive Control where
  | node (n : Yaml.Node)
  | fields (entries : List (String × Yaml.Node))
  | directive (name : String)
  | value (v : Value)
  | mapping (entries : List (String × Value))

inductive Frame where
  /-- The value is an item of a list, after the ones done and before the rest. -/
  | item (done : List Value) (rest : List Yaml.Node)
  | entry (done : List (String × Value)) (key : String) (rest : List (String × Yaml.Node))
  | wrap
  /-- The value is that of a file, which leaves the stack. -/
  | leave

structure State where
  control : Control
  frames : List Frame
  /-- The files that are being expanded, the innermost first. -/
  active : List Location

def lookup (project : Option Project) (name : String) : Option (String × String) :=
  project.bind fun p => firstReadable? p.files (candidates p.directory name)

def located (project : Option Project) (path : String) : Location :=
  match project with
  | some p => (p.files.locate path).toOption.getD []
  | none => []

def locations (project : Option Project) : List Location :=
  match project with
  | some p => (p.files.files.map (·.1)).dedup
  | none => []

def depth (frames : List Frame) : Nat := frames.countP fun
  | .leave => true
  | _ => false

/-- What can stand on the stack: files of the project, each once. -/
def Chain (project : Option Project) (active : List Location) : Prop :=
  active.Nodup ∧ ∀ l ∈ active, l ∈ locations project

theorem Chain.nil (project : Option Project) : Chain project [] :=
  ⟨List.nodup_nil, by simp⟩

theorem Chain.cons {project : Option Project} {active : List Location} {l : Location}
    (hchain : Chain project active) (hnew : l ∉ active) (hfile : l ∈ locations project) :
    Chain project (l :: active) := by
  refine ⟨List.nodup_cons.mpr ⟨hnew, hchain.1⟩, ?_⟩
  intro l' hmember
  rcases List.mem_cons.mp hmember with rfl | holder
  · exact hfile
  · exact hchain.2 l' holder

theorem Chain.tail {project : Option Project} {active : List Location}
    (hchain : Chain project active) : Chain project active.tail :=
  ⟨hchain.1.tail, fun l hmember => hchain.2 l (List.mem_of_mem_tail hmember)⟩

theorem Chain.length_le {project : Option Project} {active : List Location}
    (hchain : Chain project active) : active.length ≤ (locations project).length :=
  (List.subperm_of_subset hchain.1 hchain.2).length_le

/-- A path that was read leads to the location of a file. -/
theorem mem_files_of_read {fs : FileSystem} {path text : String} (hread : fs.read path = .ok text) :
    ∃ l, fs.locate path = .ok l ∧ l ∈ fs.files.map (·.1) := by
  unfold FileSystem.read at hread
  cases hlocated : fs.locate path with
  | error fault => simp [hlocated] at hread
  | ok l =>
    refine ⟨l, rfl, ?_⟩
    simp only [hlocated] at hread
    cases hcontent : fs.content? l with
    | none => split at hread <;> simp_all
    | some held =>
      simp only [FileSystem.content?, Option.map_eq_some_iff] at hcontent
      obtain ⟨entry, hfound, _⟩ := hcontent
      have hsame := List.find?_some hfound
      simp only [beq_iff_eq] at hsame
      exact List.mem_map.mpr ⟨entry, List.mem_of_find?_eq_some hfound, hsame⟩

theorem read_of_firstReadable? {fs : FileSystem} {paths : List String} {path text : String}
    (hfound : firstReadable? fs paths = some (path, text)) : fs.read path = .ok text := by
  induction paths with
  | nil => simp [firstReadable?] at hfound
  | cons candidate rest ih =>
    simp only [firstReadable?] at hfound
    split at hfound
    · cases hread : fs.read candidate with
      | ok content =>
        simp only [hread, Option.some.injEq, Prod.mk.injEq] at hfound
        rw [← hfound.1, ← hfound.2, hread]
      | error fault => exact ih (by simpa [hread] using hfound)
    · exact ih hfound

/-- A directive only ever finds files of the project. -/
theorem located_mem_locations {project : Option Project} {name path text : String}
    (hfound : lookup project name = some (path, text)) :
    located project path ∈ locations project := by
  cases project with
  | none => simp [lookup] at hfound
  | some p =>
    have hread := read_of_firstReadable? (by simpa [lookup] using hfound)
    obtain ⟨l, hlocate, hmember⟩ := mem_files_of_read hread
    simpa [located, locations, hlocate, Except.toOption] using hmember

variable [Yaml.EventSource]

/-- The first step of a directive: a value, or into the document of a file that is not yet on the
stack. -/
def enter (project : Option Project) (name : String) (frames : List Frame)
    (active : List Location) : State :=
  match lookup project name with
  | none => ⟨.value (placeholder name), frames, active⟩
  | some (path, raw) =>
    if active.contains (located project path) then ⟨.value (placeholder name), frames, active⟩
    else
      let text := Text.expandTabs tabWidth raw
      if isDocument path then
        match Yaml.read text with
        | .ok node => ⟨.node node, .leave :: frames, located project path :: active⟩
        | .error fault =>
          ⟨.value (faultValue ((Path.fileName? path).getD name) fault), frames, active⟩
      else ⟨.value (.text text), frames, active⟩

def step (project : Option Project) : State → Option State
  | ⟨.node .null, frames, active⟩ => some ⟨.value .null, frames, active⟩
  | ⟨.node (.bool b), frames, active⟩ => some ⟨.value (.bool b), frames, active⟩
  | ⟨.node (.number n), frames, active⟩ => some ⟨.value (.number n), frames, active⟩
  | ⟨.node (.text s), frames, active⟩ => some ⟨.value (.text s), frames, active⟩
  | ⟨.node (.list []), frames, active⟩ => some ⟨.value (.list []), frames, active⟩
  | ⟨.node (.list (n :: rest)), frames, active⟩ => some ⟨.node n, .item [] rest :: frames, active⟩
  | ⟨.node (.map entries), frames, active⟩ => some ⟨.fields entries, .wrap :: frames, active⟩
  | ⟨.node (.tagged tag inner), frames, active⟩ =>
    if tag == directiveTag then
      match inner with
      | .text name => some ⟨.directive (Text.trim name), frames, active⟩
      | _ => some ⟨.value .null, frames, active⟩
    else some ⟨.node inner, frames, active⟩
  | ⟨.fields [], frames, active⟩ => some ⟨.mapping [], frames, active⟩
  | ⟨.fields ((key, n) :: rest), frames, active⟩ =>
    some ⟨.node n, .entry [] key rest :: frames, active⟩
  | ⟨.directive name, frames, active⟩ => some (enter project name frames active)
  | ⟨.value v, .item done [] :: frames, active⟩ =>
    some ⟨.value (.list (done ++ [v])), frames, active⟩
  | ⟨.value v, .item done (n :: rest) :: frames, active⟩ =>
    some ⟨.node n, .item (done ++ [v]) rest :: frames, active⟩
  | ⟨.value v, .entry done key [] :: frames, active⟩ =>
    some ⟨.mapping (done ++ [(key, v)]), frames, active⟩
  | ⟨.value v, .entry done key ((next, n) :: rest) :: frames, active⟩ =>
    some ⟨.node n, .entry (done ++ [(key, v)]) next rest :: frames, active⟩
  | ⟨.value v, .leave :: frames, active⟩ => some ⟨.value v, frames, active.tail⟩
  | ⟨.mapping entries, .wrap :: frames, active⟩ => some ⟨.value (.map entries), frames, active⟩
  | _ => none

def Steps (project : Option Project) : State → State → Prop :=
  Relation.ReflTransGen fun s t => step project s = some t

theorem Steps.one {project : Option Project} {s t : State} (hstep : step project s = some t) :
    Steps project s t :=
  Relation.ReflTransGen.single hstep

theorem Steps.trans {project : Option Project} {s t u : State} (hfirst : Steps project s t)
    (hsecond : Steps project t u) : Steps project s u :=
  Relation.ReflTransGen.trans hfirst hsecond

/-- The value of a directive inside the files of a chain, at most `levels` files deep. -/
def expandWithin : Option Project → Nat → List Location → String → Value
  | none, _, _, name => placeholder name
  | some p, levels, active, name => expand p.files p.directory levels active name

/-- What a directive finds decides its value as it decides the first step of the machine. -/
theorem expandWithin_succ (project : Option Project) (levels : Nat) (active : List Location)
    (name : String) :
    expandWithin project (levels + 1) active name =
      match lookup project name with
      | none => placeholder name
      | some (path, raw) =>
        if active.contains (located project path) then placeholder name
        else if isDocument path then
          match Yaml.read (Text.expandTabs tabWidth raw) with
          | .ok node => resolve (expandWithin project levels (located project path :: active)) node
          | .error fault => faultValue ((Path.fileName? path).getD name) fault
        else .text (Text.expandTabs tabWidth raw) := by
  cases project <;> rfl

/-- The first step of a directive: it has a value at once, or it goes into the document of a file
of the project that is not on the stack, which it puts there. -/
theorem enter_cases (project : Option Project) (name : String) (active : List Location) :
    (∃ v, (∀ frames, enter project name frames active = ⟨.value v, frames, active⟩) ∧
      ∀ levels, expandWithin project (levels + 1) active name = v) ∨
    ∃ l node, l ∉ active ∧ l ∈ locations project ∧
      (∀ frames, enter project name frames active = ⟨.node node, .leave :: frames, l :: active⟩) ∧
      ∀ levels, expandWithin project (levels + 1) active name =
        resolve (expandWithin project levels (l :: active)) node := by
  simp only [expandWithin_succ, enter]
  cases hfound : lookup project name with
  | none => exact Or.inl ⟨placeholder name, fun _ => rfl, fun _ => rfl⟩
  | some file =>
    obtain ⟨path, raw⟩ := file
    by_cases hcyclic : located project path ∈ active
    · simp only [List.contains_iff_mem, hcyclic, if_true]
      exact Or.inl ⟨placeholder name, fun _ => rfl, fun _ => rfl⟩
    · simp only [List.contains_iff_mem, hcyclic, if_false]
      by_cases hdocument : isDocument path = true
      · simp only [hdocument, if_true]
        cases Yaml.read (Text.expandTabs tabWidth raw) with
        | error fault => exact Or.inl ⟨_, fun _ => rfl, fun _ => rfl⟩
        | ok node =>
          exact Or.inr ⟨located project path, node, hcyclic, located_mem_locations hfound,
            fun _ => rfl, fun _ => rfl⟩
      · simp only [hdocument]
        exact Or.inl ⟨_, fun _ => rfl, fun _ => rfl⟩

/-- All that a step can do to the stack: nothing, add a file of the project that is not on it yet,
or take the innermost file off. The frames keep count of the files. -/
theorem step_stack {project : Option Project} {s t : State} (hstep : step project s = some t) :
    (t.active = s.active ∧ depth t.frames = depth s.frames) ∨
    (∃ l, l ∉ s.active ∧ l ∈ locations project ∧ t.active = l :: s.active ∧
      depth t.frames = depth s.frames + 1) ∨
    (t.active = s.active.tail ∧ depth s.frames = depth t.frames + 1) := by
  unfold step at hstep
  split at hstep
  case h_11 name frames active =>
    cases hstep
    rcases enter_cases project name active with
      ⟨v, hentered, _⟩ | ⟨l, node, hnew, hfile, hentered, _⟩
    · rw [hentered]
      exact Or.inl ⟨rfl, rfl⟩
    · rw [hentered]
      exact Or.inr (Or.inl ⟨l, hnew, hfile, rfl, by simp [depth]⟩)
  case h_16 =>
    cases hstep
    exact Or.inr (Or.inr ⟨rfl, by simp [depth]⟩)
  case h_8 =>
    split at hstep
    · split at hstep <;> cases hstep <;> exact Or.inl ⟨rfl, rfl⟩
    · cases hstep
      exact Or.inl ⟨rfl, rfl⟩
  case h_18 => cases hstep
  all_goals
    cases hstep
    exact Or.inl ⟨rfl, by simp [depth]⟩

structure Invariant (project : Option Project) (s : State) : Prop where
  /-- Only files of the project are on the stack, each once. -/
  chain : Chain project s.active
  /-- The stack is as high as expansions are nested. -/
  height : depth s.frames = s.active.length

theorem Invariant.step {project : Option Project} {s t : State} (hinvariant : Invariant project s)
    (hstep : Include.step project s = some t) : Invariant project t := by
  obtain ⟨hchain, hheight⟩ := hinvariant
  rcases step_stack hstep with
    ⟨hsame, hlevel⟩ | ⟨l, hnew, hfile, hpushed, hlevel⟩ | ⟨hpopped, hlevel⟩
  · exact ⟨hsame ▸ hchain, by rw [hsame, hlevel, hheight]⟩
  · exact ⟨hpushed ▸ hchain.cons hnew hfile, by rw [hpushed, hlevel, hheight, List.length_cons]⟩
  · refine ⟨hpopped ▸ hchain.tail, ?_⟩
    rw [hpopped, List.length_tail]
    omega

theorem Invariant.steps {project : Option Project} {s t : State} (hinvariant : Invariant project s)
    (hrun : Steps project s t) : Invariant project t := by
  induction hrun with
  | refl => exact hinvariant
  | tail _ hstep ih => exact ih.step hstep

/-- The machine is a function, so of two states of one run one leads to the other. -/
theorem Steps.linear {project : Option Project} {s t u : State} (htoT : Steps project s t)
    (htoU : Steps project s u) : Steps project t u ∨ Steps project u t := by
  apply Relation.ReflTransGen.total_of_right_unique _ htoT htoU
  intro a b c hB hC
  exact Option.some.inj (hB.symm.trans hC)

/-- When a run ends, every state of it leads to the end. -/
theorem Steps.to_end {project : Option Project} {s t done : State} (hend : Steps project s done)
    (hended : step project done = none) (htoT : Steps project s t) : Steps project t done := by
  rcases htoT.linear hend with honwards | hback
  · exact honwards
  · rcases Relation.ReflTransGen.cases_head hback with hsame | ⟨next, hstep, _⟩
    · exact hsame ▸ .refl
    · rw [hended] at hstep
      cases hstep

end RamlScaffold.Include

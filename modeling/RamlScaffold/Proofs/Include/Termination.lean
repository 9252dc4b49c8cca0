import RamlScaffold.Proofs.Include.Machine

/-!
Expansion ends, and every call leaves the stack of files as it found it. The machine of
`Proofs.Include.Machine` has no bound on its steps; its runs are shown to return what `resolve` and
`expand` compute, by induction on the levels that are left and, inside one document, on the node.
The bound in `expand` is therefore never what ends an expansion, and the value of a directive is a
function of its name and of the files around it.
-/

namespace RamlScaffold.Include

theorem locations_length_le (project : Option Project) :
    (locations project).length ≤ (project.map (·.files.files.length)).getD 0 := by
  cases project with
  | none => exact Nat.le_refl 0
  | some p => simpa [locations] using (List.dedup_sublist (p.files.files.map (·.1))).length_le

variable [Yaml.EventSource]
variable {project : Option Project} {active : List Location} {expandHere : String → Value}

mutual

/-- A node returns its value, with the frames and the stack as they were, when directives do. -/
theorem node_returns
    (hdirectives : ∀ name frames, Steps project ⟨.directive name, frames, active⟩
      ⟨.value (expandHere name), frames, active⟩) (n : Yaml.Node) (frames : List Frame) :
    Steps project ⟨.node n, frames, active⟩ ⟨.value (resolve expandHere n), frames, active⟩ := by
  match n with
  | .null => exact .one rfl
  | .bool b => exact .one rfl
  | .number m => exact .one rfl
  | .text s => exact .one rfl
  | .list [] => exact .one rfl
  | .list (first :: rest) =>
    have henter : Steps project ⟨.node (.list (first :: rest)), frames, active⟩
        ⟨.node first, .item [] rest :: frames, active⟩ := .one rfl
    exact henter.trans ((node_returns hdirectives first _).trans
      (items_return hdirectives rest [] (resolve expandHere first) frames))
  | .map entries =>
    have henter : Steps project ⟨.node (.map entries), frames, active⟩
        ⟨.fields entries, .wrap :: frames, active⟩ := .one rfl
    exact henter.trans ((fields_return hdirectives entries (.wrap :: frames)).trans (.one rfl))
  | .tagged tag inner =>
    by_cases hdirective : (tag == directiveTag) = true
    · cases inner
      case text name =>
        have hcall : Steps project ⟨.node (.tagged tag (.text name)), frames, active⟩
            ⟨.directive (Text.trim name), frames, active⟩ := .one (by simp [step, hdirective])
        have hsame : resolve expandHere (.tagged tag (.text name)) =
            expandHere (Text.trim name) := by
          simp [resolve, hdirective]
        rw [hsame]
        exact hcall.trans (hdirectives (Text.trim name) frames)
      all_goals
        exact .one (by simp [step, resolve, hdirective])
    · have hplain : Steps project ⟨.node (.tagged tag inner), frames, active⟩
          ⟨.node inner, frames, active⟩ := .one (by simp [step, hdirective])
      have hsame : resolve expandHere (.tagged tag inner) = resolve expandHere inner := by
        simp [resolve, hdirective]
      rw [hsame]
      exact hplain.trans (node_returns hdirectives inner frames)
termination_by structural n

/-- A list goes on item by item from the value of one of them. -/
theorem items_return
    (hdirectives : ∀ name frames, Steps project ⟨.directive name, frames, active⟩
      ⟨.value (expandHere name), frames, active⟩) (rest : List Yaml.Node) (done : List Value)
    (v : Value) (frames : List Frame) :
    Steps project ⟨.value v, .item done rest :: frames, active⟩
      ⟨.value (.list (done ++ v :: resolveItems expandHere rest)), frames, active⟩ := by
  match rest with
  | [] => exact .one rfl
  | next :: rest =>
    have henter : Steps project ⟨.value v, .item done (next :: rest) :: frames, active⟩
        ⟨.node next, .item (done ++ [v]) rest :: frames, active⟩ := .one rfl
    have hothers := items_return hdirectives rest (done ++ [v]) (resolve expandHere next) frames
    simp only [List.append_assoc, List.singleton_append] at hothers
    exact henter.trans ((node_returns hdirectives next _).trans hothers)
termination_by structural rest

/-- The entries of a mapping return their values under their keys. -/
theorem fields_return
    (hdirectives : ∀ name frames, Steps project ⟨.directive name, frames, active⟩
      ⟨.value (expandHere name), frames, active⟩) (entries : List (String × Yaml.Node))
    (frames : List Frame) :
    Steps project ⟨.fields entries, frames, active⟩
      ⟨.mapping (resolveFields expandHere entries), frames, active⟩ := by
  match entries with
  | [] => exact .one rfl
  | (key, n) :: rest =>
    have henter : Steps project ⟨.fields ((key, n) :: rest), frames, active⟩
        ⟨.node n, .entry [] key rest :: frames, active⟩ := .one rfl
    exact henter.trans ((node_returns hdirectives n _).trans
      (entries_return hdirectives rest [] key (resolve expandHere n) frames))
termination_by structural entries

/-- A mapping goes on entry by entry from the value of one of them. -/
theorem entries_return
    (hdirectives : ∀ name frames, Steps project ⟨.directive name, frames, active⟩
      ⟨.value (expandHere name), frames, active⟩) (rest : List (String × Yaml.Node))
    (done : List (String × Value)) (key : String) (v : Value) (frames : List Frame) :
    Steps project ⟨.value v, .entry done key rest :: frames, active⟩
      ⟨.mapping (done ++ (key, v) :: resolveFields expandHere rest), frames, active⟩ := by
  match rest with
  | [] => exact .one rfl
  | (next, n) :: rest =>
    have henter : Steps project ⟨.value v, .entry done key ((next, n) :: rest) :: frames, active⟩
        ⟨.node n, .entry (done ++ [(key, v)]) next rest :: frames, active⟩ := .one rfl
    have hothers :=
      entries_return hdirectives rest (done ++ [(key, v)]) next (resolve expandHere n) frames
    simp only [List.append_assoc, List.singleton_append] at hothers
    exact henter.trans ((node_returns hdirectives n _).trans hothers)
termination_by structural rest

end

/-- The value of a directive inside the files of a chain, with as many levels as a document has. -/
def valueIn (project : Option Project) (active : List Location) (name : String) : Value :=
  expandWithin project ((project.map (·.files.files.length)).getD 0 + 1) active name

theorem expandIn_eq_valueIn (project : Option Project) : expandIn project = valueIn project [] := by
  funext name
  cases project <;> rfl

/-- With a level for each file that is not on the stack, and one more, a directive returns what
`expand` computes: the levels cannot run out before the files do. -/
theorem directive_returns (levels : Nat) (hchain : Chain project active)
    (henough : (locations project).length < levels + active.length)
    (name : String) (frames : List Frame) :
    Steps project ⟨.directive name, frames, active⟩
      ⟨.value (expandWithin project levels active name), frames, active⟩ := by
  induction levels generalizing active name frames with
  | zero =>
    have hbound := hchain.length_le
    omega
  | succ levels ih =>
    have hcall : Steps project ⟨.directive name, frames, active⟩
        (enter project name frames active) := .one rfl
    rcases enter_cases project name active with
      ⟨v, hentered, hvalue⟩ | ⟨l, node, hnew, hfile, hentered, hvalue⟩
    · rwa [hvalue, ← hentered frames]
    · have hdirectives := ih (hchain.cons hnew hfile) (by simp only [List.length_cons]; omega)
      have hbody := node_returns hdirectives node (.leave :: frames)
      rw [hentered] at hcall
      rw [hvalue]
      exact hcall.trans (hbody.trans (.one rfl))

theorem call_returns (hchain : Chain project active) (name : String) (frames : List Frame) :
    Steps project ⟨.directive name, frames, active⟩
      ⟨.value (valueIn project active name), frames, active⟩ := by
  apply directive_returns _ hchain
  have hbound := locations_length_le project
  omega

/-- What a call returns when directives have the values that `expandHere` gives. -/
def Control.returned (expandHere : String → Value) : Control → Control
  | .node n => .value (resolve expandHere n)
  | .fields entries => .mapping (resolveFields expandHere entries)
  | .directive name => .value (expandHere name)
  | .value v => .value v
  | .mapping entries => .mapping entries

/-- Every call that is made with files of the project on the stack returns, and then the frames and
the stack are as they were. -/
theorem control_returns (hchain : Chain project active) (call : Control) (frames : List Frame) :
    Steps project ⟨call, frames, active⟩
      ⟨call.returned (valueIn project active), frames, active⟩ := by
  cases call with
  | node n => exact node_returns (call_returns hchain) n frames
  | fields entries => exact fields_return (call_returns hchain) entries frames
  | directive name => exact call_returns hchain name frames
  | value v => exact .refl
  | mapping entries => exact .refl

/-- Expansion ends with what `resolve` computes, whatever the files include. At every moment of a
run no file is on the stack twice, expansions are nested no deeper than there are different files,
and the call that is being made returns with the stack as it is now. A directive that is met twice
under the same files has the same value both times. -/
theorem expansion_terminates (project : Option Project) (call : Control) :
    step project ⟨call.returned (expandIn project), [], []⟩ = none ∧
    (∀ s, Steps project ⟨call, [], []⟩ s →
      Steps project s ⟨call.returned (expandIn project), [], []⟩ ∧
      s.active.Nodup ∧ depth s.frames = s.active.length ∧
      depth s.frames ≤ (locations project).length ∧
      Steps project s ⟨s.control.returned (valueIn project s.active), s.frames, s.active⟩) ∧
    ∀ s t name, Steps project ⟨call, [], []⟩ s → Steps project ⟨call, [], []⟩ t →
      s.control = .directive name → t.control = .directive name → s.active = t.active →
      ∃ v, Steps project s ⟨.value v, s.frames, s.active⟩ ∧
        Steps project t ⟨.value v, t.frames, t.active⟩ := by
  have hended : step project ⟨call.returned (expandIn project), [], []⟩ = none := by
    cases call <;> rfl
  have hwhole := control_returns (Chain.nil project) call []
  rw [← expandIn_eq_valueIn] at hwhole
  have hinvariant (s : State) (hrun : Steps project ⟨call, [], []⟩ s) : Invariant project s :=
    Invariant.steps ⟨Chain.nil project, rfl⟩ hrun
  have hreturns (s : State) (hrun : Steps project ⟨call, [], []⟩ s) :
      Steps project s ⟨s.control.returned (valueIn project s.active), s.frames, s.active⟩ :=
    control_returns (hinvariant s hrun).chain s.control s.frames
  refine ⟨hended, ?_, ?_⟩
  · intro s hrun
    refine ⟨hwhole.to_end hended hrun, (hinvariant s hrun).chain.1, (hinvariant s hrun).height, ?_,
      hreturns s hrun⟩
    rw [(hinvariant s hrun).height]
    exact (hinvariant s hrun).chain.length_le
  · intro s t name hrunS hrunT hatS hatT hstack
    have hreturnsS := hreturns s hrunS
    have hreturnsT := hreturns t hrunT
    rw [hatS] at hreturnsS
    rw [hatT, ← hstack] at hreturnsT
    exact ⟨valueIn project s.active name, hreturnsS, hstack ▸ hreturnsT⟩

end RamlScaffold.Include

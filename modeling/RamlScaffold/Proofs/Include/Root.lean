import RamlScaffold.Proofs.Include.Graph
import RamlScaffold.Spec.Parse

/-!
The file that a description is loaded from. Its text is handed over without its path, so the stack
of files being expanded does not start with it, and a directive can open it once more. A chain that
starts with the file then holds it twice. This happens exactly when some directive that is met opens
the file; no other file is ever expanded inside itself.
-/

namespace RamlScaffold.Spec

open Include

/-- A chain with the loaded file at its root repeats a file only if it is the loaded one. -/
theorem nodup_append_root {project : Option Project} {active : List Location}
    (hchain : Chain project active) (root : Location) :
    (active ++ [root]).Nodup ↔ root ∉ active := by
  rw [List.nodup_append]
  simp only [hchain.1, List.nodup_singleton, List.mem_singleton, forall_eq, true_and]
  exact ⟨fun hne hroot => hne root hroot rfl, fun hnew a ha hsame => hnew (hsame ▸ ha)⟩

section Load

variable [Yaml.EventSource]

/-- The entries at the root of the description that a file holds. -/
def entries? (fs : FileSystem) (path : String) : Option (List (String × Yaml.Node)) :=
  match fs.read path with
  | .error _ => none
  | .ok text =>
    if Text.trim text == "" then none
    else
      match Yaml.read text with
      | .error _ => none
      | .ok node => (rootFields node).toOption

def projectOf (fs : FileSystem) (path : String) : Option Project :=
  some ⟨fs, projectDirectory path⟩

def start (entries : List (String × Yaml.Node)) : State := ⟨.fields entries, [], []⟩

theorem load_of_entries? {fs : FileSystem} {path : String} {entries : List (String × Yaml.Node)}
    (hentries : entries? fs path = some entries) :
    load fs path = .ok (ofFields (resolveFields (expandIn (projectOf fs path)) entries)) := by
  unfold entries? at hentries
  cases hread : fs.read path with
  | error fault => simp [hread] at hentries
  | ok text =>
    simp only [hread] at hentries
    split at hentries
    · cases hentries
    · next hblank =>
      cases hparsed : Yaml.read text with
      | error fault => simp [hparsed] at hentries
      | ok node =>
        cases hroot : rootFields node with
        | error kind => simp [hparsed, hroot, Except.toOption] at hentries
        | ok fields =>
          obtain rfl : fields = entries := by
            simpa [hparsed, hroot, Except.toOption] using hentries
          simp [load, Source.ofPath, hread, Source.parse, parse, hblank, hparsed, hroot,
            Source.project, projectOf, bind, Except.bind]

/-- Loading a file runs the machine from the entries at its root to their values. No file is on the
stack twice, and a directive that leads to a file on the stack gets its placeholder. Counting the
loaded file as the first of the chain, this stays so exactly if no directive opens it again. -/
theorem chain_nodup_iff (fs : FileSystem) (path : String) (entries : List (String × Yaml.Node))
    (hentries : entries? fs path = some entries) :
    let project := projectOf fs path
    let root := located project path
    let run := Steps project (start entries)
    (∃ values, run ⟨.mapping values, [], []⟩ ∧ load fs path = .ok (ofFields values)) ∧
    (∀ s, run s → s.active.Nodup ∧
      ∀ name l, s.control = .directive name → target? project name = some l → l ∈ s.active →
        step project s = some ⟨.value (placeholder name), s.frames, s.active⟩) ∧
    ((∀ s, run s → (s.active ++ [root]).Nodup) ↔
      ∀ name node, Met project (directivesOfFields entries) name →
        opened? project name ≠ some (root, node)) := by
  intro project root run
  have hchain (s : State) (hrun : run s) : Chain project s.active :=
    (Invariant.steps ⟨Chain.nil project, rfl⟩ hrun).chain
  refine ⟨?_, ?_, ?_⟩
  · refine ⟨_, ?_, load_of_entries? hentries⟩
    rw [expandIn_eq_valueIn]
    exact control_returns (Chain.nil project) (.fields entries) []
  · intro s hrun
    refine ⟨(hchain s hrun).1, ?_⟩
    intro name l hat htarget hactive
    obtain ⟨control, frames, active⟩ := s
    subst hat
    exact congrArg some (enter_of_mem htarget hactive frames)
  · have hexpanded := @expanded_iff _ project (.fields entries) root
    constructor
    · intro hnodup name node hmet hopened
      obtain ⟨s, hrun, hactive⟩ := hexpanded.mpr ⟨name, node, hmet, hopened⟩
      exact (nodup_append_root (hchain s hrun) root).mp (hnodup s hrun) hactive
    · intro hnever s hrun
      rw [nodup_append_root (hchain s hrun)]
      intro hactive
      obtain ⟨name, node, hmet, hopened⟩ := hexpanded.mp ⟨s, hrun, hactive⟩
      exact hnever name node hmet hopened

end Load

/-- A file that includes another, which includes itself by way of a link. -/
def innerLoop : FileSystem :=
  ⟨[(["a.raml"], .text "x: !include b.raml\n"), (["b.raml"], .text "y: !include c.raml\n")], [],
    [(["c.raml"], "./b.raml")], []⟩

/-- The second file is expanded once, and with the first one as its root the chain has no file
twice. -/
theorem chain_nodup_iff_innerLoop :
    ∃ entries values, entries? innerLoop "a.raml" = some entries ∧
      let project := projectOf innerLoop "a.raml"
      let run := Steps project (start entries)
      run ⟨.mapping values, [], []⟩ ∧ load innerLoop "a.raml" = .ok (ofFields values) ∧
      ∀ s, run s → (s.active ++ [located project "a.raml"]).Nodup := by
  have hasked : (entries? innerLoop "a.raml").map directivesOfFields = some ["b.raml"] := by
    decide +kernel
  have hfound : ["b.raml", "c.raml"].map (fun name =>
      (opened? (projectOf innerLoop "a.raml") name).map fun file => (file.1, directives file.2)) =
      [some (["b.raml"], ["c.raml"]), some (["b.raml"], ["c.raml"])] := by
    decide +kernel
  have hother : located (projectOf innerLoop "a.raml") "a.raml" ≠ ["b.raml"] := by decide +kernel
  have hinside {name : String} {l : Location} {node : Yaml.Node}
      (hname : name = "b.raml" ∨ name = "c.raml")
      (hopened : opened? (projectOf innerLoop "a.raml") name = some (l, node)) :
      l = ["b.raml"] ∧ directives node = ["c.raml"] := by
    simp only [List.map_cons, List.map_nil, List.cons.injEq, and_true] at hfound
    rcases hname with rfl | rfl
    · simpa [hopened] using hfound.1
    · simpa [hopened] using hfound.2
  obtain ⟨entries, hentries, hnames⟩ := Option.map_eq_some_iff.mp hasked
  obtain ⟨⟨values, hends, hloaded⟩, _, hchains⟩ := chain_nodup_iff _ _ entries hentries
  refine ⟨entries, values, hentries, hends, hloaded, hchains.mpr ?_⟩
  intro name found hmet
  have hname : name = "b.raml" ∨ name = "c.raml" := by
    induction hmet with
    | here hname => exact .inl (by simpa [hnames] using hname)
    | inside _ hopened hdirective ih =>
      rw [(hinside ih hopened).2] at hdirective
      exact .inr (by simpa using hdirective)
  intro hroot
  exact hother (hinside hname hroot).1

def selfIncluding : FileSystem :=
  ⟨[(["a.raml"], .text "types:\n  A: !include a.raml\n")], [], [], []⟩

/-- The file is expanded inside its own expansion: a chain that starts with it holds it twice, and
the directive that leads to it has a value other than its placeholder. -/
theorem loaded_file_reopened :
    ∃ entries, entries? selfIncluding "a.raml" = some entries ∧
      let project := projectOf selfIncluding "a.raml"
      let root := located project "a.raml"
      (∃ s, Steps project (start entries) s ∧ ¬(s.active ++ [root]).Nodup) ∧
      target? project "a.raml" = some root ∧
      expandIn project "a.raml" ≠ placeholder "a.raml" := by
  have hasked : (entries? selfIncluding "a.raml").map directivesOfFields = some ["a.raml"] := by
    decide +kernel
  have hfound : (opened? (projectOf selfIncluding "a.raml") "a.raml").map (·.1) =
      some (located (projectOf selfIncluding "a.raml") "a.raml") := by
    decide +kernel
  have hkeys : (expandIn (projectOf selfIncluding "a.raml") "a.raml").fields?.map Fields.keys ≠
      (placeholder "a.raml").fields?.map Fields.keys := by
    decide +kernel
  obtain ⟨entries, hentries, hnames⟩ := Option.map_eq_some_iff.mp hasked
  obtain ⟨⟨l, node⟩, hopened, rfl⟩ := Option.map_eq_some_iff.mp hfound
  refine ⟨entries, hentries, ?_, target?_of_opened? hopened, ?_⟩
  · have hmet : Met (projectOf selfIncluding "a.raml") (directivesOfFields entries) "a.raml" :=
      .here (by simp [hnames])
    obtain ⟨s, hrun, hactive⟩ := (expanded_iff (.fields entries) _).mpr ⟨_, node, hmet, hopened⟩
    refine ⟨s, hrun, ?_⟩
    have hchain := (Invariant.steps ⟨Chain.nil _, rfl⟩ hrun).chain
    rw [nodup_append_root hchain]
    exact fun hnew => hnew hactive
  · intro hsame
    exact hkeys (by rw [hsame])

end RamlScaffold.Spec

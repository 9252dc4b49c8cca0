import RamlScaffold.Spec.Parse

/-!
What files can do to a description. They are reached through directives only: a document has the
same value in two projects that give the same values to its directives. Whether there is a
description at all is decided by the text, before any directive is looked at.
-/

namespace RamlScaffold

mutual

/-- The tags on the values of a tree, in order. Keys are texts and carry none. -/
def Yaml.Node.tags : Yaml.Node → List String
  | .null => []
  | .bool _ => []
  | .number _ => []
  | .text _ => []
  | .list items => Yaml.tagsOfItems items
  | .map fields => Yaml.tagsOfFields fields
  | .tagged tag node => tag :: node.tags
termination_by structural n => n

def Yaml.tagsOfItems : List Yaml.Node → List String
  | [] => []
  | n :: rest => n.tags ++ Yaml.tagsOfItems rest
termination_by structural ns => ns

def Yaml.tagsOfFields : List (String × Yaml.Node) → List String
  | [] => []
  | (_, n) :: rest => n.tags ++ Yaml.tagsOfFields rest
termination_by structural fs => fs

end

namespace Include

/-- A tag other than that of directives asks for nothing. -/
theorem directives_annotated {tag : String} (hother : ¬ (tag == directiveTag) = true)
    (n : Yaml.Node) : directives (.tagged tag n) = directives n := by
  simp only [directives, hother]
  rfl

mutual

/-- Every directive carries the tag of directives. -/
theorem directives_eq_nil (n : Yaml.Node) (hnone : directiveTag ∉ n.tags) : directives n = [] := by
  match n with
  | .null | .bool _ | .number _ | .text _ => rfl
  | .list items => exact directivesOfItems_eq_nil items hnone
  | .map entries => exact directivesOfFields_eq_nil entries hnone
  | .tagged tag inner =>
    simp only [Yaml.Node.tags, List.mem_cons, not_or] at hnone
    have hother : ¬ (tag == directiveTag) = true := by simpa using Ne.symm hnone.1
    rw [directives_annotated hother]
    exact directives_eq_nil inner hnone.2
termination_by structural n

theorem directivesOfItems_eq_nil (items : List Yaml.Node)
    (hnone : directiveTag ∉ Yaml.tagsOfItems items) : directivesOfItems items = [] := by
  match items with
  | [] => rfl
  | first :: rest =>
    simp only [Yaml.tagsOfItems, List.mem_append, not_or] at hnone
    rw [directivesOfItems, directives_eq_nil first hnone.1,
      directivesOfItems_eq_nil rest hnone.2, List.append_nil]
termination_by structural items

theorem directivesOfFields_eq_nil (entries : List (String × Yaml.Node))
    (hnone : directiveTag ∉ Yaml.tagsOfFields entries) : directivesOfFields entries = [] := by
  match entries with
  | [] => rfl
  | (key, first) :: rest =>
    simp only [Yaml.tagsOfFields, List.mem_append, not_or] at hnone
    rw [directivesOfFields, directives_eq_nil first hnone.1,
      directivesOfFields_eq_nil rest hnone.2, List.append_nil]
termination_by structural entries

end

variable {one other : String → Value}

mutual

/-- A node has one value under two expansions that agree on its directives. -/
theorem resolve_congr (n : Yaml.Node) (hsame : ∀ name ∈ directives n, one name = other name) :
    resolve one n = resolve other n := by
  match n with
  | .null | .bool _ | .number _ | .text _ => rfl
  | .list items => exact congrArg Value.list (resolveItems_congr items hsame)
  | .map entries => exact congrArg Value.map (resolveFields_congr entries hsame)
  | .tagged tag inner =>
    by_cases hdirective : (tag == directiveTag) = true
    · cases inner
      case text name =>
        have hvalue := hsame (Text.trim name) (by simp [directives, hdirective])
        simpa only [resolve, hdirective, if_true] using hvalue
      all_goals simp only [resolve, hdirective, if_true]
    · rw [directives_annotated hdirective] at hsame
      simp only [resolve, hdirective]
      exact resolve_congr inner hsame
termination_by structural n

theorem resolveItems_congr (items : List Yaml.Node)
    (hsame : ∀ name ∈ directivesOfItems items, one name = other name) :
    resolveItems one items = resolveItems other items := by
  match items with
  | [] => rfl
  | first :: rest =>
    simp only [directivesOfItems, List.mem_append] at hsame
    rw [resolveItems, resolveItems, resolve_congr first fun name h => hsame name (Or.inl h),
      resolveItems_congr rest fun name h => hsame name (Or.inr h)]
termination_by structural items

theorem resolveFields_congr (entries : List (String × Yaml.Node))
    (hsame : ∀ name ∈ directivesOfFields entries, one name = other name) :
    resolveFields one entries = resolveFields other entries := by
  match entries with
  | [] => rfl
  | (key, first) :: rest =>
    simp only [directivesOfFields, List.mem_append] at hsame
    rw [resolveFields, resolveFields, resolve_congr first fun name h => hsame name (Or.inl h),
      resolveFields_congr rest fun name h => hsame name (Or.inr h)]
termination_by structural entries

end

end Include

namespace Spec

/-- The entries at the root hold the directives of the whole tree. -/
theorem directives_of_rootFields {node : Yaml.Node} {entries : List (String × Yaml.Node)}
    (hroot : rootFields node = .ok entries) :
    Include.directives node = Include.directivesOfFields entries := by
  fun_induction rootFields node with
  | case1 fields =>
    cases hroot
    rfl
  | case2 => cases hroot
  | case3 tag inner hother ih =>
    rw [Include.directives_annotated hother]
    exact ih hroot
  | _ => cases hroot

section Parse

variable [Yaml.EventSource]

/-- The entries at the root of a text, or why there is no description. No file has a part in it. -/
def rootOf (text : String) : Except ParseFault (List (String × Yaml.Node)) :=
  if Text.trim text == "" then .error (.format .emptyDocument)
  else
    match Yaml.read text with
    | .error fault => .error (.unreadable fault)
    | .ok node => (rootFields node).mapError .format

/-- Reading a description is reading its root and then building, and building cannot fail. -/
theorem parse_eq_map (text : String) (project : Option Include.Project) :
    parse text project = (rootOf text).map fun entries =>
      ofFields (Include.resolveFields (Include.expandIn project) entries) := by
  unfold parse rootOf
  by_cases hblank : (Text.trim text == "") = true
  · simp only [hblank, if_true, Except.map]
  · simp only [hblank]
    cases Yaml.read text with
    | error fault => rfl
    | ok node =>
      cases hroot : rootFields node with
      | error kind =>
        simp only [Bool.false_eq_true, if_false, hroot]
        rfl
      | ok entries =>
        simp only [Bool.false_eq_true, if_false, hroot]
        rfl

theorem parse_eq_error_iff (text : String) (project : Option Include.Project)
    (fault : ParseFault) : parse text project = .error fault ↔ rootOf text = .error fault := by
  rw [parse_eq_map]
  cases rootOf text <;> simp [Except.map]

/-- A text without a description is no document, or its root is no mapping. -/
theorem rootOf_fault {text : String} {fault : ParseFault} (hfault : rootOf text = .error fault) :
    (∃ found, fault = .format found) ∨ ∃ cause, fault = .unreadable cause := by
  unfold rootOf at hfault
  split at hfault
  · exact Or.inl ⟨_, (Except.error.inj hfault).symm⟩
  · split at hfault
    · exact Or.inr ⟨_, (Except.error.inj hfault).symm⟩
    · rename_i node _
      cases hroot : rootFields node with
      | error found =>
        rw [hroot] at hfault
        exact Or.inl ⟨found, (Except.error.inj hfault).symm⟩
      | ok entries =>
        rw [hroot] at hfault
        cases hfault

/-- A text has one description in two projects in which its directives have the same values. -/
theorem parse_congr {text : String} {node : Yaml.Node} (hread : Yaml.read text = .ok node)
    {one other : Option Include.Project}
    (hsame : ∀ name ∈ Include.directives node, Include.expandIn one name =
      Include.expandIn other name) : parse text one = parse text other := by
  rw [parse_eq_map, parse_eq_map]
  cases hroot : rootOf text with
  | error fault => rfl
  | ok entries =>
    have hentries : rootFields node = .ok entries := by
      unfold rootOf at hroot
      split at hroot
      · cases hroot
      · rw [hread] at hroot
        cases hfields : rootFields node with
        | error found =>
          simp only [hfields] at hroot
          cases hroot
        | ok fields =>
          simp only [hfields] at hroot
          have hsame : (Except.ok fields : Except ParseFault _) = .ok entries := hroot
          rw [Except.ok.inj hsame]
    rw [directives_of_rootFields hentries] at hsame
    simp only [Except.map, Include.resolveFields_congr entries hsame]

/-- Files do not decide whether a text has a description. With any two directories, or none, in any
two file systems, reading fails for the same reason or for none, and the reason lies in the text:
it is no document, or its root is no mapping. A text in whose tree no value is tagged as a directive
has the same description in both. -/
theorem files_never_decide (text : String) (directory directory' : Option String)
    (fs fs' : FileSystem) :
    let here := parse text (directory.map (Include.Project.mk fs))
    let there := parse text (directory'.map (Include.Project.mk fs'))
    (∀ fault, here = .error fault ↔ there = .error fault) ∧
    (∀ fault, here = .error fault →
      (∃ found, fault = .format found) ∨ ∃ cause, fault = .unreadable cause) ∧
    ∀ node, Yaml.read text = .ok node → Include.directiveTag ∉ node.tags → here = there := by
  intro here there
  refine ⟨?_, ?_, ?_⟩
  · intro fault
    rw [parse_eq_error_iff, parse_eq_error_iff]
  · intro fault hfault
    rw [parse_eq_error_iff] at hfault
    exact rootOf_fault hfault
  · intro node hread hnone
    apply parse_congr hread
    simp [Include.directives_eq_nil node hnone]

end Parse

/-- A tag on a key is dropped with the key's node, so the only tag of this text is another one and
a file with the name of the key changes nothing. -/
theorem files_never_decide_tagged_key :
    let text := "title: !note Shop\n!include /a:\n"
    let fs : FileSystem := ⟨[(["a"], .text "get: !include b\n")], [], [], []⟩
    (Yaml.read text).toOption.map Yaml.Node.tags = some ["note"] ∧
      parse text none = parse text (some ⟨fs, "."⟩) := by
  intro text fs
  have htags : (Yaml.read text).toOption.map Yaml.Node.tags = some ["note"] := by decide +kernel
  refine ⟨htags, ?_⟩
  cases hread : Yaml.read text with
  | error fault =>
    rw [hread] at htags
    cases htags
  | ok node =>
    rw [hread] at htags
    have hnone : Include.directiveTag ∉ node.tags := by
      rw [Option.some.inj htags]
      decide
    exact (files_never_decide text none (some ".") fs fs).2.2 node hread hnone

end Spec

end RamlScaffold

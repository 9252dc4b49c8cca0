import Mathlib.Data.List.Basic
import RamlScaffold.Proofs.Document.Order
import RamlScaffold.Validation.Report

/-!
What a report says about a set of artifacts, whatever the checker does. The set is accepted exactly
when the checker rejects none of its Python files. Otherwise the errors are the rejected files, each
once and in the order of the set, so the message about a set in order of its paths lists the
rejected paths in that order.
-/

namespace RamlScaffold.Report

open Fields

variable {check : SourceCheck} {files : Files} {path : String} {fault : Code.SyntaxFault}

def Rejected (check : SourceCheck) (files : Files) (path : String) (fault : Code.SyntaxFault) :
    Prop :=
  Text.endsWith ".py" path = true ∧ ∃ source, (path, source) ∈ files ∧ check source = .error fault

def rejection? (check : SourceCheck) (file : String × String) :
    Option (String × Code.SyntaxFault) :=
  if isPython file.1 then
    match check file.2 with
    | .error fault => some (file.1, fault)
    | .ok () => none
  else none

theorem rejection?_eq_some_iff {file : String × String} :
    rejection? check file = some (path, fault) ↔
      isPython path = true ∧ file.1 = path ∧ check file.2 = .error fault := by
  obtain ⟨p, source⟩ := file
  by_cases hpython : isPython p = true
  · cases hchecked : check source with
    | ok done => simp [rejection?, hpython, hchecked]
    | error found =>
      simp only [rejection?, hpython, hchecked, if_true, Option.some.injEq, Prod.mk.injEq,
        Except.error.injEq]
      constructor
      · rintro ⟨rfl, rfl⟩
        exact ⟨hpython, rfl, rfl⟩
      · rintro ⟨_, hpath, hfault⟩
        exact ⟨hpath, hfault⟩
  · have hnone : rejection? check (p, source) = none := by simp [rejection?, hpython]
    rw [hnone]
    constructor
    · intro hfound
      cases hfound
    · rintro ⟨hpython', rfl, _⟩
      exact absurd hpython' hpython

def rejections (check : SourceCheck) (files : Files) : List (String × Code.SyntaxFault) :=
  files.filterMap (rejection? check)

theorem mem_rejections_iff :
    (path, fault) ∈ rejections check files ↔ Rejected check files path fault := by
  simp only [rejections, List.mem_filterMap, rejection?_eq_some_iff]
  constructor
  · rintro ⟨⟨p, source⟩, hmember, hpython, rfl, hchecked⟩
    exact ⟨hpython, source, hmember, hchecked⟩
  · rintro ⟨hpython, source, hmember, hchecked⟩
    exact ⟨(path, source), hmember, hpython, rfl, hchecked⟩

theorem errors_ofFiles (check : SourceCheck) (files : Files) :
    (ofFiles check files).errors =
      (rejections check files).map fun (path, fault) => ⟨path, fault.place, fault.message⟩ := by
  simp only [ofFiles, pythonFiles, rejections, List.filterMap_map, List.filterMap_filter,
    List.map_filterMap]
  apply List.filterMap_congr
  rintro ⟨path, source⟩ _
  by_cases hpython : isPython path = true
  · cases hchecked : check source <;> simp [rejection?, inspect, error?, hpython, hchecked]
  · simp [rejection?, hpython]

theorem ok_ofFiles_iff :
    (ofFiles check files).ok = true ↔ ∀ path fault, ¬ Rejected check files path fault := by
  rw [ok, errors_ofFiles, List.isEmpty_map, List.isEmpty_iff, List.eq_nil_iff_forall_not_mem]
  simp only [Prod.forall, mem_rejections_iff]

/-- The checker accepts every Python file of a set that is accepted. -/
theorem check_of_ok (hok : (ofFiles check files).ok = true) {source : String}
    (hmember : (path, source) ∈ files) (hpython : Text.endsWith ".py" path = true) :
    check source = .ok () := by
  cases hchecked : check source with
  | ok done => rfl
  | error fault => exact absurd ⟨hpython, source, hmember, hchecked⟩ (ok_ofFiles_iff.mp hok _ _)

/-- A message lists the rejected files of a set: their number, and then a line for each of them, in
order of the paths. -/
structure Lists (check : SourceCheck) (files : Files) (message : String)
    (found : List (String × Code.SyntaxFault)) : Prop where
  rejected_iff : ∀ path fault, (path, fault) ∈ found ↔ Rejected check files path fault
  /-- Each path stands once. -/
  in_order : (found.map (·.1)).Pairwise (· < ·)
  message_eq : message = "Generated code failed validation with " ++ toString found.length ++
    " error(s)" ++ Text.concat (found.map fun (path, fault) =>
      "\n  " ++ (path ++ ":" ++ toString fault.place.line ++ ":" ++ toString fault.place.column ++
        ": " ++ fault.message))

theorem rejections_in_order (horder : InOrder files) :
    ((rejections check files).map (·.1)).Pairwise (· < ·) := by
  rw [List.pairwise_map, rejections, List.pairwise_filterMap]
  apply (List.pairwise_map.mp horder).imp
  rintro ⟨p, source⟩ ⟨q, source'⟩ hbefore ⟨path, fault⟩ hfound ⟨path', fault'⟩ hfound'
  obtain ⟨_, rfl, _⟩ := rejection?_eq_some_iff.mp hfound
  obtain ⟨_, rfl, _⟩ := rejection?_eq_some_iff.mp hfound'
  exact hbefore

theorem message_lists (horder : InOrder files) :
    Lists check files (ofFiles check files).message (rejections check files) where
  rejected_iff := fun _ _ => mem_rejections_iff
  in_order := rejections_in_order horder
  message_eq := by
    have hlines : ((ofFiles check files).errors.map fun f => "\n  " ++ f.text) =
        (rejections check files).map fun (path, fault) =>
          "\n  " ++ (path ++ ":" ++ toString fault.place.line ++ ":" ++
            toString fault.place.column ++ ": " ++ fault.message) := by
      rw [errors_ofFiles, List.map_map]
      apply List.map_congr_left
      rintro ⟨path, fault⟩ _
      simp only [Function.comp_apply, Finding.text]
    have hcount : (ofFiles check files).errors.length = (rejections check files).length := by
      rw [errors_ofFiles, List.length_map]
    unfold message headline
    rw [hcount, hlines]

end RamlScaffold.Report

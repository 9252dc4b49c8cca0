import Mathlib.Data.List.Induction
import RamlScaffold.Artifact.Files
import RamlScaffold.Client.Files
import RamlScaffold.Proofs.Document.Order
import RamlScaffold.Server.Files

/-!
Sets of artifacts seen through their paths. A set holds for each path the last artifact that was put
there. Artifacts with paths of their own are therefore all kept, each with its own text, and none of
them takes the place of another on the way.
-/

namespace RamlScaffold

namespace Fields

variable {α : Type}

theorem sorted_append_singleton (entries : List (String × α)) (entry : String × α) :
    sorted (entries ++ [entry]) = putSorted entry.1 entry.2 (sorted entries) := by
  simp [sorted]

/-- Of entries with one key the last one counts. -/
theorem get?_sorted (key : String) (entries : List (String × α)) :
    get? key (sorted entries) = get? key entries.reverse := by
  induction entries using List.reverseRecOn with
  | nil => rfl
  | append_singleton entries entry ih =>
    rw [sorted_append_singleton, get?_putSorted, ih, List.reverse_append, List.reverse_singleton,
      List.singleton_append, get?_cons]

theorem inOrder_sorted (entries : List (String × α)) : InOrder (sorted entries) := by
  induction entries using List.reverseRecOn with
  | nil => exact List.Pairwise.nil
  | append_singleton entries entry ih =>
    rw [sorted_append_singleton]
    exact ih.putSorted entry.1 entry.2

theorem mem_keys_sorted {key : String} {entries : List (String × α)} :
    key ∈ keys (sorted entries) ↔ key ∈ keys entries := by
  rw [← get?_isSome_iff, get?_sorted, get?_isSome_iff]
  simp [keys]

theorem mem_of_mem_sorted {entry : String × α} {entries : List (String × α)}
    (hentry : entry ∈ sorted entries) : entry ∈ entries := by
  have hfound := (mem_iff_get? (inOrder_sorted entries).nodup_keys).mp hentry
  rw [get?_sorted] at hfound
  exact List.mem_reverse.mp (mem_of_get? hfound)

end Fields

/-- Every line leaves its line break in the text. -/
theorem Source.render_eq_empty_iff {source : Source} : source.render = "" ↔ source = [] := by
  constructor
  · intro hempty
    cases source with
    | nil => rfl
    | cons line rest =>
      have hlength := congrArg String.length hempty
      simp [render, Text.concat] at hlength
  · rintro rfl
    rfl

namespace Files

open Fields

variable {artifacts : List (String × Source)} {path : String} {source : Source}

theorem ofSources_eq_sorted (artifacts : List (String × Source)) :
    ofSources artifacts = sorted (artifacts.map fun entry => (entry.1, entry.2.render)) := rfl

theorem inOrder_ofSources (artifacts : List (String × Source)) : InOrder (ofSources artifacts) :=
  inOrder_sorted _

theorem mem_keys_ofSources : path ∈ keys (ofSources artifacts) ↔ path ∈ artifacts.map (·.1) := by
  rw [ofSources_eq_sorted, mem_keys_sorted]
  simp [keys]

def Apart (artifacts : List (String × Source)) : Prop := (artifacts.map (·.1)).Nodup

theorem Apart.keys_perm (hapart : Apart artifacts) :
    (keys (ofSources artifacts)).Perm (artifacts.map (·.1)) := by
  refine (List.perm_ext_iff_of_nodup (inOrder_ofSources artifacts).nodup_keys hapart).mpr ?_
  intro path
  exact mem_keys_ofSources

theorem Apart.get?_of_mem (hapart : Apart artifacts) (hmember : (path, source) ∈ artifacts) :
    get? path (ofSources artifacts) = some source.render := by
  have hdistinct :
      (keys (artifacts.map fun entry => (entry.1, entry.2.render)).reverse).Nodup := by
    rw [keys, List.map_reverse, List.nodup_reverse, List.map_map]
    exact hapart
  rw [ofSources_eq_sorted, get?_sorted, ← mem_iff_get? hdistinct, List.mem_reverse, List.mem_map]
  exact ⟨_, hmember, rfl⟩

/-- What is put first gives way to what is put at its path later. -/
theorem get?_ofSources_cons (first : String × Source) (later : List (String × Source))
    (path : String) :
    get? path (ofSources (first :: later)) =
      (get? path (ofSources later)).or (get? path (ofSources [first])) := by
  simp only [ofSources_eq_sorted, get?_sorted, List.map_cons, List.reverse_cons, List.map_nil,
    List.reverse_nil, List.nil_append]
  induction (later.map fun entry => (entry.1, entry.2.render)).reverse with
  | nil => rfl
  | cons entry rest ih =>
    rw [List.cons_append, get?_cons, get?_cons, ih]
    split <;> rfl

/-- No artifact is put where another one is. -/
theorem Apart.put_new (hapart : Apart artifacts) {before after : List (String × Source)}
    (hsplit : artifacts = before ++ (path, source) :: after) :
    path ∉ keys (ofSources before) := by
  rw [mem_keys_ofSources]
  rw [Apart, hsplit, List.map_append, List.map_cons] at hapart
  intro hearlier
  exact (List.nodup_append.mp hapart).2.2 path hearlier path List.mem_cons_self rfl

end Files

theorem Server.generate_eq_ok_iff {settings : ServerSettings} {spec : Specification}
    {files : Files} :
    generate settings spec = .ok files ↔ settings.check = .ok () ∧
      files = .ofSources (artifacts (.ofSpecification settings spec)) := by
  rw [generate]
  cases hcheck : settings.check with
  | error fault => simp [bind, Except.bind]
  | ok done => simp [bind, Except.bind, pure, Except.pure, eq_comm]

theorem Client.generate_eq_ok_iff {settings : ClientSettings} {spec : Specification}
    {files : Files} :
    generate settings spec = .ok files ↔ settings.check = .ok () ∧
      files = .ofSources (artifacts (.ofSpecification settings spec)) := by
  rw [generate]
  cases hcheck : settings.check with
  | error fault => simp [bind, Except.bind]
  | ok done => simp [bind, Except.bind, pure, Except.pure, eq_comm]

end RamlScaffold

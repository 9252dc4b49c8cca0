import Mathlib.Data.List.Basic
import RamlScaffold.Storage.Path

/-!
Paths by the names between their slashes. A path is determined by its names, so paths are compared
name by name. In a tidy path only the last name has a point: the path leads through directories,
none of them empty or a step upwards, to a file. No directory has the name of a file then, so no
tidy path leads on from another one.
-/

namespace RamlScaffold

namespace Text

theorem cutAt_eq_splitOn (sep : Char) (cs : List Char) : cutAt sep cs = cs.splitOn sep := by
  induction cs with
  | nil => rfl
  | cons c rest ih =>
    rw [cutAt, List.splitOn_cons_eq_if_modifyHead, ← ih]
    split_ifs with hsep
    · rfl
    · cases hpieces : cutAt sep rest with
      | nil => exact absurd (ih.symm.trans hpieces) (List.splitOn_ne_nil sep rest)
      | cons piece pieces => rfl

/-- The pieces of a text determine it. -/
theorem splitOn_injective (sep : Char) : Function.Injective (splitOn sep) := by
  intro s t hsame
  have hpieces : cutAt sep s.toList = cutAt sep t.toList := by
    apply List.map_injective_iff.mpr _ hsame
    intro a b heq
    exact String.ofList_inj.mp heq
  have hjoined (u : String) : [sep].intercalate (cutAt sep u.toList) = u.toList := by
    rw [cutAt_eq_splitOn, List.intercalate_splitOn]
  apply String.toList_inj.mp
  rw [← hjoined s, hpieces, hjoined t]

theorem splitOn_of_append {sep : Char} {text first rest : String}
    (htext : text.toList = first.toList ++ sep :: rest.toList) :
    splitOn sep text = splitOn sep first ++ splitOn sep rest := by
  simp only [splitOn, cutAt_eq_splitOn]
  rw [htext, List.splitOn_append_cons_self, List.map_append]

theorem splitOn_plain {sep : Char} {name : String} (hplain : sep ∉ name.toList) :
    splitOn sep name = [name] := by
  rw [splitOn, cutAt_eq_splitOn, List.splitOn_eq_singleton hplain]
  simp

/-- The first piece of a text is what stands before the first separator. -/
theorem cutAt_eq_cons (sep : Char) (cs : List Char) :
    ∃ pieces, cutAt sep cs = cs.takeWhile (· != sep) :: pieces := by
  induction cs with
  | nil => exact ⟨[], rfl⟩
  | cons c rest ih =>
    obtain ⟨pieces, hpieces⟩ := ih
    by_cases hsep : c = sep
    · exact ⟨cutAt sep rest, by simp [cutAt, hsep]⟩
    · exact ⟨pieces, by simp [cutAt, hsep, hpieces]⟩

/-- No piece of a text has the separator in it. -/
theorem not_mem_of_mem_splitOn {sep : Char} {text piece : String}
    (hpiece : piece ∈ splitOn sep text) : sep ∉ piece.toList := by
  have hcut : ∀ cs, ∀ chars ∈ cutAt sep cs, sep ∉ chars := by
    intro cs
    fun_induction cutAt sep cs with
    | case1 => simp
    | case2 c rest _ ih => simpa using ih
    | case3 c rest hother _ _ =>
      rw [beq_iff_eq] at hother
      simp [Ne.symm hother]
    | case4 c rest hother first pieces hrest ih =>
      rw [hrest, List.forall_mem_cons] at ih
      rw [beq_iff_eq] at hother
      exact List.forall_mem_cons.mpr ⟨by simp [Ne.symm hother, ih.1], ih.2⟩
  obtain ⟨chars, hchars, rfl⟩ := List.mem_map.mp hpiece
  rw [String.toList_ofList]
  exact hcut _ chars hchars

theorem splitOn_joinWith {sep : Char} {separator : String} (hsep : separator.toList = [sep])
    {words : List String} (hwords : words ≠ []) (hplain : ∀ word ∈ words, sep ∉ word.toList) :
    splitOn sep (joinWith separator words) = words := by
  induction words with
  | nil => exact absurd rfl hwords
  | cons word rest ih =>
    have hword := splitOn_plain (hplain word List.mem_cons_self)
    cases rest with
    | nil => exact hword
    | cons next rest =>
      have hrest := ih (by simp) fun other hother => hplain other (List.mem_cons_of_mem word hother)
      have hjoined : (joinWith separator (word :: next :: rest)).toList =
          word.toList ++ sep :: (joinWith separator (next :: rest)).toList := by
        simp [joinWith, hsep]
      rw [splitOn_of_append hjoined, hword, hrest]
      rfl

/-- A text is its pieces with the separator between them. -/
theorem joinWith_splitOn {sep : Char} {separator : String} (hsep : separator.toList = [sep])
    (text : String) : joinWith separator (splitOn sep text) = text := by
  apply splitOn_injective sep
  apply splitOn_joinWith hsep
  · rw [splitOn, cutAt_eq_splitOn, ne_eq, List.map_eq_nil_iff]
    exact List.splitOn_ne_nil _ _
  · exact fun piece hpiece => not_mem_of_mem_splitOn hpiece
end Text

namespace Path

theorem splitOn_below (directory path : String) :
    Text.splitOn '/' (directory ++ "/" ++ path) =
      Text.splitOn '/' directory ++ Text.splitOn '/' path :=
  Text.splitOn_of_append (by simp)

theorem splitOn_name {name : String} (hplain : '/' ∉ name.toList) :
    Text.splitOn '/' name = [name] :=
  Text.splitOn_plain hplain

/-- A path is not absolute when none of its names is empty. -/
theorem not_isAbsolute {path : String} (hnames : ∀ name ∈ Text.splitOn '/' path, name ≠ "") :
    isAbsolute path = false := by
  cases hchars : path.toList with
  | nil => simp [isAbsolute, hchars]
  | cons c rest =>
    have hfirst : c ≠ '/' := by
      rintro rfl
      have hempty : "" ∈ Text.splitOn '/' path := by simp [Text.splitOn, Text.cutAt, hchars]
      exact hnames "" hempty rfl
    simp [isAbsolute, hchars, hfirst]

/-- The names of a path are its components when none of them is empty or a step. -/
theorem components_eq_map_name {path : String}
    (hnames : ∀ name ∈ Text.splitOn '/' path, name ≠ "" ∧ name ≠ "." ∧ name ≠ "..") :
    components path = (Text.splitOn '/' path).map .name := by
  have hrelative := not_isAbsolute fun name hname => (hnames name hname).1
  have hbody : (Text.splitOn '/' path).filter (fun p => p != "" && p != ".") =
      Text.splitOn '/' path := by
    apply List.filter_eq_self.mpr
    intro name hname
    obtain ⟨hempty, hhere, _⟩ := hnames name hname
    simp [hempty, hhere]
  have hstart : (Text.splitOn '/' path).head? ≠ some "." := by
    intro hhere
    exact (hnames "." (List.mem_of_head? hhere)).2.1 rfl
  simp only [components, hrelative, Bool.false_eq_true, if_false, hbody, beq_iff_eq, hstart,
    List.nil_append]
  apply List.map_congr_left
  intro name hname
  exact if_neg (hnames name hname).2.2

def isDirectoryName (name : String) : Bool := name != "" && !name.toList.contains '.'

def isFileName (name : String) : Bool := name.toList.contains '.' && name != "." && name != ".."

/-- Names of directories, and then that of a file. -/
def isTidy : List String → Bool
  | [] => false
  | [file] => isFileName file
  | directory :: rest => isDirectoryName directory && isTidy rest

theorem isTidy_cons {directory : String} {rest : List String}
    (hdirectory : isDirectoryName directory = true) (hrest : isTidy rest = true) :
    isTidy (directory :: rest) = true := by
  cases rest with
  | nil => cases hrest
  | cons next later => simp [isTidy, hdirectory, hrest]

theorem safe_of_isTidy {names : List String} (htidy : isTidy names = true) :
    ∀ name ∈ names, name ≠ "" ∧ name ≠ "." ∧ name ≠ ".." := by
  fun_induction isTidy names with
  | case1 => cases htidy
  | case2 file =>
    intro name hname
    obtain rfl : name = file := by simpa using hname
    refine ⟨?_, ?_, ?_⟩ <;> rintro rfl <;> exact absurd htidy (by decide)
  | case3 directory rest hmore ih =>
    rw [Bool.and_eq_true] at htidy
    rw [List.forall_mem_cons]
    refine ⟨⟨?_, ?_, ?_⟩, ih htidy.2⟩ <;> rintro rfl <;> exact absurd htidy.1 (by decide)

theorem not_directory_of_file {name : String} (hfile : isFileName name = true) :
    isDirectoryName name = false := by
  simp only [isFileName, Bool.and_eq_true] at hfile
  rw [isDirectoryName, hfile.1.1, Bool.not_true, Bool.and_false]

/-- A tidy path that leads on from another one is that path. -/
theorem eq_of_prefix_of_isTidy {names others : List String} (hnames : isTidy names = true)
    (hothers : isTidy others = true) (hleads : names <+: others) : names = others := by
  fun_induction isTidy names generalizing others with
  | case1 => cases hnames
  | case2 file =>
    obtain ⟨rest, rfl⟩ := hleads
    cases rest with
    | nil => rfl
    | cons next later =>
      have hboth : isDirectoryName file = true := by
        simp only [List.singleton_append, isTidy, Bool.and_eq_true] at hothers
        exact hothers.1
      rw [not_directory_of_file hnames] at hboth
      cases hboth
  | case3 directory rest hmore ih =>
    obtain ⟨after, rfl⟩ := hleads
    obtain ⟨next, later, rfl⟩ := List.exists_cons_of_ne_nil hmore
    simp only [List.cons_append, isTidy, Bool.and_eq_true] at hnames hothers
    have hrest := ih hnames.2 hothers.2 (List.prefix_append (next :: later) after)
    exact congrArg (directory :: ·) hrest

end Path

end RamlScaffold

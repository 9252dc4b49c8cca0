import RamlScaffold.Proofs.Server.Modules

/-!
Imports in the modules that a server has once. Each module is gone through line by line. Lines of
fixed text name only modules that are known, and no text of a description makes an import.
-/

namespace RamlScaffold.Server

open Line Source
open Code (isIdentifier)

variable {index : ModuleIndex} {snakes : List String}

/-- A line of fixed text. -/
theorem Serves.line (hserves : Serves index snakes) {text : String} {cs : List Char}
    {rest : Source} (htext : text = .ofList cs)
    (hfixed : isFixedLine (ownModules ++ otherModules) cs = true)
    (hrest : Source.Resolved index rest) : Source.Resolved index ([.code text] :: rest) :=
  .cons (hserves.known.fixed htext hfixed) hrest

/-- A line that imports from the package of a group or one of its modules. -/
theorem resolved_groupImport {snake text : String} (tail names : String) {rest : Line}
    (hsnake : isIdentifier snake = true) (htext : text = tail ++ " import " ++ names)
    (htail : tail.toList.all ImportLine.isNameRest = true) (hnames : Clean names)
    (hlacks : index.lacks (ModuleName.ofText ("app.resources." ++ snake ++ tail)) = false)
    (hrest : Single rest) :
    Line.Resolved index (.code "from app.resources." :: .code snake :: .code text :: rest) := by
  have hwhole : "from app.resources." ++ snake ++ text =
      "from " ++ ("app.resources." ++ snake ++ tail) ++ " import " ++ names := by
    apply String.toList_inj.mp
    simp [htext]
  have hdotted : IsDotted ("app.resources." ++ snake ++ tail) := by
    refine ⟨'a', "pp.resources.".toList ++ snake.toList ++ tail.toList, by simp, rfl, ?_⟩
    have hfixed : "pp.resources.".toList.all ImportLine.isNameRest = true := by decide
    simp only [List.forall_mem_append]
    refine ⟨⟨List.all_eq_true.mp hfixed, ?_⟩, List.all_eq_true.mp htail⟩
    intro c hc
    exact ImportLine.isNameRest_of_identifierChar (Code.isIdentifierChar_of_mem hsnake hc)
  apply Resolved.fuse
  apply Resolved.fuse
  rw [hwhole]
  exact .imports hdotted hnames hlacks hrest

section GroupImports

variable {snake : String} (hserves : Serves index snakes) (hmember : snake ∈ snakes)
  (hsnake : isIdentifier snake = true)

include hserves hmember hsnake

theorem resolved_packageImport {rest : Line} (hrest : Single rest) :
    Line.Resolved index
      (.code "from app.resources." :: .code snake :: .code " import routes as " :: rest) := by
  have hmodule : ModuleName.ofText ("app.resources." ++ snake ++ "") =
      ["app", "resources", snake] := by
    rw [String.append_empty, ofText_below, ofText_identifier hsnake]
  refine resolved_groupImport "" "routes as " hsnake rfl rfl (clean_fixed rfl rfl) ?_ hrest
  rw [hmodule]
  exact ModuleIndex.not_lacks_of_provides (hserves.package snake hmember)

theorem resolved_partImport (part : String) {text : String} (hpart : part ∈ groupParts)
    (htext : text = "." ++ part ++ " import ") {rest : Line} (hrest : Single rest) :
    Line.Resolved index (.code "from app.resources." :: .code snake :: .code text :: rest) := by
  have hmodule : ModuleName.ofText ("app.resources." ++ snake ++ ("." ++ part)) =
      ["app", "resources", snake, part] := by
    have hdivided : ModuleName.ofText (snake ++ ("." ++ part)) =
        ModuleName.ofText snake ++ ModuleName.ofText part := Text.splitOn_of_append (by simp)
    have hnames : groupParts.all (fun part => ModuleName.ofText part == [part]) = true := by decide
    have hname := List.all_eq_true.mp hnames part hpart
    rw [String.append_assoc, ofText_below, hdivided, ofText_identifier hsnake, eq_of_beq hname]
    rfl
  have hchars : groupParts.all (fun part => ("." ++ part).toList.all ImportLine.isNameRest) =
      true := by decide
  refine resolved_groupImport ("." ++ part) "" hsnake (by rw [htext, String.append_empty])
    (List.all_eq_true.mp hchars part hpart) (clean_fixed rfl rfl) ?_ hrest
  rw [hmodule]
  exact ModuleIndex.not_lacks_of_provides (hserves.parts snake hmember part hpart)

end GroupImports

theorem resolved_applicationModule (hserves : Serves index snakes) (c : Context)
    (hversion : Enclosable c.settings.apiVersion) :
    Source.Resolved index (applicationModule c) := by
  refine .join_cons ?_ <| .join_cons (.when (hserves.line rfl rfl .nil) _) <| .join_cons ?_ <|
    .join_cons (.when (hserves.line rfl rfl .nil) _) <| .join_cons ?_ <|
    .join_cons (.when (hserves.line rfl rfl .nil) _) <|
    .join_cons (.when (hserves.line rfl rfl .nil) _) <| .join_cons ?_ .nil
  · refine .cons (.docstring rfl rfl rfl) ?_
    repeat refine hserves.line rfl rfl ?_
    exact .nil
  · repeat refine hserves.line rfl rfl ?_
    exact .nil
  · repeat refine hserves.line rfl rfl ?_
    refine .cons (.indent rfl rfl (.docstring rfl rfl rfl)) ?_
    repeat refine hserves.line rfl rfl ?_
    exact .nil
  · repeat refine hserves.line rfl rfl ?_
    refine .cons (.enclosed rfl rfl hversion rfl rfl) ?_
    repeat refine hserves.line rfl rfl ?_
    exact .nil

theorem resolved_configModule (hserves : Serves index snakes) (c : Context) :
    Source.Resolved index (configModule c) := by
  refine .join_cons ?_ <| .join_cons (.when (hserves.line rfl rfl .nil) _) <|
    .join_cons (.when (hserves.line rfl rfl .nil) _) <| .join_cons ?_ .nil
  · refine .cons (.docstring rfl rfl rfl) ?_
    repeat refine hserves.line rfl rfl ?_
    refine .cons (.indent rfl rfl (.docstring rfl rfl rfl)) ?_
    repeat refine hserves.line rfl rfl ?_
    exact .cons (.headed rfl rfl (.literal .nil .nil)) <|
      .cons (.headed rfl rfl (.literal .nil .nil)) .nil
  · repeat refine hserves.line rfl rfl ?_
    refine .cons (.indent rfl rfl (.docstring rfl rfl rfl)) ?_
    repeat refine hserves.line rfl rfl ?_
    refine .cons (.indent rfl rfl (.docstring rfl rfl rfl)) ?_
    repeat refine hserves.line rfl rfl ?_
    refine .cons (.indent rfl rfl (.docstring rfl rfl rfl)) ?_
    repeat refine hserves.line rfl rfl ?_
    exact .nil

theorem resolved_extensionsModule (hserves : Serves index snakes) (c : Context) :
    Source.Resolved index (extensionsModule c) := by
  refine .join_cons (.cons (.docstring rfl rfl rfl) .nil) <| .join_cons (.when ?_ _) .nil
  repeat refine hserves.line rfl rfl ?_
  exact .nil

theorem resolved_databaseModule (hserves : Serves index snakes) :
    Source.Resolved index databaseModule := by
  refine .cons (.docstring rfl rfl rfl) ?_
  repeat refine hserves.line rfl rfl ?_
  exact .nil

theorem resolved_errorsModule : Source.Resolved index errorsModule :=
  .cons (.docstring rfl rfl rfl) .nil

theorem resolved_handlersModule (hserves : Serves index snakes) :
    Source.Resolved index handlersModule := by
  refine .cons (.docstring rfl rfl rfl) ?_
  repeat refine hserves.line rfl rfl ?_
  refine .cons (.indent rfl rfl (.docstring rfl rfl rfl)) ?_
  repeat refine hserves.line rfl rfl ?_
  exact .nil

theorem resolved_requestModule (hserves : Serves index snakes) :
    Source.Resolved index requestModule := by
  refine .cons (.docstring rfl rfl rfl) ?_
  repeat refine hserves.line rfl rfl ?_
  refine .cons (.indent rfl rfl (.docstring rfl rfl rfl)) ?_
  repeat refine hserves.line rfl rfl ?_
  refine .cons (.indent rfl rfl (.docstring rfl rfl rfl)) ?_
  repeat refine hserves.line rfl rfl ?_
  exact .nil

theorem resolved_blueprintModule (hserves : Serves index snakes) (c : Context)
    (hgroups : ∀ g ∈ c.groups, g.name.snake ∈ snakes ∧ isIdentifier g.name.snake = true) :
    Source.Resolved index (blueprintModule c) := by
  refine .join_cons ?_ <| .join_cons (.each fun g hg => ?_) <| .join_cons ?_ <|
    .join_cons (.each fun g hg => ?_) .nil
  · refine .cons (.docstring rfl rfl rfl) ?_
    repeat refine hserves.line rfl rfl ?_
    exact .nil
  · obtain ⟨hmember, hsnake⟩ := hgroups g hg
    exact .cons (resolved_packageImport hserves hmember hsnake
      (.name hsnake <| .text rfl rfl .nil)) .nil
  · repeat refine hserves.line rfl rfl ?_
    refine .cons (.indent rfl rfl (.docstring rfl rfl rfl)) ?_
    refine .cons (.headed rfl rfl <| .literal (.fixed rfl rfl) <| .text rfl rfl .nil) ?_
    repeat refine hserves.line rfl rfl ?_
    exact .nil
  · obtain ⟨_, hsnake⟩ := hgroups g hg
    exact .cons (.headed rfl rfl <| .name hsnake <| .text rfl rfl <| .name hsnake <|
      .text rfl rfl .nil) .nil

theorem resolved_runScript (hserves : Serves index snakes) (c : Context) :
    Source.Resolved index (runScript c) := by
  refine .cons (.docstring rfl rfl rfl) ?_
  repeat refine hserves.line rfl rfl ?_
  exact .nil

theorem resolved_wsgiScript (hserves : Serves index snakes) (c : Context) :
    Source.Resolved index (wsgiScript c) := by
  refine .cons (.docstring rfl rfl rfl) ?_
  repeat refine hserves.line rfl rfl ?_
  exact .nil

def resourcesLines (c : Context) : Source :=
  "Resource packages" :: each c.groups fun g =>
    ["",
     [g.name.snake, ": ", g.name.pascal]]

/-- The package of resources is one docstring over several lines. -/
theorem render_resourcesModule (c : Context) : (resourcesModule c).render =
    render [[.docstring ("\n" ++ render (resourcesLines c)) "" ""]] := by
  have hsplit : resourcesModule c =
      [.code "\"\"\""] :: (resourcesLines c ++ [[.code "\"\"\""]]) := by
    simp [resourcesModule, resourcesLines, join]
  have hempty : Code.docstring "" = "" := by decide
  apply String.toList_inj.mp
  rw [hsplit, toList_render_cons, toList_render_append, toList_render_cons]
  simp [Line.text, Piece.render, Text.concat, render, hempty]

theorem isLongPlain_resourcesLines (c : Context) (hgroups : ∀ g ∈ c.groups, g.WellNamed) :
    (render (resourcesLines c)).toList.all Code.Mode.isLongPlain = true := by
  have hname {name : String} (hform : isIdentifier name = true) :
      name.toList.all Code.Mode.isLongPlain = true := by
    rw [List.all_eq_true]
    intro d hd
    have hchar := Code.isIdentifierChar_of_mem hform hd
    have hquote : d ≠ '"' := by rintro rfl; exact absurd hchar (by decide)
    have hescape : d ≠ '\\' := by rintro rfl; exact absurd hchar (by decide)
    simp [Code.Mode.isLongPlain, hquote, hescape]
  apply all_render
  refine List.forall_mem_cons.mpr ⟨by decide, ?_⟩
  intro line hline
  obtain ⟨g, hg, hmem⟩ := List.mem_flatMap.mp hline
  rcases List.mem_cons.mp hmem with rfl | hlast
  · decide
  · obtain rfl := List.mem_singleton.mp hlast
    simp only [text_cons, text_nil, Piece.render, List.all_append, hname (hgroups g hg).snake.form,
      hname (hgroups g hg).pascal.form]
    decide

theorem unresolved_resourcesModule (c : Context) (hgroups : ∀ g ∈ c.groups, g.WellNamed)
    (path : String) :
    index.unresolved path (Code.skeleton (resourcesModule c).render) = [] := by
  have hplain : ("\n" ++ render (resourcesLines c)).toList.all Code.Mode.isLongPlain = true := by
    rw [String.toList_append, List.all_append, isLongPlain_resourcesLines c hgroups]
    decide
  rw [render_resourcesModule]
  apply Resolved.unresolved_eq_nil
  refine .cons (.docstring (String.ofList_toList).symm rfl ?_) .nil
  rwa [List.append_nil]

theorem resolved_testsModule (c : Context) : Source.Resolved index (testsModule c) :=
  .cons (.docstring rfl rfl rfl) .nil

theorem resolved_fixtures (hserves : Serves index snakes) (c : Context) :
    Source.Resolved index (fixtures c) := by
  refine .join_cons (.cons (.docstring rfl rfl rfl) (hserves.line rfl rfl .nil)) <|
    .join_cons (.when (hserves.line rfl rfl .nil) _) <| .join_cons ?_ <| .join_cons ?_ .nil
  · repeat refine hserves.line rfl rfl ?_
    exact .nil
  · split
    · exact hserves.line rfl rfl <| hserves.line rfl rfl .nil
    · exact hserves.line rfl rfl .nil

end RamlScaffold.Server

import RigPack.Proofs.Export.Lines

/-!
# References of an exported pack

The functions of an exported pack refer to each other by name.  Here their lines are read, with
no knowledge of what wrote them, and what they are found to refer to is looked up in the pack by
its name.  Two kinds of text come from users: the commands of a frame, which are a function of
their own and are left out, and the conditions in front of calls, which may spell a list of the
game's own.  A line that a text of a user breaks is no longer the line of one command
(`Project.OneLined`); as it was written, it is read all the same.

## Main statements

* `references_resolve`: every line of a function is read, and refers to what the pack has; a
  message names the function in whose file it stands.  The functions that the game is told to run
  are there, too.
-/

namespace RigPack

/-- Whether a file is the one of the commands that a user wrote for a frame. -/
def Project.IsFrameCommands (project : Project) (path : List String) (name : String) : Prop :=
  ∃ animation ∈ project.animations, ∃ index : Nat,
    path = ["data", "zzz_" ++ project.space ++ "_internal", "functions", "animations",
      animation.name, "tree"] ∧
    name = "leaf_" ++ toString index ++ "_commands" ++ ".mcfunction"

/-- Whether a text is a condition of a frame, without the blanks around it. -/
def Project.HasCondition (project : Project) (text : String) : Prop :=
  ∃ animation ∈ project.animations, ∃ frame ∈ animation.frames,
    ∃ condition ∈ frame.conditions, text = Text.trim condition

/-- Whether a command, read from a line of a file, refers to what a pack has. -/
structure Command.RefersWithin (project : Project) (pack : Folder) (file line : String)
    (command : Command) : Prop where
  callees : ∀ callee ∈ command.callees, callee.Resolves pack
  /-- A list of types is in the pack, or a user spelled it in the condition of this line. -/
  groups : ∀ group ∈ command.groups,
    (pack.resource? "tags/entity_types" ".json" group.text).isSome = true ∨
    ∃ condition, project.HasCondition condition ∧
      ("execute " ++ condition ++ " run ").toList <+: line.toList ∧
      ("type=#" ++ group.text).toList <:+: condition.toList
  /-- What is no clause of a form that is known here was written by a user. -/
  unknown : ∀ text ∈ command.unknown, project.HasCondition text
  messages : ∀ message ∈ command.messages, ∃ function,
    Json.namedFunction? message = some function ∧
    resourceFile? "functions" ".mcfunction" function = some file

/-- The lines of a function, found by its place. -/
def Folder.lines? (pack : Folder) (path : List String) (name : String) : Option (List String) :=
  match pack.file? path name with
  | some ⟨_, .commands list⟩ => some (list.map Command.text)
  | _ => none

theorem Folder.exists_file_of_lines? {pack : Folder} {path : List String} {name : String}
    {lines : List String} (h : pack.lines? path name = some lines) :
    ∃ file list, pack.file? path name = some file ∧ file.content = .commands list ∧
      list.map Command.text = lines := by
  unfold lines? at h
  split at h
  · rename_i name list hfile
    exact ⟨_, list, hfile, rfl, Option.some.inj h⟩
  · contradiction

namespace Blueprint

open Placement

/-- The conditions in a blueprint are those of its project. -/
theorem hasCondition_of_ofProject {project : Project} {blueprint : Blueprint}
    (h : ofProject project = .ok blueprint) {text : String} (htext : blueprint.HasCondition text) :
    project.HasCondition text := by
  obtain ⟨variants, -, -, -, hmotions⟩ := Export.ofProject_eq_ok h
  obtain ⟨motion, hmotion, index, keyframe, hleaf, condition, hcondition, rfl⟩ := htext
  obtain ⟨animation, hanimation, hok⟩ := exists_left_of_forall₂ hmotions hmotion
  obtain ⟨frame, hindex, rfl⟩ := (hasLeaf_ofAnimation_iff hok).1 hleaf
  exact ⟨animation, hanimation, frame, List.mem_of_getElem? hindex, condition, hcondition, rfl⟩

/-- The file of a function, as its name leads to it. -/
theorem resourceFile?_function {blueprint : Blueprint} (hsound : blueprint.Sound)
    {location : Location} (h : location ∈ blueprint.functions) :
    resourceFile? "functions" ".mcfunction" location.text
      = some ("/".intercalate ((functionPlace location).1 ++ [(functionPlace location).2])) := by
  have hcategory : "/".intercalate ["functions"] = "functions" := by decide
  rw [← hcategory]
  exact (regular_of_mem_functions hsound location h).resourceFile?_text (by simp) ".mcfunction"

/-- The file of the commands of a frame is the one that the name of the unit stands for. -/
theorem isFrameCommands_timelineFunction {project : Project} {blueprint : Blueprint}
    (h : ofProject project = .ok blueprint) {motion : Motion} (hmotion : motion ∈ blueprint.motions)
    (index : Nat) :
    let place := functionPlace (blueprint.names.timelineFunction motion.name (commandsUnit index))
    project.IsFrameCommands place.1 place.2 := by
  obtain ⟨variants, -, hnames, -, hmotions⟩ := Export.ofProject_eq_ok h
  obtain ⟨animation, hanimation, hok⟩ := exists_left_of_forall₂ hmotions hmotion
  obtain ⟨-, -, -, -, hmade⟩ := ofAnimation_eq_ok hok
  have hname : motion.name = animation.name := congrArg Motion.name hmade
  refine ⟨animation, hanimation, index, ?_, rfl⟩
  rw [hname, hnames]
  rfl

section Lines

variable {project : Project} {blueprint : Blueprint}
  (hblueprint : ofProject project = .ok blueprint)
  (hsound : blueprint.Sound) (hnamed : blueprint.Named) (settings : Settings)

include hblueprint hsound hnamed

/-- What the line of a command is read as refers to what the pack has. -/
theorem refersWithin_asRead {location : Location} (hlocation : location ∈ blueprint.functions)
    {command : Command} (h : blueprint.Admits location command) :
    command.asRead.RefersWithin project (blueprint.pack settings)
      ("/".intercalate ((functionPlace location).1 ++ [(functionPlace location).2]))
      command.text where
  callees callee hcallee :=
    resolves_of_calls hsound settings (h.calls_of_mem_callees callee hcallee)
  groups group hgroup := by
    rcases h.rootType_or_of_mem_groups group hgroup with rfl | ⟨condition, hcondition, hspelled⟩
    · exact .inl (isSome_rootType hsound settings)
    · exact .inr ⟨condition, hasCondition_of_ofProject hblueprint hcondition, hspelled⟩
  unknown text htext :=
    hasCondition_of_ofProject hblueprint (h.hasCondition_of_mem_unknown text htext)
  messages message hmessage := by
    have hlegible := isLegible_of_mem_functions hsound hnamed hlocation
    rw [h.eq_of_mem_messages message hmessage]
    exact ⟨location.text, namedFunction?_rootOnlyWarning hlegible.isOneWord_text,
      resourceFile?_function hsound hlocation⟩

/-- The lines of a function of the layout, if it is not one of a user's commands. -/
theorem read?_text_of_mem_layout {path : List String} {name : String} {list : List Command}
    (hmem : .file path name (.commands list) ∈ blueprint.layout settings)
    (hwritten : ¬ project.IsFrameCommands path name) :
    ∀ command ∈ list, Command.read? command.text = some command.asRead ∧
      command.asRead.RefersWithin project (blueprint.pack settings)
        ("/".intercalate (path ++ [name])) command.text := by
  have hconsistent := consistent_of_mem_layout hsound hnamed settings _ hmem
  generalize hplacement : Placement.file path name (.commands list) = placement at hconsistent
  cases hconsistent with
  | folder path => contradiction
  | json path name value => simp at hplacement
  | @frameCommands motion hmotion index lines =>
      obtain ⟨rfl, rfl, -⟩ := Placement.file.inj hplacement
      exact absurd (isFrameCommands_timelineFunction hblueprint hmotion index) hwritten
  | @function location commands hlocation hcommands =>
      obtain ⟨rfl, rfl, hlist⟩ := Placement.file.inj hplacement
      obtain rfl := Content.commands.inj hlist
      intro command hcommand
      have hadmits := hcommands command hcommand
      exact ⟨hadmits.read?_text hsound hnamed,
        refersWithin_asRead hblueprint hsound hnamed settings hlocation hadmits⟩

end Lines

end Blueprint

namespace Export

/-- In the pack of an accepted project every line of a function, but for the commands of users, is
read as a command, and what it refers to is there: the functions and lists that it calls, also
behind a condition of a user, and the types that it searches.  A message names the function in
whose file it stands.  The lines are those of the file if no text of a user breaks them.  What the
game is told to run when it loads the pack, and in every tick, is there, too. -/
theorem references_resolve {settings : Settings} {project : Project} {pack : Folder}
    (h : build settings project = .ok pack) :
    (∀ path name file list, pack.file? path name = some file → file.content = .commands list →
      ¬ project.IsFrameCommands path name →
      (project.OneLined → Text.closedLines file.content.text = list.map Command.text) ∧
      ∀ line ∈ list.map Command.text, ∃ command, Command.read? line = some command ∧
        command.RefersWithin project pack ("/".intercalate (path ++ [name])) line) ∧
    ∀ tag ∈ ["load", "tick"], ∃ values,
      (pack.fileAt? ("data/minecraft/tags/functions/" ++ tag ++ ".json")).map (·.content)
        = some (Placement.listing values) ∧
      ∀ value ∈ values, (pack.resource? "functions" ".mcfunction" value).isSome = true := by
  obtain ⟨blueprint, haccepted, hblueprint, rfl⟩ := build_eq_ok h
  have hsound := Blueprint.sound_of_build haccepted hblueprint
  have hnamed := Blueprint.named_of_build haccepted hblueprint
  refine ⟨fun path name file list hfile hcontent hwritten => ?_, fun tag htag => ?_⟩
  · have hmem := Blueprint.mem_layout_of_file? hfile
    rw [hcontent] at hmem
    refine ⟨fun hone => ?_, List.forall_mem_map.2 fun command hcommand =>
      ⟨command.asRead, Blueprint.read?_text_of_mem_layout hblueprint hsound hnamed settings hmem
        hwritten command hcommand⟩⟩
    rw [hcontent]
    exact Content.closedLines_text
      (Blueprint.isOneLine_of_oneLined hblueprint hsound hnamed hone hmem)
  · refine ⟨_, Blueprint.fileAt?_gameGroup hsound settings htag, fun value hvalue => ?_⟩
    obtain rfl := List.mem_singleton.1 hvalue
    have hcalls : blueprint.Calls (.function (blueprint.names.internalFunction [tag])) := by
      refine Blueprint.mem_functions_of_basic ?_
      simp only [List.mem_cons, List.not_mem_nil, or_false] at htag
      rcases htag with rfl | rfl <;> simp [Blueprint.basicFunctions]
    exact Blueprint.resolves_of_calls hsound settings hcalls

/-- A rig of one bone with a frame whose commands wait for a condition. -/
def guardedFrame : Project :=
  { oneBone "stick" with
    animations := [⟨"walk", 1, .loop, [⟨0, .empty,
      some ⟨"say hi", some " if entity @e[type=#minecraft:skeletons]"⟩, none⟩]⟩] }

/-- The line that warns players who remove no rig. -/
def removalWarning : String :=
  (Command.execute [.ifUntagged "aj.fox.root"]
    (.tell (Blueprint.rootOnlyWarning ⟨"fox", ["remove", "this"]⟩))).text

theorem messages_removalWarning {command : Command}
    (h : Command.read? removalWarning = some command) :
    command.messages = [Blueprint.rootOnlyWarning ⟨"fox", ["remove", "this"]⟩] := by
  have hlocation : Location.IsLegible ⟨"fox", ["remove", "this"]⟩ := ⟨by decide, by decide⟩
  have htag : IsLabel "aj.fox.root" := by decide
  have hlegible : (Command.execute [.ifUntagged "aj.fox.root"]
      (.tell (Blueprint.rootOnlyWarning ⟨"fox", ["remove", "this"]⟩))).IsLegible :=
    ⟨List.cons_ne_nil _ _, List.forall_mem_singleton.2 htag, Blueprint.isMessage_rootOnlyWarning _,
      Blueprint.run_not_mem_words_tell_rootOnlyWarning hlocation⟩
  rw [removalWarning, Command.read?_text hlegible] at h
  rw [← Option.some.inj h]
  rfl

/-- The call behind the condition leads to the commands of the frame, and the warning of the
function that removes a rig names that function. -/
theorem references_resolve_of_guarded_frame :
    ∃ pack guarded warning, build ⟨"packs", 1, 12⟩ guardedFrame = .ok pack ∧
      Command.read? ("execute if entity @e[type=#minecraft:skeletons] run function "
        ++ "zzz_fox_internal:animations/walk/tree/leaf_0_commands") = some guarded ∧
      guarded.callees
        = [.function ⟨"zzz_fox_internal", ["animations", "walk", "tree", "leaf_0_commands"]⟩] ∧
      (∀ callee ∈ guarded.callees, callee.Resolves pack) ∧
      Command.read? removalWarning = some warning ∧
      ∃ message ∈ warning.messages, ∃ function, Json.namedFunction? message = some function ∧
        resourceFile? "functions" ".mcfunction" function
          = some "data/fox/functions/remove/this.mcfunction" := by
  have hleaf : (build ⟨"packs", 1, 12⟩ guardedFrame).toOption.bind (·.lines?
      ["data", "zzz_fox_internal", "functions", "animations", "walk", "tree"] "leaf_0.mcfunction")
      = some ["execute on passengers run function "
          ++ "zzz_fox_internal:animations/walk/tree/leaf_0_as_bone",
        "execute if entity @e[type=#minecraft:skeletons] run function "
          ++ "zzz_fox_internal:animations/walk/tree/leaf_0_commands"] := by
    decide +kernel
  have hthis : (build ⟨"packs", 1, 12⟩ guardedFrame).toOption.bind (·.lines?
      ["data", "fox", "functions", "remove"] "this.mcfunction")
      = some ["execute if entity @s[tag=aj.fox.root] run function zzz_fox_internal:remove/as_root",
        removalWarning] := by
    decide +kernel
  have hcallees : (Command.read? ("execute if entity @e[type=#minecraft:skeletons] run function "
      ++ "zzz_fox_internal:animations/walk/tree/leaf_0_commands")).map Command.callees
      = some [.function
          ⟨"zzz_fox_internal", ["animations", "walk", "tree", "leaf_0_commands"]⟩] := by
    decide +kernel
  have hleaf_own : ¬ guardedFrame.IsFrameCommands ["data", "zzz_fox_internal", "functions",
      "animations", "walk", "tree"] "leaf_0.mcfunction" := by
    rintro ⟨-, -, index, -, hname⟩
    have hlength := congrArg String.length hname
    have hshort : "leaf_0.mcfunction".length < "_commands".length + ".mcfunction".length := by
      decide
    rw [String.length_append, String.length_append] at hlength
    omega
  have hthis_own : ¬ guardedFrame.IsFrameCommands ["data", "fox", "functions", "remove"]
      "this.mcfunction" := by
    rintro ⟨_, -, _, hpath, -⟩
    simp at hpath
  have haccepted : (build ⟨"packs", 1, 12⟩ guardedFrame).toOption.isSome = true := by
    decide +kernel
  obtain ⟨pack, hbuild⟩ := exists_ok_of_isSome haccepted
  rw [hbuild] at hleaf hthis
  obtain ⟨file, list, hfile, hcontent, hlist⟩ := Folder.exists_file_of_lines? hleaf
  obtain ⟨other, warnings, hother, hcontent', hlist'⟩ := Folder.exists_file_of_lines? hthis
  have hlines := ((references_resolve hbuild).1 _ _ file list hfile hcontent hleaf_own).2
  have hwarnings :=
    ((references_resolve hbuild).1 _ _ other warnings hother hcontent' hthis_own).2
  rw [hlist] at hlines
  rw [hlist'] at hwarnings
  obtain ⟨guarded, hguarded, hcalls⟩ := hlines _ (.tail _ (List.mem_singleton_self _))
  obtain ⟨warning, hwarning, hnamed⟩ := hwarnings _ (.tail _ (List.mem_singleton_self _))
  rw [hguarded] at hcallees
  have hmessages := messages_removalWarning hwarning
  have hplace : "/".intercalate (["data", "fox", "functions", "remove"] ++ ["this.mcfunction"])
      = "data/fox/functions/remove/this.mcfunction" := by decide
  rw [hplace] at hnamed
  have hmem : Blueprint.rootOnlyWarning ⟨"fox", ["remove", "this"]⟩ ∈ warning.messages := by
    simp [hmessages]
  exact ⟨pack, guarded, warning, hbuild, hguarded, Option.some.inj hcallees, hcalls.callees,
    hwarning, _, hmem, hnamed.messages _ hmem⟩

end Export

end RigPack

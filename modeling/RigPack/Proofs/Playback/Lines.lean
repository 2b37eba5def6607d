import RigPack.Proofs.Export.References
import RigPack.Proofs.Playback.Simulation

/-!
# What is run, and what the lines say

The machine runs commands, while the game reads the lines of a file.  This file reads the file of a
function line by line and compares: of every function of an exported pack that holds no lines of a
user, the lines are read as its commands, and for the functions that play an animation the commands
are the very ones that the machine runs.

## Main statements

* `Export.readFunction?_of_oneLined`: what the lines of a function are read as.
* `Playback.readsBack_of_build`: the functions that load a pack and play an animation are read as
  the commands that the machine looks up.
* `Timeline.read?_dispatch_agree`: a line that enters a node of a timeline is the same test to the
  reader of score tests and to the reader of commands.
-/

namespace RigPack

/-! ## Functions, read from their lines -/

namespace Folder

/-- The commands of a function, read from the lines of its file. -/
def readFunction? (pack : Folder) (name : String) : Option (List Command) := do
  let content ← pack.resource? "functions" ".mcfunction" name
  (Text.closedLines content.text).mapM Command.read?

/-- The file of a function that is found by its name. -/
theorem resource?_of_function? {pack : Folder} {name : String} {list : List Command}
    (h : pack.function? name = some list) :
    pack.resource? "functions" ".mcfunction" name = some (.commands list) := by
  unfold function? at h
  split at h
  · rename_i hresource
    rw [hresource, Option.some.inj h]
  · contradiction

/-- A resource that is found by its name is a file of the pack. -/
theorem exists_file?_of_resource? {pack : Folder} {category extension name : String}
    {content : Content} (h : pack.resource? category extension name = some content) :
    ∃ path last file, pack.file? path last = some file ∧ file.content = content := by
  simp only [resource?, Option.bind_eq_bind, Option.bind_eq_some_iff] at h
  obtain ⟨path, -, file, hfile, hcontent⟩ := h
  exact ⟨_, _, file, hfile, Option.some.inj hcontent⟩

/-- A function is read back if its commands are, and are on one line each. -/
theorem readFunction?_eq_some {pack : Folder} {name : String} {list : List Command}
    (h : pack.function? name = some list) (hone : ∀ command ∈ list, IsOneLine command.text)
    (hread : ∀ command ∈ list, Command.read? command.text = some command.asRead) :
    pack.readFunction? name = some (list.map Command.asRead) := by
  have hlines : (list.map Command.text).mapM Command.read? = some (list.map Command.asRead) := by
    clear h hone
    induction list with
    | nil => rfl
    | cons command list ih =>
        rw [List.map_cons, List.mapM_cons, hread command (List.mem_cons_self ..),
          ih fun other hother => hread other (.tail _ hother)]
        rfl
  rw [readFunction?, resource?_of_function? h, Option.bind_eq_bind, Option.bind_some,
    Content.closedLines_text hone, hlines]

end Folder

namespace Export

/-- In the pack of a project whose texts break no line, every function but one of a user's lines is
read from its lines as the commands that it holds. -/
theorem readFunction?_of_oneLined {settings : Settings} {project : Project} {pack : Folder}
    (h : build settings project = .ok pack) (hone : project.OneLined) {name : String}
    {list : List Command} (hfunction : pack.function? name = some list)
    (hwritten : ∀ text, .written text ∉ list) :
    pack.readFunction? name = some (list.map Command.asRead) := by
  obtain ⟨blueprint, haccepted, hblueprint, rfl⟩ := build_eq_ok h
  have hsound := Blueprint.sound_of_build haccepted hblueprint
  have hnamed := Blueprint.named_of_build haccepted hblueprint
  obtain ⟨path, last, file, hfile, hcontent⟩ :=
    Folder.exists_file?_of_resource? (Folder.resource?_of_function? hfunction)
  have hmem := Blueprint.mem_layout_of_file? hfile
  rw [hcontent] at hmem
  exact Folder.readFunction?_eq_some hfunction
    (Blueprint.isOneLine_of_oneLined hblueprint hsound hnamed hone hmem)
    (Blueprint.read?_text_of_not_written hsound hnamed hmem hwritten)

end Export

/-! ## The functions that play an animation -/

/-- The function of a node has a resource name. -/
theorem isResourceName_unit {α : Type} (node : RangeTree α) : isResourceName node.unit = true := by
  cases node with
  | leaf index item => exact isResourceName_key (.root index)
  | branch min max children => exact isResourceName_key (.branch min max)

namespace Playback

open Blueprint Placement

/-- The functions that load a pack and play an animation, but for those of its timeline. -/
def functions (names : Naming) (animation : String) : List Location :=
  [names.internalFunction ["load"], names.internalFunction ["animations", "tick"]]
  ++ ["play", "resume", "pause", "stop"].map (fun action =>
      names.publicFunction ["animations", animation, action])
  ++ ["tick", "end", "apply_frame"].map fun step =>
      names.internalFunction ["animations", animation, step]

/-- Whether the lines of a function are read as the commands that it is found to hold. -/
def ReadsBack (pack : Folder) (location : Location) : Prop :=
  ∃ list, pack.function? location.text = some list ∧ pack.readFunction? location.text = some list

section Motion

variable {blueprint : Blueprint} (hsound : blueprint.Sound) (hnamed : blueprint.Named)
  (settings : Settings)

include hsound hnamed

/-- A function whose commands hold no text of a user, and no data, is read as these commands. -/
theorem readsBack_of_layout {location : Location} {commands : List Command}
    (hmem : function location commands ∈ blueprint.layout settings)
    (hone : (function location commands).OneLined)
    (hown : ∀ command ∈ commands, command.asRead = command ∧ ∀ text, command ≠ .written text) :
    ReadsBack (blueprint.pack settings) location := by
  have hfunction := hsound.function?_pack hmem
  have hread := Folder.readFunction?_eq_some hfunction
    (fun command hcommand => command.isOneLine_text_iff.2 (hone command hcommand))
    (read?_text_of_not_written hsound hnamed hmem
      fun text htext => (hown _ htext).2 text rfl)
  rw [List.map_congr_left fun command hcommand => (hown command hcommand).1, List.map_id'] at hread
  exact ⟨commands, hfunction, hread⟩

theorem readsBack_load :
    ReadsBack (blueprint.pack settings) (blueprint.names.internalFunction ["load"]) := by
  have hspace := isOneLine_of_isResourceName hnamed.space
  have hmem : function (blueprint.names.internalFunction ["load"]) (loadCommands settings) ∈
      loadAndTick blueprint.names settings := by simp [loadAndTick_eq]
  refine readsBack_of_layout hsound hnamed settings ?_
    (oneLined_loadAndTick hspace settings _ hmem) ?_
  · simp [layout, hmem]
  · simp [loadCommands, Objective.all, LoopMode.all, Command.asRead]

theorem readsBack_animationTick : ReadsBack (blueprint.pack settings)
    (blueprint.names.internalFunction ["animations", "tick"]) := by
  have hmem := animationTick_mem_layout blueprint settings
  have hone := oneLined_animationTick hnamed
  rw [animationTick_eq] at hmem hone
  refine readsBack_of_layout hsound hnamed settings hmem hone ?_
  simp [Command.asRead, Clause.asRead, Command.run]

variable {motion : Motion} (hmotion : motion ∈ blueprint.motions)

include hmotion

theorem readsBack_control {action : String} (h : action ∈ ["play", "resume", "pause", "stop"]) :
    ReadsBack (blueprint.pack settings) (Motion.control blueprint.names motion action) := by
  obtain ⟨commands, hmem, hown⟩ : ∃ commands,
      function (Motion.control blueprint.names motion action) commands ∈
        motion.controls blueprint.names ∧
      ∀ command ∈ commands, command.asRead = command ∧ ∀ text, command ≠ .written text := by
    rw [Motion.controls_eq]
    simp only [List.mem_cons, List.not_mem_nil, or_false] at h
    rcases h with rfl | rfl | rfl | rfl
    · exact ⟨_, .head _, by simp [Motion.prepare, Motion.rewind, Motion.activate, Command.asRead,
        Clause.asRead]⟩
    · exact ⟨_, .tail _ (.head _), by simp [Motion.prepare, Motion.activate, Command.asRead,
        Clause.asRead]⟩
    · exact ⟨_, .tail _ (.tail _ (.head _)), by simp [Motion.deactivate, Command.asRead]⟩
    · exact ⟨_, .tail _ (.tail _ (.tail _ (.head _))),
        by simp [Motion.rewind, Motion.deactivate, Command.asRead]⟩
  refine readsBack_of_layout hsound hnamed settings ?_ (oneLined_controls hnamed hmotion _ hmem)
    hown
  exact List.mem_append_right _ (List.mem_flatMap.2 ⟨motion, hmotion,
    List.mem_append_left _ (List.mem_append_left _ hmem)⟩)

theorem readsBack_drive {step : String} (h : step ∈ ["tick", "end", "apply_frame"]) :
    ReadsBack (blueprint.pack settings) (Motion.drive blueprint.names motion step) := by
  obtain ⟨commands, hmem, hown⟩ : ∃ commands,
      function (Motion.drive blueprint.names motion step) commands ∈
        motion.driving blueprint.names ∧
      ∀ command ∈ commands, command.asRead = command ∧ ∀ text, command ≠ .written text := by
    rw [Motion.driving_eq]
    simp only [List.mem_cons, List.not_mem_nil, or_false] at h
    rcases h with rfl | rfl | rfl
    · exact ⟨_, .head _, by simp [Motion.tickCommands, Command.run, Command.asRead, Clause.asRead]⟩
    · exact ⟨_, .tail _ (.head _), by simp [Motion.endCommands, Motion.inMode, Motion.rewind,
        Command.run, Command.asRead, Clause.asRead]⟩
    · exact ⟨_, .tail _ (.tail _ (.head _)), by simp [Timeline.dispatch, Command.run,
        Command.asRead, Clause.asRead]⟩
  refine readsBack_of_layout hsound hnamed settings ?_ (oneLined_driving hnamed hmotion _ hmem)
    hown
  exact List.mem_append_right _ (List.mem_flatMap.2 ⟨motion, hmotion,
    List.mem_append_left _ (List.mem_append_right _ hmem)⟩)

/-- The functions by which the branches of a timeline enter their children. -/
theorem readsBack_branch {unit : FunctionUnit} {children : List Timeline}
    (hunit : unit ∈ Timeline.units blueprint.names motion.name motion.timeline)
    (hchildren : unit.commands = children.map (Timeline.dispatch blueprint.names motion.name)) :
    ReadsBack (blueprint.pack settings)
      (blueprint.names.timelineFunction motion.name unit.name) := by
  have hspace := isOneLine_of_isResourceName hnamed.space
  have hname := isOneLine_of_isResourceName (hnamed.motions motion hmotion)
  have hmem : function (blueprint.names.timelineFunction motion.name unit.name) unit.commands ∈
      motion.timelineLayout blueprint.names := by
    rw [Motion.timelineLayout_eq]
    exact List.mem_map_of_mem hunit
  refine readsBack_of_layout hsound hnamed settings (List.mem_append_right _
    (List.mem_flatMap.2 ⟨motion, hmotion, List.mem_append_right _ hmem⟩)) ?_ ?_
  · rw [oneLined_function, hchildren, List.forall_mem_map]
    exact fun child _ => Timeline.oneLined_dispatch hspace hname
      (isOneLine_of_isResourceName (isResourceName_unit child))
  · rw [hchildren, List.forall_mem_map]
    simp [Timeline.dispatch, Command.run, Command.asRead, Clause.asRead]

end Motion

/-- Loading the pack of an accepted project and playing an animation of it runs functions whose
lines are read as the commands that the machine looks up: whatever texts users wrote. -/
theorem readsBack_of_build {settings : Settings} {project : Project} {pack : Folder}
    (h : Export.build settings project = .ok pack) {animation : Animation}
    (hanimation : animation ∈ project.animations) :
    ∀ location ∈ functions project.names animation.name, ReadsBack pack location := by
  obtain ⟨blueprint, haccepted, hblueprint, rfl⟩ := Export.build_eq_ok h
  have hsound := sound_of_build haccepted hblueprint
  have hnamed := named_of_build haccepted hblueprint
  obtain ⟨variants, -, -, -, hmotions⟩ := Export.ofProject_eq_ok hblueprint
  obtain ⟨motion, hmotion, hok⟩ := exists_right_of_forall₂ hmotions hanimation
  obtain ⟨-, -, -, -, hmade⟩ := ofAnimation_eq_ok hok
  have hname : motion.name = animation.name := congrArg Motion.name hmade
  have hnames : project.names = blueprint.names := (Export.names_ofProject hblueprint).symm
  rw [hnames, ← hname, functions, List.forall_mem_append, List.forall_mem_append]
  refine ⟨⟨?_, ?_⟩, ?_⟩
  · exact List.forall_mem_cons.2 ⟨readsBack_load hsound hnamed settings,
      List.forall_mem_singleton.2 (readsBack_animationTick hsound hnamed settings)⟩
  · exact List.forall_mem_map.2 fun action haction =>
      readsBack_control hsound hnamed settings hmotion haction
  · exact List.forall_mem_map.2 fun step hstep =>
      readsBack_drive hsound hnamed settings hmotion hstep

end Playback

/-! ## Lines that enter a node -/

/-- To the reader of commands and to the reader of score tests, the line that enters a node of a
timeline is one and the same. -/
theorem Timeline.read?_dispatch_agree {names : Naming} {animation : String}
    (hspace : isResourceName names.space = true) (hanimation : isResourceName animation = true)
    (node : Timeline) :
    ∃ test location, ScoreTest.read? (dispatch names animation node).text = some test ∧
      Command.read? (dispatch names animation node).text
        = some (.execute [.ifScore .self .time test.range] (.run location)) ∧
      location.text = test.target := by
  have hfixed : isResourceName "animations" = true ∧ isResourceName "tree" = true := by decide
  have hlocation : (names.timelineFunction animation node.unit).IsLegible := by
    refine Location.isLegible_of_isResourceName (by simp [Naming.timelineFunction,
      Naming.internalFunction]) ?_
    simp [Naming.timelineFunction, Naming.timelinePath, Naming.internalFunction,
      isResourceName_internal hspace, hfixed, hanimation, isResourceName_unit]
  have hlegible : (dispatch names animation node).IsLegible :=
    Command.isLegible_execute_call (List.cons_ne_nil _ _)
      (List.forall_mem_singleton.2 trivial) hlocation
  exact ⟨_, _, read?_dispatch names animation node, Command.read?_text hlegible, rfl⟩

end RigPack

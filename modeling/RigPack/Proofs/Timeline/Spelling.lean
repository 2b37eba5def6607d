import RigPack.Proofs.Timeline.Walk
import RigPack.Proofs.Pack.Named

/-!
# The functions of a timeline, as they are written

Generated functions are commands, and the names in them are put together step by step.
What is written in the end is said here line by line: the name of each function, and the
full text of its lines (`spelledFrame`, `spelledBranch`).  Nothing but the namespace, the
animation, the rig and the frames goes into it.

## Main statements

* `Timeline.text_dispatch_eq_spelledEntry`: the line by which a node is entered.
* `Timeline.map_written_leafUnits`: the functions of a frame.

## Implementation notes

A definition whose value is a text is opened by an equation that holds by `rfl`.
-/

namespace RigPack

/-- A function as it is written: its name, and its lines. -/
def FunctionUnit.written (unit : FunctionUnit) : String × List String :=
  (unit.name, unit.lines)

/-- The items of a list are set apart by commas. -/
theorem Snbt.chars_list (items : List Snbt) :
    (Snbt.list items).chars = '[' :: [','].intercalate (items.map chars) ++ [']'] := by
  cases items with
  | nil => rfl
  | cons item items =>
      rw [chars, List.cons_append, List.map_cons, List.cons_append]
      congr 1
      induction items generalizing item with
      | nil => rw [charsOfItems, List.map_nil, List.intercalate_singleton]
      | cons next items ih =>
          rw [charsOfItems, List.cons_append, ih, List.map_cons, List.intercalate_cons_cons]
          simp only [List.append_assoc, List.cons_append, List.nil_append]

namespace Timeline

/-! ## Names and lines -/

section Spelling

variable (space animation : String)

/-- The call of a function of an animation's timeline. -/
def spelledCall (unit : String) : String :=
  "function zzz_" ++ space ++ "_internal:animations/" ++ animation ++ "/tree/" ++ unit

/-- The line by which a node is entered. -/
def spelledEntry {α : Type} : RangeTree α → String
  | .leaf index _ =>
    "execute if score @s aj.anim_time matches " ++ toString index ++ " run "
      ++ spelledCall space animation ("leaf_" ++ toString index)
  | .branch min max _ =>
    "execute if score @s aj.anim_time matches " ++ toString min ++ ".." ++ toString max ++ " run "
      ++ spelledCall space animation ("branch_" ++ toString min ++ "_" ++ toString max)

/-- A call under a condition as written by a user, unless that is blank. -/
def spelledGuard (condition : Option String) (call : String) : String :=
  match condition with
  | none => call
  | some condition =>
    if Text.trim condition = "" then call
    else "execute " ++ Text.trim condition ++ " run " ++ call

/-- The line by which a bone of a name gets a transform. -/
def spelledPose (bone : String) (transform : Transform) : String :=
  "execute if entity @s[tag=aj." ++ space ++ ".bone." ++ bone
    ++ "] run data modify entity @s \x7b\x7d merge value \x7btransformation:["
    ++ ",".intercalate (transform.toList.map fun entry => entry.text .command ++ "f")
    ++ "],start_interpolation:0\x7d"

/-- The function of a branch: a line for each child. -/
def spelledBranch {α : Type} (min max : Nat) (children : List (RangeTree α)) :
    String × List String :=
  ("branch_" ++ toString min ++ "_" ++ toString max, children.map (spelledEntry space animation))

/-- The lines that the root runs for a frame: it calls the bones, then the frame's own
commands, then the variant. -/
def spelledRoot (index : Nat) (frame : Frame) : List String :=
  ["execute on passengers run "
    ++ spelledCall space animation ("leaf_" ++ toString index ++ "_as_bone")]
  ++ (frame.commands.map fun commands => spelledGuard commands.condition
    (spelledCall space animation ("leaf_" ++ toString index ++ "_commands"))).toList
  ++ (frame.switch.map fun switch => spelledGuard switch.condition
    ("function zzz_" ++ space ++ "_internal:apply_variant/" ++ switch.variant
      ++ "_as_root")).toList

/-- The lines that every bone runs for a frame: one for each bone of the rig that the frame
moves, in the order of the rig. -/
def spelledBones (rig : Rig) (frame : Frame) : List String :=
  rig.bones.filterMap fun bone =>
    (frame.poses.get? bone.id).map fun transform => spelledPose space bone.name transform

/-- The functions of a frame; that of its own commands is there if it has some. -/
def spelledFrame (rig : Rig) (index : Nat) (frame : Frame) : List (String × List String) :=
  (frame.commands.map fun commands =>
    ("leaf_" ++ toString index ++ "_commands", Text.lines commands.text)).toList
  ++ [("leaf_" ++ toString index, spelledRoot space animation index frame),
    ("leaf_" ++ toString index ++ "_as_bone", spelledBones space rig frame)]

/-- The functions of a node alone. -/
def spelledNode (rig : Rig) : RangeTree Frame → List (String × List String)
  | .leaf index frame => spelledFrame space animation rig index frame
  | .branch min max children => [spelledBranch space animation min max children]

end Spelling

/-! ## The text of the commands -/

theorem text_run (location : Location) :
    (Command.run location).text
      = "function " ++ (location.space ++ ":" ++ "/".intercalate location.path) := rfl

theorem text_execute (clause : Clause) (command : Command) :
    (Command.execute [clause] command).text
      = "execute " ++ clause.text ++ " run " ++ command.text :=
  rfl

variable (names : Naming) (animation : String)

theorem text_run_timelineFunction (unit : String) :
    (Command.run (names.timelineFunction animation unit)).text
      = spelledCall names.space animation unit := by
  have hcall : spelledCall names.space animation unit
      = "function zzz_" ++ names.space ++ "_internal:animations/" ++ animation ++ "/tree/"
        ++ unit := rfl
  rw [text_run, hcall]
  apply String.toList_inj.1
  simp [Naming.timelineFunction, Naming.timelinePath, Naming.internalFunction,
    Naming.internal, String.intercalate_cons_cons]

theorem text_run_variantAsRoot (variant : String) :
    (Command.run (names.variantAsRoot variant)).text
      = "function zzz_" ++ names.space ++ "_internal:apply_variant/" ++ variant ++ "_as_root" := by
  rw [text_run]
  apply String.toList_inj.1
  simp [Naming.variantAsRoot, Naming.internalFunction, Naming.internal,
    String.intercalate_cons_cons]

theorem text_dispatch_eq_spelledEntry {α : Type} (node : RangeTree α) :
    (dispatch names animation node).text = spelledEntry names.space animation node := by
  have hclause (range : ScoreRange) : (Clause.ifScore .self .time range).text
      = "if score " ++ "@s aj.anim_time" ++ " matches " ++ range.text := rfl
  have hentry : spelledEntry names.space animation node
      = "execute if score @s aj.anim_time matches " ++ node.scoreRange.text ++ " run "
        ++ spelledCall names.space animation node.unit := by
    cases node with
    | leaf index item => rfl
    | branch min max children =>
        have hrange : (RangeTree.branch min max children).scoreRange.text
            = toString min ++ ".." ++ toString max := rfl
        rw [hrange, ← String.append_assoc, ← String.append_assoc]
        rfl
  rw [dispatch, text_execute, text_run_timelineFunction, hclause, hentry]
  apply String.toList_inj.1
  simp

theorem text_pose (bone : String) (transform : Transform) :
    (Command.execute [.ifTagged (names.boneTag bone)] (.mergeData (.compound
      [("transformation", .ofTransform transform), ("start_interpolation", .int 0)]))).text
      = spelledPose names.space bone transform := by
  have hclause (tag : String) : (Clause.ifTagged tag).text = "if entity @s[tag=" ++ tag ++ "]" :=
    rfl
  have hmerge (data : Snbt) : (Command.mergeData data).text
      = "data modify entity @s \x7b\x7d merge value " ++ data.text := rfl
  have htag : names.boneTag bone = "aj." ++ names.space ++ ".bone." ++ bone := rfl
  have hpose : spelledPose names.space bone transform
      = "execute if entity @s[tag=aj." ++ names.space ++ ".bone." ++ bone
        ++ "] run data modify entity @s \x7b\x7d merge value \x7btransformation:["
        ++ ",".intercalate (transform.toList.map fun entry => entry.text .command ++ "f")
        ++ "],start_interpolation:0\x7d" := rfl
  have hkeys : Snbt.keyChars "transformation" = "transformation".toList ∧
      Snbt.keyChars "start_interpolation" = "start_interpolation".toList := by decide
  have hentries : (transform.toList.map fun entry => entry.text .command ++ "f").map String.toList
      = (transform.toList.map Snbt.float).map Snbt.chars := by
    rw [List.map_map, List.map_map]
    refine List.map_congr_left fun entry _ => ?_
    simp [Binary.Number.text, Snbt.chars]
  have hzero : (Int.repr 0).toList = ['0'] := by decide
  rw [text_execute, hclause, hmerge, htag, hpose]
  apply String.toList_inj.1
  simp [Snbt.text, Snbt.chars, Snbt.charsOfEntries, Snbt.ofTransform, Snbt.chars_list, hkeys,
    String.toList_intercalate, hentries, hzero]

theorem text_guarded (condition : Option String) (command : Command) :
    (Command.guarded condition command).text = spelledGuard condition command.text := by
  cases condition with
  | none => rfl
  | some condition =>
      simp only [Command.guarded, spelledGuard, Option.map_some, String.isEmpty_iff]
      split
      · rfl
      · exact text_execute (.written _) command

/-! ## The functions of a node -/

theorem map_text_rootCommands (index : Nat) (frame : Frame)
    (poses : List (String × Transform)) :
    (rootCommands names animation index ⟨poses, frame.commands, frame.switch⟩).map Command.text
      = spelledRoot names.space animation index frame := by
  have hpassengers (command : Command) : (Command.execute [.onPassengers] command).text
      = "execute on passengers run " ++ command.text := by
    have hopening : "execute " ++ "on passengers" ++ " run " = "execute on passengers run " := by
      decide +kernel
    rw [← hopening]
    exact text_execute .onPassengers command
  unfold rootCommands spelledRoot
  simp only [List.map_append, List.map_singleton, hpassengers, text_run_timelineFunction]
  congr 1
  · cases frame.commands with
    | none => rfl
    | some commands =>
        simp only [Option.map_some, Option.toList_some, List.map_singleton, text_guarded,
          text_run_timelineFunction]
        rfl
  · cases frame.switch with
    | none => rfl
    | some switch =>
        simp only [Option.map_some, Option.toList_some, List.map_singleton, text_guarded,
          text_run_variantAsRoot]

theorem map_text_boneCommands (rig : Rig) (frame : Frame) (commands : Option FrameCommands)
    (switch : Option VariantSwitch) :
    (boneCommands names ⟨frame.posesIn rig, commands, switch⟩).map Command.text
      = spelledBones names.space rig frame := by
  unfold boneCommands spelledBones
  rw [List.map_map]
  simp only [Function.comp_def, text_pose, Frame.posesIn, List.map_filterMap, Option.map_map]

theorem map_written_leafUnits {rig : Rig} {variants : VariantSet} {index : Nat} {frame : Frame}
    {keyframe : Keyframe} (h : Keyframe.ofFrame rig variants animation index frame = .ok keyframe) :
    (leafUnits names animation index keyframe).map FunctionUnit.written
      = spelledFrame names.space animation rig index frame := by
  rw [Blueprint.ofFrame_eq_ok h]
  unfold leafUnits spelledFrame
  rw [List.map_append]
  congr 1
  · cases frame.commands with
    | none => rfl
    | some commands =>
        have hlines : ((Text.lines commands.text).map Command.written).map Command.text
            = Text.lines commands.text := by
          rw [List.map_map]
          exact List.map_id _
        simp only [Option.map_some, Option.toList_some, List.map_singleton,
          FunctionUnit.written, FunctionUnit.lines, hlines]
        rfl
  · simp only [List.map_cons, List.map_nil, FunctionUnit.written, FunctionUnit.lines,
      map_text_rootCommands, map_text_boneCommands]
    rfl

end Timeline

end RigPack

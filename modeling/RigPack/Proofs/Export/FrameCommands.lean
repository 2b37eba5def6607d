import RigPack.Proofs.Export.FileCount
import RigPack.Proofs.Pack.Leaves
import RigPack.Proofs.Text.LineBreaks

/-!
# The commands of a frame in the pack

A frame brings commands as a text.  They are split into lines when the timeline is laid out,
become the function of its leaf, and are written line by line into that function's file.  So
the file holds the text of the frame, but for its line breaks: those of two characters become
single ones, and the last line is closed (`Text.unlines_lines`).

## Strategy

The number of an accepted frame is its position, so the timeline has a leaf for the frame
under that number, the leaf brings the function, and the function is found by its path.
-/

namespace RigPack

/-- In an animation that passes the checks every frame stands at the position of its number. -/
theorem Animation.getElem?_of_checkFrames {animation : Animation}
    (h : animation.checkFrames = .ok ()) {frame : Frame} (hframe : frame ∈ animation.frames) :
    animation.frames[frame.index.toNat]? = some frame := by
  unfold checkFrames at h
  split at h
  · contradiction
  split at h
  · contradiction
  rename_i hnone
  obtain ⟨i, hi, rfl⟩ := List.mem_iff_getElem.1 hframe
  rw [firstMisplaced?_eq_none_iff.1 hnone i hi, Nat.zero_add]
  exact List.getElem?_eq_getElem hi

/-- The file of commands that were written as a text holds the text with single line breaks. -/
theorem Content.text_written (text : String) :
    (Content.commands ((Text.lines text).map .written)).text
      = String.ofList (Text.singleBreaks text.toList ++ Text.missingBreak text.toList) := by
  have hlines : ((Text.lines text).map Command.written).map Command.text = Text.lines text := by
    rw [List.map_map]
    exact List.map_id _
  rw [Content.text, hlines, Text.unlines_lines]

namespace Blueprint

open Placement

theorem checkFrames_of_ofAnimation {rig : Rig} {variants : VariantSet} {animation : Animation}
    {motion : Motion} (h : Motion.ofAnimation rig variants animation = .ok motion) :
    animation.checkFrames = .ok () := by
  simp only [Motion.ofAnimation, Timeline.ofAnimation, bind_eq_ok] at h
  obtain ⟨_, ⟨_, hcheck, -⟩, -⟩ := h
  exact hcheck

/-- The layout has a file for the commands of a frame. -/
theorem frameCommands_mem_layout {blueprint : Blueprint} (settings : Settings) {motion : Motion}
    (hmotion : motion ∈ blueprint.motions) {index : Nat} {keyframe : Keyframe}
    (hleaf : motion.timeline.HasLeaf index keyframe) {commands : FrameCommands}
    (hcommands : keyframe.commands = some commands) :
    .file ["data", blueprint.names.internal, "functions", "animations", motion.name, "tree"]
      (commandsUnit index ++ ".mcfunction") (.commands ((Text.lines commands.text).map .written)) ∈
      blueprint.layout settings := by
  have hunit : ⟨commandsUnit index, (Text.lines commands.text).map .written⟩ ∈
      Timeline.units blueprint.names motion.name motion.timeline := by
    refine Timeline.leafUnits_subset_of_hasLeaf hleaf ?_
    simp [Timeline.leafUnits, hcommands]
  refine List.mem_append_right _ (List.mem_flatMap.2 ⟨motion, hmotion, ?_⟩)
  exact List.mem_append_right _ (List.mem_map.2 ⟨_, hunit, rfl⟩)

/-- A file that is laid out is found by the text of its path. -/
theorem Sound.fileAt?_pack {blueprint : Blueprint} (hsound : blueprint.Sound) {settings : Settings}
    {path : List String} {name : String} {content : Content}
    (h : .file path name content ∈ blueprint.layout settings) :
    (blueprint.pack settings).fileAt? ("/".intercalate (path ++ [name]))
      = some ⟨name, content⟩ := by
  have hfound := hsound.file?_pack h
  have htidy := hsound.tidy_pack settings
  have hsegments := htidy.isSegment_of_mem_entries (path, ⟨name, content⟩)
    (htidy.mem_entries_iff.2 hfound)
  rw [Folder.fileAt?_intercalate _ (fun segment hsegment =>
    hsegments segment (List.mem_append_left _ hsegment)) (hsegments name (by simp)).2, hfound]

end Blueprint

namespace Export

/-- The commands of a frame are in the pack, in a file that is named for the number of the frame.
The file holds the text of the commands with single line breaks, and a line feed behind a last
line that has none. -/
theorem frame_commands_kept {settings : Settings} {project : Project} {pack : Folder}
    (h : build settings project = .ok pack) {animation : Animation}
    (hanimation : animation ∈ project.animations) {frame : Frame}
    (hframe : frame ∈ animation.frames) {commands : FrameCommands}
    (hcommands : frame.commands = some commands) :
    ∃ file, pack.fileAt? ("/".intercalate ["data", "zzz_" ++ project.space ++ "_internal",
        "functions", "animations", animation.name, "tree",
        "leaf_" ++ toString frame.index.toNat ++ "_commands" ++ ".mcfunction"]) = some file ∧
      file.content.text = String.ofList
        (Text.singleBreaks commands.text.toList ++ Text.missingBreak commands.text.toList) := by
  obtain ⟨blueprint, haccepted, hblueprint, rfl⟩ := build_eq_ok h
  have hsound := Blueprint.sound_of_build haccepted hblueprint
  obtain ⟨variants, -, hnames, -, hmotions⟩ := ofProject_eq_ok hblueprint
  obtain ⟨motion, hmotion, hok⟩ := exists_right_of_forall₂ hmotions hanimation
  obtain ⟨-, -, -, -, hmotion'⟩ := Blueprint.ofAnimation_eq_ok hok
  have hmotionName : motion.name = animation.name := by rw [hmotion']
  have hposition :=
    Animation.getElem?_of_checkFrames (Blueprint.checkFrames_of_ofAnimation hok) hframe
  have hleaf := (Blueprint.hasLeaf_ofAnimation_iff hok).2 ⟨frame, hposition, rfl⟩
  have hplaced := Blueprint.frameCommands_mem_layout settings hmotion hleaf hcommands
  rw [hnames, hmotionName] at hplaced
  have hfound := hsound.fileAt?_pack hplaced
  exact ⟨_, hfound, Content.text_written commands.text⟩

/-- A blank line, breaks of both kinds, and carriage returns that break no line. -/
theorem frame_commands_kept_of_mixed_breaks :
    let project : Project := { oneFrame "walk" with
      animations := [⟨"walk", 1, .loop,
        [⟨0, .empty, some ⟨"say a\r\n\n\r\r\n say b\r", none⟩, none⟩]⟩] }
    ∃ pack, build ⟨"packs", 1, 12⟩ project = .ok pack ∧
      ∃ file, pack.fileAt? ("data/zzz_fox_internal/functions/animations/walk/tree/"
          ++ "leaf_0_commands.mcfunction") = some file ∧
        file.content.text = "say a\n\n\r\n say b\r\n" := by
  intro project
  have haccepted : (build ⟨"packs", 1, 12⟩ project).toOption.isSome = true := by
    decide +kernel
  obtain ⟨pack, hbuild⟩ := exists_ok_of_isSome haccepted
  obtain ⟨file, hfile, htext⟩ := frame_commands_kept hbuild (List.mem_singleton_self _)
    (List.mem_singleton_self _) rfl
  refine ⟨pack, hbuild, file, ?_, htext.trans (by decide)⟩
  have hpath : "data/zzz_fox_internal/functions/animations/walk/tree/"
      ++ "leaf_0_commands.mcfunction" = "/".intercalate ["data", "zzz_fox_internal", "functions",
        "animations", "walk", "tree", "leaf_0_commands.mcfunction"] := by decide
  rw [hpath]
  exact hfile

end Export

end RigPack

import RigPack.Proofs.Pack.OneLine

/-!
# When a function file holds its commands

The text of a function has a command on each line, and the game reads it line by line.  A
project brings texts of its own into commands: names, the item that bones show, conditions,
and commands.  Names are checked and commands are split into lines, so neither breaks a
line.  The item is quoted and a condition loses the blanks around it, and neither of that
removes a line feed from within.

## Main statements

* `lines_are_commands_iff`: the functions of an accepted project are read as the commands
  that were written exactly if the item, where there is a bone to show it, and the trimmed
  conditions are on one line (`Project.OneLined`).
* `lines_of_item`: a project that is accepted and whose summoning is read as other commands.
-/

namespace RigPack

/-- Commands on one line each are got back as lines. -/
theorem Content.closedLines_text {list : List Command}
    (h : ∀ command ∈ list, IsOneLine command.text) :
    Text.closedLines (commands list).text = list.map Command.text :=
  Text.closedLines_unlines_iff.2 (List.forall_mem_map.2 h)

/-! ## What a user writes into commands -/

/-- The conditions that a frame states, as written. -/
def Frame.conditions (frame : Frame) : List String :=
  (frame.commands.bind (·.condition)).toList ++ (frame.switch.bind (·.condition)).toList

/-- Whether all texts of a project that become parts of commands are on one line: the item, if
there is a bone to show it, and the conditions without the blanks around them. -/
structure Project.OneLined (project : Project) : Prop where
  item : project.rig.bones ≠ [] → IsOneLine project.item
  conditions : ∀ animation ∈ project.animations, ∀ frame ∈ animation.frames,
    ∀ condition ∈ frame.conditions, IsOneLine (Text.trim condition)

namespace Blueprint

/-- The conditions of an animation's frames are those of the leaves of its timeline. -/
theorem forall_conditions_iff {rig : Rig} {variants : VariantSet} {animation : Animation}
    {motion : Motion} (h : Motion.ofAnimation rig variants animation = .ok motion)
    (p : String → Prop) :
    (∀ index frame, motion.timeline.HasLeaf index frame → ∀ condition ∈ frame.conditions,
      p condition) ↔ ∀ frame ∈ animation.frames, ∀ condition ∈ frame.conditions, p condition := by
  constructor
  · intro hleaves frame hframe
    obtain ⟨index, hindex⟩ := List.mem_iff_getElem?.1 hframe
    exact hleaves index _ ((hasLeaf_ofAnimation_iff h).2 ⟨frame, hindex, rfl⟩)
  · intro hall index keyframe hleaf
    obtain ⟨frame, hindex, rfl⟩ := (hasLeaf_ofAnimation_iff h).1 hleaf
    exact hall frame (List.mem_of_getElem? hindex)

/-- A blueprint brings the texts of its project into commands. -/
theorem oneLined_ofProject_iff {project : Project} {blueprint : Blueprint}
    (h : ofProject project = .ok blueprint) : blueprint.OneLined ↔ project.OneLined := by
  obtain ⟨variants, -, -, -, hmotions⟩ := Export.ofProject_eq_ok h
  have hparts : blueprint.parts ≠ [] ↔ project.rig.bones ≠ [] := by
    rw [← List.length_pos_iff, ← List.length_pos_iff, (parts_ofProject h).length_eq]
  have hitem := item_ofProject h
  constructor
  · rintro ⟨hone, hconditions⟩
    refine ⟨fun hbones => hitem ▸ hone (hparts.2 hbones), fun animation hanimation => ?_⟩
    obtain ⟨motion, hmotion, hok⟩ := exists_right_of_forall₂ hmotions hanimation
    exact (forall_conditions_iff hok _).1 (hconditions motion hmotion)
  · rintro ⟨hone, hconditions⟩
    refine ⟨fun hne => hitem ▸ hone (hparts.1 hne), fun motion hmotion => ?_⟩
    obtain ⟨animation, hanimation, hok⟩ := exists_left_of_forall₂ hmotions hmotion
    exact (forall_conditions_iff hok _).2 (hconditions animation hanimation)

/-- No command of a function has a second line if no text of the project breaks its line. -/
theorem isOneLine_of_oneLined {project : Project} {blueprint : Blueprint}
    (hblueprint : ofProject project = .ok blueprint) (hsound : blueprint.Sound)
    (hnamed : blueprint.Named) {settings : Settings} (hone : project.OneLined) {path : List String}
    {name : String} {list : List Command}
    (hmem : .file path name (.commands list) ∈ blueprint.layout settings) :
    ∀ command ∈ list, IsOneLine command.text := by
  have hlayout := (oneLined_layout_iff hnamed hsound settings).2
    ((oneLined_ofProject_iff hblueprint).2 hone)
  exact fun command hcommand => command.isOneLine_text_iff.2 (hlayout _ hmem command hcommand)

end Blueprint

namespace Export

/-- The functions of an accepted project have a command on each line, and are split again at
their line feeds into the commands that were written, exactly if no text of the project that
becomes a part of a command breaks its line: the item, if there is a bone, and the conditions. -/
theorem lines_are_commands_iff {settings : Settings} {project : Project} {pack : Folder}
    (h : build settings project = .ok pack) :
    (∀ path name file list, pack.file? path name = some file → file.content = .commands list →
      (∀ command ∈ list, IsOneLine command.text) ∧
      Text.closedLines file.content.text = list.map Command.text) ↔ project.OneLined := by
  obtain ⟨blueprint, haccepted, hblueprint, rfl⟩ := build_eq_ok h
  have hsound := Blueprint.sound_of_build haccepted hblueprint
  have hnamed := Blueprint.named_of_build haccepted hblueprint
  constructor
  · intro hfiles
    rw [← Blueprint.oneLined_ofProject_iff hblueprint,
      ← Blueprint.oneLined_layout_iff hnamed hsound settings]
    intro placement hplacement
    -- what is placed in a pack is found there, as the places differ
    cases placement with
    | folder path => trivial
    | file path name content =>
        cases content with
        | json value => trivial
        | commands list =>
            intro command hcommand
            rw [← Command.isOneLine_text_iff]
            exact (hfiles path name _ list (hsound.file?_pack hplacement) rfl).1 command hcommand
  · intro hone path name file list hfile hcontent
    have hmem := Blueprint.mem_layout_of_file? hfile
    rw [hcontent] at hmem ⊢
    have hlines := Blueprint.isOneLine_of_oneLined hblueprint hsound hnamed hone hmem
    exact ⟨hlines, Content.closedLines_text hlines⟩

/-- A project of one bone that shows an item, which is accepted if the item is not blank. -/
def oneBone (item : String) : Project :=
  ⟨"fox", item, ⟨[⟨"b", "body", 1⟩], Table.empty.insert "b" default, .empty⟩,
    [⟨"plain", true, [], false⟩], []⟩

/-- A stick is on one line. -/
theorem lines_are_commands_of_stick :
    ∃ pack, build ⟨"packs", 1, 12⟩ (oneBone "stick") = .ok pack ∧
      ∀ path name file list, pack.file? path name = some file → file.content = .commands list →
        (∀ command ∈ list, IsOneLine command.text) ∧
        Text.closedLines file.content.text = list.map Command.text := by
  have haccepted : (build ⟨"packs", 1, 12⟩ (oneBone "stick")).toOption.isSome = true := by
    decide +kernel
  obtain ⟨pack, hbuild⟩ := exists_ok_of_isSome haccepted
  refine ⟨pack, hbuild, (lines_are_commands_iff hbuild).2 ⟨fun _ => by decide, ?_⟩⟩
  simp [oneBone]

/-- An item of two lines is accepted.  The function that summons the rig has then two commands, and
its text is read as others. -/
theorem lines_of_item :
    ∃ pack file list, build ⟨"packs", 1, 12⟩ (oneBone "stick\nsay hi") = .ok pack ∧
      pack.file? ["data", "zzz_fox_internal", "functions"] "summon.mcfunction" = some file ∧
      file.content = .commands list ∧
      Text.closedLines file.content.text ≠ list.map Command.text := by
  have haccepted :
      (build ⟨"packs", 1, 12⟩ (oneBone "stick\nsay hi")).toOption.isSome = true := by
    decide +kernel
  obtain ⟨pack, hbuild⟩ := exists_ok_of_isSome haccepted
  obtain ⟨blueprint, hchecked, hblueprint, rfl⟩ := build_eq_ok hbuild
  have hsound := Blueprint.sound_of_build hchecked hblueprint
  have hnamed := Blueprint.named_of_build hchecked hblueprint
  obtain ⟨-, -, hnames, -, -⟩ := ofProject_eq_ok hblueprint
  have hplacement := blueprint.summon_mem_layout ⟨"packs", 1, 12⟩
  rw [hnames] at hplacement
  refine ⟨_, _, _, hbuild, hsound.file?_pack hplacement, rfl, fun hlines => ?_⟩
  -- the data of the rig hold the item, and the item holds a line feed
  rw [Content.text, Text.closedLines_unlines_iff, List.map_cons, List.forall_mem_cons,
    Command.isOneLine_text_iff] at hlines
  have hparts : blueprint.parts ≠ [] := by
    rw [← List.length_pos_iff, ← (Blueprint.parts_ofProject hblueprint).length_eq]
    decide
  have hitem := (Blueprint.isOneLine_data_iff hnamed ⟨"packs", 1, 12⟩).1 hlines.1 hparts
  rw [Blueprint.item_ofProject hblueprint] at hitem
  exact absurd hitem (by decide)

end Export

end RigPack

import RigPack.Proofs.Game.Displays
import RigPack.Proofs.Pack.Leaves
import RigPack.Proofs.Pack.References

/-!
# The tags in a pack

Commands find the entities of a rig by tags.  A tag is given to an entity by the data it is
summoned with or by a command, and from then on clauses ask for it.  This file says which
tags the functions of a pack deal with: that of fresh entities, and those that derive from
the namespace of the project and the names of its bones and animations.  What users write
into commands themselves is not read.

## Strategy

The layout is gone through placement by placement.  The bones that looks and frames name are
among the parts, since they were looked up in the rig (`Blueprint.Joined`).

## Main statements

* `Blueprint.Sound.marks_pack_iff`: the tags of a pack are those of its blueprint.
* `Export.marks_iff`: for an accepted project they are those of the project.
-/

namespace RigPack

/-! ## Tags of commands -/

/-- The tags that a clause asks entities for. -/
def Clause.tags : Clause → List String
  | .asEvery _ tag => [tag]
  | .asNearby _ tag => [tag]
  | .ifTagged tag => [tag]
  | .ifUntagged tag => [tag]
  | _ => []

/-- The tags of an entity and of those that ride on it, by its data. -/
def Snbt.allTags (data : Snbt) : List String :=
  data.tags ++ (((data.get? "Passengers").map items).getD []).flatMap tags

/-- The tags that a command gives, takes off or asks for. -/
def Command.tags : Command → List String
  | .addTag tag => [tag]
  | .removeTag tag => [tag]
  | .summon _ data => data.allTags
  | .mergeData data => data.allTags
  | .execute clauses command => clauses.flatMap Clause.tags ++ command.tags
  | _ => []

attribute [simp] Clause.tags Command.tags

/-- The tags in the commands of a function. -/
def Placement.tags : Placement → List String
  | .file _ _ (.commands commands) => commands.flatMap Command.tags
  | _ => []

/-- Whether a function of a pack deals with a tag. -/
def Folder.Marks (pack : Folder) (tag : String) : Prop :=
  ∃ dir name file commands, pack.file? dir name = some file ∧ file.content = .commands commands ∧
    ∃ command ∈ commands, tag ∈ command.tags

theorem Command.tags_guarded (condition : Option String) (command : Command) :
    (guarded condition command).tags = command.tags := by
  unfold guarded
  split
  · rfl
  · split <;> rfl

namespace Blueprint

open Placement

@[simp] theorem tags_function (location : Location) (commands : List Command) :
    (function location commands).tags = commands.flatMap Command.tags := rfl

@[simp] theorem tags_folder (path : List String) : (folder path).tags = [] := rfl

@[simp] theorem tags_json (path : List String) (name : String) (value : Json) :
    (file path name (.json value)).tags = [] := rfl

@[simp] theorem tags_run (location : Location) : (Command.run location).tags = [] := rfl

@[simp] theorem tags_execute (clauses : List Clause) (command : Command) :
    (Command.execute clauses command).tags = clauses.flatMap Clause.tags ++ command.tags := rfl

/-- The tags that derive from the names in a blueprint. -/
def tags (blueprint : Blueprint) : List String :=
  blueprint.names.rootTag :: blueprint.parts.map (blueprint.names.boneTag ·.name)
    ++ blueprint.motions.map (blueprint.names.activeTag ·.name)

/-- Whether the bones that looks and frames name are parts of the rig. -/
structure Joined (blueprint : Blueprint) : Prop where
  models : ∀ look ∈ blueprint.looks, ∀ model ∈ look.models,
    model.1 ∈ blueprint.parts.map (·.name)
  poses : ∀ motion ∈ blueprint.motions, ∀ index frame, motion.timeline.HasLeaf index frame →
    ∀ pose ∈ frame.poses, pose.1 ∈ blueprint.parts.map (·.name)

theorem joined_ofProject {project : Project} {blueprint : Blueprint}
    (h : ofProject project = .ok blueprint) : blueprint.Joined := by
  obtain ⟨set, -, -, hlooks, hmotions⟩ := Export.ofProject_eq_ok h
  constructor
  · intro look hlook model hmodel
    obtain ⟨variant, -, hok⟩ := exists_left_of_forall₂ hlooks hlook
    obtain ⟨bone, hbone, hname⟩ := exists_bone_of_ofVariant hok model hmodel
    rw [hname, names_parts h]
    exact List.mem_map_of_mem hbone
  · intro motion hmotion index keyframe hleaf pose hpose
    obtain ⟨animation, -, hok⟩ := exists_left_of_forall₂ hmotions hmotion
    obtain ⟨frame, -, rfl⟩ := (hasLeaf_ofAnimation_iff hok).1 hleaf
    obtain ⟨bone, hbone, hfound⟩ := List.mem_filterMap.1 hpose
    obtain ⟨transform, -, rfl⟩ := Option.map_eq_some_iff.1 hfound
    rw [names_parts h]
    exact List.mem_map_of_mem hbone

/-! ## Tags of placements -/

theorem tags_loadAndTick (names : Naming) (settings : Settings) :
    (loadAndTick names settings).flatMap Placement.tags = [names.rootTag] := by
  simp [loadAndTick_eq, loadCommands, Objective.all, LoopMode.all, Command.tags, Clause.tags]

theorem tags_rootOnly (names : Naming) (path : List String) (internal : Location) :
    (rootOnly names path internal).flatMap Command.tags = [names.rootTag, names.rootTag] := by
  simp [rootOnly, Command.tags, Clause.tags]

theorem tags_removal (names : Naming) :
    (removal names).flatMap Placement.tags = [names.rootTag, names.rootTag, names.rootTag] := by
  simp [removal_eq, tags_rootOnly, Command.tags, Clause.tags]

theorem tags_look (names : Naming) (look : Look) :
    (look.layout names).flatMap Placement.tags
      = [names.rootTag, names.rootTag] ++ look.models.map (names.boneTag ·.1) := by
  simp [Look.layout_eq, Look.boneCommands, tags_rootOnly, Command.tags, Clause.tags,
    List.flatMap_map]
  exact List.map_eq_flatMap.symm

theorem tags_animationTick (blueprint : Blueprint) :
    blueprint.animationTick.tags
      = blueprint.motions.map (blueprint.names.activeTag ·.name) := by
  simp [animationTick_eq, Command.tags, Clause.tags, List.flatMap_map]
  exact List.map_eq_flatMap.symm

theorem tags_controls (names : Naming) (motion : Motion) :
    (motion.controls names).flatMap Placement.tags
      = List.replicate 4 (names.activeTag motion.name) := by
  simp [Motion.controls_eq, Motion.prepare, Motion.rewind, Motion.activate, Motion.deactivate,
    Command.tags, Clause.tags]

theorem tags_driving (names : Naming) (motion : Motion) :
    (motion.driving names).flatMap Placement.tags = [] := by
  simp [Motion.driving_eq, Motion.tickCommands, Motion.endCommands, Motion.inMode, Motion.rewind,
    Timeline.dispatch, Command.tags, Clause.tags]

theorem tags_data (names : Naming) (item : String) (ticks : Int32) (part : Part) :
    (part.data names item ticks).tags = [freshTag, names.boneTag part.name] :=
  rfl

/-- The data of a rig give the tags of its root and of its bones. -/
theorem allTags_data (blueprint : Blueprint) (settings : Settings) :
    (blueprint.data settings).allTags
      = freshTag :: blueprint.names.rootTag ::
        blueprint.parts.flatMap fun part => [freshTag, blueprint.names.boneTag part.name] := by
  change [freshTag, blueprint.names.rootTag] ++ (blueprint.parts.map _).flatMap Snbt.tags = _
  rw [List.flatMap_map]
  simp only [tags_data]
  rfl

theorem tags_setUpRoot (blueprint : Blueprint) :
    blueprint.setUpRoot.flatMap Command.tags = [freshTag] := by
  simp [setUpRoot, Command.tags, Clause.tags, List.flatMap_map]

theorem tags_summonOthers (blueprint : Blueprint) :
    blueprint.summonOthers.flatMap Placement.tags = [] := by
  rw [summonOthers_eq, List.flatMap_map]
  simp [summonLook, Command.tags]

theorem tags_summoning (blueprint : Blueprint) (settings : Settings) :
    (blueprint.summoning settings).flatMap Placement.tags
      = (blueprint.data settings).allTags ++ [freshTag, freshTag, freshTag] := by
  simp [summoning_eq, summonLook, tags_summonOthers, tags_setUpRoot, Command.tags, Clause.tags]

theorem tags_rootCommands (names : Naming) (animation : String) (index : Nat) (frame : Keyframe) :
    (Timeline.rootCommands names animation index frame).flatMap Command.tags = [] := by
  unfold Timeline.rootCommands
  cases frame.commands <;> cases frame.switch <;> simp [Command.tags_guarded, Clause.tags]

/-- The functions of a timeline ask for the tags of the bones that its frames move. -/
theorem exists_pose_of_mem_tags {names : Naming} {animation : String} {node : Timeline}
    {unit : FunctionUnit} (hunit : unit ∈ Timeline.units names animation node) {tag : String}
    (h : tag ∈ unit.commands.flatMap Command.tags) :
    ∃ index frame, node.HasLeaf index frame ∧ ∃ pose ∈ frame.poses,
      tag = names.boneTag pose.1 := by
  rcases Timeline.mem_units hunit with ⟨index, frame, hleaf, hmem, -⟩ | ⟨children, hchildren, -⟩
  · rw [Timeline.leafUnits, List.mem_append, Option.mem_toList, Option.map_eq_some_iff] at hmem
    rcases hmem with ⟨commands, -, rfl⟩ | hmem
    · -- what a user wrote is not read
      rw [List.flatMap_map] at h
      simp [Command.tags] at h
    · rcases List.mem_pair.1 hmem with rfl | rfl
      · rw [tags_rootCommands] at h
        exact absurd h List.not_mem_nil
      · obtain ⟨command, hcommand, htag⟩ := List.mem_flatMap.1 h
        obtain ⟨pose, hpose, rfl⟩ := List.mem_map.1 hcommand
        have htags : tag ∈ [names.boneTag pose.1] := htag
        exact ⟨index, frame, hleaf, pose, hpose, List.mem_singleton.1 htags⟩
  · rw [hchildren, List.flatMap_map] at h
    simp [Timeline.dispatch, Clause.tags] at h

/-! ## The tags of a pack -/

theorem mem_tags_iff {blueprint : Blueprint} {tag : String} :
    tag ∈ blueprint.tags ↔ tag = blueprint.names.rootTag ∨
      (∃ name ∈ blueprint.parts.map (·.name), tag = blueprint.names.boneTag name) ∨
      ∃ name ∈ blueprint.motions.map (·.name), tag = blueprint.names.activeTag name := by
  simp [tags, eq_comm]

theorem rootTag_mem_tags (blueprint : Blueprint) : blueprint.names.rootTag ∈ blueprint.tags :=
  mem_tags_iff.2 (.inl rfl)

theorem boneTag_mem_tags {blueprint : Blueprint} {name : String}
    (h : name ∈ blueprint.parts.map (·.name)) :
    blueprint.names.boneTag name ∈ blueprint.tags :=
  mem_tags_iff.2 (.inr (.inl ⟨name, h, rfl⟩))

theorem activeTag_mem_tags {blueprint : Blueprint} {name : String}
    (h : name ∈ blueprint.motions.map (·.name)) :
    blueprint.names.activeTag name ∈ blueprint.tags :=
  mem_tags_iff.2 (.inr (.inr ⟨name, h, rfl⟩))

theorem mem_tags_of_summoning {blueprint : Blueprint} {settings : Settings} {tag : String}
    (h : tag ∈ (blueprint.summoning settings).flatMap Placement.tags) :
    tag = freshTag ∨ tag ∈ blueprint.tags := by
  rw [tags_summoning, List.mem_append, allTags_data, List.mem_cons, List.mem_cons] at h
  rcases h with (hfresh | rfl | hpart) | hfresh
  · exact .inl hfresh
  · exact .inr (rootTag_mem_tags blueprint)
  · obtain ⟨part, hmem, htag⟩ := List.mem_flatMap.1 hpart
    rcases List.mem_pair.1 htag with hfresh | rfl
    · exact .inl hfresh
    · exact .inr (boneTag_mem_tags (List.mem_map_of_mem hmem))
  · exact .inl (List.eq_of_mem_replicate (n := 3) hfresh)

theorem mem_tags_of_looks {blueprint : Blueprint} (hjoined : blueprint.Joined) {tag : String}
    (h : tag ∈ (blueprint.looks.flatMap (Look.layout blueprint.names)).flatMap Placement.tags) :
    tag ∈ blueprint.tags := by
  rw [List.flatMap_assoc] at h
  obtain ⟨look, hlook, htag⟩ := List.mem_flatMap.1 h
  rw [tags_look, List.mem_append] at htag
  rcases htag with hroot | hbone
  · rcases List.mem_pair.1 hroot with rfl | rfl <;> exact rootTag_mem_tags blueprint
  · obtain ⟨model, hmodel, rfl⟩ := List.mem_map.1 hbone
    exact boneTag_mem_tags (hjoined.models look hlook model hmodel)

theorem mem_tags_of_motions {blueprint : Blueprint} (hjoined : blueprint.Joined) {tag : String}
    (h : tag ∈ (blueprint.motions.flatMap (Motion.layout blueprint.names)).flatMap
      Placement.tags) :
    tag ∈ blueprint.tags := by
  rw [List.flatMap_assoc] at h
  obtain ⟨motion, hmotion, htag⟩ := List.mem_flatMap.1 h
  rw [Motion.layout, List.flatMap_append, List.flatMap_append, tags_controls, tags_driving,
    List.append_nil, List.mem_append] at htag
  rcases htag with hcontrol | htimeline
  · rw [List.eq_of_mem_replicate hcontrol]
    exact activeTag_mem_tags (List.mem_map_of_mem hmotion)
  · rw [Motion.timelineLayout_eq, List.flatMap_map] at htimeline
    obtain ⟨unit, hunit, htag⟩ := List.mem_flatMap.1 htimeline
    obtain ⟨index, frame, hleaf, pose, hpose, rfl⟩ := exists_pose_of_mem_tags hunit htag
    exact boneTag_mem_tags (hjoined.poses motion hmotion index frame hleaf pose hpose)

/-- The functions of a pack deal with the tag of fresh entities and those of its blueprint. -/
theorem mem_tags_of_layout {blueprint : Blueprint} (hjoined : blueprint.Joined)
    {settings : Settings} {placement : Placement} (h : placement ∈ blueprint.layout settings)
    {tag : String} (htag : tag ∈ placement.tags) : tag = freshTag ∨ tag ∈ blueprint.tags := by
  have hmem : tag ∈ (blueprint.layout settings).flatMap Placement.tags :=
    List.mem_flatMap.2 ⟨placement, h, htag⟩
  have hmetadata : (metadata blueprint.names settings).flatMap Placement.tags = [] := by
    simp [metadata]
  have hgroups : (groups blueprint.names).flatMap Placement.tags = [] := by
    simp [groups_eq, functionGroup, entityGroup, resource, listing]
  simp only [layout, List.flatMap_append, hmetadata, hgroups, tags_loadAndTick, tags_removal,
    List.mem_append] at hmem
  rcases hmem with ((((((hnone | hnone) | hbasic) | hsummoning) | hremoval) | hlook) | htick) |
    hmotion
  · exact absurd hnone List.not_mem_nil
  · exact absurd hnone List.not_mem_nil
  · rw [List.mem_singleton.1 hbasic]
    exact .inr (rootTag_mem_tags blueprint)
  · exact mem_tags_of_summoning hsummoning
  · have heq : tag = blueprint.names.rootTag := by simpa using hremoval
    rw [heq]
    exact .inr (rootTag_mem_tags blueprint)
  · exact .inr (mem_tags_of_looks hjoined hlook)
  · rw [List.flatMap_singleton, tags_animationTick] at htick
    obtain ⟨motion, hmotion, rfl⟩ := List.mem_map.1 htick
    exact .inr (activeTag_mem_tags (List.mem_map_of_mem hmotion))
  · exact .inr (mem_tags_of_motions hjoined hmotion)

/-- The functions of a pack deal with all tags of its blueprint. -/
theorem exists_layout_of_mem_tags {blueprint : Blueprint} (settings : Settings) {tag : String}
    (h : tag = freshTag ∨ tag ∈ blueprint.tags) :
    ∃ location commands, function location commands ∈ blueprint.layout settings ∧
      ∃ command ∈ commands, tag ∈ command.tags := by
  -- the rig is summoned with all tags but those of the animations
  have hsummon (hmem : tag ∈ (blueprint.data settings).allTags) :
      ∃ location commands, function location commands ∈ blueprint.layout settings ∧
        ∃ command ∈ commands, tag ∈ command.tags :=
    ⟨_, _, summon_mem_layout blueprint settings, _, List.mem_cons_self .., hmem⟩
  rw [allTags_data] at hsummon
  rw [mem_tags_iff] at h
  rcases h with rfl | rfl | ⟨name, hname, rfl⟩ | ⟨name, hname, rfl⟩
  · exact hsummon (List.mem_cons_self ..)
  · exact hsummon (.tail _ (List.mem_cons_self ..))
  · obtain ⟨part, hpart, rfl⟩ := List.mem_map.1 hname
    refine hsummon (.tail _ (.tail _ (List.mem_flatMap.2 ⟨part, hpart, ?_⟩)))
    exact List.mem_pair.2 (.inr rfl)
  · obtain ⟨motion, hmotion, rfl⟩ := List.mem_map.1 hname
    have htick := animationTick_mem_layout blueprint settings
    rw [animationTick_eq] at htick
    exact ⟨_, _, htick, _, List.mem_map_of_mem hmotion, List.mem_cons_self ..⟩

/-- The tags of a pack are the one of fresh entities and those of its blueprint. -/
theorem Sound.marks_pack_iff {blueprint : Blueprint} (hsound : blueprint.Sound)
    (hjoined : blueprint.Joined) {settings : Settings} {tag : String} :
    (blueprint.pack settings).Marks tag ↔ tag = freshTag ∨ tag ∈ blueprint.tags := by
  constructor
  · rintro ⟨dir, name, file, commands, hfile, hcontent, command, hcommand, htag⟩
    have hmem := mem_layout_of_file? hfile
    rw [hcontent] at hmem
    exact mem_tags_of_layout hjoined hmem (List.mem_flatMap.2 ⟨command, hcommand, htag⟩)
  · intro h
    obtain ⟨location, commands, hmem, hcommand⟩ := exists_layout_of_mem_tags settings h
    exact ⟨_, _, _, commands, hsound.file?_pack hmem, rfl, hcommand⟩

end Blueprint

/-- The tags that derive from the names in a project. -/
def Project.tags (project : Project) : List String :=
  Naming.rootTag ⟨project.space⟩ ::
    project.rig.bones.map (Naming.boneTag ⟨project.space⟩ ·.name)
    ++ project.animations.map (Naming.activeTag ⟨project.space⟩ ·.name)

theorem Blueprint.tags_ofProject {project : Project} {blueprint : Blueprint}
    (h : ofProject project = .ok blueprint) : blueprint.tags = project.tags := by
  have hnames := Export.names_ofProject h
  have hparts := congrArg (List.map blueprint.names.boneTag) (names_parts h)
  have hmotions := congrArg (List.map blueprint.names.activeTag) (names_motions h)
  simp only [List.map_map] at hparts hmotions
  unfold tags Project.tags
  rw [← hnames]
  exact congrArg₂ (fun bones animations => blueprint.names.rootTag :: bones ++ animations)
    hparts hmotions

/-- The tags of the pack of an accepted project are the one of fresh entities and those
that derive from the names in the project. -/
theorem Export.marks_iff {settings : Settings} {project : Project} {pack : Folder}
    (h : build settings project = .ok pack) {tag : String} :
    pack.Marks tag ↔ tag = freshTag ∨ tag ∈ project.tags := by
  obtain ⟨blueprint, haccepted, hblueprint, rfl⟩ := build_eq_ok h
  rw [← Blueprint.tags_ofProject hblueprint]
  exact (Blueprint.sound_of_build haccepted hblueprint).marks_pack_iff
    (Blueprint.joined_ofProject hblueprint)

end RigPack

import RigPack.Proofs.Export.Summoning
import RigPack.Proofs.Pack.Leaves
import RigPack.Proofs.Pack.References
import RigPack.Proofs.Project.Poses

/-!
# The transforms in a pack

Displays take their transforms from data, of a rig that is summoned and of frames that are
merged.  This file says which transforms the functions of a pack hold, and how their entries
are written: with digits where the number in the document fits into 32 bits, and with a word
that no reader of data takes for a number where it does not.

## Main statements

* `Export.hasTransform_iff`: the transforms in a pack are the poses that the project shows.
* `Export.transforms_spell_document`: how their entries are written, by the numbers of the
  document, whatever it is read with, as long as numbers are rounded.
* `Export.transform_of_huge_number`: a document that is accepted, and an infinity in its pack.

## Strategy

The layout is gone through placement by placement, as for tags: only the function that summons
a rig and those that frames run for bones hold data.  From there `Project.standsIn_of_shows`
leads back to the document.
-/

namespace RigPack

/-! ## Transforms in commands -/

namespace Snbt

mutual

/-- The values that stand under a key, at any depth. -/
def under (key : String) : Snbt → List Snbt
  | .list items => underItems key items
  | .compound entries => underEntries key entries
  | _ => []

/-- What stands under a key in the items of a list. -/
def underItems (key : String) : List Snbt → List Snbt
  | [] => []
  | item :: items => under key item ++ underItems key items

/-- What stands under a key in the entries of a compound. -/
def underEntries (key : String) : List (String × Snbt) → List Snbt
  | [] => []
  | (other, value) :: entries =>
    (if other = key then [value] else []) ++ under key value ++ underEntries key entries

end

theorem underItems_eq_flatMap (key : String) (items : List Snbt) :
    underItems key items = items.flatMap (under key) := by
  induction items with
  | nil => rfl
  | cons item items ih => rw [underItems, ih, List.flatMap_cons]

@[simp] theorem under_ofTransform (key : String) (pose : Transform) :
    (ofTransform pose).under key = [] := by
  rw [ofTransform, under, underItems_eq_flatMap, List.flatMap_map]
  exact List.flatMap_eq_nil_iff.2 fun x _ => rfl

end Snbt

/-- The transforms in the data of a command. -/
def Command.transforms : Command → List Snbt
  | .summon _ data => data.under "transformation"
  | .mergeData data => data.under "transformation"
  | .execute _ command => command.transforms
  | _ => []

attribute [simp] Snbt.under Snbt.underEntries Snbt.underItems Command.transforms

/-- The transforms in the commands of a function. -/
def Placement.transforms : Placement → List Snbt
  | .file _ _ (.commands commands) => commands.flatMap Command.transforms
  | _ => []

/-- Whether a function of a pack holds a transform. -/
def Folder.HasTransform (pack : Folder) (value : Snbt) : Prop :=
  ∃ dir name file commands, pack.file? dir name = some file ∧ file.content = .commands commands ∧
    ∃ command ∈ commands, value ∈ command.transforms

theorem Command.transforms_guarded (condition : Option String) (command : Command) :
    (guarded condition command).transforms = command.transforms := by
  unfold guarded
  split
  · rfl
  · split <;> rfl

namespace Blueprint

open Placement

@[simp] theorem transforms_function (location : Location) (commands : List Command) :
    (function location commands).transforms = commands.flatMap Command.transforms := rfl

@[simp] theorem transforms_folder (path : List String) : (folder path).transforms = [] := rfl

@[simp] theorem transforms_json (path : List String) (name : String) (value : Json) :
    (file path name (.json value)).transforms = [] := rfl

@[simp] theorem transforms_run (location : Location) : (Command.run location).transforms = [] :=
  rfl

/-! ## Transforms of placements -/

theorem transforms_loadAndTick (names : Naming) (settings : Settings) :
    (loadAndTick names settings).flatMap Placement.transforms = [] := by
  simp [loadAndTick_eq, loadCommands, Objective.all, LoopMode.all]

theorem transforms_rootOnly (names : Naming) (path : List String) (internal : Location) :
    (rootOnly names path internal).flatMap Command.transforms = [] := by
  simp [rootOnly]

theorem transforms_removal (names : Naming) :
    (removal names).flatMap Placement.transforms = [] := by
  simp [removal_eq, transforms_rootOnly]

theorem transforms_look (names : Naming) (look : Look) :
    (look.layout names).flatMap Placement.transforms = [] := by
  simp [Look.layout_eq, Look.boneCommands, transforms_rootOnly, List.flatMap_map]

theorem transforms_animationTick (blueprint : Blueprint) :
    blueprint.animationTick.transforms = [] := by
  simp [animationTick_eq, List.flatMap_map]

theorem transforms_controls (names : Naming) (motion : Motion) :
    (motion.controls names).flatMap Placement.transforms = [] := by
  simp [Motion.controls_eq, Motion.prepare, Motion.rewind, Motion.activate, Motion.deactivate]

theorem transforms_driving (names : Naming) (motion : Motion) :
    (motion.driving names).flatMap Placement.transforms = [] := by
  simp [Motion.driving_eq, Motion.tickCommands, Motion.endCommands, Motion.inMode, Motion.rewind,
    Timeline.dispatch]

theorem transforms_part (names : Naming) (item : String) (ticks : Int32) (part : Part) :
    (part.data names item ticks).under "transformation" = [.ofTransform part.rest] := by
  simp [Part.data]

/-- The data of a rig hold the poses of its parts at rest. -/
theorem transforms_data (blueprint : Blueprint) (settings : Settings) :
    (blueprint.data settings).under "transformation"
      = blueprint.parts.map fun part => .ofTransform part.rest := by
  simp only [data, Snbt.under, Snbt.underEntries, Snbt.underItems, Snbt.underItems_eq_flatMap,
    List.flatMap_map, transforms_part]
  simp [List.map_eq_flatMap]

theorem transforms_summoning (blueprint : Blueprint) (settings : Settings) :
    (blueprint.summoning settings).flatMap Placement.transforms
      = blueprint.parts.map fun part => .ofTransform part.rest := by
  have hothers : blueprint.summonOthers.flatMap Placement.transforms = [] := by
    rw [summonOthers_eq, List.flatMap_map]
    simp [summonLook]
  have hroot : blueprint.setUpRoot.flatMap Command.transforms = [] := by
    simp [setUpRoot, List.flatMap_map]
  simp [summoning_eq, summonLook, hothers, hroot, transforms_data]

theorem transforms_rootCommands (names : Naming) (animation : String) (index : Nat)
    (frame : Keyframe) :
    (Timeline.rootCommands names animation index frame).flatMap Command.transforms = [] := by
  unfold Timeline.rootCommands
  cases frame.commands <;> cases frame.switch <;> simp [Command.transforms_guarded]

theorem transforms_boneCommands (names : Naming) (frame : Keyframe) :
    (Timeline.boneCommands names frame).flatMap Command.transforms
      = frame.poses.map fun pose => .ofTransform pose.2 := by
  rw [Timeline.boneCommands, List.flatMap_map, List.map_eq_flatMap]
  simp

/-- The functions of a timeline hold the poses of its frames. -/
theorem mem_transforms_units_iff {names : Naming} {animation : String} {node : Timeline}
    {value : Snbt} :
    value ∈ (Timeline.units names animation node).flatMap (·.commands.flatMap Command.transforms) ↔
      ∃ index frame, node.HasLeaf index frame ∧ ∃ pose ∈ frame.poses,
        value = .ofTransform pose.2 := by
  constructor
  · intro h
    obtain ⟨unit, hunit, hvalue⟩ := List.mem_flatMap.1 h
    rcases Timeline.mem_units hunit with ⟨index, frame, hleaf, hmem, -⟩ | ⟨children, hchildren, -⟩
    · rw [Timeline.leafUnits, List.mem_append, Option.mem_toList, Option.map_eq_some_iff] at hmem
      rcases hmem with ⟨commands, -, rfl⟩ | hmem
      · -- what a user wrote is not read
        rw [List.flatMap_map] at hvalue
        simp at hvalue
      · rcases List.mem_pair.1 hmem with rfl | rfl
        · rw [transforms_rootCommands] at hvalue
          exact absurd hvalue List.not_mem_nil
        · rw [transforms_boneCommands] at hvalue
          obtain ⟨pose, hpose, rfl⟩ := List.mem_map.1 hvalue
          exact ⟨index, frame, hleaf, pose, hpose, rfl⟩
    · rw [hchildren, List.flatMap_map] at hvalue
      simp [Timeline.dispatch] at hvalue
  · rintro ⟨index, frame, hleaf, pose, hpose, rfl⟩
    have hunit : ⟨boneUnit index, Timeline.boneCommands names frame⟩ ∈
        Timeline.units names animation node :=
      Timeline.leafUnits_subset_of_hasLeaf hleaf (by simp [Timeline.leafUnits])
    refine List.mem_flatMap.2 ⟨_, hunit, ?_⟩
    dsimp only
    rw [transforms_boneCommands]
    exact List.mem_map_of_mem hpose

theorem transforms_motion (names : Naming) (motion : Motion) :
    (motion.layout names).flatMap Placement.transforms
      = (Timeline.units names motion.name motion.timeline).flatMap
        (·.commands.flatMap Command.transforms) := by
  rw [Motion.layout, List.flatMap_append, List.flatMap_append, transforms_controls,
    transforms_driving, Motion.timelineLayout_eq, List.flatMap_map]
  rfl

/-! ## The transforms of a pack -/

theorem mem_transforms_layout_iff {blueprint : Blueprint} {settings : Settings} {value : Snbt} :
    value ∈ (blueprint.layout settings).flatMap Placement.transforms ↔
      (∃ part ∈ blueprint.parts, value = .ofTransform part.rest) ∨
      ∃ motion ∈ blueprint.motions, ∃ index frame, motion.timeline.HasLeaf index frame ∧
        ∃ pose ∈ frame.poses, value = .ofTransform pose.2 := by
  have hmetadata : (metadata blueprint.names settings).flatMap Placement.transforms = [] := by
    simp [metadata]
  have hgroups : (groups blueprint.names).flatMap Placement.transforms = [] := by
    simp [groups_eq, functionGroup, entityGroup, resource, listing]
  have hlooks : (blueprint.looks.flatMap (Look.layout blueprint.names)).flatMap
      Placement.transforms = [] := by
    rw [List.flatMap_assoc]
    exact List.flatMap_eq_nil_iff.2 fun look _ => transforms_look blueprint.names look
  simp only [layout, List.flatMap_append, hmetadata, hgroups, transforms_loadAndTick,
    transforms_summoning, transforms_removal, hlooks, List.flatMap_singleton,
    transforms_animationTick, List.nil_append, List.append_nil, List.mem_append]
  refine or_congr ?_ ?_
  · simp only [List.mem_map, eq_comm]
  · rw [List.flatMap_assoc, List.mem_flatMap]
    simp only [transforms_motion, mem_transforms_units_iff]

/-- The transforms of a pack are the poses of its parts and of its frames. -/
theorem Sound.hasTransform_pack_iff {blueprint : Blueprint} (hsound : blueprint.Sound)
    {settings : Settings} {value : Snbt} :
    (blueprint.pack settings).HasTransform value ↔
      (∃ part ∈ blueprint.parts, value = .ofTransform part.rest) ∨
      ∃ motion ∈ blueprint.motions, ∃ index frame, motion.timeline.HasLeaf index frame ∧
        ∃ pose ∈ frame.poses, value = .ofTransform pose.2 := by
  rw [← mem_transforms_layout_iff]
  constructor
  · rintro ⟨dir, name, file, commands, hfile, hcontent, command, hcommand, hvalue⟩
    have hmem := mem_layout_of_file? hfile
    rw [hcontent] at hmem
    exact List.mem_flatMap.2 ⟨_, hmem, List.mem_flatMap.2 ⟨command, hcommand, hvalue⟩⟩
  · intro h
    obtain ⟨placement, hmem, hvalue⟩ := List.mem_flatMap.1 h
    match placement, hmem, hvalue with
    | .file dir name (.commands commands), hmem, hvalue =>
        exact ⟨dir, name, _, commands, hsound.file?_pack hmem, rfl, List.mem_flatMap.1 hvalue⟩

end Blueprint

namespace Export

/-- The transforms in the pack of an accepted project are the poses that the project shows. -/
theorem hasTransform_iff {settings : Settings} {project : Project} {pack : Folder}
    (hbuild : build settings project = .ok pack) {value : Snbt} :
    pack.HasTransform value ↔ ∃ pose, project.Shows pose ∧ value = .ofTransform pose := by
  obtain ⟨blueprint, haccepted, hblueprint, rfl⟩ := build_eq_ok hbuild
  have hparts := Blueprint.parts_ofProject hblueprint
  obtain ⟨variants, -, -, -, hmotions⟩ := ofProject_eq_ok hblueprint
  rw [(Blueprint.sound_of_build haccepted hblueprint).hasTransform_pack_iff]
  constructor
  · rintro (⟨part, hpart, rfl⟩ | ⟨motion, hmotion, index, keyframe, hleaf, pose, hpose, rfl⟩)
    · obtain ⟨bone, hbone, hok⟩ := exists_left_of_forall₂ hparts hpart
      obtain ⟨-, -, hrest⟩ := Blueprint.ofBone_eq_ok hok
      exact ⟨part.rest, ⟨bone, hbone, .inl hrest⟩, rfl⟩
    · obtain ⟨animation, hanimation, hok⟩ := exists_left_of_forall₂ hmotions hmotion
      obtain ⟨frame, hframe, rfl⟩ := (Blueprint.hasLeaf_ofAnimation_iff hok).1 hleaf
      obtain ⟨bone, hbone, hfound⟩ := List.mem_filterMap.1 hpose
      obtain ⟨shown, hshown, rfl⟩ := Option.map_eq_some_iff.1 hfound
      exact ⟨shown, ⟨bone, hbone, .inr ⟨animation, hanimation, frame,
        List.mem_of_getElem? hframe, hshown⟩⟩, rfl⟩
  · rintro ⟨pose, ⟨bone, hbone, hrest | ⟨animation, hanimation, frame, hframe, hpose⟩⟩, rfl⟩
    · obtain ⟨part, hpart, hok⟩ := exists_right_of_forall₂ hparts hbone
      obtain ⟨-, -, hrest'⟩ := Blueprint.ofBone_eq_ok hok
      rw [Option.some.inj (hrest.symm.trans hrest')]
      exact .inl ⟨part, hpart, rfl⟩
    · obtain ⟨motion, hmotion, hok⟩ := exists_right_of_forall₂ hmotions hanimation
      obtain ⟨index, hindex⟩ := List.getElem?_of_mem hframe
      have hleaf := (Blueprint.hasLeaf_ofAnimation_iff hok).2 ⟨frame, hindex, rfl⟩
      have hmem : (bone.name, pose) ∈ frame.posesIn project.rig :=
        List.mem_filterMap.2 ⟨bone, hbone, by rw [hpose]; rfl⟩
      exact .inr ⟨motion, hmotion, index, _, hleaf, _, hmem, rfl⟩

/-- Documents are read with a grammar that rounds numbers.  Then every transform in the pack of an
accepted document is a list of sixteen entries, which are the numbers of an array in the document,
in order.  An entry is written as a float if the number fits into 32 bits, and as an infinity if
it does not; no other word is ever written.  The transforms are the poses of the document in which
bones of the rig stand, at rest and in frames, each of them. -/
theorem transforms_spell_document [Json.Grammar] (hrule : Json.Grammar.RoundsNumbers)
    {document : String} {settings : Settings} {project : Project} {pack : Folder}
    (hparse : Project.parse document = .ok project)
    (hbuild : build settings project = .ok pack) :
    (∀ value, pack.HasTransform value ↔ ∃ pose, project.Shows pose ∧ value = .ofTransform pose) ∧
      ∀ value, pack.HasTransform value →
        ∃ (literals : List Json.Literal) (items : List Snbt),
          value = .list items ∧ literals.length = 16 ∧
          (Json.Draft.array (literals.map .number) .closed).Occurs
            (Json.Grammar.read document).1 ∧
          List.Forall₂ (fun literal item => literal.Spelled item.text) literals items := by
  refine ⟨fun value => hasTransform_iff hbuild, fun value hvalue => ?_⟩
  obtain ⟨pose, hpose, rfl⟩ := (hasTransform_iff hbuild).1 hvalue
  obtain ⟨literals, hoccurs, hnames⟩ := Project.standsIn_of_shows hparse hpose
  refine ⟨literals, _, rfl, ?_, hoccurs, ?_⟩
  · rw [hnames.length_eq]
    exact pose.entries.length_toList
  · rw [List.forall₂_map_right_iff]
    exact hnames.imp fun _ _ => Json.Literal.spelled_of_names hrule

/-- A document of one bone, which stands at rest in a pose of one entry and zeros.  Its records are
written as the lists of their fields. -/
def oneBoneDocument (entry : String) : String :=
  "[[\"fox\",\"stick\"],[[[\"b\",\"body\",1]],\x7b\"b\":[" ++ entry
  ++ ",0,0,0,0,0,0,0,0,0,0,0,0,0,0,0]\x7d],[[\"plain\",true]]]"

/-- A pose of one entry and zeros. -/
def oneEntry (x : Binary.Single) : Transform :=
  ⟨(Vector.replicate 16 (.ofInt 0)).set 0 x⟩

theorem accepts_oneBoneDocument (entry : String) (pose : Transform)
    (h : ((Project.parse (oneBoneDocument entry)).toOption.bind fun project =>
        (build ⟨"packs", 1, 12⟩ project).toOption.map fun _ =>
          (project.rig.bones, project.rig.restPose.get? "b"))
      = some ([⟨"b", "body", 1⟩], some pose)) :
    ∃ project pack, Project.parse (oneBoneDocument entry) = .ok project ∧
      build ⟨"packs", 1, 12⟩ project = .ok pack ∧ project.Shows pose := by
  obtain ⟨project, hparse, h⟩ := Option.bind_eq_some_iff.1 h
  obtain ⟨pack, hbuild, hrig⟩ := Option.map_eq_some_iff.1 h
  obtain ⟨hbones, hrest⟩ := Prod.mk.inj hrig
  refine ⟨project, pack, toOption_eq_some.1 hparse, toOption_eq_some.1 hbuild,
    ⟨"b", "body", 1⟩, ?_, .inl hrest⟩
  rw [hbones]
  exact List.mem_singleton_self _

/-- The greatest number of 32 bits is written with all its digits. -/
theorem transforms_spell_greatest_number :
    ∃ (project : Project) (pack : Folder) (literals : List Json.Literal) (items : List Snbt),
      Project.parse (oneBoneDocument "3.4028235e38") = .ok project ∧
      build ⟨"packs", 1, 12⟩ project = .ok pack ∧ pack.HasTransform (.list items) ∧
      (items.map Snbt.text).head? = some "340282350000000000000000000000000000000f" ∧
      literals.length = 16 ∧
      List.Forall₂ (fun literal item => literal.Spelled item.text) literals items := by
  let greatest : Binary.Single := .ofMagnitude false (Binary.Format.single.infinity - 1)
  obtain ⟨project, pack, hparse, hbuild, hpose⟩ :=
    accepts_oneBoneDocument "3.4028235e38" (oneEntry greatest)
      (by decide +kernel)
  obtain ⟨htransforms, hspelled⟩ := transforms_spell_document Json.roundsNumbers hparse hbuild
  have hvalue := (htransforms _).2 ⟨_, hpose, rfl⟩
  obtain ⟨literals, items, hitems, hlength, -, hall⟩ := hspelled _ hvalue
  refine ⟨project, pack, literals, items, hparse, hbuild, hitems ▸ hvalue, ?_, hlength, hall⟩
  rw [← Snbt.list.inj hitems]
  decide +kernel

/-- A number beyond 32 bits is accepted, and its transform holds an infinity. -/
theorem transform_of_huge_number :
    ∃ (project : Project) (pack : Folder) (items : List Snbt) (item : Snbt),
      Project.parse (oneBoneDocument "1e39") = .ok project ∧
      build ⟨"packs", 1, 12⟩ project = .ok pack ∧ pack.HasTransform (.list items) ∧
      item ∈ items ∧ item.text = "inff" ∧ Snbt.isFloatText item.text = false := by
  obtain ⟨project, pack, hparse, hbuild, hpose⟩ :=
    accepts_oneBoneDocument "1e39" (oneEntry (.infinite false))
      (by decide +kernel)
  have hvalue := (hasTransform_iff hbuild).2 ⟨_, hpose, rfl⟩
  exact ⟨project, pack, _, .float (.infinite false), hparse, hbuild, hvalue,
    List.mem_cons_self .., by decide +kernel, by decide +kernel⟩

end Export

end RigPack

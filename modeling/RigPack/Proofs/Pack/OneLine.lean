import RigPack.Proofs.Command.OneLine
import RigPack.Proofs.Pack.Leaves
import RigPack.Proofs.Pack.References

/-!
# Commands of a pack on one line

Of the texts that the commands of a pack are put together from, most are fixed words and
names.  What is left are the item, which the data of a rig quote, and the conditions of
frames; lines as written by users are lines already.  So whether a pack has a command
on each line is decided by a few texts of its blueprint (`Blueprint.OneLined`).

## Main statements

* `oneLined_layout_iff`: all functions of a pack have a command on each line exactly if those
  texts are on one line.

## Strategy

The layout is gone through placement by placement.  The placements that hold nothing but
names are shown to be on one line each; for the data of a rig (`isOneLine_data_iff`) and for
what the root runs for a frame (`oneLined_rootCommands_iff`) an equivalence is shown.
-/

namespace RigPack

/-! ## What a user writes into commands -/

/-- Whether all texts of a project that become parts of commands are on one line in its
blueprint: the item, if there is a part to show it, and the conditions without the blanks around
them. -/
structure Blueprint.OneLined (blueprint : Blueprint) : Prop where
  item : blueprint.parts ≠ [] → IsOneLine blueprint.item
  conditions : ∀ motion ∈ blueprint.motions, ∀ index frame, motion.timeline.HasLeaf index frame →
    ∀ condition ∈ frame.conditions, IsOneLine (Text.trim condition)

/-- Whether the commands of a function are on one line each. -/
def Placement.OneLined : Placement → Prop
  | file _ _ (.commands commands) => ∀ command ∈ commands, ∀ part ∈ command.parts, IsOneLine part
  | _ => True

theorem Command.parts_guarded (condition : Option String) (command : Command) :
    (∀ part ∈ (guarded condition command).parts, IsOneLine part) ↔
      (∀ text ∈ condition, IsOneLine (Text.trim text)) ∧
        ∀ part ∈ command.parts, IsOneLine part := by
  cases condition with
  | none => simp [guarded]
  | some text =>
      unfold guarded
      simp only [Option.map_some]
      split
      · rename_i hempty
        rw [String.isEmpty_iff] at hempty
        simp [hempty, IsOneLine]
      · simp [parts, Clause.parts]

/-! ## Names are on one line -/

theorem isOneLine_of_isResourceName {name : String} (h : isResourceName name = true) :
    IsOneLine name := fun hmem =>
  absurd (isNameChar_of_isResourceName h '\n' hmem) (by decide)

section Names

variable {names : Naming} (hspace : IsOneLine names.space)

include hspace

theorem isOneLine_internal : IsOneLine names.internal :=
  isOneLine_append.2 ⟨isOneLine_append.2 ⟨by decide, hspace⟩, by decide⟩

theorem isOneLine_rootTag : IsOneLine names.rootTag :=
  isOneLine_append.2 ⟨isOneLine_append.2 ⟨by decide, hspace⟩, by decide⟩

theorem isOneLine_boneTag {bone : String} (hbone : IsOneLine bone) :
    IsOneLine (names.boneTag bone) :=
  isOneLine_append.2 ⟨isOneLine_append.2 ⟨isOneLine_append.2 ⟨by decide, hspace⟩, by decide⟩, hbone⟩

theorem isOneLine_activeTag {animation : String} (hanimation : IsOneLine animation) :
    IsOneLine (names.activeTag animation) :=
  isOneLine_append.2
    ⟨isOneLine_append.2 ⟨isOneLine_append.2 ⟨by decide, hspace⟩, by decide⟩, hanimation⟩

end Names

/-! ## Commands of a timeline -/

namespace Timeline

variable {names : Naming} {animation : String} (hspace : IsOneLine names.space)

include hspace

theorem oneLined_boneCommands {frame : Keyframe} (hposes : ∀ pose ∈ frame.poses, IsOneLine pose.1) :
    ∀ command ∈ boneCommands names frame, ∀ part ∈ command.parts, IsOneLine part := by
  rw [boneCommands, List.forall_mem_map]
  intro pose hpose
  simp +decide [isOneLine_boneTag hspace (hposes pose hpose)]

variable (hanimation : IsOneLine animation)

include hanimation

theorem oneLined_timelineFunction {unit : String} (hunit : IsOneLine unit) :
    ∀ part ∈ (names.timelineFunction animation unit).parts, IsOneLine part := by
  simp +decide [Naming.timelineFunction, Naming.timelinePath, Naming.internalFunction,
    isOneLine_internal hspace, hanimation, hunit]

theorem oneLined_dispatch {node : Timeline} (hunit : IsOneLine node.unit) :
    ∀ part ∈ (dispatch names animation node).parts, IsOneLine part := by
  simpa [dispatch] using oneLined_timelineFunction hspace hanimation hunit

/-- What the root runs for a frame is on one line each exactly if its conditions are. -/
theorem oneLined_rootCommands_iff {index : Nat} {frame : Keyframe}
    (hswitch : ∀ switch ∈ frame.switch, IsOneLine switch.variant) :
    (∀ command ∈ rootCommands names animation index frame, ∀ part ∈ command.parts,
      IsOneLine part) ↔ ∀ condition ∈ frame.conditions, IsOneLine (Text.trim condition) := by
  have hunit (key : UnitKey) := oneLined_timelineFunction hspace hanimation
    (isOneLine_of_isResourceName (isResourceName_key key))
  have hbones : ∀ part ∈ (Command.execute [.onPassengers]
      (.run (names.timelineFunction animation (boneUnit index)))).parts, IsOneLine part :=
    hunit (.bone index)
  have hcommands : ∀ part ∈ (Command.run
      (names.timelineFunction animation (commandsUnit index))).parts, IsOneLine part :=
    hunit (.commands index)
  have hvariant : ∀ switch ∈ frame.switch, ∀ part ∈
      (Command.run (names.variantAsRoot switch.variant)).parts, IsOneLine part := by
    intro switch hmem
    have hroot : IsOneLine (switch.variant ++ "_as_root") :=
      isOneLine_append.2 ⟨hswitch switch hmem, by decide⟩
    simp +decide [Naming.variantAsRoot, Naming.internalFunction, isOneLine_internal hspace, hroot]
  rw [rootCommands, List.forall_mem_append, List.forall_mem_append, Keyframe.conditions,
    List.forall_mem_append, List.forall_mem_singleton, and_iff_right hbones]
  refine and_congr ?_ ?_
  · cases frame.commands with
    | none => simp
    | some commands =>
        simp only [Option.map_some, Option.toList_some, List.forall_mem_singleton,
          Command.parts_guarded, and_iff_left hcommands]
        simp
  · cases hswitch : frame.switch with
    | none => simp
    | some switch =>
        simp only [Option.map_some, Option.toList_some, List.forall_mem_singleton,
          Command.parts_guarded, and_iff_left (hvariant switch hswitch)]
        simp

end Timeline

/-! ## Functions of a pack -/

namespace Blueprint

open Placement

@[simp] theorem oneLined_folder (path : List String) : (folder path).OneLined :=
  trivial

@[simp] theorem oneLined_json (path : List String) (name : String) (value : Json) :
    (file path name (.json value)).OneLined :=
  trivial

@[simp] theorem oneLined_function (location : Location) (commands : List Command) :
    (function location commands).OneLined ↔
      ∀ command ∈ commands, ∀ part ∈ command.parts, IsOneLine part :=
  Iff.rfl

section Names

variable {names : Naming} (hspace : IsOneLine names.space)

include hspace

theorem oneLined_loadAndTick (settings : Settings) :
    ∀ placement ∈ loadAndTick names settings, placement.OneLined := by
  have hinternal := isOneLine_internal hspace
  have hroot := isOneLine_rootTag hspace
  simp +decide [loadAndTick_eq, loadCommands, lastId, interpolationTicks, loopModeConstant,
    Objective.all, LoopMode.all, Naming.internalFunction, Naming.group, Naming.rootType, hspace,
    hinternal, hroot]

theorem oneLined_rootOnly {location internal : Location} {path : List String}
    (hlocation : ∀ part ∈ internal.parts, IsOneLine part) :
    (function location (rootOnly names path internal)).OneLined := by
  have hroot := isOneLine_rootTag hspace
  obtain ⟨hinternal, hpath⟩ := List.forall_mem_cons.1 hlocation
  simpa [rootOnly, hroot, hinternal] using hpath

theorem oneLined_removal : ∀ placement ∈ removal names, placement.OneLined := by
  have hinternal := isOneLine_internal hspace
  have hroot := isOneLine_rootTag hspace
  have hthis : ∀ part ∈ (names.internalFunction ["remove", "as_root"]).parts, IsOneLine part := by
    simp +decide [Naming.internalFunction, hinternal]
  rw [removal_eq]
  refine List.forall_mem_cons.2 ⟨oneLined_rootOnly hspace hthis, ?_⟩
  simp +decide [Naming.internalFunction, Naming.group, Naming.rootType, hspace, hinternal, hroot]

theorem oneLined_look {look : Look} (hname : IsOneLine look.name)
    (hmodels : ∀ model ∈ look.models, IsOneLine model.1) :
    ∀ placement ∈ look.layout names, placement.OneLined := by
  have hinternal := isOneLine_internal hspace
  have hending (ending : String) (hending : IsOneLine ending) : IsOneLine (look.name ++ ending) :=
    isOneLine_append.2 ⟨hname, hending⟩
  have hroot : ∀ part ∈ (names.variantAsRoot look.name).parts, IsOneLine part := by
    simp +decide [Naming.variantAsRoot, Naming.internalFunction, hinternal, hending]
  have hbone : ∀ part ∈ (names.variantAsBone look.name).parts, IsOneLine part := by
    simp +decide [Naming.variantAsBone, Naming.internalFunction, hinternal, hending]
  intro placement hplacement
  simp only [Look.layout_eq, List.mem_cons, List.not_mem_nil, or_false] at hplacement
  rcases hplacement with rfl | rfl | rfl
  · exact oneLined_rootOnly hspace hroot
  · simpa using hbone
  · rw [oneLined_function, Look.boneCommands, List.forall_mem_map]
    intro model hmodel
    simp [isOneLine_boneTag hspace (hmodels model hmodel)]

end Names

section Named

variable {blueprint : Blueprint} (hnamed : blueprint.Named)

include hnamed

theorem oneLined_animationTick : blueprint.animationTick.OneLined := by
  have hspace := isOneLine_of_isResourceName hnamed.space
  have hinternal := isOneLine_internal hspace
  rw [animationTick_eq, oneLined_function, List.forall_mem_map]
  intro motion hmotion
  have hname := isOneLine_of_isResourceName (hnamed.motions motion hmotion)
  simp +decide [Motion.drive, Naming.internalFunction, hinternal, hname,
    isOneLine_activeTag hspace hname]

theorem oneLined_summonOthers : ∀ placement ∈ blueprint.summonOthers, placement.OneLined := by
  have hinternal := isOneLine_internal (isOneLine_of_isResourceName hnamed.space)
  rw [summonOthers_eq, List.forall_mem_map]
  intro entry _
  simp +decide [summonLook, nextLook, Naming.internalFunction, hinternal]

theorem oneLined_setUpRoot :
    ∀ command ∈ setUpRoot blueprint, ∀ part ∈ command.parts, IsOneLine part := by
  have hspace := isOneLine_of_isResourceName hnamed.space
  have hinternal := isOneLine_internal hspace
  rw [setUpRoot, List.forall_mem_append, List.forall_mem_append, List.forall_mem_map]
  refine ⟨⟨?_, fun entry hentry => ?_⟩, ?_⟩
  · simp +decide [lastId, Naming.internalFunction, hinternal]
  · have hlook := List.mem_of_getElem? (List.mk_mem_zipIdx_iff_getElem?.1 hentry)
    have hname := isOneLine_of_isResourceName (hnamed.looks entry.1 hlook)
    have hroot : IsOneLine (entry.1.name ++ "_as_root") := isOneLine_append.2 ⟨hname, by decide⟩
    simp +decide [nextLook, Naming.variantAsRoot, Naming.internalFunction, hinternal, hroot]
  · simp +decide [Naming.group, hspace]

/-- The data of a rig are on one line exactly if the item is that its bones show. -/
theorem isOneLine_data_iff (settings : Settings) :
    (∀ text ∈ (blueprint.data settings).texts, IsOneLine text) ↔
      (blueprint.parts ≠ [] → IsOneLine blueprint.item) := by
  have hspace := isOneLine_of_isResourceName hnamed.space
  have hpart : ∀ part ∈ blueprint.parts,
      ((∀ text ∈ (part.data blueprint.names blueprint.item
          (storedTicks settings.interpolation)).texts, IsOneLine text) ↔
        IsOneLine blueprint.item) := by
    intro part hpart
    have hname := isOneLine_of_isResourceName (hnamed.parts part hpart)
    simp +decide [Part.data, isOneLine_boneTag hspace hname]
  have hroot := isOneLine_rootTag hspace
  have hfixed : IsOneLine "Tags" ∧ IsOneLine "Passengers" ∧ IsOneLine freshTag := by decide
  have hparts : (∀ part ∈ blueprint.parts, ∀ text ∈ (part.data blueprint.names blueprint.item
      (storedTicks settings.interpolation)).texts, IsOneLine text) ↔
        (blueprint.parts ≠ [] → IsOneLine blueprint.item) := by
    rw [forall₂_congr hpart]
    constructor
    · intro h hne
      obtain ⟨part, hmem⟩ := List.exists_mem_of_ne_nil _ hne
      exact h part hmem
    · exact fun h part hmem => h (List.ne_nil_of_mem hmem)
  rw [← hparts]
  simp only [data, Snbt.texts, Snbt.textsOfEntries, Snbt.textsOfItems, Snbt.textsOfItems_map,
    List.forall_mem_cons, List.forall_mem_append, List.forall_mem_flatMap, hfixed, hroot]
  simp

theorem oneLined_summoning_iff (settings : Settings) :
    (∀ placement ∈ blueprint.summoning settings, placement.OneLined) ↔
      (blueprint.parts ≠ [] → IsOneLine blueprint.item) := by
  have hinternal := isOneLine_internal (isOneLine_of_isResourceName hnamed.space)
  rw [← isOneLine_data_iff hnamed settings, summoning_eq, List.forall_mem_append,
    List.forall_mem_append, and_assoc, and_iff_right, and_iff_right]
  · have hsetUp := oneLined_setUpRoot hnamed
    have hcall : ∀ part ∈ (Command.execute [.asNearby .display freshTag]
        (.run (blueprint.names.internalFunction ["summon", "as_root"]))).parts, IsOneLine part := by
      simp +decide [Naming.internalFunction, hinternal]
    have hcopy : ∀ part ∈ (Command.copyScore .self .id lastId).parts, IsOneLine part := by decide
    have hfresh : ∀ part ∈ (Command.removeTag freshTag).parts, IsOneLine part := by decide
    simp only [List.forall_mem_cons, oneLined_function]
    constructor
    · exact fun h => h.1.1
    · exact fun h => ⟨⟨h, hcall, by simp⟩, hsetUp, ⟨hcopy, hfresh, by simp⟩, by simp⟩
  · exact oneLined_summonOthers hnamed
  · simp +decide [summonLook, nextLook, Naming.internalFunction, hinternal]

section Motion

variable {motion : Motion} (hmotion : motion ∈ blueprint.motions)

include hmotion

theorem oneLined_controls : ∀ placement ∈ motion.controls blueprint.names, placement.OneLined := by
  have hspace := isOneLine_of_isResourceName hnamed.space
  have hname := isOneLine_of_isResourceName (hnamed.motions motion hmotion)
  have htag := isOneLine_activeTag hspace hname
  simp +decide [Motion.controls_eq, Motion.prepare, Motion.rewind, Motion.activate,
    Motion.deactivate, interpolationTicks, htag]

theorem oneLined_driving : ∀ placement ∈ motion.driving blueprint.names, placement.OneLined := by
  have hspace := isOneLine_of_isResourceName hnamed.space
  have hinternal := isOneLine_internal hspace
  have hname := isOneLine_of_isResourceName (hnamed.motions motion hmotion)
  have hunit := isOneLine_of_isResourceName (isResourceName_of_mem_units
    (Timeline.entry_mem_units blueprint.names motion.name motion.timeline))
  rw [Timeline.name_entry] at hunit
  simp +decide [Motion.driving_eq, Motion.tickCommands, Motion.endCommands, Motion.inMode,
    Motion.rewind, Motion.drive, Motion.control, Timeline.dispatch, loopModeConstant,
    Naming.timelineFunction, Naming.timelinePath, Naming.internalFunction, Naming.publicFunction,
    hspace, hinternal, hname, hunit]

theorem oneLined_timelineLayout_iff (hsound : blueprint.Sound) :
    (∀ placement ∈ motion.timelineLayout blueprint.names, placement.OneLined) ↔
      ∀ index frame, motion.timeline.HasLeaf index frame →
        ∀ condition ∈ frame.conditions, IsOneLine (Text.trim condition) := by
  have hspace := isOneLine_of_isResourceName hnamed.space
  have hname := isOneLine_of_isResourceName (hnamed.motions motion hmotion)
  have hswitches {index : Nat} {frame : Keyframe} (hleaf : motion.timeline.HasLeaf index frame) :
      ∀ switch ∈ frame.switch, IsOneLine switch.variant := by
    intro switch hswitch
    obtain ⟨look, hlook, heq⟩ := hsound.switches motion hmotion index frame hleaf switch hswitch
    rw [← heq]
    exact isOneLine_of_isResourceName (hnamed.looks look hlook)
  rw [Motion.timelineLayout_eq, List.forall_mem_map]
  simp only [oneLined_function]
  constructor
  · intro h index frame hleaf
    have hroot : ⟨leafUnit index, Timeline.rootCommands blueprint.names motion.name index frame⟩ ∈
        Timeline.leafUnits blueprint.names motion.name index frame := by
      simp [Timeline.leafUnits]
    rw [← Timeline.oneLined_rootCommands_iff hspace hname (hswitches hleaf)]
    exact h _ (Timeline.leafUnits_subset_of_hasLeaf hleaf hroot)
  · intro h unit hunit
    have hunits {other : FunctionUnit}
        (hother : other ∈ Timeline.units blueprint.names motion.name motion.timeline) :
        IsOneLine other.name :=
      isOneLine_of_isResourceName (isResourceName_of_mem_units hother)
    rcases Timeline.mem_units hunit with
      ⟨index, frame, hleaf, hmem, -⟩ | ⟨children, hchildren, hsubset⟩
    · rw [Timeline.leafUnits, List.mem_append, Option.mem_toList, Option.map_eq_some_iff] at hmem
      -- the commands of a user, what the root runs, and what bones run
      rcases hmem with ⟨commands, -, rfl⟩ | hmem
      · rw [List.forall_mem_map]
        intro line hline
        simpa using Text.isOneLine_of_mem_lines hline
      · rcases List.mem_pair.1 hmem with rfl | rfl
        · exact (Timeline.oneLined_rootCommands_iff hspace hname (hswitches hleaf)).2
            (h index frame hleaf)
        · exact Timeline.oneLined_boneCommands hspace fun pose hpose =>
            isOneLine_of_isResourceName (hnamed.poses motion hmotion index frame hleaf pose hpose)
    · rw [hchildren, List.forall_mem_map]
      intro child hchild
      have hentry := hunits (hsubset child hchild (Timeline.entry_mem_units _ _ child))
      rw [Timeline.name_entry] at hentry
      exact Timeline.oneLined_dispatch hspace hname hentry

end Motion

/-- A pack has a command on each line exactly if the texts are on one line that become parts of
its commands. -/
theorem oneLined_layout_iff (hsound : blueprint.Sound) (settings : Settings) :
    (∀ placement ∈ blueprint.layout settings, placement.OneLined) ↔ blueprint.OneLined := by
  have hspace := isOneLine_of_isResourceName hnamed.space
  have hmetadata : ∀ placement ∈ metadata blueprint.names settings, placement.OneLined := by
    simp [metadata]
  have hgroups : ∀ placement ∈ groups blueprint.names, placement.OneLined := by
    simp [groups_eq, functionGroup, entityGroup, resource, listing]
  have hlooks : ∀ look ∈ blueprint.looks, ∀ placement ∈ look.layout blueprint.names,
      placement.OneLined := fun look hlook =>
    oneLined_look hspace (isOneLine_of_isResourceName (hnamed.looks look hlook)) fun model hmodel =>
      isOneLine_of_isResourceName (hnamed.models look hlook model hmodel)
  have hmotions : (∀ motion ∈ blueprint.motions, ∀ placement ∈ motion.layout blueprint.names,
      placement.OneLined) ↔ ∀ motion ∈ blueprint.motions, ∀ index frame,
        motion.timeline.HasLeaf index frame →
          ∀ condition ∈ frame.conditions, IsOneLine (Text.trim condition) := by
    refine forall₂_congr fun motion hmotion => ?_
    rw [Motion.layout, List.forall_mem_append, List.forall_mem_append,
      and_iff_right ⟨oneLined_controls hnamed hmotion, oneLined_driving hnamed hmotion⟩,
      oneLined_timelineLayout_iff hnamed hmotion hsound]
  simp only [layout, List.forall_mem_append, List.forall_mem_flatMap, List.forall_mem_singleton]
  rw [oneLined_summoning_iff hnamed, hmotions]
  constructor
  · rintro ⟨⟨⟨⟨⟨-, hitem⟩, -⟩, -⟩, -⟩, hconditions⟩
    exact ⟨hitem, hconditions⟩
  · rintro ⟨hitem, hconditions⟩
    exact ⟨⟨⟨⟨⟨⟨⟨hmetadata, hgroups⟩, oneLined_loadAndTick hspace settings⟩, hitem⟩,
      oneLined_removal hspace⟩, hlooks⟩, oneLined_animationTick hnamed⟩, hconditions⟩

end Named

end Blueprint

end RigPack

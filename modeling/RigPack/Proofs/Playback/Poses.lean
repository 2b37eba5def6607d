import Mathlib.Data.List.Induction
import RigPack.Proofs.Pack.Tags
import RigPack.Proofs.Playback.Simulation

/-!
# Which bone takes which pose

A frame gives poses to bones by their ids.  In the pack all passengers of a rig run the
same function for a frame, and each line of it is for the passengers that carry the tag of
one bone, which is made of the bone's name.  Names of bones are not checked to differ, so a
pose reaches all bones that share a name with the bone it is meant for, and of several poses
the last one stays.

## Main statements

* `frame_reaches_bones`: in which pose a frame leaves the passengers of a rig, as the pack
  summons them.
* `Rig.shown?_eq_get?_iff`: that is always each bone's own pose exactly if bones of one name
  have one id.
* `passenger_takes_pose_of_namesake`: a rig that is accepted, and a bone of it that takes a
  pose that the frame gives to another bone.

## Strategy

One line changes the data of the passenger that runs it if that carries the tag
(`executes_pose`); the lines of a function are a fold over the poses
(`executes_boneCommands`), and the passengers run them one after the other without touching
each other's data (`executes_bones`).  Of the fold only the last pose is left
(`get?_taken`), and the tags in the command to summon say which poses reach which bone.
-/

namespace RigPack

/-- The pose in which a frame leaves the bones of a name: that of the last such bone that
the frame moves. -/
def Rig.shown? (rig : Rig) (poses : Table Transform) (name : String) : Option Transform :=
  ((rig.bones.filter (·.name = name)).filterMap fun bone => poses.get? bone.id).getLast?

/-- Every bone of a rig is left in its own pose, whatever a frame moves, exactly if bones of one
name have one id. -/
theorem Rig.shown?_eq_get?_iff (rig : Rig) :
    (∀ poses, ∀ bone ∈ rig.bones, rig.shown? poses bone.name = poses.get? bone.id) ↔
      ∀ bone ∈ rig.bones, ∀ other ∈ rig.bones, other.name = bone.name → other.id = bone.id := by
  constructor
  · intro h bone hbone other hother hname
    by_contra hne
    -- a frame that moves the other bone alone
    have hshown := h (Table.empty.insert other.id default) bone hbone
    rw [Table.get?_insert, if_neg (Ne.symm hne), Table.get?_empty, shown?,
      List.getLast?_eq_none_iff, List.filterMap_eq_nil_iff] at hshown
    have hmoved := hshown other (List.mem_filter.2 ⟨hother, by simpa using hname⟩)
    rw [Table.get?_insert, if_pos rfl] at hmoved
    contradiction
  · intro h poses bone hbone
    have hids : ∀ other ∈ rig.bones.filter (·.name = bone.name), other.id = bone.id := by
      intro other hother
      obtain ⟨hmem, hname⟩ := List.mem_filter.1 hother
      exact h bone hbone other hmem (by simpa using hname)
    have hself : bone ∈ rig.bones.filter (·.name = bone.name) :=
      List.mem_filter.2 ⟨hbone, by simp⟩
    rw [shown?, List.filterMap_congr fun other hother => by rw [hids other hother]]
    cases hpose : poses.get? bone.id with
    | none => simp
    | some pose =>
        rw [List.filterMap_eq_map', List.getLast?_map,
          List.getLast?_eq_some_getLast (List.ne_nil_of_mem hself), Option.map_some]

/-! ## What a frame does to the data of a bone -/

/-- What a bone merges into its data to take a pose. -/
def Transform.data (pose : Transform) : Snbt :=
  .compound [("transformation", .ofTransform pose), ("start_interpolation", .int 0)]

theorem Snbt.get?_merge_pose (data : Snbt) (pose : Transform) :
    (data.merge pose.data).get? "transformation" = some (.ofTransform pose) := by
  rw [Transform.data, get?_merge_cons (by simp)]
  rfl

namespace Keyframe

/-- The poses of a frame that reach an entity of these tags, in order. -/
def posesFor (names : Naming) (tags : String → Bool) (frame : Keyframe) : List Transform :=
  (frame.poses.filter fun pose => tags (names.boneTag pose.1)).map (·.2)

/-- The poses for a bone are those that the frame gives to bones of its name. -/
theorem getLast?_posesFor {names : Naming} {tags : String → Bool} {name : String}
    (htags : ∀ other, tags (names.boneTag other) = decide (other = name)) {rig : Rig}
    {frame : Frame} :
    (posesFor names tags ⟨frame.posesIn rig, frame.commands, frame.switch⟩).getLast?
      = rig.shown? frame.poses name := by
  unfold posesFor Rig.shown? Frame.posesIn
  congr 1
  simp only [htags]
  induction rig.bones with
  | nil => rfl
  | cons bone bones ih =>
      by_cases hname : bone.name = name <;> cases hpose : frame.poses.get? bone.id <;>
        simp [hname, hpose, ih]

/-- The data of an entity of these tags behind what bones run for the frame. -/
def taken (names : Naming) (tags : String → Bool) (frame : Keyframe) (data : Snbt) : Snbt :=
  (frame.posesFor names tags).foldl (fun data pose => data.merge pose.data) data

/-- An entity stands in the last of the poses that reach it, or else as it stood before. -/
theorem get?_taken (names : Naming) (tags : String → Bool) (frame : Keyframe) (data : Snbt) :
    (frame.taken names tags data).get? "transformation"
      = ((frame.posesFor names tags).getLast?.map .ofTransform).or
          (data.get? "transformation") := by
  unfold taken
  induction frame.posesFor names tags using List.reverseRecOn with
  | nil => rfl
  | append_singleton poses pose _ =>
      rw [List.foldl_concat, Snbt.get?_merge_pose, List.getLast?_concat]
      rfl

end Keyframe

/-! ## What bones run -/

namespace Machine

variable {Entity Rest : Type} [DecidableEq Entity] (pack : Folder) {game : Game Entity Rest}
  {data : Rest → Entity → Snbt} (hgame : game.Stores data)

include hgame

/-- A pose is merged into the data of an entity that carries the tag, and into no other. -/
theorem executes_pose (self : Entity) (tag : String) (pose : Transform)
    (world : World Entity Rest) :
    ∃ world', Executes pack game [(self, .execute [.ifTagged tag] (.mergeData pose.data))] world
        world' [] ∧ world'.tags = world.tags ∧
      data world'.rest = if world.tags self tag
        then Function.update (data world.rest) self ((data world.rest self).merge pose.data)
        else data world.rest := by
  have hkept := hgame.ifTagged tag (.mergeData pose.data) world self
  have hselves : executors? game world [.ifTagged tag] self
      = some (if world.tags self tag then [self] else []) :=
    executors?_singleton game world _ self
  by_cases htag : world.tags self tag = true
  · rw [if_pos htag] at hselves
    refine ⟨_, .execute hselves (.of_after? rfl), rfl, ?_⟩
    rw [if_pos htag, hgame.mergeData, hkept]
  · rw [if_neg htag] at hselves
    refine ⟨_, .execute hselves (.nil _), rfl, ?_⟩
    rw [if_neg htag, hkept]

/-- What bones run for a frame changes the data of the entity that runs it. -/
theorem executes_boneCommands (names : Naming) (self : Entity) (frame : Keyframe)
    (world : World Entity Rest) :
    ∃ world', Executes pack game ((Timeline.boneCommands names frame).map (self, ·)) world world'
        [] ∧ world'.tags = world.tags ∧
      data world'.rest = Function.update (data world.rest) self
        (frame.taken names (world.tags self) (data world.rest self)) := by
  obtain ⟨poses, commands, switch⟩ := frame
  unfold Timeline.boneCommands Keyframe.taken Keyframe.posesFor
  induction poses generalizing world with
  | nil => exact ⟨world, .nil world, rfl, (Function.update_eq_self ..).symm⟩
  | cons pose poses ih =>
      obtain ⟨world', hpose, htags, hdata⟩ :=
        executes_pose pack hgame self (names.boneTag pose.1) pose.2 world
      obtain ⟨world'', hposes, htags', hdata'⟩ := ih world'
      refine ⟨world'', hpose.append hposes, htags'.trans htags, ?_⟩
      rw [hdata', hdata, htags]
      by_cases htag : world.tags self (names.boneTag pose.1) = true
      · simp [htag]
      · simp [htag]

/-- If each of several bones runs the function of a frame, each changes its own data. -/
theorem executes_bones {names : Naming} {frame : Keyframe} {location : Location}
    (hfunction : pack.function? location.text = some (Timeline.boneCommands names frame))
    {selves : List Entity} (hselves : selves.Nodup) (world : World Entity Rest) :
    ∃ world' calls, Executes pack game (selves.map (·, .run location)) world world' calls ∧
      ∀ self, data world'.rest self
        = if self ∈ selves then frame.taken names (world.tags self) (data world.rest self)
          else data world.rest self := by
  induction selves generalizing world with
  | nil => exact ⟨world, [], .nil world, fun self => by simp⟩
  | cons first rest ih =>
      obtain ⟨hfirst, hrest⟩ := List.nodup_cons.1 hselves
      obtain ⟨world', hcommands, htags, hdata⟩ := executes_boneCommands pack hgame names first
        frame { world with rest := game.remainder (.run location) world first }
      obtain ⟨world'', calls, hothers, hdata'⟩ := ih hrest world'
      refine ⟨world'', _, (Executes.call hfunction hcommands).append hothers, fun self => ?_⟩
      have hcall : data (game.remainder (.run location) world first) = data world.rest :=
        hgame.call (.function location) world first
      rw [hdata' self, hdata, htags, hcall]
      -- the data of the first bone are changed once, as it is not among the others
      by_cases hself : self = first
      · rw [hself, if_neg hfirst, Function.update_self, if_pos (List.mem_cons_self ..)]
      · simp [hself]

end Machine

/-! ## The bones that a pack summons -/

theorem Naming.boneTag_eq_iff {names : Naming} {bone other : String} :
    names.boneTag bone = names.boneTag other ↔ bone = other := by
  rw [boneTag, boneTag, String.append_right_inj]

theorem Naming.boneTag_ne_freshTag (names : Naming) (bone : String) :
    names.boneTag bone ≠ freshTag := by
  intro h
  have hlength := congrArg String.length h
  simp only [boneTag, String.length_append] at hlength
  have hfresh : freshTag.length = 6 := by decide
  have hfront : "aj.".length = 3 := by decide
  have hmiddle : ".bone.".length = 6 := by decide
  omega

namespace Blueprint

variable {blueprint : Blueprint}

/-- A pack summons a display for each part. -/
theorem passengers_pack (hsound : blueprint.Sound) (settings : Settings) :
    (blueprint.pack settings).passengers blueprint.names
      = blueprint.parts.map
        (Part.data blueprint.names blueprint.item (storedTicks settings.interpolation)) := by
  rw [Folder.passengers, hsound.function?_pack (blueprint.summon_mem_layout settings)]
  rfl

/-- The function of a frame for bones, run by some entities, changes the data of these. -/
theorem ends_bones (hsound : blueprint.Sound) (settings : Settings) {motion : Motion}
    (hmotion : motion ∈ blueprint.motions) {index : Nat} {frame : Keyframe}
    (hleaf : motion.timeline.HasLeaf index frame) {Entity Rest : Type} [DecidableEq Entity]
    {game : Game Entity Rest} {data : Rest → Entity → Snbt} (hgame : game.Stores data)
    {selves : List Entity} (hselves : selves.Nodup) (world : World Entity Rest) :
    ∃ final, Machine.Ends (blueprint.pack settings) game
        ⟨selves.map (·, .run (blueprint.names.timelineFunction motion.name (boneUnit index))),
          world, []⟩ final ∧
      ∀ self, data final.world.rest self
        = if self ∈ selves then
            frame.taken blueprint.names (world.tags self) (data world.rest self)
          else data world.rest self := by
  have hunit : ⟨boneUnit index, Timeline.boneCommands blueprint.names frame⟩ ∈
      Timeline.units blueprint.names motion.name motion.timeline :=
    Timeline.leafUnits_subset_of_hasLeaf hleaf (by simp [Timeline.leafUnits])
  have hplacement : Placement.function
      (blueprint.names.timelineFunction motion.name (boneUnit index))
      (Timeline.boneCommands blueprint.names frame) ∈ motion.layout blueprint.names :=
    List.mem_append_right _ (List.mem_map.2 ⟨_, hunit, rfl⟩)
  obtain ⟨world', calls, hexecutes, hdata⟩ := Machine.executes_bones (blueprint.pack settings) hgame
    (function?_of_motion hsound hmotion hplacement) hselves world
  have hreaches := hexecutes [] []
  rw [List.append_nil] at hreaches
  exact ⟨_, ⟨hreaches, rfl⟩, hdata⟩

/-- Of the tags of bones, a passenger carries that of its own bone. -/
theorem tags_of_spawned (hsound : blueprint.Sound) (settings : Settings) {project : Project}
    (hblueprint : ofProject project = .ok blueprint) {Entity Rest : Type}
    {world : World Entity Rest} {selves : List Entity}
    (h : world.Spawned selves ((blueprint.pack settings).passengers blueprint.names)) :
    List.Forall₂ (fun bone self => ∀ other,
      world.tags self (blueprint.names.boneTag other) = decide (other = bone.name))
      project.rig.bones selves := by
  have htags := h.tags
  rw [passengers_pack hsound, List.forall₂_map_right_iff] at htags
  have hparts : List.Forall₂ (fun name self => ∀ other,
      world.tags self (blueprint.names.boneTag other) = decide (other = name))
      (blueprint.parts.map (·.name)) selves := by
    rw [List.forall₂_map_left_iff]
    refine (htags.imp fun self part hpart other => ?_).flip
    rw [hpart _ (blueprint.names.boneTag_ne_freshTag other), tags_data]
    simp [blueprint.names.boneTag_ne_freshTag, Naming.boneTag_eq_iff]
  rwa [names_parts hblueprint, List.forall₂_map_left_iff] at hparts

end Blueprint

section Passengers

variable {settings : Settings} {project : Project} {pack : Folder}
  (hbuild : Export.build settings project = .ok pack) {animation : Animation}
  (hanimation : animation ∈ project.animations) {index : Nat} {frame : Frame}
  (hframe : animation.frames[index]? = some frame) {Entity Rest : Type} [DecidableEq Entity]
  {game : Game Entity Rest} {data : Rest → Entity → Snbt} (hgame : game.Stores data)
  {world : World Entity Rest} {passengers : List Entity}
  (hpassengers : world.Spawned passengers (pack.passengers project.names))

include hbuild hanimation hframe hgame hpassengers

/-- The passengers of a rig, as the pack of an accepted project summons them, run the function of a
frame for bones.  Then each of them stands in the last pose that the frame gives to a bone of its
bone's name, or stands as before if there is none, and no other data have changed. -/
theorem ends_frame :
    ∃ final : Machine Entity Rest,
      Machine.Ends pack game
        ⟨passengers.map (·, .run (project.names.timelineFunction animation.name (boneUnit index))),
          world, []⟩ final ∧
      List.Forall₂ (fun bone self => (data final.world.rest self).get? "transformation"
          = ((project.rig.shown? frame.poses bone.name).map .ofTransform).or
              ((data world.rest self).get? "transformation")) project.rig.bones passengers ∧
      ∀ self ∉ passengers, data final.world.rest self = data world.rest self := by
  obtain ⟨blueprint, haccepted, hblueprint, rfl⟩ := Export.build_eq_ok hbuild
  have hsound := Blueprint.sound_of_build haccepted hblueprint
  obtain ⟨variants, -, hnames, -, hmotions⟩ := Export.ofProject_eq_ok hblueprint
  obtain ⟨motion, hmotion, hok⟩ := exists_right_of_forall₂ hmotions hanimation
  obtain ⟨-, -, -, -, hmade⟩ := Blueprint.ofAnimation_eq_ok hok
  have hname : motion.name = animation.name := congrArg Blueprint.Motion.name hmade
  have hproject : project.names = blueprint.names := hnames.symm
  have hleaf := (Blueprint.hasLeaf_ofAnimation_iff hok).2 ⟨frame, hframe, rfl⟩
  rw [hproject] at hpassengers ⊢
  rw [← hname]
  obtain ⟨final, hends, hdata⟩ := Blueprint.ends_bones hsound settings hmotion hleaf hgame
    hpassengers.nodup world
  refine ⟨final, hends, ?_, fun self hself => ?_⟩
  · obtain ⟨hlength, htags⟩ := List.forall₂_iff_zip.1
      (Blueprint.tags_of_spawned hsound settings hblueprint hpassengers)
    refine List.forall₂_iff_zip.2 ⟨hlength, fun {bone self} hmem => ?_⟩
    rw [hdata, if_pos (List.of_mem_zip hmem).2, Keyframe.get?_taken,
      Keyframe.getLast?_posesFor (htags hmem)]
  · rw [hdata, if_neg hself]

/-- If the passengers of a rig run the function of a frame for bones, each of them stands in the
pose that the frame gives to its own bone, or as before if it gives none, as long as bones of one
name have one id.  In general it is the last pose that the frame gives to a bone of the name. -/
theorem frame_reaches_bones :
    ∃ final : Machine Entity Rest,
      Machine.Ends pack game
        ⟨passengers.map (·, .run (project.names.timelineFunction animation.name (boneUnit index))),
          world, []⟩ final ∧
      List.Forall₂ (fun bone self => (data final.world.rest self).get? "transformation"
          = ((project.rig.shown? frame.poses bone.name).map .ofTransform).or
              ((data world.rest self).get? "transformation")) project.rig.bones passengers ∧
      (∀ self ∉ passengers, data final.world.rest self = data world.rest self) ∧
      ((∀ bone ∈ project.rig.bones, ∀ other ∈ project.rig.bones,
          other.name = bone.name → other.id = bone.id) →
        List.Forall₂ (fun bone self => (data final.world.rest self).get? "transformation"
          = ((frame.poses.get? bone.id).map .ofTransform).or
              ((data world.rest self).get? "transformation")) project.rig.bones passengers) := by
  obtain ⟨final, hends, hposes, hothers⟩ := ends_frame hbuild hanimation hframe hgame hpassengers
  refine ⟨final, hends, hposes, hothers, fun hids => ?_⟩
  have hown := project.rig.shown?_eq_get?_iff.2 hids frame.poses
  obtain ⟨hlength, hpairs⟩ := List.forall₂_iff_zip.1 hposes
  refine List.forall₂_iff_zip.2 ⟨hlength, fun {bone self} hmem => ?_⟩
  rw [hpairs hmem, hown bone (List.of_mem_zip hmem).1]

end Passengers

/-- An animation that moves one bone, by one frame. -/
def nod (pose : Transform) : Animation :=
  ⟨"nod", 1, .loop, [⟨0, .ofList [("a", pose)], none, none⟩]⟩

/-- A project of two bones, the first of which is moved by the animation. -/
def twoBones (first second : String) (pose : Transform) : Project :=
  ⟨"fox", "stick",
    ⟨[⟨"a", first, 1⟩, ⟨"b", second, 2⟩], .ofList [("a", default), ("b", default)], .empty⟩,
    [⟨"plain", true, [], false⟩], [nod pose]⟩

/-- Of two bones with different names the one takes its pose, and the other stays as it is. -/
theorem frame_reaches_bones_of_two :
    ∃ (pose : Transform) (pack : Folder) (world : World Nat (Nat → Snbt))
      (final : Machine Nat (Nat → Snbt)),
      Export.build ⟨"packs", 1, 12⟩ (twoBones "head" "tail" pose) = .ok pack ∧
      world.Spawned [0, 1] (pack.passengers ⟨"fox"⟩) ∧
      Machine.Ends pack Game.merging
        ⟨[0, 1].map (·, .run (Naming.timelineFunction ⟨"fox"⟩ "nod" (boneUnit 0))), world, []⟩
        final ∧
      (final.world.rest 0).get? "transformation" = some (.ofTransform pose) ∧
      (final.world.rest 1).get? "transformation" = (world.rest 1).get? "transformation" := by
  let pose : Transform := ⟨Vector.replicate 16 (.ofInt 1)⟩
  have haccepted : (Export.build ⟨"packs", 1, 12⟩ (twoBones "head" "tail" pose)).toOption.isSome
      = true := by
    decide +kernel
  obtain ⟨pack, hbuild⟩ := exists_ok_of_isSome haccepted
  have hspawned := World.spawned_summoned (pack.passengers (twoBones "head" "tail" pose).names)
  have hnod : nod pose ∈ (twoBones "head" "tail" pose).animations := List.mem_singleton_self _
  have hframe : (nod pose).frames[0]? = some _ := rfl
  obtain ⟨final, hends, -, -, hown⟩ :=
    frame_reaches_bones hbuild hnod hframe Game.stores_merging hspawned
  have hposes := hown (by simp [twoBones])
  have hlength : (pack.passengers (twoBones "head" "tail" pose).names).length = 2 := by
    simpa [twoBones] using hposes.length_eq.symm
  rw [hlength] at hspawned hends hposes
  obtain ⟨hhead, hposes⟩ := List.forall₂_cons.1 hposes
  obtain ⟨htail, -⟩ := List.forall₂_cons.1 hposes
  exact ⟨pose, pack, _, final, hbuild, hspawned, hends, hhead, htail⟩

/-- Of two bones with one name the frame moves the first, and the second moves with it. -/
theorem passenger_takes_pose_of_namesake :
    ∃ (pose : Transform) (pack : Folder) (world : World Nat (Nat → Snbt))
      (final : Machine Nat (Nat → Snbt)),
      Export.build ⟨"packs", 1, 12⟩ (twoBones "head" "head" pose) = .ok pack ∧
      world.Spawned [0, 1] (pack.passengers ⟨"fox"⟩) ∧
      Machine.Ends pack Game.merging
        ⟨[0, 1].map (·, .run (Naming.timelineFunction ⟨"fox"⟩ "nod" (boneUnit 0))), world, []⟩
        final ∧
      (Table.ofList [("a", pose)]).get? "b" = none ∧
      (final.world.rest 1).get? "transformation" ≠ (world.rest 1).get? "transformation" := by
  let pose : Transform := ⟨Vector.replicate 16 (.ofInt 1)⟩
  have haccepted : (Export.build ⟨"packs", 1, 12⟩ (twoBones "head" "head" pose)).toOption.isSome
      = true := by
    decide +kernel
  obtain ⟨pack, hbuild⟩ := exists_ok_of_isSome haccepted
  have hspawned := World.spawned_summoned (pack.passengers (twoBones "head" "head" pose).names)
  have hnod : nod pose ∈ (twoBones "head" "head" pose).animations := List.mem_singleton_self _
  have hframe : (nod pose).frames[0]? = some _ := rfl
  obtain ⟨final, hends, hposes, -⟩ :=
    ends_frame hbuild hnod hframe Game.stores_merging hspawned
  -- the passengers are summoned as the bones stand at rest
  have hitems : pack.passengers (twoBones "head" "head" pose).names
      = [⟨"head", 1, default⟩, ⟨"head", 2, default⟩].map
        (Blueprint.Part.data ⟨"fox"⟩ "stick" 1) := by
    obtain ⟨blueprint, hchecked, hblueprint, rfl⟩ := Export.build_eq_ok hbuild
    have hparts : blueprint.parts = [⟨"head", 1, default⟩, ⟨"head", 2, default⟩] :=
      Except.ok.inj ((mapM_eq_ok.2 (Blueprint.parts_ofProject hblueprint)).symm.trans rfl)
    obtain ⟨-, -, hnames, -, -⟩ := Export.ofProject_eq_ok hblueprint
    have hpassengers := Blueprint.passengers_pack
      (Blueprint.sound_of_build hchecked hblueprint) ⟨"packs", 1, 12⟩
    rw [hnames, hparts, Blueprint.item_ofProject hblueprint] at hpassengers
    exact hpassengers
  have hlength : (pack.passengers (twoBones "head" "head" pose).names).length = 2 := by
    rw [hitems]
    rfl
  have hrested : ((World.summoned (pack.passengers (twoBones "head" "head" pose).names)).rest
      1).get? "transformation" = some (.ofTransform default) := by
    rw [hitems]
    rfl
  rw [hlength] at hspawned hends hposes
  obtain ⟨-, hposes⟩ := List.forall₂_cons.1 hposes
  obtain ⟨htail, -⟩ := List.forall₂_cons.1 hposes
  refine ⟨pose, pack, _, final, hbuild, hspawned, hends, rfl, fun heq => ?_⟩
  have hmoved : some (Snbt.ofTransform pose) = some (.ofTransform default) :=
    htail.symm.trans (heq.trans hrested)
  exact absurd (Snbt.ofTransform_injective (Option.some.inj hmoved)) (by decide)

end RigPack

import RigPack.Proofs.Agreement
import RigPack.Proofs.Export.Validity
import RigPack.Proofs.Table

/-!
# Bone ids are only keys

A document ties its parts together by the ids of bones.  They are looked up and compared,
and nothing else: neither their text nor their order shows in a pack.  So a project whose
bones get other ids, the same one wherever a bone is meant and different ones for
different bones, has the same pack or is refused for the same reason.

## Strategy

The two projects are built side by side.  Every stage that meets an id looks one up, and
finds under the new id what the old one led to (`get?_mapKeys`, `affects_renameBones`,
`isSome_unknownBone?_renameBones`).  A refusal may name an id: that of the least unknown
bone of a frame, which is another one if the order changes.  So refusals are compared
without it (`Defect.withoutBone`).

## Main statement

* `build_renameBones`: a project under other bone ids has the same pack.
-/

namespace RigPack

/-! ## Projects under other ids -/

/-- The bone under another id. -/
def Bone.rename (rename : String → String) (bone : Bone) : Bone :=
  { bone with id := rename bone.id }

/-- The rig with its bones under other ids. -/
def Rig.renameBones (rename : String → String) (rig : Rig) : Rig where
  bones := rig.bones.map (·.rename rename)
  restPose := rig.restPose.mapKeys rename
  models := rig.models.mapValues (·.mapKeys rename)

/-- The variant with the bones of its list under other ids. -/
def Variant.renameBones (rename : String → String) (variant : Variant) : Variant :=
  { variant with listed := variant.listed.map rename }

/-- The frame with the bones that it moves under other ids. -/
def Frame.renameBones (rename : String → String) (frame : Frame) : Frame :=
  { frame with poses := frame.poses.mapKeys rename }

/-- The animation with all bones of its frames under other ids. -/
def Animation.renameBones (rename : String → String) (animation : Animation) : Animation :=
  { animation with frames := animation.frames.map (·.renameBones rename) }

/-- The project with all bones under other ids. -/
def Project.renameBones (rename : String → String) (project : Project) : Project :=
  { project with
    rig := project.rig.renameBones rename
    variants := project.variants.map (·.renameBones rename)
    animations := project.animations.map (·.renameBones rename) }

/-- All ids that a rig uses. -/
def Rig.boneIds (rig : Rig) : List String :=
  rig.bones.map (·.id) ++ rig.restPose.keys ++ rig.models.entries.flatMap (·.2.keys)

/-- All bone ids that a project uses, also those that no bone has. -/
def Project.boneIds (project : Project) : List String :=
  project.rig.boneIds ++ project.variants.flatMap (·.listed)
    ++ project.animations.flatMap fun animation => animation.frames.flatMap (·.poses.keys)

/-- A defect without the id that it shows. -/
def Defect.withoutBone : Defect → Defect
  | .unknownBone animation frame _ => .unknownBone animation frame ""
  | defect => defect

/-- A refusal without the id that it shows. -/
def ExportFault.withoutBone : ExportFault → ExportFault
  | .defect d => .defect d.withoutBone
  | fault => fault

/-! ## What is looked up -/

section Ids

variable {project : Project}

theorem Project.bone_mem_boneIds {bone : Bone} (h : bone ∈ project.rig.bones) :
    bone.id ∈ project.boneIds := by
  simp only [boneIds, Rig.boneIds, List.mem_append]
  exact .inl (.inl (.inl (.inl (List.mem_map_of_mem h))))

theorem Project.rest_mem_boneIds {id : String} (h : id ∈ project.rig.restPose.keys) :
    id ∈ project.boneIds := by
  simp only [boneIds, Rig.boneIds, List.mem_append]
  exact .inl (.inl (.inl (.inr h)))

theorem Project.model_mem_boneIds {variant : String} {models : Table Int32}
    (hmodels : project.rig.models.get? variant = some models) {id : String}
    (h : id ∈ models.keys) : id ∈ project.boneIds := by
  simp only [boneIds, Rig.boneIds, List.mem_append]
  refine .inl (.inl (.inr (List.mem_flatMap.2 ⟨(variant, models), ?_, h⟩)))
  exact project.rig.models.mem_entries_iff.2 hmodels

theorem Project.listed_mem_boneIds {variant : Variant} (hvariant : variant ∈ project.variants)
    {id : String} (h : id ∈ variant.listed) : id ∈ project.boneIds := by
  simp only [boneIds, List.mem_append]
  exact .inl (.inr (List.mem_flatMap.2 ⟨variant, hvariant, h⟩))

theorem Project.pose_mem_boneIds {animation : Animation}
    (hanimation : animation ∈ project.animations) {frame : Frame}
    (hframe : frame ∈ animation.frames) {id : String} (h : id ∈ frame.poses.keys) :
    id ∈ project.boneIds := by
  simp only [boneIds, List.mem_append]
  exact .inr (List.mem_flatMap.2 ⟨animation, hanimation, List.mem_flatMap.2 ⟨frame, hframe, h⟩⟩)

end Ids

theorem firstMisplaced?_renameBones (rename : String → String) (position : Nat)
    (frames : List Frame) :
    Animation.firstMisplaced? position (frames.map (·.renameBones rename))
      = (Animation.firstMisplaced? position frames).map fun found =>
          (found.1, found.2.renameBones rename) := by
  induction frames generalizing position with
  | nil => rfl
  | cons frame frames ih =>
      rw [List.map_cons, Animation.firstMisplaced?, Animation.firstMisplaced?, ih]
      change (if frame.index.toNat = position then _ else _) = _
      split <;> rfl

theorem checkFrames_renameBones (rename : String → String) (animation : Animation) :
    (animation.renameBones rename).checkFrames = animation.checkFrames := by
  unfold Animation.checkFrames Animation.renameBones
  simp only [List.length_map, firstMisplaced?_renameBones]
  cases Animation.firstMisplaced? 0 animation.frames <;> rfl

/-- The same variants are the default ones. -/
theorem defaultPositions_renameBones (rename : String → String) (variants : List Variant) :
    defaultPositions (variants.map (·.renameBones rename)) = defaultPositions variants := by
  unfold defaultPositions
  rw [List.zipIdx_map, List.filter_map, List.map_map]
  rfl

theorem defaultDefects_renameBones (rename : String → String) (variants : List Variant) :
    Export.defaultDefects (variants.map (·.renameBones rename))
      = Export.defaultDefects variants := by
  have hfilter : (variants.map (·.renameBones rename)).filter (·.isDefault)
      = (variants.filter (·.isDefault)).map (·.renameBones rename) := List.filter_map
  unfold Export.defaultDefects
  rw [hfilter]
  generalize variants.filter (·.isDefault) = defaults
  match defaults with
  | [] => rfl
  | [_] => rfl
  | first :: second :: rest =>
      simp only [List.map_cons, List.map_map]
      rfl

theorem agree_ofList (rename : String → String) (variants : List Variant) :
    Agree Defect.withoutBone
      (fun set' set => set.variants = variants ∧
        set'.variants = set.variants.map (·.renameBones rename) ∧
        set'.defaultPosition = set.defaultPosition)
      (VariantSet.ofList (variants.map (·.renameBones rename))) (VariantSet.ofList variants) := by
  have hnames : (variants.map (·.renameBones rename)).map (·.name) = variants.map (·.name) := by
    rw [List.map_map]
    rfl
  have hreports := Export.reports_ofList (variants.map (·.renameBones rename))
  rw [hnames, defaultDefects_renameBones] at hreports
  refine .of_reports hreports (Export.reports_ofList variants) fun set' set hset' hset => ?_
  have hvariants := Blueprint.variants_ofList hset
  have hvariants' := Blueprint.variants_ofList hset'
  refine ⟨hvariants, by rw [hvariants', hvariants], ?_⟩
  have hpositions := set'.defaultPositions_eq
  rw [hvariants', defaultPositions_renameBones, ← hvariants, set.defaultPositions_eq] at hpositions
  exact (List.cons.inj hpositions).1.symm

section Lookups

variable {project : Project} {rename : String → String}
  (hinj : Set.InjOn rename {id | id ∈ project.boneIds})

include hinj

theorem Rig.rest_renameBones {bone : Bone} (hbone : bone ∈ project.rig.bones) :
    (project.rig.renameBones rename).rest (bone.rename rename) = project.rig.rest bone := by
  have hrest : (project.rig.restPose.mapKeys rename).get? (rename bone.id)
      = project.rig.restPose.get? bone.id :=
    Table.get?_mapKeys hinj (fun _ => Project.rest_mem_boneIds)
      (Project.bone_mem_boneIds hbone)
  unfold Rig.rest Rig.rest?
  rw [← hrest]
  rfl

theorem Rig.model?_renameBones {bone : Bone} (hbone : bone ∈ project.rig.bones)
    (variant : String) :
    (project.rig.renameBones rename).model? variant (bone.rename rename)
      = project.rig.model? variant bone := by
  unfold Rig.model? Rig.renameBones Bone.rename
  rw [Table.get?_mapValues]
  cases hmodels : project.rig.models.get? variant with
  | none => rfl
  | some models =>
      exact Table.get?_mapKeys hinj (fun _ => Project.model_mem_boneIds hmodels)
        (Project.bone_mem_boneIds hbone)

theorem Rig.modelIn_renameBones {bone : Bone} (hbone : bone ∈ project.rig.bones)
    (variant : Variant) :
    (project.rig.renameBones rename).modelIn (variant.renameBones rename) (bone.rename rename)
      = project.rig.modelIn variant bone := by
  unfold Rig.modelIn
  rw [show (variant.renameBones rename).name = variant.name from rfl,
    Rig.model?_renameBones hinj hbone]
  rfl

/-- A variant affects the bones that it affected. -/
theorem affects_renameBones {variant : Variant} (hvariant : variant ∈ project.variants)
    {bone : Bone} (hbone : bone ∈ project.rig.bones) :
    (variant.renameBones rename).affects (bone.rename rename).id = variant.affects bone.id := by
  have hlisted : (variant.listed.map rename).contains (rename bone.id)
      = variant.listed.contains bone.id := by
    rw [Bool.eq_iff_iff, List.contains_iff_mem, List.contains_iff_mem]
    constructor
    · intro h
      obtain ⟨id, hid, hsame⟩ := List.mem_map.1 h
      rwa [← hinj (Project.listed_mem_boneIds hvariant hid) (Project.bone_mem_boneIds hbone) hsame]
    · exact List.mem_map_of_mem
  unfold Variant.affects
  rw [← hlisted]
  rfl

/-- A frame names a bone that there is not if it named one. -/
theorem isSome_unknownBone?_renameBones {animation : Animation}
    (hanimation : animation ∈ project.animations) {frame : Frame}
    (hframe : frame ∈ animation.frames) :
    ((frame.renameBones rename).unknownBone? (project.rig.renameBones rename)).isSome
      = (frame.unknownBone? project.rig).isSome := by
  have hkeys : ∀ id ∈ frame.poses.keys, id ∈ {id | id ∈ project.boneIds} :=
    fun _ => Project.pose_mem_boneIds hanimation hframe
  have hbone {id : String} (hid : id ∈ frame.poses.keys) :
      ((project.rig.renameBones rename).bone? (rename id)).isNone
        = (project.rig.bone? id).isNone := by
    unfold Rig.bone?
    rw [Export.isNone_find? _ Bone.id, Export.isNone_find? _ Bone.id]
    refine decide_eq_decide.2 ?_
    unfold Rig.renameBones
    rw [List.forall_mem_map]
    refine forall₂_congr fun bone hbone => not_congr ?_
    exact hinj.eq_iff (Project.bone_mem_boneIds hbone) (hkeys id hid)
  unfold Frame.unknownBone?
  rw [Bool.eq_iff_iff, List.find?_isSome, List.find?_isSome]
  constructor
  · rintro ⟨_, hrenamed, hnone⟩
    obtain ⟨id, hid, rfl⟩ := (Table.mem_keys_mapKeys hinj hkeys).1 hrenamed
    exact ⟨id, hid, hbone hid ▸ hnone⟩
  · rintro ⟨id, hid, hnone⟩
    exact ⟨rename id, (Table.mem_keys_mapKeys hinj hkeys).2 ⟨id, hid, rfl⟩, (hbone hid).trans hnone⟩

theorem posesIn_renameBones {animation : Animation}
    (hanimation : animation ∈ project.animations) {frame : Frame}
    (hframe : frame ∈ animation.frames) :
    (frame.renameBones rename).posesIn (project.rig.renameBones rename)
      = frame.posesIn project.rig := by
  unfold Frame.posesIn Rig.renameBones
  rw [List.filterMap_map]
  refine List.filterMap_congr fun bone hbone => ?_
  have hpose : (frame.poses.mapKeys rename).get? (rename bone.id) = frame.poses.get? bone.id :=
    Table.get?_mapKeys hinj (fun _ => Project.pose_mem_boneIds hanimation hframe)
      (Project.bone_mem_boneIds hbone)
  rw [← hpose]
  rfl

/-! ## The stages of an export -/

theorem agree_ofFrame {set set' : VariantSet}
    (hset : set'.variants = set.variants.map (·.renameBones rename)) {animation : Animation}
    (hanimation : animation ∈ project.animations) (index : Nat) {frame : Frame}
    (hframe : frame ∈ animation.frames) :
    Agree Defect.withoutBone Eq
      (Keyframe.ofFrame (project.rig.renameBones rename) set' animation.name index
        (frame.renameBones rename))
      (Keyframe.ofFrame project.rig set animation.name index frame) := by
  have hbone := isSome_unknownBone?_renameBones hinj hanimation hframe
  have hvariant : (frame.renameBones rename).unknownVariant? set'
      = frame.unknownVariant? set := by
    have hget (name : String) : (set'.get? name).isNone = (set.get? name).isNone := by
      unfold VariantSet.get?
      rw [hset, List.find?_map, Option.isNone_map]
      rfl
    unfold Frame.unknownVariant?
    simp only [hget]
    rfl
  unfold Keyframe.ofFrame
  rw [hvariant, posesIn_renameBones hinj hanimation hframe]
  cases hunknown : frame.unknownBone? project.rig with
  | some id =>
      rw [hunknown] at hbone
      obtain ⟨id', hid'⟩ := Option.isSome_iff_exists.1 hbone
      rw [hid']
      exact Eq.refl (Defect.unknownBone animation.name index "")
  | none =>
      rw [hunknown, Option.isSome_none, Option.isSome_eq_false_iff, Option.isNone_iff_eq_none]
        at hbone
      rw [hbone]
      exact .refl _

theorem agree_ofAnimation {set set' : VariantSet}
    (hset : set'.variants = set.variants.map (·.renameBones rename)) {animation : Animation}
    (hanimation : animation ∈ project.animations) :
    Agree Defect.withoutBone Eq
      (Blueprint.Motion.ofAnimation (project.rig.renameBones rename) set'
        (animation.renameBones rename))
      (Blueprint.Motion.ofAnimation project.rig set animation) := by
  refine .map ?_ fun timeline => Blueprint.Motion.mk animation.name animation.duration.toNat
    animation.loopMode timeline
  unfold Timeline.ofAnimation
  rw [checkFrames_renameBones]
  refine Agree.bind (.refl _) fun _ _ _ => ?_
  have hframe (number : Nat) (frame : Frame) (hmem : frame ∈ animation.frames) :=
    agree_ofFrame hinj hset hanimation number hmem
  change Agree _ _ (RangeTree.ofTimeline (animation.frames.map (·.renameBones rename)) >>= _) _
  cases hframes : animation.frames with
  | nil => exact .refl (.error Defect.emptyTimeline)
  | cons first rest =>
      rw [hframes] at hframe
      rw [List.map_cons, RangeTree.ofTimeline, RangeTree.ofTimeline, List.length_map]
      split
      · exact Eq.refl (Defect.timelineTooLong (rest.length + 1))
      · exact Agree.traverse_balanced 0 (first :: rest) (List.cons_ne_nil first rest) hframe
          (List.cons_ne_nil _ _)

theorem agree_ofBone {bone : Bone} (hbone : bone ∈ project.rig.bones) :
    Agree Defect.withoutBone Eq
      (Blueprint.Part.ofBone (project.rig.renameBones rename) (bone.rename rename))
      (Blueprint.Part.ofBone project.rig bone) := by
  unfold Blueprint.Part.ofBone
  rw [Rig.rest_renameBones hinj hbone]
  exact .refl _

theorem agree_ofVariant {variant : Variant} (hvariant : variant ∈ project.variants) :
    Agree Defect.withoutBone Eq
      (Blueprint.Look.ofVariant (project.rig.renameBones rename) (variant.renameBones rename))
      (Blueprint.Look.ofVariant project.rig variant) := by
  have hbones : (project.rig.renameBones rename).bones.filter
        (fun bone => (variant.renameBones rename).affects bone.id)
      = (project.rig.bones.filter fun bone => variant.affects bone.id).map
        (·.rename rename) := by
    unfold Rig.renameBones
    rw [List.filter_map]
    refine congrArg _ (List.filter_congr fun bone hbone => ?_)
    exact affects_renameBones hinj hvariant hbone
  unfold Blueprint.Look.ofVariant
  rw [hbones]
  refine .map (.mapM fun bone hbone => ?_) (Blueprint.Look.mk variant.name variant.isDefault)
  rw [Rig.modelIn_renameBones hinj (List.mem_of_mem_filter hbone)]
  exact .refl _

theorem agree_ofProject :
    Agree Defect.withoutBone Eq (Blueprint.ofProject (project.renameBones rename))
      (Blueprint.ofProject project) := by
  unfold Blueprint.ofProject
  refine (agree_ofList rename project.variants).bind fun set' set ⟨hset, hvariants, hposition⟩ => ?_
  have hparts : Agree Defect.withoutBone Eq
      ((project.rig.bones.map (·.rename rename)).mapM
        (Blueprint.Part.ofBone (project.rig.renameBones rename)))
      (project.rig.bones.mapM (Blueprint.Part.ofBone project.rig)) :=
    .mapM fun bone hbone => agree_ofBone hinj hbone
  have hlooks : Agree Defect.withoutBone Eq
      (set'.variants.mapM (Blueprint.Look.ofVariant (project.rig.renameBones rename)))
      (set.variants.mapM (Blueprint.Look.ofVariant project.rig)) := by
    rw [hvariants]
    exact .mapM fun variant hvariant => agree_ofVariant hinj (hset ▸ hvariant)
  have hmotions : Agree Defect.withoutBone Eq
      ((project.animations.map (·.renameBones rename)).mapM
        (Blueprint.Motion.ofAnimation (project.rig.renameBones rename) set'))
      (project.animations.mapM (Blueprint.Motion.ofAnimation project.rig set)) :=
    .mapM fun animation hanimation => agree_ofAnimation hinj hvariants hanimation
  refine hparts.bind fun parts _ hsame => ?_
  subst hsame
  refine hlooks.bind fun looks _ hsame => ?_
  subst hsame
  rw [hposition]
  exact hmotions.map _

end Lookups

/-! ## Exports -/

theorem Export.check_renameBones (settings : Settings) (project : Project)
    (rename : String → String) :
    check settings (project.renameBones rename) = check settings project := by
  have hanimations : (project.animations.map (·.renameBones rename)).map (·.name)
      = project.animations.map (·.name) := by
    rw [List.map_map]
    rfl
  have hvariants : (project.variants.map (·.renameBones rename)).map (·.name)
      = project.variants.map (·.name) := by
    rw [List.map_map]
    rfl
  have hbones : (project.rig.bones.map (·.rename rename)).map (·.name)
      = project.rig.bones.map (·.name) := by
    rw [List.map_map]
    rfl
  have hempty : (project.animations.map (·.renameBones rename)).find? (·.duration = 0)
      = (project.animations.find? (·.duration = 0)).map (·.renameBones rename) :=
    List.find?_map
  unfold check Project.renameBones Rig.renameBones
  simp only [hanimations, hvariants, hbones, hempty]
  cases project.animations.find? (·.duration = 0) <;> rfl

/-- Bone ids are only keys.  A project whose bones go by other ids is built or refused as it was,
if different ids stay different: its pack is the same, file by file, and so is a refusal,
apart from the id of an unknown bone.  Nothing is asked of the ids else: bones may share one,
and there may be ids that no bone has. -/
theorem Export.build_renameBones (settings : Settings) {project : Project}
    {rename : String → String} (hinj : Set.InjOn rename {id | id ∈ project.boneIds}) :
    (∀ pack, build settings (project.renameBones rename) = .ok pack ↔
      build settings project = .ok pack) ∧
    (build settings (project.renameBones rename)).mapError ExportFault.withoutBone
      = (build settings project).mapError ExportFault.withoutBone := by
  have hagree : Agree ExportFault.withoutBone Eq (build settings (project.renameBones rename))
      (build settings project) := by
    unfold build
    rw [check_renameBones]
    refine Agree.bind (.refl _) fun _ _ _ => ?_
    have hproject := agree_ofProject hinj
    revert hproject
    cases Blueprint.ofProject (project.renameBones rename) with
    | ok blueprint' =>
        cases Blueprint.ofProject project with
        | ok blueprint =>
            rintro rfl
            exact .refl _
        | error defect => exact False.elim
    | error defect' =>
        cases Blueprint.ofProject project with
        | ok blueprint => exact False.elim
        | error defect => exact congrArg ExportFault.defect
  exact ⟨hagree.ok_iff, hagree.mapError_eq⟩

/-- Two bones whose ids trade places, so that tables list them the other way round, keep their
pack. -/
theorem Export.build_renameBones_of_two_bones :
    let project : Project := { oneFrame "walk" with
      rig := ⟨[⟨"a", "head", 1⟩, ⟨"b", "body", 2⟩], .ofList [("a", default), ("b", default)],
        .ofList [("bare", .ofList [("b", 3)])]⟩
      variants := [⟨"plain", true, [], false⟩, ⟨"bare", false, ["b"], true⟩]
      animations := [⟨"walk", 1, .loop, [⟨0, .ofList [("b", default)], none, none⟩]⟩] }
    let trade : String → String := fun id => if id = "a" then "b" else "a"
    (project.renameBones trade).rig.bones.map (·.id) = ["b", "a"] ∧
    ∃ pack, build ⟨"packs", 1, 12⟩ project = .ok pack ∧
      build ⟨"packs", 1, 12⟩ (project.renameBones trade) = .ok pack := by
  intro project trade
  have hinj : Set.InjOn trade {id | id ∈ project.boneIds} := by
    have hall : ∀ id ∈ project.boneIds, ∀ other ∈ project.boneIds,
        trade id = trade other → id = other := by
      decide +kernel
    exact fun id hid other hother => hall id hid other hother
  obtain ⟨pack, hbuild⟩ : ∃ pack, build ⟨"packs", 1, 12⟩ project = .ok pack :=
    exists_ok_of_isSome (by decide +kernel)
  obtain ⟨hbuilds, -⟩ := build_renameBones ⟨"packs", 1, 12⟩ hinj
  exact ⟨rfl, pack, hbuild, (hbuilds pack).2 hbuild⟩

end RigPack

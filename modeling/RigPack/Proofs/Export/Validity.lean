import Mathlib.Data.List.TakeWhile
import RigPack.Proofs.FirstFault
import RigPack.Proofs.Pack.Sound
import RigPack.Proofs.Export.Accepted

/-!
# Which projects an export accepts

The checks of an export stand in five places: in `Export.check`, where a variant set
is made, where poses and models are looked up, where the frames are counted, and
where the leaves of a timeline are made.  Here stands in one place what they look
for.  `Valid` lists the conditions; `faults` lists every way in which a project
violates one, in the order in which they are reported.  Neither refers to the checks.

## Main statement

* `build_reports_first_fault`: a pack is built exactly for what is valid, and else
  the first of all faults is reported.
-/

namespace RigPack

/-! ## The conditions -/

/-- The characters of names that stand in resource paths. -/
def nameChars : List Char :=
  "abcdefghijklmnopqrstuvwxyz0123456789_.-".toList

/-- Whether a text can be a segment of a resource path. -/
def CanName (name : String) : Prop :=
  name ≠ "" ∧ (∀ c ∈ name.toList, c ∈ nameChars) ∧ name ≠ "." ∧ name ≠ ".."

instance (name : String) : Decidable (CanName name) :=
  decidable_of_iff
    (name ≠ "" ∧ name.toList.all (· ∈ nameChars) = true ∧ name ≠ "." ∧ name ≠ "..")
    (by simp [CanName])

/-- Whether a variant changes the look of a bone: it is one of those listed if the list
names the affected bones, and one of the others if it names those left alone. -/
def Variant.Affects (variant : Variant) (bone : Bone) : Prop :=
  bone.id ∈ variant.listed ↔ variant.listIsAffected = true

instance (variant : Variant) (bone : Bone) : Decidable (variant.Affects bone) :=
  inferInstanceAs (Decidable (_ ↔ _))

namespace Export

/-- What settings and project must be like. -/
structure Valid (settings : Settings) (project : Project) : Prop where
  folder : settings.folder ≠ ""
  space : CanName project.space
  item : ∃ c ∈ project.item.toList, ¬ Text.isBlank c
  interpolation : settings.interpolation.toNat ≤ 2 ^ 31 - 1
  durations : ∀ animation ∈ project.animations, animation.duration ≠ 0
  animation_names : ∀ animation ∈ project.animations, CanName animation.name
  variant_names : ∀ variant ∈ project.variants, CanName variant.name
  bone_names : ∀ bone ∈ project.rig.bones, CanName bone.name
  animations_nodup : (project.animations.map (·.name)).Nodup
  variants_nodup : (project.variants.map (·.name)).Nodup
  one_default : (project.variants.filter (·.isDefault)).length = 1
  /-- Every bone stands somewhere at rest. -/
  rest : ∀ bone ∈ project.rig.bones, ∃ pose, project.rig.restPose.get? bone.id = some pose
  /-- Every bone that a variant affects has a model there. -/
  models : ∀ variant ∈ project.variants, variant.isDefault = false →
    ∀ bone ∈ project.rig.bones, variant.Affects bone →
      ∃ model, project.rig.model? variant.name bone = some model
  frame_counts : ∀ animation ∈ project.animations,
    animation.frames.length = animation.duration.toNat
  frame_numbers : ∀ animation ∈ project.animations, ∀ (position : Nat) (frame : Frame),
    animation.frames[position]? = some frame → frame.index.toNat = position
  /-- Every bone that a frame moves is one of the rig. -/
  poses : ∀ animation ∈ project.animations, ∀ frame ∈ animation.frames,
    ∀ id ∈ frame.poses.keys, ∃ bone ∈ project.rig.bones, bone.id = id
  /-- Every variant that a frame switches to is one of the project. -/
  switches : ∀ animation ∈ project.animations, ∀ frame ∈ animation.frames,
    ∀ switch ∈ frame.switch, ∃ variant ∈ project.variants, variant.name = switch.variant

/-! ## The faults, in the order in which they are reported -/

/-- The settings that cannot be used. -/
def configFaults (settings : Settings) (project : Project) : List ConfigFault :=
  require (settings.folder ≠ "") .noFolder
  ++ require (CanName project.space) (.invalidNamespace project.space)
  ++ require (project.item.toList.any (!Text.isBlank ·) = true) .noItem
  ++ require (settings.interpolation.toNat ≤ 2 ^ 31 - 1)
      (.interpolationTooLong settings.interpolation.toNat)
  ++ (project.animations.filter (·.duration = 0)).map (.emptyAnimation ·.name)

/-- The names of one kind that no resource can have. -/
def nameDefects (part : NamedPart) (names : List String) : List Defect :=
  (names.filter (¬ CanName ·)).map (.invalidName part)

/-- The names that stand further left in a list, too. -/
def repeated (names : List String) : List String :=
  (names.zipIdx.filter fun (name, position) => name ∈ names.take position).map (·.1)

/-- What is wrong with the choice of the default variant. -/
def defaultDefects (variants : List Variant) : List Defect :=
  match variants.filter (·.isDefault) with
  | [] => [.missingDefaultVariant]
  | [_] => []
  | several => [.multipleDefaultVariants (several.map (·.name))]

/-- The bones without a pose at rest. -/
def restDefects (rig : Rig) : List Defect :=
  (rig.bones.filter fun bone => rig.restPose.get? bone.id = none).map (.missingRestPose ·.name)

/-- The bones that a variant affects without giving them a model. -/
def modelDefects (rig : Rig) (variant : Variant) : List Defect :=
  (rig.bones.filter fun bone => variant.Affects bone ∧ variant.isDefault = false ∧
    rig.model? variant.name bone = none).map (.missingVariantModel variant.name ·.name)

/-- What the frame at a position refers to without its being there. -/
def referenceDefects (project : Project) (animation : String) : Frame × Nat → List Defect :=
  fun (frame, position) =>
    (frame.poses.keys.filter fun id => ∀ bone ∈ project.rig.bones, bone.id ≠ id).map
      (.unknownBone animation position)
    ++ (frame.switch.toList.filter fun switch =>
        ∀ variant ∈ project.variants, variant.name ≠ switch.variant).map
      (.unknownVariant animation position ·.variant)

/-- The frames that do not carry their position. -/
def numberDefects (animation : Animation) : List Defect :=
  (animation.frames.zipIdx.filter fun (frame, position) => frame.index.toNat ≠ position).map
    fun (frame, position) => .frameIndexMismatch animation.name position frame.index.toNat

/-- What is wrong with the frames of an animation. -/
def frameDefects (project : Project) (animation : Animation) : List Defect :=
  require (animation.frames.length = animation.duration.toNat)
    (.frameCountMismatch animation.name animation.frames.length animation.duration.toNat)
  ++ numberDefects animation
  ++ animation.frames.zipIdx.flatMap (referenceDefects project animation.name)

/-- The defects that the checks of the names find. -/
def namingDefects (project : Project) : List Defect :=
  nameDefects .animation (project.animations.map (·.name))
  ++ nameDefects .variant (project.variants.map (·.name))
  ++ nameDefects .bone (project.rig.bones.map (·.name))
  ++ (repeated (project.animations.map (·.name))).map .duplicateAnimation

/-- The defects of the parts of a project, as far as they fit together. -/
def fittingDefects (project : Project) : List Defect :=
  (repeated (project.variants.map (·.name))).map .duplicateVariant
  ++ defaultDefects project.variants
  ++ restDefects project.rig
  ++ project.variants.flatMap (modelDefects project.rig)
  ++ project.animations.flatMap (frameDefects project)

/-- Everything that is wrong with settings and project. -/
def faults (settings : Settings) (project : Project) : List ExportFault :=
  (configFaults settings project).map .config
  ++ (namingDefects project ++ fittingDefects project).map .defect

/-! ## Names -/

theorem toNat_lt_of_isNameChar {c : Char} (h : isNameChar c = true) : c.toNat < 128 := by
  have of_le {last : Char} (hlast : last.toNat < 128) (hle : c.val ≤ last.val) : c.toNat < 128 :=
    Nat.lt_of_le_of_lt (UInt32.le_iff_toNat_le.1 hle) hlast
  simp only [isNameChar, Bool.or_eq_true, decide_eq_true_eq] at h
  rcases h with (((h | h) | rfl) | rfl) | rfl
  · obtain ⟨-, hle⟩ := Bool.and_eq_true_iff.1 h
    exact of_le (by decide) (of_decide_eq_true hle)
  · obtain ⟨-, hle⟩ := Bool.and_eq_true_iff.1 h
    exact of_le (by decide) (of_decide_eq_true hle)
  all_goals decide

theorem isNameChar_iff (c : Char) : isNameChar c = true ↔ c ∈ nameChars := by
  constructor
  · intro h
    have hall : ∀ n < 128, isNameChar (Char.ofNat n) = true → Char.ofNat n ∈ nameChars := by
      decide
    have hc : Char.ofNat c.toNat = c := Char.ofNat_toNat c
    rw [← hc]
    exact hall c.toNat (toNat_lt_of_isNameChar h) (hc.symm ▸ h)
  · exact List.all_eq_true.1 (by decide : nameChars.all isNameChar = true) c

theorem isResourceName_iff (name : String) : isResourceName name = true ↔ CanName name := by
  simp only [isResourceName, CanName, Bool.and_eq_true, Bool.not_eq_true', List.all_eq_true,
    decide_eq_true_eq, isNameChar_iff, String.isEmpty_eq_false_iff, and_assoc]

theorem dropBlanks_eq_nil_iff (cs : List Char) :
    Text.dropBlanks cs = [] ↔ ∀ c ∈ cs, Text.isBlank c = true :=
  List.dropWhile_eq_nil_iff

theorem any_not_isBlank_iff (s : String) :
    s.toList.any (!Text.isBlank ·) = true ↔ ∃ c ∈ s.toList, ¬ Text.isBlank c := by
  simp

theorem isEmpty_trim_iff (s : String) :
    (Text.trim s).isEmpty = true ↔ ¬ s.toList.any (!Text.isBlank ·) = true := by
  have hempty : (Text.trim s).isEmpty = true
      ↔ Text.dropBlanks (Text.dropBlanks s.toList).reverse = [] := by
    rw [Text.trim, String.isEmpty_iff, String.ofList_eq_empty_iff, List.reverse_eq_nil_iff]
  have hsplit : s.toList = s.toList.takeWhile Text.isBlank ++ Text.dropBlanks s.toList :=
    List.takeWhile_append_dropWhile.symm
  rw [hempty, dropBlanks_eq_nil_iff, any_not_isBlank_iff]
  push Not
  constructor
  · intro h c hc
    rw [hsplit, List.mem_append] at hc
    rcases hc with hc | hc
    · exact List.mem_takeWhile_imp hc
    · exact h c (List.mem_reverse.2 hc)
  · intro h c hc
    rw [(dropBlanks_eq_nil_iff _).2 h] at hc
    exact absurd hc List.not_mem_nil

theorem reports_checkNames (part : NamedPart) (names : List String) :
    Reports (checkNames part names) ((nameDefects part names).map .defect) := by
  have hfilter : names.filter (¬ CanName ·) = names.filter (!isResourceName ·) :=
    List.filter_congr fun name _ => by simp [← isResourceName_iff]
  rw [nameDefects, List.map_map, hfilter, checkNames]
  refine .only List.head?_filter.symm _ (fun name hname => ?_) fun hnone => ⟨(), ?_⟩
  · rw [hname]
    rfl
  · rw [hnone]

/-! ## Repetitions -/

theorem firstRepeated?_eq (front names : List String) :
    firstRepeated? front.reverse names
      = (((names.zipIdx front.length).filter fun (name, position) =>
          name ∈ (front ++ names).take position).map (·.1)).head? := by
  induction names generalizing front with
  | nil => rfl
  | cons name names ih =>
      have hnext := ih (front ++ [name])
      rw [List.reverse_append, List.append_assoc] at hnext
      rw [firstRepeated?, List.zipIdx_cons, List.filter_cons]
      by_cases hname : name ∈ front
      · simp [hname]
      · simpa [hname] using hnext

theorem firstRepeated?_nil (names : List String) :
    firstRepeated? [] names = (repeated names).head? := by
  have h := firstRepeated?_eq [] names
  rwa [List.reverse_nil, List.length_nil, List.nil_append] at h

theorem repeated_eq_nil_iff (names : List String) : repeated names = [] ↔ names.Nodup := by
  rw [← List.head?_eq_none_iff, ← firstRepeated?_nil, firstRepeated?_eq_none_iff]
  simp

/-! ## The checks of an export -/

theorem maxValue_lt_iff (ticks : UInt32) :
    Int32.maxValue.toInt < (ticks.toNat : Int) ↔ ¬ ticks.toNat ≤ 2 ^ 31 - 1 := by
  have hmax : Int32.maxValue.toInt = 2 ^ 31 - 1 := by decide
  rw [hmax]
  omega

theorem map_require {ε ε' : Type} {condition : Prop} [Decidable condition] (f : ε → ε')
    (fault : ε) : (require condition fault).map f = require condition (f fault) := by
  unfold require
  split <;> rfl

theorem reports_check (settings : Settings) (project : Project) :
    Reports (check settings project)
      ((configFaults settings project).map .config ++ (namingDefects project).map .defect) := by
  unfold check configFaults namingDefects
  simp only [List.map_append, map_require, List.append_assoc, List.map_map]
  refine .test (by simp) rfl fun _ => .test (by simp [← isResourceName_iff]) rfl fun _ =>
    .test (isEmpty_trim_iff _) rfl fun _ => .test (maxValue_lt_iff _) rfl fun _ =>
    .first List.head?_filter.symm _ (fun animation hanimation => ?_) fun hnone _ => ?_
  · rw [hanimation]
    rfl
  rw [hnone]
  refine (reports_checkNames _ _).bind fun _ _ => (reports_checkNames _ _).bind fun _ _ =>
    (reports_checkNames _ _).bind fun _ _ => ?_
  refine .only (firstRepeated?_nil _) _ (fun name hname => ?_) fun hnone => ⟨(), ?_⟩
  · rw [hname]
    rfl
  · rw [hnone]
    rfl

/-! ## The parts of a blueprint -/

theorem length_defaultPositions (variants : List Variant) :
    (defaultPositions variants).length = (variants.filter (·.isDefault)).length := by
  have hfst : (variants.zipIdx.filter (·.1.isDefault)).map (·.1)
      = variants.filter (·.isDefault) := by
    conv_rhs => rw [← List.zipIdx_map_fst 0 variants, List.filter_map]
    rfl
  rw [defaultPositions, List.length_map, ← hfst, List.length_map]

theorem reports_ofList (variants : List Variant) :
    Reports (VariantSet.ofList variants)
      ((repeated (variants.map (·.name))).map .duplicateVariant ++ defaultDefects variants) := by
  refine .first (firstRepeated?_nil _) _ (fun name hname => ?_) fun hnone _ => ?_
  · unfold VariantSet.ofList
    split
    · rename_i name' hname'
      rw [hname', Option.some.injEq] at hname
      rw [hname]
    · rename_i hnone
      rw [hnone] at hname
      contradiction
  · have hlength := length_defaultPositions variants
    unfold VariantSet.ofList
    split
    · rename_i name hname
      rw [hname] at hnone
      contradiction
    · -- the defaults are told apart by how many there are
      unfold defaultDefects
      split
      · rename_i hpositions
        rw [hpositions] at hlength
        rw [List.length_eq_zero_iff.1 hlength.symm]
        exact .error _ []
      · rename_i position hpositions
        rw [hpositions] at hlength
        obtain ⟨variant, hvariant⟩ := List.length_eq_one_iff.1 hlength.symm
        rw [hvariant]
        exact .ok _
      · rename_i hnotNil hnotOne
        split <;> rename_i hdefaults
        · rw [hdefaults] at hlength
          exact absurd (List.length_eq_zero_iff.1 hlength) hnotNil
        · rw [hdefaults] at hlength
          obtain ⟨position, hposition⟩ := List.length_eq_one_iff.1 hlength
          exact (hnotOne position hposition).elim
        · exact .error _ []

/-- Faults of single elements, one after the other, are those of the bad elements. -/
theorem flatMap_require {α ε : Type} (as : List α) (bad : α → Prop) [DecidablePred bad]
    (fault : α → ε) :
    as.flatMap (fun a => require (¬ bad a) (fault a)) = (as.filter (bad ·)).map fault := by
  induction as with
  | nil => rfl
  | cons a as ih =>
      rw [List.flatMap_cons, ih, List.filter_cons, require]
      by_cases h : bad a <;> simp [h]

theorem reports_parts (rig : Rig) :
    Reports (rig.bones.mapM (Blueprint.Part.ofBone rig)) (restDefects rig) := by
  rw [restDefects, ← flatMap_require rig.bones fun bone => rig.restPose.get? bone.id = none]
  refine .mapM fun bone _ => ?_
  refine .map ?_ (Blueprint.Part.mk bone.name bone.model)
  unfold Rig.rest Rig.rest? require
  cases rig.restPose.get? bone.id with
  | none => exact .error _ []
  | some pose => exact .ok pose

theorem affects_eq (variant : Variant) (bone : Bone) :
    variant.affects bone.id = decide (variant.Affects bone) := by
  obtain ⟨name, isDefault, listed, listIsAffected⟩ := variant
  rw [Variant.affects, Bool.eq_iff_iff, beq_iff_eq, Bool.eq_iff_iff, decide_eq_true_iff,
    List.contains_iff_mem]
  rfl

theorem reports_modelIn (rig : Rig) (variant : Variant) (bone : Bone) :
    Reports (rig.modelIn variant bone)
      (require (¬ (variant.isDefault = false ∧ rig.model? variant.name bone = none))
        (.missingVariantModel variant.name bone.name)) := by
  unfold Rig.modelIn require
  cases variant.isDefault with
  | true => exact .ok bone.model
  | false =>
      cases rig.model? variant.name bone with
      | none => exact .error _ []
      | some model => exact .ok model

theorem reports_looks (rig : Rig) (variants : List Variant) :
    Reports (variants.mapM (Blueprint.Look.ofVariant rig))
      (variants.flatMap (modelDefects rig)) := by
  refine .mapM fun variant _ => ?_
  refine .map ?_ (Blueprint.Look.mk variant.name variant.isDefault)
  have hbones : modelDefects rig variant
      = (rig.bones.filter fun bone => variant.affects bone.id).flatMap fun bone =>
          require (¬ (variant.isDefault = false ∧ rig.model? variant.name bone = none))
            (.missingVariantModel variant.name bone.name) := by
    rw [flatMap_require, List.filter_filter, modelDefects]
    refine congrArg _ (List.filter_congr fun bone _ => ?_)
    rw [affects_eq]
    by_cases h : variant.Affects bone <;> simp [h]
  rw [hbones]
  exact .mapM fun bone _ => (reports_modelIn rig variant bone).map fun model => (bone.name, model)

/-! ## The frames of an animation -/

theorem firstMisplaced?_eq (start : Nat) (frames : List Frame) :
    (Animation.firstMisplaced? start frames).map Prod.swap
      = ((frames.zipIdx start).filter fun (frame, position) =>
          frame.index.toNat ≠ position).head? := by
  induction frames generalizing start with
  | nil => rfl
  | cons frame frames ih =>
      rw [Animation.firstMisplaced?, List.zipIdx_cons, List.filter_cons]
      by_cases h : frame.index.toNat = start
      · simpa [h] using ih (start + 1)
      · simp [h]

theorem reports_checkFrames (animation : Animation) :
    Reports animation.checkFrames
      (require (animation.frames.length = animation.duration.toNat)
          (.frameCountMismatch animation.name animation.frames.length animation.duration.toNat)
        ++ numberDefects animation) := by
  unfold Animation.checkFrames
  refine .test Iff.rfl rfl fun _ => ?_
  refine .only (firstMisplaced?_eq 0 animation.frames) _ (fun (frame, position) hfound => ?_)
    fun hnone => ⟨(), ?_⟩
  · obtain ⟨misplaced, hmisplaced, hswap⟩ := Option.map_eq_some_iff.1 hfound
    obtain ⟨rfl, rfl⟩ := Prod.mk.inj hswap
    rw [hmisplaced]
  · rw [Option.map_eq_none_iff.1 hnone]

/-- Nothing is found under a name exactly if nothing has it. -/
theorem isNone_find? {α : Type} (as : List α) (key : α → String) (name : String) :
    (as.find? (key · = name)).isNone = decide (∀ a ∈ as, key a ≠ name) := by
  rw [Bool.eq_iff_iff, Option.isNone_iff_eq_none, decide_eq_true_iff, List.find?_eq_none]
  simp

theorem reports_ofFrame {project : Project} {set : VariantSet}
    (hset : set.variants = project.variants) (animation : String) (frame : Frame)
    (position : Nat) :
    Reports (Keyframe.ofFrame project.rig set animation position frame)
      (referenceDefects project animation (frame, position)) := by
  have hbone : frame.unknownBone? project.rig
      = (frame.poses.keys.filter fun id => ∀ bone ∈ project.rig.bones, bone.id ≠ id).head? := by
    rw [List.head?_filter, Frame.unknownBone?]
    exact congrArg (frame.poses.keys.find? ·)
      (funext fun id => isNone_find? project.rig.bones (·.id) id)
  have hvariant : frame.unknownVariant? set
      = ((frame.switch.toList.filter fun switch =>
          ∀ variant ∈ project.variants, variant.name ≠ switch.variant).map
        (·.variant)).head? := by
    rw [Frame.unknownVariant?]
    cases frame.switch with
    | none => rfl
    | some switch =>
        have hnone : (set.get? switch.variant).isNone
            = decide (∀ variant ∈ project.variants, variant.name ≠ switch.variant) := by
          rw [← hset]
          exact isNone_find? set.variants (·.name) switch.variant
        simp only [hnone, decide_eq_true_iff, Option.toList_some, List.filter_cons,
          List.filter_nil]
        split <;> rfl
  rw [referenceDefects]
  unfold Keyframe.ofFrame
  refine .first hbone _ (fun id hid => ?_) fun hnone _ => ?_
  · rw [hid]
  · rw [hnone]
    change Reports _ (List.map (Defect.unknownVariant animation position ∘ VariantSwitch.variant) _)
    rw [← List.map_map]
    refine .only hvariant _ (fun name hname => ?_) fun hnone => ?_
    · rw [hname]
    · rw [hnone]
      exact ⟨_, rfl⟩

/-- The frames of an animation that has a tick are counted, then looked through. -/
theorem reports_motion {project : Project} {set : VariantSet}
    (hset : set.variants = project.variants) {animation : Animation}
    (hduration : animation.duration ≠ 0) :
    Reports (Blueprint.Motion.ofAnimation project.rig set animation)
      (frameDefects project animation) := by
  refine .map ?_ fun timeline => Blueprint.Motion.mk animation.name animation.duration.toNat
    animation.loopMode timeline
  refine (reports_checkFrames animation).bind fun _ hcheck => ?_
  have hlength := Blueprint.length_of_checkFrames hcheck
  have hpositive : 0 < animation.duration.toNat :=
    Nat.pos_of_ne_zero fun hzero => hduration (UInt32.toNat_inj.1 hzero)
  have hne : animation.frames ≠ [] := List.length_pos_iff.1 (by omega)
  have hle : animation.frames.length ≤ RangeTree.maxFrames := by
    rw [hlength, RangeTree.maxFrames]
    exact animation.duration.toNat_lt_size.le
  rw [RangeTree.ofTimeline_of_length_le hne hle]
  exact .traverse_balanced
    (fun frame position => reports_ofFrame hset animation.name frame position) 0 _ hne

theorem reports_ofProject {project : Project}
    (hdurations : ∀ animation ∈ project.animations, animation.duration ≠ 0) :
    Reports (Blueprint.ofProject project) (fittingDefects project) := by
  unfold Blueprint.ofProject fittingDefects
  rw [List.append_assoc, List.append_assoc]
  refine (reports_ofList project.variants).bind fun set hset => ?_
  have hvariants := Blueprint.variants_ofList hset
  refine (reports_parts project.rig).bind fun parts _ => ?_
  rw [hvariants]
  refine (reports_looks project.rig project.variants).bind fun looks _ => ?_
  exact (Reports.mapM fun animation hanimation =>
    reports_motion hvariants (hdurations animation hanimation)).map _

/-- What is built, or the first of all faults. -/
theorem reports_build (settings : Settings) (project : Project) :
    Reports (build settings project) (faults settings project) := by
  unfold build faults
  rw [List.map_append, ← List.append_assoc]
  refine (reports_check settings project).bind fun _ hcheck => ?_
  have hnil := (reports_check settings project).exists_ok_iff.1 ⟨_, hcheck⟩
  have hdurations : ∀ animation ∈ project.animations, animation.duration ≠ 0 := by
    have hconfig := List.map_eq_nil_iff.1 (List.append_eq_nil_iff.1 hnil).1
    have hempty := List.map_eq_nil_iff.1 (List.append_eq_nil_iff.1 hconfig).2
    intro animation hanimation
    simpa using List.filter_eq_nil_iff.1 hempty animation hanimation
  have hproject := reports_ofProject hdurations
  cases hblueprint : Blueprint.ofProject project with
  | ok blueprint =>
      rw [hblueprint] at hproject
      have hfitting : fittingDefects project = [] := hproject
      rw [hfitting]
      exact .ok _
  | error defect =>
      rw [hblueprint] at hproject
      change ((fittingDefects project).map ExportFault.defect).head? = some (.defect defect)
      rw [List.head?_map, show (fittingDefects project).head? = some defect from hproject]
      rfl

/-! ## No fault, no violated condition -/

theorem configFaults_eq_nil_iff {settings : Settings} {project : Project} :
    configFaults settings project = [] ↔
      settings.folder ≠ "" ∧ CanName project.space ∧
      (∃ c ∈ project.item.toList, ¬ Text.isBlank c) ∧
      settings.interpolation.toNat ≤ 2 ^ 31 - 1 ∧
      ∀ animation ∈ project.animations, animation.duration ≠ 0 := by
  simp only [configFaults, List.append_eq_nil_iff, require_eq_nil, List.map_eq_nil_iff,
    List.filter_eq_nil_iff, any_not_isBlank_iff, decide_eq_true_eq, and_assoc, ne_eq]

theorem nameDefects_eq_nil_iff {part : NamedPart} {names : List String} :
    nameDefects part names = [] ↔ ∀ name ∈ names, CanName name := by
  simp [nameDefects]

theorem defaultDefects_eq_nil_iff {variants : List Variant} :
    defaultDefects variants = [] ↔ (variants.filter (·.isDefault)).length = 1 := by
  unfold defaultDefects
  split
  · rename_i h
    simp [h]
  · rename_i h
    simp [h]
  · rename_i hnil hone
    simp only [List.cons_ne_self, false_iff]
    intro hlength
    obtain ⟨variant, hvariant⟩ := List.length_eq_one_iff.1 hlength
    exact hone variant hvariant

theorem restDefects_eq_nil_iff {rig : Rig} :
    restDefects rig = [] ↔
      ∀ bone ∈ rig.bones, ∃ pose, rig.restPose.get? bone.id = some pose := by
  simp [restDefects, Option.ne_none_iff_exists']

theorem modelDefects_eq_nil_iff {rig : Rig} {variant : Variant} :
    modelDefects rig variant = [] ↔ (variant.isDefault = false →
      ∀ bone ∈ rig.bones, variant.Affects bone →
        ∃ model, rig.model? variant.name bone = some model) := by
  simp only [modelDefects, List.map_eq_nil_iff, List.filter_eq_nil_iff, decide_eq_true_eq,
    not_and, ← ne_eq, Option.ne_none_iff_exists']
  exact ⟨fun h hdefault bone hbone haffects => h bone hbone haffects hdefault,
    fun h bone hbone haffects hdefault => h hdefault bone hbone haffects⟩

theorem referenceDefects_eq_nil_iff {project : Project} {name : String} {frame : Frame}
    {position : Nat} :
    referenceDefects project name (frame, position) = [] ↔
      (∀ id ∈ frame.poses.keys, ∃ bone ∈ project.rig.bones, bone.id = id) ∧
      ∀ switch ∈ frame.switch, ∃ variant ∈ project.variants, variant.name = switch.variant := by
  simp [referenceDefects]

theorem numberDefects_eq_nil_iff {animation : Animation} :
    numberDefects animation = [] ↔ ∀ (position : Nat) (frame : Frame),
      animation.frames[position]? = some frame → frame.index.toNat = position := by
  simp only [numberDefects, List.map_eq_nil_iff, List.filter_eq_nil_iff, Prod.forall,
    List.mk_mem_zipIdx_iff_getElem?, decide_eq_true_eq, not_not, ne_eq]
  exact ⟨fun h position frame => h frame position, fun h frame position => h position frame⟩

theorem frameDefects_eq_nil_iff {project : Project} {animation : Animation} :
    frameDefects project animation = [] ↔
      animation.frames.length = animation.duration.toNat ∧
      (∀ (position : Nat) (frame : Frame), animation.frames[position]? = some frame →
        frame.index.toNat = position) ∧
      ∀ frame ∈ animation.frames,
        (∀ id ∈ frame.poses.keys, ∃ bone ∈ project.rig.bones, bone.id = id) ∧
        ∀ switch ∈ frame.switch, ∃ variant ∈ project.variants,
          variant.name = switch.variant := by
  simp only [frameDefects, List.append_eq_nil_iff, require_eq_nil, numberDefects_eq_nil_iff,
    List.flatMap_eq_nil_iff, Prod.forall, referenceDefects_eq_nil_iff, and_assoc]
  refine and_congr_right fun _ => and_congr_right fun _ => ⟨fun h frame hframe => ?_, ?_⟩
  · obtain ⟨position, hposition⟩ := List.getElem?_of_mem hframe
    exact h frame position (List.mk_mem_zipIdx_iff_getElem?.2 hposition)
  · intro h frame position hframe
    exact h frame (List.mem_of_getElem? (List.mk_mem_zipIdx_iff_getElem?.1 hframe))

theorem valid_iff {settings : Settings} {project : Project} :
    Valid settings project ↔ faults settings project = [] := by
  simp only [faults, namingDefects, fittingDefects, List.append_eq_nil_iff, List.map_eq_nil_iff,
    configFaults_eq_nil_iff, nameDefects_eq_nil_iff, repeated_eq_nil_iff,
    defaultDefects_eq_nil_iff, restDefects_eq_nil_iff, List.flatMap_eq_nil_iff,
    modelDefects_eq_nil_iff, frameDefects_eq_nil_iff, List.forall_mem_map, and_assoc]
  constructor
  · intro h
    exact ⟨h.folder, h.space, h.item, h.interpolation, h.durations, h.animation_names,
      h.variant_names, h.bone_names, h.animations_nodup, h.variants_nodup, h.one_default, h.rest,
      h.models, fun animation hanimation => ⟨h.frame_counts animation hanimation,
        h.frame_numbers animation hanimation, fun frame hframe =>
          ⟨h.poses animation hanimation frame hframe,
            h.switches animation hanimation frame hframe⟩⟩⟩
  · rintro ⟨folder, space, item, interpolation, durations, animation_names, variant_names,
      bone_names, animations_nodup, variants_nodup, one_default, rest, models, frames⟩
    exact ⟨folder, space, item, interpolation, durations, animation_names, variant_names,
      bone_names, animations_nodup, variants_nodup, one_default, rest, models,
      fun animation hanimation => (frames animation hanimation).1,
      fun animation hanimation => (frames animation hanimation).2.1,
      fun animation hanimation frame hframe => ((frames animation hanimation).2.2 frame hframe).1,
      fun animation hanimation frame hframe => ((frames animation hanimation).2.2 frame hframe).2⟩

/-- A pack is built exactly for valid settings and projects; of all that is wrong with
others, the first fault is reported. -/
theorem build_reports_first_fault (settings : Settings) (project : Project) :
    ((∃ pack, build settings project = .ok pack) ↔ Valid settings project) ∧
    ∀ fault, build settings project = .error fault ↔
      (faults settings project).head? = some fault := by
  have h := reports_build settings project
  exact ⟨h.exists_ok_iff.trans valid_iff.symm, h.eq_error_iff⟩

end Export

end RigPack

import RigPack.Proofs.Export.Accepted
import RigPack.Proofs.Game.Resources
import RigPack.Proofs.RangeTree.Balanced

/-!
# Blueprints that an export makes

The blueprint of an accepted project has plain and different names, its timelines
partition their ranges, and its frames switch to looks that there are (`Sound`).
That is all that later proofs need to know of where a blueprint comes from.
-/

namespace RigPack

/-! ## Names that an export accepts -/

theorem isPlain_of_isResourceName {name : String} (h : isResourceName name = true) :
    IsPlain name := by
  simp only [isResourceName, Bool.and_eq_true, Bool.not_eq_true', List.all_eq_true] at h
  obtain ⟨⟨⟨hempty, hchars⟩, -⟩, -⟩ := h
  refine ⟨⟨?_, fun hslash => ?_⟩, fun hcolon => ?_⟩
  · rintro rfl
    simp at hempty
  · exact absurd (hchars '/' hslash) (by decide)
  · exact absurd (hchars ':' hcolon) (by decide)

/-- A leaf of a tree, somewhere below its root. -/
inductive RangeTree.HasLeaf {α : Type} (index : Nat) (item : α) : RangeTree α → Prop
  | root : HasLeaf index item (.leaf index item)
  | child {min max : Nat} {children : List (RangeTree α)} {child : RangeTree α}
    (hchild : child ∈ children) (h : HasLeaf index item child) :
    HasLeaf index item (.branch min max children)

/-- Every new item is made of an item that was there. -/
theorem RangeTree.hasLeaf_of_traverse {α β ε : Type} {f : Nat → α → Except ε β}
    {node : RangeTree α} {node' : RangeTree β} (h : node.traverse f = .ok node') {index : Nat}
    {item' : β} (hleaf : node'.HasLeaf index item') :
    ∃ item, node.HasLeaf index item ∧ f index item = .ok item' := by
  induction node using RangeTree.induction_children generalizing node' with
  | leaf number item =>
      obtain ⟨made, hmade, rfl⟩ := traverse_leaf_eq_ok.1 h
      cases hleaf
      exact ⟨item, .root, hmade⟩
  | branch min max children ih =>
      obtain ⟨children', hchildren, rfl⟩ := traverse_branch_eq_ok.1 h
      cases hleaf with
      | child hchild' hleaf =>
          obtain ⟨child, hchild, hok⟩ :=
            exists_left_of_forall₂ (traverseAll_eq_ok.1 hchildren) hchild'
          obtain ⟨item, hitem, hmade⟩ := ih child hchild hok hleaf
          exact ⟨item, .child hchild hitem, hmade⟩

namespace Blueprint

/-- What the names and timelines of a blueprint must be like, so that its files stay
apart and refer to each other. -/
structure Sound (blueprint : Blueprint) : Prop where
  space : IsPlain blueprint.names.space
  looks : ∀ look ∈ blueprint.looks, IsPlain look.name
  looks_nodup : (blueprint.looks.map (·.name)).Nodup
  motions : ∀ motion ∈ blueprint.motions, IsPlain motion.name
  motions_nodup : (blueprint.motions.map (·.name)).Nodup
  partition : ∀ motion ∈ blueprint.motions, motion.timeline.IsPartition
  /-- A frame switches to a look that there is. -/
  switches : ∀ motion ∈ blueprint.motions, ∀ index frame, motion.timeline.HasLeaf index frame →
    ∀ switch ∈ frame.switch, ∃ look ∈ blueprint.looks, look.name = switch.variant

/-- An animation whose frames are numbered as they should be has a frame for each tick. -/
theorem length_of_checkFrames {animation : Animation} (h : animation.checkFrames = .ok ()) :
    animation.frames.length = animation.duration.toNat := by
  unfold Animation.checkFrames at h
  split at h
  · contradiction
  · rename_i hlength
    exact not_not.1 hlength

/-- The timeline of an animation is made of the balanced tree over its frames. -/
theorem ofAnimation_eq_ok {rig : Rig} {variants : VariantSet} {animation : Animation}
    {motion : Motion} (h : Motion.ofAnimation rig variants animation = .ok motion) :
    ∃ frames, RangeTree.ofTimeline animation.frames = .ok frames ∧
      Timeline.ofFrames rig variants animation.name frames = .ok motion.timeline ∧
      animation.frames.length = animation.duration.toNat ∧
      motion = ⟨animation.name, animation.duration.toNat, animation.loopMode, motion.timeline⟩ := by
  simp only [Motion.ofAnimation, Timeline.ofAnimation, bind_eq_ok, pure_eq_ok] at h
  obtain ⟨timeline, ⟨_, hcheck, frames, hframes, htimeline⟩, rfl⟩ := h
  exact ⟨frames, hframes, htimeline, length_of_checkFrames hcheck, rfl⟩

theorem name_ofVariant {rig : Rig} {variant : Variant} {look : Look}
    (h : Look.ofVariant rig variant = .ok look) : look.name = variant.name := by
  simp only [Look.ofVariant, bind_eq_ok, pure_eq_ok] at h
  obtain ⟨models, -, rfl⟩ := h
  rfl

theorem variants_ofList {variants : List Variant} {set : VariantSet}
    (h : VariantSet.ofList variants = .ok set) : set.variants = variants := by
  unfold VariantSet.ofList at h
  split at h
  · contradiction
  · split at h
    · contradiction
    · rw [← Except.ok.inj h]
    · contradiction

/-- A frame that is accepted switches to a variant that there is. -/
theorem exists_variant_of_ofFrame {rig : Rig} {variants : VariantSet} {animation : String}
    {index : Nat} {frame : Frame} {keyframe : Keyframe}
    (h : Keyframe.ofFrame rig variants animation index frame = .ok keyframe) :
    ∀ switch ∈ keyframe.switch, ∃ variant ∈ variants.variants, variant.name = switch.variant := by
  unfold Keyframe.ofFrame at h
  split at h
  · contradiction
  split at h
  · contradiction
  rename_i hvariant
  obtain rfl := Except.ok.inj h
  intro switch hswitch
  change frame.switch = some switch at hswitch
  rw [Frame.unknownVariant?, hswitch] at hvariant
  cases hfound : variants.get? switch.variant with
  | none => simp [hfound] at hvariant
  | some variant =>
      have hname := List.find?_some hfound
      exact ⟨variant, List.mem_of_find?_eq_some hfound, by simpa using hname⟩

/-- The animations of a blueprint have the names that they have in the project. -/
theorem names_motions {project : Project} {blueprint : Blueprint}
    (h : ofProject project = .ok blueprint) :
    blueprint.motions.map (·.name) = project.animations.map (·.name) := by
  obtain ⟨_, -, -, -, hmotions⟩ := Export.ofProject_eq_ok h
  refine map_eq_map_of_forall₂ hmotions fun hok => ?_
  obtain ⟨-, -, -, -, hmotion⟩ := ofAnimation_eq_ok hok
  rw [hmotion]

/-- So have its looks the names of the variants. -/
theorem names_looks {project : Project} {blueprint : Blueprint}
    (h : ofProject project = .ok blueprint) :
    blueprint.looks.map (·.name) = project.variants.map (·.name) := by
  obtain ⟨set, hset, -, hlooks, -⟩ := Export.ofProject_eq_ok h
  rw [variants_ofList hset] at hlooks
  exact map_eq_map_of_forall₂ hlooks fun hok => (name_ofVariant hok).symm

/-- The blueprint of an accepted project is sound. -/
theorem sound_of_build {settings : Settings} {project : Project} {blueprint : Blueprint}
    (haccepted : Export.Accepted settings project) (h : ofProject project = .ok blueprint) :
    blueprint.Sound := by
  obtain ⟨set, hset, hnames, hlooks, hmotions⟩ := Export.ofProject_eq_ok h
  rw [variants_ofList hset] at hlooks
  have hlook {look : Look} (hlook : look ∈ blueprint.looks) :
      ∃ variant ∈ project.variants, look.name = variant.name := by
    obtain ⟨variant, hvariant, hok⟩ := exists_left_of_forall₂ hlooks hlook
    exact ⟨variant, hvariant, name_ofVariant hok⟩
  refine ⟨?_, ?_, ?_, ?_, ?_, ?_, ?_⟩
  · rw [hnames]
    exact isPlain_of_isResourceName haccepted.space
  · intro look hmem
    obtain ⟨variant, hvariant, hname⟩ := hlook hmem
    rw [hname]
    exact isPlain_of_isResourceName (haccepted.variants variant hvariant)
  · rw [names_looks h, ← variants_ofList hset]
    exact set.names_nodup
  · intro motion hmem
    obtain ⟨animation, hanimation, hok⟩ := exists_left_of_forall₂ hmotions hmem
    obtain ⟨-, -, -, -, hmotion⟩ := ofAnimation_eq_ok hok
    rw [hmotion]
    exact isPlain_of_isResourceName (haccepted.animations animation hanimation)
  · rw [names_motions h]
    exact haccepted.animations_nodup
  · intro motion hmem
    obtain ⟨animation, -, hok⟩ := exists_left_of_forall₂ hmotions hmem
    obtain ⟨frames, hframes, htimeline, -, -⟩ := ofAnimation_eq_ok hok
    obtain ⟨hne, rfl⟩ := RangeTree.ofTimeline_eq_ok hframes
    exact RangeTree.isPartition_of_traverse (RangeTree.isPartition_balanced 0 _ hne) htimeline
  · intro motion hmem index frame hleaf switch hswitch
    obtain ⟨animation, -, hok⟩ := exists_left_of_forall₂ hmotions hmem
    obtain ⟨frames, -, htimeline, -, -⟩ := ofAnimation_eq_ok hok
    obtain ⟨_, -, hframe⟩ := RangeTree.hasLeaf_of_traverse htimeline hleaf
    obtain ⟨variant, hvariant, hname⟩ := exists_variant_of_ofFrame hframe switch hswitch
    rw [variants_ofList hset] at hvariant
    obtain ⟨look, hmem, hok⟩ := exists_right_of_forall₂ hlooks hvariant
    exact ⟨look, hmem, (name_ofVariant hok).trans hname⟩

end Blueprint

end RigPack

import RigPack.Timeline.Keyframe
import RigPack.Naming

/-!
# Blueprints

A blueprint is a project whose references are all looked up: every bone has its transform at rest,
every variant lists the models of the bones it affects, every animation has its timeline.  The ids
by which a document ties its parts together are gone.  Whether a blueprint exists is decided before
anything of a pack is made, and a pack can be laid out for every blueprint.
-/

namespace RigPack

/-- The transform of a bone at rest, which every bone must have. -/
def Rig.rest (rig : Rig) (bone : Bone) : Except Defect Transform :=
  match rig.rest? bone with
  | some transform => .ok transform
  | none => .error (.missingRestPose bone.name)

/-- The model of a bone in a variant; in the default one it is the bone's own. -/
def Rig.modelIn (rig : Rig) (variant : Variant) (bone : Bone) : Except Defect Int32 :=
  if variant.isDefault then .ok bone.model
  else
    match rig.model? variant.name bone with
    | some model => .ok model
    | none => .error (.missingVariantModel variant.name bone.name)

namespace Blueprint

/-- A bone as it is summoned. -/
structure Part where
  name : String
  model : Int32
  rest : Transform

/-- A variant, with the models of the bones it affects, by name. -/
structure Look where
  name : String
  isDefault : Bool
  models : List (String × Int32)

/-- An animation with its timeline. -/
structure Motion where
  name : String
  duration : Nat
  loopMode : LoopMode
  timeline : Timeline

/-- A bone with its transform at rest. -/
def Part.ofBone (rig : Rig) (bone : Bone) : Except Defect Part := do
  let rest ← rig.rest bone
  return ⟨bone.name, bone.model, rest⟩

/-- A variant with the models of the bones it affects, in the order of the rig. -/
def Look.ofVariant (rig : Rig) (variant : Variant) : Except Defect Look := do
  let models ← (rig.bones.filter fun bone => variant.affects bone.id).mapM fun bone => do
    let model ← rig.modelIn variant bone
    return (bone.name, model)
  return ⟨variant.name, variant.isDefault, models⟩

/-- An animation with its timeline. -/
def Motion.ofAnimation (rig : Rig) (variants : VariantSet) (animation : Animation) :
    Except Defect Motion := do
  let timeline ← Timeline.ofAnimation rig variants animation
  return ⟨animation.name, animation.duration.toNat, animation.loopMode, timeline⟩

end Blueprint

/-- All that the files of a pack are made of. -/
structure Blueprint where
  names : Naming
  item : String
  parts : List Blueprint.Part
  looks : List Blueprint.Look
  /-- The position of the look that a rig is summoned in. -/
  defaultLook : Nat
  motions : List Blueprint.Motion

/--
The blueprint of a project.  Defects are looked for among the variants, then the transforms at rest,
the models and the animations, each in the order of the project.
-/
def Blueprint.ofProject (project : Project) : Except Defect Blueprint := do
  let variants ← VariantSet.ofList project.variants
  let parts ← project.rig.bones.mapM (Part.ofBone project.rig)
  let looks ← variants.variants.mapM (Look.ofVariant project.rig)
  let motions ← project.animations.mapM (Motion.ofAnimation project.rig variants)
  return ⟨⟨project.space⟩, project.item, parts, looks, variants.defaultPosition, motions⟩

end RigPack

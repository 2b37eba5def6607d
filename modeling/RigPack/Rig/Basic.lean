import RigPack.Binary.Format
import RigPack.Table

/-!
# Rigs

A rig is a list of bones.  Each bone of an exported rig becomes one display entity that rides the
entity at the root, shows a model and stands in a pose.  Documents refer to bones by an id of
their own, which no output shows; what players see is the bone's name.
-/

namespace RigPack

/-- An affine transform as a four by four matrix, row by row. -/
structure Transform where
  entries : Vector Binary.Single 16
  deriving DecidableEq

namespace Transform

instance : Inhabited Transform := ⟨⟨Vector.replicate 16 (.ofInt 0)⟩⟩

/-- The entries, row by row. -/
def toList (t : Transform) : List Binary.Single :=
  t.entries.toList

end Transform

/-- A bone of a rig. -/
structure Bone where
  id : String
  name : String
  /-- The number by which the resource pack knows the bone's model. -/
  model : Int32
  deriving DecidableEq, Inhabited

/-- The bones of a project, how they stand at rest, and what they show in each variant. -/
structure Rig where
  /-- The bones in the order in which they are exported. -/
  bones : List Bone
  /-- The transform at rest, by bone id. -/
  restPose : Table Transform
  /-- The models of the variants other than the default one, by variant name and bone id. -/
  models : Table (Table Int32)
  deriving Inhabited

namespace Rig

/-- The first bone of an id. -/
def bone? (rig : Rig) (id : String) : Option Bone :=
  rig.bones.find? (·.id = id)

/-- The transform of a bone at rest. -/
def rest? (rig : Rig) (bone : Bone) : Option Transform :=
  rig.restPose.get? bone.id

/-- The model that a variant other than the default one gives a bone. -/
def model? (rig : Rig) (variant : String) (bone : Bone) : Option Int32 := do
  let models ← rig.models.get? variant
  models.get? bone.id

end Rig

end RigPack

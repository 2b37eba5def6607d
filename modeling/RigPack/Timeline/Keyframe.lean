import RigPack.Project.Basic
import RigPack.RangeTree.Balanced

/-!
# Keyframes

A frame of a document refers to bones by id and to variants by a name that need not exist.  A
`Keyframe` is a frame whose references were looked up: it names bones as the game sees them, in the
order of the rig.  A `Timeline` is a range tree of keyframes.
-/

namespace RigPack

/-- A frame with its references looked up. -/
structure Keyframe where
  /-- The bones that the frame moves, by name, in the order of the rig. -/
  poses : List (String × Transform)
  commands : Option FrameCommands
  switch : Option VariantSwitch
  deriving Inhabited

/-- The keyframes of an animation, found by frame number. -/
abbrev Timeline := RangeTree Keyframe

/-- The least id of a frame that no bone of the rig has. -/
def Frame.unknownBone? (frame : Frame) (rig : Rig) : Option String :=
  frame.poses.keys.find? fun id => (rig.bone? id).isNone

/-- The variant of a frame's switch if the project lacks it. -/
def Frame.unknownVariant? (frame : Frame) (variants : VariantSet) : Option String :=
  match frame.switch with
  | none => none
  | some switch => if (variants.get? switch.variant).isNone then some switch.variant else none

/-- The bones that a frame moves, by name, in the order of the rig. -/
def Frame.posesIn (frame : Frame) (rig : Rig) : List (String × Transform) :=
  rig.bones.filterMap fun bone => (frame.poses.get? bone.id).map fun t => (bone.name, t)

/--
The keyframe of a frame.  A missing bone is reported before a missing variant, under the number at
which the frame is found.
-/
def Keyframe.ofFrame (rig : Rig) (variants : VariantSet) (animation : String) (index : Nat)
    (frame : Frame) : Except Defect Keyframe :=
  match frame.unknownBone? rig with
  | some bone => .error (.unknownBone animation index bone)
  | none =>
    match frame.unknownVariant? variants with
    | some variant => .error (.unknownVariant animation index variant)
    | none => .ok ⟨frame.posesIn rig, frame.commands, frame.switch⟩

/-- The timeline of a tree of frames; of several defects that of the leftmost leaf counts. -/
def Timeline.ofFrames (rig : Rig) (variants : VariantSet) (animation : String)
    (frames : RangeTree Frame) : Except Defect Timeline :=
  frames.traverse (Keyframe.ofFrame rig variants animation)

/-- The timeline of an animation. -/
def Timeline.ofAnimation (rig : Rig) (variants : VariantSet) (animation : Animation) :
    Except Defect Timeline := do
  animation.checkFrames
  let frames ← RangeTree.ofTimeline animation.frames
  Timeline.ofFrames rig variants animation.name frames

end RigPack

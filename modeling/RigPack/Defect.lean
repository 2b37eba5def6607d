/-!
# Defects of a project

A project is defective if its parts do not fit together: a name that no resource can have, a
reference to something that is not there, frames that do not follow each other.  A `Defect` says
which part it is and carries the names that its message shows.
-/

namespace RigPack

/-- The parts of a project that carry a name of their own. -/
inductive NamedPart
  | animation
  | variant
  | bone
  deriving DecidableEq

/-- The word for a part in messages. -/
def NamedPart.word : NamedPart → String
  | .animation => "animation"
  | .variant => "variant"
  | .bone => "bone"

/-- Why a project cannot be exported. -/
inductive Defect
  /-- A timeline without frames. -/
  | emptyTimeline
  /-- A timeline with more frames than a frame number can tell apart. -/
  | timelineTooLong (frames : Nat)
  /-- A name that cannot stand in a resource path. -/
  | invalidName (part : NamedPart) (name : String)
  /-- A frame that switches to a variant which the project lacks. -/
  | unknownVariant (animation : String) (frame : Nat) (variant : String)
  /-- A frame that moves a bone which the rig lacks. -/
  | unknownBone (animation : String) (frame : Nat) (bone : String)
  | missingDefaultVariant
  | multipleDefaultVariants (names : List String)
  | duplicateAnimation (name : String)
  | duplicateVariant (name : String)
  /-- An animation whose number of frames is not its duration. -/
  | frameCountMismatch (animation : String) (frames duration : Nat)
  /-- An animation whose frames are not numbered from zero on. -/
  | frameIndexMismatch (animation : String) (position index : Nat)
  /-- A bone without a transform at rest. -/
  | missingRestPose (bone : String)
  /-- A bone that a variant affects without giving it a model. -/
  | missingVariantModel (variant bone : String)
  deriving DecidableEq

/-- The description of a defect. -/
def Defect.message : Defect → String
  | .emptyTimeline => "cannot build a frame tree over an empty timeline"
  | .timelineTooLong frames =>
    "timeline of " ++ toString frames ++ " frames exceeds the addressable frame range"
  | .invalidName part name =>
    "invalid " ++ part.word ++ " name '" ++ name ++ "': only [a-z0-9_.-] are allowed"
  | .unknownVariant animation frame variant =>
    "frame " ++ toString frame ++ " of animation '" ++ animation
      ++ "' references unknown variant '" ++ variant ++ "'"
  | .unknownBone animation frame bone =>
    "frame " ++ toString frame ++ " of animation '" ++ animation
      ++ "' references unknown bone '" ++ bone ++ "'"
  | .missingDefaultVariant => "no default variant defined"
  | .multipleDefaultVariants names =>
    "multiple default variants defined: " ++ ", ".intercalate names
  | .duplicateAnimation name => "duplicate animation name: " ++ name
  | .duplicateVariant name => "duplicate variant name: " ++ name
  | .frameCountMismatch animation frames duration =>
    "animation '" ++ animation ++ "' has " ++ toString frames ++ " frames but a duration of "
      ++ toString duration
  | .frameIndexMismatch animation position index =>
    "animation '" ++ animation ++ "': frame at position " ++ toString position
      ++ " carries index " ++ toString index
  | .missingRestPose bone => "no default pose for bone '" ++ bone ++ "'"
  | .missingVariantModel variant bone =>
    "variant '" ++ variant ++ "' has no model for bone '" ++ bone ++ "'"

end RigPack

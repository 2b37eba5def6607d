import RigPack.Animation.Basic
import RigPack.Variant

/-!
# Projects

A project is all that an export starts from: the names it goes by, a rig, its variants and its
animations.
-/

namespace RigPack

/-- An animated rig, ready to be exported. -/
structure Project where
  /-- The namespace of the data pack. -/
  space : String
  /-- The item that every bone displays. -/
  item : String
  rig : Rig
  variants : List Variant
  animations : List Animation
  deriving Inhabited

end RigPack

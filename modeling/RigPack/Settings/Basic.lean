import RigPack.Path

/-!
# Settings

What an export is told besides the project.  Settings come in layers; a layer may leave a setting
open, and a later layer wins where it says something.
-/

namespace RigPack

/-- The settings of an export. -/
structure Settings where
  /-- The folder that packs are written into; empty if none is configured. -/
  folder : String
  /-- The ticks that a display takes from one frame to the next. -/
  interpolation : UInt32
  /-- The version of the pack format. -/
  packFormat : UInt32
  deriving DecidableEq

namespace Settings

/-- What holds if nothing is configured. -/
def initial : Settings where
  folder := ""
  interpolation := 1
  packFormat := 12

/-- The settings that one layer gives. -/
structure Layer where
  folder : Option String
  interpolation : Option UInt32
  packFormat : Option UInt32
  deriving DecidableEq, Inhabited

/-- The settings with those that a later layer gives. -/
def overlay (settings : Settings) (layer : Layer) : Settings where
  folder := layer.folder.getD settings.folder
  interpolation := layer.interpolation.getD settings.interpolation
  packFormat := layer.packFormat.getD settings.packFormat

end Settings

end RigPack

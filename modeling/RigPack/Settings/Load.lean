import RigPack.Path
import RigPack.Settings.Conventions
import RigPack.Settings.File
import RigPack.Store.Basic

/-!
# Loading settings

Settings are the initial ones, under those of the user's own file, under those of the project's
file, under those of the environment, under those of the command line.
-/

namespace RigPack

variable [Library]

/-! ## The environment -/

namespace Environment

/-- A path with references in it written out; one with a reference that leads nowhere stays. -/
def expand (env : Environment) (path : String) : String :=
  (Library.writtenOut? env path).getD path

/-- The number that variables give for a setting, if they give one. -/
def number? (assigned : String → Option String) (key variableName : String) :
    Except ConfigFault (Option UInt32) :=
  (assigned key).mapM (number variableName)

/-- The settings that the environment gives. -/
def layer (env : Environment) : Except ConfigFault Settings.Layer := do
  let assigned ← (Library.assigned env).mapError .unusableVariables
  let interpolation ← number? assigned "exporter.interpolation_duration"
    "ANIMPACK_EXPORTER__INTERPOLATION_DURATION"
  let packFormat ← number? assigned "exporter.pack_format" "ANIMPACK_EXPORTER__PACK_FORMAT"
  return ⟨assigned "exporter.datapack_folder", interpolation, packFormat⟩

end Environment

/-! ## All layers -/

namespace Settings

/-- The user's own file of settings. -/
def globalFile? (env : Environment) : Option String :=
  (Library.ownFolder? env).map fun folder => Path.join folder "animpack.toml"

/-- The file of settings in a project's folder. -/
def localFile (projectFolder : String) : String :=
  Path.join projectFolder ".animpack.toml"

/-- The settings with a folder that is written with references, if there is one, written out. -/
def expandFolder (settings : Settings) (env : Environment) : Settings :=
  if settings.folder.isEmpty then settings
  else { settings with folder := env.expand settings.folder }

/-- The settings with what the command line says; other folders are seen from the project's. -/
def override (settings : Settings) (projectFolder : String) (folder : Option String)
    (interpolation : Option UInt32) : Settings where
  folder :=
    match folder with
    | some folder => folder
    | none =>
      if settings.folder.isEmpty then settings.folder
      else Path.join projectFolder settings.folder
  interpolation := interpolation.getD settings.interpolation
  packFormat := settings.packFormat

variable {m : Type → Type} [Monad m] [FileStore m]

/-- The layer of a file that is there. -/
def readLayer (path : String) : ExceptT ConfigFault m Layer := do
  let file ← (FileStore.readText path).adapt fun cause => .unreadable path cause
  match Layer.ofFile? file with
  | some layer => return layer
  | none => throw (.unparsable path)

/-- The layer of a file; one that is not there leaves all open. -/
def readLayerIfPresent (path : String) : ExceptT ConfigFault m Layer := do
  if ← ExceptT.lift (FileStore.isPresent path) then readLayer path else return default

/-- The settings without those of the command line. -/
def load (env : Environment) (projectFolder : Option String) : ExceptT ConfigFault m Settings := do
  let globalLayer ← (globalFile? env).elim (pure default) readLayerIfPresent
  let localLayer ← (projectFolder.map localFile).elim (pure default) readLayerIfPresent
  let envLayer ← ExceptT.mk (pure env.layer)
  let settings := ((initial.overlay globalLayer).overlay localLayer).overlay envLayer
  return settings.expandFolder env

end Settings

end RigPack

import RigPack.Export.Fault
import RigPack.Pack.Layout
import RigPack.Json.Parser

/-!
# Exports

An export checks the project, puts its pack together in memory, removes what an earlier export of
the same namespace left, and writes the pack.  Nothing is touched until the pack is complete, and
nothing is removed unless the metadata in the folder says that the pack there is the project's own.
-/

namespace RigPack

/-- The characters of a name that stands in resource paths. -/
def isNameChar (c : Char) : Bool :=
  c.isLower || c.isDigit || c = '_' || c = '.' || c = '-'

/-- Whether a name can be a segment of a resource path. -/
def isResourceName (name : String) : Bool :=
  !name.isEmpty && name.toList.all isNameChar && name ≠ "." && name ≠ ".."

namespace Export

/-- What an export reports. -/
structure Report where
  /-- The folder of the pack. -/
  path : String
  /-- The number of animations. -/
  animations : Nat
  /-- The number of files and folders written. -/
  written : Nat
  deriving DecidableEq

/-! ## Checks -/

/-- The first of some names that cannot stand in a resource path. -/
def checkNames (part : NamedPart) (names : List String) : Except ExportFault Unit :=
  match names.find? (!isResourceName ·) with
  | some name => .error (.defect (.invalidName part name))
  | none => .ok ()

/-- Checks the settings and all that can be seen without looking anything up. -/
def check (settings : Settings) (project : Project) : Except ExportFault Unit := do
  if settings.folder.isEmpty then throw (.config .noFolder)
  if !isResourceName project.space then throw (.config (.invalidNamespace project.space))
  if (Text.trim project.item).isEmpty then throw (.config .noItem)
  if Int32.maxValue.toInt < settings.interpolation.toNat then
    throw (.config (.interpolationTooLong settings.interpolation.toNat))
  match project.animations.find? (·.duration = 0) with
  | some animation => throw (.config (.emptyAnimation animation.name))
  | none => pure ()
  checkNames .animation (project.animations.map (·.name))
  checkNames .variant (project.variants.map (·.name))
  checkNames .bone (project.rig.bones.map (·.name))
  match firstRepeated? [] (project.animations.map (·.name)) with
  | some name => throw (.defect (.duplicateAnimation name))
  | none => pure ()

/-- The pack of a project. -/
def build (settings : Settings) (project : Project) : Except ExportFault Folder := do
  check settings project
  match Blueprint.ofProject project with
  | .ok blueprint => return blueprint.pack settings
  | .error defect => throw (.defect defect)

/-! ## The folder of a pack -/

/-- The namespace that the metadata of a pack records; empty if it records none. -/
def recordedSpace (metadata : String) : Except Json.Fault String := do
  let value ← Json.parse metadata
  return ((value.field? "project_namespace").bind Json.string?).getD ""

variable {m : Type → Type} [Monad m] [FileStore m]

/-- A call of the file store as a step of the export. -/
def step {α : Type} (action path : String) (call : ExceptT IoError m α) :
    ExceptT ExportFault m α :=
  call.adapt fun e => .failed action path (.io e)

/-- Removes the earlier export of a namespace at `path`, if there is one. -/
def clear (path space : String) : ExceptT ExportFault m Unit := do
  let metadata := Path.join path metadataFile
  if ← ExceptT.lift (FileStore.isPresent metadata) then
    let content ← step "read export metadata" metadata (FileStore.readText metadata)
    match recordedSpace content with
    | .error fault => throw (.failed "parse export metadata" metadata (.json fault))
    | .ok found =>
      if found ≠ space then throw (.foreignPack path found space)
      step "remove previous export" path (FileStore.removeTree path)

/-- Exports a project; `onWritten` is told of each file and folder below the pack's own. -/
def run (settings : Settings) (project : Project) (onWritten : Nat → m Unit) :
    ExceptT ExportFault m Report := do
  let pack ← ExceptT.mk (pure (build settings project))
  let path := Path.join settings.folder pack.name
  clear path project.space
  let written ← step "write data pack" path (pack.write onWritten settings.folder)
  return ⟨path, project.animations.length, written⟩

end Export

end RigPack

import RigPack.CommandLine.Request
import RigPack.Export.Basic
import RigPack.Project.Load
import RigPack.RangeTree.Balanced
import RigPack.Settings.Load

/-!
# Running requests

A request is carried out on a file store.  What it prints is given as a whole, so a request that
fails prints nothing.
-/

namespace RigPack.CommandLine

/-- Where the program runs. -/
structure Surroundings where
  env : Environment
  /-- The folder in which it runs. -/
  here : Except IoError String

/-- What a request prints. -/
structure Printed where
  /-- The lines of the answer. -/
  lines : List String
  /-- Lines that are no part of the answer. -/
  warnings : List String

namespace Printed

/-- An answer without warnings. -/
def answer (lines : List String) : Printed :=
  ⟨lines, []⟩

/-- The line that names what was done. -/
def done (what : String) : String :=
  "✓ " ++ what

/-- The line that labels a value. -/
def labelled (label value : String) : String :=
  label ++ ": " ++ value

/-- The line of something less important. -/
def detail (what : String) : String :=
  "  " ++ what

/-- The text of the answer. -/
def text (printed : Printed) : String :=
  Text.unlines printed.lines

end Printed

variable [Library] {m : Type → Type} [Monad m] [FileStore m]

/-- The folder of the project. -/
def projectFolder (surroundings : Surroundings) (invocation : Invocation) :
    Except Failure String :=
  match invocation.projectFolder, surroundings.here with
  | some folder, _ => .ok folder
  | none, .ok folder => .ok folder
  | none, .error cause => .error (.nowhere cause)

/-- The settings without those of the command line. -/
def loadSettings (env : Environment) (folder : String) : ExceptT Failure m Settings :=
  (Settings.load env (some folder)).adapt fun fault => .export (.config fault)

/-- The settings of an export: those of all layers, under those of the command line. -/
def exportSettings (env : Environment) (folder : String) (output : Option String)
    (interpolation : Option UInt32) : ExceptT Failure m Settings := do
  let settings ← loadSettings env folder
  return settings.override folder output interpolation

/-- Exports the project of a document. -/
def exportProject (env : Environment) (folder project : String) (output : Option String)
    (interpolation : Option UInt32) : ExceptT Failure m Printed := do
  let settings ← exportSettings env folder output interpolation
  let project ← Project.load project
  let report ← (Export.run settings project fun _ => pure ()).adapt Failure.export
  return .answer [
    Printed.done ("exported " ++ toString report.animations ++ " animation(s) of '"
      ++ project.space ++ "'"),
    Printed.labelled "Data pack" report.path,
    Printed.detail (toString report.written ++ " entries written")]

/-- Shows the tree over a number of frames. -/
def showTree (frames : Nat) : Except Failure Printed :=
  match RangeTree.ofCount frames with
  | .error defect => .error (.export (.defect defect))
  | .ok tree => .ok (.answer [
      tree.outline,
      Printed.detail (toString tree.leafCount ++ " leaves, " ++ toString tree.branchCount
        ++ " branches, depth " ++ toString tree.depth)])

/-- A path, with a remark if nothing is there. -/
def describePath (path : String) : m String := do
  return if ← FileStore.isPresent path then path else path ++ " (not found)"

/-- Shows where the files of settings are. -/
def findSettings (env : Environment) (folder : String) : m Printed := do
  let ownFile ← (Settings.globalFile? env).mapM describePath
  let projectFile ← describePath (Settings.localFile folder)
  let ownLines := (ownFile.map (Printed.labelled "Global")).toList
  return {
    lines := ["Config files"] ++ ownLines ++ [Printed.labelled "Local" projectFile]
    warnings :=
      if ownFile.isNone then ["no home directory, global config unavailable"] else [] }

/-- Makes a file of settings in which all is left open; one that is there stays. -/
def startSettings (env : Environment) (folder : String) (isOwn : Bool) :
    ExceptT Failure m Printed := do
  let path ←
    if isOwn then
      match Settings.globalFile? env with
      | some path => pure path
      | none => throw .noHome
    else pure (Settings.localFile folder)
  if ← ExceptT.lift (FileStore.isPresent path) then throw (.settingsExist path)
  match Path.parent? path with
  | some parent => (FileStore.makeFolders parent).adapt fun cause => .io "create" parent cause
  | none => pure ()
  (FileStore.writeText path Settings.template).adapt fun cause => .io "write" path cause
  return .answer [Printed.done ("created " ++ path)]

/-- Carries out a command line. -/
def run (surroundings : Surroundings) (invocation : Invocation) : ExceptT Failure m Printed := do
  match invocation.request with
  | none => throw .noCommand
  | some request =>
    let folder ← ExceptT.mk (pure (projectFolder surroundings invocation))
    match request with
    | .export project output interpolation =>
      exportProject surroundings.env folder project output interpolation
    | .tree frames => ExceptT.mk (pure (showTree frames))
    | .showSettings =>
      let settings ← loadSettings surroundings.env folder
      let document ← ExceptT.mk (pure (settings.document.mapError fun fault =>
        .export (.config fault)))
      return .answer [document]
    | .startSettings isOwn => startSettings surroundings.env folder isOwn
    | .findSettings => ExceptT.lift (findSettings surroundings.env folder)
    | .completion _ => return .answer []

end RigPack.CommandLine

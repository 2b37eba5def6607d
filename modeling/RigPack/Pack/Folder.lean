import RigPack.Pack.Content
import RigPack.Path
import RigPack.Store.Basic

/-!
# Folders in memory

A pack is put together in memory and written at once.  A `Folder` keeps its files and its subfolders
in the order in which they came, and is written in that order, every folder before what lies in
it.
-/

namespace RigPack

/-- A file of a folder. -/
structure PackFile where
  name : String
  content : Content
  deriving Inhabited

/-- A folder with all that lies in it. -/
inductive Folder
  | mk (name : String) (files : List PackFile) (folders : List Folder)

namespace Folder

/-- A folder in which nothing lies. -/
def empty (name : String) : Folder :=
  mk name [] []

instance : Inhabited Folder := ⟨empty ""⟩

/-- The folder's own name. -/
def name : Folder → String
  | mk name _ _ => name

/-- The files that lie in the folder itself. -/
def files : Folder → List PackFile
  | mk _ files _ => files

/-- The folders that lie in the folder itself. -/
def folders : Folder → List Folder
  | mk _ _ folders => folders

/-! ## Changes -/

/-- A list of folders with one changed; it is made first if it is missing. -/
def changeIn (name : String) (change : Folder → Folder) : List Folder → List Folder
  | [] => [change (empty name)]
  | folder :: folders =>
    if folder.name = name then change folder :: folders
    else folder :: changeIn name change folders

/-- The folder with the one at `path` below it changed; missing folders are made. -/
def changeAt (path : List String) (change : Folder → Folder) : Folder → Folder :=
  match path with
  | [] => change
  | segment :: path => fun folder =>
    mk folder.name folder.files (changeIn segment (changeAt path change) folder.folders)

/-- The folder with all folders of a path below it. -/
def makeFolder (folder : Folder) (path : List String) : Folder :=
  folder.changeAt path id

/-- A list of files with one set; a file of that name keeps its place. -/
def setFile (name : String) (content : Content) : List PackFile → List PackFile
  | [] => [⟨name, content⟩]
  | file :: files =>
    if file.name = name then ⟨name, content⟩ :: files else file :: setFile name content files

/-- The folder with a file in the folder at `path` below it. -/
def putFile (folder : Folder) (path : List String) (name : String) (content : Content) : Folder :=
  folder.changeAt path fun target =>
    mk target.name (setFile name content target.files) target.folders

/-! ## Questions -/

/-- The folder at a path, if it is there. -/
def folder? : List String → Folder → Option Folder
  | [], folder => some folder
  | segment :: path, folder =>
    (folder.folders.find? (·.name = segment)).bind (folder? path)

/-- The file at a path of folders, if it is there. -/
def file? (folder : Folder) (path : List String) (name : String) : Option PackFile := do
  let target ← folder.folder? path
  target.files.find? (·.name = name)

/-- The file at the path that a text spells. -/
def fileAt? (folder : Folder) (path : String) : Option PackFile :=
  let (path, name) := Path.splitLast path
  folder.file? (Path.segments path) name

mutual

/-- The number of files and folders below the folder. -/
def entryCount : Folder → Nat
  | mk _ files folders => files.length + entryCounts folders

/-- The number of folders of a list, and of all that lies in them. -/
def entryCounts : List Folder → Nat
  | [] => 0
  | folder :: folders => 1 + folder.entryCount + entryCounts folders

end

/-! ## Writing -/

variable {m : Type → Type} [Monad m] [FileStore m]

/--
Writes the files of a folder at `path`.  As in all of these functions, `onWritten` is told of each
entry that is done, and the result counts them.
-/
def writeFiles (onWritten : Nat → m Unit) (path : String) :
    List PackFile → ExceptT IoError m Nat
  | [] => return 0
  | file :: files => do
    FileStore.writeText (Path.join path file.name) file.content.text
    ExceptT.lift (onWritten 1)
    let written ← writeFiles onWritten path files
    return 1 + written

mutual

/-- Writes a folder below `parent`: itself, which does not count, its files, then its folders. -/
def write (onWritten : Nat → m Unit) (parent : String) : Folder → ExceptT IoError m Nat
  | mk name files folders => do
    let path := Path.join parent name
    FileStore.makeFolders path
    let here ← writeFiles onWritten path files
    let below ← writeAll onWritten path folders
    return here + below

/-- Writes several folders below `parent`, each of which counts. -/
def writeAll (onWritten : Nat → m Unit) (parent : String) : List Folder → ExceptT IoError m Nat
  | [] => return 0
  | folder :: folders => do
    let below ← folder.write onWritten parent
    ExceptT.lift (onWritten 1)
    let others ← writeAll onWritten parent folders
    return below + 1 + others

end

end Folder

end RigPack

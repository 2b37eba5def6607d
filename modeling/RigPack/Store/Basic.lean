/-!
# File stores

What an export needs from the place it writes to: to ask for files, to read and write them, and to
make and remove folders.  Every call may fail.  The operations are a class over the monad they run
in, so the same program runs on the disk of a machine and on a store that is a plain value.
-/

namespace RigPack

/-- Why a call of a file store fails. -/
inductive IoError
  | notFound
  | alreadyExists
  | notAFolder
  | isAFolder
  /-- The content of a file is no text. -/
  | notText
  /-- A path that no file can have, or that names no entry of a folder. -/
  | invalidPath
  | nameTooLong
  | folderNotEmpty
  | other
  deriving DecidableEq

/-- The text of an error of the system. -/
def IoError.message : IoError → String
  | .notFound => "No such file or directory (os error 2)"
  | .alreadyExists => "File exists (os error 17)"
  | .notAFolder => "Not a directory (os error 20)"
  | .isAFolder => "Is a directory (os error 21)"
  | .notText => "stream did not contain valid UTF-8"
  | .invalidPath => "Invalid argument (os error 22)"
  | .nameTooLong => "File name too long (os error 36)"
  | .folderNotEmpty => "Directory not empty (os error 39)"
  | .other => "Input/output error (os error 5)"

/-- A place for files, reached from the monad `m`. -/
class FileStore (m : Type → Type) where
  /-- Whether there is a file or folder. -/
  isPresent : String → m Bool
  /-- The content of a file. -/
  readText : String → ExceptT IoError m String
  /-- Replaces the content of a file, which need not exist. -/
  writeText : String → String → ExceptT IoError m Unit
  /-- Makes a folder and those it lies in, as far as they are missing. -/
  makeFolders : String → ExceptT IoError m Unit
  /-- Removes a folder with all that lies in it. -/
  removeTree : String → ExceptT IoError m Unit

/-- A store is also reached with a state beside it. -/
instance {σ : Type} {m : Type → Type} [Monad m] [FileStore m] : FileStore (StateT σ m) where
  isPresent path := StateT.lift (FileStore.isPresent path)
  readText path := ExceptT.mk (StateT.lift (FileStore.readText path).run)
  writeText path content := ExceptT.mk (StateT.lift (FileStore.writeText path content).run)
  makeFolders path := ExceptT.mk (StateT.lift (FileStore.makeFolders path).run)
  removeTree path := ExceptT.mk (StateT.lift (FileStore.removeTree path).run)

end RigPack

import RigPack.Json.Reader
import RigPack.Project.Document
import RigPack.Failure

/-!
# Loading projects

A project is loaded from a file that holds its document.
-/

namespace RigPack

/-- The project of the document at `path`. -/
def Project.load {m : Type → Type} [Monad m] [FileStore m] (path : String) :
    ExceptT Failure m Project := do
  let document ← (FileStore.readText path).adapt fun cause => .io "read project" path cause
  match Project.parse document with
  | .ok project => return project
  | .error cause => throw (.projectFile path cause)

end RigPack

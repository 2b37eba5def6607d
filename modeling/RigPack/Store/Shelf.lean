import RigPack.Store.Basic
import RigPack.Table

/-!
# Shelves

A `Shelf` is a file store that is a plain value: a table of files, found by the text of their path,
and of the folders that were made.  It can be told to fail certain calls, which then have no effect,
and it remembers every call.
-/

namespace RigPack

/-- The kinds of calls that can fail. -/
inductive CallKind
  | read
  | write
  | makeFolders
  | removeTree
  deriving DecidableEq

/-- A call of a file store. -/
inductive Call
  | read (path : String)
  | write (path content : String)
  | makeFolders (path : String)
  | removeTree (path : String)
  deriving DecidableEq

/-- The kind of a call. -/
def Call.kind : Call → CallKind
  | .read _ => .read
  | .write .. => .write
  | .makeFolders _ => .makeFolders
  | .removeTree _ => .removeTree

/-- The path that a call is about. -/
def Call.path : Call → String
  | .read path => path
  | .write path _ => path
  | .makeFolders path => path
  | .removeTree path => path

/-- A file store that is a plain value. -/
structure Shelf where
  files : Table String
  folders : Table Unit
  /-- The calls that fail. -/
  faults : List (CallKind × String)
  /-- All calls so far, the failed ones too. -/
  trace : List Call
  deriving Inhabited

namespace Shelf

/-- A shelf without files. -/
def empty : Shelf where
  files := .empty
  folders := .empty
  faults := []
  trace := []

/-- Whether `path` is `folder` or lies below it. -/
def isWithin (folder path : String) : Bool :=
  path = folder || (folder ++ "/").toList.isPrefixOf path.toList

/-- Makes a call, which fails if the shelf was told so. -/
def attempt {α : Type} (call : Call) (effect : Shelf → Except IoError (α × Shelf)) :
    ExceptT IoError (StateM Shelf) α :=
  ExceptT.mk fun shelf =>
    let shelf := { shelf with trace := shelf.trace ++ [call] }
    if (call.kind, call.path) ∈ shelf.faults then (.error .other, shelf)
    else
      match effect shelf with
      | .error e => (.error e, shelf)
      | .ok (a, shelf) => (.ok a, shelf)

instance : FileStore (StateM Shelf) where
  isPresent path shelf :=
    ((shelf.files.get? path).isSome || (shelf.folders.get? path).isSome, shelf)
  readText path := attempt (.read path) fun shelf =>
    match shelf.files.get? path with
    | some content => .ok (content, shelf)
    | none => .error .notFound
  writeText path content := attempt (.write path content) fun shelf =>
    .ok ((), { shelf with files := shelf.files.insert path content })
  makeFolders path := attempt (.makeFolders path) fun shelf =>
    .ok ((), { shelf with folders := shelf.folders.insert path () })
  removeTree path := attempt (.removeTree path) fun shelf =>
    .ok ((), { shelf with
      files := shelf.files.filter (!isWithin path ·)
      folders := shelf.folders.filter (!isWithin path ·) })

end Shelf

end RigPack

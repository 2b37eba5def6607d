import RigPack.Store.Basic
import RigPack.Table
import RigPack.Path

/-!
# Disks

A `Disk` is a file store that is a plain value and follows a path segment by segment, as a system
does: a path through a missing folder leads nowhere, a path through a file fails, two dots lead one
folder up, and a path without a slash in front starts at the folder where the program runs.

## Strategy

A *place* is the list of the segments that lead to it from the root.  Its key in the tables is the
segments, each behind a null character, which no segment holds.  So the order of the keys is the
order of the places by segments.
-/

namespace RigPack

/-- The segments that lead from the root to a file or folder. -/
structure Place where
  segments : List String
  deriving DecidableEq, Inhabited

namespace Place

/-- The root itself. -/
def root : Place := ⟨[]⟩

/-- The place of an entry in the folder at a place. -/
def child (place : Place) (name : String) : Place :=
  ⟨place.segments ++ [name]⟩

/-- The place of the folder that an entry lies in; the root lies in itself. -/
def parent (place : Place) : Place :=
  ⟨place.segments.dropLast⟩

/-- Whether a place is that of a folder or lies below it. -/
def isWithin (folder place : Place) : Bool :=
  folder.segments.isPrefixOf place.segments

/-- The text under which a place is kept. -/
def key (place : Place) : String :=
  String.join (place.segments.map ("\x00" ++ ·))

/-- The place that is kept under a text. -/
def ofKey (key : String) : Place :=
  ⟨((Text.pieces '\x00' key.toList).drop 1).map String.ofList⟩

example : ofKey (child (child root "a") "b c").key = ⟨["a", "b c"]⟩ := by decide
example : ofKey root.key = root := by decide

end Place

/-- A file store that is a plain value and follows paths as a system does. -/
structure Disk where
  /-- The content of each file, by the key of its place. -/
  files : Table ByteArray
  /-- The folders other than the root, by the key of their place. -/
  folders : Table Unit
  /-- The folder where the program runs. -/
  here : Place
  deriving Inhabited

/-- What stands at a place. -/
inductive EntryKind
  | file
  | folder
  deriving DecidableEq

namespace Disk

/-- A disk with no more than the folder where the program runs and those that it lies in. -/
def startingAt (here : Place) : Disk where
  files := .empty
  folders := .ofList ((List.range here.segments.length).map fun n =>
    (Place.key ⟨here.segments.take (n + 1)⟩, ()))
  here

/-- What stands at a place. -/
def kindAt? (disk : Disk) (place : Place) : Option EntryKind :=
  if place = .root ∨ (disk.folders.get? place.key).isSome then some .folder
  else if (disk.files.get? place.key).isSome then some .file
  else none

/-! ## Following paths -/

/-- The most bytes of a segment. -/
def maxSegment : Nat := 255

/-- The most bytes of a path. -/
def maxPath : Nat := 4095

/-- The place that one segment leads to, which need not be there. -/
def step (disk : Disk) (place : Place) (segment : String) : Except IoError Place :=
  match disk.kindAt? place with
  | none => .error .notFound
  | some .file => .error .notAFolder
  | some .folder =>
    if segment = "." then .ok place
    else if segment = ".." then .ok place.parent
    else if maxSegment < segment.utf8ByteSize then .error .nameTooLong
    else .ok (place.child segment)

/-- The place that a path leads to, which need not be there. -/
def placeOf (disk : Disk) (path : String) : Except IoError Place :=
  if path.isEmpty then .error .notFound
  else if path.toList.contains '\x00' then .error .invalidPath
  else if maxPath < path.utf8ByteSize then .error .nameTooLong
  else
    let start := if Path.isAbsolute path then .root else disk.here
    (Path.segments path).foldlM disk.step start

/-- The place that a path leads to, and what stands there. -/
def find (disk : Disk) (path : String) : Except IoError (Place × EntryKind) := do
  let place ← disk.placeOf path
  match disk.kindAt? place with
  | none => throw .notFound
  | some .file => if Path.endsInSlash path then throw .notAFolder else return (place, .file)
  | some .folder => return (place, .folder)

/-- What a path leads to, if it leads anywhere. -/
def kind? (disk : Disk) (path : String) : Option EntryKind :=
  match disk.find path with
  | .ok (_, kind) => some kind
  | .error _ => none

/-- Whether a path ends in the name of an entry, not in dots and not at the root. -/
def namesEntry (path : String) : Bool :=
  match (Path.segments path).getLast? with
  | none => false
  | some segment => segment ≠ "." && segment ≠ ".."

/-! ## Files -/

/-- The content of a file. -/
def readBytes (disk : Disk) (path : String) : Except IoError ByteArray := do
  match ← disk.find path with
  | (_, .folder) => throw .isAFolder
  | (place, .file) =>
    match disk.files.get? place.key with
    | some bytes => return bytes
    | none => throw .notFound

/-- The content of a file as text. -/
def readText (disk : Disk) (path : String) : Except IoError String := do
  match String.fromUTF8? (← disk.readBytes path) with
  | some s => return s
  | none => throw .notText

/-- The disk with the content of a file replaced. -/
def writeBytes (disk : Disk) (path : String) (bytes : ByteArray) : Except IoError Disk := do
  let place ← disk.placeOf path
  if Path.endsInSlash path || !namesEntry path then throw .isAFolder
  match disk.kindAt? place with
  | some .folder => throw .isAFolder
  | _ => return { disk with files := disk.files.insert place.key bytes }

/-- The files at or below a path as paths from there, ordered by segments. -/
def listFiles (disk : Disk) (path : String) : Except IoError (List String) := do
  let (place, _) ← disk.find path
  let files := (disk.files.keys.map Place.ofKey).filter place.isWithin
  return files.map fun file => "/".intercalate (file.segments.drop place.segments.length)

/-! ## Folders -/

/-- The disk with one more folder, the folder of which is there. -/
def makeFolder (disk : Disk) (path : String) : Except IoError Disk := do
  let place ← disk.placeOf path
  if !namesEntry path || (disk.kindAt? place).isSome then throw .alreadyExists
  return { disk with folders := disk.folders.insert place.key () }

/-- The disk with a folder, which may be there already. -/
def ensureFolder (disk : Disk) (path : String) : Except IoError Disk :=
  match disk.makeFolder path with
  | .ok disk => .ok disk
  | .error e => if disk.kind? path = some .folder then .ok disk else .error e

/-- The outcome of a call that has no effect if it fails. -/
def outcome (disk : Disk) : Except IoError Disk → Except IoError Unit × Disk
  | .ok changed => (.ok (), changed)
  | .error e => (.error e, disk)

/--
Makes the folder of a path and those it lies in, from the first one that is missing; `steps` bounds
how far up that is.  Folders that were made stay if a later one cannot be made.
-/
def makeFoldersIn (steps : Nat) (disk : Disk) (path : String) : Except IoError Unit × Disk :=
  match steps, Path.parent? path with
  | 0, _ => (.error .notFound, disk)
  | _, none => (.ok (), disk)
  | steps + 1, some parent =>
    match disk.ensureFolder path with
    | .error .notFound =>
      match makeFoldersIn steps disk parent with
      | (.ok (), disk) => disk.outcome (disk.ensureFolder path)
      | failed => failed
    | result => disk.outcome result

/-- Makes the folder of a path and those it lies in. -/
def makeFolders (disk : Disk) (path : String) : Except IoError Unit × Disk :=
  makeFoldersIn (path.length + 1) disk path

/-- The disk without the entries whose place passes a test. -/
def without (disk : Disk) (isDropped : Place → Bool) : Disk :=
  let keep (key : String) : Bool := !isDropped (.ofKey key)
  { disk with files := disk.files.filter keep, folders := disk.folders.filter keep }

/--
Removes a folder with all that lies in it.  A path that ends in two dots leads through what is
removed, so the folder itself stays; one that ends in a lone dot fails on the folder itself.
-/
def removeTree (disk : Disk) (path : String) : Except IoError Unit × Disk :=
  match disk.find path with
  | .error e => (.error e, disk)
  | .ok (_, .file) => (.error .notAFolder, disk)
  | .ok (place, .folder) =>
    if namesEntry path then (.ok (), disk.without place.isWithin)
    else
      let emptied := disk.without fun entry => place.isWithin entry && entry ≠ place
      if (Path.segments path).getLast? = some ".." then (.ok (), emptied)
      else (.error .invalidPath, emptied)

/-! ## Disks as file stores -/

instance : FileStore (StateM Disk) where
  isPresent path disk := ((disk.kind? path).isSome, disk)
  readText path := ExceptT.mk fun disk => (disk.readText path, disk)
  writeText path content := ExceptT.mk fun disk =>
    disk.outcome (disk.writeBytes path content.toUTF8)
  makeFolders path := ExceptT.mk (·.makeFolders path)
  removeTree path := ExceptT.mk (·.removeTree path)

end Disk

end RigPack

import RigPack.Toml.Basic

/-!
# Building tables

A TOML document fills its tables in pieces: headers open tables, dotted keys reach into tables below
the open one, and double brackets add a table to a list.  A `Node` remembers how a table came to be,
since that decides who may still add to it.
-/

namespace RigPack.Toml

/-- What stands under a key while a document is read. -/
inductive Node
  /-- A value, which is complete. -/
  | value (v : Toml)
  /--
  A table.  It is implied if only keys and headers of tables below it name it, and dotted if a
  dotted key was the first to do so.
  -/
  | table (implied dotted : Bool) (entries : List (String × Node))
  /-- The tables of a list, of which the last one is open. -/
  | tables (closed : List (List (String × Node))) (last : List (String × Node))

/-- The entries of a table while a document is read. -/
abbrev Entries := List (String × Node)

mutual

/-- The value that a node stands for. -/
def Node.toToml : Node → Toml
  | .value v => v
  | .table _ _ entries => .table (entriesToToml entries)
  | .tables closed last => .array (tablesToToml closed ++ [.table (entriesToToml last)])

/-- The values of the entries of a table. -/
def entriesToToml : List (String × Node) → List (String × Toml)
  | [] => []
  | (key, node) :: entries => (key, node.toToml) :: entriesToToml entries

/-- The values of a list of tables. -/
def tablesToToml : List (List (String × Node)) → List Toml
  | [] => []
  | entries :: tables => .table (entriesToToml entries) :: tablesToToml tables

end

/-- The node under a key. -/
def get? (key : String) (entries : Entries) : Option Node :=
  (entries.find? (·.1 = key)).map (·.2)

/-- The entries with the node of a key replaced, or added at the end. -/
def put (key : String) (node : Node) : Entries → Entries
  | [] => [(key, node)]
  | (k, v) :: entries =>
    if k = key then (k, node) :: entries else (k, v) :: put key node entries

/--
A change of the entries of the table at a path.  Tables that are missing on the way are implied.  A
dotted key cannot reach into a table that has a header of its own.  `change` is told whether the
table at the end is dotted.
-/
def changeAt (byDots : Bool) (change : Bool → Entries → Option Entries) :
    List String → Bool → Entries → Option Entries
  | [], dotted, entries => change dotted entries
  | key :: path, _, entries => do
    let node ←
      match get? key entries with
      | none => (changeAt byDots change path byDots []).map (Node.table true byDots)
      | some (.value _) => none
      | some (.table implied dotted below) =>
        if byDots ∧ ¬ implied then none
        else (changeAt byDots change path dotted below).map (Node.table implied dotted)
      | some (.tables closed last) =>
        (changeAt byDots change path false last).map (Node.tables closed)
    return put key node entries

/-- Adds a value under a key whose last part is `name`. -/
def addValue (path : List String) (name : String) (v : Toml) (entries : Entries) :
    Option Entries :=
  changeAt true (fun dotted target =>
    if dotted = path.isEmpty then none
    else if (get? name target).isSome then none
    else some (target ++ [(name, .value v)])) path false entries

/-- A table as a value, from its keys and their values. -/
def ofPairs (pairs : List (List String × String × Toml)) : Option Toml :=
  (pairs.foldlM (fun entries (path, name, v) => addValue path name v entries) []).map
    fun entries => .table (entriesToToml entries)

/-- A document while it is read: all complete tables, and the open one with its header. -/
structure Draft where
  root : Entries
  /-- The path of the open table; empty in front of the first header. -/
  path : List String
  /-- Whether the open table is one of a list. -/
  listed : Bool
  opened : Entries

namespace Draft

/-- A document of which nothing is read. -/
def start : Draft :=
  ⟨[], [], false, []⟩

/-- Adds a value to the open table. -/
def addPair (draft : Draft) (path : List String) (name : String) (v : Toml) : Option Draft := do
  let opened ← addValue path name v draft.opened
  return { draft with opened }

/-- Puts the open table where its header says. -/
def close (draft : Draft) : Option Entries :=
  match draft.path.getLast? with
  | none => some draft.opened
  | some name =>
    changeAt false (fun _ parent =>
      if draft.listed then
        match get? name parent with
        | none => some (put name (.tables [] draft.opened) parent)
        | some (.tables closed last) =>
          some (put name (.tables (closed ++ [last]) draft.opened) parent)
        | some _ => none
      else some (put name (.table false false draft.opened) parent))
      draft.path.dropLast false draft.root

/-- The entries that a table has before its header: those of tables implied by headers below. -/
def takeImplied (root : Entries) (path : List String) (name : String) :
    Option (Entries × Entries) := do
  let parentOf (change : Entries → Option Entries) : Option Entries :=
    changeAt false (fun _ parent => change parent) path false root
  let without ← parentOf fun parent => some (parent.filter (·.1 ≠ name))
  let found := (entriesAt path root).bind (get? name)
  match found with
  | none => return ([], without)
  | some (.table true false below) => return (below, without)
  | some _ => none
where
  /-- The entries of the table at a path, if it is there. -/
  entriesAt : List String → Entries → Option Entries
    | [], entries => some entries
    | key :: path, entries =>
      match get? key entries with
      | some (.table _ _ below) => entriesAt path below
      | some (.tables _ last) => entriesAt path last
      | _ => none

/-- Opens the table of a header. -/
def openTable (draft : Draft) (path : List String) : Option Draft := do
  let root ← draft.close
  let name ← path.getLast?
  let (opened, root) ← takeImplied root path.dropLast name
  return ⟨root, path, false, opened⟩

/-- Opens a further table of the list of a header. -/
def openListed (draft : Draft) (path : List String) : Option Draft := do
  let root ← draft.close
  let name ← path.getLast?
  let root ← changeAt false (fun _ parent =>
    match get? name parent with
    | none => some parent
    | some (.tables ..) => some parent
    | some _ => none) path.dropLast false root
  return ⟨root, path, true, []⟩

end Draft

end RigPack.Toml

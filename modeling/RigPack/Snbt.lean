import RigPack.Binary.Text
import RigPack.Rig.Basic

/-!
# Tag values

The game stores data as trees of tags and reads them from commands in a text form.  A compound
keeps its entries in the order in which they were set, so the text of a value is reproducible.
-/

namespace RigPack

/-- A tag value. -/
inductive Snbt
  | int (n : Int32)
  | float (x : Binary.Single)
  | string (s : String)
  | list (items : List Snbt)
  | compound (entries : List (String × Snbt))
  deriving Inhabited

namespace Snbt

/-! ## Building values -/

/-- The entries with the first value under `key` replaced, or with a new entry at the end. -/
def setEntry (key : String) (value : Snbt) : List (String × Snbt) → List (String × Snbt)
  | [] => [(key, value)]
  | (k, v) :: entries =>
    if k = key then (k, value) :: entries else (k, v) :: setEntry key value entries

/-- A compound with `value` under `key`; any other value stays as it is. -/
def set (target : Snbt) (key : String) (value : Snbt) : Snbt :=
  match target with
  | .compound entries => .compound (setEntry key value entries)
  | other => other

/-- The transform of a display entity: the list of its entries. -/
def ofTransform (t : Transform) : Snbt :=
  .list (t.toList.map .float)

/-! ## Text -/

/-- The characters that a key may hold without quotes. -/
def isBareChar (c : Char) : Bool :=
  c.isAlphanum || c = '_' || c = '-' || c = '.' || c = '+'

/-- Whether a key is written without quotes. -/
def isBareKey (key : List Char) : Bool :=
  !key.isEmpty && key.all isBareChar

/-- The spelling of a character between quotes. -/
def escapedChar (c : Char) : List Char :=
  if c = '"' then ['\\', '"'] else if c = '\\' then ['\\', '\\'] else [c]

/-- A text between quotes. -/
def quotedChars (s : List Char) : List Char :=
  '"' :: s.flatMap escapedChar ++ ['"']

/-- A key. -/
def keyChars (key : String) : List Char :=
  if isBareKey key.toList then key.toList else quotedChars key.toList

mutual

/-- The text of a value. -/
def chars : Snbt → List Char
  | .int n => (toString n.toInt).toList
  | .float x => x.chars .command ++ ['f']
  | .string s => quotedChars s.toList
  | .list [] => ['[', ']']
  | .list (item :: items) => '[' :: chars item ++ charsOfItems items
  | .compound [] => ['\x7b', '\x7d']
  | .compound ((key, value) :: entries) =>
    '\x7b' :: keyChars key ++ ':' :: chars value ++ charsOfEntries entries

/-- The text of the items behind the first one, up to the end of the list. -/
def charsOfItems : List Snbt → List Char
  | [] => [']']
  | item :: items => ',' :: chars item ++ charsOfItems items

/-- The text of the entries behind the first one, up to the end of the compound. -/
def charsOfEntries : List (String × Snbt) → List Char
  | [] => ['\x7d']
  | (key, value) :: entries =>
    ',' :: keyChars key ++ ':' :: chars value ++ charsOfEntries entries

end

/-- The text of a value. -/
def text (value : Snbt) : String :=
  String.ofList value.chars

example : (Snbt.compound [("a", .int (-1)), ("b c", .list [.string "\"", .float (.ofInt 1)])]).text
    = "\x7ba:-1,\"b c\":[\"\\\"\",1f]\x7d" := by decide +kernel

end Snbt

end RigPack

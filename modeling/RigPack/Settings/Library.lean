import RigPack.Settings.Environment
import RigPack.Toml.Basic

/-!
# What settings rest on

Where a user's own files lie, what a reference in a path stands for, how a document is spelled and
how it keeps the fields of a record are not up to this program.  A `Library` is all that it relies
on there; nothing is said of how a library comes to its answers, nor that it keeps to any rule.
-/

namespace RigPack

/-- Where a field stands: the record that it belongs to, its position in there, and its name. -/
structure FieldPath where
  record : String
  position : Nat
  name : String

/-- What a field holds. -/
inductive FieldValue
  | text (s : String)
  | word (n : UInt32)

/-- The value that stands in a document for what a field holds. -/
def FieldValue.toToml : FieldValue → Toml
  | .text s => .string s
  | .word n => .integer n.toNat

/-- What settings are worked out with. -/
class Library where
  /-- The folder for the user's own files of this program, if there is one. -/
  ownFolder? : Environment → Option String
  /-- What variables give for a setting, by its key, or why they cannot be read as settings. -/
  assigned : Environment → Except String (String → Option String)
  /-- A path with references in it written out, if all of them lead somewhere. -/
  writtenOut? : Environment → String → Option String
  /-- The table that a document spells, if it is well formed. -/
  readDocument? : String → Option Toml.Table
  /-- A document that spells a table, or why there is none. -/
  writeDocument : Toml.Table → Except String String
  /-- The text that a table has in a field, if the field is there and of this type. -/
  text? : Toml.Table → FieldPath → Option (Option String)
  /-- The number of 32 bits that a table has in a field, if the field is there and of this type. -/
  word? : Toml.Table → FieldPath → Option (Option UInt32)
  /-- The table of a record, by the names and values of its fields. -/
  encode : String → List (String × FieldValue) → Toml.Table

end RigPack

/-!
# TOML values

Settings are kept in TOML files.  A value keeps what settings are made of exactly; of floating point
numbers and dates, which no setting is, it keeps only that they are there.
-/

namespace RigPack

/-- A TOML value. -/
inductive Toml
  | string (s : String)
  | integer (n : Int)
  | real
  | bool (b : Bool)
  | date
  | array (items : List Toml)
  | table (entries : List (String × Toml))
  deriving Inhabited

/-- The entries of a table in the order of its document. -/
abbrev Toml.Table := List (String × Toml)

end RigPack

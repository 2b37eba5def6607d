import RigPack.Store.Basic

/-!
# Unusable settings

The settings of an export come from files, from the environment and from the project itself.  A
`ConfigFault` says which of them cannot be used.
-/

namespace RigPack

/-- Why a text is no natural number of 32 bits. -/
inductive NumberFault
  | empty
  | invalidDigit
  | tooLarge
  deriving DecidableEq

/-- The description of a text that is no number. -/
def NumberFault.message : NumberFault → String
  | .empty => "cannot parse integer from empty string"
  | .invalidDigit => "invalid digit found in string"
  | .tooLarge => "number too large to fit in target type"

/-- Why settings cannot be used. -/
inductive ConfigFault
  /-- No folder for packs is configured. -/
  | noFolder
  /-- The project's namespace cannot stand in a resource path. -/
  | invalidNamespace (space : String)
  /-- The project names no item. -/
  | noItem
  /-- The game cannot count that many ticks. -/
  | interpolationTooLong (ticks : Nat)
  /-- An animation without ticks. -/
  | emptyAnimation (name : String)
  | unreadable (path : String) (cause : IoError)
  /-- A file of settings that is malformed or gives values of wrong types. -/
  | unparsable (path : String)
  /-- Variables of the environment that cannot be read as settings. -/
  | unusableVariables (cause : String)
  /-- A variable of the environment that should be a number. -/
  | notANumber (variableName value : String) (cause : NumberFault)
  /-- Settings that no document can hold. -/
  | unwritable (cause : String)
  deriving DecidableEq

/-- The description of unusable settings. -/
def ConfigFault.message : ConfigFault → String
  | .noFolder => "no datapack folder configured (exporter.datapack_folder)"
  | .invalidNamespace space =>
    "invalid namespace '" ++ space ++ "': only [a-z0-9_.-] are allowed"
  | .noItem => "no rig item configured"
  | .interpolationTooLong ticks =>
    "interpolation duration " ++ toString ticks ++ " exceeds 2147483647 ticks"
  | .emptyAnimation name => "animation '" ++ name ++ "' has zero length"
  | .unreadable path cause => "read " ++ path ++ ": " ++ cause.message
  | .unparsable path => "parse " ++ path
  | .unusableVariables cause => cause
  | .notANumber variableName value cause =>
    variableName ++ ": '" ++ value ++ "' is not a valid number: " ++ cause.message
  | .unwritable cause => "serialize config: " ++ cause

end RigPack

import RigPack.Path
import RigPack.Settings.Basic
import RigPack.Settings.Library
import RigPack.Text.Alphanumeric
import RigPack.Toml.Printer
import RigPack.Toml.Reader

/-!
# The library of the program

The library that settings are worked out with when the program runs: folders are those that the
variables of the environment name, and documents are in TOML.
-/

namespace RigPack

namespace Environment

/-! ## Folders -/

/-- The user's own folder. -/
def home? (env : Environment) : Option String :=
  (env.get? "HOME").filter (!·.isEmpty)

/-- The folder of the user's configuration. -/
def configFolder? (env : Environment) : Option String := do
  let home ← env.home?
  match (env.get? "XDG_CONFIG_HOME").filter Path.isAbsolute with
  | some folder => return folder
  | none => return Path.join home ".config"

/-! ## References in paths -/

/-- Whether a character can stand in the name of a variable that no braces delimit. -/
def isVariableChar (c : Char) : Bool :=
  Text.isAlphanumeric c || c = '_'

/-- The text in front of the first `:-` and the text behind. -/
def splitDefault : List Char → Option (List Char × List Char)
  | [] => none
  | ':' :: '-' :: rest => some ([], rest)
  | c :: rest => (splitDefault rest).map fun (name, other) => (c :: name, other)

/-- The value of a reference in braces.  A default needs a name in front of it. -/
def referenced? (env : Environment) (reference : List Char) : Option (List Char) :=
  let lookup (name : List Char) : Option (List Char) :=
    (env.get? (String.ofList name)).map String.toList
  match splitDefault reference with
  | none => lookup reference
  | some ([], _) => lookup reference
  | some (name, other) => some ((lookup name).getD other)

/--
A text with its references to variables replaced by their values, which are taken as they are.
Nothing is given if a variable is not set and has no default.  A doubled dollar sign stands for one.
-/
def substitute? (env : Environment) : List Char → Option (List Char)
  | [] => some []
  | '$' :: '$' :: rest => (substitute? env rest).map ('$' :: ·)
  | '$' :: '\x7b' :: rest =>
    let reference := rest.takeWhile (· ≠ '\x7d')
    if reference.length = rest.length then (substitute? env rest).map (['$', '\x7b'] ++ ·)
    else do
      let value ← env.referenced? reference
      let others ← substitute? env (rest.drop (reference.length + 1))
      return value ++ others
  | '$' :: c :: rest =>
    if isVariableChar c then do
      let name := c :: rest.takeWhile isVariableChar
      let value ← env.get? (String.ofList name)
      let others ← substitute? env (rest.drop (name.length - 1))
      return value.toList ++ others
    else (substitute? env (c :: rest)).map ('$' :: ·)
  | c :: rest => (substitute? env rest).map (c :: ·)
termination_by cs => cs.length
decreasing_by all_goals simp <;> omega

/-- A path with the user's own folder in place of a tilde that is its first segment. -/
def expandTilde (env : Environment) (path : List Char) : List Char :=
  match path, env.home? with
  | ['~'], some home => home.toList
  | '~' :: '/' :: rest, some home => home.toList ++ '/' :: rest
  | path, _ => path

/--
A path with variables and tilde replaced, if all variables are set.  A tilde that comes out of a
variable is an ordinary character.
-/
def writtenOut? (env : Environment) (path : String) : Option String :=
  (env.substitute? path.toList).map fun expanded =>
    String.ofList (if path.toList.head? = some '~' then env.expandTilde expanded else expanded)

/-! ## Settings in variables -/

/-- A character in lower case, as far as that is an ASCII letter. -/
def lowerChar (c : Char) : Char :=
  if c = '\u212a' then 'k' else c.toLower

/-- A text with every two underscores in a row replaced by a dot. -/
def dotted : List Char → List Char
  | [] => []
  | '_' :: '_' :: rest => '.' :: dotted rest
  | c :: rest => c :: dotted rest

/-- The setting that a variable is about, if its name says that it is about one. -/
def settingOf? (name : String) : Option String :=
  let cs := name.toList.map lowerChar
  let mark := "animpack_".toList
  if mark.isPrefixOf cs then some (String.ofList (dotted (cs.drop mark.length))) else none

/-- The value that variables give for a setting; of several variables the last one counts. -/
def setting? (env : Environment) (key : String) : Option String :=
  (env.entries.reverse.find? fun entry => settingOf? entry.1 = some key).map (·.2)

end Environment

/-! ## Fields in documents -/

namespace FieldPath

/--
The value of a field in a table, if there is one.  The record of the field is a table by names or an
array by positions; a date counts as a record without fields.
-/
def find? (table : Toml.Table) (path : FieldPath) : Option (Option Toml) :=
  match table.lookup path.record with
  | none => some none
  | some (.table entries) => some (entries.lookup path.name)
  | some (.array items) => some items[path.position]?
  | some .date => some none
  | some _ => none

/-- What a table has in a field that may be missing, but not of a wrong type. -/
def read? {α : Type} (read : Toml → Option α) (table : Toml.Table) (path : FieldPath) :
    Option (Option α) := do
  match ← path.find? table with
  | none => return none
  | some v => return some (← read v)

end FieldPath

namespace Toml

/-- A value as text. -/
def text? : Toml → Option String
  | .string s => some s
  | _ => none

/-- A value as a natural number of 32 bits. -/
def word? : Toml → Option UInt32
  | .integer n => if 0 ≤ n ∧ n < UInt32.size then some (UInt32.ofNat n.toNat) else none
  | _ => none

end Toml

namespace Settings

/-- The document that holds settings. -/
def toToml (settings : Settings) : String :=
  "[exporter]\n"
  ++ "datapack_folder = " ++ Toml.quoted settings.folder ++ "\n"
  ++ "interpolation_duration = " ++ toString settings.interpolation.toNat ++ "\n"
  ++ "pack_format = " ++ toString settings.packFormat.toNat ++ "\n"

end Settings

instance : Library where
  ownFolder? env := env.configFolder?.map fun folder => Path.join folder "animpack"
  assigned env := .ok env.setting?
  writtenOut? := Environment.writtenOut?
  readDocument? := Toml.read?
  writeDocument table :=
    match Toml.write? table with
    | some document => .ok document
    | none => .error "unsupported type"
  text? := FieldPath.read? Toml.text?
  word? := FieldPath.read? Toml.word?
  encode name fields := [(name, .table (fields.map fun (field, value) => (field, value.toToml)))]

end RigPack

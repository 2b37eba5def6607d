import RigPack.Failure
import RigPack.Text.Digits

/-!
# The grammar of command lines

A command line is a list of words.  Some are commands, each of which leads one level further into
the grammar; some are options, which start with a dash; the rest are values, of options or on their
own.  This module says what each level knows, and what the values must be.
-/

namespace RigPack.CommandLine

/-- A shell for which completions can be asked. -/
inductive Shell
  | bash
  | elvish
  | fish
  | powershell
  | zsh
  deriving DecidableEq

/-- The shells by name. -/
def Shell.named : List (String × Shell) :=
  [("bash", bash), ("elvish", elvish), ("fish", fish), ("powershell", powershell), ("zsh", zsh)]

/-! ## Levels -/

/-- What the commands of a command line amount to, as far as they were read. -/
inductive Level
  | top
  | export
  | tree
  | settings
  | showSettings
  | startSettings
  | findSettings
  | completion
  deriving DecidableEq

/-- Where a command leads. -/
inductive Target
  | level (next : Level)
  /-- To the description of the level or of the commands that follow. -/
  | help
  deriving DecidableEq

/-- The commands of a level. -/
def Level.commands : Level → List (String × Target)
  | .top => [("export", .level .export), ("tree", .level .tree), ("config", .level .settings),
      ("completion", .level .completion), ("help", .help)]
  | .settings => [("show", .level .showSettings), ("init", .level .startSettings),
      ("path", .level .findSettings), ("help", .help)]
  | _ => []

/-- Where a word leads if it is a command of the level. -/
def Level.command? (level : Level) (word : String) : Option Target :=
  level.commands.lookup word

/-! ## Options and values -/

/-- An option that takes no value. -/
inductive Switch
  | debug
  | help
  | version
  | everywhere
  deriving DecidableEq

/-- What a value is for. -/
inductive Parameter
  | projectFolder
  | output
  | interpolation
  | project
  | frames
  | shell
  deriving DecidableEq

/-- What an option is for. -/
inductive Purpose
  | switch (s : Switch)
  | parameter (p : Parameter)
  deriving DecidableEq

/-- An option. -/
structure OptionName where
  /-- The name behind two dashes. -/
  long : String
  /-- The letter behind one dash. -/
  letter : Option Char
  purpose : Purpose

/-- The options that every level has. -/
def sharedOptions : List OptionName := [
  ⟨"debug", some 'd', .switch .debug⟩,
  ⟨"project-dir", some 'C', .parameter .projectFolder⟩,
  ⟨"help", some 'h', .switch .help⟩,
  ⟨"version", some 'V', .switch .version⟩]

/-- The options that only this level has. -/
def Level.ownOptions : Level → List OptionName
  | .export => [
      ⟨"output", some 'o', .parameter .output⟩,
      ⟨"interpolation-duration", none, .parameter .interpolation⟩]
  | .startSettings => [⟨"global", some 'g', .switch .everywhere⟩]
  | _ => []

/-- The options of a level. -/
def Level.options (level : Level) : List OptionName :=
  level.ownOptions ++ sharedOptions

/-- What the option of a long name is for. -/
def Level.long? (level : Level) (name : String) : Option Purpose :=
  (level.options.find? (·.long = name)).map OptionName.purpose

/-- What the option of a letter is for. -/
def Level.letter? (level : Level) (letter : Char) : Option Purpose :=
  (level.options.find? (·.letter = some letter)).map OptionName.purpose

/-- What a value on its own is for. -/
def Level.operand? : Level → Option Parameter
  | .export => some .project
  | .tree => some .frames
  | .completion => some .shell
  | _ => none

/-! ## Refusals -/

/-- Why a command line is not carried out. -/
inductive Refusal
  /-- A description was asked for. -/
  | help
  /-- The version was asked for. -/
  | version
  /-- Nothing at all where there should be a command, which asks for a description as well. -/
  | helpForNothing
  | missingCommand
  | unknownCommand (word : String)
  /-- An option or a value for which there is no place. -/
  | unknownWord (word : String)
  /-- A value on its own is missing. -/
  | missingOperand
  /-- An option without its value, or with an empty one where a path should be. -/
  | missingValue
  | unknownShell (word : String)
  | notANumber (word : String)
  /-- An option that may be given once. -/
  | repeated
  /-- An option that takes no value. -/
  | unwantedValue (word : String)
  deriving DecidableEq

/-- The exit code of a command line that is not carried out. -/
def Refusal.exitCode : Refusal → ExitCode
  | .help => .success
  | .version => .success
  | _ => .refused

/-! ## Reading values -/

/-- A value that is a path. -/
def readPath (word : String) : Except Refusal String :=
  if word.isEmpty then .error .missingValue else .ok word

/-- A value that is a natural number of 32 bits. -/
def readWord (word : String) : Except Refusal UInt32 :=
  match Text.signedDecimal? word.toList with
  | some n =>
    if 0 ≤ n ∧ n < UInt32.size then .ok (UInt32.ofNat n.toNat) else .error (.notANumber word)
  | none => .error (.notANumber word)

/-- A value that is a natural number of 64 bits; no minus may stand in front, not even of zero. -/
def readCount (word : String) : Except Refusal Nat :=
  let digits := if word.toList.head? = some '+' then word.toList.tail else word.toList
  match Text.decimal? digits with
  | some n => if n < UInt64.size then .ok n else .error (.notANumber word)
  | none => .error (.notANumber word)

/-- A value that is the name of a shell. -/
def readShell (word : String) : Except Refusal Shell :=
  match Shell.named.lookup word with
  | some shell => .ok shell
  | none => .error (.unknownShell word)

end RigPack.CommandLine

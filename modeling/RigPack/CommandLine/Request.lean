import RigPack.CommandLine.Grammar

/-!
# Requests

What a command line asks for, and how it is put together from the options and values that were
given at one level of the grammar.
-/

namespace RigPack.CommandLine

/-- What the program is asked to do. -/
inductive Request
  | export (project : String) (output : Option String) (interpolation : Option UInt32)
  | tree (frames : Nat)
  | showSettings
  /-- To make a file of settings: the user's own or the project's. -/
  | startSettings (isOwn : Bool)
  | findSettings
  | completion (shell : Shell)
  deriving DecidableEq

/-- A command line that can be carried out. -/
structure Invocation where
  /-- The folder of the project; the one where the program runs unless given. -/
  projectFolder : Option String
  request : Option Request
  deriving DecidableEq

/-- The options and values that were given at one level. -/
structure Given where
  debug : Bool
  everywhere : Bool
  projectFolder : Option String
  output : Option String
  interpolation : Option UInt32
  project : Option String
  frames : Option Nat
  shell : Option Shell
  deriving DecidableEq

namespace Given

/-- Neither options nor values. -/
def nothing : Given :=
  ⟨false, false, none, none, none, none, none, none⟩

/-- A value where none was given before. -/
def once {α : Type} (before : Option α) (value : Except Refusal α) : Except Refusal (Option α) :=
  match before with
  | some _ => .error .repeated
  | none => value.map some

/-- Adds an option without value. -/
def turnOn (given : Given) : Switch → Except Refusal Given
  | .debug => .ok { given with debug := true }
  | .help => .error .help
  | .version => .error .version
  | .everywhere =>
    if given.everywhere then .error .repeated else .ok { given with everywhere := true }

/-- Adds a value. -/
def put (given : Given) (parameter : Parameter) (word : String) : Except Refusal Given := do
  match parameter with
  | .projectFolder =>
    return { given with projectFolder := ← once given.projectFolder (readPath word) }
  | .output => return { given with output := ← once given.output (readPath word) }
  | .interpolation =>
    return { given with interpolation := ← once given.interpolation (readWord word) }
  | .project => return { given with project := ← once given.project (readPath word) }
  | .frames => return { given with frames := ← once given.frames (readCount word) }
  | .shell => return { given with shell := ← once given.shell (readShell word) }

/-- The value of something that has to be given. -/
def need {α : Type} : Option α → Except Refusal α
  | some value => .ok value
  | none => .error .missingOperand

/-- The request of a command line that ends at a level. -/
def request (given : Given) : Level → Except Refusal (Option Request)
  | .top => return none
  | .export => return some (.export (← need given.project) given.output given.interpolation)
  | .tree => return some (.tree (← need given.frames))
  | .settings => throw (if given = nothing then .helpForNothing else .missingCommand)
  | .showSettings => return some .showSettings
  | .startSettings => return some (.startSettings given.everywhere)
  | .findSettings => return some .findSettings
  | .completion => return some (.completion (← need given.shell))

end Given

end RigPack.CommandLine

import RigPack.CommandLine.Grammar

/-!
# What is said of a refused command line

A refusal is described in one line, and a request for a description with the commands and options
of the program.
-/

namespace RigPack.CommandLine

/-- What the program is called. -/
def programName : String :=
  "animpack"

/-- The version of the program. -/
def programVersion : String :=
  "0.3.0"

/-- The commands and options of the program. -/
def overview : String :=
  "Compile baked rig animations into a data pack of function files

Usage: animpack [OPTIONS] [COMMAND]

Commands:
  export <PROJECT> [-o <DIR>] [--interpolation-duration <TICKS>]
  tree <FRAMES>
  config show
  config init [-g]
  config path
  completion <SHELL>
  help

Options:
  -d, --debug              Raise log verbosity (-d info, -dd debug, -ddd trace)
  -C, --project-dir <DIR>  Project directory used for local config lookup (default: cwd)
  -h, --help               Print help
  -V, --version            Print version
"

/-- The description of a command line that is not carried out. -/
def Refusal.message : Refusal → String
  | .help => overview
  | .version => programName ++ " " ++ programVersion ++ "\n"
  | .helpForNothing => overview
  | .missingCommand => "a subcommand is required"
  | .unknownCommand word => "unrecognized subcommand '" ++ word ++ "'"
  | .unknownWord word => "unexpected argument '" ++ word ++ "' found"
  | .missingOperand => "a required argument was not provided"
  | .missingValue => "a value is required but none was supplied"
  | .unknownShell word => "invalid shell '" ++ word ++ "'"
  | .notANumber word => "invalid number '" ++ word ++ "'"
  | .repeated => "an argument cannot be used multiple times"
  | .unwantedValue word => "no value is expected for '" ++ word ++ "'"

/-- Whether the description is what was asked for, and no complaint. -/
def Refusal.isAnswer (refusal : Refusal) : Bool :=
  refusal.exitCode = .success

end RigPack.CommandLine

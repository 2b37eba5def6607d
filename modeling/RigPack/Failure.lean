import RigPack.Export.Fault
import RigPack.Json.Decode

/-!
# Failures of a command

What a command line reports when it does not succeed, and the exit code by which scripts tell the
kinds of failure apart.  The codes are those that mail systems made customary.
-/

namespace RigPack

/-- Why a command fails. -/
inductive Failure
  | export (fault : ExportFault)
  /-- A file outside of a pack that cannot be read or written. -/
  | io (action path : String) (cause : IoError)
  | projectFile (path : String) (cause : Json.ReadError)
  /-- The folder where the program runs is not known. -/
  | nowhere (cause : IoError)
  | noCommand
  /-- No folder for the user's own settings is known. -/
  | noHome
  /-- The file of settings that should be made is there. -/
  | settingsExist (path : String)
  deriving DecidableEq

/-- An exit code. -/
structure ExitCode where
  number : Nat
  deriving DecidableEq

namespace ExitCode

/-- All went well. -/
def success : ExitCode := ⟨0⟩

/-- The words of the command line do not fit together. -/
def refused : ExitCode := ⟨2⟩

/-- The command cannot be carried out as it was given. -/
def usage : ExitCode := ⟨64⟩

/-- The project is malformed or defective. -/
def badData : ExitCode := ⟨65⟩

/-- The pack cannot be put where it should go. -/
def cannotCreate : ExitCode := ⟨73⟩

/-- A file could not be read or written. -/
def ioError : ExitCode := ⟨74⟩

/-- The settings cannot be used. -/
def config : ExitCode := ⟨78⟩

end ExitCode

/-- The exit code of a failed export. -/
def ExportFault.exitCode : ExportFault → ExitCode
  | .defect _ => .badData
  | .config _ => .config
  | .foreignPack .. => .cannotCreate
  | .failed .. => .ioError

namespace Failure

/-- The exit code of a failed command. -/
def exitCode : Failure → ExitCode
  | .export fault => fault.exitCode
  | .io .. => .ioError
  | .projectFile .. => .badData
  | .nowhere _ => .ioError
  | .noCommand => .usage
  | .noHome => .usage
  | .settingsExist _ => .usage

/-- The description of a failed command. -/
def message : Failure → String
  | .export fault => fault.message
  | .io action path _ => "I/O error: " ++ action ++ " " ++ path
  | .projectFile path (.fault .malformed) => "invalid project file " ++ path ++ ": malformed JSON"
  | .projectFile path (.fault .cutShort) =>
    "invalid project file " ++ path ++ ": the document ends too early"
  | .projectFile path (.mismatch mismatch) =>
    "invalid project file " ++ path ++ ": " ++ mismatch.message
  | .nowhere _ => "I/O error: determine current directory"
  | .noCommand => "no command given, see animpack --help"
  | .noHome => "no home directory, cannot place global config"
  | .settingsExist path => "config already exists: " ++ path

end Failure

end RigPack

import RigPack.CommandLine.Description
import RigPack.CommandLine.Parser
import RigPack.CommandLine.Run

/-!
# The program

Reads the command line and the environment, runs the request on the files of the machine, prints
the answer or, on the error stream, why there is none, and ends with the exit code for it.
-/

namespace RigPack

/-- The error of a call of the system. -/
def IoError.ofSystem : IO.Error → IoError
  | .noFileOrDirectory .. => .notFound
  | .alreadyExists _ 39 _ => .folderNotEmpty
  | .alreadyExists .. => .alreadyExists
  | .inappropriateType _ 20 _ => .notAFolder
  | .inappropriateType _ 21 _ => .isAFolder
  | .invalidArgument _ 36 _ => .nameTooLong
  | .invalidArgument .. => .invalidPath
  | .resourceExhausted _ 36 _ => .nameTooLong
  | _ => .other

/-- A call of the system. -/
def systemCall {α : Type} (call : IO α) : ExceptT IoError IO α :=
  ExceptT.mk do
    try return .ok (← call)
    catch e => return .error (.ofSystem e)

instance : FileStore IO where
  isPresent path := do
    match ← (systemCall (IO.FS.realPath path)).run with
    | .ok _ => return true
    | .error _ => return false
  readText path := do
    match String.fromUTF8? (← systemCall (IO.FS.readBinFile path)) with
    | some content => return content
    | none => throw .notText
  writeText path content := systemCall (IO.FS.writeFile path content)
  makeFolders path := systemCall (IO.FS.createDirAll path)
  removeTree path := systemCall (IO.FS.removeDirAll path)

/-- The environment of the process. -/
def readEnvironment : IO Environment := do
  match ← (systemCall (IO.FS.readBinFile "/proc/self/environ")).run with
  | .ok block => return .ofBlock ((String.fromUTF8? block).getD "")
  | .error _ => return ⟨[]⟩

/-- Where the process runs. -/
def readSurroundings : IO CommandLine.Surroundings := do
  let env ← readEnvironment
  let here ← (systemCall IO.currentDir).run
  return ⟨env, here.map toString⟩

/-- Reports a command line that is not carried out. -/
def report (refusal : CommandLine.Refusal) : IO UInt32 := do
  if refusal.isAnswer then IO.print refusal.message
  else IO.eprintln ("error: " ++ refusal.message)
  return UInt32.ofNat refusal.exitCode.number

/-- Carries out a command line. -/
def carryOut (invocation : CommandLine.Invocation) : IO UInt32 := do
  let surroundings ← readSurroundings
  match ← (CommandLine.run surroundings invocation).run with
  | .ok printed =>
    printed.warnings.forM fun warning => IO.eprintln ("Warning: " ++ warning)
    IO.print printed.text
    return UInt32.ofNat ExitCode.success.number
  | .error failure =>
    IO.eprintln ("error: " ++ failure.message)
    return UInt32.ofNat failure.exitCode.number

end RigPack

/-- Runs the program on the words of a command line. -/
def main (args : List String) : IO UInt32 :=
  match RigPack.CommandLine.Invocation.parse args with
  | .ok invocation => RigPack.carryOut invocation
  | .error refusal => RigPack.report refusal

import RigPack.Settings.Fault
import RigPack.Defect
import RigPack.Json.Draft

/-!
# Failed exports

An export fails because settings or project cannot be used, because the folder belongs to a pack of
another namespace, or because a file cannot be read or written.
-/

namespace RigPack

/-- What went wrong with a file. -/
inductive Cause
  | io (e : IoError)
  | json (fault : Json.Fault)
  deriving DecidableEq

/-- Why an export fails. -/
inductive ExportFault
  | defect (d : Defect)
  | config (fault : ConfigFault)
  /-- The folder holds a pack of the namespace `found`. -/
  | foreignPack (path found expected : String)
  /-- A step of the export that did not succeed. -/
  | failed (action path : String) (cause : Cause)
  deriving DecidableEq

/-- The description of a failed export. -/
def ExportFault.message : ExportFault → String
  | .defect d => d.message
  | .config fault => "config error: " ++ fault.message
  | .foreignPack path found expected =>
    "the datapack folder already contains a datapack with a different namespace: " ++ found
      ++ " (expected " ++ expected ++ ", at " ++ path ++ ")"
  | .failed action path _ => "operation failed: " ++ action ++ ": " ++ path

end RigPack

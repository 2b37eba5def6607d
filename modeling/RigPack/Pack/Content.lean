import RigPack.Command.Text
import RigPack.Text.Lines

/-!
# Contents of files

A pack holds two kinds of files: functions, which list commands, and metadata in JSON.
-/

namespace RigPack

/-- The content of a file of a pack. -/
inductive Content
  | json (value : Json)
  /-- Commands, one to a line. -/
  | commands (list : List Command)
  deriving Inhabited

/-- The text of a file. -/
def Content.text : Content → String
  | .json value => value.pretty
  | .commands list => Text.unlines (list.map Command.text)

end RigPack

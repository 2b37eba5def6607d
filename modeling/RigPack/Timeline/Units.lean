import RigPack.Timeline.Keyframe
import RigPack.Command.Text
import RigPack.Text.Lines
import RigPack.Text.Blank

/-!
# The functions of a timeline

A timeline becomes a set of functions that call each other.  The function of a branch compares the
time score of the entity that runs it with the range of each child and enters the child that
covers it.  The function of a leaf applies the frame: it has every bone merge its new transform,
runs the frame's commands and switches the variant.
-/

namespace RigPack

/-- A function: a name, which is no path yet, and its commands. -/
structure FunctionUnit where
  name : String
  commands : List Command

/-- The scores for which a node is entered. -/
def RangeTree.scoreRange {α : Type} : RangeTree α → ScoreRange
  | .leaf index _ => .exactly index
  | .branch min max _ => .between min max

/-- A command under a condition as written; one of blanks alone is no condition. -/
def Command.guarded (condition : Option String) (command : Command) : Command :=
  match condition.map Text.trim with
  | none => command
  | some condition =>
    if condition.isEmpty then command else .execute [.written condition] command

namespace Timeline

variable (names : Naming) (animation : String)

/-- Enters a node if the time score lies in its range. -/
def dispatch {α : Type} (node : RangeTree α) : Command :=
  .execute [.ifScore .self .time node.scoreRange]
    (.run (names.timelineFunction animation node.unit))

/-- What every bone runs for a keyframe: the bone that carries the tag merges the transform. -/
def boneCommands (frame : Keyframe) : List Command :=
  frame.poses.map fun (bone, transform) =>
    .execute [.ifTagged (names.boneTag bone)]
      (.mergeData (.compound
        [("transformation", .ofTransform transform), ("start_interpolation", .int 0)]))

/-- What the root runs for a keyframe. -/
def rootCommands (index : Nat) (frame : Keyframe) : List Command :=
  [.execute [.onPassengers] (.run (names.timelineFunction animation (boneUnit index)))]
  ++ (frame.commands.map fun commands =>
      .guarded commands.condition
        (.run (names.timelineFunction animation (commandsUnit index)))).toList
  ++ (frame.switch.map fun switch =>
      .guarded switch.condition (.run (names.variantAsRoot switch.variant))).toList

/-- The functions of a leaf; that of the frame's own commands comes first. -/
def leafUnits (index : Nat) (frame : Keyframe) : List FunctionUnit :=
  (frame.commands.map fun commands =>
    ⟨commandsUnit index, (Text.lines commands.text).map .written⟩).toList
  ++ [⟨leafUnit index, rootCommands names animation index frame⟩,
    ⟨boneUnit index, boneCommands names frame⟩]

mutual

/-- The functions of a timeline: those of the children, then the node's own. -/
def units : Timeline → List FunctionUnit
  | .leaf index frame => leafUnits names animation index frame
  | .branch min max children =>
    unitsOf children ++ [⟨branchUnit min max, children.map (dispatch names animation)⟩]

/-- The functions of several timelines from left to right. -/
def unitsOf : List Timeline → List FunctionUnit
  | [] => []
  | node :: nodes => units node ++ unitsOf nodes

end

end Timeline

end RigPack

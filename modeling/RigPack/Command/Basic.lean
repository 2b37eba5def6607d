import RigPack.Snbt
import RigPack.Naming
import RigPack.Json.Printer

/-!
# Commands

The commands that generated functions consist of, as data.  What a function does can be read off
its commands; their text is a matter of `Command.text` alone.
-/

namespace RigPack

/-- A kind of score. -/
inductive Objective
  /-- Numbers that are no property of an entity. -/
  | scratch
  /-- The number of a rig in the world. -/
  | id
  /-- The frame that an animation applies next. -/
  | time
  /-- The age of a rig. -/
  | age
  /-- What an animation does at its end. -/
  | loopMode
  deriving DecidableEq

/-- All objectives, in the order in which they are added. -/
def Objective.all : List Objective :=
  [.scratch, .id, .time, .age, .loopMode]

/-- Who holds a score. -/
inductive Holder
  /-- The entity that runs the command. -/
  | self
  /-- A fixed name that no entity has. -/
  | name (label : String)
  deriving DecidableEq

/-- A set of score values. -/
inductive ScoreRange
  | exactly (n : Nat)
  | between (low high : Nat)
  | atLeast (low : Nat)
  deriving DecidableEq

/-- The type of an entity. -/
inductive EntityKind
  /-- The type of every entity of a rig. -/
  | display
  /-- One of the types that the pack lists under a name. -/
  | among (group : Location)
  deriving DecidableEq

/-- What a call runs. -/
inductive Callee
  | function (location : Location)
  /-- All functions that are listed under a name. -/
  | group (location : Location)
  deriving DecidableEq

/-- A condition or a change of context in front of a command. -/
inductive Clause
  /-- Once for every entity of a kind that carries a tag. -/
  | asEvery (kind : EntityKind) (tag : String)
  /-- As one entity near by that carries a tag. -/
  | asNearby (kind : EntityKind) (tag : String)
  /-- At the place of the entity. -/
  | atSelf
  /-- Once for every entity that rides on this one. -/
  | onPassengers
  | ifTagged (tag : String)
  | ifUntagged (tag : String)
  | ifScore (holder : Holder) (objective : Objective) (range : ScoreRange)
  | ifSameScore (holder : Holder) (objective : Objective) (other : Holder) (against : Objective)
  /-- Keep the command's result as a score. -/
  | storeScore (holder : Holder) (objective : Objective)
  /-- Keep the command's result in the entity's own data. -/
  | storeData (path : String)
  /-- A condition as written by a user. -/
  | written (text : String)
  deriving DecidableEq

/-- A command. -/
inductive Command
  | addObjective (objective : Objective)
  | setScore (holder : Holder) (objective : Objective) (value : Nat)
  | addScore (holder : Holder) (objective : Objective) (value : Nat)
  | getScore (holder : Holder) (objective : Objective)
  /-- Give the first holder the score of the second one. -/
  | copyScore (holder : Holder) (objective : Objective) (source : Holder)
  | addTag (tag : String)
  | removeTag (tag : String)
  | call (callee : Callee)
  /-- A new entity with the given data. -/
  | summon (kind : EntityKind) (data : Snbt)
  | kill
  /-- A message to all players. -/
  | tell (message : Json)
  /-- Overwrite entries of the entity's own data. -/
  | mergeData (data : Snbt)
  /-- Change the model of the item that a bone displays. -/
  | setModel (model : Int32)
  | execute (clauses : List Clause) (command : Command)
  /-- A line as written by a user. -/
  | written (text : String)

/-- A call of one function. -/
def Command.run (location : Location) : Command :=
  .call (.function location)

end RigPack

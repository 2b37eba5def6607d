import RigPack.Command.Basic

/-!
# The text of commands

Every command is written on one line of a function file.
-/

namespace RigPack

/-- The name of an objective. -/
def Objective.name : Objective → String
  | .scratch => "aj.i"
  | .id => "aj.id"
  | .time => "aj.anim_time"
  | .age => "aj.life_time"
  | .loopMode => "aj.loop_mode"

/-- The name of a score's holder. -/
def Holder.text : Holder → String
  | .self => "@s"
  | .name label => label

/-- A set of scores. -/
def ScoreRange.text : ScoreRange → String
  | .exactly n => toString n
  | .between low high => toString low ++ ".." ++ toString high
  | .atLeast low => toString low ++ ".."

/-- A type of entities. -/
def EntityKind.text : EntityKind → String
  | .display => "minecraft:item_display"
  | .among group => "#" ++ group.text

/-- What a call runs. -/
def Callee.text : Callee → String
  | .function location => location.text
  | .group location => "#" ++ location.text

/-- A score. -/
def scoreText (holder : Holder) (objective : Objective) : String :=
  holder.text ++ " " ++ objective.name

/-- A clause. -/
def Clause.text : Clause → String
  | .asEvery kind tag => "as @e[type=" ++ kind.text ++ ",tag=" ++ tag ++ "]"
  | .asNearby kind tag =>
    "as @e[type=" ++ kind.text ++ ",limit=1,distance=..1,tag=" ++ tag ++ "]"
  | .atSelf => "at @s"
  | .onPassengers => "on passengers"
  | .ifTagged tag => "if entity @s[tag=" ++ tag ++ "]"
  | .ifUntagged tag => "if entity @s[tag=!" ++ tag ++ "]"
  | .ifScore holder objective range =>
    "if score " ++ scoreText holder objective ++ " matches " ++ range.text
  | .ifSameScore holder objective other against =>
    "if score " ++ scoreText holder objective ++ " = " ++ scoreText other against
  | .storeScore holder objective => "store result score " ++ scoreText holder objective
  | .storeData path => "store result entity @s " ++ path ++ " int 1"
  | .written text => text

/-- The line of a command. -/
def Command.text : Command → String
  | .addObjective objective => "scoreboard objectives add " ++ objective.name ++ " dummy"
  | .setScore holder objective value =>
    "scoreboard players set " ++ scoreText holder objective ++ " " ++ toString value
  | .addScore holder objective value =>
    "scoreboard players add " ++ scoreText holder objective ++ " " ++ toString value
  | .getScore holder objective => "scoreboard players get " ++ scoreText holder objective
  | .copyScore holder objective source =>
    "scoreboard players operation " ++ scoreText holder objective ++ " = "
      ++ scoreText source objective
  | .addTag tag => "tag @s add " ++ tag
  | .removeTag tag => "tag @s remove " ++ tag
  | .call callee => "function " ++ callee.text
  | .summon kind data => "summon " ++ kind.text ++ " ~ ~ ~ " ++ data.text
  | .kill => "kill @s"
  | .tell message => "tellraw @a " ++ message.compact
  | .mergeData data => "data modify entity @s \x7b\x7d merge value " ++ data.text
  | .setModel model =>
    "data modify entity @s item.tag.CustomModelData set value " ++ toString model.toInt
  | .execute clauses command =>
    "execute " ++ " ".intercalate (clauses.map Clause.text) ++ " run " ++ command.text
  | .written text => text

end RigPack

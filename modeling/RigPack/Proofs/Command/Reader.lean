import RigPack.Command.Text
import RigPack.Json.Parser
import RigPack.Proofs.Game.ScoreTest
import RigPack.Proofs.Snbt.Values
import RigPack.Proofs.Text.Words

/-!
# Commands, read from their lines

The game knows a function as lines of text.  This file reads a line as the command that it
spells, word by word, and knows nothing of what wrote it: names of functions are cut at their
marks, selectors at their commas, numbers are read digit by digit, data and messages with the
readers for those.

Behind conditions a command stands after the word `run`.  A condition as written by a user may
hold that word, too; what is run stands behind the last one.  Conditions that are none of the
forms known here are kept as text.
-/

namespace RigPack

/-! ## Words -/

/-- What stands in a word between two texts. -/
def between? (front back word : String) : Option String := do
  let rest ← word.toList.dropPrefix? front.toList
  let inner ← rest.dropSuffix? back.toList
  return String.ofList inner

def Objective.read? (word : String) : Option Objective :=
  Objective.all.find? fun objective => objective.name == word

def Holder.read (word : String) : Holder :=
  if word = "@s" then .self else .name word

/-- A name of the form `space:path`, with the path cut at its slashes. -/
def Location.read? (name : String) : Option Location :=
  match Text.cut ':' name with
  | [space, path] => some ⟨space, Text.cut '/' path⟩
  | _ => none

def Callee.read? (word : String) : Option Callee :=
  match word.toList with
  | '#' :: name => (Location.read? (String.ofList name)).map .group
  | _ => (Location.read? word).map .function

def EntityKind.read? (word : String) : Option EntityKind :=
  match word.toList with
  | '#' :: name => (Location.read? (String.ofList name)).map .among
  | _ => if word = "minecraft:item_display" then some .display else none

/-- A range that is a word of its own. -/
def ScoreRange.ofWord? (word : String) : Option ScoreRange :=
  match read? (word.toList ++ [' ']) with
  | some (range, [' ']) => some range
  | _ => none

def natOfWord? (word : String) : Option Nat :=
  Text.decimal? word.toList

/-! ## Clauses -/

namespace Clause

/-- The entities that a selector searches for. -/
def readSearch? (word : String) : Option Clause := do
  let options ← between? "@e[type=" "]" word
  match Text.cut ',' options with
  | [kind, tag] => return .asEvery (← EntityKind.read? kind) (← between? "tag=" "" tag)
  | [kind, "limit=1", "distance=..1", tag] =>
    return .asNearby (← EntityKind.read? kind) (← between? "tag=" "" tag)
  | _ => none

/-- The tag that the entity itself has to carry or to lack. -/
def readTagTest? (word : String) : Option Clause := do
  let tag ← between? "@s[tag=" "]" word
  match tag.toList with
  | '!' :: lacking => return .ifUntagged (String.ofList lacking)
  | _ => return .ifTagged tag

/-- The clauses that words spell. -/
def readAll? : List String → Option (List Clause)
  | [] => some []
  | "as" :: selector :: words => do
    return (← readSearch? selector) :: (← readAll? words)
  | "at" :: "@s" :: words => do
    return .atSelf :: (← readAll? words)
  | "on" :: "passengers" :: words => do
    return .onPassengers :: (← readAll? words)
  | "if" :: "entity" :: selector :: words => do
    return (← readTagTest? selector) :: (← readAll? words)
  | "if" :: "score" :: holder :: objective :: "matches" :: range :: words => do
    return .ifScore (.read holder) (← Objective.read? objective) (← ScoreRange.ofWord? range)
      :: (← readAll? words)
  | "if" :: "score" :: holder :: objective :: "=" :: other :: against :: words => do
    return .ifSameScore (.read holder) (← Objective.read? objective) (.read other)
      (← Objective.read? against) :: (← readAll? words)
  | "store" :: "result" :: "score" :: holder :: objective :: words => do
    return .storeScore (.read holder) (← Objective.read? objective) :: (← readAll? words)
  | "store" :: "result" :: "entity" :: "@s" :: path :: "int" :: "1" :: words => do
    return .storeData path :: (← readAll? words)
  | _ => none

/-- The clauses that words spell; words of another form are kept as one clause. -/
def readAll (words : List String) : List Clause :=
  (readAll? words).getD [.written (" ".intercalate words)]

end Clause

/-! ## Commands -/

namespace Command

/-- The command that words spell without clauses in front. -/
def readPlain? : List String → Option Command
  | ["scoreboard", "objectives", "add", objective, "dummy"] => do
    return .addObjective (← Objective.read? objective)
  | ["scoreboard", "players", "set", holder, objective, value] => do
    return .setScore (.read holder) (← Objective.read? objective) (← natOfWord? value)
  | ["scoreboard", "players", "add", holder, objective, value] => do
    return .addScore (.read holder) (← Objective.read? objective) (← natOfWord? value)
  | ["scoreboard", "players", "get", holder, objective] => do
    return .getScore (.read holder) (← Objective.read? objective)
  | ["scoreboard", "players", "operation", holder, objective, "=", source, other] => do
    if objective = other then
      return .copyScore (.read holder) (← Objective.read? objective) (.read source)
    else none
  | ["tag", "@s", "add", tag] => some (.addTag tag)
  | ["tag", "@s", "remove", tag] => some (.removeTag tag)
  | ["function", name] => (Callee.read? name).map .call
  | "summon" :: kind :: "~" :: "~" :: "~" :: data => do
    return .summon (← EntityKind.read? kind) (← Snbt.read? (" ".intercalate data))
  | ["kill", "@s"] => some .kill
  | "tellraw" :: "@a" :: message => do
    return .tell (← (Json.parse (" ".intercalate message)).toOption)
  | "data" :: "modify" :: "entity" :: "@s" :: "\x7b\x7d" :: "merge" :: "value" :: data => do
    return .mergeData (← Snbt.read? (" ".intercalate data))
  | ["data", "modify", "entity", "@s", "item.tag.CustomModelData", "set", "value", model] => do
    return .setModel (Int32.ofInt (← Text.signedDecimal? model.toList))
  | _ => none

/-- The command that words spell. -/
def readWords? : List String → Option Command
  | "execute" :: words => do
    let (clauses, command) ← Text.splitAtLast "run" words
    return .execute (Clause.readAll clauses) (← readPlain? command)
  | words => readPlain? words

/-- The command that a line spells. -/
def read? (line : String) : Option Command :=
  readWords? (Text.words line)

end Command

end RigPack

import RigPack.Pack.Blueprint
import RigPack.Pack.Folder
import RigPack.Timeline.Units
import RigPack.Settings.Basic

/-!
# The layout of a pack

Which files a pack holds, and in which order they come.  Files are placed by the folders in which
they lie, while commands call functions by the names that a `Naming` gives; that a name and the file
it stands for agree is not settled here.
-/

namespace RigPack

/-- A folder or a file of a pack, by the path of its folder. -/
inductive Placement
  | folder (path : List String)
  | file (path : List String) (name : String) (content : Content)

namespace Placement

/-- The file of a function, below the folder of all functions of a namespace. -/
def functionFile (space : String) (folder : List String) (name : String)
    (commands : List Command) : Placement :=
  .file (["data", space, "functions"] ++ folder) (name ++ ".mcfunction") (.commands commands)

/-- The content of a list of resources, which adds to what other packs list under its name. -/
def listing (values : List String) : Content :=
  .json (.object [("replace", .bool false), ("values", .strings values)])

/-- The file of a list of functions. -/
def functionList (space name : String) (members : List Location) : Placement :=
  .file ["data", space, "tags", "functions"] (name ++ ".json")
    (listing (members.map Location.text))

/-- The file of a list of entity types. -/
def entityList (space name : String) (members : List EntityKind) : Placement :=
  .file ["data", space, "tags", "entity_types"] (name ++ ".json")
    (listing (members.map EntityKind.text))

/-- The folder with one thing put into its place. -/
def into (folder : Folder) : Placement → Folder
  | .folder path => folder.makeFolder path
  | .file path name content => folder.putFile path name content

end Placement

open Placement

namespace Blueprint

/-! ## Metadata -/

/-- The record of the namespace that a pack belongs to. -/
def record (names : Naming) : Json :=
  .object [("project_namespace", .string names.space)]

/-- What the game is told about a pack. -/
def description (names : Naming) (settings : Settings) : Json :=
  .object [("pack", .object [
    ("description", .string ("\"" ++ names.space ++ "\" A Data Pack generated by animpack.")),
    ("pack_format", .nat settings.packFormat.toNat)])]

/-- The files at the top of a pack, and the folders of its two namespaces. -/
def metadata (names : Naming) (settings : Settings) : List Placement := [
  .file [] metadataFile (.json (record names)),
  .file [] "pack.mcmeta" (.json (description names settings)),
  .folder ["data", names.space],
  .folder ["data", names.internal]]

/-- The lists of functions that the game runs, of entity types, and of what users hook in. -/
def groups (names : Naming) : List Placement := [
  functionList "minecraft" "load" [names.internalFunction ["load"]],
  functionList "minecraft" "tick" [names.internalFunction ["tick"]],
  entityList names.space "aj_root" [.display],
  entityList names.space "aj_bone" [.display],
  functionList names.space "on_summon" [],
  functionList names.space "on_tick" [],
  functionList names.space "on_remove" []]

/-! ## Loading and ticking -/

/-- The holder of the number of the rig that was summoned last. -/
def lastId : Holder :=
  .name ".aj.last_id"

/-- The holder of the position of the variant that is summoned next. -/
def nextLook : Holder :=
  .name ".aj.variant_id"

/-- The holder of the ticks that displays take from frame to frame. -/
def interpolationTicks : Holder :=
  .name "#aj.default_interpolation_duration"

/-- The holder of the score of a loop mode. -/
def loopModeConstant (mode : LoopMode) : Holder :=
  .name ("#aj.loop_mode." ++ mode.word)

/-- What runs when the game loads the pack. -/
def loadCommands (settings : Settings) : List Command :=
  Objective.all.map .addObjective
  ++ [.addScore lastId .id 0,
    .setScore interpolationTicks .scratch settings.interpolation.toNat]
  ++ LoopMode.all.map fun mode => .setScore (loopModeConstant mode) .scratch mode.score

/-- The functions that the game runs itself. -/
def loadAndTick (names : Naming) (settings : Settings) : List Placement := [
  functionFile names.internal [] "load" (loadCommands settings),
  functionFile names.internal [] "tick"
    [.execute [.asEvery (.among names.rootType) names.rootTag]
      (.run (names.internalFunction ["tick_as_root"]))],
  functionFile names.internal [] "tick_as_root"
    [.addScore .self .age 1,
      .run (names.internalFunction ["animations", "tick"]),
      .call (.group (names.group "on_tick"))]]

/-! ## Summoning -/

/-- The data of the display that shows a bone. -/
def Part.data (names : Naming) (item : String) (ticks : Int32) (part : Part) : Snbt :=
  .compound [
    ("id", .string EntityKind.display.text),
    ("Tags", .list [.string freshTag, .string (names.boneTag part.name)]),
    ("item", .compound [
      ("id", .string item),
      ("Count", .int 1),
      ("tag", .compound [("CustomModelData", .int part.model)])]),
    ("transformation", .ofTransform part.rest),
    ("interpolation_duration", .int ticks)]

/-- A number of ticks as the game stores it; one beyond its integers becomes the greatest. -/
def storedTicks (ticks : UInt32) : Int32 :=
  if (ticks.toNat : Int) ≤ Int32.maxValue.toInt then Int32.ofNat ticks.toNat else Int32.maxValue

/-- The data of a rig: a root that carries its bones. -/
def data (blueprint : Blueprint) (settings : Settings) : Snbt :=
  .compound [
    ("Tags", .list [.string freshTag, .string blueprint.names.rootTag]),
    ("Passengers", .list (blueprint.parts.map
      (Part.data blueprint.names blueprint.item (storedTicks settings.interpolation))))]

/-- Summons a rig in the look of that position. -/
def summonLook (names : Naming) (position : Nat) : List Command :=
  [.setScore nextLook .scratch position, .run (names.internalFunction ["summon"])]

/-- The functions that summon the looks other than the default one. -/
def summonOthers (blueprint : Blueprint) : List Placement :=
  (blueprint.looks.zipIdx.filter (!·.1.isDefault)).map fun (look, position) =>
    functionFile blueprint.names.space ["summon"] look.name
      (summonLook blueprint.names position)

/-- What a fresh root runs: it takes a number, has its bones set up and puts on the look. -/
def setUpRoot (blueprint : Blueprint) : List Command :=
  let names := blueprint.names
  [.execute [.storeScore .self .id] (.addScore lastId .id 1),
    .execute [.onPassengers] (.run (names.internalFunction ["summon", "as_bone"]))]
  ++ (blueprint.looks.zipIdx.map fun (look, position) =>
      .execute [.ifScore nextLook .scratch (.exactly position)]
        (.run (names.variantAsRoot look.name)))
  ++ [.removeTag freshTag, .call (.group (names.group "on_summon"))]

/-- The functions that summon a rig. -/
def summoning (blueprint : Blueprint) (settings : Settings) : List Placement :=
  let names := blueprint.names
  [functionFile names.space [] "summon" (summonLook names blueprint.defaultLook),
    functionFile names.space [] "summon_variable_variant"
      [.run (names.internalFunction ["summon"])],
    .folder ["data", names.space, "functions", "summon"]]
  ++ summonOthers blueprint
  ++ [functionFile names.internal [] "summon"
      [.summon .display (blueprint.data settings),
        .execute [.asNearby .display freshTag]
          (.run (names.internalFunction ["summon", "as_root"]))],
    functionFile names.internal ["summon"] "as_root" (setUpRoot blueprint),
    functionFile names.internal ["summon"] "as_bone"
      [.copyScore .self .id lastId, .removeTag freshTag]]

/-! ## Functions for the root only -/

/-- A piece of a message in a color. -/
def colored (color text : String) : Json :=
  .object [("color", .string color), ("text", .string text)]

/-- A piece of a message in the color of what it belongs to. -/
def plain (text : String) : Json :=
  .object [("text", .string text)]

/-- What players read if some other entity runs a function that is for the root. -/
def rootOnlyWarning (location : Location) : Json :=
  .array [
    .string "",
    plain "[",
    colored "aqua" "animpack",
    plain "] ",
    colored "red" "ERROR ☠",
    colored "gray" " > ",
    .array [
      colored "yellow" "The function",
      colored "blue" (" " ++ location.text ++ " "),
      plain "must be run",
      colored "red" " as ",
      plain "the root entity!"]]

/-- What the public function of a path runs: the root runs another function, and any other entity
complains that it ran this one. -/
def rootOnly (names : Naming) (path : List String) (internal : Location) : List Command :=
  [.execute [.ifTagged names.rootTag] (.run internal),
    .execute [.ifUntagged names.rootTag] (.tell (rootOnlyWarning (names.publicFunction path)))]

/-! ## Removing -/

/-- The functions that remove rigs. -/
def removal (names : Naming) : List Placement :=
  let asRoot := names.internalFunction ["remove", "as_root"]
  [functionFile names.space ["remove"] "this" (rootOnly names ["remove", "this"] asRoot),
    functionFile names.space ["remove"] "all"
      [.execute [.asEvery (.among names.rootType) names.rootTag] (.run asRoot)],
    functionFile names.internal ["remove"] "as_root"
      [.execute [.atSelf] (.call (.group (names.group "on_remove"))),
        .execute [.onPassengers] .kill,
        .kill]]

/-! ## Variants -/

/-- What every bone runs when a look is put on: the bone that carries the tag takes the model. -/
def Look.boneCommands (names : Naming) (look : Look) : List Command :=
  look.models.map fun (bone, model) =>
    .execute [.ifTagged (names.boneTag bone)] (.setModel model)

/-- The functions that put on a look. -/
def Look.layout (names : Naming) (look : Look) : List Placement := [
  functionFile names.space ["apply_variant"] look.name
    (rootOnly names ["apply_variant", look.name] (names.variantAsRoot look.name)),
  functionFile names.internal ["apply_variant"] (look.name ++ "_as_root")
    [.execute [.onPassengers] (.run (names.variantAsBone look.name))],
  functionFile names.internal ["apply_variant"] (look.name ++ "_as_bone")
    (look.boneCommands names)]

/-! ## Animations -/

namespace Motion

variable (names : Naming) (motion : Motion)

/-- The name of a function by which players control the animation. -/
def control (action : String) : Location :=
  names.publicFunction ["animations", motion.name, action]

/-- The name of a function that drives the animation. -/
def drive (step : String) : Location :=
  names.internalFunction ["animations", motion.name, step]

/-- Starts over from the first frame. -/
def rewind : Command :=
  .setScore .self .time 0

/-- Marks the root as playing the animation. -/
def activate : Command :=
  .addTag (names.activeTag motion.name)

/-- Ends the mark of the root as playing the animation. -/
def deactivate : Command :=
  .removeTag (names.activeTag motion.name)

/-- Notes what happens at the end of the animation, and has the bones move smoothly. -/
def prepare : List Command :=
  [.setScore .self .loopMode motion.loopMode.score,
    .execute [.onPassengers, .storeData "interpolation_duration"]
      (.getScore interpolationTicks .scratch)]

/-- The functions by which players control the animation. -/
def controls : List Placement :=
  let folder := ["animations", motion.name]
  [functionFile names.space folder "play"
      ([rewind] ++ prepare motion ++ [activate names motion]),
    functionFile names.space folder "resume" (prepare motion ++ [activate names motion]),
    functionFile names.space folder "pause" [deactivate names motion],
    functionFile names.space folder "stop" [rewind, deactivate names motion]]

/-- Runs a command if the root plays in a loop mode. -/
def inMode (mode : LoopMode) (command : Command) : Command :=
  .execute [.ifSameScore .self .loopMode (loopModeConstant mode) .scratch] command

/-- What happens once the last frame is over. -/
def endCommands : List Command :=
  [inMode .loop rewind,
    inMode .once (.run (control names motion "stop")),
    inMode .hold (.run (control names motion "pause"))]

/-- What happens in every tick of the animation. -/
def tickCommands : List Command :=
  [.run (drive names motion "apply_frame"),
    .addScore .self .time 1,
    .execute [.ifScore .self .time (.atLeast motion.duration)]
      (.run (drive names motion "end"))]

/-- The functions that drive the animation. -/
def driving : List Placement :=
  let folder := ["animations", motion.name]
  [functionFile names.internal folder "tick" (tickCommands names motion),
    functionFile names.internal folder "end" (endCommands names motion),
    functionFile names.internal folder "apply_frame"
      [Timeline.dispatch names motion.name motion.timeline]]

/-- The functions of the timeline. -/
def timelineLayout : List Placement :=
  (Timeline.units names motion.name motion.timeline).map fun unit =>
    functionFile names.internal ["animations", motion.name, "tree"] unit.name unit.commands

/-- All functions of the animation. -/
def layout : List Placement :=
  controls names motion ++ driving names motion ++ timelineLayout names motion

end Motion

/-- Has the root go on with every animation that it plays. -/
def animationTick (blueprint : Blueprint) : Placement :=
  functionFile blueprint.names.internal ["animations"] "tick"
    (blueprint.motions.map fun motion =>
      .execute [.ifTagged (blueprint.names.activeTag motion.name)]
        (.run (Motion.drive blueprint.names motion "tick")))

/-! ## The whole pack -/

/-- All files of a pack in order, with the folders that are there even if nothing is in them. -/
def layout (blueprint : Blueprint) (settings : Settings) : List Placement :=
  let names := blueprint.names
  metadata names settings
  ++ groups names
  ++ loadAndTick names settings
  ++ summoning blueprint settings
  ++ removal names
  ++ blueprint.looks.flatMap (Look.layout names)
  ++ [animationTick blueprint]
  ++ blueprint.motions.flatMap (Motion.layout names)

/-- The pack, in a folder that has the name of its namespace. -/
def pack (blueprint : Blueprint) (settings : Settings) : Folder :=
  (blueprint.layout settings).foldl into (Folder.empty blueprint.names.space)

end Blueprint

end RigPack

import RigPack.Pack.Layout

/-!
# Files and the names that stand for them

A function is called by a name, and its file lies in a folder; names are put together in one place
and folders in another.  Here every file of the layout is shown to be the one that a name stands
for: the name by which commands call it, where they do.  What follows about the layout is said of
names, and a folder that drifted away from its name would be noticed here.
-/

namespace RigPack

namespace Placement

/-- The file that a name stands for among the resources of a category. -/
def resource (category : List String) (location : Location) (extension : String)
    (content : Content) : Placement :=
  .file (["data", location.space] ++ category ++ location.path.dropLast)
    (location.path.getLast?.getD "" ++ extension) content

/-- The function that a name stands for. -/
def function (location : Location) (commands : List Command) : Placement :=
  resource ["functions"] location ".mcfunction" (.commands commands)

/-- The list of functions that a name stands for. -/
def functionGroup (location : Location) (members : List Location) : Placement :=
  resource ["tags", "functions"] location ".json" (listing (members.map Location.text))

/-- The list of entity types that a name stands for. -/
def entityGroup (location : Location) (members : List EntityKind) : Placement :=
  resource ["tags", "entity_types"] location ".json" (listing (members.map EntityKind.text))

/-- The name of a function ends in that of its file, behind the folders that it lies in. -/
theorem functionFile_eq (space : String) (folder : List String) (name : String)
    (commands : List Command) :
    functionFile space folder name commands = function ⟨space, folder ++ [name]⟩ commands := by
  simp [functionFile, function, resource]

theorem functionList_eq (space name : String) (members : List Location) :
    functionList space name members = functionGroup ⟨space, [name]⟩ members := rfl

theorem entityList_eq (space name : String) (members : List EntityKind) :
    entityList space name members = entityGroup ⟨space, [name]⟩ members := rfl

end Placement

namespace Blueprint

open Placement

theorem groups_eq (names : Naming) : groups names = [
    functionGroup ⟨"minecraft", ["load"]⟩ [names.internalFunction ["load"]],
    functionGroup ⟨"minecraft", ["tick"]⟩ [names.internalFunction ["tick"]],
    entityGroup names.rootType [.display],
    entityGroup (names.group "aj_bone") [.display],
    functionGroup (names.group "on_summon") [],
    functionGroup (names.group "on_tick") [],
    functionGroup (names.group "on_remove") []] := rfl

theorem loadAndTick_eq (names : Naming) (settings : Settings) : loadAndTick names settings = [
    function (names.internalFunction ["load"]) (loadCommands settings),
    function (names.internalFunction ["tick"])
      [.execute [.asEvery (.among names.rootType) names.rootTag]
        (.run (names.internalFunction ["tick_as_root"]))],
    function (names.internalFunction ["tick_as_root"])
      [.addScore .self .age 1,
        .run (names.internalFunction ["animations", "tick"]),
        .call (.group (names.group "on_tick"))]] := rfl

theorem summonOthers_eq (blueprint : Blueprint) :
    blueprint.summonOthers
      = (blueprint.looks.zipIdx.filter (!·.1.isDefault)).map fun (look, position) =>
          function (blueprint.names.publicFunction ["summon", look.name])
            (summonLook blueprint.names position) := rfl

theorem summoning_eq (blueprint : Blueprint) (settings : Settings) :
    blueprint.summoning settings
      = [function (blueprint.names.publicFunction ["summon"])
          (summonLook blueprint.names blueprint.defaultLook),
        function (blueprint.names.publicFunction ["summon_variable_variant"])
          [.run (blueprint.names.internalFunction ["summon"])],
        .folder ["data", blueprint.names.space, "functions", "summon"]]
      ++ summonOthers blueprint
      ++ [function (blueprint.names.internalFunction ["summon"])
          [.summon .display (blueprint.data settings),
            .execute [.asNearby .display freshTag]
              (.run (blueprint.names.internalFunction ["summon", "as_root"]))],
        function (blueprint.names.internalFunction ["summon", "as_root"]) (setUpRoot blueprint),
        function (blueprint.names.internalFunction ["summon", "as_bone"])
          [.copyScore .self .id lastId, .removeTag freshTag]] := rfl

/-- A function for the root only is the one that its warning names. -/
theorem removal_eq (names : Naming) : removal names = [
    function (names.publicFunction ["remove", "this"])
      (rootOnly names ["remove", "this"] (names.internalFunction ["remove", "as_root"])),
    function (names.publicFunction ["remove", "all"])
      [.execute [.asEvery (.among names.rootType) names.rootTag]
        (.run (names.internalFunction ["remove", "as_root"]))],
    function (names.internalFunction ["remove", "as_root"])
      [.execute [.atSelf] (.call (.group (names.group "on_remove"))),
        .execute [.onPassengers] .kill,
        .kill]] := rfl

theorem Look.layout_eq (names : Naming) (look : Look) : look.layout names = [
    function (names.publicFunction ["apply_variant", look.name])
      (rootOnly names ["apply_variant", look.name] (names.variantAsRoot look.name)),
    function (names.variantAsRoot look.name)
      [.execute [.onPassengers] (.run (names.variantAsBone look.name))],
    function (names.variantAsBone look.name) (look.boneCommands names)] := rfl

namespace Motion

variable (names : Naming) (motion : Motion)

theorem controls_eq : motion.controls names = [
    function (control names motion "play")
      ([rewind] ++ prepare motion ++ [activate names motion]),
    function (control names motion "resume") (prepare motion ++ [activate names motion]),
    function (control names motion "pause") [deactivate names motion],
    function (control names motion "stop") [rewind, deactivate names motion]] := rfl

theorem driving_eq : motion.driving names = [
    function (drive names motion "tick") (tickCommands names motion),
    function (drive names motion "end") (endCommands names motion),
    function (drive names motion "apply_frame")
      [Timeline.dispatch names motion.name motion.timeline]] := rfl

theorem timelineLayout_eq :
    motion.timelineLayout names
      = (Timeline.units names motion.name motion.timeline).map fun unit =>
          function (names.timelineFunction motion.name unit.name) unit.commands := rfl

end Motion

theorem animationTick_eq (blueprint : Blueprint) :
    blueprint.animationTick
      = function (blueprint.names.internalFunction ["animations", "tick"])
          (blueprint.motions.map fun motion =>
            .execute [.ifTagged (blueprint.names.activeTag motion.name)]
              (.run (Motion.drive blueprint.names motion "tick"))) := rfl

end Blueprint

end RigPack

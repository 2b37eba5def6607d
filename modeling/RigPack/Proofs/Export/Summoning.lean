import RigPack.Proofs.Pack.Named
import RigPack.Proofs.Playback.Simulation
import RigPack.Proofs.Snbt.Decoding

/-!
# The data that a rig is summoned with

The function that summons a rig spells the data of all its bones in one argument, from texts
that a user writes and from numbers of several kinds.  This file says what the argument is
read as, whoever reads it: for each bone of the rig, in order, the data of one display with
the bone's item, model, tag and pose at rest, and with the number of ticks that loading the
pack sets, too.

## Main statements

* `summon_data_show_rig`: what every value with the text of the argument holds, and that its
  ticks are those of the load function.

## Strategy

What stands under a path of the data is laid out by `Part.data`.  Any other value with the
text of the data shows the same there (`Snbt.at?_of_shown`), so it is enough to follow the
paths once, in the data themselves.
-/

namespace RigPack

/-- What the data of a display say of the bone that it shows. -/
structure Snbt.ShowsBone (settings : Settings) (project : Project) (bone : Bone) (data : Snbt) :
    Prop where
  kind : data.at? ["id"] = some (.string "minecraft:item_display")
  tags : data.at? ["Tags"]
    = some (.list (["aj.new", project.names.boneTag bone.name].map .string))
  item : data.at? ["item", "id"] = some (.string project.item)
  model : data.at? ["item", "tag", "CustomModelData"] = some (.int bone.model)
  /-- The sixteen numbers of the pose at rest. -/
  pose : ∃ rest : Transform, project.rig.restPose.get? bone.id = some rest ∧
    ∃ numbers, data.at? ["transformation"] = some (.list (numbers.map .float)) ∧
      List.Forall₂ Binary.Number.Alike numbers rest.toList
  /-- The ticks fit into the integers of the game, and are those of the settings. -/
  ticks : ∃ ticks : Int32, data.at? ["interpolation_duration"] = some (.int ticks) ∧
    ticks.toInt = settings.interpolation.toNat

namespace Export

/-- The ticks of accepted settings fit into the integers of the game. -/
theorem interpolation_le_of_build {settings : Settings} {project : Project} {pack : Folder}
    (h : build settings project = .ok pack) :
    (settings.interpolation.toNat : Int) ≤ Int32.maxValue.toInt := by
  obtain ⟨_, hcheck, -⟩ := bind_eq_ok.1 h
  simp only [check, test_eq_ok] at hcheck
  obtain ⟨-, -, -, hticks, -⟩ := hcheck
  exact Int.not_lt.1 hticks

end Export

namespace Blueprint

/-- Ticks that fit are stored as they are. -/
theorem toInt_storedTicks {ticks : UInt32} (h : (ticks.toNat : Int) ≤ Int32.maxValue.toInt) :
    (storedTicks ticks).toInt = ticks.toNat := by
  have hmax : Int32.maxValue.toInt = 2 ^ 31 - 1 := by decide
  unfold storedTicks
  rw [if_pos h]
  exact Int32.toInt_ofNat_of_lt (by omega)

theorem ofBone_eq_ok {rig : Rig} {bone : Bone} {part : Part}
    (h : Part.ofBone rig bone = .ok part) :
    part.name = bone.name ∧ part.model = bone.model ∧
      rig.restPose.get? bone.id = some part.rest := by
  simp only [Part.ofBone, bind_eq_ok, pure_eq_ok] at h
  obtain ⟨rest, hrest, rfl⟩ := h
  refine ⟨rfl, rfl, ?_⟩
  unfold Rig.rest at hrest
  split at hrest
  · rename_i hfound
    rw [← Except.ok.inj hrest]
    exact hfound
  · contradiction

section Shown

variable {settings : Settings} {project : Project}
  (hticks : (settings.interpolation.toNat : Int) ≤ Int32.maxValue.toInt)

include hticks

/-- What shows the data of a part shows the bone that the part is made of. -/
theorem showsBone_of_shown {bone : Bone} {part : Part}
    (hpart : Part.ofBone project.rig bone = .ok part) {data : Snbt}
    (hdata : data.shown
      = (part.data project.names project.item (storedTicks settings.interpolation)).shown) :
    data.ShowsBone settings project bone := by
  obtain ⟨hname, hmodel, hrest⟩ := ofBone_eq_ok hpart
  have hpath (path : List String) {target : Snbt}
      (htarget : (part.data project.names project.item (storedTicks settings.interpolation)).at?
        path = some target) :
      ∃ found, data.at? path = some found ∧ found.shown = target.shown :=
    Snbt.at?_of_shown hdata path htarget
  refine ⟨?_, ?_, ?_, ?_, ⟨part.rest, hrest, ?_⟩, ⟨_, ?_, toInt_storedTicks hticks⟩⟩
  · obtain ⟨kind, hkind, hshown⟩ := hpath ["id"] rfl
    rw [hkind, Snbt.eq_string_of_shown hshown]
    rfl
  · obtain ⟨tags, htags, hshown⟩ := hpath ["Tags"] rfl
    rw [htags, ← hname]
    exact congrArg some
      (Snbt.eq_strings_of_shown [freshTag, project.names.boneTag part.name] hshown)
  · obtain ⟨item, hitem, hshown⟩ := hpath ["item", "id"] rfl
    rw [hitem, Snbt.eq_string_of_shown hshown]
  · obtain ⟨model, hfound, hshown⟩ := hpath ["item", "tag", "CustomModelData"] rfl
    rw [hfound, Snbt.eq_int_of_shown hshown, hmodel]
  · obtain ⟨pose, hpose, hshown⟩ := hpath ["transformation"] rfl
    obtain ⟨numbers, rfl, halike⟩ := Snbt.eq_floats_of_shown hshown
    exact ⟨numbers, hpose, halike⟩
  · obtain ⟨ticks, hfound, hshown⟩ := hpath ["interpolation_duration"] rfl
    rw [hfound, Snbt.eq_int_of_shown hshown]

/-- What the data of a rig show, bone by bone. -/
theorem passengers_of_text_eq {blueprint : Blueprint}
    (hblueprint : ofProject project = .ok blueprint) {value : Snbt}
    (htext : value.text = (blueprint.data settings).text) :
    ∃ passengers, value.at? ["Passengers"] = some (.list passengers) ∧
      List.Forall₂ (Snbt.ShowsBone settings project) project.rig.bones passengers := by
  have hnames : blueprint.names = project.names := Export.names_ofProject hblueprint
  have hitem := item_ofProject hblueprint
  obtain ⟨list, hlist, hlist'⟩ :=
    Snbt.at?_of_shown (Snbt.shown_eq_of_text_eq htext) ["Passengers"] rfl
  obtain ⟨passengers, rfl, hpassengers⟩ := Snbt.eq_list_of_shown hlist'
  refine ⟨passengers, hlist, ?_⟩
  rw [List.forall₂_map_left_iff, hnames, hitem] at hpassengers
  exact forall₂_comp (parts_ofProject hblueprint) hpassengers fun hpart hdata =>
    showsBone_of_shown hticks hpart hdata

end Shown

/-- The load function sets the ticks of displays to those of the settings, and to nothing else. -/
theorem setScore_mem_loadCommands_iff (settings : Settings) (value : ℕ) :
    .setScore (.name "#aj.default_interpolation_duration") .scratch value ∈ loadCommands settings ↔
      value = settings.interpolation.toNat := by
  simp [loadCommands, interpolationTicks, loopModeConstant, LoopMode.all, LoopMode.word]

end Blueprint

open Blueprint

/-- The function that summons a rig of an accepted project starts with one line that has data as its
argument.  Whatever value is read from the argument, if only its text is the argument: its
passengers are one for each bone of the rig, in order, each with the bone's item, model, tag and
pose at rest, and with the ticks of the settings.  These are what the load function sets, too, and
they fit into the integers of the game. -/
theorem summon_data_show_rig {settings : Settings} {project : Project} {pack : Folder}
    (hbuild : Export.build settings project = .ok pack) :
    ∃ data others loading,
      pack.function? (project.names.internalFunction ["summon"]).text
        = some (.summon .display data :: others) ∧
      (Command.summon .display data).text = "summon minecraft:item_display ~ ~ ~ " ++ data.text ∧
      (∀ value : Snbt, value.text = data.text → ∃ passengers,
        value.at? ["Passengers"] = some (.list passengers) ∧
        List.Forall₂ (Snbt.ShowsBone settings project) project.rig.bones passengers) ∧
      pack.function? (project.names.internalFunction ["load"]).text = some loading ∧
      (∀ ticks, .setScore (.name "#aj.default_interpolation_duration") .scratch ticks ∈ loading ↔
        ticks = settings.interpolation.toNat) ∧
      (settings.interpolation.toNat : Int) ≤ Int32.maxValue.toInt := by
  have hticks := Export.interpolation_le_of_build hbuild
  obtain ⟨blueprint, haccepted, hblueprint, rfl⟩ := Export.build_eq_ok hbuild
  have hsound := sound_of_build haccepted hblueprint
  have hnames : project.names = blueprint.names := (Export.names_ofProject hblueprint).symm
  rw [hnames]
  refine ⟨_, _, _, hsound.function?_pack (blueprint.summon_mem_layout settings), rfl,
    fun value htext => passengers_of_text_eq hticks hblueprint htext,
    hsound.function?_pack ?_, setScore_mem_loadCommands_iff settings, hticks⟩
  simp [layout, loadAndTick_eq]

/-- A rig of two bones that shows an item with quotes in its name and takes as many ticks as the
game can store. -/
theorem summon_data_show_two_bones :
    ∃ (project : Project) (pack : Folder) (data : Snbt) (others loading : List Command),
      Export.build ⟨"packs", 2147483647, 12⟩ project = .ok pack ∧
      pack.function? "zzz_fox_internal:summon" = some (.summon .display data :: others) ∧
      pack.function? "zzz_fox_internal:load" = some loading ∧
      .setScore (.name "#aj.default_interpolation_duration") .scratch 2147483647 ∈ loading ∧
      ∀ value : Snbt, value.text = data.text → ∃ (head tail : Snbt) (ticks : Int32),
        value.at? ["Passengers"] = some (.list [head, tail]) ∧
        head.at? ["item", "id"] = some (.string "a\",\\\"") ∧
        tail.at? ["item", "tag", "CustomModelData"] = some (.int (-2)) ∧
        tail.at? ["interpolation_duration"] = some (.int ticks) ∧ ticks.toInt = 2147483647 := by
  let head : Bone := ⟨"h", "head", 1⟩
  let tail : Bone := ⟨"t", "tail", -2⟩
  let rig : Rig :=
    ⟨[head, tail], (Table.empty.insert "h" default).insert "t" default, .empty⟩
  let project : Project := ⟨"fox", "a\",\\\"", rig, [⟨"plain", true, [], false⟩], []⟩
  have haccepted : (Export.build ⟨"packs", 2147483647, 12⟩ project).toOption.isSome = true := by
    decide +kernel
  obtain ⟨pack, hbuild⟩ := exists_ok_of_isSome haccepted
  obtain ⟨data, others, loading, hsummon, -, hvalues, hload, hticks, -⟩ :=
    summon_data_show_rig hbuild
  refine ⟨project, pack, data, others, loading, hbuild, hsummon, hload, (hticks _).2 rfl,
    fun value htext => ?_⟩
  obtain ⟨passengers, hpassengers, hshown⟩ := hvalues value htext
  -- one passenger for each of the two bones
  obtain _ | ⟨hhead, _ | ⟨htail, ⟨⟩⟩⟩ := hshown
  obtain ⟨ticks, hstored, hequal⟩ := htail.ticks
  exact ⟨_, _, ticks, hpassengers, hhead.item, htail.model, hstored, hequal⟩

end RigPack

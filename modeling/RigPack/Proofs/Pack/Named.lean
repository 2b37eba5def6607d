import RigPack.Proofs.Pack.Clash

/-!
# The names of a pack are resource names

An export checks the names that a project brings, and puts together from them the names of
files and folders: with a word in front, a number or an ending behind.  What comes of it is
made of the same characters and is never one of the two that consist of dots, so it would
pass the check as well (`isResourceName_append`).

## Main statements

* `named_of_build`: the names in the blueprint of an accepted project are resource names.
* `Named.segments_function`, `Named.segments_place`, `Named.segments_dir`: so are all
  segments of the functions, files and folders of its pack.
-/

namespace RigPack

/-! ## Names put together -/

theorem all_isNameChar_of_isResourceName {name : String} (h : isResourceName name = true) :
    name.toList.all isNameChar = true := by
  simp only [isResourceName, Bool.and_eq_true] at h
  exact h.1.1.2

theorem isNameChar_of_isResourceName {name : String} (h : isResourceName name = true) :
    ∀ c ∈ name.toList, isNameChar c = true :=
  List.all_eq_true.1 (all_isNameChar_of_isResourceName h)

theorem ne_dots_of_isResourceName {name : String} (h : isResourceName name = true) :
    name ≠ "." ∧ name ≠ ".." := by
  simp only [isResourceName, Bool.and_eq_true, decide_eq_true_eq] at h
  exact ⟨h.1.2, h.2⟩

/-- A text of name characters that is longer than two dots is a resource name. -/
theorem isResourceName_of_length {name : String} (hlength : 2 < name.length)
    (hchars : name.toList.all isNameChar = true) : isResourceName name = true := by
  have hne (other : String) (hother : other.length ≤ 2) : name ≠ other := by
    rintro rfl
    omega
  simp only [isResourceName, Bool.and_eq_true, decide_eq_true_eq]
  exact ⟨⟨⟨by simpa using hne "" (by decide), hchars⟩, hne "." (by decide)⟩, hne ".." (by decide)⟩

/-- Two texts of name characters, one of them long enough, make a resource name. -/
theorem isResourceName_append {front back : String}
    (hlength : 2 < front.length ∨ 2 < back.length)
    (hfront : front.toList.all isNameChar = true) (hback : back.toList.all isNameChar = true) :
    isResourceName (front ++ back) = true := by
  refine isResourceName_of_length ?_ ?_
  · rw [String.length_append]
    omega
  · rw [String.toList_append, List.all_append, hfront, hback, Bool.and_self]

/-- A resource name stays one with an ending. -/
theorem isResourceName_ending {name ending : String} (hname : isResourceName name = true)
    (hlength : 2 < ending.length) (hending : ending.toList.all isNameChar = true) :
    isResourceName (name ++ ending) = true :=
  isResourceName_append (.inr hlength) (all_isNameChar_of_isResourceName hname) hending

theorem all_isNameChar_toString (n : Nat) : (toString n).toList.all isNameChar = true := by
  refine List.all_eq_true.2 fun c hc => ?_
  rw [Text.toList_toString] at hc
  simp [isNameChar, Text.isDigit_of_mem_toDigits hc]

theorem isResourceName_internal {names : Naming} (h : isResourceName names.space = true) :
    isResourceName names.internal = true := by
  have hfront : isResourceName ("zzz_" ++ names.space) = true :=
    isResourceName_append (.inl (by decide)) (by decide) (all_isNameChar_of_isResourceName h)
  exact isResourceName_ending hfront (by decide) (by decide)

/-- The name of every function of a timeline is a resource name. -/
theorem isResourceName_key (key : UnitKey) : isResourceName key.name = true := by
  have hnumber {front : String} (hlength : 2 < front.length)
      (hfront : front.toList.all isNameChar = true) (n : Nat) :
      isResourceName (front ++ toString n) = true :=
    isResourceName_append (.inl hlength) hfront (all_isNameChar_toString n)
  have hleaf (n : Nat) : isResourceName ("leaf_" ++ toString n) = true :=
    hnumber (by decide) (by decide) n
  cases key with
  | branch min max =>
      have hmin : isResourceName ("branch_" ++ toString min) = true :=
        hnumber (by decide) (by decide) min
      have hlength : 2 < ("branch_" ++ toString min ++ "_").length := by
        rw [String.length_append, String.length_append]
        exact Nat.lt_add_right _ (Nat.lt_add_right _ (by decide))
      refine hnumber hlength ?_ max
      rw [String.toList_append, List.all_append, all_isNameChar_of_isResourceName hmin]
      decide
  | root index => exact hleaf index
  | bone index => exact isResourceName_ending (hleaf index) (by decide) (by decide)
  | commands index => exact isResourceName_ending (hleaf index) (by decide) (by decide)

theorem isResourceName_of_mem_units {names : Naming} {animation : String} {node : Timeline}
    {unit : FunctionUnit} (h : unit ∈ Timeline.units names animation node) :
    isResourceName unit.name = true := by
  have hmem : unit.name ∈ (Timeline.units names animation node).map (·.name) :=
    List.mem_map_of_mem h
  rw [Timeline.names_units] at hmem
  obtain ⟨key, -, hkey⟩ := List.mem_map.1 hmem
  rw [← hkey]
  exact isResourceName_key key

/-! ## The names of a blueprint -/

namespace Blueprint

open Placement

/-- Whether the names that a blueprint has from its project are resource names. -/
structure Named (blueprint : Blueprint) : Prop where
  space : isResourceName blueprint.names.space = true
  parts : ∀ part ∈ blueprint.parts, isResourceName part.name = true
  looks : ∀ look ∈ blueprint.looks, isResourceName look.name = true
  /-- The bones that a look gives models to. -/
  models : ∀ look ∈ blueprint.looks, ∀ model ∈ look.models, isResourceName model.1 = true
  motions : ∀ motion ∈ blueprint.motions, isResourceName motion.name = true
  /-- The bones that a frame moves. -/
  poses : ∀ motion ∈ blueprint.motions, ∀ index frame, motion.timeline.HasLeaf index frame →
    ∀ pose ∈ frame.poses, isResourceName pose.1 = true

theorem item_ofProject {project : Project} {blueprint : Blueprint}
    (h : ofProject project = .ok blueprint) : blueprint.item = project.item := by
  simp only [ofProject, bind_eq_ok, pure_eq_ok] at h
  obtain ⟨variants, -, parts, -, looks, -, motions, -, rfl⟩ := h
  rfl

/-- The parts of a blueprint stand beside the bones of the rig. -/
theorem parts_ofProject {project : Project} {blueprint : Blueprint}
    (h : ofProject project = .ok blueprint) :
    List.Forall₂ (fun bone part => Part.ofBone project.rig bone = .ok part) project.rig.bones
      blueprint.parts := by
  simp only [ofProject, bind_eq_ok, pure_eq_ok] at h
  obtain ⟨variants, -, parts, hparts, looks, -, motions, -, rfl⟩ := h
  exact mapM_eq_ok.1 hparts

theorem name_ofBone {rig : Rig} {bone : Bone} {part : Part} (h : Part.ofBone rig bone = .ok part) :
    part.name = bone.name := by
  simp only [Part.ofBone, bind_eq_ok, pure_eq_ok] at h
  obtain ⟨rest, -, rfl⟩ := h
  rfl

/-- The parts of a blueprint have the names of the bones. -/
theorem names_parts {project : Project} {blueprint : Blueprint}
    (h : ofProject project = .ok blueprint) :
    blueprint.parts.map (·.name) = project.rig.bones.map (·.name) :=
  map_eq_map_of_forall₂ (parts_ofProject h) fun hok => (name_ofBone hok).symm

/-- A look gives models to bones of the rig. -/
theorem exists_bone_of_ofVariant {rig : Rig} {variant : Variant} {look : Look}
    (h : Look.ofVariant rig variant = .ok look) :
    ∀ model ∈ look.models, ∃ bone ∈ rig.bones, model.1 = bone.name := by
  simp only [Look.ofVariant, bind_eq_ok, pure_eq_ok] at h
  obtain ⟨models, hmodels, rfl⟩ := h
  intro model hmodel
  obtain ⟨bone, hbone, hok⟩ := exists_left_of_forall₂ (mapM_eq_ok.1 hmodels) hmodel
  obtain ⟨number, -, hpair⟩ := bind_eq_ok.1 hok
  rw [← pure_eq_ok.1 hpair]
  exact ⟨bone, List.mem_of_mem_filter hbone, rfl⟩

/-- A keyframe has the poses that its frame gives to bones of the rig. -/
theorem ofFrame_eq_ok {rig : Rig} {variants : VariantSet} {animation : String} {index : Nat}
    {frame : Frame} {keyframe : Keyframe}
    (h : Keyframe.ofFrame rig variants animation index frame = .ok keyframe) :
    keyframe = ⟨frame.posesIn rig, frame.commands, frame.switch⟩ := by
  unfold Keyframe.ofFrame at h
  split at h
  · contradiction
  split at h
  · contradiction
  exact (Except.ok.inj h).symm

theorem named_of_build {settings : Settings} {project : Project} {blueprint : Blueprint}
    (haccepted : Export.Accepted settings project) (h : ofProject project = .ok blueprint) :
    blueprint.Named := by
  obtain ⟨set, hset, hnames, hlooks, hmotions⟩ := Export.ofProject_eq_ok h
  rw [variants_ofList hset] at hlooks
  refine ⟨hnames ▸ haccepted.space, ?_, ?_, ?_, ?_, ?_⟩
  · intro part hpart
    obtain ⟨bone, hbone, hok⟩ := exists_left_of_forall₂ (parts_ofProject h) hpart
    rw [name_ofBone hok]
    exact haccepted.bones bone hbone
  · intro look hlook
    obtain ⟨variant, hvariant, hok⟩ := exists_left_of_forall₂ hlooks hlook
    rw [name_ofVariant hok]
    exact haccepted.variants variant hvariant
  · intro look hlook model hmodel
    obtain ⟨variant, -, hok⟩ := exists_left_of_forall₂ hlooks hlook
    obtain ⟨bone, hbone, hname⟩ := exists_bone_of_ofVariant hok model hmodel
    rw [hname]
    exact haccepted.bones bone hbone
  · intro motion hmotion
    have hmem := List.mem_map_of_mem (f := (·.name)) hmotion
    rw [names_motions h] at hmem
    obtain ⟨animation, hanimation, hname⟩ := List.mem_map.1 hmem
    rw [← hname]
    exact haccepted.animations animation hanimation
  · intro motion hmotion index frame hleaf pose hpose
    obtain ⟨animation, -, hok⟩ := exists_left_of_forall₂ hmotions hmotion
    obtain ⟨frames, -, htimeline, -, -⟩ := ofAnimation_eq_ok hok
    obtain ⟨source, -, hframe⟩ := RangeTree.hasLeaf_of_traverse htimeline hleaf
    rw [ofFrame_eq_ok hframe] at hpose
    obtain ⟨bone, hbone, hfound⟩ := List.mem_filterMap.1 hpose
    obtain ⟨transform, -, rfl⟩ := Option.map_eq_some_iff.1 hfound
    exact haccepted.bones bone hbone

/-! ## Segments -/

namespace Named

variable {blueprint : Blueprint} (hnamed : blueprint.Named)

include hnamed

/-- The namespace and all segments of the name of a function are resource names. -/
theorem segments_function {location : Location} (h : location ∈ blueprint.functions) :
    ∀ segment ∈ location.space :: location.path, isResourceName segment = true := by
  have hspace := hnamed.space
  simp only [functions, basicFunctions, summonFunctions, removalFunctions, Look.functions,
    Motion.functions, List.mem_append, List.mem_cons, List.not_mem_nil, or_false,
    List.mem_flatMap, List.mem_map] at h
  have hpublic {path : List String} (hpath : ∀ segment ∈ path, isResourceName segment = true) :
      ∀ segment ∈ (blueprint.names.publicFunction path).space ::
        (blueprint.names.publicFunction path).path, isResourceName segment = true :=
    List.forall_mem_cons.2 ⟨hspace, hpath⟩
  have hinternal {path : List String} (hpath : ∀ segment ∈ path, isResourceName segment = true) :
      ∀ segment ∈ (blueprint.names.internalFunction path).space ::
        (blueprint.names.internalFunction path).path, isResourceName segment = true :=
    List.forall_mem_cons.2 ⟨isResourceName_internal hspace, hpath⟩
  rcases h with ((((h | h) | h) | ⟨look, hlook, h⟩) | rfl) | ⟨motion, hmotion, h⟩
  · rcases h with rfl | rfl | rfl <;> exact hinternal (by decide)
  · rcases h with ((rfl | rfl) | ⟨⟨look, position⟩, hlook, rfl⟩) | rfl | rfl | rfl
    · exact hpublic (by decide)
    · exact hpublic (by decide)
    · have hmem := List.mk_mem_zipIdx_iff_getElem?.1 (List.mem_of_mem_filter hlook)
      have hname := hnamed.looks look (List.mem_of_getElem? hmem)
      have hfront : isResourceName "summon" = true := by decide
      exact hpublic (by simp [hfront, hname])
    all_goals exact hinternal (by decide)
  · rcases h with rfl | rfl | rfl
    · exact hpublic (by decide)
    · exact hpublic (by decide)
    · exact hinternal (by decide)
  · have hname := hnamed.looks look hlook
    have hfront : isResourceName "apply_variant" = true := by decide
    rcases h with rfl | rfl | rfl
    · exact hpublic (by simp [hfront, hname])
    · have hroot : isResourceName (look.name ++ "_as_root") = true :=
        isResourceName_ending hname (by decide) (by decide)
      exact hinternal (by simp [hfront, hroot])
    · have hbone : isResourceName (look.name ++ "_as_bone") = true :=
        isResourceName_ending hname (by decide) (by decide)
      exact hinternal (by simp [hfront, hbone])
  · exact hinternal (by decide)
  · have hname := hnamed.motions motion hmotion
    have hfront : isResourceName "animations" = true := by decide
    rcases h with (⟨action, haction, rfl⟩ | ⟨step, hstep, rfl⟩) | ⟨unit, hunit, rfl⟩
    · have haction : isResourceName action = true := by
        rcases haction with rfl | rfl | rfl | rfl <;> decide
      exact hpublic (by simp [hfront, hname, haction])
    · have hstep : isResourceName step = true := by
        rcases hstep with rfl | rfl | rfl <;> decide
      exact hinternal (by simp [hfront, hname, hstep])
    · have htree : isResourceName "tree" = true := by decide
      have hunit := isResourceName_of_mem_units hunit
      exact hinternal (by simp [Naming.timelinePath, hfront, hname, htree, hunit])

/-- So are all segments of the place of a file, and its name. -/
theorem segments_place {place : List String × String}
    (h : place ∈ otherPlaces blueprint.names ++ blueprint.functions.map functionPlace) :
    ∀ segment ∈ place.1 ++ [place.2], isResourceName segment = true := by
  have hdata : isResourceName "data" = true := by decide
  rcases List.mem_append.1 h with h | h
  · have hspace := hnamed.space
    have hfixed : ∀ segment ∈ [metadataFile, "pack.mcmeta", "tags", "functions", "entity_types",
        "minecraft", "load.json", "tick.json", "aj_root.json", "aj_bone.json", "on_summon.json",
        "on_tick.json", "on_remove.json"], isResourceName segment = true := by decide
    simp only [List.forall_mem_cons] at hfixed
    simp only [otherPlaces, List.mem_cons, List.not_mem_nil, or_false] at h
    rcases h with rfl | rfl | rfl | rfl | rfl | rfl | rfl | rfl | rfl <;>
      simp_all [resourcePlace, Naming.rootType, Naming.group]
  · obtain ⟨location, hlocation, rfl⟩ := List.mem_map.1 h
    have hsegments := hnamed.segments_function hlocation
    obtain ⟨hspace, hpath⟩ := List.forall_mem_cons.1 hsegments
    have hcategory : isResourceName "functions" = true := by decide
    intro segment hsegment
    simp only [functionPlace, resourcePlace, List.mem_append, List.mem_cons, List.not_mem_nil,
      or_false] at hsegment
    rcases hsegment with (((rfl | rfl) | rfl) | hsegment) | rfl
    · exact hdata
    · exact hspace
    · exact hcategory
    · exact hpath segment (List.dropLast_subset _ hsegment)
    · -- the ending alone makes the name of a file long enough
      refine isResourceName_append (.inr (by decide)) ?_ (by decide)
      cases hlast : location.path.getLast? with
      | none => rfl
      | some last =>
          exact all_isNameChar_of_isResourceName (hpath last (List.mem_of_getLast? hlast))

/-- So are all segments of the path of a folder. -/
theorem segments_dir {dir : List String} (h : dir ∈ blueprint.dirs) :
    ∀ segment ∈ dir, isResourceName segment = true := by
  have hplaces : (otherPlaces blueprint.names).map (·.1)
      ++ blueprint.functions.map (fun location => (functionPlace location).1)
      = (otherPlaces blueprint.names ++ blueprint.functions.map functionPlace).map (·.1) := by
    rw [List.map_append, List.map_map]
    rfl
  rw [dirs, hplaces, List.mem_append] at h
  rcases h with h | h
  · obtain ⟨place, hplace, rfl⟩ := List.mem_map.1 h
    intro segment hsegment
    exact hnamed.segments_place hplace segment (List.mem_append_left _ hsegment)
  · have hspace := hnamed.space
    have hinternal := isResourceName_internal hspace
    have hdata : isResourceName "data" = true := by decide
    have hfunctions : isResourceName "functions" = true := by decide
    have hsummon : isResourceName "summon" = true := by decide
    simp only [List.mem_cons, List.not_mem_nil, or_false] at h
    rcases h with rfl | rfl | rfl <;> simp [hspace, hinternal, hdata, hfunctions, hsummon]

end Named

end Blueprint

end RigPack

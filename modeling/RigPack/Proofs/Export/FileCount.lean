import RigPack.Proofs.Export.Validity
import RigPack.Proofs.Pack.Named

/-!
# No file of a pack is lost

A file that is put where there is one already replaces it without a word.  While a pack is
put together this never happens, since no two of its files have one place.  So the pack has
as many files as were put into it, and these are counted from the project: the fixed ones,
four for each variant, and for an animation its controls and the functions of its timeline.

## Main statements

* `Folder.fileAt?_intercalate`: a file is found by the text of its path.
* `Timeline.length_units_of_balanced`: how many functions a timeline has.
* `Blueprint.Sound.length_entries`: a pack has as many files as it has places for them.
* `Export.build_keeps_files`: every file is put into a place of its own and found there.
-/

namespace RigPack

/-- A file is found by the text that joins the segments of its path. -/
theorem Folder.fileAt?_intercalate (folder : Folder) {path : List String} {name : String}
    (hpath : ∀ segment ∈ path, Path.IsSegment segment) (hname : '/' ∉ name.toList) :
    folder.fileAt? ("/".intercalate (path ++ [name])) = folder.file? path name := by
  cases path with
  | cons segment path =>
      rw [fileAt?, Path.splitLast_intercalate (List.cons_ne_nil segment path) hname]
      simp only
      rw [Path.segments_intercalate hpath]
  | nil =>
      have htake : name.toList.reverse.takeWhile (· ≠ '/') = name.toList.reverse := by
        refine List.takeWhile_eq_self_iff.2 fun c hc => ?_
        have hne : c ≠ '/' := fun heq => hname (heq ▸ List.mem_reverse.1 hc)
        simpa using hne
      have hsplit : Path.splitLast name = ("", name) := by
        unfold Path.splitLast
        simp only [htake]
        simp
      rw [fileAt?, List.nil_append, String.intercalate_singleton, hsplit]
      rfl

/-! ## The functions of a timeline -/

theorem Timeline.length_leafUnits (names : Naming) (animation : String) (index : Nat)
    (frame : Keyframe) :
    (leafUnits names animation index frame).length
      = 2 + if frame.commands.isSome then 1 else 0 := by
  cases hcommands : frame.commands <;> simp [leafUnits, hcommands]

/-- A timeline has two functions for each frame, one more for a frame with commands, and one
for each branch, of which there is one less than there are frames. -/
theorem Timeline.length_units_of_balanced (names : Naming) (name : String) {rig : Rig}
    {variants : VariantSet} (low : Nat) (frames : List Frame) (hframes : frames ≠ [])
    {timeline : Timeline}
    (h : ofFrames rig variants name (RangeTree.balanced low frames hframes) = .ok timeline) :
    (units names name timeline).length + 1
      = 3 * frames.length + frames.countP (·.commands.isSome) := by
  unfold ofFrames at h
  revert timeline
  fun_induction RangeTree.balanced low frames hframes with
  | case1 low frame =>
      intro timeline h
      obtain ⟨keyframe, hkeyframe, rfl⟩ := RangeTree.traverse_leaf_eq_ok.1 h
      rw [Blueprint.ofFrame_eq_ok hkeyframe, units, length_leafUnits]
      simp [List.countP_cons]
      omega
  | case2 low first second rest _ lower _ ihlower =>
      rename_i ihupper
      intro timeline h
      obtain ⟨children, hchildren, rfl⟩ := RangeTree.traverse_branch_eq_ok.1 h
      obtain ⟨below, others, hbelow, hothers, rfl⟩ := RangeTree.traverseAll_cons_eq_ok.1 hchildren
      obtain ⟨above, others, habove, hnone, rfl⟩ := RangeTree.traverseAll_cons_eq_ok.1 hothers
      obtain rfl := pure_eq_ok.1 hnone
      have hlower := ihlower hbelow
      have hupper := ihupper habove
      have hlength : ((first :: second :: rest).take lower).length
          + ((first :: second :: rest).drop lower).length = (first :: second :: rest).length := by
        rw [← List.length_append, List.take_append_drop]
      have hcount : ((first :: second :: rest).take lower).countP (·.commands.isSome)
          + ((first :: second :: rest).drop lower).countP (·.commands.isSome)
          = (first :: second :: rest).countP (·.commands.isSome) := by
        rw [← List.countP_append, List.take_append_drop]
      rw [units, List.length_append, unitsOf_eq_flatMap, List.length_flatMap]
      simp only [List.map_cons, List.map_nil, List.sum_cons, List.sum_nil, List.length_singleton]
      omega

namespace Blueprint

open Placement

/-! ## The places of a pack, counted -/

/-- A pack has as many files as there are places for them. -/
theorem Sound.length_entries {blueprint : Blueprint} (hsound : blueprint.Sound)
    (settings : Settings) :
    (blueprint.pack settings).entries.length
      = (otherPlaces blueprint.names).length + blueprint.functions.length := by
  have htidy := hsound.tidy_pack settings
  have hplaces := places_nodup hsound settings
  rw [places_layout] at hplaces
  have hmem (place : List String × String) :
      place ∈ (blueprint.pack settings).entries.map Folder.key ↔
        place ∈ otherPlaces blueprint.names ++ blueprint.functions.map functionPlace := by
    have hfound : ((blueprint.pack settings).file? place.1 place.2).isSome = true ↔ _ :=
      isSome_file?_pack
    rw [← hfound, Option.isSome_iff_exists]
    constructor
    · intro h
      obtain ⟨⟨path, file⟩, hentry, rfl⟩ := List.mem_map.1 h
      exact ⟨file, htidy.mem_entries_iff.1 hentry⟩
    · rintro ⟨file, hfile⟩
      rw [Folder.file?_eq] at hfile
      obtain ⟨-, hname⟩ := mem_of_find?_key hfile
      rw [← Folder.file?_eq, ← hname] at hfile
      exact List.mem_map.2 ⟨_, htidy.mem_entries_iff.2 hfile, Prod.ext rfl hname⟩
  have hperm := (List.perm_ext_iff_of_nodup htidy.keys_nodup hplaces).2 hmem
  have hlength := hperm.length_eq
  rwa [List.length_map, List.length_append, List.length_map] at hlength

theorem isDefault_ofVariant {rig : Rig} {variant : Variant} {look : Look}
    (h : Look.ofVariant rig variant = .ok look) : look.isDefault = variant.isDefault := by
  simp only [Look.ofVariant, bind_eq_ok, pure_eq_ok] at h
  obtain ⟨models, -, rfl⟩ := h
  rfl

theorem length_motion_functions (names : Naming) {rig : Rig} {variants : VariantSet}
    {animation : Animation} {motion : Motion}
    (h : Motion.ofAnimation rig variants animation = .ok motion) :
    (motion.functions names).length
      = 3 * animation.frames.length + 6 + animation.frames.countP (·.commands.isSome) := by
  obtain ⟨frames, hframes, htimeline, -, hmotion⟩ := ofAnimation_eq_ok h
  obtain ⟨hne, rfl⟩ := RangeTree.ofTimeline_eq_ok hframes
  have hunits := Timeline.length_units_of_balanced names animation.name 0 _ hne htimeline
  have hname : motion.name = animation.name := by rw [hmotion]
  simp only [Motion.functions, List.length_append, List.length_map, List.length_cons,
    List.length_nil, hname]
  omega

variable {project : Project} {blueprint : Blueprint} (h : ofProject project = .ok blueprint)

include h

theorem length_looks : blueprint.looks.length = project.variants.length := by
  obtain ⟨set, hset, -, hlooks, -⟩ := Export.ofProject_eq_ok h
  rw [← hlooks.length_eq, variants_ofList hset]

/-- All looks but one are summoned by a function of their own. -/
theorem length_summonOthers :
    (blueprint.looks.zipIdx.filter (!·.1.isDefault)).length + 1 = project.variants.length := by
  obtain ⟨set, hset, -, hlooks, -⟩ := Export.ofProject_eq_ok h
  have hdefault : (blueprint.looks.filter (·.isDefault)).length = 1 := by
    have hflags : blueprint.looks.map (·.isDefault) = set.variants.map (·.isDefault) :=
      map_eq_map_of_forall₂ hlooks fun hok => (isDefault_ofVariant hok).symm
    have hcount := congrArg (List.countP id) hflags
    rw [List.countP_map, List.countP_map] at hcount
    have hpositions := Export.length_defaultPositions set.variants
    rw [set.defaultPositions_eq, ← List.countP_eq_length_filter] at hpositions
    rw [← List.countP_eq_length_filter]
    exact hcount.trans hpositions.symm
  have hothers : (blueprint.looks.zipIdx.filter (!·.1.isDefault)).length
      = (blueprint.looks.filter (!·.isDefault)).length := by
    conv_rhs => rw [← List.zipIdx_map_fst 0 blueprint.looks, List.filter_map, List.length_map]
    rfl
  have hall := List.length_eq_length_filter_add (l := blueprint.looks) (·.isDefault)
  rw [hothers, ← length_looks h]
  omega

theorem length_summonFunctions :
    blueprint.summonFunctions.length = project.variants.length + 4 := by
  have hothers := length_summonOthers h
  simp only [summonFunctions, List.length_append, List.length_map, List.length_cons,
    List.length_nil]
  omega

/-- How many functions a pack has. -/
theorem length_functions :
    blueprint.functions.length = 11 + 4 * project.variants.length
      + (project.animations.map fun animation => 3 * animation.frames.length + 6
          + animation.frames.countP (·.commands.isSome)).sum := by
  obtain ⟨set, -, -, -, hmotions⟩ := Export.ofProject_eq_ok h
  have hlooks : (blueprint.looks.flatMap (Look.functions blueprint.names)).length
      = 3 * blueprint.looks.length := by
    simp [List.length_flatMap, Look.functions, Nat.mul_comm]
  have hanimations : (blueprint.motions.map fun motion => (motion.functions blueprint.names).length)
      = project.animations.map fun animation => 3 * animation.frames.length + 6
          + animation.frames.countP (·.commands.isSome) :=
    map_eq_map_of_forall₂ hmotions fun hok =>
      (length_motion_functions blueprint.names hok).symm
  simp only [functions, List.length_append, length_summonFunctions h, hlooks, length_looks h,
    List.length_flatMap, hanimations, basicFunctions, removalFunctions, List.length_cons,
    List.length_nil]
  omega

end Blueprint

/-! ## No file is lost -/

/-- A file that has its place for itself is put where there is none yet. -/
theorem Placement.file?_eq_none_of_nodup {before after : List Placement} {path : List String}
    {name : String} {content : Content}
    (hplaces : ((before ++ .file path name content :: after).filterMap place?).Nodup)
    (space : String) :
    (before.foldl into (Folder.empty space)).file? path name = none := by
  rw [file?_foldl_of_forall_ne, Folder.file?_empty]
  intro placement hplacement hplace
  rw [List.filterMap_append] at hplaces
  have hfirst : (path, name) ∈ before.filterMap place? :=
    List.mem_filterMap.2 ⟨placement, hplacement, hplace⟩
  have hsecond : (path, name) ∈ (file path name content :: after).filterMap place? :=
    List.mem_filterMap.2 ⟨_, List.mem_cons_self .., rfl⟩
  exact (List.nodup_append.1 hplaces).2.2 _ hfirst _ hsecond rfl

namespace Export

open Placement

/-- How many files the pack of a project has. -/
def fileCount (project : Project) : Nat :=
  20 + 4 * project.variants.length + (project.animations.map fun animation =>
    3 * animation.frames.length + 6 + animation.frames.countP (·.commands.isSome)).sum

/-- No two files of a pack have one place.  So each is put where there is none yet, it is
found there with what was put into it, and the pack has as many files as are counted from
the project. -/
theorem build_keeps_files {settings : Settings} {project : Project} {pack : Folder}
    (h : build settings project = .ok pack) :
    ∃ blueprint, Blueprint.ofProject project = .ok blueprint ∧ pack = blueprint.pack settings ∧
      ((blueprint.layout settings).filterMap place?).Nodup ∧
      (∀ before path name content after,
        blueprint.layout settings = before ++ .file path name content :: after →
        (before.foldl into (Folder.empty blueprint.names.space)).file? path name = none) ∧
      (∀ path name content, .file path name content ∈ blueprint.layout settings →
        pack.fileAt? ("/".intercalate (path ++ [name])) = some ⟨name, content⟩) ∧
      pack.entries.length = fileCount project := by
  obtain ⟨blueprint, haccepted, hblueprint, rfl⟩ := build_eq_ok h
  have hsound := Blueprint.sound_of_build haccepted hblueprint
  have hplaces := Blueprint.places_nodup hsound settings
  refine ⟨blueprint, hblueprint, rfl, hplaces, ?_, ?_, ?_⟩
  · intro before path name content after hlayout
    rw [hlayout] at hplaces
    exact file?_eq_none_of_nodup hplaces blueprint.names.space
  · intro path name content hfile
    have hfound := hsound.file?_pack hfile
    have htidy := hsound.tidy_pack settings
    have hsegments := htidy.isSegment_of_mem_entries (path, ⟨name, content⟩)
      (htidy.mem_entries_iff.2 hfound)
    rw [Folder.fileAt?_intercalate _ (fun segment hsegment =>
      hsegments segment (List.mem_append_left _ hsegment)) (hsegments name (by simp)).2, hfound]
  · have hothers : (Blueprint.otherPlaces blueprint.names).length = 9 := rfl
    rw [hsound.length_entries settings, Blueprint.length_functions hblueprint, hothers, fileCount]
    omega

/-- The files of a project with two variants and two frames, of which one has commands. -/
theorem build_keeps_files_of_two_frames :
    let project : Project := { oneFrame "walk" with
      variants := [⟨"plain", true, [], false⟩, ⟨"snowy", false, [], false⟩]
      animations := [⟨"walk", 2, .loop,
        [⟨0, .empty, some ⟨"say hi", none⟩, none⟩, ⟨1, .empty, none, none⟩]⟩] }
    ∃ pack, build ⟨"packs", 1, 12⟩ project = .ok pack ∧ pack.entries.length = 41 := by
  intro project
  have haccepted : (build ⟨"packs", 1, 12⟩ project).toOption.isSome = true := by
    decide +kernel
  obtain ⟨pack, hbuild⟩ := exists_ok_of_isSome haccepted
  obtain ⟨_, -, -, -, -, -, hcount⟩ := build_keeps_files hbuild
  exact ⟨pack, hbuild, hcount⟩

end Export

end RigPack

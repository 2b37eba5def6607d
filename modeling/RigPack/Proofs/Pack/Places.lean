import Mathlib.Data.List.Nodup
import RigPack.Proofs.Pack.Sound
import RigPack.Proofs.Timeline.Names

/-!
# The places of a pack's files

No two files of a pack are put into the same place, so every function holds the
commands that were laid out for it, and is found by its name
(`Sound.function?_pack`).  The functions fall into groups by the first segment of
their path.  Within a group the names of looks and animations keep them apart, and
below an animation the names of its timeline's functions do.
-/

namespace RigPack

namespace Placement

/-- The place of the file that belongs to a location. -/
def resourcePlace (category : List String) (extension : String) (location : Location) :
    List String × String :=
  (["data", location.space] ++ category ++ location.path.dropLast,
    location.path.getLast?.getD "" ++ extension)

/-- The place of a function. -/
def functionPlace : Location → List String × String :=
  resourcePlace ["functions"] ".mcfunction"

@[simp] theorem place?_folder (path : List String) : (folder path).place? = none := rfl

@[simp] theorem place?_function (location : Location) (commands : List Command) :
    (function location commands).place? = some (functionPlace location) := rfl

/-- Two functions are in one place only if they have one location. -/
theorem functionPlace_injective {first second : Location} (hfirst : first.path ≠ [])
    (hsecond : second.path ≠ []) (h : functionPlace first = functionPlace second) :
    first = second := by
  obtain ⟨space, path⟩ := first
  obtain ⟨space', path'⟩ := second
  obtain ⟨front, last, rfl⟩ : ∃ front last, path = front ++ [last] :=
    ⟨_, _, (List.dropLast_concat_getLast hfirst).symm⟩
  obtain ⟨front', last', rfl⟩ : ∃ front last, path' = front ++ [last] :=
    ⟨_, _, (List.dropLast_concat_getLast hsecond).symm⟩
  simp only [functionPlace, resourcePlace, List.dropLast_concat, List.getLast?_concat,
    Option.getD_some, Prod.mk.injEq, List.cons_append, List.nil_append, List.cons.injEq,
    true_and] at h
  obtain ⟨⟨rfl, rfl⟩, hlast⟩ := h
  rw [String.append_left_inj ".mcfunction" |>.1 hlast]

end Placement

namespace Blueprint

open Placement

/-! ## The functions of a pack -/

/-- The functions that put on a look. -/
def Look.functions (names : Naming) (look : Look) : List Location :=
  [names.publicFunction ["apply_variant", look.name], names.variantAsRoot look.name,
    names.variantAsBone look.name]

/-- The functions of an animation. -/
def Motion.functions (names : Naming) (motion : Motion) : List Location :=
  ["play", "resume", "pause", "stop"].map (control names motion)
  ++ ["tick", "end", "apply_frame"].map (drive names motion)
  ++ (Timeline.units names motion.name motion.timeline).map fun unit =>
      names.timelineFunction motion.name unit.name

/-- The functions that summon a rig. -/
def summonFunctions (blueprint : Blueprint) : List Location :=
  [blueprint.names.publicFunction ["summon"],
    blueprint.names.publicFunction ["summon_variable_variant"]]
  ++ (blueprint.looks.zipIdx.filter (!·.1.isDefault)).map (fun (look, _) =>
      blueprint.names.publicFunction ["summon", look.name])
  ++ [blueprint.names.internalFunction ["summon"],
    blueprint.names.internalFunction ["summon", "as_root"],
    blueprint.names.internalFunction ["summon", "as_bone"]]

/-- The functions that load a pack, and those that start every tick. -/
def basicFunctions (names : Naming) : List Location :=
  [names.internalFunction ["load"], names.internalFunction ["tick"],
    names.internalFunction ["tick_as_root"]]

/-- The functions that remove rigs. -/
def removalFunctions (names : Naming) : List Location :=
  [names.publicFunction ["remove", "this"], names.publicFunction ["remove", "all"],
    names.internalFunction ["remove", "as_root"]]

/-- All functions of a pack, in the order in which they are laid out. -/
def functions (blueprint : Blueprint) : List Location :=
  basicFunctions blueprint.names ++ blueprint.summonFunctions ++ removalFunctions blueprint.names
  ++ blueprint.looks.flatMap (Look.functions blueprint.names)
  ++ [blueprint.names.internalFunction ["animations", "tick"]]
  ++ blueprint.motions.flatMap (Motion.functions blueprint.names)

/-- The places of the files that are no functions. -/
def otherPlaces (names : Naming) : List (List String × String) :=
  ([], metadataFile) :: ([], "pack.mcmeta") ::
  [resourcePlace ["tags", "functions"] ".json" ⟨"minecraft", ["load"]⟩,
    resourcePlace ["tags", "functions"] ".json" ⟨"minecraft", ["tick"]⟩,
    resourcePlace ["tags", "entity_types"] ".json" names.rootType,
    resourcePlace ["tags", "entity_types"] ".json" (names.group "aj_bone"),
    resourcePlace ["tags", "functions"] ".json" (names.group "on_summon"),
    resourcePlace ["tags", "functions"] ".json" (names.group "on_tick"),
    resourcePlace ["tags", "functions"] ".json" (names.group "on_remove")]

theorem places_look (names : Naming) (look : Look) :
    (look.layout names).filterMap place? = (look.functions names).map functionPlace := rfl

theorem places_motion (names : Naming) (motion : Motion) :
    (motion.layout names).filterMap place? = (motion.functions names).map functionPlace := by
  have htimeline : (motion.timelineLayout names).filterMap place?
      = ((Timeline.units names motion.name motion.timeline).map fun unit =>
          names.timelineFunction motion.name unit.name).map functionPlace := by
    rw [Motion.timelineLayout_eq, List.filterMap_map, List.map_map, ← List.filterMap_eq_map]
    rfl
  rw [Motion.layout, List.filterMap_append, htimeline, Motion.functions, List.map_append]
  rfl

theorem places_summoning (blueprint : Blueprint) (settings : Settings) :
    (blueprint.summoning settings).filterMap place?
      = blueprint.summonFunctions.map functionPlace := by
  have hothers : blueprint.summonOthers.filterMap place?
      = ((blueprint.looks.zipIdx.filter (!·.1.isDefault)).map fun (look, _) =>
          blueprint.names.publicFunction ["summon", look.name]).map functionPlace := by
    rw [summonOthers_eq, List.filterMap_map, List.map_map, ← List.filterMap_eq_map]
    rfl
  rw [summoning_eq, List.filterMap_append, List.filterMap_append, hothers, summonFunctions,
    List.map_append, List.map_append]
  rfl

/-- The places of all files: those of no function, and then those of the functions. -/
theorem places_layout (blueprint : Blueprint) (settings : Settings) :
    (blueprint.layout settings).filterMap place?
      = otherPlaces blueprint.names ++ blueprint.functions.map functionPlace := by
  simp only [layout, List.filterMap_append, places_summoning, List.filterMap_flatMap, places_look,
    places_motion]
  simp only [functions, List.map_append, List.map_flatMap, ← List.append_assoc]
  rfl

/-! ## No location is used twice -/

theorem internal_ne_space (names : Naming) : names.internal ≠ names.space := by
  intro h
  have hlength := congrArg String.length h
  have hfront : "zzz_".length = 4 := by decide
  simp only [Naming.internal, String.length_append] at hlength
  omega

theorem append_asRoot_ne (name other : String) : name ++ "_as_root" ≠ other ++ "_as_bone" := by
  intro h
  have hlist := congrArg String.toList h
  rw [String.toList_append, String.toList_append] at hlist
  exact absurd (List.append_inj' hlist (by decide)).2 (by decide)

theorem look_functions_nodup (names : Naming) (look : Look) : (look.functions names).Nodup := by
  have hspace := internal_ne_space names
  simp [Look.functions, Naming.publicFunction, Naming.variantAsRoot, Naming.variantAsBone,
    Naming.internalFunction, hspace.symm]

theorem look_functions_disjoint (names : Naming) {first second : Look}
    (h : first.name ≠ second.name) :
    List.Disjoint (first.functions names) (second.functions names) := by
  have hspace := internal_ne_space names
  have hroot := append_asRoot_ne first.name second.name
  have hbone := (append_asRoot_ne second.name first.name).symm
  simp [Look.functions, Naming.publicFunction, Naming.variantAsRoot, Naming.variantAsBone,
    Naming.internalFunction, hspace.symm, h, hroot, hbone, List.disjoint_left, eq_comm]

/-- The functions of an animation differ: those that players call lie in another
namespace, and those of the timeline lie deeper than those that drive it. -/
theorem motion_functions_nodup (names : Naming) {motion : Motion}
    (hpartition : motion.timeline.IsPartition) : (motion.functions names).Nodup := by
  have hspace := internal_ne_space names
  have hcontrols :
      (["play", "resume", "pause", "stop"].map (Motion.control names motion)).Nodup := by
    simp [Motion.control, Naming.publicFunction]
  have hdriving : (["tick", "end", "apply_frame"].map (Motion.drive names motion)).Nodup := by
    simp [Motion.drive, Naming.internalFunction]
  have htimeline : ((Timeline.units names motion.name motion.timeline).map fun unit =>
      names.timelineFunction motion.name unit.name).Nodup := by
    have hunits := (Timeline.units_names_nodup names motion.name hpartition).map
      (f := fun name => names.timelineFunction motion.name name) fun name other h => by
        simpa [Naming.timelineFunction, Naming.internalFunction, Naming.timelinePath] using h
    rwa [List.map_map] at hunits
  refine List.nodup_append.2 ⟨List.nodup_append.2 ⟨hcontrols, hdriving, ?_⟩, htimeline, ?_⟩
  · intro first hfirst second hsecond heq
    obtain ⟨action, -, rfl⟩ := List.mem_map.1 hfirst
    obtain ⟨step, -, rfl⟩ := List.mem_map.1 hsecond
    exact hspace (congrArg Location.space heq).symm
  · intro first hfirst second hsecond heq
    obtain ⟨unit, -, rfl⟩ := List.mem_map.1 hsecond
    rcases List.mem_append.1 hfirst with hfirst | hfirst
    · obtain ⟨action, -, rfl⟩ := List.mem_map.1 hfirst
      exact hspace (congrArg Location.space heq).symm
    · obtain ⟨step, -, rfl⟩ := List.mem_map.1 hfirst
      have hlength := congrArg (·.path.length) heq
      simp [Motion.drive, Naming.internalFunction, Naming.timelineFunction,
        Naming.timelinePath] at hlength

theorem path_of_mem_motion_functions {names : Naming} {motion : Motion} {location : Location}
    (h : location ∈ motion.functions names) :
    ∃ rest, rest ≠ [] ∧ location.path = "animations" :: motion.name :: rest := by
  simp only [Motion.functions, List.mem_append, List.mem_map] at h
  rcases h with (⟨action, -, rfl⟩ | ⟨step, -, rfl⟩) | ⟨unit, -, rfl⟩
  · exact ⟨[action], by simp, rfl⟩
  · exact ⟨[step], by simp, rfl⟩
  · exact ⟨["tree", unit.name], by simp, rfl⟩

theorem path_of_mem_look_functions {names : Naming} {look : Look} {location : Location}
    (h : location ∈ look.functions names) :
    ∃ name, location.path = ["apply_variant", name] := by
  simp only [Look.functions, List.mem_cons, List.not_mem_nil, or_false] at h
  rcases h with rfl | rfl | rfl <;> exact ⟨_, rfl⟩

theorem summonFunctions_nodup {blueprint : Blueprint} (hsound : blueprint.Sound) :
    blueprint.summonFunctions.Nodup := by
  have hspace := internal_ne_space blueprint.names
  have hnames : ((blueprint.looks.zipIdx.filter (!·.1.isDefault)).map fun (look, _) =>
      look.name).Nodup := by
    have hall : (blueprint.looks.zipIdx.map fun (look, _) => look.name).Nodup := by
      have h := hsound.looks_nodup
      rw [← List.zipIdx_map_fst 0 blueprint.looks, List.map_map] at h
      exact h
    exact (List.filter_sublist.map _).nodup hall
  have hothers : ((blueprint.looks.zipIdx.filter (!·.1.isDefault)).map fun (look, _) =>
      blueprint.names.publicFunction ["summon", look.name]).Nodup := by
    have h := hnames.map (f := fun name => blueprint.names.publicFunction ["summon", name])
      fun name other h => by simpa [Naming.publicFunction] using h
    rwa [List.map_map] at h
  have hothers_path : ∀ location ∈ (blueprint.looks.zipIdx.filter (!·.1.isDefault)).map
      (fun (look, _) => blueprint.names.publicFunction ["summon", look.name]),
      location.space = blueprint.names.space ∧ location.path.length = 2 := by
    intro location hlocation
    obtain ⟨look, -, rfl⟩ := List.mem_map.1 hlocation
    exact ⟨rfl, rfl⟩
  refine List.nodup_append.2 ⟨List.nodup_append.2 ⟨?_, hothers, ?_⟩, ?_, ?_⟩
  · simp [Naming.publicFunction]
  · rintro first hfirst second hsecond rfl
    have hlength := (hothers_path first hsecond).2
    simp only [List.mem_cons, List.not_mem_nil, or_false] at hfirst
    rcases hfirst with rfl | rfl <;> simp [Naming.publicFunction] at hlength
  · simp [Naming.internalFunction]
  · rintro first hfirst second hsecond rfl
    have hinternal : first.space = blueprint.names.internal := by
      simp only [List.mem_cons, List.not_mem_nil, or_false] at hsecond
      rcases hsecond with rfl | rfl | rfl <;> rfl
    have hpublic : first.space = blueprint.names.space := by
      rcases List.mem_append.1 hfirst with hfirst | hfirst
      · simp only [List.mem_cons, List.not_mem_nil, or_false] at hfirst
        rcases hfirst with rfl | rfl <;> rfl
      · exact (hothers_path first hfirst).1
    exact hspace (hinternal.symm.trans hpublic)

/-- The group of a function, told by the first segment of its path; the functions of
animations lie deeper than the one that ticks them. -/
def rank (location : Location) : Nat :=
  match location.path with
  | "summon" :: _ => 1
  | "summon_variable_variant" :: _ => 1
  | "remove" :: _ => 2
  | "apply_variant" :: _ => 3
  | ["animations", _] => 4
  | "animations" :: _ => 5
  | _ => 0

theorem rank_summon {blueprint : Blueprint} :
    ∀ location ∈ blueprint.summonFunctions, rank location = 1 := by
  intro location hlocation
  simp only [summonFunctions, List.mem_append, List.mem_cons, List.not_mem_nil, or_false,
    List.mem_map] at hlocation
  rcases hlocation with ((rfl | rfl) | ⟨look, -, rfl⟩) | rfl | rfl | rfl <;> rfl

theorem rank_looks {blueprint : Blueprint} :
    ∀ location ∈ blueprint.looks.flatMap (Look.functions blueprint.names), rank location = 3 := by
  intro location hlocation
  obtain ⟨look, -, hlocation⟩ := List.mem_flatMap.1 hlocation
  obtain ⟨name, hpath⟩ := path_of_mem_look_functions hlocation
  rw [rank, hpath]
  rfl

theorem rank_motions {blueprint : Blueprint} :
    ∀ location ∈ blueprint.motions.flatMap (Motion.functions blueprint.names),
      rank location = 5 := by
  intro location hlocation
  obtain ⟨motion, -, hlocation⟩ := List.mem_flatMap.1 hlocation
  obtain ⟨rest, hrest, hpath⟩ := path_of_mem_motion_functions hlocation
  obtain ⟨next, rest, rfl⟩ := List.exists_cons_of_ne_nil hrest
  rw [rank, hpath]
  rfl

/-- A group of functions behind groups of lower rank. -/
theorem nodup_append_of_rank {lower group : List Location} {k : Nat}
    (hlower : lower.Nodup ∧ ∀ location ∈ lower, rank location < k) (hgroup : group.Nodup)
    (hrank : ∀ location ∈ group, rank location = k) :
    (lower ++ group).Nodup ∧ ∀ location ∈ lower ++ group, rank location < k + 1 := by
  refine ⟨List.nodup_append.2 ⟨hlower.1, hgroup, ?_⟩, ?_⟩
  · rintro first hfirst second hsecond rfl
    have h := hlower.2 first hfirst
    rw [hrank first hsecond] at h
    exact Nat.lt_irrefl k h
  · intro location hlocation
    rcases List.mem_append.1 hlocation with h | h
    · exact Nat.lt_succ_of_lt (hlower.2 location h)
    · rw [hrank location h]
      exact Nat.lt_succ_self k

/-- No location is that of two functions. -/
theorem functions_nodup {blueprint : Blueprint} (hsound : blueprint.Sound) :
    blueprint.functions.Nodup := by
  have hspace := internal_ne_space blueprint.names
  have hbasic : (basicFunctions blueprint.names).Nodup ∧
      ∀ location ∈ basicFunctions blueprint.names, rank location < 1 := by
    simp [basicFunctions, Naming.internalFunction, rank]
  have hremoval : (removalFunctions blueprint.names).Nodup ∧
      ∀ location ∈ removalFunctions blueprint.names, rank location = 2 := by
    simp [removalFunctions, Naming.publicFunction, Naming.internalFunction, hspace.symm, rank]
  have htick : ∀ location ∈ [blueprint.names.internalFunction ["animations", "tick"]],
      rank location = 4 := by
    simp [Naming.internalFunction, rank]
  have hlooks : (blueprint.looks.flatMap (Look.functions blueprint.names)).Nodup := by
    refine List.nodup_flatMap.2 ⟨fun look _ => look_functions_nodup _ look, ?_⟩
    exact (List.pairwise_map.1 hsound.looks_nodup).imp (look_functions_disjoint blueprint.names)
  have hmotions : (blueprint.motions.flatMap (Motion.functions blueprint.names)).Nodup := by
    refine List.nodup_flatMap.2
      ⟨fun motion hmem => motion_functions_nodup _ (hsound.partition motion hmem), ?_⟩
    refine (List.pairwise_map.1 hsound.motions_nodup).imp fun hne location hfirst hsecond => ?_
    obtain ⟨rest, -, hpath⟩ := path_of_mem_motion_functions hfirst
    obtain ⟨rest', -, hpath'⟩ := path_of_mem_motion_functions hsecond
    rw [hpath] at hpath'
    exact hne (List.cons.inj (List.cons.inj hpath').2).1
  -- the groups are added one by one, each of a rank that is not used yet
  have hsummoning := nodup_append_of_rank hbasic (summonFunctions_nodup hsound) rank_summon
  have hremoving := nodup_append_of_rank hsummoning hremoval.1 hremoval.2
  have hvariants := nodup_append_of_rank hremoving hlooks rank_looks
  have hticking := nodup_append_of_rank hvariants (List.nodup_singleton _) htick
  exact (nodup_append_of_rank hticking hmotions rank_motions).1

/-! ## All names are plain -/

theorem isPlain_internal {names : Naming} (h : IsPlain names.space) : IsPlain names.internal :=
  have hfront : IsPlain ("zzz_" ++ names.space) :=
    IsPlain.append (by decide) h.1.2 h.2
  hfront.append (by decide) (by decide)

theorem not_mem_toString {c : Char} (hc : c.isDigit = false) (n : Nat) :
    c ∉ (toString n).toList := by
  rw [Text.toList_toString]
  intro hmem
  rw [Text.isDigit_of_mem_toDigits hmem] at hc
  contradiction

theorem isPlain_key (key : UnitKey) : IsPlain key.name := by
  have hnumber {s : String} (hs : IsPlain s) (n : Nat) : IsPlain (s ++ toString n) :=
    hs.append (not_mem_toString (by decide) n) (not_mem_toString (by decide) n)
  have hleaf (n : Nat) : IsPlain ("leaf_" ++ toString n) := hnumber (by decide) n
  cases key with
  | branch min max =>
      have hmin : IsPlain ("branch_" ++ toString min) := hnumber (by decide) min
      exact hnumber (hmin.append (by decide) (by decide)) max
  | root index => exact hleaf index
  | bone index => exact (hleaf index).append (by decide) (by decide)
  | commands index => exact (hleaf index).append (by decide) (by decide)

section Regular

variable {names : Naming} (hspace : IsPlain names.space)

include hspace

theorem regular_public {path : List String} (hne : path ≠ [])
    (hpath : ∀ segment ∈ path, IsPlain segment) : (names.publicFunction path).Regular :=
  ⟨hspace, hne, hpath⟩

theorem regular_internal {path : List String} (hne : path ≠ [])
    (hpath : ∀ segment ∈ path, IsPlain segment) : (names.internalFunction path).Regular :=
  ⟨isPlain_internal hspace, hne, hpath⟩

theorem regular_basicFunctions : ∀ location ∈ basicFunctions names, location.Regular := by
  intro location hlocation
  simp only [basicFunctions, List.mem_cons, List.not_mem_nil, or_false] at hlocation
  rcases hlocation with rfl | rfl | rfl <;>
    exact regular_internal hspace (by simp) (by decide)

theorem regular_removalFunctions : ∀ location ∈ removalFunctions names, location.Regular := by
  intro location hlocation
  simp only [removalFunctions, List.mem_cons, List.not_mem_nil, or_false] at hlocation
  rcases hlocation with rfl | rfl | rfl
  · exact regular_public hspace (by simp) (by decide)
  · exact regular_public hspace (by simp) (by decide)
  · exact regular_internal hspace (by simp) (by decide)

theorem regular_look {look : Look} (hname : IsPlain look.name) :
    ∀ location ∈ look.functions names, location.Regular := by
  have hfront : IsPlain "apply_variant" := by decide
  intro location hlocation
  simp only [Look.functions, List.mem_cons, List.not_mem_nil, or_false] at hlocation
  rcases hlocation with rfl | rfl | rfl
  · exact regular_public hspace (by simp) (by simp [hfront, hname])
  · have hroot : IsPlain (look.name ++ "_as_root") := hname.append (by decide) (by decide)
    exact regular_internal hspace (by simp) (by simp [hfront, hroot])
  · have hbone : IsPlain (look.name ++ "_as_bone") := hname.append (by decide) (by decide)
    exact regular_internal hspace (by simp) (by simp [hfront, hbone])

theorem regular_motion {motion : Motion} (hname : IsPlain motion.name) :
    ∀ location ∈ motion.functions names, location.Regular := by
  have hfront : IsPlain "animations" := by decide
  intro location hlocation
  simp only [Motion.functions, List.mem_append, List.mem_map] at hlocation
  rcases hlocation with (⟨action, haction, rfl⟩ | ⟨step, hstep, rfl⟩) | ⟨unit, hunit, rfl⟩
  · have hplain : IsPlain action :=
      (by decide : ∀ action ∈ ["play", "resume", "pause", "stop"], IsPlain action) action haction
    exact regular_public hspace (by simp) (by simp [hfront, hname, hplain])
  · have hplain : IsPlain step :=
      (by decide : ∀ step ∈ ["tick", "end", "apply_frame"], IsPlain step) step hstep
    exact regular_internal hspace (by simp) (by simp [hfront, hname, hplain])
  · have htree : IsPlain "tree" := by decide
    have hplain : IsPlain unit.name := by
      have hmem : unit.name ∈ (Timeline.units names motion.name motion.timeline).map (·.name) :=
        List.mem_map.2 ⟨unit, hunit, rfl⟩
      rw [Timeline.names_units] at hmem
      obtain ⟨key, -, hkey⟩ := List.mem_map.1 hmem
      rw [← hkey]
      exact isPlain_key key
    exact regular_internal hspace (by simp [Naming.timelinePath])
      (by simp [Naming.timelinePath, hfront, hname, htree, hplain])

end Regular

/-- The location of every function is read back from its text. -/
theorem regular_of_mem_functions {blueprint : Blueprint} (hsound : blueprint.Sound) :
    ∀ location ∈ blueprint.functions, location.Regular := by
  have hspace := hsound.space
  intro location hlocation
  simp only [functions, List.mem_append, List.mem_singleton, List.mem_flatMap] at hlocation
  rcases hlocation with ((((hbasic | hsummon) | hremoval) | ⟨look, hlook, hlocation⟩) | rfl) |
    ⟨motion, hmotion, hlocation⟩
  · exact regular_basicFunctions hspace location hbasic
  · have hfront : IsPlain "summon" := by decide
    simp only [summonFunctions, List.mem_append, List.mem_cons, List.not_mem_nil, or_false,
      List.mem_map] at hsummon
    rcases hsummon with ((rfl | rfl) | ⟨⟨look, position⟩, hlook, rfl⟩) | rfl | rfl | rfl
    · exact regular_public hspace (by simp) (by decide)
    · exact regular_public hspace (by simp) (by decide)
    · have hmem := List.mk_mem_zipIdx_iff_getElem?.1 (List.mem_of_mem_filter hlook)
      have hname := hsound.looks look (List.mem_of_getElem? hmem)
      exact regular_public hspace (by simp) (by simp [hfront, hname])
    · exact regular_internal hspace (by simp) (by decide)
    · exact regular_internal hspace (by simp) (by decide)
    · exact regular_internal hspace (by simp) (by decide)
  · exact regular_removalFunctions hspace location hremoval
  · exact regular_look hspace (hsound.looks look hlook) location hlocation
  · exact regular_internal hspace (by simp) (by decide)
  · exact regular_motion hspace (hsound.motions motion hmotion) location hlocation

/-! ## Files, found -/

/-- No file is put into the place of another one. -/
theorem places_nodup {blueprint : Blueprint} (hsound : blueprint.Sound) (settings : Settings) :
    ((blueprint.layout settings).filterMap place?).Nodup := by
  rw [places_layout]
  refine List.nodup_append.2 ⟨?_, ?_, ?_⟩
  · simp [otherPlaces, resourcePlace, metadataFile, Naming.rootType, Naming.group]
  · refine (functions_nodup hsound).map_on fun first hfirst second hsecond h => ?_
    exact functionPlace_injective (regular_of_mem_functions hsound first hfirst).ne_nil
      (regular_of_mem_functions hsound second hsecond).ne_nil h
  · intro place hplace other hother heq
    obtain ⟨location, -, rfl⟩ := List.mem_map.1 hother
    simp [otherPlaces, resourcePlace, functionPlace, Naming.rootType, Naming.group, heq] at hplace

/-- A file of commands is in the place of a function. -/
theorem exists_function_of_commands {blueprint : Blueprint} {settings : Settings}
    {path : List String} {name : String} {commands : List Command}
    (h : .file path name (.commands commands) ∈ blueprint.layout settings) :
    ∃ location ∈ blueprint.functions, functionPlace location = (path, name) := by
  -- the first two groups of files hold no commands, and all others are functions
  obtain ⟨rest, hlayout⟩ : ∃ rest, blueprint.layout settings
      = metadata blueprint.names settings ++ groups blueprint.names ++ rest := by
    simp only [layout, List.append_assoc]
    exact ⟨_, rfl⟩
  have hothers : (metadata blueprint.names settings ++ groups blueprint.names).filterMap place?
      = otherPlaces blueprint.names := rfl
  have hplaces := places_layout blueprint settings
  rw [hlayout, List.filterMap_append, hothers, List.append_cancel_left_eq] at hplaces
  rw [hlayout, List.mem_append] at h
  rcases h with h | h
  · simp [metadata, groups_eq, functionGroup, entityGroup, resource, listing] at h
  · have hmem : (path, name) ∈ rest.filterMap place? := List.mem_filterMap.2 ⟨_, h, rfl⟩
    rw [hplaces] at hmem
    exact List.mem_map.1 hmem

theorem mem_functions_of_layout {blueprint : Blueprint} (hsound : blueprint.Sound)
    {settings : Settings} {location : Location} {commands : List Command}
    (h : function location commands ∈ blueprint.layout settings) :
    location ∈ blueprint.functions := by
  have hplace : functionPlace location ∈ (blueprint.layout settings).filterMap place? :=
    List.mem_filterMap.2 ⟨_, h, rfl⟩
  rw [places_layout, List.mem_append] at hplace
  rcases hplace with hother | hfunction
  · simp [otherPlaces, resourcePlace, functionPlace, Naming.rootType, Naming.group] at hother
  · obtain ⟨other, hother, heq⟩ := List.mem_map.1 hfunction
    have hregular := regular_of_mem_functions hsound other hother
    by_cases hpath : location.path = []
    · -- a location without a path has no place of its own
      obtain ⟨space, path⟩ := other
      obtain ⟨front, last, rfl⟩ : ∃ front last, path = front ++ [last] :=
        ⟨_, _, (List.dropLast_concat_getLast hregular.ne_nil).symm⟩
      have hlast : last = "" := by
        have hname := congrArg Prod.snd heq
        rw [functionPlace, resourcePlace, resourcePlace, hpath] at hname
        simpa using hname
      exact absurd hlast (hregular.path last (by simp)).1.1
    · rwa [functionPlace_injective hregular.ne_nil hpath heq] at hother

/-- The function that summons a rig and has it set up. -/
theorem summon_mem_layout (blueprint : Blueprint) (settings : Settings) :
    function (blueprint.names.internalFunction ["summon"])
      [.summon .display (blueprint.data settings),
        .execute [.asNearby .display freshTag]
          (.run (blueprint.names.internalFunction ["summon", "as_root"]))] ∈
      blueprint.layout settings := by
  simp [layout, summoning_eq]

/-- The function that goes on with all animations. -/
theorem animationTick_mem_layout (blueprint : Blueprint) (settings : Settings) :
    blueprint.animationTick ∈ blueprint.layout settings :=
  List.mem_append_left _ (List.mem_append_right _ (List.mem_singleton_self _))

/-- Every file is found in its place, with the content laid out for it. -/
theorem Sound.file?_pack {blueprint : Blueprint} (hsound : blueprint.Sound) {settings : Settings}
    {path : List String} {name : String} {content : Content}
    (h : .file path name content ∈ blueprint.layout settings) :
    (blueprint.pack settings).file? path name = some ⟨name, content⟩ :=
  file?_foldl_of_nodup (places_nodup hsound settings) h

/-- Every function is found by its name, with the commands laid out for it. -/
theorem Sound.function?_pack {blueprint : Blueprint} (hsound : blueprint.Sound)
    {settings : Settings} {location : Location} {commands : List Command}
    (h : function location commands ∈ blueprint.layout settings) :
    (blueprint.pack settings).function? location.text = some commands := by
  have hregular := regular_of_mem_functions hsound location (mem_functions_of_layout hsound h)
  have hfile : (blueprint.pack settings).file? (functionPlace location).1
      (functionPlace location).2 = some ⟨(functionPlace location).2, .commands commands⟩ :=
    hsound.file?_pack h
  have hresource : (blueprint.pack settings).resource? "functions" ".mcfunction" location.text
      = some (.commands commands) := by
    have htext := (blueprint.pack settings).resource?_text ["functions"] ".mcfunction" hregular
      (by simp) (by decide) (by decide)
    rw [String.intercalate_singleton] at htext
    exact htext.trans (congrArg (Option.map (·.content)) hfile)
  rw [Folder.function?, hresource]

end Blueprint

end RigPack

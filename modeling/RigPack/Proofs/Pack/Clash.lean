import RigPack.Proofs.Pack.Tidy

/-!
# Files and folders of one name

On a disk no folder can have the name of a file beside it.  Folders in memory can.

In a pack the names of files end in an extension, and those of folders are fixed words
without one, or names of the project as they are.  The two meet in one place: beside
the function that ticks all animations lies one folder for each of them.  The name of an
animation may contain a point, so it can be the name of that function's file.

## Main statements

* `Tidy.hasClash_iff_path`: in a tidy folder each clash is found by its path.
* `Blueprint.Sound.clash_iff`: the one place where a pack has a file and a folder.
-/

namespace RigPack

namespace Folder

/-- Whether a folder is `target`, or this lies somewhere below it. -/
inductive Within (target : Folder) : Folder → Prop
  | self : Within target target
  | step {sub folder : Folder} (hsub : sub ∈ folder.folders) (h : Within target sub) :
    Within target folder

/-- Whether there is a folder, here or below, that holds a file and a folder of one name. -/
def HasClash (folder : Folder) : Prop :=
  ∃ target, Within target folder ∧
    ∃ file ∈ target.files, ∃ sub ∈ target.folders, file.name = sub.name

/-! ## Clashes as paths -/

theorem folder?_append (path rest : List String) (folder : Folder) :
    folder.folder? (path ++ rest) = (folder.folder? path).bind (folder? rest) := by
  induction path generalizing folder with
  | nil => rfl
  | cons segment path ih =>
      rw [List.cons_append, folder?, folder?]
      cases folder.folders.find? (·.name = segment) with
      | none => rfl
      | some sub => exact ih sub

theorem within_of_folder? {path : List String} {folder target : Folder}
    (h : folder.folder? path = some target) : Within target folder := by
  induction path generalizing folder with
  | nil =>
      obtain rfl := Option.some.inj h
      exact .self
  | cons segment path ih =>
      obtain ⟨sub, hsub, h⟩ := Option.bind_eq_some_iff.1 h
      exact .step (List.mem_of_find?_eq_some hsub) (ih h)

/-- In a tidy folder all that lies below is found by its path. -/
theorem Tidy.exists_path {target folder : Folder} (h : Within target folder)
    (htidy : folder.Tidy) : ∃ path, folder.folder? path = some target := by
  induction h with
  | self => exact ⟨[], rfl⟩
  | @step sub folder hsub h ih =>
      obtain @⟨_, _, _, -, -, -, hnodup, hbelow⟩ := htidy
      obtain ⟨path, hpath⟩ := ih (hbelow sub hsub)
      refine ⟨sub.name :: path, ?_⟩
      rw [folder?, folders, (find?_key_eq_some_iff hnodup).2 hsub]
      exact hpath

/-- There is a clash where one path leads to a file and to a folder. -/
theorem hasClash_of_path {folder : Folder} {path : List String} {name : String}
    (hfile : (folder.file? path name).isSome = true)
    (hfolder : (folder.folder? (path ++ [name])).isSome = true) : folder.HasClash := by
  rw [folder?_append] at hfolder
  cases hpath : folder.folder? path with
  | none => simp [hpath] at hfolder
  | some target =>
      rw [file?, hpath] at hfile
      obtain ⟨file, hfile⟩ := Option.isSome_iff_exists.1 hfile
      obtain ⟨hfile, hname⟩ := mem_of_find?_key hfile
      rw [hpath, Option.bind_some] at hfolder
      obtain ⟨_, hfolder⟩ := Option.isSome_iff_exists.1 hfolder
      obtain ⟨sub, hsub, -⟩ := Option.bind_eq_some_iff.1 hfolder
      obtain ⟨hsub, hsub_name⟩ := mem_of_find?_key hsub
      exact ⟨target, within_of_folder? hpath, file, hfile, sub, hsub,
        hname.trans hsub_name.symm⟩

/-- In a tidy folder there is no clash elsewhere. -/
theorem Tidy.hasClash_iff_path {folder : Folder} (htidy : folder.Tidy) :
    folder.HasClash ↔ ∃ path name, (folder.file? path name).isSome = true ∧
      (folder.folder? (path ++ [name])).isSome = true := by
  constructor
  · rintro ⟨target, hwithin, file, hfile, sub, hsub, hname⟩
    obtain ⟨path, hpath⟩ := htidy.exists_path hwithin
    refine ⟨path, file.name, ?_, ?_⟩
    · rw [file?, hpath]
      exact List.find?_isSome.2 ⟨file, hfile, by simp⟩
    · have hfound : (target.folders.find? (·.name = file.name)).isSome = true :=
        List.find?_isSome.2 ⟨sub, hsub, by simp [hname]⟩
      rw [folder?_append, hpath, Option.bind_some, folder?]
      cases h : target.folders.find? (·.name = file.name) with
      | none => simp [h] at hfound
      | some found => rfl
  · rintro ⟨path, name, hfile, hfolder⟩
    exact hasClash_of_path hfile hfolder

/-! ## Folders that placements make -/

/-- A change makes the folders that lead to it and no others. -/
theorem isSome_folder?_changeAt (change : List PackFile → List PackFile)
    (path other : List String) (folder : Folder) :
    ((folder.changeAt path (mapFiles change)).folder? other).isSome = true ↔
      other <+: path ∨ (folder.folder? other).isSome = true := by
  induction path generalizing folder other with
  | nil => cases other <;> simp [changeAt, mapFiles, folder?, folders]
  | cons segment path ih =>
      cases other with
      | nil => simp [folder?]
      | cons otherSegment other =>
          rw [changeAt, folder?, folders,
            find?_changeIn (name_changeAt (name_mapFiles change) path), List.cons_prefix_cons]
          by_cases hsegment : otherSegment = segment
          · subst hsegment
            rw [if_pos rfl, Option.bind_some, ih, folder?]
            cases hfound : folder.folders.find? (·.name = otherSegment) with
            | none =>
                -- the folder is new, so nothing is below it but what the change makes
                cases other <;> simp [folder?, empty, folders]
            | some found => simp
          · rw [if_neg hsegment, folder?]
            simp [hsegment]

end Folder

namespace Placement

open Folder

/-- The path of the folder that a placement makes, or into which it puts a file. -/
def dir : Placement → List String
  | folder path => path
  | file path _ _ => path

theorem isSome_folder?_foldl (placements : List Placement) (pack : Folder)
    (path : List String) :
    ((placements.foldl into pack).folder? path).isSome = true ↔
      (∃ placement ∈ placements, path <+: placement.dir) ∨
        (pack.folder? path).isSome = true := by
  induction placements generalizing pack with
  | nil => simp
  | cons placement placements ih =>
      have hinto : ((placement.into pack).folder? path).isSome = true ↔
          path <+: placement.dir ∨ (pack.folder? path).isSome = true := by
        cases placement with
        | folder made =>
            rw [into, changeAt_id_eq]
            exact isSome_folder?_changeAt id made path pack
        | file made name content =>
            exact isSome_folder?_changeAt (setFile name content) made path pack
      rw [List.foldl_cons, ih, hinto, List.exists_mem_cons_iff, or_assoc, or_left_comm]

end Placement

namespace Blueprint

open Placement

/-! ## The files and folders of a pack -/

/-- The paths of the folders that a pack is made of; these and those on the way to them
are all that it has. -/
def dirs (blueprint : Blueprint) : List (List String) :=
  (otherPlaces blueprint.names).map (·.1)
  ++ blueprint.functions.map (fun location => (functionPlace location).1)
  ++ [["data", blueprint.names.space], ["data", blueprint.names.internal],
    ["data", blueprint.names.space, "functions", "summon"]]

theorem mem_dirs {blueprint : Blueprint} {settings : Settings} {dir : List String} :
    (∃ placement ∈ blueprint.layout settings, placement.dir = dir) ↔ dir ∈ blueprint.dirs := by
  rw [dirs, List.mem_append, ← folders_layout blueprint settings]
  have hplaces : (otherPlaces blueprint.names).map (·.1)
      ++ blueprint.functions.map (fun location => (functionPlace location).1)
      = ((blueprint.layout settings).filterMap place?).map (·.1) := by
    rw [places_layout, List.map_append, List.map_map]
    rfl
  rw [hplaces]
  constructor
  · rintro ⟨placement, hplacement, rfl⟩
    cases placement with
    | folder path => exact .inr (List.mem_filterMap.2 ⟨_, hplacement, rfl⟩)
    | file path name content =>
        exact .inl (List.mem_map.2 ⟨_, List.mem_filterMap.2 ⟨_, hplacement, rfl⟩, rfl⟩)
  · rintro (h | h)
    · obtain ⟨place, hplace, rfl⟩ := List.mem_map.1 h
      obtain ⟨placement, hplacement, hplace⟩ := List.mem_filterMap.1 hplace
      cases placement with
      | folder path => contradiction
      | file path name content =>
          obtain rfl := Option.some.inj hplace
          exact ⟨_, hplacement, rfl⟩
    · obtain ⟨placement, hplacement, hfolder⟩ := List.mem_filterMap.1 h
      cases placement with
      | folder path => exact ⟨_, hplacement, Option.some.inj hfolder⟩
      | file path name content => contradiction

theorem isSome_folder?_pack {blueprint : Blueprint} {settings : Settings} {path : List String} :
    ((blueprint.pack settings).folder? path).isSome = true ↔
      ∃ dir ∈ blueprint.dirs, path <+: dir := by
  have hempty : ((Folder.empty blueprint.names.space).folder? path).isSome = true →
      ∃ placement ∈ blueprint.layout settings, path <+: placement.dir := by
    intro h
    obtain ⟨placement, hplacement, -⟩ :=
      mem_dirs.2 (show [] ∈ blueprint.dirs from List.mem_cons_self ..)
    cases path with
    | nil => exact ⟨placement, hplacement, List.nil_prefix⟩
    | cons segment path => contradiction
  rw [pack, isSome_folder?_foldl, or_iff_left_of_imp hempty]
  constructor
  · rintro ⟨placement, hplacement, hpath⟩
    exact ⟨placement.dir, mem_dirs.1 ⟨placement, hplacement, rfl⟩, hpath⟩
  · rintro ⟨dir, hdir, hpath⟩
    obtain ⟨placement, hplacement, rfl⟩ := mem_dirs.2 hdir
    exact ⟨placement, hplacement, hpath⟩

theorem isSome_file?_pack {blueprint : Blueprint} {settings : Settings} {path : List String}
    {name : String} :
    ((blueprint.pack settings).file? path name).isSome = true ↔
      (path, name) ∈ otherPlaces blueprint.names ++ blueprint.functions.map functionPlace := by
  rw [← places_layout blueprint settings]
  constructor
  · intro h
    obtain ⟨found, hfound⟩ := Option.isSome_iff_exists.1 h
    exact List.mem_filterMap.2 ⟨_, mem_layout_of_file? hfound, rfl⟩
  · intro h
    obtain ⟨placement, hplacement, hplace⟩ := List.mem_filterMap.1 h
    cases placement with
    | folder path => contradiction
    | file path' name' content =>
        obtain ⟨rfl, rfl⟩ := Prod.mk.inj (Option.some.inj hplace)
        exact isSome_file?_foldl hplacement

/-! ## Where a name is that of a file and of a folder -/

/-- The ways from the folder of a namespace's functions to the folder of one of them. -/
inductive IsFront (blueprint : Blueprint) : List String → Prop
  | fixed {front : List String}
    (hfront : front ∈ [[], ["summon"], ["remove"], ["apply_variant"], ["animations"]]) :
    IsFront blueprint front
  | motion {motion : Motion} (hmotion : motion ∈ blueprint.motions) :
    IsFront blueprint ["animations", motion.name]
  | tree {motion : Motion} (hmotion : motion ∈ blueprint.motions) :
    IsFront blueprint ["animations", motion.name, "tree"]

theorem isFront_of_mem_functions {blueprint : Blueprint} {location : Location}
    (h : location ∈ blueprint.functions) : blueprint.IsFront location.path.dropLast := by
  simp only [functions, basicFunctions, summonFunctions, removalFunctions, Look.functions,
    Motion.functions, List.mem_append, List.mem_cons, List.not_mem_nil, or_false,
    List.mem_flatMap, List.mem_map] at h
  have htop : blueprint.IsFront [] := .fixed (by decide)
  have hsummon : blueprint.IsFront ["summon"] := .fixed (by decide)
  have hremove : blueprint.IsFront ["remove"] := .fixed (by decide)
  have hvariant : blueprint.IsFront ["apply_variant"] := .fixed (by decide)
  have hanimations : blueprint.IsFront ["animations"] := .fixed (by decide)
  rcases h with ((((h | h) | h) | ⟨look, -, h⟩) | rfl) | ⟨motion, hmotion, h⟩
  · rcases h with rfl | rfl | rfl <;> exact htop
  · rcases h with ((rfl | rfl) | ⟨look, -, rfl⟩) | rfl | rfl | rfl
    · exact htop
    · exact htop
    · exact hsummon
    · exact htop
    · exact hsummon
    · exact hsummon
  · rcases h with rfl | rfl | rfl <;> exact hremove
  · rcases h with rfl | rfl | rfl <;> exact hvariant
  · exact hanimations
  · rcases h with (⟨action, -, rfl⟩ | ⟨step, -, rfl⟩) | ⟨unit, -, rfl⟩
    · exact .motion hmotion
    · exact .motion hmotion
    · exact .tree hmotion

/-- A name with a point is that of a folder only if it is that of an animation. -/
theorem IsFront.of_prefix {blueprint : Blueprint} {front whole : List String}
    (h : blueprint.IsFront whole) {name : String} (hname : '.' ∈ name.toList)
    (hstart : front ++ [name] <+: whole) :
    front = ["animations"] ∧ ∃ motion ∈ blueprint.motions, motion.name = name := by
  have hmem : name ∈ whole := hstart.subset (by simp)
  have hword (word : String) (hword : '.' ∉ word.toList) : name ≠ word :=
    fun heq => hword (heq ▸ hname)
  have hanimations := hword "animations" (by decide)
  have htree := hword "tree" (by decide)
  obtain ⟨rest, hrest⟩ := hstart
  cases h with
  | fixed hfront =>
      have hfixed : ∀ front ∈ [[], ["summon"], ["remove"], ["apply_variant"], ["animations"]],
          ∀ word ∈ front, '.' ∉ word.toList := by decide
      exact absurd hname (hfixed whole hfront name hmem)
  | @motion motion hmotion =>
      rcases front with _ | ⟨first, _ | ⟨second, front⟩⟩ <;>
        simp [hanimations] at hrest
      obtain ⟨rfl, rfl, -⟩ := hrest
      exact ⟨rfl, motion, hmotion, rfl⟩
  | @tree motion hmotion =>
      rcases front with _ | ⟨first, _ | ⟨second, _ | ⟨third, front⟩⟩⟩ <;>
        simp [hanimations, htree] at hrest
      obtain ⟨rfl, rfl, -⟩ := hrest
      exact ⟨rfl, motion, hmotion, rfl⟩

/-- A folder of a pack is the top, that of a namespace, one of tags, or one of functions. -/
theorem dir_cases {blueprint : Blueprint} {dir : List String} (h : dir ∈ blueprint.dirs) :
    dir = [] ∨ (∃ space, dir = ["data", space]) ∨
      (∃ space kind, dir = ["data", space, "tags", kind]) ∨
      ∃ space front, dir = "data" :: space :: "functions" :: front ∧ blueprint.IsFront front := by
  simp only [dirs, List.mem_append, List.mem_map, List.mem_cons, List.not_mem_nil, or_false] at h
  rcases h with (⟨place, hplace, rfl⟩ | ⟨location, hlocation, rfl⟩) | rfl | rfl | rfl
  · simp only [otherPlaces, List.mem_cons, List.not_mem_nil, or_false] at hplace
    rcases hplace with rfl | rfl | rfl | rfl | rfl | rfl | rfl | rfl | rfl
    · exact .inl rfl
    · exact .inl rfl
    all_goals exact .inr (.inr (.inl ⟨_, _, rfl⟩))
  · exact .inr (.inr (.inr ⟨_, _, rfl, isFront_of_mem_functions hlocation⟩))
  · exact .inr (.inl ⟨_, rfl⟩)
  · exact .inr (.inl ⟨_, rfl⟩)
  · exact .inr (.inr (.inr ⟨_, _, rfl, .fixed (by decide)⟩))

/-- A file that is no function lies at the top or in a folder of tags. -/
theorem otherPlaces_cases {names : Naming} {place : List String × String}
    (h : place ∈ otherPlaces names) :
    place.1 = [] ∧ place.2 ≠ "data" ∨ ∃ space kind, place.1 = ["data", space, "tags", kind] := by
  simp only [otherPlaces, List.mem_cons, List.not_mem_nil, or_false] at h
  rcases h with rfl | rfl | rfl | rfl | rfl | rfl | rfl | rfl | rfl
  · exact .inl ⟨rfl, by decide⟩
  · exact .inl ⟨rfl, by decide⟩
  all_goals exact .inr ⟨_, _, rfl⟩

/-- No folder has the name of a file that is no function. -/
theorem not_prefix_of_otherPlaces {blueprint : Blueprint} {place : List String × String}
    (hplace : place ∈ otherPlaces blueprint.names) {dir : List String}
    (hdir : dir ∈ blueprint.dirs) : ¬ place.1 ++ [place.2] <+: dir := by
  rintro ⟨rest, rfl⟩
  rcases otherPlaces_cases hplace with ⟨htop, hname⟩ | ⟨space, kind, htags⟩
  · rw [htop] at hdir
    rcases dir_cases hdir with h | ⟨_, h⟩ | ⟨_, _, h⟩ | ⟨_, _, h, -⟩ <;> simp [hname] at h
  · rw [htags] at hdir
    rcases dir_cases hdir with h | ⟨_, h⟩ | ⟨_, _, h⟩ | ⟨_, _, h, -⟩ <;> simp at h

/-- One function alone lies in the folder of all animations. -/
theorem eq_tick_of_mem_functions {blueprint : Blueprint} {location : Location}
    (h : location ∈ blueprint.functions) (hrank : rank location = 4) :
    location = blueprint.names.internalFunction ["animations", "tick"] := by
  simp only [functions, List.mem_append, List.mem_singleton] at h
  rcases h with ((((hbasic | hsummon) | hremoval) | hlook) | rfl) | hmotion
  · simp only [basicFunctions, List.mem_cons, List.not_mem_nil, or_false] at hbasic
    rcases hbasic with rfl | rfl | rfl <;> contradiction
  · rw [rank_summon location hsummon] at hrank
    contradiction
  · simp only [removalFunctions, List.mem_cons, List.not_mem_nil, or_false] at hremoval
    rcases hremoval with rfl | rfl | rfl <;>
      simp [rank, Naming.publicFunction, Naming.internalFunction] at hrank
  · rw [rank_looks location hlook] at hrank
    contradiction
  · rfl
  · rw [rank_motions location hmotion] at hrank
    contradiction

/-- A pack has a file and a folder in one place only beside the function that ticks all
animations, and only if an animation has the name of its file. -/
theorem Sound.clash_iff {blueprint : Blueprint} (hsound : blueprint.Sound) {settings : Settings}
    {path : List String} {name : String} :
    ((blueprint.pack settings).file? path name).isSome = true ∧
        ((blueprint.pack settings).folder? (path ++ [name])).isSome = true ↔
      path = ["data", blueprint.names.internal, "functions", "animations"] ∧
        name = "tick.mcfunction" ∧ ∃ motion ∈ blueprint.motions, motion.name = name := by
  rw [isSome_file?_pack, isSome_folder?_pack]
  constructor
  · rintro ⟨hfile, dir, hdir, hstart⟩
    rcases List.mem_append.1 hfile with hother | hfunction
    · exact absurd hstart (not_prefix_of_otherPlaces hother hdir)
    · obtain ⟨⟨space, whole⟩, hlocation, hplace⟩ := List.mem_map.1 hfunction
      obtain ⟨front, last, rfl⟩ : ∃ front last, whole = front ++ [last] :=
        ⟨_, _, (List.dropLast_concat_getLast
          (regular_of_mem_functions hsound _ hlocation).ne_nil).symm⟩
      simp only [functionPlace, resourcePlace, List.dropLast_concat, List.getLast?_concat,
        Option.getD_some, Prod.mk.injEq, List.cons_append, List.nil_append] at hplace
      obtain ⟨rfl, rfl⟩ := hplace
      have hpoint : '.' ∈ (last ++ ".mcfunction").toList := by
        rw [String.toList_append, List.mem_append]
        exact .inr (by decide)
      -- the folder lies among functions as well, below the same namespace
      obtain ⟨rest, rfl⟩ := hstart
      rcases dir_cases hdir with h | ⟨_, h⟩ | ⟨_, _, h⟩ | ⟨_, whole, h, hfront⟩
      · simp at h
      · simp at h
      · simp at h
      · simp only [List.cons_append, List.cons.injEq, true_and] at h
        obtain ⟨-, rfl⟩ := h
        obtain ⟨rfl, hmotion⟩ := hfront.of_prefix hpoint (List.prefix_append _ _)
        obtain h := eq_tick_of_mem_functions hlocation rfl
        simp only [Naming.internalFunction, Location.mk.injEq, List.cons_append, List.nil_append,
          List.cons.injEq, and_true, true_and] at h
        obtain ⟨rfl, rfl⟩ := h
        exact ⟨rfl, rfl, hmotion⟩
  · rintro ⟨rfl, rfl, motion, hmotion, hname⟩
    have htick : blueprint.names.internalFunction ["animations", "tick"] ∈ blueprint.functions := by
      simp [functions]
    have hdrive : Motion.drive blueprint.names motion "tick" ∈ blueprint.functions := by
      refine List.mem_append_right _ (List.mem_flatMap.2 ⟨motion, hmotion, ?_⟩)
      simp [Motion.functions]
    refine ⟨List.mem_append_right _ (List.mem_map.2 ⟨_, htick, rfl⟩),
      (functionPlace (Motion.drive blueprint.names motion "tick")).1, ?_, ?_⟩
    · refine List.mem_append_left _ (List.mem_append_right _ ?_)
      exact List.mem_map.2 ⟨_, hdrive, rfl⟩
    · rw [← hname]
      exact List.prefix_refl _

end Blueprint

end RigPack

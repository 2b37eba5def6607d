import RigPack.Proofs.Pack.Places

/-!
# Tidy folders

Nothing in the form of a folder keeps it from holding two files of one name.  A
folder is `Tidy` if, in it and everywhere below, the names of files differ, those of
folders differ, and all are segments of paths.  Placements keep folders tidy, so packs
are.

A tidy folder is a table of files by path: `Folder.entries` lists each file once, and
under the path and the name of an entry that file is found.  For that it does not matter
what the names of files look like, so it is shown of folders that are `Separate`, whatever
names of files are valid in them.

## Main statements

* `Separate.mem_entries_iff`: the entries are exactly the files that can be looked up.
* `Separate.keys_nodup`: no two entries have one path and one name.
* `tidy_pack`: the packs of sound blueprints are tidy.
-/

namespace RigPack

theorem mem_of_find?_key {α : Type} {key : α → String} {as : List α} {k : String} {a : α}
    (h : as.find? (key · = k) = some a) : a ∈ as ∧ key a = k :=
  ⟨List.mem_of_find?_eq_some h, by simpa using List.find?_some h⟩

/-- In a list whose elements differ in a key, an element is found by its key. -/
theorem find?_key_eq_some_iff {α : Type} {key : α → String} {as : List α}
    (hnodup : (as.map key).Nodup) {a : α} :
    as.find? (key · = key a) = some a ↔ a ∈ as := by
  constructor
  · exact List.mem_of_find?_eq_some
  · intro h
    induction as with
    | nil => exact absurd h List.not_mem_nil
    | cons b as ih =>
        obtain ⟨hnot, hnodup⟩ := List.nodup_cons.1 hnodup
        rcases List.mem_cons.1 h with rfl | h
        · simp
        · have hne : key b ≠ key a := fun heq => hnot (heq ▸ List.mem_map_of_mem h)
          rw [List.find?_cons_of_neg (by simpa using hne), ih hnodup h]

/-- A list of names with one more at its end, unless it is there. -/
def withName (name : String) (names : List String) : List String :=
  if name ∈ names then names else names ++ [name]

theorem mem_withName {name other : String} {names : List String} :
    other ∈ withName name names ↔ other ∈ names ∨ other = name := by
  unfold withName
  split
  · rename_i hname
    exact ⟨.inl, fun h => h.elim id (· ▸ hname)⟩
  · rw [List.mem_append, List.mem_singleton]

theorem nodup_withName {name : String} {names : List String} (h : names.Nodup) :
    (withName name names).Nodup := by
  unfold withName
  split
  · exact h
  · rename_i hname
    rw [← List.concat_eq_append]
    exact h.concat hname

namespace Folder

/-- Whether in a folder and in all below it names are segments and differ. -/
inductive Tidy : Folder → Prop
  | mk {name : String} {files : List PackFile} {folders : List Folder}
    (hfiles : ∀ name ∈ files.map (·.name), Path.IsSegment name)
    (hfiles_nodup : (files.map (·.name)).Nodup)
    (hfolders : ∀ name ∈ folders.map Folder.name, Path.IsSegment name)
    (hfolders_nodup : (folders.map Folder.name).Nodup)
    (hbelow : ∀ folder ∈ folders, Tidy folder) : Tidy (.mk name files folders)

/-- Whether in a folder and in all below it names of files are valid and differ, and
names of folders are segments of paths and differ. -/
inductive Separate (valid : String → Prop) : Folder → Prop
  | mk {name : String} {files : List PackFile} {folders : List Folder}
    (hfiles : ∀ name ∈ files.map (·.name), valid name)
    (hfiles_nodup : (files.map (·.name)).Nodup)
    (hfolders : ∀ name ∈ folders.map Folder.name, Path.IsSegment name)
    (hfolders_nodup : (folders.map Folder.name).Nodup)
    (hbelow : ∀ folder ∈ folders, Separate valid folder) : Separate valid (.mk name files folders)

theorem tidy_iff_separate {folder : Folder} : folder.Tidy ↔ folder.Separate Path.IsSegment := by
  constructor
  · intro h
    induction h with
    | mk hfiles hfiles_nodup hfolders hfolders_nodup hbelow ih =>
        exact .mk hfiles hfiles_nodup hfolders hfolders_nodup ih
  · intro h
    induction h with
    | mk hfiles hfiles_nodup hfolders hfolders_nodup hbelow ih =>
        exact .mk hfiles hfiles_nodup hfolders hfolders_nodup ih

variable {valid : String → Prop}

theorem separate_empty (name : String) : (empty name).Separate valid :=
  .mk (by simp) (by simp) (by simp) (by simp) (by simp)

theorem tidy_empty (name : String) : (empty name).Tidy :=
  tidy_iff_separate.2 (separate_empty name)

/-! ## Changes keep names apart -/

theorem names_changeIn {change : Folder → Folder}
    (hchange : ∀ folder, (change folder).name = folder.name) (segment : String)
    (folders : List Folder) :
    (changeIn segment change folders).map Folder.name
      = withName segment (folders.map Folder.name) := by
  induction folders with
  | nil =>
      rw [changeIn, List.map_singleton, hchange]
      rfl
  | cons folder folders ih =>
      rw [changeIn]
      by_cases hsegment : folder.name = segment
      · simp [hsegment, withName, hchange]
      · have hne : segment ≠ folder.name := fun h => hsegment h.symm
        rw [if_neg hsegment, List.map_cons, ih, List.map_cons, withName, withName]
        by_cases hmem : segment ∈ folders.map Folder.name <;> simp [hmem, hne]

theorem mem_changeIn {change : Folder → Folder} {segment : String} {folders : List Folder}
    {folder : Folder} (h : folder ∈ changeIn segment change folders) :
    folder ∈ folders ∨ ∃ old, (old ∈ folders ∨ old = empty segment) ∧ folder = change old := by
  induction folders with
  | nil => exact .inr ⟨empty segment, .inr rfl, List.mem_singleton.1 h⟩
  | cons first folders ih =>
      rw [changeIn] at h
      split at h
      · rcases List.mem_cons.1 h with rfl | h
        · exact .inr ⟨first, .inl (List.mem_cons_self ..), rfl⟩
        · exact .inl (.tail _ h)
      · rcases List.mem_cons.1 h with rfl | h
        · exact .inl (List.mem_cons_self ..)
        · rcases ih h with h | ⟨old, hold, rfl⟩
          · exact .inl (.tail _ h)
          · exact .inr ⟨old, hold.imp_left (.tail _), rfl⟩

theorem names_setFile (name : String) (content : Content) (files : List PackFile) :
    (setFile name content files).map (·.name) = withName name (files.map (·.name)) := by
  induction files with
  | nil => simp [setFile, withName]
  | cons file files ih =>
      rw [setFile]
      by_cases hname : file.name = name
      · simp [hname, withName]
      · have hne : name ≠ file.name := fun h => hname h.symm
        rw [if_neg hname, List.map_cons, ih, List.map_cons, withName, withName]
        by_cases hmem : name ∈ files.map (·.name) <;> simp [hmem, hne]

/-- A change in one place keeps the names in a folder apart if it does so in that place. -/
theorem Separate.changeAt {change : Folder → Folder}
    (hname : ∀ folder, (change folder).name = folder.name)
    (hseparate : ∀ folder, folder.Separate valid → (change folder).Separate valid)
    {path : List String} (hpath : ∀ segment ∈ path, Path.IsSegment segment) {folder : Folder}
    (h : folder.Separate valid) : (folder.changeAt path change).Separate valid := by
  induction path generalizing folder with
  | nil => exact hseparate folder h
  | cons segment path ih =>
      have ih := @ih fun other hother => hpath other (.tail _ hother)
      obtain @⟨_, files, folders, hfiles, hfiles_nodup, hfolders, hfolders_nodup, hbelow⟩ := h
      have hnames := names_changeIn (name_changeAt hname path) segment folders
      refine .mk hfiles hfiles_nodup ?_ (hnames ▸ nodup_withName hfolders_nodup) ?_
      · change ∀ other ∈ (changeIn segment _ folders).map Folder.name, _
        intro other hother
        rw [hnames, mem_withName] at hother
        rcases hother with hother | rfl
        · exact hfolders other hother
        · exact hpath other (List.mem_cons_self ..)
      · intro changed hchanged
        rcases mem_changeIn hchanged with hmem | ⟨old, hold | rfl, rfl⟩
        · exact hbelow changed hmem
        · exact ih (hbelow old hold)
        · exact ih (separate_empty segment)

theorem Separate.putFile {path : List String}
    (hpath : ∀ segment ∈ path, Path.IsSegment segment) {name : String} (hname : valid name)
    (content : Content) {folder : Folder} (h : folder.Separate valid) :
    (folder.putFile path name content).Separate valid := by
  refine Separate.changeAt (name_mapFiles (setFile name content)) (fun target htarget => ?_) hpath h
  obtain @⟨_, files, folders, hfiles, hfiles_nodup, hfolders, hfolders_nodup, hbelow⟩ := htarget
  have hnames := names_setFile name content files
  refine .mk ?_ (hnames ▸ nodup_withName hfiles_nodup) hfolders hfolders_nodup hbelow
  change ∀ other ∈ (setFile name content files).map (·.name), _
  intro other hother
  rw [hnames, mem_withName] at hother
  rcases hother with hother | rfl
  · exact hfiles other hother
  · exact hname

/-! ## The files of a folder, listed -/

mutual

/-- All files of a folder, each with the path of the folder that it lies in: first
those of the folder itself. -/
def entries : Folder → List (List String × PackFile)
  | mk _ files folders => files.map (([], ·)) ++ entriesIn folders

/-- All files of some folders, each with its path from the folder in which these lie. -/
def entriesIn : List Folder → List (List String × PackFile)
  | [] => []
  | folder :: folders =>
    folder.entries.map (fun entry => (folder.name :: entry.1, entry.2)) ++ entriesIn folders

end

theorem entriesIn_eq_flatMap (folders : List Folder) :
    entriesIn folders = folders.flatMap fun folder =>
      folder.entries.map fun entry => (folder.name :: entry.1, entry.2) := by
  induction folders with
  | nil => rfl
  | cons folder folders ih => rw [entriesIn, ih, List.flatMap_cons]

theorem entries_eq (folder : Folder) :
    folder.entries = folder.files.map (([], ·)) ++ folder.folders.flatMap fun folder =>
      folder.entries.map fun entry => (folder.name :: entry.1, entry.2) := by
  obtain ⟨name, files, folders⟩ := folder
  rw [entries, entriesIn_eq_flatMap]
  rfl

theorem mem_entries_nil {folder : Folder} {file : PackFile} :
    ([], file) ∈ folder.entries ↔ file ∈ folder.files := by
  simp [entries_eq folder]

theorem mem_entries_cons {folder : Folder} {segment : String} {path : List String}
    {file : PackFile} :
    (segment :: path, file) ∈ folder.entries ↔
      ∃ sub ∈ folder.folders, sub.name = segment ∧ (path, file) ∈ sub.entries := by
  rw [entries_eq folder, List.mem_append, List.mem_flatMap]
  constructor
  · rintro (h | ⟨sub, hsub, h⟩)
    · simp at h
    · obtain ⟨⟨path', file'⟩, hentry, heq⟩ := List.mem_map.1 h
      obtain ⟨hpath, rfl⟩ := Prod.mk.inj heq
      obtain ⟨rfl, rfl⟩ := List.cons.inj hpath
      exact ⟨sub, hsub, rfl, hentry⟩
  · rintro ⟨sub, hsub, rfl, hentry⟩
    exact .inr ⟨sub, hsub, List.mem_map.2 ⟨(path, file), hentry, rfl⟩⟩

/-- The entries of a folder are the files that can be looked up. -/
theorem Separate.mem_entries_iff {folder : Folder} (h : folder.Separate valid)
    {path : List String} {file : PackFile} :
    (path, file) ∈ folder.entries ↔ folder.file? path file.name = some file := by
  rw [file?_eq]
  induction path generalizing folder with
  | nil =>
      obtain @⟨_, files, folders, -, hnodup, -⟩ := h
      rw [mem_entries_nil]
      exact (find?_key_eq_some_iff hnodup).symm
  | cons segment path ih =>
      obtain @⟨_, files, folders, -, -, -, hnodup, hbelow⟩ := h
      rw [mem_entries_cons, filesAt_cons]
      change (∃ sub ∈ folders, _) ↔ _
      constructor
      · rintro ⟨sub, hsub, rfl, hentry⟩
        rw [Folder.folders, (find?_key_eq_some_iff hnodup).2 hsub]
        exact (ih (hbelow sub hsub)).1 hentry
      · intro hfile
        cases hfound : folders.find? (·.name = segment) with
        | none =>
            rw [Folder.folders, hfound] at hfile
            contradiction
        | some sub =>
            rw [Folder.folders, hfound] at hfile
            obtain ⟨hsub, hname⟩ := mem_of_find?_key hfound
            exact ⟨sub, hsub, hname, (ih (hbelow sub hsub)).2 hfile⟩

theorem Tidy.mem_entries_iff {folder : Folder} (h : folder.Tidy) {path : List String}
    {file : PackFile} :
    (path, file) ∈ folder.entries ↔ folder.file? path file.name = some file :=
  (tidy_iff_separate.1 h).mem_entries_iff

theorem Tidy.isSegment_of_mem_entries {folder : Folder} (h : folder.Tidy) :
    ∀ entry ∈ folder.entries, ∀ segment ∈ entry.1 ++ [entry.2.name], Path.IsSegment segment := by
  induction h with
  | @mk name files folders hfiles hfiles_nodup hfolders hfolders_nodup hbelow ih =>
      intro entry hentry segment hsegment
      rw [entries_eq, List.mem_append, List.mem_flatMap] at hentry
      rcases hentry with hentry | ⟨sub, hsub, hentry⟩
      · obtain ⟨file, hfile, rfl⟩ := List.mem_map.1 hentry
        obtain rfl := List.mem_singleton.1 hsegment
        exact hfiles file.name (List.mem_map_of_mem hfile)
      · obtain ⟨below, hbelow_entry, rfl⟩ := List.mem_map.1 hentry
        rcases List.mem_cons.1 hsegment with rfl | hsegment
        · exact hfolders sub.name (List.mem_map_of_mem hsub)
        · exact ih sub hsub below hbelow_entry segment hsegment

/-- Where an entry lies: the path of its folder, and its name. -/
def key (entry : List String × PackFile) : List String × String :=
  (entry.1, entry.2.name)

/-- No two entries of a folder have one path and one name. -/
theorem Separate.keys_nodup {folder : Folder} (h : folder.Separate valid) :
    (folder.entries.map key).Nodup := by
  induction h with
  | @mk name files folders hfiles hfiles_nodup hfolders hfolders_nodup hbelow ih =>
      rw [entries_eq, List.map_append, List.map_flatMap]
      refine List.nodup_append.2 ⟨?_, List.nodup_flatMap.2 ⟨fun sub hsub => ?_, ?_⟩, ?_⟩
      · have hkeys : (files.map (([], ·))).map key = (files.map (·.name)).map (([], ·)) := by
          simp [key]
        exact hkeys ▸ hfiles_nodup.map fun _ _ h => (Prod.mk.inj h).2
      · have hkeys : (sub.entries.map fun entry => (sub.name :: entry.1, entry.2)).map key
            = (sub.entries.map key).map fun place => (sub.name :: place.1, place.2) := by
          simp [key]
        refine hkeys ▸ (ih sub hsub).map fun first second heq => ?_
        obtain ⟨hpath, hname⟩ := Prod.mk.inj heq
        exact Prod.ext (List.cons.inj hpath).2 hname
      · refine (List.pairwise_map.1 hfolders_nodup).imp
          fun {first second} hne place hfirst hsecond => hne ?_
        -- the first segments of a place are the names of both folders
        have hhead {sub : Folder}
            (h : place ∈ (sub.entries.map fun entry => (sub.name :: entry.1, entry.2)).map key) :
            place.1.head? = some sub.name := by
          simp only [List.mem_map] at h
          obtain ⟨_, ⟨_, -, rfl⟩, rfl⟩ := h
          rfl
        exact Option.some.inj ((hhead hfirst).symm.trans (hhead hsecond))
      · rintro place hplace other hother rfl
        simp only [List.mem_map, List.mem_flatMap] at hplace hother
        obtain ⟨_, ⟨_, -, rfl⟩, rfl⟩ := hplace
        obtain ⟨_, -, _, ⟨_, -, rfl⟩, heq⟩ := hother
        exact List.cons_ne_nil _ _ (Prod.mk.inj heq).1

theorem Tidy.keys_nodup {folder : Folder} (h : folder.Tidy) : (folder.entries.map key).Nodup :=
  (tidy_iff_separate.1 h).keys_nodup

end Folder

/-! ## Packs are tidy -/

namespace Placement

open Folder

/-- Whether all segments of a place can stand in a path. -/
def IsRegularPlace (place : List String × String) : Prop :=
  (∀ segment ∈ place.1, Path.IsSegment segment) ∧ Path.IsSegment place.2

/-- The path of a folder that is made without a file. -/
def madeFolder? : Placement → Option (List String)
  | folder path => some path
  | file .. => none

/-- The place of a resource is regular if its location is. -/
theorem isRegularPlace_resource {category : List String}
    (hcategory : ∀ segment ∈ category, Path.IsSegment segment) {extension : String}
    (hextension : '/' ∉ extension.toList) {location : Location} (h : location.Regular) :
    IsRegularPlace (resourcePlace category extension location) := by
  refine ⟨fun segment hsegment => ?_, ?_⟩
  · simp only [resourcePlace, List.mem_append, List.mem_cons, List.not_mem_nil, or_false]
      at hsegment
    rcases hsegment with ((rfl | rfl) | hsegment) | hsegment
    · decide
    · exact h.space.1
    · exact hcategory segment hsegment
    · exact (h.path segment (List.dropLast_subset _ hsegment)).1
  · have hlast := (h.path _ (List.getLast_mem h.ne_nil)).1
    rw [resourcePlace, List.getLast?_eq_some_getLast h.ne_nil, Option.getD_some]
    refine ⟨fun hempty => hlast.1 (String.append_eq_empty_iff.1 hempty).1, ?_⟩
    rw [String.toList_append, List.mem_append]
    exact not_or_intro hlast.2 hextension

/-- Names stay apart if all that is placed has segments for names of folders, and valid
names for files. -/
theorem separate_foldl {valid : String → Prop} {placements : List Placement}
    (hfiles : ∀ place ∈ placements.filterMap place?,
      (∀ segment ∈ place.1, Path.IsSegment segment) ∧ valid place.2)
    (hfolders : ∀ path ∈ placements.filterMap madeFolder?,
      ∀ segment ∈ path, Path.IsSegment segment) {pack : Folder} (h : pack.Separate valid) :
    (placements.foldl into pack).Separate valid := by
  induction placements generalizing pack with
  | nil => exact h
  | cons placement placements ih =>
      have hsub := List.sublist_cons_self placement placements
      refine ih (fun place hplace => hfiles place ((hsub.filterMap place?).subset hplace))
        (fun path hpath => hfolders path ((hsub.filterMap madeFolder?).subset hpath)) ?_
      cases placement with
      | folder path =>
          exact h.changeAt (fun _ => rfl) (fun _ => id) (hfolders path (List.mem_cons_self ..))
      | file path name content =>
          obtain ⟨hpath, hname⟩ := hfiles (path, name) (List.mem_cons_self ..)
          exact h.putFile hpath hname content

/-- Folders stay tidy if all that is placed into them has segments for names. -/
theorem tidy_foldl {placements : List Placement}
    (hfiles : ∀ place ∈ placements.filterMap place?, IsRegularPlace place)
    (hfolders : ∀ path ∈ placements.filterMap madeFolder?,
      ∀ segment ∈ path, Path.IsSegment segment) {pack : Folder} (h : pack.Tidy) :
    (placements.foldl into pack).Tidy :=
  tidy_iff_separate.2 (separate_foldl hfiles hfolders (tidy_iff_separate.1 h))

end Placement

namespace Blueprint

open Placement

/-- The folders that are there even if nothing is in them. -/
theorem folders_layout (blueprint : Blueprint) (settings : Settings) :
    (blueprint.layout settings).filterMap madeFolder?
      = [["data", blueprint.names.space], ["data", blueprint.names.internal],
        ["data", blueprint.names.space, "functions", "summon"]] := by
  have hlooks : blueprint.looks.flatMap
      (fun look => (look.layout blueprint.names).filterMap madeFolder?) = [] :=
    List.flatMap_eq_nil_iff.2 fun _ _ => rfl
  have hmotions : blueprint.motions.flatMap
      (fun motion => (motion.layout blueprint.names).filterMap madeFolder?) = [] := by
    refine List.flatMap_eq_nil_iff.2 fun motion _ => ?_
    have htimeline : (motion.timelineLayout blueprint.names).filterMap madeFolder? = [] := by
      refine List.filterMap_eq_nil_iff.2 fun placement hplacement => ?_
      obtain ⟨unit, -, rfl⟩ := List.mem_map.1 hplacement
      rfl
    rw [Motion.layout, List.filterMap_append, htimeline]
    rfl
  have hothers : blueprint.summonOthers.filterMap madeFolder? = [] := by
    refine List.filterMap_eq_nil_iff.2 fun placement hplacement => ?_
    obtain ⟨look, -, rfl⟩ := List.mem_map.1 hplacement
    rfl
  simp only [layout, List.filterMap_append, summoning_eq, hothers, List.filterMap_flatMap, hlooks,
    hmotions, List.append_nil]
  rfl

theorem isRegularPlace_otherPlaces {names : Naming} (hspace : IsPlain names.space) :
    ∀ place ∈ otherPlaces names, IsRegularPlace place := by
  have hgroup {name : String} (hname : IsPlain name) : (names.group name).Regular :=
    ⟨hspace, List.cons_ne_nil name [], by simpa [Naming.group] using hname⟩
  have hgame {name : String} (hname : IsPlain name) :
      (Location.mk "minecraft" [name]).Regular :=
    ⟨(by decide : IsPlain "minecraft"), List.cons_ne_nil name [], by simpa using hname⟩
  intro place hplace
  simp only [otherPlaces, List.mem_cons, List.not_mem_nil, or_false] at hplace
  rcases hplace with rfl | rfl | rfl | rfl | rfl | rfl | rfl | rfl | rfl
  · exact ⟨by simp, by decide⟩
  · exact ⟨by simp, by decide⟩
  · exact isRegularPlace_resource (by decide) (by decide) (hgame (by decide))
  · exact isRegularPlace_resource (by decide) (by decide) (hgame (by decide))
  all_goals exact isRegularPlace_resource (by decide) (by decide) (hgroup (by decide))

/-- The pack of a sound blueprint is tidy. -/
theorem Sound.tidy_pack {blueprint : Blueprint} (hsound : blueprint.Sound) (settings : Settings) :
    (blueprint.pack settings).Tidy := by
  refine tidy_foldl ?_ ?_ (Folder.tidy_empty _)
  · rw [places_layout]
    intro place hplace
    rcases List.mem_append.1 hplace with hplace | hplace
    · exact isRegularPlace_otherPlaces hsound.space place hplace
    · obtain ⟨location, hlocation, rfl⟩ := List.mem_map.1 hplace
      exact isRegularPlace_resource (by decide) (by decide)
        (regular_of_mem_functions hsound location hlocation)
  · rw [folders_layout]
    have hspace := hsound.space.1
    have hinternal := (isPlain_internal hsound.space).1
    have hdata : Path.IsSegment "data" := by decide
    have hfunctions : Path.IsSegment "functions" := by decide
    have hsummon : Path.IsSegment "summon" := by decide
    simp [hspace, hinternal, hdata, hfunctions, hsummon]

end Blueprint

theorem Export.tidy_of_build {settings : Settings} {project : Project} {pack : Folder}
    (h : build settings project = .ok pack) : pack.Tidy := by
  obtain ⟨blueprint, haccepted, hblueprint, rfl⟩ := build_eq_ok h
  exact (Blueprint.sound_of_build haccepted hblueprint).tidy_pack settings

end RigPack

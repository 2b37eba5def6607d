import Mathlib.Data.Finset.Card
import Mathlib.Data.Finset.Dedup
import RigPack.Proofs.Pack.Tidy

/-!
# What lies in a folder, counted

`entryCount` counts the files and folders below a folder on the way through it.  If names
are kept apart, that is the number of different paths: as many as lead to a folder below,
and as many as lead to a file (`Separate.entryCount_eq_card`).
-/

namespace RigPack.Folder

variable {valid : String → Prop}

mutual

/-- The paths of all folders below a folder. -/
def folderPaths : Folder → List (List String)
  | mk _ _ folders => folderPathsIn folders

/-- The paths of some folders and of all below them, from the folder in which these lie. -/
def folderPathsIn : List Folder → List (List String)
  | [] => []
  | folder :: folders =>
    ([] :: folder.folderPaths).map (folder.name :: ·) ++ folderPathsIn folders

end

theorem folderPathsIn_eq_flatMap (folders : List Folder) :
    folderPathsIn folders
      = folders.flatMap fun folder => ([] :: folder.folderPaths).map (folder.name :: ·) := by
  induction folders with
  | nil => rfl
  | cons folder folders ih => rw [folderPathsIn, ih, List.flatMap_cons]

theorem folderPaths_eq (folder : Folder) :
    folder.folderPaths
      = folder.folders.flatMap fun sub => ([] :: sub.folderPaths).map (sub.name :: ·) := by
  obtain ⟨name, files, folders⟩ := folder
  exact folderPathsIn_eq_flatMap folders

mutual

/-- Every entry is a file or a folder. -/
theorem entryCount_eq_length :
    ∀ folder : Folder, folder.entryCount = folder.folderPaths.length + folder.entries.length
  | mk name files folders => by
    have hbelow := entryCounts_eq_length folders
    rw [entryCount, folderPaths, entries, List.length_append, List.length_map]
    omega

theorem entryCounts_eq_length : ∀ folders : List Folder,
    entryCounts folders = (folderPathsIn folders).length + (entriesIn folders).length
  | [] => rfl
  | folder :: folders => by
    have hfolder := entryCount_eq_length folder
    have hbelow := entryCounts_eq_length folders
    rw [entryCounts, folderPathsIn, entriesIn, List.length_append, List.length_append,
      List.length_map, List.length_map, List.length_cons]
    omega

end

theorem mem_folderPaths_cons {folder : Folder} {segment : String} {path : List String} :
    segment :: path ∈ folder.folderPaths ↔
      ∃ sub ∈ folder.folders, sub.name = segment ∧ (path = [] ∨ path ∈ sub.folderPaths) := by
  rw [folderPaths_eq, List.mem_flatMap]
  simp only [List.mem_map, List.mem_cons, List.cons.injEq]
  constructor
  · rintro ⟨sub, hsub, path, hpath, rfl, rfl⟩
    exact ⟨sub, hsub, rfl, hpath⟩
  · rintro ⟨sub, hsub, rfl, hpath⟩
    exact ⟨sub, hsub, path, hpath, rfl, rfl⟩

theorem nil_not_mem_folderPaths (folder : Folder) : [] ∉ folder.folderPaths := by
  rw [folderPaths_eq]
  simp

/-- The folders that are listed are those that can be looked up. -/
theorem Separate.mem_folderPaths_iff {folder : Folder} (h : folder.Separate valid)
    {path : List String} :
    path ∈ folder.folderPaths ↔ path ≠ [] ∧ (folder.folder? path).isSome = true := by
  induction path generalizing folder with
  | nil => simp [nil_not_mem_folderPaths]
  | cons segment path ih =>
      obtain @⟨_, files, folders, -, -, -, hnodup, hbelow⟩ := h
      rw [mem_folderPaths_cons, and_iff_right (List.cons_ne_nil segment path), folder?,
        Folder.folders]
      have hpath {sub : Folder} (hsub : sub ∈ folders) :
          path = [] ∨ path ∈ sub.folderPaths ↔ (sub.folder? path).isSome = true := by
        rw [ih (hbelow sub hsub)]
        cases path <;> simp [folder?]
      constructor
      · rintro ⟨sub, hsub, rfl, hmem⟩
        rw [(find?_key_eq_some_iff hnodup).2 hsub]
        exact (hpath hsub).1 hmem
      · intro hsome
        cases hfound : folders.find? (·.name = segment) with
        | none => simp [hfound] at hsome
        | some sub =>
            rw [hfound, Option.bind_some] at hsome
            obtain ⟨hsub, hname⟩ := mem_of_find?_key hfound
            exact ⟨sub, hsub, hname, (hpath hsub).2 hsome⟩

theorem Separate.folderPaths_nodup {folder : Folder} (h : folder.Separate valid) :
    folder.folderPaths.Nodup := by
  induction h with
  | @mk name files folders hfiles hfiles_nodup hfolders hfolders_nodup hbelow ih =>
      rw [folderPaths_eq]
      refine List.nodup_flatMap.2 ⟨fun sub hsub => ?_, ?_⟩
      · have hinj : Function.Injective (sub.name :: ·) := fun _ _ heq => (List.cons.inj heq).2
        exact (List.nodup_cons.2 ⟨nil_not_mem_folderPaths sub, ih sub hsub⟩).map hinj
      · -- the paths below two folders differ in their first segments
        refine (List.pairwise_map.1 hfolders_nodup).imp fun hne path hfirst hsecond => hne ?_
        obtain ⟨_, -, rfl⟩ := List.mem_map.1 hfirst
        obtain ⟨_, -, heq⟩ := List.mem_map.1 hsecond
        exact (List.cons.inj heq).1.symm

/-- A folder has as many entries as paths lead to a folder below it or to a file. -/
theorem Separate.entryCount_eq_card {folder : Folder} (h : folder.Separate valid)
    {paths : List (List String)} {places : List (List String × String)}
    (hpaths : ∀ path, path ∈ paths ↔ path ≠ [] ∧ (folder.folder? path).isSome = true)
    (hplaces : ∀ path name, (path, name) ∈ places ↔ (folder.file? path name).isSome = true) :
    folder.entryCount = paths.toFinset.card + places.toFinset.card := by
  have hfolders : folder.folderPaths.toFinset = paths.toFinset := by
    ext path
    rw [List.mem_toFinset, List.mem_toFinset, h.mem_folderPaths_iff, hpaths]
  have hfiles : (folder.entries.map key).toFinset = places.toFinset := by
    ext ⟨path, name⟩
    rw [List.mem_toFinset, List.mem_toFinset, hplaces, List.mem_map]
    constructor
    · rintro ⟨⟨path', file⟩, hentry, heq⟩
      obtain ⟨rfl, rfl⟩ := Prod.mk.inj heq
      exact Option.isSome_iff_exists.2 ⟨file, h.mem_entries_iff.1 hentry⟩
    · intro hsome
      obtain ⟨file, hfile⟩ := Option.isSome_iff_exists.1 hsome
      obtain ⟨target, -, hfound⟩ := Option.bind_eq_some_iff.1 hfile
      obtain ⟨-, rfl⟩ := mem_of_find?_key hfound
      exact ⟨(path, file), h.mem_entries_iff.2 hfile, rfl⟩
  have hlength : (folder.entries.map key).length = folder.entries.length := List.length_map key
  rw [entryCount_eq_length, ← hlength, ← hfolders, ← hfiles,
    List.toFinset_card_of_nodup h.folderPaths_nodup, List.toFinset_card_of_nodup h.keys_nodup]

end RigPack.Folder

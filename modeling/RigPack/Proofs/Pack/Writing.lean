import RigPack.Proofs.Pack.Tidy
import RigPack.Proofs.Table

/-!
# The writing of a pack, step by step

`Folder.write` follows the tree of a folder.  What it asks of a store is a list of steps
that the tree alone decides (`Folder.steps`); they are taken in order, up to the first
one that fails (`write_eq`).

Read as changes of a store, the steps put down each file of the folder once, under the
path that its segments spell (`writes_steps`), and nothing outside of the folder.

## Main statements

* `write_eq`: writing a folder takes its steps, and counts its entries.
* `writes_steps`: the files that the steps write are those of the folder.
* `Tidy.mem_texts_iff`: these are the files that can be looked up, each at its path.
* `texts_nodup`: no two files of a tidy folder are written to one path.
* `Blueprint.Sound.steps_pack`: the metadata of a pack is written before all other files.
-/

namespace RigPack

/-- What the writing of a folder does at a time. -/
inductive WriteStep
  | makeFolders (path : String)
  | writeText (path content : String)
  /-- Tells that a file or a folder is done. -/
  | tell

namespace WriteStep

/-- A step as a call of a store. -/
def perform {m : Type → Type} [Monad m] [FileStore m] (onWritten : Nat → m Unit) :
    WriteStep → ExceptT IoError m Unit
  | makeFolders path => FileStore.makeFolders path
  | writeText path content => FileStore.writeText path content
  | tell => ExceptT.lift (onWritten 1)

/-- The path and the content that a step writes. -/
def write? : WriteStep → Option (String × String)
  | writeText path content => some (path, content)
  | _ => none

/-- How many entries a step tells of. -/
def told : WriteStep → Nat
  | tell => 1
  | _ => 0

end WriteStep

namespace Folder

/-- The steps that write the files of a folder at `path`. -/
def fileSteps (path : String) (files : List PackFile) : List WriteStep :=
  files.flatMap fun file => [.writeText (Path.join path file.name) file.content.text, .tell]

mutual

/-- The steps that write a folder below `parent`. -/
def steps (parent : String) : Folder → List WriteStep
  | mk name files folders =>
    .makeFolders (Path.join parent name) :: (fileSteps (Path.join parent name) files
      ++ stepsIn (Path.join parent name) folders)

/-- The steps that write several folders below `parent`. -/
def stepsIn (parent : String) : List Folder → List WriteStep
  | [] => []
  | folder :: folders => folder.steps parent ++ .tell :: stepsIn parent folders

end

/-! ## Writing takes the steps -/

section Write

variable {m : Type → Type} [Monad m] [LawfulMonad m] [FileStore m] (onWritten : Nat → m Unit)

theorem writeFiles_eq (path : String) (files : List PackFile) :
    writeFiles onWritten path files = do
      forM (fileSteps path files) (WriteStep.perform onWritten)
      return files.length := by
  induction files with
  | nil => simp [writeFiles, fileSteps]
  | cons file files ih =>
      simp [writeFiles, fileSteps, ih, WriteStep.perform, Nat.add_comm]

mutual

/-- Writing a folder takes its steps one after the other, and counts what lies in it. -/
theorem write_eq (parent : String) : ∀ folder : Folder,
    folder.write onWritten parent = do
      forM (folder.steps parent) (WriteStep.perform onWritten)
      return folder.entryCount
  | mk name files folders => by
    simp [write, steps, entryCount, writeFiles_eq, writeAll_eq, WriteStep.perform]

theorem writeAll_eq (parent : String) : ∀ folders : List Folder,
    writeAll onWritten parent folders = do
      forM (stepsIn parent folders) (WriteStep.perform onWritten)
      return entryCounts folders
  | [] => by simp [writeAll, stepsIn, entryCounts]
  | folder :: folders => by
    simp [writeAll, stepsIn, entryCounts, write_eq parent folder, writeAll_eq parent folders,
      WriteStep.perform, Nat.add_comm]

end

end Write

/-! ## What the steps tell and write -/

/-- The files of a folder that lies at `root`, as paths with contents. -/
def texts (root : String) (folder : Folder) : List (String × String) :=
  folder.entries.map fun entry =>
    (Path.joinAll root (entry.1 ++ [entry.2.name]), entry.2.content.text)

theorem told_fileSteps (path : String) (files : List PackFile) :
    ((fileSteps path files).map WriteStep.told).sum = files.length := by
  induction files with
  | nil => rfl
  | cons file files ih =>
      simp only [fileSteps, List.flatMap_cons, List.map_append, List.sum_append] at ih ⊢
      rw [ih]
      simp [WriteStep.told, Nat.add_comm]

mutual

/-- The steps tell of every entry of the folder. -/
theorem told_steps (parent : String) : ∀ folder : Folder,
    ((folder.steps parent).map WriteStep.told).sum = folder.entryCount
  | mk name files folders => by
    rw [steps, List.map_cons, List.sum_cons, List.map_append, List.sum_append, told_fileSteps,
      told_stepsIn, entryCount]
    exact Nat.zero_add _

theorem told_stepsIn (parent : String) : ∀ folders : List Folder,
    ((stepsIn parent folders).map WriteStep.told).sum = entryCounts folders
  | [] => rfl
  | folder :: folders => by
    rw [stepsIn, List.map_append, List.sum_append, told_steps parent folder, List.map_cons,
      List.sum_cons, told_stepsIn parent folders, entryCounts, WriteStep.told, Nat.add_left_comm,
      Nat.add_assoc]

end

theorem writes_fileSteps (path : String) (files : List PackFile) :
    (fileSteps path files).filterMap WriteStep.write?
      = files.map fun file => (Path.join path file.name, file.content.text) := by
  rw [fileSteps, List.filterMap_flatMap, List.map_eq_flatMap]
  rfl

mutual

/-- The steps write the files of the folder, and write nothing else. -/
theorem writes_steps (parent : String) : ∀ folder : Folder,
    (folder.steps parent).filterMap WriteStep.write?
      = folder.texts (Path.join parent folder.name)
  | mk folderName files folders => by
    have hbelow := writes_stepsIn (Path.join parent folderName) folders
    rw [steps, List.filterMap_cons, texts, entries, List.map_append, List.map_map]
    simp only [WriteStep.write?, List.filterMap_append, writes_fileSteps, hbelow]
    rfl

theorem writes_stepsIn (parent : String) : ∀ folders : List Folder,
    (stepsIn parent folders).filterMap WriteStep.write?
      = (entriesIn folders).map fun entry =>
          (Path.joinAll parent (entry.1 ++ [entry.2.name]), entry.2.content.text)
  | [] => rfl
  | folder :: folders => by
    rw [stepsIn, List.filterMap_append, writes_steps parent folder, List.filterMap_cons,
      entriesIn, List.map_append, List.map_map, writes_stepsIn parent folders]
    rfl

end

/-- No two files of a tidy folder are written to one path. -/
theorem texts_nodup {folder : Folder} (htidy : folder.Tidy) {root : String}
    (hroot : Path.IsBase root) : ((folder.texts root).map (·.1)).Nodup := by
  rw [texts, List.map_map]
  refine (List.Nodup.of_map _ htidy.keys_nodup).map_on fun first hfirst second hsecond h => ?_
  have hpaths : first.1 ++ [first.2.name] = second.1 ++ [second.2.name] :=
    Path.joinAll_injective hroot (htidy.isSegment_of_mem_entries first hfirst)
      (htidy.isSegment_of_mem_entries second hsecond) h
  obtain ⟨hpath, hname⟩ := List.append_inj' hpaths rfl
  exact List.inj_on_of_nodup_map htidy.keys_nodup hfirst hsecond
    (Prod.ext hpath (List.cons.inj hname).1)

/-- The texts are those of the files that can be looked up, each at the path of its file. -/
theorem Tidy.mem_texts_iff {folder : Folder} (htidy : folder.Tidy) {root path text : String} :
    (path, text) ∈ folder.texts root ↔ ∃ dir file, folder.file? dir file.name = some file ∧
      path = Path.joinAll root (dir ++ [file.name]) ∧ text = file.content.text := by
  rw [texts, List.mem_map]
  constructor
  · rintro ⟨⟨dir, file⟩, hentry, heq⟩
    obtain ⟨rfl, rfl⟩ := Prod.mk.inj heq
    exact ⟨dir, file, htidy.mem_entries_iff.1 hentry, rfl, rfl⟩
  · rintro ⟨dir, file, hfile, rfl, rfl⟩
    exact ⟨(dir, file), htidy.mem_entries_iff.2 hfile, rfl⟩

/-- Under the path of a file its text is found, and nothing where there is no file. -/
theorem Tidy.find?_texts {folder : Folder} (htidy : folder.Tidy) {root : String}
    (hroot : Path.IsBase root) {dir : List String} {name : String}
    (hpath : ∀ segment ∈ dir ++ [name], Path.IsSegment segment) :
    Table.find? (Path.joinAll root (dir ++ [name])) (folder.texts root)
      = (folder.file? dir name).map (·.content.text) := by
  cases hfile : folder.file? dir name with
  | some file =>
      have hfound : (folder.filesAt dir).find? (·.name = name) = some file := by
        rwa [file?_eq] at hfile
      obtain ⟨-, rfl⟩ := mem_of_find?_key hfound
      exact Table.find?_eq_some (texts_nodup htidy hroot)
        (htidy.mem_texts_iff.2 ⟨dir, file, hfile, rfl, rfl⟩)
  | none =>
      refine Table.find?_eq_none fun hmem => ?_
      obtain ⟨⟨path, text⟩, hentry, hsame⟩ := List.mem_map.1 hmem
      obtain ⟨dir', file, hfile', rfl, -⟩ := htidy.mem_texts_iff.1 hentry
      have hsegments := htidy.isSegment_of_mem_entries _ (htidy.mem_entries_iff.2 hfile')
      obtain ⟨rfl, hname⟩ :=
        List.append_inj' (Path.joinAll_injective hroot hsegments hpath hsame) rfl
      obtain rfl := List.singleton_inj.1 hname
      rw [hfile] at hfile'
      contradiction

/-- The first steps make the folder and write the first of its files. -/
theorem steps_of_files {folder : Folder} {first : PackFile} {rest : List PackFile}
    (h : folder.files = first :: rest) (parent : String) :
    ∃ more, folder.steps parent =
      .makeFolders (Path.join parent folder.name) ::
        .writeText (Path.join (Path.join parent folder.name) first.name) first.content.text ::
          more := by
  obtain ⟨name, files, folders⟩ := folder
  obtain rfl : files = first :: rest := h
  exact ⟨_, rfl⟩

end Folder

/-! ## The first file of a pack -/

namespace Placement

/-- The first file of a folder stays the first, and is kept unless it is replaced. -/
theorem files_foldl {placements : List Placement} {pack : Folder} {first : PackFile}
    {rest : List PackFile} (hfiles : pack.files = first :: rest)
    (h : ∀ placement ∈ placements, placement.place? ≠ some ([], first.name)) :
    ∃ rest, (placements.foldl into pack).files = first :: rest := by
  induction placements generalizing pack rest with
  | nil => exact ⟨rest, hfiles⟩
  | cons placement placements ih =>
      have hinto : ∃ rest, (placement.into pack).files = first :: rest := by
        rcases placement with path | ⟨path, name, content⟩
        · cases path <;> exact ⟨rest, hfiles⟩
        · cases path with
          | cons segment path => exact ⟨rest, hfiles⟩
          | nil =>
              have hname : first.name ≠ name := by
                rintro rfl
                exact h _ (List.mem_cons_self ..) rfl
              refine ⟨Folder.setFile name content rest, ?_⟩
              change Folder.setFile name content pack.files = _
              rw [hfiles, Folder.setFile, if_neg hname]
      obtain ⟨rest, hfiles⟩ := hinto
      exact ih hfiles fun other hother => h other (.tail _ hother)

end Placement

namespace Blueprint

/-- A pack starts with its metadata: the writing makes the folder, and then writes the
record of the namespace. -/
theorem Sound.steps_pack {blueprint : Blueprint} (hsound : blueprint.Sound) (settings : Settings)
    (parent : String) :
    ∃ more, (blueprint.pack settings).steps parent =
      .makeFolders (Path.join parent blueprint.names.space) ::
        .writeText (Path.join (Path.join parent blueprint.names.space) metadataFile)
          (Content.json (record blueprint.names)).text :: more := by
  obtain ⟨others, hlayout⟩ : ∃ others, blueprint.layout settings
      = .file [] metadataFile (.json (record blueprint.names)) :: others := ⟨_, rfl⟩
  have hplaces := places_nodup hsound settings
  rw [hlayout] at hplaces
  have hnot : ∀ placement ∈ others, placement.place? ≠ some ([], metadataFile) :=
    fun placement hplacement hplace =>
      (List.nodup_cons.1 hplaces).1 (List.mem_filterMap.2 ⟨placement, hplacement, hplace⟩)
  obtain ⟨rest, hfiles⟩ : ∃ rest, (blueprint.pack settings).files
      = ⟨metadataFile, .json (record blueprint.names)⟩ :: rest := by
    rw [pack, hlayout, List.foldl_cons]
    exact Placement.files_foldl rfl hnot
  exact blueprint.name_pack settings ▸ Folder.steps_of_files hfiles parent

end Blueprint

end RigPack

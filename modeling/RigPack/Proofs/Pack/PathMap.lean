import RigPack.Proofs.Pack.ChangeAt
import RigPack.Proofs.Pack.Counting
import RigPack.Proofs.Path

/-!
# Folders as maps of paths

A folder in memory grows by edits.  Each changes one folder that is there: it makes folders
below it, or sets a file in it.  Whatever the edits were, the tree that they leave behind is a
map of paths: which folders there are and what a file holds can be read off the edits, and
spare slashes in a path do not matter.

## Main statements

* `History.isPathMap_and_keepsOthers`: a folder is a map of paths after any edits, and any
  further edit leaves all other paths as they are.

## Strategy

An edit is a list of placements (`Edit.apply_eq_foldl`), so what it does to files and folders
is what placements do.  The tree after some edits is then compared with their record one edit
at a time.
-/

namespace RigPack.Folder

open RigPack.Path

/-! ## Edits -/

/-- What can be done to a folder. -/
inductive Change
  | newFolder (path : String)
  | newFolders (paths : List String)
  | newFile (name : String) (content : Content)

/-- The folder after a change. -/
def Change.apply : Change → Folder → Folder
  | newFolder path, folder => folder.makeFolder (segments path)
  | newFolders paths, folder => (paths.map segments).foldl makeFolder folder
  | newFile name content, folder => folder.putFile [] name content

/-- A change of the folder at a path below a root. -/
structure Edit where
  place : List String
  change : Change

namespace Edit

/-- The root after an edit. -/
def apply (edit : Edit) (root : Folder) : Folder :=
  root.changeAt edit.place edit.change.apply

/-- The paths of the folders that an edit makes, unless they are there. -/
def dirs (edit : Edit) : List (List String) :=
  match edit.change with
  | .newFolder path => [edit.place ++ segments path]
  | .newFolders paths => paths.map fun path => edit.place ++ segments path
  | .newFile .. => []

/-- The place of the file that an edit sets. -/
def filePlace? (edit : Edit) : Option (List String × String) :=
  match edit.change with
  | .newFile name _ => some (edit.place, name)
  | _ => none

/-- What an edit puts into a place. -/
def putAt? (edit : Edit) (place : List String × String) : Option Content :=
  match edit.change with
  | .newFile name content => if (edit.place, name) = place then some content else none
  | _ => none

/-- Whether the folder that an edit changes is there, and a new file's name has no slash. -/
structure Allowed (edit : Edit) (root : Folder) : Prop where
  isSome_place : (root.folder? edit.place).isSome = true
  name_filePlace? : ∀ place, edit.filePlace? = some place → '/' ∉ place.2.toList

end Edit

/-- Whether some edits, each of a folder that is there, make a root of a new folder. -/
inductive History (name : String) : List Edit → Folder → Prop
  | start : History name [] (empty name)
  | step {edits : List Edit} {root : Folder} {edit : Edit} (h : History name edits root)
    (hedit : edit.Allowed root) : History name (edits ++ [edit]) (edit.apply root)

/-! ## The record of edits -/

/-- The paths below the root of all folders that edits made: of those that they were told to
make, and of those on the way. -/
def madePaths (edits : List Edit) : List (List String) :=
  ((edits.flatMap Edit.dirs).flatMap List.inits).filter (· ≠ [])

/-- The places of all files that edits set. -/
def filePlaces (edits : List Edit) : List (List String × String) :=
  edits.filterMap Edit.filePlace?

/-- What was last put into a place, if anything was. -/
def lastPut? (edits : List Edit) (place : List String × String) : Option Content :=
  edits.reverse.findSome? (·.putAt? place)

/-- Whether a folder answers for all paths as the edits say that made it. -/
structure IsPathMap (edits : List Edit) (root : Folder) : Prop where
  /-- In no folder two files or two folders have one name, and no name can be taken for a path. -/
  separate : root.Separate fun name => '/' ∉ name.toList
  /-- The folders that can be reached are the root and those that were made. -/
  isSome_folder?_iff (path : String) : (root.folder? (segments path)).isSome = true ↔
    segments path = [] ∨ segments path ∈ madePaths edits
  /-- At a path is what was last put there, and it is found in the folder that is reached by the
  path in front of the name. -/
  fileAt?_eq (path : String) : ∃ dir name, Splits path dir name ∧
    root.fileAt? path = (lastPut? edits (segments dir, name)).map (PackFile.mk name) ∧
    root.fileAt? path
      = (root.folder? (segments dir)).bind fun target => target.files.find? (·.name = name)
  /-- The entries are counted once each. -/
  entryCount_eq : root.entryCount
    = (madePaths edits).toFinset.card + (filePlaces edits).toFinset.card

/-- Whether an edit changes nothing but what it is about. -/
structure Edit.KeepsOthers (edit : Edit) (root : Folder) : Prop where
  /-- Files stay, except for the one that is set. -/
  fileAt?_eq {path dir name : String} (h : Splits path dir name)
    (hplace : edit.filePlace? ≠ some (segments dir, name)) :
    (edit.apply root).fileAt? path = root.fileAt? path
  /-- The folders that can be reached are those of before and those that are made. -/
  isSome_folder?_iff (path : String) :
    ((edit.apply root).folder? (segments path)).isSome = true ↔
      (∃ dir ∈ edit.dirs, segments path <+: dir) ∨ (root.folder? (segments path)).isSome = true
  /-- A folder that was reached still is, under its name. -/
  name_folder? {path : String} (h : (root.folder? (segments path)).isSome = true) :
    ((edit.apply root).folder? (segments path)).map Folder.name
      = (root.folder? (segments path)).map Folder.name
  /-- A folder below which nothing is made or set stays with all that is in it. -/
  folder?_eq {path : String} (hplace : ¬ segments path <+: edit.place)
    (hdirs : ∀ dir ∈ edit.dirs, ¬ segments path <+: dir) :
    (edit.apply root).folder? (segments path) = root.folder? (segments path)

/-- Whether folders that are made again, or in two steps, are made once. -/
structure MakesOnce (root : Folder) (place : List String) (path rest : String) : Prop where
  again : Edit.apply ⟨place, .newFolder path⟩ (Edit.apply ⟨place, .newFolder path⟩ root)
    = Edit.apply ⟨place, .newFolder path⟩ root
  /-- It does not matter whether `rest` is made in the folder that `path` leads to, or both are
  made as one path. -/
  below : Edit.apply ⟨place ++ segments path, .newFolder rest⟩
      (Edit.apply ⟨place, .newFolder path⟩ root)
    = Edit.apply ⟨place, .newFolder (path ++ "/" ++ rest)⟩ root
  /-- Either way the same folder is reached. -/
  reached : place ++ segments path ++ segments rest = place ++ segments (path ++ "/" ++ rest) ∧
    ((Edit.apply ⟨place, .newFolder (path ++ "/" ++ rest)⟩ root).folder?
      (place ++ segments (path ++ "/" ++ rest))).isSome = true

/-! ## Edits are placements -/

theorem isSome_folder?_makeFolder (path : List String) (root : Folder) :
    ((root.makeFolder path).folder? path).isSome = true := by
  rw [changeAt_id_eq, isSome_folder?_changeAt]
  exact .inl (List.prefix_refl path)

/-- All names on the way to a folder are segments. -/
theorem Separate.isSegment_of_folder? {valid : String → Prop} {folder : Folder}
    (h : folder.Separate valid) {path : List String} (hpath : (folder.folder? path).isSome = true) :
    ∀ segment ∈ path, IsSegment segment := by
  induction path generalizing folder with
  | nil => simp
  | cons segment path ih =>
      obtain @⟨_, files, folders, -, -, hfolders, -, hbelow⟩ := h
      obtain ⟨target, htarget⟩ := Option.isSome_iff_exists.1 hpath
      obtain ⟨sub, hfound, hrest⟩ := Option.bind_eq_some_iff.1 htarget
      obtain ⟨hsub, rfl⟩ := mem_of_find?_key hfound
      have hrest := ih (hbelow sub hsub) (Option.isSome_iff_exists.2 ⟨target, hrest⟩)
      exact List.forall_mem_cons.2 ⟨hfolders sub.name (List.mem_map_of_mem hsub), hrest⟩

/-- A folder that is found has the last name on the way. -/
theorem name_of_folder? {folder target : Folder} {path : List String}
    (h : folder.folder? path = some target) : target.name = path.getLast?.getD folder.name := by
  induction path generalizing folder with
  | nil => rw [← Option.some.inj h]; rfl
  | cons segment path ih =>
      obtain ⟨sub, hsub, htarget⟩ := Option.bind_eq_some_iff.1 h
      obtain ⟨-, rfl⟩ := mem_of_find?_key hsub
      rw [ih htarget, List.getLast?_cons, Option.getD_some]

namespace Edit

/-- An edit as placements below the root. -/
def placements (edit : Edit) : List Placement :=
  match edit.change with
  | .newFile name content => [.file edit.place name content]
  | _ => edit.dirs.map .folder

theorem apply_newFolder (place : List String) (path : String) (root : Folder) :
    apply ⟨place, .newFolder path⟩ root = root.makeFolder (place ++ segments path) :=
  (changeAt_append place (segments path) id root).symm

theorem apply_newFolders {place : List String} {root : Folder}
    (h : (root.folder? place).isSome = true) (paths : List String) :
    apply ⟨place, .newFolders paths⟩ root
      = (paths.map fun path => place ++ segments path).foldl makeFolder root := by
  induction paths generalizing root with
  | nil =>
      obtain ⟨target, htarget⟩ := Option.isSome_iff_exists.1 h
      exact changeAt_eq_self htarget rfl
  | cons path paths ih =>
      have hmade : ((root.makeFolder (place ++ segments path)).folder? place).isSome = true := by
        rw [changeAt_id_eq, isSome_folder?_changeAt]
        exact .inl (List.prefix_append _ _)
      have hname : ∀ folder, ((Change.newFolder path).apply folder).name = folder.name :=
        name_changeAt (fun _ => rfl) (segments path)
      -- the first folder is made first, and the others then in the same place
      have hfirst : apply ⟨place, .newFolders (path :: paths)⟩ root
          = apply ⟨place, .newFolders paths⟩ (apply ⟨place, .newFolder path⟩ root) :=
        (@changeAt_changeAt _ (Change.newFolders paths).apply hname place root).symm
      rw [hfirst, apply_newFolder, ih hmade, List.map_cons, List.foldl_cons]

variable {edit : Edit} {root : Folder}

theorem apply_eq_foldl (h : (root.folder? edit.place).isSome = true) :
    edit.apply root = edit.placements.foldl Placement.into root := by
  obtain ⟨place, change⟩ := edit
  cases change with
  | newFolder path => exact apply_newFolder place path root
  | newFolders paths =>
      rw [apply_newFolders h]
      exact (List.foldl_map (f := Placement.folder) (g := Placement.into)).symm
  | newFile name content => rfl

theorem filterMap_place?_placements :
    edit.placements.filterMap Placement.place? = edit.filePlace?.toList := by
  obtain ⟨place, change⟩ := edit
  cases change with
  | newFile name content => rfl
  | newFolder path | newFolders paths =>
      exact List.filterMap_eq_nil_iff.2 fun placement hplacement => by
        obtain ⟨dir, -, rfl⟩ := List.mem_map.1 hplacement
        rfl

theorem filterMap_madeFolder?_placements :
    edit.placements.filterMap Placement.madeFolder? = edit.dirs := by
  obtain ⟨place, change⟩ := edit
  cases change with
  | newFile name content | newFolder path => rfl
  | newFolders paths =>
      change (List.map _ _).filterMap _ = _
      rw [List.filterMap_map]
      exact List.filterMap_some

/-! ## What an edit does -/

theorem fst_of_filePlace? {place : List String × String} (h : edit.filePlace? = some place) :
    place.1 = edit.place := by
  obtain ⟨dir, change⟩ := edit
  cases change with
  | newFile name content => rw [← Option.some.inj h]
  | newFolder path | newFolders paths => contradiction

theorem isSegment_of_mem_dirs (hplace : ∀ segment ∈ edit.place, IsSegment segment)
    {dir : List String} (hdir : dir ∈ edit.dirs) : ∀ segment ∈ dir, IsSegment segment := by
  have hbelow (path : String) : ∀ segment ∈ edit.place ++ segments path, IsSegment segment :=
    fun segment hsegment =>
      (List.mem_append.1 hsegment).elim (hplace segment) isSegment_of_mem_segments
  obtain ⟨place, change⟩ := edit
  cases change with
  | newFolder path =>
      obtain rfl := List.mem_singleton.1 hdir
      exact hbelow path
  | newFolders paths =>
      obtain ⟨path, -, rfl⟩ := List.mem_map.1 hdir
      exact hbelow path
  | newFile name content => exact absurd hdir List.not_mem_nil

theorem isSome_putAt?_iff {place : List String × String} :
    (edit.putAt? place).isSome = true ↔ edit.filePlace? = some place := by
  obtain ⟨dir, change⟩ := edit
  cases change with
  | newFile name content =>
      by_cases hplace : (dir, name) = place <;> simp [putAt?, filePlace?, hplace]
  | newFolder path | newFolders paths => simp [putAt?, filePlace?]

theorem isSome_folder?_of_prefix {path place : List String} (hfront : path <+: place)
    (h : (root.folder? place).isSome = true) : (root.folder? path).isSome = true := by
  obtain ⟨rest, rfl⟩ := hfront
  rw [folder?_append] at h
  exact Option.isSome_of_isSome_bind h

theorem isSome_folder?_apply (h : edit.Allowed root) (path : List String) :
    ((edit.apply root).folder? path).isSome = true ↔
      (∃ dir ∈ edit.dirs, path <+: dir) ∨ (root.folder? path).isSome = true := by
  rw [apply_eq_foldl h.isSome_place, Placement.isSome_folder?_foldl]
  obtain ⟨place, change⟩ := edit
  cases change with
  | newFolder made => simp [placements, dirs, Placement.dir]
  | newFolders made => simp [placements, dirs, Placement.dir]
  | newFile name content =>
      -- the folder of a file is there, and so are those on the way
      have hplace := h.isSome_place
      have hway : path <+: place → (root.folder? path).isSome = true :=
        fun hfront => isSome_folder?_of_prefix hfront hplace
      simpa [placements, dirs, Placement.dir] using hway

theorem folder?_apply_of_not_prefix (h : edit.Allowed root) {path : List String}
    (hplace : ¬ path <+: edit.place) (hdirs : ∀ dir ∈ edit.dirs, ¬ path <+: dir) :
    (edit.apply root).folder? path = root.folder? path := by
  rw [apply_eq_foldl h.isSome_place]
  refine Placement.folder?_foldl_of_not_prefix (fun placement hplacement => ?_) root
  obtain ⟨place, change⟩ := edit
  cases change with
  | newFile name content =>
      obtain rfl := List.mem_singleton.1 hplacement
      exact hplace
  | newFolder made | newFolders made =>
      obtain ⟨dir, hdir, rfl⟩ := List.mem_map.1 hplacement
      exact hdirs dir hdir

/-- A file is the one that an edit sets, or the one that was there. -/
theorem file?_apply (h : edit.Allowed root) (path : List String) (name : String) :
    (edit.apply root).file? path name
      = ((edit.putAt? (path, name)).map (PackFile.mk name)).or (root.file? path name) := by
  obtain ⟨place, change⟩ := edit
  cases change with
  | newFile name' content =>
      have happly : apply ⟨place, .newFile name' content⟩ root = root.putFile place name' content :=
        rfl
      rw [happly, file?_putFile]
      by_cases hplace : path = place ∧ name = name'
      · obtain ⟨rfl, rfl⟩ := hplace
        simp [putAt?]
      · have hne : (place, name') ≠ (path, name) := fun heq =>
          hplace ⟨(Prod.mk.inj heq).1.symm, (Prod.mk.inj heq).2.symm⟩
        simp [putAt?, hplace, hne]
  | newFolder made | newFolders made =>
      rw [apply_eq_foldl h.isSome_place, Placement.file?_foldl_of_forall_ne]
      · rfl
      · rintro placement hplacement
        obtain ⟨dir, -, rfl⟩ := List.mem_map.1 hplacement
        simp [Placement.place?]

theorem separate_apply (h : edit.Allowed root)
    (hroot : root.Separate fun name => '/' ∉ name.toList) :
    (edit.apply root).Separate fun name => '/' ∉ name.toList := by
  have hplace := hroot.isSegment_of_folder? h.isSome_place
  rw [apply_eq_foldl h.isSome_place]
  refine Placement.separate_foldl (fun place hfile => ?_) (fun dir hdir => ?_) hroot
  · rw [filterMap_place?_placements, Option.mem_toList] at hfile
    exact ⟨fst_of_filePlace? hfile ▸ hplace, h.name_filePlace? place hfile⟩
  · rw [filterMap_madeFolder?_placements] at hdir
    exact isSegment_of_mem_dirs hplace hdir

end Edit

/-! ## The tree and the record -/

theorem fileAt?_of_splits {path dir name : String} (h : Splits path dir name) (root : Folder) :
    root.fileAt? path = root.file? (segments dir) name := by
  unfold fileAt?
  rw [h.splitLast_eq]

theorem mem_madePaths {edits : List Edit} {path : List String} :
    path ∈ madePaths edits ↔ path ≠ [] ∧ ∃ edit ∈ edits, ∃ dir ∈ edit.dirs, path <+: dir := by
  simp only [madePaths, List.mem_filter, List.mem_flatMap, List.mem_inits, decide_eq_true_eq]
  constructor
  · rintro ⟨⟨dir, ⟨edit, hedit, hdir⟩, hfront⟩, hne⟩
    exact ⟨hne, edit, hedit, dir, hdir, hfront⟩
  · rintro ⟨hne, edit, hedit, dir, hdir, hfront⟩
    exact ⟨⟨dir, ⟨edit, hedit, hdir⟩, hfront⟩, hne⟩

theorem lastPut?_concat (edits : List Edit) (edit : Edit) (place : List String × String) :
    lastPut? (edits ++ [edit]) place = (edit.putAt? place).or (lastPut? edits place) := by
  rw [lastPut?, List.reverse_append, List.reverse_singleton, List.singleton_append,
    List.findSome?_cons]
  cases edit.putAt? place <;> rfl

theorem isSome_lastPut?_iff {edits : List Edit} {place : List String × String} :
    (lastPut? edits place).isSome = true ↔ place ∈ filePlaces edits := by
  simp only [lastPut?, filePlaces, List.findSome?_isSome_iff, List.mem_reverse,
    List.mem_filterMap, Edit.isSome_putAt?_iff]

namespace History

variable {name : String} {edits : List Edit} {root : Folder}

theorem separate (h : History name edits root) :
    root.Separate fun name => '/' ∉ name.toList := by
  induction h with
  | start => exact separate_empty name
  | step h hedit ih => exact Edit.separate_apply hedit ih

theorem isSome_folder?_iff (h : History name edits root) (path : List String) :
    (root.folder? path).isSome = true ↔
      path = [] ∨ ∃ edit ∈ edits, ∃ dir ∈ edit.dirs, path <+: dir := by
  induction h with
  | start => cases path <;> simp [folder?, empty, folders]
  | step h hedit ih =>
      rw [Edit.isSome_folder?_apply hedit, ih]
      simp only [List.mem_append, List.mem_singleton, or_and_right, exists_or, exists_eq_left]
      exact or_left_comm.trans (or_congr_right or_comm)

theorem file?_eq (h : History name edits root) (path : List String) (file : String) :
    root.file? path file = (lastPut? edits (path, file)).map (PackFile.mk file) := by
  induction h with
  | start => exact file?_empty name path file
  | step h hedit ih => rw [Edit.file?_apply hedit, ih, lastPut?_concat, Option.map_or]

theorem isPathMap (h : History name edits root) : IsPathMap edits root where
  separate := h.separate
  isSome_folder?_iff path := by
    rw [h.isSome_folder?_iff, mem_madePaths]
    by_cases hroot : segments path = [] <;> simp [hroot]
  fileAt?_eq path := by
    obtain ⟨dir, name, hsplits⟩ := exists_splits path
    rw [fileAt?_of_splits hsplits]
    exact ⟨dir, name, hsplits, h.file?_eq (segments dir) name, rfl⟩
  entryCount_eq := by
    refine h.separate.entryCount_eq_card (fun path => ?_) (fun path name => ?_)
    · rw [mem_madePaths, h.isSome_folder?_iff]
      by_cases hroot : path = [] <;> simp [hroot]
    · rw [← isSome_lastPut?_iff, h.file?_eq, Option.isSome_map]

end History

theorem Edit.Allowed.keepsOthers {edit : Edit} {root : Folder} (h : edit.Allowed root) :
    edit.KeepsOthers root where
  fileAt?_eq {path dir name} hsplits hplace := by
    have hput : edit.putAt? (segments dir, name) = none :=
      Option.not_isSome_iff_eq_none.1 fun hsome => hplace (isSome_putAt?_iff.1 hsome)
    rw [fileAt?_of_splits hsplits, fileAt?_of_splits hsplits, file?_apply h, hput]
    rfl
  isSome_folder?_iff path := isSome_folder?_apply h (segments path)
  name_folder? {path} hpath := by
    have hstill := (isSome_folder?_apply h (segments path)).2 (.inr hpath)
    obtain ⟨target, htarget⟩ := Option.isSome_iff_exists.1 hpath
    obtain ⟨changed, hchanged⟩ := Option.isSome_iff_exists.1 hstill
    have hroot : (edit.apply root).name = root.name := by
      rw [apply_eq_foldl h.isSome_place, Placement.name_foldl]
    rw [htarget, hchanged, Option.map_some, Option.map_some, name_of_folder? htarget,
      name_of_folder? hchanged, hroot]
  folder?_eq hplace hdirs := folder?_apply_of_not_prefix h hplace hdirs

theorem makesOnce (root : Folder) (place : List String) (path rest : String) :
    MakesOnce root place path rest where
  again := by
    rw [Edit.apply_newFolder, Edit.apply_newFolder]
    exact makeFolder_eq_self (isSome_folder?_makeFolder _ root)
  below := by
    rw [Edit.apply_newFolder, Edit.apply_newFolder, Edit.apply_newFolder, segments_append,
      makeFolder_makeFolder, List.append_assoc]
  reached := by
    rw [segments_append, List.append_assoc, Edit.apply_newFolder, segments_append]
    exact ⟨rfl, isSome_folder?_makeFolder _ root⟩

/-- After any edits a folder is a map of paths, and further edits leave it one. -/
theorem History.isPathMap_and_keepsOthers {name : String} {edits : List Edit} {root : Folder}
    (h : History name edits root) :
    IsPathMap edits root ∧ (∀ edit : Edit, edit.Allowed root → edit.KeepsOthers root) ∧
      ∀ place path rest, MakesOnce root place path rest :=
  ⟨h.isPathMap, fun _ hedit => hedit.keepsOthers, makesOnce root⟩

/-- Slashes may be doubled, a file may be set twice, and its name may be empty. -/
theorem isPathMap_of_spare_slashes :
    let edits : List Edit := [⟨[], .newFolder "/data//ns/"⟩, ⟨["data"], .newFile "" (.json .null)⟩,
      ⟨["data"], .newFile "" (.json (.bool true))⟩, ⟨[], .newFolders ["data/ns", "", "b/"]⟩]
    let root := mk "pack" [] [mk "data" [⟨"", .json (.bool true)⟩] [mk "ns" [] []], mk "b" [] []]
    History "pack" edits root ∧ IsPathMap edits root ∧ root.entryCount = 4 := by
  intro edits root
  have hname (content : Content) (place : List String × String)
      (h : Edit.filePlace? ⟨["data"], .newFile "" content⟩ = some place) :
      '/' ∉ place.2.toList := by
    rw [← Option.some.inj h]
    exact List.not_mem_nil
  have hsegments : segments "/data//ns/" = ["data", "ns"] ∧ segments "data/ns" = ["data", "ns"]
      ∧ segments "" = [] ∧ segments "b/" = ["b"] := by decide
  have hfolders : Edit.apply ⟨[], .newFolder "/data//ns/"⟩ (empty "pack")
      = mk "pack" [] [mk "data" [] [mk "ns" [] []]] := by
    simp [Edit.apply, Change.apply, hsegments, makeFolder, changeAt, changeIn, empty, name, files,
      folders]
  have hmore : Edit.apply ⟨[], .newFolders ["data/ns", "", "b/"]⟩
        (mk "pack" [] [mk "data" [⟨"", .json (.bool true)⟩] [mk "ns" [] []]]) = root := by
    simp [Edit.apply, Change.apply, hsegments, makeFolder, changeAt, changeIn, empty, name, files,
      folders, root]
  have hmade : History "pack" (edits.take 1) (mk "pack" [] [mk "data" [] [mk "ns" [] []]]) :=
    hfolders ▸ .step .start ⟨rfl, by simp [Edit.filePlace?]⟩
  have hset : History "pack" (edits.take 2)
      (mk "pack" [] [mk "data" [⟨"", .json .null⟩] [mk "ns" [] []]]) :=
    @History.step _ _ _ ⟨["data"], .newFile "" (.json .null)⟩ hmade ⟨by decide, hname _⟩
  have hreset : History "pack" (edits.take 3)
      (mk "pack" [] [mk "data" [⟨"", .json (.bool true)⟩] [mk "ns" [] []]]) :=
    @History.step _ _ _ ⟨["data"], .newFile "" (.json (.bool true))⟩ hset ⟨by decide, hname _⟩
  have h : History "pack" edits root := hmore ▸ hreset.step ⟨rfl, by simp [Edit.filePlace?]⟩
  exact ⟨h, h.isPathMap_and_keepsOthers.1, by decide⟩

end RigPack.Folder

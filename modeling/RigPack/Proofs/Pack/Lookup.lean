import RigPack.Proofs.Pack.Located

/-!
# Files of a pack, looked up

A pack is put together by one placement after the other.  What a placement does to
the files is said by one equation: a file that is put somewhere is found there,
and every other file is found as before (`file?_putFile`).  From it follows what a
whole list of placements leaves behind.

## Main statements

* `isSome_file?_foldl`: every file that is placed is there, and a file that is
  there was placed.
* `file?_foldl_of_nodup`: if no place is used twice, a placed file holds what was
  put into it.
-/

namespace RigPack

namespace Folder

/-- The files in the folder at a path; none if the folder is missing. -/
def filesAt (path : List String) (folder : Folder) : List PackFile :=
  ((folder.folder? path).map files).getD []

theorem file?_eq (folder : Folder) (path : List String) (name : String) :
    folder.file? path name = (folder.filesAt path).find? (·.name = name) := by
  unfold file? filesAt
  cases folder.folder? path <;> rfl

/-- Below a segment the files are those of the first folder of that name. -/
theorem filesAt_cons (segment : String) (path : List String) (folder : Folder) :
    folder.filesAt (segment :: path)
      = ((folder.folders.find? (·.name = segment)).map (filesAt path)).getD [] := by
  unfold filesAt
  rw [folder?]
  cases folder.folders.find? (·.name = segment) <;> rfl

theorem file?_empty (segment : String) (path : List String) (name : String) :
    (empty segment).file? path name = none := by
  cases path <;> rfl

/-! ## Changes -/

/-- The folder with other files in it. -/
def mapFiles (change : List PackFile → List PackFile) (folder : Folder) : Folder :=
  mk folder.name (change folder.files) folder.folders

@[simp] theorem name_mapFiles (change : List PackFile → List PackFile) (folder : Folder) :
    (mapFiles change folder).name = folder.name := rfl

theorem name_changeAt {change : Folder → Folder}
    (hchange : ∀ folder, (change folder).name = folder.name) (path : List String)
    (folder : Folder) : (folder.changeAt path change).name = folder.name := by
  cases path with
  | nil => exact hchange folder
  | cons segment path => rfl

theorem find?_changeIn {change : Folder → Folder}
    (hchange : ∀ folder, (change folder).name = folder.name) (segment other : String)
    (folders : List Folder) :
    (changeIn segment change folders).find? (·.name = other)
      = if other = segment then
          some (change ((folders.find? (·.name = segment)).getD (empty segment)))
        else folders.find? (·.name = other) := by
  induction folders with
  | nil =>
      rw [changeIn, List.find?_cons, hchange]
      by_cases hother : other = segment
      · simp [hother, name, empty]
      · have hne : segment ≠ other := fun h => hother h.symm
        simp [hother, hne, name, empty]
  | cons folder folders ih =>
      rw [changeIn]
      by_cases hsegment : folder.name = segment
      · rw [if_pos hsegment, List.find?_cons, hchange, hsegment]
        by_cases hother : other = segment
        · simp [hother, hsegment]
        · have hne : segment ≠ other := fun h => hother h.symm
          simp [hother, hne, hsegment]
      · rw [if_neg hsegment, List.find?_cons, ih]
        by_cases hother : other = segment
        · simp [hother, hsegment]
        · simp only [if_neg hother, List.find?_cons]

/-- A change of the files in one folder leaves those of all others. -/
theorem filesAt_changeAt (change : List PackFile → List PackFile) (path other : List String)
    (folder : Folder) :
    (folder.changeAt path (mapFiles change)).filesAt other
      = if other = path then change (folder.filesAt path) else folder.filesAt other := by
  -- the paths are followed together, and part at the first segment in which they differ
  induction path generalizing folder other with
  | nil =>
      cases other with
      | nil => rfl
      | cons segment other =>
          rw [if_neg (by simp), changeAt, filesAt_cons, filesAt_cons]
          rfl
  | cons segment path ih =>
      cases other with
      | nil => rw [if_neg (by simp), changeAt]; rfl
      | cons otherSegment other =>
          rw [changeAt, filesAt_cons, filesAt_cons, filesAt_cons]
          have hname := name_changeAt (name_mapFiles change) path
          rw [folders, find?_changeIn hname]
          by_cases hsegment : otherSegment = segment
          · subst hsegment
            rw [if_pos rfl, Option.map_some, Option.getD_some, ih]
            cases hfound : folder.folders.find? (·.name = otherSegment) with
            | none =>
                -- the folder is made by the change, and holds nothing else
                have hempty : ∀ path, (empty otherSegment).filesAt path = [] := by
                  intro path
                  cases path <;> rfl
                simp [hempty]
            | some found => simp
          · rw [if_neg hsegment, if_neg (by simp [hsegment])]

theorem changeAt_id_eq (path : List String) (folder : Folder) :
    folder.makeFolder path = folder.changeAt path (mapFiles id) := by
  have hid : (id : Folder → Folder) = mapFiles id := by
    funext folder
    cases folder
    rfl
  rw [makeFolder, hid]

theorem find?_setFile (name other : String) (content : Content) (files : List PackFile) :
    (setFile name content files).find? (·.name = other)
      = if other = name then some ⟨name, content⟩ else files.find? (·.name = other) := by
  induction files with
  | nil =>
      rw [setFile, List.find?_cons]
      by_cases hother : other = name
      · simp [hother]
      · have hne : name ≠ other := fun h => hother h.symm
        simp [hother, hne]
  | cons file files ih =>
      rw [setFile]
      by_cases hname : file.name = name
      · rw [if_pos hname, List.find?_cons, List.find?_cons, hname]
        by_cases hother : other = name
        · simp [hother]
        · have hne : name ≠ other := fun h => hother h.symm
          simp [hother, hne]
      · rw [if_neg hname, List.find?_cons, List.find?_cons, ih]
        by_cases hother : other = name
        · simp [hother, hname]
        · simp [hother]

/-- A file that is put somewhere is found there, and every other one as before. -/
theorem file?_putFile (folder : Folder) (path : List String) (name : String) (content : Content)
    (path' : List String) (name' : String) :
    (folder.putFile path name content).file? path' name'
      = if path' = path ∧ name' = name then some ⟨name, content⟩
        else folder.file? path' name' := by
  have hput : folder.putFile path name content
      = folder.changeAt path (mapFiles (setFile name content)) := rfl
  rw [file?_eq, file?_eq, hput, filesAt_changeAt]
  by_cases hpath : path' = path
  · rw [if_pos hpath, find?_setFile]
    by_cases hname : name' = name
    · rw [if_pos hname, if_pos ⟨hpath, hname⟩]
    · rw [if_neg hname, if_neg fun h => hname h.2, hpath]
  · rw [if_neg hpath, if_neg fun h => hpath h.1]

theorem file?_makeFolder (folder : Folder) (path path' : List String) (name : String) :
    (folder.makeFolder path).file? path' name = folder.file? path' name := by
  rw [file?_eq, file?_eq, changeAt_id_eq, filesAt_changeAt]
  by_cases hpath : path' = path
  · rw [if_pos hpath, hpath]
    rfl
  · rw [if_neg hpath]

end Folder

/-! ## Lists of placements -/

namespace Placement

/-- The place of a file: the path of its folder, and its name. -/
def place? : Placement → Option (List String × String)
  | folder _ => none
  | file path name _ => some (path, name)

/-- After a placement, a file is found that was there before or that was placed. -/
theorem file?_into (pack : Folder) (placement : Placement) (path : List String) (name : String) :
    (placement.into pack).file? path name
      = match placement with
        | .folder _ => pack.file? path name
        | .file path' name' content =>
          if path = path' ∧ name = name' then some ⟨name', content⟩
          else pack.file? path name := by
  cases placement with
  | folder path' => exact pack.file?_makeFolder path' path name
  | file path' name' content => exact pack.file?_putFile path' name' content path name

theorem name_into (pack : Folder) (placement : Placement) :
    (placement.into pack).name = pack.name := by
  cases placement with
  | folder path => exact Folder.name_changeAt (fun _ => rfl) path pack
  | file path name content =>
      exact Folder.name_changeAt (Folder.name_mapFiles (Folder.setFile name content)) path pack

theorem name_foldl (pack : Folder) (placements : List Placement) :
    (placements.foldl into pack).name = pack.name := by
  induction placements generalizing pack with
  | nil => rfl
  | cons placement placements ih => rw [List.foldl_cons, ih, name_into]

/-- A file that is found after a list of placements was there before or is placed by
the list. -/
theorem mem_of_file?_foldl {pack : Folder} {placements : List Placement} {path : List String}
    {name : String} {found : PackFile}
    (h : (placements.foldl into pack).file? path name = some found) :
    pack.file? path name = some found ∨
      (found.name = name ∧ .file path name found.content ∈ placements) := by
  induction placements generalizing pack with
  | nil => exact .inl h
  | cons placement placements ih =>
      rcases ih h with hfound | ⟨hname, hmem⟩
      · rw [file?_into] at hfound
        cases placement with
        | folder path' => exact .inl hfound
        | file path' name' content =>
            simp only at hfound
            split at hfound
            · rename_i hplace
              obtain ⟨rfl, rfl⟩ := hplace
              obtain rfl := Option.some.inj hfound
              exact .inr ⟨rfl, List.mem_cons_self ..⟩
            · exact .inl hfound
      · exact .inr ⟨hname, .tail _ hmem⟩

/-- A file stays where it is as long as nothing else is put into its place. -/
theorem file?_foldl_of_forall_ne {pack : Folder} {placements : List Placement}
    {path : List String} {name : String}
    (h : ∀ placement ∈ placements, placement.place? ≠ some (path, name)) :
    (placements.foldl into pack).file? path name = pack.file? path name := by
  induction placements generalizing pack with
  | nil => rfl
  | cons placement placements ih =>
      have hhead := h placement (List.mem_cons_self ..)
      rw [List.foldl_cons, ih fun other hother => h other (.tail _ hother), file?_into]
      cases placement with
      | folder path' => rfl
      | file path' name' content =>
          refine if_neg fun hplace => hhead ?_
          rw [place?, hplace.1, hplace.2]

theorem isSome_file?_into {pack : Folder} (placement : Placement) {path : List String}
    {name : String} (h : (pack.file? path name).isSome = true) :
    ((placement.into pack).file? path name).isSome = true := by
  rw [file?_into]
  cases placement with
  | folder path' => exact h
  | file path' name' content =>
      simp only
      split
      · rfl
      · exact h

theorem isSome_file?_foldl_of_isSome {pack : Folder} (placements : List Placement)
    {path : List String} {name : String} (h : (pack.file? path name).isSome = true) :
    ((placements.foldl into pack).file? path name).isSome = true := by
  induction placements generalizing pack with
  | nil => exact h
  | cons placement placements ih => exact ih (isSome_file?_into placement h)

/-- Every file that is placed is there. -/
theorem isSome_file?_foldl {pack : Folder} {placements : List Placement} {path : List String}
    {name : String} {content : Content} (h : .file path name content ∈ placements) :
    ((placements.foldl into pack).file? path name).isSome = true := by
  induction placements generalizing pack with
  | nil => exact absurd h List.not_mem_nil
  | cons placement placements ih =>
      rcases List.mem_cons.1 h with rfl | h
      · refine isSome_file?_foldl_of_isSome placements ?_
        rw [file?_into]
        simp
      · exact ih h

/-- If no place is used twice, a placed file holds what was put into it. -/
theorem file?_foldl_of_nodup {pack : Folder} {placements : List Placement} {path : List String}
    {name : String} {content : Content} (hplaces : (placements.filterMap place?).Nodup)
    (h : .file path name content ∈ placements) :
    (placements.foldl into pack).file? path name = some ⟨name, content⟩ := by
  induction placements generalizing pack with
  | nil => exact absurd h List.not_mem_nil
  | cons placement placements ih =>
      have hrest : (placements.filterMap place?).Nodup := by
        rw [List.filterMap_cons] at hplaces
        split at hplaces
        · exact hplaces
        · exact (List.nodup_cons.1 hplaces).2
      rcases List.mem_cons.1 h with rfl | h
      · have hnot : (path, name) ∉ placements.filterMap place? := by
          rw [List.filterMap_cons] at hplaces
          exact (List.nodup_cons.1 hplaces).1
        rw [List.foldl_cons, file?_foldl_of_forall_ne, file?_into]
        · simp
        · intro other hother hplace
          exact hnot (List.mem_filterMap.2 ⟨other, hother, hplace⟩)
      · exact ih hrest h

end Placement

theorem Blueprint.name_pack (blueprint : Blueprint) (settings : Settings) :
    (blueprint.pack settings).name = blueprint.names.space :=
  Placement.name_foldl _ _

/-- A file of a pack is one that was laid out. -/
theorem Blueprint.mem_layout_of_file? {blueprint : Blueprint} {settings : Settings}
    {path : List String} {name : String} {file : PackFile}
    (h : (blueprint.pack settings).file? path name = some file) :
    .file path name file.content ∈ blueprint.layout settings := by
  rcases Placement.mem_of_file?_foldl h with hempty | ⟨-, hmem⟩
  · rw [Folder.file?_empty] at hempty
    contradiction
  · exact hmem

end RigPack

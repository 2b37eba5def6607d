import RigPack.Proofs.Pack.Clash
import RigPack.Proofs.Store.Growing

/-!
# Packs that cannot be written

Writing a folder that holds a file and a folder of one name comes to a folder that has to
be made in place of a file just written.  No disk allows that, whatever is on it, and an
export finds out only after it has removed the earlier pack.

## Strategy

Where a path leads to a file and to a folder, the writing of the file and the making of
the folder both stand among the steps, in this order (`steps_of_path`).  The other way
round, the steps of a tidy folder name no path twice unless there are both, since a path
gives back its segments.

## Main statements

* `Tidy.hasClash_iff_steps`: a tidy folder has a clash exactly if its writing makes a
  folder in place of a file just written.
* `Export.hasClash_iff`: the pack of a project has a clash exactly if an animation has
  the name `tick.mcfunction`, and then it can be written to no disk.
-/

namespace RigPack

namespace Folder

open WriteStep

/-! ## Both calls among the steps -/

theorem writeText_mem_fileSteps {file : PackFile} {files : List PackFile} (h : file ∈ files)
    (path : String) :
    .writeText (Path.join path file.name) file.content.text ∈ fileSteps path files :=
  List.mem_flatMap.2 ⟨file, h, List.mem_cons_self ..⟩

theorem steps_sublist_stepsIn {folder : Folder} {folders : List Folder} (h : folder ∈ folders)
    (path : String) : (folder.steps path).Sublist (stepsIn path folders) := by
  induction folders with
  | nil => exact absurd h List.not_mem_nil
  | cons first folders ih =>
      rw [stepsIn]
      rcases List.mem_cons.1 h with rfl | h
      · exact List.sublist_append_left ..
      · exact ((ih h).cons _).trans (List.sublist_append_right ..)

theorem makeFolders_mem_steps (folder : Folder) (parent : String) :
    .makeFolders (Path.join parent folder.name) ∈ folder.steps parent := by
  obtain ⟨name, files, folders⟩ := folder
  exact List.mem_cons_self ..

/-- Where a path leads to a file and to a folder, the file is written before the folder is
made. -/
theorem steps_of_path {folder : Folder} {path : List String} {name : String} {file : PackFile}
    (hfile : folder.file? path name = some file)
    (hfolder : (folder.folder? (path ++ [name])).isSome = true) (parent : String) :
    let clash := Path.joinAll (Path.join parent folder.name) (path ++ [name])
    [.writeText clash file.content.text, .makeFolders clash].Sublist (folder.steps parent) := by
  induction path generalizing folder parent with
  | nil =>
      obtain ⟨folderName, files, folders⟩ := folder
      have hfile : files.find? (·.name = name) = some file := hfile
      obtain ⟨hfile_mem, rfl⟩ := mem_of_find?_key hfile
      obtain ⟨_, hfolder⟩ := Option.isSome_iff_exists.1 hfolder
      obtain ⟨sub, hsub, -⟩ := Option.bind_eq_some_iff.1 hfolder
      obtain ⟨hsub, hsub_name⟩ := mem_of_find?_key hsub
      have hwrite := writeText_mem_fileSteps hfile_mem (Path.join parent folderName)
      have hmake := (steps_sublist_stepsIn hsub _).subset
        (makeFolders_mem_steps sub (Path.join parent folderName))
      rw [hsub_name] at hmake
      rw [steps]
      exact ((List.singleton_sublist.2 hwrite).append (List.singleton_sublist.2 hmake)).cons _
  | cons segment path ih =>
      obtain ⟨folderName, files, folders⟩ := folder
      obtain ⟨_, htarget⟩ := Option.isSome_iff_exists.1 hfolder
      obtain ⟨sub, hsub, htarget⟩ := Option.bind_eq_some_iff.1 htarget
      have hfile : sub.file? path name = some file := by
        rw [file?, folder?, hsub] at hfile
        exact hfile
      have hbelow := ih hfile (Option.isSome_iff_exists.2 ⟨_, htarget⟩)
        (Path.join parent folderName)
      obtain ⟨hsub_mem, rfl⟩ := mem_of_find?_key hsub
      rw [steps]
      exact ((hbelow.trans (steps_sublist_stepsIn hsub_mem _)).trans
        (List.sublist_append_right ..)).cons _

/-! ## The folders that are made -/

theorem mem_stepsIn {step : WriteStep} {path : String} {folders : List Folder}
    (h : step ∈ stepsIn path folders) :
    step = .tell ∨ ∃ folder ∈ folders, step ∈ folder.steps path := by
  induction folders with
  | nil => exact absurd h List.not_mem_nil
  | cons folder folders ih =>
      rw [stepsIn, List.mem_append, List.mem_cons] at h
      rcases h with h | rfl | h
      · exact .inr ⟨folder, List.mem_cons_self .., h⟩
      · exact .inl rfl
      · exact (ih h).imp_right fun ⟨other, hother, h⟩ => ⟨other, .tail _ hother, h⟩

/-- The folders that the writing of a tidy folder makes are the folder and those below. -/
theorem Tidy.folder?_of_makeFolders {folder : Folder} (htidy : folder.Tidy) {path parent : String}
    (h : .makeFolders path ∈ folder.steps parent) :
    ∃ dir, (∀ segment ∈ dir, Path.IsSegment segment) ∧
      path = Path.joinAll (Path.join parent folder.name) dir ∧
      (folder.folder? dir).isSome = true := by
  induction htidy generalizing parent with
  | @mk name files folders hfiles hfiles_nodup hfolders hfolders_nodup hbelow ih =>
      rw [steps, List.mem_cons, List.mem_append] at h
      rcases h with h | h | h
      · obtain rfl := WriteStep.makeFolders.inj h
        exact ⟨[], by simp, rfl, rfl⟩
      · simp [fileSteps] at h
      · rcases mem_stepsIn h with h | ⟨sub, hsub, h⟩
        · contradiction
        · obtain ⟨dir, hdir, rfl, hfound⟩ := ih sub hsub h
          refine ⟨sub.name :: dir, ?_, rfl, ?_⟩
          · rintro segment (_ | ⟨_, hsegment⟩)
            · exact hfolders sub.name (List.mem_map_of_mem hsub)
            · exact hdir segment hsegment
          · rw [folder?, Folder.folders, (find?_key_eq_some_iff hfolders_nodup).2 hsub]
            exact hfound

/-- A tidy folder has a clash exactly if its writing makes a folder in place of a file
that it has just written. -/
theorem Tidy.hasClash_iff_steps {folder : Folder} (htidy : folder.Tidy)
    (hname : Path.IsSegment folder.name) (parent : String) :
    folder.HasClash ↔ ∃ path content,
      [.writeText path content, .makeFolders path].Sublist (folder.steps parent) := by
  rw [htidy.hasClash_iff_path]
  constructor
  · rintro ⟨path, name, hfile, hfolder⟩
    obtain ⟨file, hfile⟩ := Option.isSome_iff_exists.1 hfile
    exact ⟨_, _, steps_of_path hfile hfolder parent⟩
  · rintro ⟨path, content, h⟩
    have hmake : .makeFolders path ∈ folder.steps parent := h.subset (by simp)
    obtain ⟨dir, hdir, hpath, hfolder⟩ := htidy.folder?_of_makeFolders hmake
    have hwrite : (path, content) ∈ folder.texts (Path.join parent folder.name) := by
      rw [← writes_steps]
      exact List.mem_filterMap.2 ⟨_, h.subset (List.mem_cons_self ..), rfl⟩
    obtain ⟨⟨front, file⟩, hentry, heq⟩ := List.mem_map.1 hwrite
    obtain ⟨hfile_path, -⟩ := Prod.mk.inj heq
    have hsame : front ++ [file.name] = dir :=
      Path.joinAll_injective (Path.isBase_join parent hname)
        (htidy.isSegment_of_mem_entries _ hentry) hdir (hfile_path.trans hpath)
    refine ⟨front, file.name, ?_, hsame ▸ hfolder⟩
    rw [htidy.mem_entries_iff.1 hentry]
    rfl

/-- A folder with a file and a folder at one path can be written to no disk. -/
theorem write_fails {folder : Folder} {path : List String} {name : String}
    (hfile : (folder.file? path name).isSome = true)
    (hfolder : (folder.folder? (path ++ [name])).isSome = true) {c : Char}
    (hend : name.toList.getLast? = some c) (hslash : c ≠ '/')
    (hpoint : c ≠ '.') (parent : String) (disk : Disk) :
    ∃ e later, (folder.write (m := StateM Disk) (fun _ => pure ()) parent).run.run disk
      = (.error e, later) := by
  obtain ⟨file, hfile⟩ := Option.isSome_iff_exists.1 hfile
  have hsteps := steps_of_path hfile hfolder parent
  rcases hrun : (folder.write (m := StateM Disk) (fun _ => pure ()) parent).run.run disk
    with ⟨e | written, later⟩
  · exact ⟨e, later, rfl⟩
  · rw [write_eq] at hrun
    obtain ⟨_, now, hok, -⟩ := run_bind_eq_ok hrun
    refine absurd hok (not_ok_of_write_of_makeFolders hsteps ?_)
    rw [Path.joinAll_concat]
    exact Path.isSome_parent? (Path.getLast?_join _ hend) hslash hpoint

end Folder

namespace Export

/-- The pack of a project holds a file and a folder of one name exactly if an animation
has the name of the file beside the folders of all animations.  This is exactly if the
writing of the pack makes a folder in place of a file just written, and then the pack
can be written to no disk. -/
theorem hasClash_iff {settings : Settings} {project : Project} {pack : Folder}
    (h : build settings project = .ok pack) :
    (pack.HasClash ↔ ∃ animation ∈ project.animations, animation.name = "tick.mcfunction") ∧
    (∀ parent, pack.HasClash ↔ ∃ path content,
      [.writeText path content, .makeFolders path].Sublist (pack.steps parent)) ∧
    (pack.HasClash → ∀ parent (disk : Disk), ∃ e later,
      (pack.write (m := StateM Disk) (fun _ => pure ()) parent).run.run disk
        = (.error e, later)) := by
  obtain ⟨blueprint, haccepted, hblueprint, rfl⟩ := build_eq_ok h
  have hsound := Blueprint.sound_of_build haccepted hblueprint
  have htidy := hsound.tidy_pack settings
  have hname : Path.IsSegment (blueprint.pack settings).name :=
    blueprint.name_pack settings ▸ hsound.space.1
  have hnames : (∃ motion ∈ blueprint.motions, motion.name = "tick.mcfunction") ↔
      ∃ animation ∈ project.animations, animation.name = "tick.mcfunction" := by
    rw [← List.mem_map, ← List.mem_map, Blueprint.names_motions hblueprint]
  refine ⟨?_, htidy.hasClash_iff_steps hname, ?_⟩
  · rw [htidy.hasClash_iff_path]
    simp only [hsound.clash_iff]
    constructor
    · rintro ⟨path, _, -, rfl, hmotion⟩
      exact hnames.1 hmotion
    · intro hanimation
      exact ⟨_, _, rfl, rfl, hnames.2 hanimation⟩
  · intro hclash parent disk
    obtain ⟨path, name, hfile, hfolder⟩ := htidy.hasClash_iff_path.1 hclash
    obtain ⟨-, rfl, -⟩ := hsound.clash_iff.1 ⟨hfile, hfolder⟩
    have hend : "tick.mcfunction".toList.getLast? = some 'n' := by decide
    exact Folder.write_fails hfile hfolder hend (by decide) (by decide) parent disk

/-- An animation with a common name leads to no clash. -/
theorem not_hasClash_of_walk :
    ∃ pack, build ⟨"packs", 1, 12⟩ (oneFrame "walk") = .ok pack ∧ ¬ pack.HasClash := by
  have haccepted : (build ⟨"packs", 1, 12⟩ (oneFrame "walk")).toOption.isSome = true := by
    decide +kernel
  cases hbuild : build ⟨"packs", 1, 12⟩ (oneFrame "walk") with
  | error fault =>
      rw [hbuild] at haccepted
      contradiction
  | ok pack =>
      refine ⟨pack, rfl, fun hclash => ?_⟩
      obtain ⟨animation, hanimation, hname⟩ := (hasClash_iff hbuild).1.1 hclash
      obtain rfl := List.mem_singleton.1 hanimation
      exact absurd hname (by decide)

/-- An accepted project whose pack has a clash. -/
theorem hasClash_of_tick :
    ∃ pack, build ⟨"packs", 1, 12⟩ (oneFrame "tick.mcfunction") = .ok pack ∧ pack.HasClash := by
  let path := ["data", "zzz_fox_internal", "functions", "animations"]
  have hfound : ((build ⟨"packs", 1, 12⟩ (oneFrame "tick.mcfunction")).toOption.any fun pack =>
      (pack.file? path "tick.mcfunction").isSome &&
        (pack.folder? (path ++ ["tick.mcfunction"])).isSome) = true := by
    decide +kernel
  cases hbuild : build ⟨"packs", 1, 12⟩ (oneFrame "tick.mcfunction") with
  | error fault =>
      rw [hbuild] at hfound
      contradiction
  | ok pack =>
      rw [hbuild] at hfound
      obtain ⟨hfile, hfolder⟩ := Bool.and_eq_true_iff.1 hfound
      exact ⟨pack, rfl, Folder.hasClash_of_path hfile hfolder⟩

end Export

end RigPack

import RigPack.Proofs.Export.Shelved

/-!
# Exports over earlier exports

An export into a folder that holds an earlier pack of the namespace takes nothing over
from it and leaves nothing of it.  Afterwards the folder holds the files of the new pack
and no others, and outside of the folder nothing has changed.

An export that succeeds has written the record of its namespace, so it can be repeated.
From the second time on the folder holds exactly the pack, and stays as it is.

## Main statements

* `reexport_replaces`: what the files are after an export over an earlier one, and after
  any number of exports.
-/

namespace RigPack.Export

open Watched

variable {settings : Settings} {project : Project} {pack : Folder} {shelf : Shelf}

/-- The run of an export on a shelf on which no call fails, with all that it tells. -/
def undisturbed (settings : Settings) (project : Project) (shelf : Shelf) :
    (Except ExportFault Report × List Nat) × Watched Shelf :=
  watch settings project (fun n told => told ++ [n]) [] shelf fun _ _ => none

/-- A shelf after a number of exports. -/
def after (settings : Settings) (project : Project) (runs : Nat) (shelf : Shelf) : Shelf :=
  (fun shelf => (undisturbed settings project shelf).2.store)^[runs] shelf

theorem after_succ (settings : Settings) (project : Project) (runs : Nat) (shelf : Shelf) :
    after settings project (runs + 1) shelf
      = (undisturbed settings project (after settings project runs shelf)).2.store :=
  Function.iterate_succ_apply' _ _ _

theorem faults_after (h : build settings project = .ok pack) (hfaults : shelf.faults = [])
    (runs : Nat) : (after settings project runs shelf).faults = [] := by
  induction runs with
  | zero => exact hfaults
  | succ runs ih =>
      rw [after_succ]
      exact (watch_keeps h ih rfl _ _ _).1

theorem sum_told (runs : Nat) (told : List Nat) :
    ((fun told => told ++ [1])^[runs] told).sum = told.sum + runs := by
  induction runs generalizing told with
  | zero => rfl
  | succ runs ih =>
      rw [Function.iterate_succ_apply, ih, List.sum_append, List.sum_singleton]
      omega

/-- What was told of adds up to what is reported. -/
theorem written_eq_sum (h : build settings project = .ok pack) (hfaults : shelf.faults = [])
    {report : Report} (hok : (undisturbed settings project shelf).1.1 = .ok report) :
    report.written = (undisturbed settings project shelf).1.2.sum ∧
      report.written = pack.entryCount := by
  obtain ⟨rfl, htold, -⟩ := watch_eq_ok h hfaults rfl (fun n told => told ++ [n]) [] hok
  rw [undisturbed, htold, sum_told]
  exact ⟨(Nat.zero_add _).symm, rfl⟩

/-! ## The files of an export over an earlier one -/

theorem texts_within (h : build settings project = .ok pack) :
    ∀ entry ∈ pack.texts (Path.join settings.folder project.space),
      Shelf.isWithin (Path.join settings.folder project.space) entry.1 = true := by
  have hpack := writesPack_of_build h
  rw [← name_of_build h, ← Folder.writes_steps, name_of_build h]
  exact hpack.within

theorem texts_nodup (h : build settings project = .ok pack) :
    ((pack.texts (Path.join settings.folder project.space)).map (·.1)).Nodup := by
  have hpack := writesPack_of_build h
  rw [← name_of_build h, ← Folder.writes_steps]
  exact hpack.nodup

/-- The files of the pack in place of all that was in its folder. -/
theorem get?_replaced (h : build settings project = .ok pack) {root : String}
    (hroot : root = Path.join settings.folder project.space) (contents : Contents)
    (path : String) :
    ((filesOutside root contents).insertAll (pack.texts root)).get? path
      = if Shelf.isWithin root path then Table.find? path (pack.texts root)
        else contents.files.get? path := by
  subst hroot
  rw [Table.get?_insertAll _ (texts_nodup h), filesOutside, Table.get?_filter]
  by_cases hwithin : Shelf.isWithin (Path.join settings.folder project.space) path = true
  · simp [hwithin]
  · have hnone : Table.find? path
        (pack.texts (Path.join settings.folder project.space)) = none := by
      refine Table.find?_eq_none fun hmem => ?_
      obtain ⟨entry, hentry, rfl⟩ := List.mem_map.1 hmem
      exact hwithin (texts_within h entry hentry)
    simp [hwithin, hnone]

/-! ## One export after the other -/

/-- An export that succeeded can be repeated, and succeeds with the same report. -/
theorem recorded_after (h : build settings project = .ok pack) (hfaults : shelf.faults = [])
    {report : Report} (hok : (undisturbed settings project shelf).1.1 = .ok report) (runs : Nat) :
    (undisturbed settings project (after settings project runs shelf)).1.1 = .ok report ∧
      Recorded (Path.join settings.folder project.space) project.space
        (after settings project (runs + 1) shelf).contents := by
  have hreport := (watch_eq_ok h hfaults rfl _ _ hok).1
  have hrecorded {shelf : Shelf} (hfaults : shelf.faults = [])
      (hok : (undisturbed settings project shelf).1.1 = .ok report) :
      Recorded (Path.join settings.folder project.space) project.space
        (undisturbed settings project shelf).2.store.contents :=
    (watch_eq_ok h hfaults rfl _ _ hok).2.2
  induction runs with
  | zero => exact ⟨hok, hrecorded hfaults hok⟩
  | succ runs ih =>
      have hlater := faults_after h hfaults (runs + 1)
      have hok : (undisturbed settings project (after settings project (runs + 1) shelf)).1.1
          = .ok report := by
        rw [hreport]
        exact (watch_of_ready h hlater rfl _ _ (.inl ih.2)).1
      refine ⟨hok, ?_⟩
      rw [after_succ settings project (runs + 1)]
      exact hrecorded hlater hok

theorem filesOutside_after (h : build settings project = .ok pack) (hfaults : shelf.faults = [])
    (runs : Nat) :
    filesOutside (Path.join settings.folder project.space)
        (after settings project runs shelf).contents
      = filesOutside (Path.join settings.folder project.space) shelf.contents := by
  induction runs with
  | zero => rfl
  | succ runs ih =>
      rw [after_succ, ← ih]
      exact (watch_keeps h (faults_after h hfaults runs) rfl _ _ _).2.1

/-- From the second export on the files stay the same. -/
theorem files_after (h : build settings project = .ok pack) (hfaults : shelf.faults = [])
    {report : Report} (hok : (undisturbed settings project shelf).1.1 = .ok report) (runs : Nat) :
    (after settings project (runs + 2) shelf).files
      = (filesOutside (Path.join settings.folder project.space) shelf.contents).insertAll
          (pack.texts (Path.join settings.folder project.space)) := by
  have hready := (recorded_after h hfaults hok runs).2
  rw [after_succ settings project (runs + 1), ← filesOutside_after h hfaults (runs + 1)]
  exact (watch_of_ready h (faults_after h hfaults (runs + 1)) rfl _ _ (.inl hready)).2

/-- An export over an earlier one replaces exactly the files of the folder: it succeeds,
keeps all files outside, and leaves in the folder one file for each of the pack.  Any
export that succeeds can be repeated; each time it reports as many entries as it told of,
and from the second time on the folder holds the pack and nothing changes. -/
theorem reexport_replaces (h : build settings project = .ok pack) (hfaults : shelf.faults = []) :
    let root := Path.join settings.folder project.space
    (∀ path text, (path, text) ∈ pack.texts root ↔
      ∃ dir file, pack.file? dir file.name = some file ∧
        path = Path.joinAll root (dir ++ [file.name]) ∧ text = file.content.text) ∧
    ((pack.texts root).map (·.1)).Nodup ∧
    (∀ entry ∈ pack.texts root, Shelf.isWithin root entry.1 = true) ∧
    (∀ content, shelf.files.get? (metadataPath root) = some content →
      Permits project.space content →
      ∃ report, (undisturbed settings project shelf).1.1 = .ok report ∧
        ∀ path, (undisturbed settings project shelf).2.store.files.get? path
          = if Shelf.isWithin root path then Table.find? path (pack.texts root)
            else shelf.files.get? path) ∧
    (∀ report, (undisturbed settings project shelf).1.1 = .ok report → ∀ runs,
      let now := after settings project runs shelf
      (undisturbed settings project now).1.1 = .ok report ∧
      report.written = (undisturbed settings project now).1.2.sum ∧
      report.written = pack.entryCount ∧
      (∃ content, (after settings project (runs + 1) shelf).files.get? (metadataPath root)
          = some content ∧ Permits project.space content) ∧
      (∀ path, Shelf.isWithin root path = true →
        (after settings project (runs + 2) shelf).files.get? path
          = Table.find? path (pack.texts root)) ∧
      (after settings project (runs + 2) shelf).files
        = (after settings project 2 shelf).files) := by
  intro root
  refine ⟨fun path text => (tidy_of_build h).mem_texts_iff, texts_nodup h, texts_within h, ?_, ?_⟩
  · intro content hfile hpermits
    obtain ⟨hok, hfiles⟩ := watch_of_ready h hfaults rfl (fun n told => told ++ [n]) []
      (.inl ⟨content, hfile, recordedSpace_of_permits hpermits⟩)
    refine ⟨_, hok, fun path => ?_⟩
    rw [undisturbed, hfiles]
    exact get?_replaced h rfl shelf.contents path
  · intro report hok runs now
    obtain ⟨hagain, content, hfile, hrecorded⟩ := recorded_after h hfaults hok runs
    obtain ⟨hsum, hcount⟩ := written_eq_sum h (faults_after h hfaults runs) hagain
    refine ⟨hagain, hsum, hcount, ⟨content, hfile, ?_⟩, ?_, ?_⟩
    · exact permits_of_recordedSpace (isSegment_space h).1 hrecorded
    · intro path hwithin
      rw [files_after h hfaults hok, get?_replaced h rfl, if_pos hwithin]
    · rw [files_after h hfaults hok, files_after h hfaults hok 0]

/-- A file of an earlier pack goes, one beside the folder of the pack stays. -/
theorem reexport_replaces_stale_file :
    ∃ shelf : Shelf,
      shelf.files.keys
        = ["packs/fox/animated_java.mcmeta", "packs/fox/stale", "packs/foxy/stale"] ∧
      (∃ report, (undisturbed ⟨"packs", 1, 12⟩ (oneFrame "walk") shelf).1.1 = .ok report) ∧
      let files := (undisturbed ⟨"packs", 1, 12⟩ (oneFrame "walk") shelf).2.store.files
      files.get? "packs/fox/stale" = none ∧
      files.get? "packs/foxy/stale" = some "kept" ∧
      (files.get? "packs/fox/pack.mcmeta").isSome = true := by
  let shelf : Shelf := { Shelf.empty with
    files := .ofList [("packs/fox/animated_java.mcmeta", "\x7b\"project_namespace\":\"fox\"\x7d"),
      ("packs/fox/stale", "old"), ("packs/foxy/stale", "kept")] }
  have hpack : ((build ⟨"packs", 1, 12⟩ (oneFrame "walk")).toOption.any fun pack =>
      (pack.file? [] "stale").isNone && (pack.file? [] "pack.mcmeta").isSome) = true := by
    decide +kernel
  have hpermits : Permits "fox" "\x7b\"project_namespace\":\"fox\"\x7d" :=
    permits_of_recordedSpace (by decide) (by decide +kernel)
  cases hbuild : build ⟨"packs", 1, 12⟩ (oneFrame "walk") with
  | error fault =>
      rw [hbuild] at hpack
      contradiction
  | ok pack =>
      rw [hbuild] at hpack
      obtain ⟨hstale, hdescription⟩ := Bool.and_eq_true_iff.1 hpack
      have hshelf : shelf.faults = [] := rfl
      obtain ⟨-, -, -, hreplaces, -⟩ := reexport_replaces hbuild hshelf
      obtain ⟨report, hok, hfiles⟩ := hreplaces _ (by decide +kernel) hpermits
      have hroot : Path.join "packs" (oneFrame "walk").space = "packs/fox" := by decide +kernel
      have htexts (name : String) (hname : Path.IsSegment name) :
          Table.find? (Path.joinAll "packs/fox" [name]) (pack.texts "packs/fox")
            = (pack.file? [] name).map (·.content.text) := by
        have hpath : ∀ segment ∈ ([] : List String) ++ [name], Path.IsSegment segment := by
          simpa using hname
        exact (tidy_of_build hbuild).find?_texts ⟨by decide, by decide⟩ hpath
      simp only [hroot] at hfiles
      refine ⟨shelf, by decide +kernel, ⟨report, hok⟩, ?_, ?_, ?_⟩
      · have hpath : "packs/fox/stale" = Path.joinAll "packs/fox" ["stale"] := by decide +kernel
        rw [hfiles, if_pos (by decide +kernel), hpath, htexts "stale" (by decide)]
        simpa using hstale
      · rw [hfiles, if_neg (by decide +kernel)]
        decide +kernel
      · have hpath : "packs/fox/pack.mcmeta" = Path.joinAll "packs/fox" ["pack.mcmeta"] := by
          decide +kernel
        rw [hfiles, if_pos (by decide +kernel), hpath, htexts "pack.mcmeta" (by decide),
          Option.isSome_map]
        exact hdescription

end RigPack.Export

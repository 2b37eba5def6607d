import RigPack.Proofs.Export.Shelved

/-!
# Retries of failed exports

An export that fails in the middle leaves part of a pack behind.  Started again it goes
on to replace that part, and ends where it would have ended without the failure.

It can do so because the record of the namespace comes before all other files.  Where the
failed export left no file, there is nothing to replace; where it left any, the record is
among them, and permits the removal.  The exception is a folder that held files without
metadata before the first attempt; these are kept by an export that meets them, and would
be removed by its retry.

## Main statements

* `retry_heals`: a retry leaves the files that an export without failures leaves.
-/

namespace RigPack.Export

open Watched

variable {τ : Type} {settings : Settings} {project : Project} {pack : Folder}

/-- A folder that holds a pack of the namespace, or no file, is ready if an export of it
succeeds. -/
theorem ready_of_permits_or_vacant (h : build settings project = .ok pack) {shelf : Shelf}
    (hfaults : shelf.faults = []) {root : String}
    (hroot : root = Path.join settings.folder project.space) {note : Nat → τ → τ} {tally : τ}
    {report : Report}
    (hok : (watch settings project note tally shelf fun _ _ => none).1.1 = .ok report)
    (hstate : (∃ content, shelf.files.get? (metadataPath root) = some content ∧
        Permits project.space content) ∨
      ∀ path, Shelf.isWithin root path = true → shelf.files.get? path = none) :
    Ready root project.space shelf.contents := by
  rcases hstate with ⟨content, hfile, hpermits⟩ | hvacant
  · exact .inl ⟨content, hfile, recordedSpace_of_permits hpermits⟩
  · exact ready_of_watch_ok h hfaults hroot note tally hok hvacant

/-- An export that failed, whichever calls failed, is healed by a retry in which none
does: the retry succeeds, with the report and the files of an export that was not
disturbed. -/
theorem retry_heals (h : build settings project = .ok pack) {shelf : Shelf}
    (hfaults : shelf.faults = []) (note : Nat → τ → τ) (tally : τ) {report : Report}
    (hok : (watch settings project note tally shelf fun _ _ => none).1.1 = .ok report)
    (hstate : (∃ content,
        shelf.files.get? (metadataPath (Path.join settings.folder project.space)) = some content ∧
        Permits project.space content) ∨
      ∀ path, Shelf.isWithin (Path.join settings.folder project.space) path = true →
        shelf.files.get? path = none)
    (fault? : List StoreEvent → Call → Option IoError) :
    let failed := (watch settings project note tally shelf fault?).2.store
    let retried := watch settings project note tally failed fun _ _ => none
    retried.1.1 = .ok report ∧ retried.2.store.files
      = (watch settings project note tally shelf fun _ _ => none).2.store.files := by
  intro failed retried
  have hready := ready_of_permits_or_vacant h hfaults rfl hok hstate
  obtain ⟨hfailed_faults, houtside, hkept⟩ := watch_keeps h hfaults rfl note tally fault?
  obtain ⟨hresult, hfiles⟩ := watch_of_ready h hfaults rfl note tally hready
  obtain ⟨hretried, hretried_files⟩ :=
    watch_of_ready h hfailed_faults rfl note tally (hkept hready)
  constructor
  · rw [← hok, hresult]
    exact hretried
  · rw [hfiles, ← houtside]
    exact hretried_files

/-- A first export that breaks off at its fifth call leaves two files, which its retry
replaces. -/
theorem retry_heals_first_export :
    ∃ fault? : List StoreEvent → Call → Option IoError,
      let run := watch ⟨"packs", 1, 12⟩ (oneFrame "walk") (fun n told => n + told) (0 : Nat)
      let failed := run Shelf.empty fault?
      let retried := run failed.2.store fun _ _ => none
      failed.1.1 = .error (.failed "write data pack" "packs/fox" (.io .other)) ∧
      failed.2.store.files.keys = ["packs/fox/animated_java.mcmeta", "packs/fox/pack.mcmeta"] ∧
      retried.1.1 = .ok ⟨"packs/fox", 1, 55⟩ ∧
      retried.2.store.files = (run Shelf.empty fun _ _ => none).2.store.files := by
  refine ⟨fun events _ => if events.length = 4 then some .other else none,
    by decide +kernel, by decide +kernel, ?_⟩
  have haccepted : (build ⟨"packs", 1, 12⟩ (oneFrame "walk")).toOption.isSome = true := by
    decide +kernel
  cases hbuild : build ⟨"packs", 1, 12⟩ (oneFrame "walk") with
  | error fault =>
      rw [hbuild] at haccepted
      contradiction
  | ok pack =>
      exact retry_heals hbuild rfl _ _ (by decide +kernel) (.inr fun _ _ => rfl) _

end RigPack.Export

import RigPack.Proofs.Export.Refusal
import RigPack.Proofs.Json.Record
import RigPack.Proofs.Store.Contents

/-!
# Exports to a shelf

On a shelf the run of an export is known in full: it clears the folder of the pack or
stops before it, and then it takes the steps of the writing.  What matters for the next
export is whether the folder is `Ready` for it: the metadata there records the
namespace, or there is nothing of the pack at all.

## Strategy

The metadata is the first file that is written, and it is written whole.  So an export
of a ready folder leaves a ready folder wherever it stops (`WritesPack.ready_after`), and
outside of the folder it changes nothing.

## Main statements

* `clears`: the ways in which the clearing of a folder ends on a shelf.
* `exports`: the ways in which an export to a shelf ends.
* `watch_keeps`: what an export leaves as it was, whichever calls fail.
* `watch_of_ready`: what an export of a ready folder leaves if no call fails.
-/

namespace RigPack

/-! ## Paths within a folder -/

namespace Shelf

theorem isWithin_append (root rest : String) : isWithin root (root ++ "/" ++ rest) = true := by
  rw [isWithin, Bool.or_eq_true]
  exact .inr (List.isPrefixOf_iff_prefix.2 ⟨rest.toList, String.toList_append.symm⟩)

theorem isWithin_joinAll {root : String} (hroot : Path.IsBase root) {segments : List String}
    (hsegments : ∀ segment ∈ segments, Path.IsSegment segment) :
    isWithin root (Path.joinAll root segments) = true := by
  rw [Path.joinAll_eq hroot hsegments]
  cases segments with
  | nil => simp [isWithin]
  | cons segment segments =>
      rw [String.intercalate_cons_of_ne_nil (List.cons_ne_nil _ _)]
      exact isWithin_append root _

end Shelf

namespace Contents

/-- The contents without a folder and all that lies in it. -/
def outside (root : String) (contents : Contents) : Contents :=
  ⟨contents.files.filter (!Shelf.isWithin root ·), contents.folders.filter (!Shelf.isWithin root ·)⟩

end Contents

namespace Export

open Watched

/-- The file in which the pack at `root` records its namespace. -/
def metadataPath (root : String) : String :=
  Path.join root metadataFile

theorem isWithin_metadataPath {root : String} (hroot : Path.IsBase root) :
    Shelf.isWithin root (metadataPath root) = true := by
  rw [metadataPath, Path.join_segment hroot (by decide)]
  exact Shelf.isWithin_append root metadataFile

/-- The metadata in a folder records a namespace. -/
def Recorded (root space : String) (contents : Contents) : Prop :=
  ∃ content, contents.files.get? (metadataPath root) = some content ∧
    recordedSpace content = .ok space

/-- A folder is ready for an export: it holds a pack of the namespace, or no file and
nothing in place of the metadata. -/
def Ready (root space : String) (contents : Contents) : Prop :=
  Recorded root space contents ∨
    contents.folders.get? (metadataPath root) = none ∧
      ∀ path, Shelf.isWithin root path = true → contents.files.get? path = none

/-- Other metadata in a folder keep it from being ready. -/
theorem not_ready_of_content {root space : String} (hroot : Path.IsBase root)
    {contents : Contents} {content : String}
    (hfile : contents.files.get? (metadataPath root) = some content)
    (hspace : recordedSpace content ≠ .ok space) : ¬ Ready root space contents := by
  rintro (⟨found, hfound, hrecorded⟩ | ⟨-, hvacant⟩)
  · obtain rfl := Option.some.inj (hfile.symm.trans hfound)
    exact hspace hrecorded
  · rw [hvacant _ (isWithin_metadataPath hroot)] at hfile
    contradiction

/-- So does a folder in place of the metadata. -/
theorem not_ready_of_folder {root space : String} {contents : Contents}
    (hfile : contents.files.get? (metadataPath root) = none)
    (hfolder : (contents.folders.get? (metadataPath root)).isSome = true) :
    ¬ Ready root space contents := by
  rintro (⟨content, hfound, -⟩ | ⟨hnone, -⟩)
  · rw [hfile] at hfound
    contradiction
  · rw [hnone] at hfolder
    contradiction

variable {τ : Type}

/-! ## Clearing -/

/-- What the clearing of a folder makes of the contents of a shelf. -/
inductive Leaves (root space : String) (contents : Contents) : Contents → Prop
  | absent (hfile : contents.files.get? (metadataPath root) = none)
    (hfolder : contents.folders.get? (metadataPath root) = none) :
    Leaves root space contents contents
  | removed (hrecorded : Recorded root space contents) :
    Leaves root space contents (contents.outside root)

/-- How the clearing of a folder ends on a shelf. -/
inductive Clears (root space : String) (tally : τ) (watched : Watched Shelf) :
    (Except ExportFault Unit × τ) × Watched Shelf → Prop
  | cleared {later : Watched Shelf} (hfollows : later.Follows watched)
    (hleaves : Leaves root space watched.store.contents later.store.contents) :
    Clears root space tally watched ((.ok (), tally), later)
  /-- Nothing is changed; this happens if a call fails or the folder is not ready. -/
  | stopped {fault : ExportFault} {later : Watched Shelf} (hfollows : later.Follows watched)
    (hcontents : later.store.contents = watched.store.contents)
    (hreason : watched.Calm → ¬ Ready root space watched.store.contents) :
    Clears root space tally watched ((.error fault, tally), later)

/-- The content of a file of a shelf, unless the call fails. -/
theorem exec_readText_shelf (path : String) (tally : τ) {watched : Watched Shelf}
    (hfaults : watched.store.faults = []) :
    ∃ answer later,
      exec (FileStore.readText path : ExceptT IoError (StateT τ (StateM (Watched Shelf))) String)
        tally watched = ((answer, tally), later) ∧
      later.Follows watched ∧ later.store.contents = watched.store.contents ∧
      (∀ content, answer = .ok content → watched.store.files.get? path = some content) ∧
      (∀ e, answer = .error e → watched.Calm → watched.store.files.get? path = none) := by
  cases hfault : watched.fault? watched.events (.read path) with
  | some e =>
      refine ⟨_, _, exec_attempt_of_some _ _ _ _ _ hfault, ⟨hfaults, rfl⟩, rfl, ?_, ?_⟩
      · intro content h
        contradiction
      · intro _ _ hcalm
        rw [hcalm] at hfault
        contradiction
  | none =>
      refine ⟨_, _, exec_attempt_of_none _ _ _ _ _ hfault, ?_⟩
      rw [Shelf.run_readText path hfaults]
      refine ⟨⟨hfaults, rfl⟩, rfl, ?_, ?_⟩
      · intro content h
        cases hfile : watched.store.files.get? path with
        | none => simp [hfile] at h
        | some found => simpa [hfile] using h
      · intro e h _
        cases hfile : watched.store.files.get? path with
        | none => rfl
        | some found => simp [hfile] at h

/-- A folder is removed with all that lies in it, unless the call fails. -/
theorem exec_removeTree_shelf (root : String) (tally : τ) {watched : Watched Shelf}
    (hfaults : watched.store.faults = []) :
    ∃ answer later,
      exec (FileStore.removeTree root : ExceptT IoError (StateT τ (StateM (Watched Shelf))) Unit)
        tally watched = ((answer, tally), later) ∧
      later.Follows watched ∧
      (answer = .ok () ∧ later.store.contents = watched.store.contents.outside root ∨
        ¬ watched.Calm ∧ later.store.contents = watched.store.contents ∧
          ∃ e, answer = .error e) := by
  cases hfault : watched.fault? watched.events (.removeTree root) with
  | some e =>
      refine ⟨_, _, exec_attempt_of_some _ _ _ _ _ hfault, ⟨hfaults, rfl⟩, .inr ⟨?_, rfl, e, rfl⟩⟩
      intro hcalm
      rw [hcalm] at hfault
      contradiction
  | none =>
      refine ⟨_, _, exec_attempt_of_none _ _ _ _ _ hfault, ?_⟩
      rw [Shelf.run_removeTree root hfaults]
      exact ⟨⟨hfaults, rfl⟩, .inl ⟨rfl, rfl⟩⟩

theorem clears {root space : String} (hroot : Path.IsBase root) (tally : τ)
    {watched : Watched Shelf} (hfaults : watched.store.faults = []) :
    Clears root space tally watched
      (exec (clear (m := StateT τ (StateM (Watched Shelf))) root space) tally watched) := by
  let present := (watched.store.files.get? (metadataPath root)).isSome ||
    (watched.store.folders.get? (metadataPath root)).isSome
  let now : Watched Shelf := { watched with
    events := watched.events ++ [.presence (metadataPath root) present] }
  have hasked : exec (ExceptT.lift (FileStore.isPresent (metadataPath root)) :
      ExceptT ExportFault (StateT τ (StateM (Watched Shelf))) Bool) tally watched
      = ((.ok present, tally), now) := rfl
  have hnow : now.Follows watched := ⟨hfaults, rfl⟩
  unfold clear
  simp only
  rw [show Path.join root metadataFile = metadataPath root from rfl, exec_bind, hasked]
  simp only
  cases hpresent : present with
  | false =>
      obtain ⟨hfile, hfolder⟩ := Bool.or_eq_false_iff.1 hpresent
      exact .cleared hnow (.absent
        (Option.isNone_iff_eq_none.1 (Option.isSome_eq_false_iff.1 hfile))
        (Option.isNone_iff_eq_none.1 (Option.isSome_eq_false_iff.1 hfolder)))
  | true =>
      obtain ⟨answer, read, hread, hfollows, hcontents, hok, herror⟩ :=
        exec_readText_shelf (metadataPath root) tally hnow.faults
      rw [if_pos rfl, exec_bind, exec_step, hread]
      cases answer with
      | error e =>
          refine .stopped (hfollows.trans hnow) hcontents fun hcalm => ?_
          have hfile : watched.store.files.get? (metadataPath root) = none :=
            herror e rfl (hnow.calm.2 hcalm)
          have hfolder : (watched.store.folders.get? (metadataPath root)).isSome = true := by
            simpa [present, hfile] using hpresent
          exact not_ready_of_folder hfile hfolder
      | ok content =>
          have hfile : watched.store.contents.files.get? (metadataPath root) = some content :=
            hok content rfl
          simp only
          cases hrecorded : recordedSpace content with
          | error fault =>
              exact .stopped (hfollows.trans hnow) hcontents fun _ =>
                not_ready_of_content hroot hfile (by simp [hrecorded])
          | ok found =>
              simp only
              by_cases hfound : found = space
              · obtain ⟨answer, last, hlast, hlast_follows, hremoved⟩ :=
                  exec_removeTree_shelf root tally hfollows.faults
                rw [if_neg fun h => h hfound, exec_step, hlast]
                rcases hremoved with ⟨rfl, hlast_contents⟩ | ⟨hfault, hlast_contents, e, rfl⟩
                · refine .cleared (hlast_follows.trans (hfollows.trans hnow)) ?_
                  rw [hlast_contents, hcontents]
                  exact .removed ⟨content, hfile, hfound ▸ hrecorded⟩
                · refine .stopped (hlast_follows.trans (hfollows.trans hnow))
                    (hlast_contents.trans hcontents) fun hcalm => ?_
                  exact absurd ((hfollows.trans hnow).calm.2 hcalm) hfault
              · rw [if_pos hfound]
                exact .stopped (hfollows.trans hnow) hcontents fun _ =>
                  not_ready_of_content hroot hfile (by simpa [hrecorded] using hfound)

/-! ## Whole exports -/

/-- How an export to a shelf ends: it stops before anything is changed, it writes all of
the pack, or it breaks off while it does. -/
inductive Exports (root space : String) (steps : List WriteStep) (note : Nat → τ → τ) (tally : τ)
    (calm : Prop) (report : Report) (contents : Contents) :
    (Except ExportFault Report × τ) × Watched Shelf → Prop
  | stopped {fault : ExportFault} {later : Watched Shelf} (hfaults : later.store.faults = [])
    (hcontents : later.store.contents = contents)
    (hreason : calm → ¬ Ready root space contents) :
    Exports root space steps note tally calm report contents ((.error fault, tally), later)
  | written {cleared : Contents} (hleaves : Leaves root space contents cleared)
    {later : Watched Shelf} (hfaults : later.store.faults = [])
    (hcontents : later.store.contents = steps.foldl WriteStep.effect cleared) :
    Exports root space steps note tally calm report contents
      ((.ok report, steps.foldl (WriteStep.tallied note) tally), later)
  | broken {cleared : Contents} (hleaves : Leaves root space contents cleared)
    {fault : ExportFault} {tally' : τ} {later : Watched Shelf} (hfaults : later.store.faults = [])
    {before : List WriteStep} (hbefore : before <+: steps)
    (hcontents : later.store.contents = before.foldl WriteStep.effect cleared) (hfault : ¬ calm) :
    Exports root space steps note tally calm report contents ((.error fault, tally'), later)

variable {settings : Settings} {project : Project} {pack : Folder}

theorem isSegment_space (h : build settings project = .ok pack) :
    Path.IsSegment project.space := by
  obtain ⟨blueprint, haccepted, -⟩ := build_eq_ok h
  exact (isPlain_of_isResourceName haccepted.space).1

theorem exports (h : build settings project = .ok pack) {shelf : Shelf}
    (hfaults : shelf.faults = []) (note : Nat → τ → τ) (tally : τ)
    (fault? : List StoreEvent → Call → Option IoError) {root : String}
    (hroot : root = Path.join settings.folder project.space) :
    Exports root project.space (pack.steps settings.folder) note tally
      (∀ events call, fault? events call = none)
      ⟨root, project.animations.length, pack.entryCount⟩ shelf.contents
      (watch settings project note tally shelf fault?) := by
  have hbase : Path.IsBase root := hroot ▸ Path.isBase_join settings.folder (isSegment_space h)
  have hclears : Clears root project.space tally (.fresh shelf fault?) _ :=
    clears hbase tally hfaults
  rw [watch_of_build h note tally shelf fault? hroot, exec_bind]
  generalize exec (clear (m := StateT τ (StateM (Watched Shelf))) root project.space) tally
    (.fresh shelf fault?) = run at hclears
  cases hclears with
  | @stopped fault later hfollows hcontents hreason =>
      exact .stopped hfollows.faults hcontents hreason
  | @cleared later hfollows hleaves =>
      have hworks := works_steps note tally (pack.steps settings.folder) hfollows.faults
      simp only
      rw [exec_bind, exec_step, Folder.write_eq, exec_bind]
      generalize exec (forM (pack.steps settings.folder)
        (WriteStep.perform (m := StateT τ (StateM (Watched Shelf))) fun n => modify (note n)))
        tally later = run at hworks
      cases hworks with
      | @done last hlast hcontents =>
          exact .written hleaves hlast.faults hcontents
      | @failed e tally' last hlast before hbefore hcontents hfault =>
          exact .broken hleaves hlast.faults hbefore hcontents (mt hfollows.calm.2 hfault)

/-! ## What the steps of a pack leave -/

/-- The files outside of a folder. -/
def filesOutside (root : String) (contents : Contents) : Table String :=
  contents.files.filter (!Shelf.isWithin root ·)

/-- What holds of the steps that write the pack of an accepted project to `root`. -/
structure WritesPack (root space : String) (steps : List WriteStep) : Prop where
  base : Path.IsBase root
  /-- The record of the namespace is written before all other files. -/
  first : ∃ text more, recordedSpace text = .ok space ∧
    steps = .makeFolders root :: .writeText (metadataPath root) text :: more
  nodup : ((steps.filterMap WriteStep.write?).map (·.1)).Nodup
  within : ∀ entry ∈ steps.filterMap WriteStep.write?, Shelf.isWithin root entry.1 = true

theorem writesPack_of_build (h : build settings project = .ok pack) :
    WritesPack (Path.join settings.folder project.space) project.space
      (pack.steps settings.folder) := by
  have hname := name_of_build h
  have hbase := Path.isBase_join settings.folder (isSegment_space h)
  obtain ⟨blueprint, haccepted, hblueprint, rfl⟩ := build_eq_ok h
  have hsound := Blueprint.sound_of_build haccepted hblueprint
  have htidy := hsound.tidy_pack settings
  have hwrites := Folder.writes_steps settings.folder (blueprint.pack settings)
  rw [hname] at hwrites
  refine ⟨hbase, ?_, ?_, ?_⟩
  · have hnames := names_ofProject hblueprint
    obtain ⟨more, hsteps⟩ := hsound.steps_pack settings settings.folder
    rw [hnames] at hsteps
    exact ⟨_, more, recordedSpace_record ⟨project.space⟩, hsteps⟩
  · rw [hwrites]
    exact Folder.texts_nodup htidy hbase
  · rw [hwrites]
    intro entry hentry
    obtain ⟨file, hfile, rfl⟩ := List.mem_map.1 hentry
    exact Shelf.isWithin_joinAll hbase (htidy.isSegment_of_mem_entries file hfile)

namespace WritesPack

variable {root space : String} {steps before : List WriteStep}

/-- The metadata is there as soon as it is written. -/
theorem recorded_of_metadata (h : WritesPack root space steps) {text : String}
    {more : List WriteStep} (htext : recordedSpace text = .ok space)
    (hbefore : .makeFolders root :: .writeText (metadataPath root) text :: more <+: steps)
    (contents : Contents) :
    Recorded root space ((WriteStep.makeFolders root :: .writeText (metadataPath root) text ::
      more).foldl WriteStep.effect contents) := by
  have hnodup := h.nodup.sublist ((hbefore.sublist.filterMap WriteStep.write?).map (·.1))
  refine ⟨text, ?_, htext⟩
  have hfound : Table.find? (metadataPath root) ((WriteStep.makeFolders root ::
      .writeText (metadataPath root) text :: more).filterMap WriteStep.write?) = some text :=
    if_pos rfl
  rw [WriteStep.files_after_steps, Table.get?_insertAll _ hnodup, hfound]
  rfl

theorem recorded_after (h : WritesPack root space steps) (contents : Contents) :
    Recorded root space (steps.foldl WriteStep.effect contents) := by
  obtain ⟨text, more, htext, rfl⟩ := h.first
  exact h.recorded_of_metadata htext (List.prefix_refl _) contents

/-- A folder that is ready stays so, wherever the writing breaks off. -/
theorem ready_after (h : WritesPack root space steps) (hbefore : before <+: steps)
    {contents : Contents} (hready : Ready root space contents) :
    Ready root space (before.foldl WriteStep.effect contents) := by
  obtain ⟨text, more, htext, rfl⟩ := h.first
  match before, hbefore with
  | [], _ => exact hready
  | [step], hbefore =>
      -- the folder is there, and nothing in it
      obtain rfl : step = .makeFolders root := (List.cons_prefix_cons.1 hbefore).1
      refine hready.imp id fun hvacant => ⟨?_, hvacant.2⟩
      have hne : metadataPath root ≠ root :=
        Path.joinAll_ne_root h.base (by decide) (List.cons_ne_nil metadataFile [])
      exact (Table.get?_insert ..).trans ((if_neg hne).trans hvacant.1)
  | step :: second :: later, hbefore =>
      obtain ⟨rfl, hbefore'⟩ := List.cons_prefix_cons.1 hbefore
      obtain ⟨rfl, -⟩ := List.cons_prefix_cons.1 hbefore'
      exact .inl (h.recorded_of_metadata htext hbefore contents)

/-- Nothing is written outside of the folder. -/
theorem filesOutside_after (h : WritesPack root space steps) (hbefore : before <+: steps)
    (contents : Contents) :
    filesOutside root (before.foldl WriteStep.effect contents) = filesOutside root contents := by
  rw [filesOutside, WriteStep.files_after_steps]
  refine Table.filter_insertAll _ fun entry hentry => ?_
  have hmem := (hbefore.sublist.filterMap WriteStep.write?).subset hentry
  rw [h.within entry hmem]
  rfl

end WritesPack

namespace Leaves

variable {root space : String} {contents cleared : Contents}

theorem ready (h : Leaves root space contents cleared) (hroot : Path.IsBase root)
    (hready : Ready root space contents) : Ready root space cleared := by
  cases h with
  | absent => exact hready
  | removed =>
      refine .inr ⟨?_, fun path hpath => ?_⟩
      · refine (Table.get?_filter ..).trans (if_neg ?_)
        simp [isWithin_metadataPath hroot]
      · refine (Table.get?_filter ..).trans (if_neg ?_)
        simp [hpath]

theorem filesOutside_eq (h : Leaves root space contents cleared) :
    filesOutside root cleared = filesOutside root contents := by
  cases h with
  | absent => rfl
  | removed => exact Table.filter_filter contents.files (!Shelf.isWithin root ·)

/-- Of a ready folder no file is left. -/
theorem files_eq (h : Leaves root space contents cleared) (hready : Ready root space contents) :
    cleared.files = filesOutside root contents := by
  cases h with
  | removed => rfl
  | absent hfile =>
      rcases hready with ⟨content, hfound, -⟩ | ⟨-, hvacant⟩
      · rw [hfile] at hfound
        contradiction
      · refine (Table.filter_eq_self fun path hpath => hvacant path ?_).symm
        simpa using hpath

end Leaves

/-! ## What an export leaves -/

section Runs

variable (h : build settings project = .ok pack) {shelf : Shelf} (hfaults : shelf.faults = [])
  {root : String} (hroot : root = Path.join settings.folder project.space)
  (note : Nat → τ → τ) (tally : τ)

include h hfaults hroot

/-- What an export does not touch, whichever calls fail: the files outside of the folder,
and that the folder is ready. -/
theorem watch_keeps (fault? : List StoreEvent → Call → Option IoError) :
    let later := (watch settings project note tally shelf fault?).2.store
    later.faults = [] ∧ filesOutside root later.contents = filesOutside root shelf.contents ∧
      (Ready root project.space shelf.contents → Ready root project.space later.contents) := by
  intro later
  have hpack : WritesPack root project.space (pack.steps settings.folder) :=
    hroot ▸ writesPack_of_build h
  have hexports := exports h hfaults note tally fault? hroot
  simp only [later]
  generalize watch settings project note tally shelf fault? = result at hexports
  cases hexports with
  | stopped hlater hcontents hreason =>
      rw [hcontents]
      exact ⟨hlater, rfl, id⟩
  | written hleaves hlater hcontents =>
      rw [hcontents]
      refine ⟨hlater, ?_, fun _ => .inl (hpack.recorded_after _)⟩
      exact (hpack.filesOutside_after (List.prefix_refl _) _).trans hleaves.filesOutside_eq
  | broken hleaves hlater hbefore hcontents hfault =>
      rw [hcontents]
      refine ⟨hlater, ?_, fun hready => ?_⟩
      · exact (hpack.filesOutside_after hbefore _).trans hleaves.filesOutside_eq
      · exact hpack.ready_after hbefore (hleaves.ready hpack.base hready)

/-- An export that succeeds has told of every entry, and has recorded the namespace. -/
theorem watch_eq_ok {fault? : List StoreEvent → Call → Option IoError} {report : Report}
    (hok : (watch settings project note tally shelf fault?).1.1 = .ok report) :
    report = ⟨root, project.animations.length, pack.entryCount⟩ ∧
      (watch settings project note tally shelf fault?).1.2 = (note 1)^[pack.entryCount] tally ∧
      Recorded root project.space
        (watch settings project note tally shelf fault?).2.store.contents := by
  have hpack : WritesPack root project.space (pack.steps settings.folder) :=
    hroot ▸ writesPack_of_build h
  have hexports := exports h hfaults note tally fault? hroot
  generalize watch settings project note tally shelf fault? = result at hexports hok
  cases hexports with
  | stopped => contradiction
  | broken => contradiction
  | written hleaves hlater hcontents =>
      rw [hcontents]
      refine ⟨(Except.ok.inj hok).symm, ?_, hpack.recorded_after _⟩
      rw [← Folder.told_steps settings.folder pack, ← WriteStep.tallied_steps]

/-- An export of a ready folder succeeds if no call fails, and replaces all files in it. -/
theorem watch_of_ready (hready : Ready root project.space shelf.contents) :
    let result := watch settings project note tally shelf fun _ _ => none
    result.1.1 = .ok ⟨root, project.animations.length, pack.entryCount⟩ ∧
      result.2.store.files
        = (filesOutside root shelf.contents).insertAll (pack.texts root) := by
  intro result
  have hexports := exports h hfaults note tally (fun _ _ => none) hroot
  have hwrites : (pack.steps settings.folder).filterMap WriteStep.write? = pack.texts root := by
    rw [Folder.writes_steps, name_of_build h, hroot]
  simp only [result]
  generalize watch settings project note tally shelf (fun _ _ => none) = result at hexports
  cases hexports with
  | stopped _ _ hreason => exact absurd hready (hreason fun _ _ => rfl)
  | broken _ _ _ _ hfault => exact absurd (fun _ _ => rfl) hfault
  | @written cleared hleaves later hlater hcontents =>
      refine ⟨rfl, ?_⟩
      have hfiles : later.store.files = later.store.contents.files := rfl
      rw [hfiles, hcontents, WriteStep.files_after_steps, hwrites, hleaves.files_eq hready]

/-- An export that succeeds without any failure makes the folder ready or found it so,
unless it held files without metadata. -/
theorem ready_of_watch_ok {report : Report}
    (hok : (watch settings project note tally shelf fun _ _ => none).1.1 = .ok report)
    (hvacant : ∀ path, Shelf.isWithin root path = true → shelf.files.get? path = none) :
    Ready root project.space shelf.contents := by
  have hexports := exports h hfaults note tally (fun _ _ => none) hroot
  generalize watch settings project note tally shelf (fun _ _ => none) = result at hexports hok
  cases hexports with
  | stopped => contradiction
  | broken => contradiction
  | written hleaves =>
      cases hleaves with
      | removed hrecorded => exact .inl hrecorded
      | absent _ hfolder => exact .inr ⟨hfolder, hvacant⟩

end Runs

end Export

end RigPack

import RigPack.Proofs.Export.Confinement
import RigPack.Proofs.Export.Replacement
import RigPack.Proofs.Store.Alike

/-!
# Exports of different namespaces are independent

Two exports into one datapack folder have folders of their own there, one for each
namespace.  What the one asks a shelf is about paths within its folder, so it goes the
same way before and after the other, whichever way that is: a first export, one over an
earlier pack, one that is refused.

## Strategy

Namespaces are single segments, so no path lies within both folders, also if the one
namespace is a textual prefix of the other (`space_eq_of_isWithin`).  An export leaves
what is outside of its folder, hence all that lies within the other one
(`agreeWithin_watch`).  And an export is a local program: from shelves that agree within
its folder it runs alike (`local_run`).

## Main statements

* `watch_after_other`: an export runs after another one as it would have run before.
* `exports_commute`: two exports come to the same in either order, and neither touches a
  file that the other wrote.
-/

namespace RigPack

/-! ## Folders of different namespaces -/

namespace Path

/-- What stands in front of a segment that is joined to a path depends on the path only. -/
theorem exists_front_join (base : String) :
    ∃ front, ∀ segment, IsSegment segment → join base segment = front ++ segment := by
  have hrelative {segment : String} (h : IsSegment segment) : isAbsolute segment = false := by
    rw [isAbsolute, decide_eq_false_iff_not]
    exact fun hhead => h.2 (List.mem_of_mem_head? hhead)
  by_cases hempty : base.isEmpty = true
  · exact ⟨"", fun segment h => by simp [join, hempty]⟩
  · by_cases hslash : endsInSlash base = true
    · exact ⟨base, fun segment h => by simp [join, hrelative h, hempty, hslash]⟩
    · exact ⟨base ++ "/", fun segment h => by simp [join, hrelative h, hempty, hslash]⟩

end Path

namespace Shelf

/-- A path within a folder is the folder's with a slash behind, if itself it gets one. -/
theorem exists_rest_of_isWithin {root path : String} (h : isWithin root path = true) :
    ∃ rest, path.toList ++ ['/'] = root.toList ++ '/' :: rest := by
  rw [isWithin, Bool.or_eq_true, decide_eq_true_eq, List.isPrefixOf_iff_prefix] at h
  rcases h with rfl | ⟨rest, hrest⟩
  · exact ⟨[], rfl⟩
  · refine ⟨rest ++ ['/'], ?_⟩
    rw [← hrest]
    simp

theorem isWithin_trans {root path below : String} (h : isWithin root path = true)
    (hbelow : isWithin path below = true) : isWithin root below = true := by
  rw [isWithin, Bool.or_eq_true, decide_eq_true_eq, List.isPrefixOf_iff_prefix] at h hbelow ⊢
  rcases h with rfl | h
  · exact hbelow
  · refine .inr (h.trans ?_)
    rcases hbelow with rfl | hbelow
    · exact List.prefix_refl _
    · exact .trans ⟨['/'], by simp⟩ hbelow

/-- The segment behind a base is told by any path within the folder that it names. -/
theorem space_eq_of_isWithin {base path : String} {first second : String}
    (hfirst : Path.IsSegment first) (hsecond : Path.IsSegment second)
    (h : isWithin (Path.join base first) path = true)
    (h' : isWithin (Path.join base second) path = true) : first = second := by
  obtain ⟨front, hfront⟩ := Path.exists_front_join base
  rw [hfront first hfirst] at h
  rw [hfront second hsecond] at h'
  obtain ⟨rest, hrest⟩ := exists_rest_of_isWithin h
  obtain ⟨rest', hrest'⟩ := exists_rest_of_isWithin h'
  -- behind the base the segment reaches to the next slash
  have htext : first.toList ++ '/' :: rest = second.toList ++ '/' :: rest' := by
    have hsame := hrest.symm.trans hrest'
    rwa [String.toList_append, String.toList_append, List.append_assoc, List.append_assoc,
      List.append_cancel_left_eq] at hsame
  have hpieces := congrArg (Text.pieces '/') htext
  rw [Text.pieces_append_mark hfirst.2, Text.pieces_append_mark hsecond.2] at hpieces
  exact String.toList_inj.1 (List.cons.inj hpieces).1

end Shelf

/-- Contents that are the same outside of a folder hold the same at every path there. -/
theorem Contents.get?_of_outside_eq {root : String} {first second : Contents}
    (h : first.outside root = second.outside root) {path : String}
    (hpath : Shelf.isWithin root path = false) :
    first.files.get? path = second.files.get? path ∧
      first.folders.get? path = second.folders.get? path := by
  have hfiles := congrArg (·.files.get? path) h
  have hfolders := congrArg (·.folders.get? path) h
  simp only [outside, Table.get?_filter, hpath, Bool.not_false, if_true] at hfiles hfolders
  exact ⟨hfiles, hfolders⟩

/-- The path that a call was about. -/
def StoreEvent.path : StoreEvent → String
  | presence path _ => path
  | read path _ => path
  | write path .. => path
  | makeFolders path _ => path
  | removeTree path _ => path

/-- Whether a call asks for, reads or changes what is at a path: it is about that path, or it
removes a folder in which the path lies. -/
def StoreEvent.Touches (event : StoreEvent) (path : String) : Prop :=
  event.path = path ∨ event.IsRemoval ∧ Shelf.isWithin event.path path = true

namespace Export

open Watched

variable {τ : Type} {settings settings' : Settings} {project project' : Project}
  {pack pack' : Folder}

/-! ## An export runs within its folder -/

theorem local_clear {root : String} (hroot : Path.IsBase root) (space : String) :
    Local (Shelf.AgreeWithin root)
      (clear (m := StateT τ (StateM (Watched Shelf))) root space) := by
  have hmetadata := Shelf.respected_of_isWithin (isWithin_metadataPath hroot)
  have hself := Shelf.respected_of_isWithin (Path.isWithin_self (Path.liesIn_self root))
  unfold clear
  refine .bind (.isPresent hmetadata) fun present => ?_
  cases present with
  | false => exact .pure ()
  | true =>
      rw [if_pos rfl]
      refine .bind (.adapt (.attempt hmetadata.readText)) fun content => ?_
      cases recordedSpace content with
      | error fault => exact .throw _
      | ok found =>
          simp only
          split
          · exact .bind (.throw _) fun _ => .adapt (.attempt hself.removeTree)
          · exact .adapt (.attempt hself.removeTree)

theorem local_run (h : build settings project = .ok pack) (note : Nat → τ → τ) :
    Local (Shelf.AgreeWithin (Path.join settings.folder project.space))
      (Export.run (m := StateT τ (StateM (Watched Shelf))) settings project
        fun n => modify (note n)) := by
  have hbase := Path.isBase_join settings.folder (isSegment_space h)
  obtain ⟨hfolders, hfiles⟩ := liesIn_of_build h
  rw [run_of_build h, Folder.write_eq]
  refine .bind (local_clear hbase _) fun _ => .bind (.adapt (.bind ?_ fun _ => .pure _))
    fun written => .pure _
  refine .forM_steps note (fun path hpath => ?_) fun path content hpath => ?_
  · exact Shelf.respected_of_isWithin (Path.isWithin_self (hfolders path hpath))
  · exact Shelf.respected_of_isWithin (Path.isWithin_self (hfiles path content hpath))

/-- All calls by which a folder is cleared are about the folder or its metadata. -/
theorem Cleared.isWithin_path {root space : String} (hroot : Path.IsBase root)
    {outcome : Except ExportFault Unit} {events : List StoreEvent}
    (h : Cleared root space outcome events) :
    ∀ event ∈ events, Shelf.isWithin root event.path = true := by
  have hmetadata : Shelf.isWithin root (Path.join root metadataFile) = true :=
    isWithin_metadataPath hroot
  have hself : Shelf.isWithin root root = true := Path.isWithin_self (Path.liesIn_self root)
  cases h <;> simp [StoreEvent.path, hmetadata, hself]

/-- All calls of an export are about paths within its folder. -/
theorem isWithin_path_of_mem_events (h : build settings project = .ok pack) (note : Nat → τ → τ)
    (tally : τ) (shelf : Shelf) (fault? : List StoreEvent → Call → Option IoError) :
    ∀ event ∈ (watch settings project note tally shelf fault?).2.events,
      Shelf.isWithin (Path.join settings.folder project.space) event.path = true := by
  have hbase := Path.isBase_join settings.folder (isSegment_space h)
  obtain ⟨outcome, cleared, added, hcleared, -, hevents, hend⟩ :=
    watch_of_build_ok quiet_shelf h note tally shelf fault? rfl
  intro event hevent
  have hmem := hevent
  rw [hevents, List.mem_append] at hmem
  rcases hmem with hmem | hmem
  · exact hcleared.isWithin_path hbase event hmem
  · -- behind the clearing there are additions only, and these are changes
    have haddition : event.IsAddition := by
      rcases hend with ⟨-, -, rfl, -⟩ | ⟨-, hkind, -⟩
      · exact absurd hmem List.not_mem_nil
      · exact hkind event hmem
    have hlies := liesIn_of_mem_changed? settings project note tally shelf fault? event hevent
    cases event with
    | write path content answer => exact Path.isWithin_self (hlies path rfl)
    | makeFolders path answer => exact Path.isWithin_self (hlies path rfl)
    | presence | read | removeTree => exact absurd haddition id

/-! ## One export after the other -/

section Both

variable (h : build settings project = .ok pack) (h' : build settings' project' = .ok pack')
  (hfolder : settings'.folder = settings.folder) (hspace : project'.space ≠ project.space)

include h h' hfolder hspace

/-- No path lies within the folders of both exports. -/
theorem not_isWithin_other {path : String}
    (hpath : Shelf.isWithin (Path.join settings.folder project.space) path = true) :
    Shelf.isWithin (Path.join settings'.folder project'.space) path = false := by
  rw [Bool.eq_false_iff]
  intro hother
  rw [hfolder] at hother
  exact hspace (Shelf.space_eq_of_isWithin (isSegment_space h') (isSegment_space h) hother hpath)

variable {shelf : Shelf} (hfaults : shelf.faults = []) (note : Nat → τ → τ) (tally : τ)
  (fault? fault?' : List StoreEvent → Call → Option IoError)

/-- What lies within the folder of an export is left as it was by the other one. -/
theorem get?_watch_other {path : String}
    (hpath : Shelf.isWithin (Path.join settings.folder project.space) path = true) :
    let later := (watch settings' project' note tally shelf fault?').2.store
    later.files.get? path = shelf.files.get? path ∧
      later.folders.get? path = shelf.folders.get? path := by
  intro later
  have hnot := not_isWithin_other h h' hfolder hspace hpath
  have houtside := outside_watch settings' project' note tally shelf fault?'
  exact Contents.get?_of_outside_eq houtside hnot

/-- A file that an export wrote is not touched by another one after it. -/
theorem not_touches_of_write {path content : String} {answer : Except IoError Unit}
    (hwrite : .write path content answer ∈
      (watch settings project note tally shelf fault?).2.events) :
    let written := (watch settings project note tally shelf fault?).2.store
    let later := watch settings' project' note tally written fault?'
    (∀ event ∈ later.2.events, ¬ event.Touches path) ∧
      later.2.store.files.get? path = written.files.get? path := by
  intro written later
  have hpath := isWithin_path_of_mem_events h note tally shelf fault? _ hwrite
  have hnot := not_isWithin_other h h' hfolder hspace hpath
  refine ⟨fun event hevent htouches => ?_, ?_⟩
  · have hwithin := isWithin_path_of_mem_events h' note tally written fault?' event hevent
    rcases htouches with rfl | ⟨-, htouches⟩
    · exact Bool.false_ne_true (hnot.symm.trans hwithin)
    · exact Bool.false_ne_true (hnot.symm.trans (Shelf.isWithin_trans hwithin htouches))
  · exact (get?_watch_other h h' hfolder hspace note tally fault?' hpath).1

include hfaults

theorem agreeWithin_watch :
    Shelf.AgreeWithin (Path.join settings.folder project.space) shelf
      (watch settings' project' note tally shelf fault?').2.store where
  faults := hfaults
  faults' := (watch_keeps h' hfaults rfl note tally fault?').1
  files _ hpath := (get?_watch_other h h' hfolder hspace note tally fault?' hpath).1.symm
  folders _ hpath := (get?_watch_other h h' hfolder hspace note tally fault?' hpath).2.symm

/-- An export ends after another one as it would have ended before: with the same answer,
after the same calls, and with the same in its folder. -/
theorem watch_after_other :
    let alone := watch settings project note tally shelf fault?
    let later := watch settings project note tally
      (watch settings' project' note tally shelf fault?').2.store fault?
    alone.1 = later.1 ∧ alone.2.events = later.2.events ∧
      Shelf.AgreeWithin (Path.join settings.folder project.space) alone.2.store
        later.2.store := by
  intro alone later
  have hagree := agreeWithin_watch h h' hfolder hspace hfaults note tally fault?'
  obtain ⟨hresult, halike⟩ := local_run h note tally (.fresh shelf fault?)
    (.fresh (watch settings' project' note tally shelf fault?').2.store fault?) ⟨hagree, rfl, rfl⟩
  exact ⟨hresult, halike.events, halike.store⟩

end Both

/-- Two exports of different namespaces into one datapack folder come to the same in either
order, whatever is there and whichever calls fail.  Each of them ends with the same answer
and makes the same calls before the other one as after it; the files and folders in the end
are the same; and neither asks for, reads, changes or removes a file that the other wrote. -/
theorem exports_commute (h : build settings project = .ok pack)
    (h' : build settings' project' = .ok pack') (hfolder : settings'.folder = settings.folder)
    (hspace : project'.space ≠ project.space) {shelf : Shelf} (hfaults : shelf.faults = [])
    (note : Nat → τ → τ) (tally : τ) (fault? fault?' : List StoreEvent → Call → Option IoError) :
    let first := watch settings project note tally shelf fault?
    let second := watch settings' project' note tally shelf fault?'
    let firstLater := watch settings project note tally second.2.store fault?
    let secondLater := watch settings' project' note tally first.2.store fault?'
    (first.1 = firstLater.1 ∧ first.2.events = firstLater.2.events) ∧
    (second.1 = secondLater.1 ∧ second.2.events = secondLater.2.events) ∧
    secondLater.2.store.files = firstLater.2.store.files ∧
    secondLater.2.store.folders = firstLater.2.store.folders ∧
    (∀ path content answer, .write path content answer ∈ first.2.events →
      (∀ event ∈ secondLater.2.events, ¬ event.Touches path) ∧
        secondLater.2.store.files.get? path = first.2.store.files.get? path) ∧
    (∀ path content answer, .write path content answer ∈ second.2.events →
      (∀ event ∈ firstLater.2.events, ¬ event.Touches path) ∧
        firstLater.2.store.files.get? path = second.2.store.files.get? path) := by
  intro first second firstLater secondLater
  obtain ⟨hfirst, hfirst_events, hfirst_agree⟩ :=
    watch_after_other h h' hfolder hspace hfaults note tally fault? fault?'
  obtain ⟨hsecond, hsecond_events, hsecond_agree⟩ :=
    watch_after_other h' h hfolder.symm hspace.symm hfaults note tally fault?' fault?
  -- a path lies within one of the folders, or outside of both
  have hcontents (path : String) :
      secondLater.2.store.files.get? path = firstLater.2.store.files.get? path ∧
        secondLater.2.store.folders.get? path = firstLater.2.store.folders.get? path := by
    by_cases hpath : Shelf.isWithin (Path.join settings.folder project.space) path = true
    · obtain ⟨hfiles, hfolders⟩ := get?_watch_other h h' hfolder hspace note tally fault?' hpath
      exact ⟨hfiles.trans (hfirst_agree.files path hpath),
        hfolders.trans (hfirst_agree.folders path hpath)⟩
    by_cases hpath' : Shelf.isWithin (Path.join settings'.folder project'.space) path = true
    · obtain ⟨hfiles, hfolders⟩ :=
        get?_watch_other h' h hfolder.symm hspace.symm note tally fault? hpath'
      exact ⟨(hfiles.trans (hsecond_agree.files path hpath')).symm,
        (hfolders.trans (hsecond_agree.folders path hpath')).symm⟩
    · rw [Bool.not_eq_true] at hpath hpath'
      have hkeeps (shelf : Shelf) :=
        Contents.get?_of_outside_eq (outside_watch settings project note tally shelf fault?) hpath
      have hkeeps' (shelf : Shelf) :=
        Contents.get?_of_outside_eq (outside_watch settings' project' note tally shelf fault?')
          hpath'
      constructor
      · calc secondLater.2.store.files.get? path
            = first.2.store.files.get? path := (hkeeps' first.2.store).1
          _ = shelf.files.get? path := (hkeeps shelf).1
          _ = second.2.store.files.get? path := (hkeeps' shelf).1.symm
          _ = firstLater.2.store.files.get? path := (hkeeps second.2.store).1.symm
      · calc secondLater.2.store.folders.get? path
            = first.2.store.folders.get? path := (hkeeps' first.2.store).2
          _ = shelf.folders.get? path := (hkeeps shelf).2
          _ = second.2.store.folders.get? path := (hkeeps' shelf).2.symm
          _ = firstLater.2.store.folders.get? path := (hkeeps second.2.store).2.symm
  refine ⟨⟨hfirst, hfirst_events⟩, ⟨hsecond, hsecond_events⟩, ?_, ?_, ?_, ?_⟩
  · exact Table.ext_get? fun path => (hcontents path).1
  · exact Table.ext_get? fun path => (hcontents path).2
  · intro path content answer hwrite
    exact not_touches_of_write h h' hfolder hspace note tally fault? fault?' hwrite
  · intro path content answer hwrite
    exact not_touches_of_write h' h hfolder.symm hspace.symm note tally fault?' fault? hwrite

/-- A shelf on which the pack of another namespace is in the folder of `fox.b`. -/
def taken : Shelf :=
  { Shelf.empty with
    files := .ofList [("packs/fox.b/animated_java.mcmeta",
      "\x7b\"project_namespace\":\"owl\"\x7d")] }

/-- A first export of `fox` and a refused one of `fox.b` come to the same in either order. -/
theorem exports_commute_fresh_and_refused :
    let other : Project := { oneFrame "walk" with space := "fox.b" }
    let first := undisturbed ⟨"packs", 1, 12⟩ (oneFrame "walk") taken
    let second := undisturbed ⟨"packs", 1, 12⟩ other taken
    let firstLater := undisturbed ⟨"packs", 1, 12⟩ (oneFrame "walk") second.2.store
    let secondLater := undisturbed ⟨"packs", 1, 12⟩ other first.2.store
    first.1.1 = .ok ⟨"packs/fox", 1, 55⟩ ∧
    second.1.1 = .error (.foreignPack "packs/fox.b" "owl" "fox.b") ∧
    first.1 = firstLater.1 ∧ second.1 = secondLater.1 ∧
    secondLater.2.store.files = firstLater.2.store.files := by
  refine ⟨by decide +kernel, by decide +kernel, ?_⟩
  obtain ⟨pack, hbuild⟩ : ∃ pack, build ⟨"packs", 1, 12⟩ (oneFrame "walk") = .ok pack :=
    exists_ok_of_isSome (by decide +kernel)
  obtain ⟨pack', hbuild'⟩ : ∃ pack', build ⟨"packs", 1, 12⟩
      { oneFrame "walk" with space := "fox.b" } = .ok pack' :=
    exists_ok_of_isSome (by decide +kernel)
  have hfaults : taken.faults = [] := rfl
  obtain ⟨⟨hfirst, -⟩, ⟨hsecond, -⟩, hfiles, -⟩ :=
    exports_commute hbuild hbuild' rfl (by decide) hfaults
      (fun n told => told ++ [n]) [] (fun _ _ => none) fun _ _ => none
  exact ⟨hfirst, hsecond, hfiles⟩

end Export

end RigPack

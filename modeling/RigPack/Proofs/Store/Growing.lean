import RigPack.Proofs.Pack.Writing
import RigPack.Store.Disk

/-!
# Disks that grow

While files are written and folders made, what stands on a disk stays what it is: files
get other contents at most, and folders are added (`Grows`).  So a path goes on leading to
where it led, and one that leads to a file can no longer become that of a folder.

## Main statements

* `grows_writeBytes`, `grows_makeFolders`: a disk grows with every step of a writing.
* `makeFolders_of_isFile`: no folder is made in place of a file.
* `not_ok_of_write_of_makeFolders`: steps that write a file and make a folder of one path
  do not succeed on any disk.
-/

namespace RigPack

namespace Disk

/-- Whether what stands on a disk stands on a later one. -/
structure Grows (disk later : Disk) : Prop where
  here : later.here = disk.here
  kindAt? : ∀ place kind, disk.kindAt? place = some kind → later.kindAt? place = some kind

namespace Grows

theorem refl (disk : Disk) : disk.Grows disk :=
  ⟨rfl, fun _ _ h => h⟩

theorem trans {disk later last : Disk} (h : disk.Grows later) (h' : later.Grows last) :
    disk.Grows last :=
  ⟨h'.here.trans h.here, fun place kind hkind => h'.kindAt? place kind (h.kindAt? place kind hkind)⟩

variable {disk later : Disk}

theorem step (h : disk.Grows later) {place next : Place} {segment : String}
    (hstep : disk.step place segment = .ok next) : later.step place segment = .ok next := by
  unfold Disk.step at hstep ⊢
  cases hkind : disk.kindAt? place with
  | none => simp [hkind] at hstep
  | some kind =>
      rw [h.kindAt? place kind hkind]
      rwa [hkind] at hstep

/-- A path leads to where it led. -/
theorem placeOf (h : disk.Grows later) {path : String} {place : Place}
    (hplace : disk.placeOf path = .ok place) : later.placeOf path = .ok place := by
  have hsteps (segments : List String) (start : Place)
      (hstart : segments.foldlM disk.step start = .ok place) :
      segments.foldlM later.step start = .ok place := by
    induction segments generalizing start with
    | nil => exact hstart
    | cons segment segments ih =>
        rw [List.foldlM_cons] at hstart ⊢
        cases hnext : disk.step start segment with
        | error e =>
            rw [hnext] at hstart
            contradiction
        | ok next =>
            rw [hnext] at hstart
            rw [h.step hnext]
            exact ih next hstart
  unfold Disk.placeOf at hplace ⊢
  rw [h.here]
  split_ifs at hplace ⊢
  · exact hsteps _ _ hplace
  · exact hsteps _ _ hplace

end Grows

/-- Whether a path leads to a file. -/
def IsFile (disk : Disk) (path : String) : Prop :=
  ∃ place, disk.placeOf path = .ok place ∧ disk.kindAt? place = some .file

theorem IsFile.grows {disk later : Disk} {path : String} (hfile : disk.IsFile path)
    (h : disk.Grows later) : later.IsFile path := by
  obtain ⟨place, hplace, hkind⟩ := hfile
  exact ⟨place, h.placeOf hplace, h.kindAt? place .file hkind⟩

/-! ## Steps of a writing -/

theorem kindAt?_ne_folder {disk : Disk} {place : Place}
    (h : disk.kindAt? place ≠ some .folder) :
    place ≠ .root ∧ disk.folders.get? place.key = none := by
  unfold kindAt? at h
  split at h
  · contradiction
  · rename_i hplace
    simpa using hplace

/-- A file is written where its path leads, unless there is a folder. -/
theorem writeBytes_eq_ok {disk later : Disk} {path : String} {bytes : ByteArray}
    (h : disk.writeBytes path bytes = .ok later) :
    ∃ place, disk.placeOf path = .ok place ∧ disk.kindAt? place ≠ some .folder ∧
      later = { disk with files := disk.files.insert place.key bytes } := by
  simp only [writeBytes, bind_eq_ok, test_eq_ok] at h
  obtain ⟨place, hplace, -, h⟩ := h
  refine ⟨place, hplace, fun hkind => ?_, ?_⟩
  · rw [hkind] at h
    contradiction
  · split at h
    · contradiction
    · exact (pure_eq_ok.1 h).symm

/-- A folder is made where its path leads, unless there is something already. -/
theorem makeFolder_eq_ok {disk later : Disk} {path : String}
    (h : disk.makeFolder path = .ok later) :
    ∃ place, disk.placeOf path = .ok place ∧ disk.kindAt? place = none ∧
      later = { disk with folders := disk.folders.insert place.key () } := by
  simp only [makeFolder, bind_eq_ok, test_eq_ok] at h
  obtain ⟨place, hplace, hnew, h⟩ := h
  refine ⟨place, hplace, ?_, (pure_eq_ok.1 h).symm⟩
  cases hkind : disk.kindAt? place with
  | none => rfl
  | some kind => simp [hkind] at hnew

/-- A file that is written is there, and nothing else changes its kind. -/
theorem grows_writeBytes {disk later : Disk} {path : String} {bytes : ByteArray}
    (h : disk.writeBytes path bytes = .ok later) : disk.Grows later ∧ later.IsFile path := by
  obtain ⟨place, hplace, hnot, rfl⟩ := writeBytes_eq_ok h
  have hgrows : disk.Grows { disk with files := disk.files.insert place.key bytes } := by
    refine ⟨rfl, fun other kind hkind => ?_⟩
    unfold kindAt? at hkind ⊢
    split at hkind
    · rename_i hfolder
      rw [if_pos hfolder]
      exact hkind
    · rename_i hfolder
      rw [if_neg hfolder]
      split at hkind
      · rename_i hfile
        have hfile : ((disk.files.insert place.key bytes).get? other.key).isSome = true := by
          rw [Table.get?_insert]
          split
          · rfl
          · exact hfile
        rw [if_pos hfile]
        exact hkind
      · contradiction
  refine ⟨hgrows, place, hgrows.placeOf hplace, ?_⟩
  obtain ⟨hroot, hfolder⟩ := kindAt?_ne_folder hnot
  simp [kindAt?, hroot, hfolder, Table.get?_insert]

theorem grows_makeFolder {disk later : Disk} {path : String}
    (h : disk.makeFolder path = .ok later) : disk.Grows later := by
  obtain ⟨place, -, hnone, rfl⟩ := makeFolder_eq_ok h
  refine ⟨rfl, fun other kind hkind => ?_⟩
  by_cases hroot : other = .root
  · simp only [kindAt?, hroot, true_or, if_true] at hkind ⊢
    exact hkind
  · -- no place that something stands at has the key of the new folder
    have hne : other.key ≠ place.key := by
      intro heq
      unfold kindAt? at hnone hkind
      split_ifs at hnone with hplace hfile
      have hfolder : ¬ (disk.folders.get? other.key).isSome = true :=
        fun h => hplace (.inr (heq ▸ h))
      rw [if_neg (not_or_intro hroot hfolder), heq, if_neg hfile] at hkind
      contradiction
    unfold kindAt? at hkind ⊢
    rwa [Table.get?_insert, if_neg hne]

/-- What holds between a disk and itself and what a call makes of it holds if the call fails. -/
theorem of_outcome {kept : Disk → Disk → Prop} (hrefl : ∀ disk, kept disk disk) {disk : Disk}
    {result : Except IoError Disk} (h : ∀ later, result = .ok later → kept disk later) :
    kept disk (disk.outcome result).2 := by
  cases result with
  | error e => exact hrefl disk
  | ok later => exact h later rfl

section MakeFolders

variable {kept : Disk → Disk → Prop} (hrefl : ∀ disk, kept disk disk)
  (htrans : ∀ {disk later last}, kept disk later → kept later last → kept disk last)
  (concerned : String → Prop)
  (habove : ∀ {path above}, concerned path → Path.parent? path = some above → concerned above)
  (hmake : ∀ {disk later path}, concerned path → makeFolder disk path = .ok later →
    kept disk later)

include hrefl htrans habove hmake

/-- What is kept whenever one folder is made, is kept when it is made with those above it. -/
theorem of_makeFoldersIn (steps : Nat) (disk : Disk) {path : String} (hpath : concerned path) :
    kept disk (makeFoldersIn steps disk path).2 := by
  have hensure {disk later : Disk} {path : String} (hpath : concerned path)
      (h : disk.ensureFolder path = .ok later) : kept disk later := by
    unfold ensureFolder at h
    split at h
    · rename_i made hmade
      obtain rfl := Except.ok.inj h
      exact hmake hpath hmade
    · split at h
      · obtain rfl := Except.ok.inj h
        exact hrefl disk
      · contradiction
  induction steps generalizing disk path with
  | zero => exact hrefl disk
  | succ steps ih =>
      unfold makeFoldersIn
      cases hparent : Path.parent? path with
      | none => exact hrefl disk
      | some above =>
          simp only
          split
          · -- the folder it lies in is made first
            have hfirst := ih disk (habove hpath hparent)
            split
            · rename_i between hrun
              rw [hrun] at hfirst
              exact htrans hfirst (of_outcome hrefl fun later => hensure hpath)
            · exact hfirst
          · exact of_outcome hrefl fun later => hensure hpath

end MakeFolders

theorem grows_makeFolders (disk : Disk) (path : String) :
    disk.Grows (disk.makeFolders path).2 :=
  of_makeFoldersIn .refl .trans (fun _ => True) (fun _ _ => trivial) (fun _ => grows_makeFolder) _
    disk trivial

/-- No folder is made in place of a file. -/
theorem makeFolders_of_isFile {disk : Disk} {path : String} (hfile : disk.IsFile path)
    (hparent : (Path.parent? path).isSome = true) :
    disk.makeFolders path = (.error .alreadyExists, disk) := by
  obtain ⟨place, hplace, hkind⟩ := hfile
  have hmake : disk.makeFolder path = .error .alreadyExists := by
    rw [makeFolder, hplace]
    simp only [bind, Except.bind, hkind, Option.isSome_some, Bool.or_true, if_true]
    rfl
  have hfolder : disk.kind? path ≠ some .folder := by
    have hfind : disk.find path = if Path.endsInSlash path then .error .notAFolder
        else .ok (place, .file) := by
      rw [find, hplace]
      simp only [bind, Except.bind, hkind]
      rfl
    rw [kind?, hfind]
    cases Path.endsInSlash path <;> simp
  have hensure : disk.ensureFolder path = .error .alreadyExists := by
    rw [ensureFolder, hmake]
    exact if_neg hfolder
  obtain ⟨parent, hparent⟩ := Option.isSome_iff_exists.1 hparent
  unfold makeFolders makeFoldersIn
  rw [hparent, hensure]
  rfl

end Disk

/-! ## Runs -/

/-- What succeeds behind a first program runs from where that one succeeded. -/
theorem run_bind_eq_ok {σ ε α β : Type} {first : ExceptT ε (StateM σ) α}
    {next : α → ExceptT ε (StateM σ) β} {s last : σ} {b : β}
    (h : (first >>= next).run.run s = (.ok b, last)) :
    ∃ a now, first.run.run s = (.ok a, now) ∧ (next a).run.run now = (.ok b, last) := by
  have hrun : (first >>= next).run.run s
      = match first.run.run s with
        | (result, now) => (ExceptT.bindCont next result).run now := rfl
  rw [hrun] at h
  rcases hfirst : first.run.run s with ⟨e | a, now⟩
  · rw [hfirst] at h
    have herror : (Except.error e : Except ε β) = .ok b := congrArg Prod.fst h
    contradiction
  · rw [hfirst] at h
    exact ⟨a, now, rfl, h⟩

namespace WriteStep

open Disk

/-- The call of a step on a disk, where nobody is told of anything. -/
def onDisk (step : WriteStep) : ExceptT IoError (StateM Disk) Unit :=
  step.perform fun _ => pure ()

theorem grows_onDisk {step : WriteStep} {disk later : Disk}
    (h : step.onDisk.run.run disk = (.ok (), later)) : disk.Grows later := by
  cases step with
  | makeFolders path =>
      have hmade : disk.makeFolders path = (.ok (), later) := h
      have hgrows := grows_makeFolders disk path
      rwa [hmade] at hgrows
  | writeText path content =>
      have hwritten : disk.outcome (disk.writeBytes path content.toUTF8) = (.ok (), later) := h
      have hgrows : disk.Grows (disk.outcome (disk.writeBytes path content.toUTF8)).2 :=
        of_outcome .refl fun _ hok => (grows_writeBytes hok).1
      rwa [hwritten] at hgrows
  | tell =>
      obtain rfl : disk = later := congrArg Prod.snd h
      exact .refl disk

theorem isFile_of_writeText {path content : String} {disk later : Disk}
    (h : (writeText path content).onDisk.run.run disk = (.ok (), later)) : later.IsFile path := by
  have hwritten : disk.outcome (disk.writeBytes path content.toUTF8) = (.ok (), later) := h
  cases hbytes : disk.writeBytes path content.toUTF8 with
  | error e =>
      rw [hbytes] at hwritten
      simp [outcome] at hwritten
  | ok written =>
      rw [hbytes] at hwritten
      obtain rfl : written = later := congrArg Prod.snd hwritten
      exact (grows_writeBytes hbytes).2

/-- Where there is a file, steps that make a folder do not succeed. -/
theorem not_ok_of_isFile {steps : List WriteStep} {path : String}
    (hmake : makeFolders path ∈ steps) (hparent : (Path.parent? path).isSome = true)
    {disk later : Disk} (hfile : disk.IsFile path) :
    (forM steps onDisk).run.run disk ≠ (.ok (), later) := by
  induction steps generalizing disk with
  | nil => exact absurd hmake List.not_mem_nil
  | cons step steps ih =>
      intro h
      obtain ⟨_, now, hstep, hrest⟩ := run_bind_eq_ok h
      rcases List.mem_cons.1 hmake with rfl | hmake
      · have hmade : disk.makeFolders path = (.ok (), now) := hstep
        rw [makeFolders_of_isFile hfile hparent] at hmade
        have herror : (Except.error IoError.alreadyExists : Except IoError Unit) = .ok () :=
          congrArg Prod.fst hmade
        contradiction
      · exact ih hmake (hfile.grows (grows_onDisk hstep)) hrest

/-- Steps that write a file, and make a folder of its path afterwards, do not succeed. -/
theorem not_ok_of_write_of_makeFolders {steps : List WriteStep} {path content : String}
    (hsub : [writeText path content, makeFolders path].Sublist steps)
    (hparent : (Path.parent? path).isSome = true) {disk later : Disk} :
    (forM steps onDisk).run.run disk ≠ (.ok (), later) := by
  induction steps generalizing disk with
  | nil => exact absurd hsub (by simp)
  | cons step steps ih =>
      intro h
      obtain ⟨_, now, hstep, hrest⟩ := run_bind_eq_ok h
      cases hsub with
      | cons _ hsub => exact ih hsub hrest
      | cons_cons _ hsub =>
          exact not_ok_of_isFile (List.singleton_sublist.1 hsub) hparent
            (isFile_of_writeText hstep) hrest

end WriteStep

end RigPack

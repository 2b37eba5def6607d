import RigPack.Proofs.Export.Clash
import RigPack.Proofs.Export.Shelved
import RigPack.Proofs.Pack.Named
import RigPack.Proofs.Store.Outside

/-!
# An export stays in its folder

Names of a project become names of files and folders, so a name that leads up, or that starts
at the root, would lead an export out of the folder of its pack.  The check of names keeps
them from it: whatever an export asks a store to write, to make or to remove lies in the
folder (`LiesIn`), wherever the export breaks off.

## Strategy

A program is `Confined` to some paths if all calls by which it changes the store are about
these, and if the store is in the end related to what it was, by a relation that says what is
kept.  Programs put together from confined ones are confined.  A relation is blind to some paths
if it holds across calls about them (`Blind`); the trivial one is, and so are those that say that
nothing changes outside of the folder, on a shelf and on a disk.

## Main statements

* `Confined.forM_steps`: the steps of a writing are confined to the paths that they name.
* `Export.liesIn_of_build`: the writing of a pack names paths in its folder only.
* `export_stays_within`: so an export changes nothing outside of the folder.
-/

namespace RigPack

/-! ## Paths in a folder -/

namespace Path

theorem isComponent_of_isResourceName {name : String} (h : isResourceName name = true) :
    IsComponent name :=
  ⟨(isPlain_of_isResourceName h).1, ne_dots_of_isResourceName h⟩

theorem liesIn_joinAll {root : String} (hroot : IsBase root) {names : List String}
    (hnames : ∀ name ∈ names, isResourceName name = true) : LiesIn root (joinAll root names) :=
  ⟨names, fun name hname => isComponent_of_isResourceName (hnames name hname),
    joinAll_eq hroot fun name hname => (isPlain_of_isResourceName (hnames name hname)).1⟩

/-- What lies in a folder is seen as within it, and so is all that lies below that. -/
theorem isWithin_of_liesIn {root path below : String} (h : LiesIn root path)
    (hbelow : Shelf.isWithin path below = true) : Shelf.isWithin root below = true := by
  obtain ⟨components, -, rfl⟩ := h
  cases components with
  | nil => rwa [String.intercalate_singleton] at hbelow
  | cons component components =>
      rw [String.intercalate_cons_of_ne_nil (List.cons_ne_nil _ _)] at hbelow
      rw [Shelf.isWithin, Bool.or_eq_true, decide_eq_true_eq, List.isPrefixOf_iff_prefix] at hbelow
      rcases hbelow with rfl | ⟨rest, hrest⟩
      · exact Shelf.isWithin_append root _
      · have hpath : below = root ++ "/" ++ ("/".intercalate (component :: components) ++ "/"
            ++ String.ofList rest) := by
          rw [← String.toList_inj, ← hrest]
          simp
        rw [hpath]
        exact Shelf.isWithin_append root _

theorem isWithin_self {root path : String} (h : LiesIn root path) :
    Shelf.isWithin root path = true :=
  isWithin_of_liesIn h (by simp [Shelf.isWithin])

end Path

/-- The path of a call that is meant to change a store. -/
def StoreEvent.changed? : StoreEvent → Option String
  | presence .. => none
  | read .. => none
  | write path .. => some path
  | makeFolders path _ => some path
  | removeTree path _ => some path

namespace Watched

variable {σ τ ε α β : Type}

/-! ## Relations that are blind to some paths -/

/-- Whether a relation between states of a store holds across all calls that only read, and
across those about some paths. -/
structure Blind [FileStore (StateM σ)] (allowed : String → Prop) (kept : σ → σ → Prop) : Prop where
  refl : ∀ store, kept store store
  trans : ∀ {store later last}, kept store later → kept later last → kept store last
  isPresent : ∀ path store, kept store ((FileStore.isPresent path : StateM σ Bool).run store).2
  readText : ∀ path store,
    kept store ((FileStore.readText path : ExceptT IoError (StateM σ) String).run.run store).2
  writeText : ∀ path, allowed path → ∀ content store, kept store
    ((FileStore.writeText path content : ExceptT IoError (StateM σ) Unit).run.run store).2
  makeFolders : ∀ path, allowed path → ∀ store,
    kept store ((FileStore.makeFolders path : ExceptT IoError (StateM σ) Unit).run.run store).2
  removeTree : ∀ path, allowed path → ∀ store,
    kept store ((FileStore.removeTree path : ExceptT IoError (StateM σ) Unit).run.run store).2

theorem blind_any [FileStore (StateM σ)] (allowed : String → Prop) :
    Blind allowed fun _ _ : σ => True :=
  ⟨fun _ => trivial, fun _ _ => trivial, fun _ _ => trivial, fun _ _ => trivial,
    fun _ _ _ _ => trivial, fun _ _ _ => trivial, fun _ _ _ => trivial⟩

/-- A shelf makes a call, with its effect or without any. -/
theorem contents_attempt {ν : Type} {call : Call} {effect : Shelf → Except IoError (α × Shelf)}
    (view : Contents → ν)
    (heffect : ∀ shelf a later, effect shelf = .ok (a, later) →
      view later.contents = view shelf.contents) (shelf : Shelf) :
    view ((Shelf.attempt call effect).run.run shelf).2.contents = view shelf.contents := by
  let noted : Shelf := { shelf with trace := shelf.trace ++ [call] }
  by_cases hfault : (call.kind, call.path) ∈ shelf.faults
  · have hrun : (Shelf.attempt call effect).run.run shelf = (.error .other, noted) := by
      change (if (call.kind, call.path) ∈ shelf.faults then _ else _) = _
      exact if_pos hfault
    exact congrArg (view ·.2.contents) hrun
  · cases hresult : effect noted with
    | error e =>
        have hrun : (Shelf.attempt call effect).run.run shelf = (.error e, noted) := by
          change (if (call.kind, call.path) ∈ shelf.faults then _ else _) = _
          rw [if_neg hfault, hresult]
        exact congrArg (view ·.2.contents) hrun
    | ok result =>
        have hrun : (Shelf.attempt call effect).run.run shelf = (.ok result.1, result.2) := by
          change (if (call.kind, call.path) ∈ shelf.faults then _ else _) = _
          rw [if_neg hfault, hresult]
        rw [hrun]
        exact heffect noted result.1 result.2 hresult

/-- What a shelf holds outside of a folder is not touched by calls about paths in it. -/
theorem blind_shelf (root : String) :
    Blind (Path.LiesIn root) fun shelf later : Shelf =>
      later.contents.outside root = shelf.contents.outside root where
  refl _ := rfl
  trans h h' := h'.trans h
  isPresent _ _ := rfl
  readText path shelf := by
    refine contents_attempt (Contents.outside root) (fun shelf _ later h => ?_) shelf
    split at h
    · rw [(Prod.mk.inj (Except.ok.inj h)).2]
    · contradiction
  writeText path hpath content shelf := by
    refine contents_attempt (Contents.outside root) (fun shelf _ later h => ?_) shelf
    obtain ⟨-, rfl⟩ := Prod.mk.inj (Except.ok.inj h)
    have hwithin := Path.isWithin_self hpath
    exact congrArg (Contents.mk · _) (Table.filter_insert _ (by simp [hwithin]) content)
  makeFolders path hpath shelf := by
    refine contents_attempt (Contents.outside root) (fun shelf _ later h => ?_) shelf
    obtain ⟨-, rfl⟩ := Prod.mk.inj (Except.ok.inj h)
    have hwithin := Path.isWithin_self hpath
    exact congrArg (Contents.mk _) (Table.filter_insert _ (by simp [hwithin]) ())
  removeTree path hpath shelf := by
    refine contents_attempt (Contents.outside root) (fun shelf _ later h => ?_) shelf
    obtain ⟨-, rfl⟩ := Prod.mk.inj (Except.ok.inj h)
    have hfilter {α : Type} (table : Table α) :
        (table.filter (!Shelf.isWithin path ·)).filter (!Shelf.isWithin root ·)
          = table.filter (!Shelf.isWithin root ·) := by
      refine Table.ext_get? fun key => ?_
      simp only [Table.get?_filter]
      split
      · rename_i hkey
        have hnot : Shelf.isWithin path key = false := by
          rw [Bool.eq_false_iff]
          intro hbelow
          simp [Path.isWithin_of_liesIn hpath hbelow] at hkey
        rw [if_pos (by simp [hnot])]
      · rfl
    exact congrArg₂ Contents.mk (hfilter shelf.files) (hfilter shelf.folders)

/-- What a disk holds outside of a folder is not touched by calls about paths in it, but for the
folders that the folder itself lies in. -/
theorem blind_disk {root : String} (hroot : root ≠ "") :
    Blind (Path.LiesIn root) (Disk.KeepsOutside root) where
  refl := .refl
  trans := .trans
  isPresent _ := .refl
  readText _ := .refl
  writeText _ hpath _ _ :=
    Disk.of_outcome .refl fun _ => Disk.keepsOutside_writeBytes hroot hpath
  makeFolders _ := Disk.keepsOutside_makeFolders hroot
  removeTree _ := Disk.keepsOutside_removeTree hroot

/-! ## Confined programs -/

/-- Whether a program changes a store by calls about some paths only, and leaves it related to
what it was. -/
def Confined (allowed : String → Prop) (kept : σ → σ → Prop)
    (program : ExceptT ε (StateT τ (StateM (Watched σ))) α) : Prop :=
  ∀ tally watched, ∃ added,
    (exec program tally watched).2.events = watched.events ++ added ∧
    (∀ event ∈ added, ∀ path ∈ event.changed?, allowed path) ∧
    kept watched.store (exec program tally watched).2.store

theorem Confined.adapt {ε' : Type} {rename : ε → ε'}
    {allowed : String → Prop} {kept : σ → σ → Prop}
    {program : ExceptT ε (StateT τ (StateM (Watched σ))) α} (h : Confined allowed kept program) :
    Confined allowed kept (program.adapt rename) := by
  intro tally watched
  obtain ⟨added, hevents, hadded, hkept⟩ := h tally watched
  have hrun : (exec (program.adapt rename) tally watched).2 = (exec program tally watched).2 := by
    rw [exec_adapt]
    rcases exec program tally watched with ⟨⟨_ | a, tally'⟩, watched'⟩ <;> rfl
  rw [hrun]
  exact ⟨added, hevents, hadded, hkept⟩

section Steps

variable [FileStore (StateM σ)] {allowed : String → Prop} {kept : σ → σ → Prop}
  (hblind : Blind allowed kept)

include hblind

namespace Confined

theorem pure (a : α) :
    Confined allowed kept (pure a : ExceptT ε (StateT τ (StateM (Watched σ))) α) :=
  fun _ _ => ⟨[], by simp, by simp, hblind.refl _⟩

theorem throw (e : ε) :
    Confined allowed kept (throw e : ExceptT ε (StateT τ (StateM (Watched σ))) α) :=
  fun _ _ => ⟨[], by simp, by simp, hblind.refl _⟩

theorem told (change : τ → τ) :
    Confined allowed kept
      (ExceptT.lift (modify change) : ExceptT ε (StateT τ (StateM (Watched σ))) Unit) :=
  fun _ _ => ⟨[], by simp, by simp, hblind.refl _⟩

theorem bind {first : ExceptT ε (StateT τ (StateM (Watched σ))) α}
    {next : α → ExceptT ε (StateT τ (StateM (Watched σ))) β} (hfirst : Confined allowed kept first)
    (hnext : ∀ a, Confined allowed kept (next a)) : Confined allowed kept (first >>= next) := by
  intro tally watched
  obtain ⟨added, hevents, hadded, hkept⟩ := hfirst tally watched
  rw [exec_bind]
  rcases hrun : exec first tally watched with ⟨⟨_ | a, tally'⟩, watched'⟩
  · rw [hrun] at hevents hkept
    exact ⟨added, hevents, hadded, hkept⟩
  · rw [hrun] at hevents hkept
    obtain ⟨more, hmore, hallowed, hkept'⟩ := hnext a tally' watched'
    refine ⟨added ++ more, ?_, ?_, hblind.trans hkept hkept'⟩
    · rw [← List.append_assoc, ← hevents]
      exact hmore
    · intro event hevent
      exact (List.mem_append.1 hevent).elim (hadded event) (hallowed event)

/-- A single call is confined if it is about such a path, or changes nothing. -/
theorem attempt {call : Call} {note : Except IoError α → StoreEvent}
    {inside : ExceptT IoError (StateM σ) α}
    (hallowed : ∀ answer, ∀ path ∈ (note answer).changed?, allowed path)
    (hkept : ∀ store, kept store (inside.run.run store).2) :
    Confined allowed kept (τ := τ)
      (ExceptT.mk (StateT.lift (Watched.attempt call note inside).run)) := by
  intro tally watched
  obtain ⟨answer, store, hrun, hstore⟩ := exec_attempt call note inside tally watched
  refine ⟨[note answer], congrArg (·.2.events) hrun, ?_, ?_⟩
  · simpa using hallowed answer
  · rw [hrun]
    rcases hstore with rfl | rfl
    · exact hblind.refl _
    · exact hkept watched.store

theorem isPresent (path : String) :
    Confined allowed kept (ExceptT.lift (FileStore.isPresent path) :
      ExceptT ε (StateT τ (StateM (Watched σ))) Bool) :=
  fun _ watched => ⟨_, rfl, by simp [StoreEvent.changed?], hblind.isPresent path watched.store⟩

theorem readText (path : String) :
    Confined allowed kept
      (FileStore.readText path : ExceptT IoError (StateT τ (StateM (Watched σ))) String) :=
  attempt hblind (by simp [StoreEvent.changed?]) (hblind.readText path)

theorem removeTree {path : String} (hpath : allowed path) :
    Confined allowed kept
      (FileStore.removeTree path : ExceptT IoError (StateT τ (StateM (Watched σ))) Unit) :=
  attempt hblind (by simpa [StoreEvent.changed?] using hpath) (hblind.removeTree path hpath)

/-- The steps of a writing are confined to the paths of the folders that they make and of the
files that they write. -/
theorem forM_steps (note : Nat → τ → τ) {steps : List WriteStep}
    (hmake : ∀ path, .makeFolders path ∈ steps → allowed path)
    (hwrite : ∀ path content, .writeText path content ∈ steps → allowed path) :
    Confined allowed kept
      (forM steps (WriteStep.perform (m := StateT τ (StateM (Watched σ)))
        fun n => modify (note n))) := by
  induction steps with
  | nil => exact .pure hblind ()
  | cons step steps ih =>
      rw [List.forM_cons]
      refine .bind hblind ?_ fun _ => ih (fun path h => hmake path (.tail _ h))
        fun path content h => hwrite path content (.tail _ h)
      cases step with
      | makeFolders path =>
          have hpath := hmake path (List.mem_cons_self ..)
          exact .attempt hblind (by simpa [StoreEvent.changed?] using hpath)
            (hblind.makeFolders path hpath)
      | writeText path content =>
          have hpath := hwrite path content (List.mem_cons_self ..)
          exact .attempt hblind (by simpa [StoreEvent.changed?] using hpath)
            (hblind.writeText path hpath content)
      | tell => exact .told hblind (note 1)

end Confined

end Steps

end Watched

/-! ## The paths of a pack -/

namespace Blueprint

variable {blueprint : Blueprint} (hsound : blueprint.Sound) (hnamed : blueprint.Named)
  (settings : Settings) {parent path : String}

include hsound hnamed

/-- A folder that the writing of a pack makes is that of the pack or lies in it. -/
theorem liesIn_of_makeFolders (h : .makeFolders path ∈ (blueprint.pack settings).steps parent) :
    Path.LiesIn (Path.join parent blueprint.names.space) path := by
  obtain ⟨dir, -, rfl, hfolder⟩ := (hsound.tidy_pack settings).folder?_of_makeFolders h
  obtain ⟨whole, hwhole, hbelow⟩ := isSome_folder?_pack.1 hfolder
  rw [name_pack]
  exact Path.liesIn_joinAll (Path.isBase_join parent hsound.space.1) fun segment hsegment =>
    hnamed.segments_dir hwhole segment (hbelow.subset hsegment)

/-- A file that the writing of a pack writes lies in the folder of the pack. -/
theorem liesIn_of_writeText {content : String}
    (h : .writeText path content ∈ (blueprint.pack settings).steps parent) :
    Path.LiesIn (Path.join parent blueprint.names.space) path := by
  have htext : (path, content) ∈ (blueprint.pack settings).texts
      (Path.join parent (blueprint.pack settings).name) := by
    rw [← Folder.writes_steps]
    exact List.mem_filterMap.2 ⟨_, h, rfl⟩
  obtain ⟨dir, file, hfile, rfl, -⟩ := (hsound.tidy_pack settings).mem_texts_iff.1 htext
  have hplace := isSome_file?_pack.1 (Option.isSome_iff_exists.2 ⟨file, hfile⟩)
  rw [name_pack]
  exact Path.liesIn_joinAll (Path.isBase_join parent hsound.space.1)
    (hnamed.segments_place hplace)

end Blueprint

/-! ## Exports -/

namespace Export

open Watched

/-- The steps that write the pack of an accepted project are about paths in its folder. -/
theorem liesIn_of_build {settings : Settings} {project : Project} {pack : Folder}
    (h : build settings project = .ok pack) :
    (∀ path, .makeFolders path ∈ pack.steps settings.folder →
      Path.LiesIn (Path.join settings.folder project.space) path) ∧
    ∀ path content, .writeText path content ∈ pack.steps settings.folder →
      Path.LiesIn (Path.join settings.folder project.space) path := by
  obtain ⟨blueprint, haccepted, hblueprint, rfl⟩ := build_eq_ok h
  have hsound := Blueprint.sound_of_build haccepted hblueprint
  have hnamed := Blueprint.named_of_build haccepted hblueprint
  have hspace : blueprint.names.space = project.space := by rw [names_ofProject hblueprint]
  rw [← hspace]
  exact ⟨fun path => Blueprint.liesIn_of_makeFolders hsound hnamed settings,
    fun path content => Blueprint.liesIn_of_writeText hsound hnamed settings⟩

section Run

variable {σ τ : Type} [FileStore (StateM σ)] {kept : σ → σ → Prop} {settings : Settings}
  {project : Project}

theorem confined_clear {root : String} (hblind : Blind (Path.LiesIn root) kept) (space : String) :
    Confined (Path.LiesIn root) kept
      (clear (m := StateT τ (StateM (Watched σ))) root space) := by
  unfold clear
  refine .bind hblind (.isPresent hblind _) fun present => ?_
  cases present with
  | false => exact .pure hblind ()
  | true =>
      rw [if_pos rfl]
      refine .bind hblind (.adapt (.readText hblind _)) fun content => ?_
      have hremove := Confined.removeTree (τ := τ) hblind (Path.liesIn_self root)
      cases recordedSpace content with
      | error fault => exact .throw hblind _
      | ok found =>
          simp only
          split
          · exact .bind hblind (.throw hblind _) fun _ => .adapt hremove
          · exact .adapt hremove

/-- An export is confined to the folder of its pack. -/
theorem confined_run
    (hblind : Blind (Path.LiesIn (Path.join settings.folder project.space)) kept)
    (note : Nat → τ → τ) :
    Confined (Path.LiesIn (Path.join settings.folder project.space)) kept
      (Export.run (m := StateT τ (StateM (Watched σ))) settings project
        fun n => modify (note n)) := by
  cases hbuild : build settings project with
  | error fault =>
      unfold Export.run
      rw [hbuild]
      exact fun _ _ => ⟨[], (List.append_nil _).symm, by simp, hblind.refl _⟩
  | ok pack =>
      obtain ⟨hfolders, hfiles⟩ := liesIn_of_build hbuild
      rw [run_of_build hbuild, Folder.write_eq]
      refine .bind hblind (confined_clear hblind _) fun _ => .bind hblind
        (.adapt (.bind hblind ?_ fun _ => .pure hblind _)) fun written => .pure hblind _
      exact .forM_steps hblind note hfolders hfiles

end Run

/-- What an export asks a store to write, to make or to remove lies in its folder. -/
theorem liesIn_of_mem_changed? {σ τ : Type} [FileStore (StateM σ)] (settings : Settings)
    (project : Project) (note : Nat → τ → τ) (tally : τ) (store : σ)
    (fault? : List StoreEvent → Call → Option IoError) :
    ∀ event ∈ (watch settings project note tally store fault?).2.events,
      ∀ path ∈ event.changed?, Path.LiesIn (Path.join settings.folder project.space) path := by
  intro event hevent path hpath
  obtain ⟨added, hevents, hallowed, -⟩ :=
    confined_run (blind_any _) note tally (.fresh store fault?)
  have hevents : (watch settings project note tally store fault?).2.events = [] ++ added :=
    hevents
  rw [hevents, List.nil_append] at hevent
  exact hallowed event hevent path hpath

/-- On a shelf all that lies outside of the folder stays as it was. -/
theorem outside_watch {τ : Type} (settings : Settings) (project : Project) (note : Nat → τ → τ)
    (tally : τ) (shelf : Shelf) (fault? : List StoreEvent → Call → Option IoError) :
    (watch settings project note tally shelf fault?).2.store.contents.outside
        (Path.join settings.folder project.space)
      = shelf.contents.outside (Path.join settings.folder project.space) := by
  obtain ⟨-, -, -, hkept⟩ := confined_run (blind_shelf _) note tally (.fresh shelf fault?)
  exact hkept

/-- The name of the folder of an accepted project leads down. -/
theorem isComponent_of_build {settings : Settings} {project : Project} {pack : Folder}
    (h : build settings project = .ok pack) : Path.IsComponent project.space := by
  obtain ⟨blueprint, haccepted, -⟩ := build_eq_ok h
  exact Path.isComponent_of_isResourceName haccepted.space

/-- On a disk all that lies outside of the folder stays as it was, but for the folders that it
lies in. -/
theorem keepsOutside_watch {τ : Type} (settings : Settings) (project : Project)
    (note : Nat → τ → τ) (tally : τ) (disk : Disk)
    (fault? : List StoreEvent → Call → Option IoError) :
    disk.KeepsOutside (Path.join settings.folder project.space)
      (watch settings project note tally disk fault?).2.store := by
  cases hbuild : build settings project with
  | error fault =>
      rw [watch_of_build_error hbuild]
      exact .refl disk
  | ok pack =>
      have hroot := (Path.isBase_join settings.folder (isComponent_of_build hbuild).1).1
      obtain ⟨-, -, -, hkept⟩ := confined_run (blind_disk hroot) note tally (.fresh disk fault?)
      exact hkept

/-- What an export does to a store, whatever is in it and whichever calls fail: all that it
asks to be written, made or removed is the folder of the pack or lies in it, and the name of
that folder leads down.  On a shelf all that lies outside of the folder stays as it was, and on a
disk, too, but for folders on the way to it that were not there. -/
theorem export_stays_within {τ : Type} (settings : Settings) (project : Project)
    (note : Nat → τ → τ) (tally : τ) :
    let root := Path.join settings.folder project.space
    (∀ {σ : Type} [FileStore (StateM σ)] (store : σ)
        (fault? : List StoreEvent → Call → Option IoError),
      ∀ event ∈ (watch settings project note tally store fault?).2.events,
        ∀ path ∈ event.changed?, Path.IsComponent project.space ∧ Path.LiesIn root path) ∧
    (∀ (shelf : Shelf) (fault? : List StoreEvent → Call → Option IoError),
      (watch settings project note tally shelf fault?).2.store.contents.outside root
        = shelf.contents.outside root) ∧
    ∀ (disk : Disk) (fault? : List StoreEvent → Call → Option IoError),
      disk.KeepsOutside root (watch settings project note tally disk fault?).2.store := by
  intro root
  refine ⟨?_, outside_watch settings project note tally,
    keepsOutside_watch settings project note tally⟩
  intro σ _ store fault? event hevent path hpath
  refine ⟨?_, liesIn_of_mem_changed? settings project note tally store fault? event hevent path
    hpath⟩
  cases hbuild : build settings project with
  | error fault =>
      -- a project without a pack makes no call
      rw [watch_of_build_error hbuild] at hevent
      exact absurd hevent List.not_mem_nil
  | ok pack => exact isComponent_of_build hbuild

end Export

end RigPack

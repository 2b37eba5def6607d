import Mathlib.Control.Monad.Basic
import RigPack.Store.Disk
import RigPack.Store.Shelf

/-!
# Watched file stores

To say what a program asks of a file store, and in which order, the store is
wrapped: a `Watched` store notes every call with its answer.  It also decides
before each call, from all that was asked so far, whether the call fails; a call
that it fails does not reach the store inside.  So a statement about all watched
stores is one about every pattern of failures.

A program in these statements may keep a value of its own beside the store, as an
export does that counts what it has written (`Watched.exec`).

## Main statements

* `exec_bind`: a program and what follows it run one after the other, unless the
  first one fails.
* `Adds.bind`: what two programs add to the notes, they add one after the other.
-/

namespace RigPack

/-- A call of a file store with its answer. -/
inductive StoreEvent
  | presence (path : String) (answer : Bool)
  | read (path : String) (answer : Except IoError String)
  | write (path content : String) (answer : Except IoError Unit)
  | makeFolders (path : String) (answer : Except IoError Unit)
  | removeTree (path : String) (answer : Except IoError Unit)
  deriving DecidableEq

namespace StoreEvent

/-- Whether a call puts a file or folder into the store. -/
def IsAddition : StoreEvent → Prop
  | write .. => True
  | makeFolders .. => True
  | _ => False

/-- Whether a call takes something out of the store. -/
def IsRemoval : StoreEvent → Prop
  | removeTree .. => True
  | _ => False

/-- Whether a call is meant to change the store. -/
def IsChange (event : StoreEvent) : Prop :=
  event.IsAddition ∨ event.IsRemoval

end StoreEvent

/-- A file store that notes what is asked of it. -/
structure Watched (σ : Type) where
  /-- The store inside. -/
  store : σ
  /-- Why a call fails, from the calls before it; nothing if it is passed on. -/
  fault? : List StoreEvent → Call → Option IoError
  /-- The calls so far. -/
  events : List StoreEvent

namespace Watched

variable {σ τ ε α β : Type}

/-- Passes a call on, unless it is to fail, and notes the answer. -/
def attempt (call : Call) (note : Except IoError α → StoreEvent)
    (inside : ExceptT IoError (StateM σ) α) : ExceptT IoError (StateM (Watched σ)) α :=
  ExceptT.mk fun watched =>
    match watched.fault? watched.events call with
    | some e => (.error e, { watched with events := watched.events ++ [note (.error e)] })
    | none =>
      let (answer, store) := inside.run.run watched.store
      (answer, { watched with store, events := watched.events ++ [note answer] })

instance [FileStore (StateM σ)] : FileStore (StateM (Watched σ)) where
  isPresent path watched :=
    let (answer, store) := (FileStore.isPresent path : StateM σ Bool).run watched.store
    (answer, { watched with store, events := watched.events ++ [.presence path answer] })
  readText path := attempt (.read path) (.read path) (FileStore.readText path)
  writeText path content :=
    attempt (.write path content) (.write path content) (FileStore.writeText path content)
  makeFolders path := attempt (.makeFolders path) (.makeFolders path) (FileStore.makeFolders path)
  removeTree path := attempt (.removeTree path) (.removeTree path) (FileStore.removeTree path)

/-- A store of which nothing was asked yet. -/
def fresh (store : σ) (fault? : List StoreEvent → Call → Option IoError) : Watched σ :=
  ⟨store, fault?, []⟩

/-- Runs a program that keeps a value beside the store. -/
def exec (program : ExceptT ε (StateT τ (StateM (Watched σ))) α) (tally : τ)
    (watched : Watched σ) : (Except ε α × τ) × Watched σ :=
  (program.run.run tally).run watched

/-! ## Runs of composed programs -/

@[simp] theorem exec_pure (a : α) (tally : τ) (watched : Watched σ) :
    exec (pure a : ExceptT ε _ α) tally watched = ((.ok a, tally), watched) := rfl

@[simp] theorem exec_throw (e : ε) (tally : τ) (watched : Watched σ) :
    exec (throw e : ExceptT ε _ α) tally watched = ((.error e, tally), watched) := rfl

/-- What follows a program runs from where the program ends, unless it fails. -/
theorem exec_bind (first : ExceptT ε (StateT τ (StateM (Watched σ))) α)
    (next : α → ExceptT ε (StateT τ (StateM (Watched σ))) β) (tally : τ) (watched : Watched σ) :
    exec (first >>= next) tally watched =
      match exec first tally watched with
      | ((.ok a, tally), watched) => exec (next a) tally watched
      | ((.error e, tally), watched) => ((.error e, tally), watched) := by
  have hfirst : exec (first >>= next) tally watched
      = match exec first tally watched with
        | ((result, tally), watched) =>
          ((ExceptT.bindCont next result).run tally).run watched := rfl
  rw [hfirst]
  rcases exec first tally watched with ⟨⟨_ | a, tally⟩, watched⟩ <;> rfl

theorem exec_adapt {ε' : Type} (rename : ε → ε')
    (program : ExceptT ε (StateT τ (StateM (Watched σ))) α) (tally : τ) (watched : Watched σ) :
    exec (program.adapt rename) tally watched =
      match exec program tally watched with
      | ((.ok a, tally), watched) => ((.ok a, tally), watched)
      | ((.error e, tally), watched) => ((.error (rename e), tally), watched) := by
  have hprogram : exec (program.adapt rename) tally watched
      = match exec program tally watched with
        | ((result, tally), watched) => ((result.mapError rename, tally), watched) := rfl
  rw [hprogram]
  rcases exec program tally watched with ⟨⟨_ | a, tally⟩, watched⟩ <;> rfl

@[simp] theorem exec_modify (change : τ → τ) (tally : τ) (watched : Watched σ) :
    exec (ExceptT.lift (modify change) : ExceptT ε _ Unit) tally watched
      = ((.ok (), change tally), watched) := rfl

/-! ## Runs of single calls -/

section Attempt

variable (call : Call) (note : Except IoError α → StoreEvent)
  (inside : ExceptT IoError (StateM σ) α) (tally : τ) (watched : Watched σ)

/-- A call that is to fail does not reach the store inside. -/
theorem exec_attempt_of_some {e : IoError} (h : watched.fault? watched.events call = some e) :
    exec (ExceptT.mk (StateT.lift (attempt call note inside).run)) tally watched
      = ((.error e, tally), { watched with events := watched.events ++ [note (.error e)] }) := by
  have hattempt : (attempt call note inside).run.run watched
      = (.error e, { watched with events := watched.events ++ [note (.error e)] }) := by
    change (match watched.fault? watched.events call with | some e => _ | none => _) = _
    rw [h]
  exact congrArg (fun result => ((result.1, tally), result.2)) hattempt

theorem exec_attempt_of_none (h : watched.fault? watched.events call = none) :
    exec (ExceptT.mk (StateT.lift (attempt call note inside).run)) tally watched
      = (((inside.run.run watched.store).1, tally), { watched with
          store := (inside.run.run watched.store).2
          events := watched.events ++ [note (inside.run.run watched.store).1] }) := by
  have hattempt : (attempt call note inside).run.run watched
      = ((inside.run.run watched.store).1, { watched with
          store := (inside.run.run watched.store).2
          events := watched.events ++ [note (inside.run.run watched.store).1] }) := by
    change (match watched.fault? watched.events call with | some e => _ | none => _) = _
    rw [h]
    rfl
  exact congrArg (fun result => ((result.1, tally), result.2)) hattempt

/-- A call adds itself with its answer to the notes, and leaves the store as it is or
as the store inside leaves it. -/
theorem exec_attempt :
    ∃ answer store,
      exec (ExceptT.mk (StateT.lift (attempt call note inside).run)) tally watched
        = ((answer, tally), ⟨store, watched.fault?, watched.events ++ [note answer]⟩) ∧
      (store = watched.store ∨ store = (inside.run.run watched.store).2) := by
  cases hfault : watched.fault? watched.events call with
  | some e =>
      exact ⟨_, _, exec_attempt_of_some call note inside tally watched hfault, .inl rfl⟩
  | none =>
      exact ⟨_, _, exec_attempt_of_none call note inside tally watched hfault, .inr rfl⟩

end Attempt

/-- What a view of a store shows stays the same when files are asked for or read. -/
structure Quiet [FileStore (StateM σ)] {ν : Type} (view : σ → ν) : Prop where
  isPresent : ∀ path store,
    view ((FileStore.isPresent path : StateM σ Bool).run store).2 = view store
  readText : ∀ path store,
    view ((FileStore.readText path : ExceptT IoError (StateM σ) String).run.run store).2
      = view store

theorem quiet_disk : Quiet (id : Disk → Disk) :=
  ⟨fun _ _ => rfl, fun _ _ => rfl⟩

/-- Reading changes neither files nor folders of a shelf. -/
theorem quiet_shelf : Quiet fun shelf : Shelf => (shelf.files, shelf.folders) where
  isPresent _ _ := rfl
  readText path shelf := by
    let noted : Shelf := { shelf with trace := shelf.trace ++ [.read path] }
    have hread : ∃ answer,
        (FileStore.readText path : ExceptT IoError (StateM Shelf) String).run.run shelf
          = (answer, noted) := by
      change ∃ answer, (if (CallKind.read, path) ∈ shelf.faults then _ else _) = (answer, noted)
      by_cases hfault : (CallKind.read, path) ∈ shelf.faults
      · exact ⟨.error .other, if_pos hfault⟩
      · cases hfile : shelf.files.get? path with
        | none => exact ⟨.error .notFound, by simp [hfault, hfile, noted]⟩
        | some content => exact ⟨.ok content, by simp [hfault, hfile, noted]⟩
    obtain ⟨answer, hread⟩ := hread
    rw [hread]

section Calls

variable [FileStore (StateM σ)] (path content : String) (tally : τ) (watched : Watched σ)

theorem exec_isPresent {ν : Type} {view : σ → ν} (hview : Quiet view) :
    ∃ store,
      exec (ExceptT.lift (FileStore.isPresent path) :
          ExceptT ε (StateT τ (StateM (Watched σ))) Bool) tally watched
        = ((.ok ((FileStore.isPresent path : StateM σ Bool).run watched.store).1, tally),
          ⟨store, watched.fault?, watched.events
            ++ [.presence path ((FileStore.isPresent path : StateM σ Bool).run watched.store).1]⟩) ∧
      view store = view watched.store :=
  ⟨_, rfl, hview.isPresent path watched.store⟩

theorem exec_readText {ν : Type} {view : σ → ν} (hview : Quiet view) :
    ∃ answer store,
      exec (FileStore.readText path : ExceptT IoError (StateT τ (StateM (Watched σ))) String)
          tally watched
        = ((answer, tally), ⟨store, watched.fault?, watched.events ++ [.read path answer]⟩) ∧
      view store = view watched.store := by
  obtain ⟨answer, store, hrun, hstore⟩ := exec_attempt (.read path) (.read path)
    (FileStore.readText path : ExceptT IoError (StateM σ) String) tally watched
  refine ⟨answer, store, hrun, ?_⟩
  rcases hstore with rfl | rfl
  · rfl
  · exact hview.readText path watched.store

theorem exec_removeTree :
    ∃ answer store,
      exec (FileStore.removeTree path : ExceptT IoError (StateT τ (StateM (Watched σ))) Unit)
          tally watched
        = ((answer, tally),
          ⟨store, watched.fault?, watched.events ++ [.removeTree path answer]⟩) := by
  obtain ⟨answer, store, hrun, -⟩ := exec_attempt (.removeTree path) (.removeTree path)
    (FileStore.removeTree path : ExceptT IoError (StateM σ) Unit) tally watched
  exact ⟨answer, store, hrun⟩

end Calls

/-! ## What a program adds to the notes -/

/-- Whether a program only makes calls of a kind, which it adds to the notes. -/
def Adds (kind : StoreEvent → Prop) (program : ExceptT ε (StateT τ (StateM (Watched σ))) α) :
    Prop :=
  ∀ tally watched, ∃ added, (exec program tally watched).2.events = watched.events ++ added ∧
    ∀ event ∈ added, kind event

variable {kind : StoreEvent → Prop}

theorem Adds.pure (a : α) :
    Adds kind (pure a : ExceptT ε (StateT τ (StateM (Watched σ))) α) :=
  fun _ _ => ⟨[], by simp, by simp⟩

theorem Adds.modify (change : τ → τ) :
    Adds kind (ExceptT.lift (modify change) : ExceptT ε (StateT τ (StateM (Watched σ))) Unit) :=
  fun _ _ => ⟨[], by simp, by simp⟩

/-- What two programs add, they add one after the other. -/
theorem Adds.bind {first : ExceptT ε (StateT τ (StateM (Watched σ))) α}
    {next : α → ExceptT ε (StateT τ (StateM (Watched σ))) β} (hfirst : Adds kind first)
    (hnext : ∀ a, Adds kind (next a)) : Adds kind (first >>= next) := by
  intro tally watched
  obtain ⟨added, hevents, hadded⟩ := hfirst tally watched
  rw [exec_bind]
  rcases hrun : exec first tally watched with ⟨⟨_ | a, tally'⟩, watched'⟩
  · rw [hrun] at hevents
    exact ⟨added, hevents, hadded⟩
  · rw [hrun] at hevents
    obtain ⟨more, hmore, hkind⟩ := hnext a tally' watched'
    refine ⟨added ++ more, ?_, ?_⟩
    · rw [← List.append_assoc, ← hevents]
      exact hmore
    · intro event hevent
      exact (List.mem_append.1 hevent).elim (hadded event) (hkind event)

theorem Adds.adapt {ε' : Type} {rename : ε → ε'}
    {program : ExceptT ε (StateT τ (StateM (Watched σ))) α} (hprogram : Adds kind program) :
    Adds kind (program.adapt rename) := by
  intro tally watched
  obtain ⟨added, hevents, hadded⟩ := hprogram tally watched
  refine ⟨added, ?_, hadded⟩
  rw [exec_adapt, ← hevents]
  rcases exec program tally watched with ⟨⟨_ | a, tally'⟩, watched'⟩ <;> rfl

theorem adds_writeText [FileStore (StateM σ)] (path content : String) :
    Adds StoreEvent.IsAddition
      (FileStore.writeText path content :
        ExceptT IoError (StateT τ (StateM (Watched σ))) Unit) := by
  intro tally watched
  obtain ⟨answer, store, hrun, -⟩ := exec_attempt (.write path content) (.write path content)
    (FileStore.writeText path content : ExceptT IoError (StateM σ) Unit) tally watched
  exact ⟨[.write path content answer], congrArg (·.2.events) hrun, by simp [StoreEvent.IsAddition]⟩

theorem adds_makeFolders [FileStore (StateM σ)] (path : String) :
    Adds StoreEvent.IsAddition
      (FileStore.makeFolders path : ExceptT IoError (StateT τ (StateM (Watched σ))) Unit) := by
  intro tally watched
  obtain ⟨answer, store, hrun, -⟩ := exec_attempt (.makeFolders path) (.makeFolders path)
    (FileStore.makeFolders path : ExceptT IoError (StateM σ) Unit) tally watched
  exact ⟨[.makeFolders path answer], congrArg (·.2.events) hrun, by simp [StoreEvent.IsAddition]⟩

end Watched

end RigPack

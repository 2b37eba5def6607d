import RigPack.Proofs.Store.Contents

/-!
# Runs that no difference between two stores disturbs

A program that asks a store only about some paths cannot tell apart two stores that
agree on these.  It then gives the same answers, makes the same calls, and leaves
stores that agree again (`Local`).

## Strategy

Stores are compared by a relation `same` of which nothing is said but that the calls
about some paths respect it (`Respected`).  Programs put together from local ones are
local, since the first one leaves the second one two stores to start from that agree.

## Main statements

* `Local.bind`: what follows a local program starts from stores that agree.
* `Local.forM_steps`: the steps of a writing are local if the paths that they name are
  respected.
* `respected_of_isWithin`: agreement within a folder is respected by calls about paths
  within it.
-/

namespace RigPack

namespace Watched

variable {σ τ ε α β : Type}

/-! ## Single calls -/

/-- Whether a call of a store gives one answer on stores that agree, and leaves them so. -/
def Respects (same : σ → σ → Prop) (call : StateM σ α) : Prop :=
  ∀ first second, same first second →
    (call.run first).1 = (call.run second).1 ∧ same (call.run first).2 (call.run second).2

/-- Whether all calls about a path respect an agreement of stores. -/
structure Respected [FileStore (StateM σ)] (same : σ → σ → Prop) (path : String) : Prop where
  isPresent : Respects same (FileStore.isPresent path)
  readText : Respects same (FileStore.readText path : ExceptT IoError (StateM σ) String).run
  writeText : ∀ content, Respects same
    (FileStore.writeText path content : ExceptT IoError (StateM σ) Unit).run
  makeFolders : Respects same (FileStore.makeFolders path : ExceptT IoError (StateM σ) Unit).run
  removeTree : Respects same (FileStore.removeTree path : ExceptT IoError (StateM σ) Unit).run

/-! ## Programs -/

/-- Whether two watched stores agree: the stores inside do, the same was asked of them,
and the same calls are going to fail. -/
structure Alike (same : σ → σ → Prop) (first second : Watched σ) : Prop where
  store : same first.store second.store
  fault? : first.fault? = second.fault?
  events : first.events = second.events

/-- Whether a program runs alike on stores that agree. -/
def Local (same : σ → σ → Prop) (program : ExceptT ε (StateT τ (StateM (Watched σ))) α) : Prop :=
  ∀ tally first second, Alike same first second →
    (exec program tally first).1 = (exec program tally second).1 ∧
      Alike same (exec program tally first).2 (exec program tally second).2

namespace Local

variable {same : σ → σ → Prop}

theorem pure (a : α) :
    Local same (pure a : ExceptT ε (StateT τ (StateM (Watched σ))) α) :=
  fun _ _ _ halike => ⟨rfl, halike⟩

theorem throw (e : ε) :
    Local same (throw e : ExceptT ε (StateT τ (StateM (Watched σ))) α) :=
  fun _ _ _ halike => ⟨rfl, halike⟩

theorem told (change : τ → τ) :
    Local same
      (ExceptT.lift (modify change) : ExceptT ε (StateT τ (StateM (Watched σ))) Unit) :=
  fun _ _ _ halike => ⟨rfl, halike⟩

/-- What follows a local program starts with one value and from stores that agree. -/
theorem bind {program : ExceptT ε (StateT τ (StateM (Watched σ))) α}
    {next : α → ExceptT ε (StateT τ (StateM (Watched σ))) β} (hprogram : Local same program)
    (hnext : ∀ a, Local same (next a)) : Local same (program >>= next) := by
  intro tally first second halike
  obtain ⟨hresult, hlater⟩ := hprogram tally first second halike
  rw [exec_bind, exec_bind]
  generalize exec program tally first = run at hresult hlater ⊢
  generalize exec program tally second = run' at hresult hlater ⊢
  obtain ⟨⟨result, tally'⟩, first'⟩ := run
  obtain ⟨_, second'⟩ := run'
  obtain rfl := hresult
  cases result with
  | error e => exact ⟨rfl, hlater⟩
  | ok a => exact hnext a tally' first' second' hlater

theorem adapt {ε' : Type} {rename : ε → ε'}
    {program : ExceptT ε (StateT τ (StateM (Watched σ))) α} (h : Local same program) :
    Local same (program.adapt rename) := by
  intro tally first second halike
  obtain ⟨hresult, hlater⟩ := h tally first second halike
  rw [exec_adapt, exec_adapt]
  generalize exec program tally first = run at hresult hlater ⊢
  generalize exec program tally second = run' at hresult hlater ⊢
  obtain ⟨⟨result, tally'⟩, first'⟩ := run
  obtain ⟨_, second'⟩ := run'
  obtain rfl := hresult
  cases result <;> exact ⟨rfl, hlater⟩

/-- A call is local if the store inside respects it: it fails on both stores, or reaches
both. -/
theorem attempt {call : Call} {note : Except IoError α → StoreEvent}
    {inside : ExceptT IoError (StateM σ) α} (hinside : Respects same inside.run) :
    Local same (τ := τ)
      (ExceptT.mk (StateT.lift (Watched.attempt call note inside).run)) := by
  intro tally first second halike
  have hfault : first.fault? first.events call = second.fault? second.events call := by
    rw [halike.fault?, halike.events]
  obtain ⟨hanswer, hstore⟩ := hinside first.store second.store halike.store
  cases hcase : second.fault? second.events call with
  | some e =>
      rw [exec_attempt_of_some call note inside tally first (hfault.trans hcase),
        exec_attempt_of_some call note inside tally second hcase]
      exact ⟨rfl, halike.store, halike.fault?, congrArg (· ++ [note (.error e)]) halike.events⟩
  | none =>
      rw [exec_attempt_of_none call note inside tally first (hfault.trans hcase),
        exec_attempt_of_none call note inside tally second hcase, hanswer]
      exact ⟨rfl, hstore, halike.fault?, congrArg (· ++ [note _]) halike.events⟩

variable [FileStore (StateM σ)]

theorem isPresent {path : String} (hpath : Respected same path) :
    Local same (ExceptT.lift (FileStore.isPresent path) :
      ExceptT ε (StateT τ (StateM (Watched σ))) Bool) := by
  intro tally first second halike
  obtain ⟨hanswer, hstore⟩ := hpath.isPresent first.store second.store halike.store
  -- the question cannot be made to fail, so it always reaches the store inside
  have hrun (watched : Watched σ) :
      exec (ExceptT.lift (FileStore.isPresent path) :
          ExceptT ε (StateT τ (StateM (Watched σ))) Bool) tally watched
        = ((.ok ((FileStore.isPresent path : StateM σ Bool).run watched.store).1, tally),
          ⟨((FileStore.isPresent path : StateM σ Bool).run watched.store).2, watched.fault?,
            watched.events ++ [.presence path
              ((FileStore.isPresent path : StateM σ Bool).run watched.store).1]⟩) := rfl
  rw [hrun first, hrun second, hanswer, halike.events]
  exact ⟨rfl, hstore, halike.fault?, rfl⟩

/-- The steps of a writing are local if the folders that they make and the files that they
write are respected. -/
theorem forM_steps (note : Nat → τ → τ) {steps : List WriteStep}
    (hmake : ∀ path, .makeFolders path ∈ steps → Respected same path)
    (hwrite : ∀ path content, .writeText path content ∈ steps → Respected same path) :
    Local same (forM steps (WriteStep.perform (m := StateT τ (StateM (Watched σ)))
      fun n => modify (note n))) := by
  induction steps with
  | nil => exact .pure ()
  | cons step steps ih =>
      rw [List.forM_cons]
      refine .bind ?_ fun _ => ih (fun path h => hmake path (.tail _ h))
        fun path content h => hwrite path content (.tail _ h)
      cases step with
      | makeFolders path => exact .attempt (hmake path (List.mem_cons_self ..)).makeFolders
      | writeText path content =>
          exact .attempt ((hwrite path content (List.mem_cons_self ..)).writeText content)
      | tell => exact .told (note 1)

end Local

end Watched

/-! ## Shelves that agree within a folder -/

namespace Shelf

/-- Whether two shelves, neither of which has faults of its own, hold the same files and
folders within a folder. -/
structure AgreeWithin (root : String) (first second : Shelf) : Prop where
  faults : first.faults = []
  faults' : second.faults = []
  files : ∀ path, isWithin root path = true → first.files.get? path = second.files.get? path
  folders : ∀ path, isWithin root path = true → first.folders.get? path = second.folders.get? path

variable {root : String}

/-- A call respects the agreement if its effect does; what a shelf notes of the call makes no
difference. -/
theorem respects_attempt {α : Type} {call : Call} {effect : Shelf → Except IoError (α × Shelf)}
    (heffect : ∀ first second, AgreeWithin root first second →
      (∃ e, effect first = .error e ∧ effect second = .error e) ∨
        ∃ a first' second', effect first = .ok (a, first') ∧ effect second = .ok (a, second') ∧
          AgreeWithin root first' second') :
    Watched.Respects (AgreeWithin root) (attempt call effect).run := by
  intro first second hagree
  rw [run_attempt call effect hagree.faults, run_attempt call effect hagree.faults']
  have hnoted : AgreeWithin root { first with trace := first.trace ++ [call] }
      { second with trace := second.trace ++ [call] } :=
    ⟨hagree.faults, hagree.faults', hagree.files, hagree.folders⟩
  rcases heffect _ _ hnoted with ⟨e, hfirst, hsecond⟩ | ⟨a, first', second', hfirst, hsecond, h⟩
  · rw [hfirst, hsecond]
    exact ⟨rfl, hnoted⟩
  · rw [hfirst, hsecond]
    exact ⟨rfl, h⟩

/-- Calls about paths within a folder see and change nothing else. -/
theorem respected_of_isWithin {path : String} (hpath : isWithin root path = true) :
    Watched.Respected (AgreeWithin root) path where
  isPresent first second hagree := by
    refine ⟨?_, hagree⟩
    change ((first.files.get? path).isSome || (first.folders.get? path).isSome)
      = ((second.files.get? path).isSome || (second.folders.get? path).isSome)
    rw [hagree.files path hpath, hagree.folders path hpath]
  readText := by
    apply respects_attempt
    intro first second hagree
    simp only [hagree.files path hpath]
    cases second.files.get? path with
    | none => exact .inl ⟨_, rfl, rfl⟩
    | some content => exact .inr ⟨_, _, _, rfl, rfl, hagree⟩
  writeText content := by
    apply respects_attempt
    intro first second hagree
    refine .inr ⟨_, _, _, rfl, rfl, hagree.faults, hagree.faults', ?_, hagree.folders⟩
    intro other hother
    simp only [Table.get?_insert, hagree.files other hother]
  makeFolders := by
    apply respects_attempt
    intro first second hagree
    refine .inr ⟨_, _, _, rfl, rfl, hagree.faults, hagree.faults', hagree.files, ?_⟩
    intro other hother
    simp only [Table.get?_insert, hagree.folders other hother]
  removeTree := by
    apply respects_attempt
    intro first second hagree
    refine .inr ⟨_, _, _, rfl, rfl, hagree.faults, hagree.faults', ?_, ?_⟩
    · intro other hother
      simp only [Table.get?_filter, hagree.files other hother]
    · intro other hother
      simp only [Table.get?_filter, hagree.folders other hother]

end Shelf

end RigPack

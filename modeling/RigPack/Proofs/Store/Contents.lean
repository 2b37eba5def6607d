import Mathlib.Logic.Function.Iterate
import RigPack.Proofs.Pack.Writing
import RigPack.Proofs.Store.Watched
import RigPack.Proofs.Table

/-!
# What a run leaves on a shelf

A shelf holds files and folders (`Contents`), and a call changes them by a function of
these two alone, or fails and changes nothing.  So a list of steps, run on a shelf of
which any call may fail, leaves what a first part of the list makes of the shelf, and
leaves what the whole list makes of it if no call fails.

The failures here are those of `Watched`.  The faults that a shelf knows of itself are
taken to be none.

## Main statements

* `works_steps`: what the steps of a writing leave on a shelf.
* `files_after_steps`: their files are those of the shelf, with the written ones in place.
-/

namespace RigPack

/-- What is on a shelf. -/
structure Contents where
  files : Table String
  folders : Table Unit

/-- What a shelf holds, without what it remembers of the calls. -/
def Shelf.contents (shelf : Shelf) : Contents :=
  ⟨shelf.files, shelf.folders⟩

theorem Shelf.run_attempt {α : Type} (call : Call)
    (effect : Shelf → Except IoError (α × Shelf)) {shelf : Shelf} (h : shelf.faults = []) :
    (Shelf.attempt call effect).run.run shelf
      = match effect { shelf with trace := shelf.trace ++ [call] } with
        | .error e => (.error e, { shelf with trace := shelf.trace ++ [call] })
        | .ok (a, later) => (.ok a, later) := by
  have hnot : (call.kind, call.path) ∉ shelf.faults := h ▸ List.not_mem_nil
  change (if (call.kind, call.path) ∈ shelf.faults then _ else _) = _
  exact if_neg hnot

theorem Shelf.run_readText (path : String) {shelf : Shelf} (h : shelf.faults = []) :
    (FileStore.readText path : ExceptT IoError (StateM Shelf) String).run.run shelf
      = (match shelf.files.get? path with
          | some content => .ok content
          | none => .error .notFound,
        { shelf with trace := shelf.trace ++ [.read path] }) := by
  refine (Shelf.run_attempt (.read path) _ h).trans ?_
  cases shelf.files.get? path <;> rfl

theorem Shelf.run_removeTree (path : String) {shelf : Shelf} (h : shelf.faults = []) :
    (FileStore.removeTree path : ExceptT IoError (StateM Shelf) Unit).run.run shelf
      = (.ok (), { shelf with
          trace := shelf.trace ++ [.removeTree path]
          files := shelf.files.filter (!isWithin path ·)
          folders := shelf.folders.filter (!isWithin path ·) }) :=
  Shelf.run_attempt (.removeTree path) _ h

/-! ## The effect of steps -/

namespace WriteStep

/-- What a step makes of the contents of a shelf. -/
def effect (contents : Contents) : WriteStep → Contents
  | makeFolders path => { contents with folders := contents.folders.insert path () }
  | writeText path content => { contents with files := contents.files.insert path content }
  | tell => contents

/-- What a step makes of a value that is told of what was written. -/
def tallied {τ : Type} (note : Nat → τ → τ) (tally : τ) : WriteStep → τ
  | tell => note 1 tally
  | _ => tally

theorem files_after_steps (steps : List WriteStep) (contents : Contents) :
    (steps.foldl effect contents).files
      = contents.files.insertAll (steps.filterMap write?) := by
  induction steps generalizing contents with
  | nil => rfl
  | cons step steps ih =>
      rw [List.foldl_cons, ih]
      cases step <;> rfl

/-- The steps tell of their entries one by one. -/
theorem tallied_steps {τ : Type} (note : Nat → τ → τ) (steps : List WriteStep) (tally : τ) :
    steps.foldl (tallied note) tally = (note 1)^[(steps.map told).sum] tally := by
  induction steps generalizing tally with
  | nil => rfl
  | cons step steps ih =>
      rw [List.foldl_cons, ih, List.map_cons, List.sum_cons, Nat.add_comm,
        Function.iterate_add_apply]
      cases step <;> rfl

end WriteStep

namespace Watched

variable {τ : Type}

/-- No call is to fail. -/
def Calm {σ : Type} (watched : Watched σ) : Prop :=
  ∀ events call, watched.fault? events call = none

/-- Whether a watched shelf can be met after another one: calls fail as before. -/
structure Follows (later watched : Watched Shelf) : Prop where
  faults : later.store.faults = []
  fault? : later.fault? = watched.fault?

theorem Follows.trans {last later watched : Watched Shelf} (h : last.Follows later)
    (h' : later.Follows watched) : last.Follows watched :=
  ⟨h.faults, h.fault?.trans h'.fault?⟩

theorem Follows.calm {later watched : Watched Shelf} (h : later.Follows watched) :
    later.Calm ↔ watched.Calm := by
  rw [Calm, h.fault?]
  rfl

/-- How a list of steps ends on a shelf: all are taken, or a first part of them. -/
inductive Works (note : Nat → τ → τ) (steps : List WriteStep) (tally : τ)
    (watched : Watched Shelf) : (Except IoError Unit × τ) × Watched Shelf → Prop
  | done {later : Watched Shelf} (hfollows : later.Follows watched)
    (hcontents : later.store.contents = steps.foldl WriteStep.effect watched.store.contents) :
    Works note steps tally watched ((.ok (), steps.foldl (WriteStep.tallied note) tally), later)
  | failed {e : IoError} {tally' : τ} {later : Watched Shelf} (hfollows : later.Follows watched)
    {before : List WriteStep} (hbefore : before <+: steps)
    (hcontents : later.store.contents = before.foldl WriteStep.effect watched.store.contents)
    (hfault : ¬ watched.Calm) : Works note steps tally watched ((.error e, tally'), later)

variable (note : Nat → τ → τ) (tally : τ) {watched : Watched Shelf}

/-- A call of a shelf has its effect, or it fails and has none. -/
theorem works_call (step : WriteStep) {call : Call} (event : Except IoError Unit → StoreEvent)
    {effect : Shelf → Except IoError (Unit × Shelf)} (hfaults : watched.store.faults = [])
    (htally : step.tallied note tally = tally)
    (heffect : ∀ shelf : Shelf, ∃ later, effect shelf = .ok ((), later) ∧
      later.faults = shelf.faults ∧ later.contents = step.effect shelf.contents) :
    Works note [step] tally watched
      (exec (ExceptT.mk (StateT.lift (attempt call event (Shelf.attempt call effect)).run))
        tally watched) := by
  cases hfault : watched.fault? watched.events call with
  | some e =>
      rw [exec_attempt_of_some _ _ _ _ _ hfault]
      refine .failed ⟨hfaults, rfl⟩ List.nil_prefix rfl fun hcalm => ?_
      rw [hcalm] at hfault
      contradiction
  | none =>
      obtain ⟨later, hlater, hlater_faults, hcontents⟩ :=
        heffect { watched.store with trace := watched.store.trace ++ [call] }
      have hdone : Works note [step] tally watched ((.ok (), step.tallied note tally),
          { watched with
            store := later
            events := watched.events ++ [event (.ok ())] }) :=
        .done ⟨hlater_faults.trans hfaults, rfl⟩ hcontents
      rw [exec_attempt_of_none _ _ _ _ _ hfault, Shelf.run_attempt call effect hfaults, hlater]
      rwa [htally] at hdone

theorem works_step (step : WriteStep) (hfaults : watched.store.faults = []) :
    Works note [step] tally watched
      (exec (step.perform (m := StateT τ (StateM (Watched Shelf))) fun n => modify (note n))
        tally watched) := by
  cases step with
  | makeFolders path =>
      exact works_call note tally (.makeFolders path) _ hfaults rfl fun shelf =>
        ⟨{ shelf with folders := shelf.folders.insert path () }, rfl, rfl, rfl⟩
  | writeText path content =>
      exact works_call note tally (.writeText path content) _ hfaults rfl fun shelf =>
        ⟨{ shelf with files := shelf.files.insert path content }, rfl, rfl, rfl⟩
  | tell => exact .done ⟨hfaults, rfl⟩ rfl

/-- What a list of steps leaves on a shelf is what a first part of it makes of the shelf,
and all of it if no call fails. -/
theorem works_steps (steps : List WriteStep) (hfaults : watched.store.faults = []) :
    Works note steps tally watched
      (exec (forM steps (WriteStep.perform (m := StateT τ (StateM (Watched Shelf)))
        fun n => modify (note n))) tally watched) := by
  induction steps generalizing tally watched with
  | nil => exact .done ⟨hfaults, rfl⟩ rfl
  | cons step steps ih =>
      have hstep := works_step note tally step hfaults
      rw [List.forM_cons, exec_bind]
      generalize hrun : exec (step.perform (m := StateT τ (StateM (Watched Shelf)))
        fun n => modify (note n)) tally watched = run at hstep
      cases hstep with
      | @failed e tally' later hfollows before hbefore hcontents hfault =>
          refine .failed hfollows (hbefore.trans ?_) hcontents hfault
          exact (List.prefix_append [step] steps)
      | @done later hfollows hcontents =>
          have hsteps := ih (step.tallied note tally) hfollows.faults
          simp only [List.foldl_cons, List.foldl_nil]
          generalize exec (forM steps (WriteStep.perform (m := StateT τ (StateM (Watched Shelf)))
            fun n => modify (note n))) (step.tallied note tally) later = run at hsteps
          have hcontents : later.store.contents = step.effect watched.store.contents := hcontents
          cases hsteps with
          | @done last hlast hlast_contents =>
              rw [hcontents] at hlast_contents
              exact .done (hlast.trans hfollows) hlast_contents
          | @failed e tally' last hlast before hbefore hlast_contents hfault =>
              rw [hcontents] at hlast_contents
              exact .failed (hlast.trans hfollows) (List.cons_prefix_cons.2 ⟨rfl, hbefore⟩)
                hlast_contents (mt hfollows.calm.2 hfault)

end Watched

end RigPack

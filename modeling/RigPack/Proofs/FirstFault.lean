import RigPack.Proofs.Success
import RigPack.Proofs.RangeTree.Balanced

/-!
# Computations that report their first fault

A check in `Except` stops at the first fault that it meets.  What it looks for is
said by a list: all faults that there are, in the order in which they would be met.
`Reports x faults` says that `x` fails with the first fault of the list, and
succeeds exactly if the list is empty.  The lemmas follow the way in which checks
are put together, so the list of a composed check is read off its parts.

## Main statements

* `Reports.bind`, `Reports.mapM`: checks one after the other report the faults of
  the first, then those of the second.
* `Reports.traverse_balanced`: a check of every leaf of a balanced tree reports the
  faults of the items in their order.
-/

namespace RigPack

variable {ε ε' α β : Type}

/-- Whether a computation fails with the first of some faults, or succeeds since there
is none. -/
def Reports (x : Except ε α) (faults : List ε) : Prop :=
  match x with
  | .ok _ => faults = []
  | .error e => faults.head? = some e

/-- A fault, unless a condition holds. -/
def require (condition : Prop) [Decidable condition] (fault : ε) : List ε :=
  if condition then [] else [fault]

@[simp] theorem require_eq_nil {condition : Prop} [Decidable condition] {fault : ε} :
    require condition fault = [] ↔ condition := by
  unfold require
  split <;> simp [*]

namespace Reports

theorem exists_ok_iff {x : Except ε α} {faults : List ε} (h : Reports x faults) :
    (∃ a, x = .ok a) ↔ faults = [] := by
  cases x with
  | ok a => exact ⟨fun _ => h, fun _ => ⟨a, rfl⟩⟩
  | error e =>
      refine ⟨nofun, fun hnil => ?_⟩
      rw [Reports, hnil] at h
      contradiction

theorem eq_error_iff {x : Except ε α} {faults : List ε} (h : Reports x faults) (e : ε) :
    x = .error e ↔ faults.head? = some e := by
  cases x with
  | ok a =>
      have hnil : faults = [] := h
      simp [hnil]
  | error e' =>
      have hhead : faults.head? = some e' := h
      rw [hhead, Except.error.injEq, Option.some.injEq]

protected theorem ok (a : α) : Reports (.ok a : Except ε α) [] :=
  rfl

protected theorem error (e : ε) (faults : List ε) :
    Reports (.error e : Except ε α) (e :: faults) :=
  rfl

/-- What is checked behind a check that fails does not matter. -/
theorem bind {x : Except ε α} {f : α → Except ε β} {first second : List ε}
    (hfirst : Reports x first) (hsecond : ∀ a, x = .ok a → Reports (f a) second) :
    Reports (x >>= f) (first ++ second) := by
  cases x with
  | ok a =>
      have hnil : first = [] := hfirst
      rw [hnil, List.nil_append]
      exact hsecond a rfl
  | error e =>
      have hhead : first.head? = some e := hfirst
      change (first ++ second).head? = some e
      rw [List.head?_append, hhead, Option.some_or]

/-- A test that stops a computation reports its fault before those of what follows. -/
theorem test {refuse condition : Prop} [Decidable refuse] [Decidable condition]
    (hrefuse : refuse ↔ ¬ condition) {e : ε} {stop x : Except ε β} (hstop : stop = .error e)
    {faults : List ε} (h : condition → Reports x faults) :
    Reports (if refuse then stop else x) (require condition e ++ faults) := by
  unfold require
  by_cases hcondition : condition
  · rw [if_neg fun hr => hrefuse.1 hr hcondition, if_pos hcondition]
    exact h hcondition
  · rw [if_pos (hrefuse.2 hcondition), if_neg hcondition, hstop]
    exact .error e faults

/-- A computation that looks for the first of some bad things reports it before the
faults of what it does if there is none. -/
theorem first {found : Option α} {bad : List α} (hfound : found = bad.head?) (fault : α → ε)
    {x : Except ε β} {faults : List ε} (hsome : ∀ a, found = some a → x = .error (fault a))
    (hnone : found = none → bad = [] → Reports x faults) :
    Reports x (bad.map fault ++ faults) := by
  cases bad with
  | nil => exact hnone hfound rfl
  | cons a rest =>
      rw [hsome a hfound]
      exact .error (fault a) _

/-- A computation that only looks for the first of some bad things. -/
theorem only {found : Option α} {bad : List α} (hfound : found = bad.head?) (fault : α → ε)
    {x : Except ε β} (hsome : ∀ a, found = some a → x = .error (fault a))
    (hnone : found = none → ∃ b, x = .ok b) : Reports x (bad.map fault) := by
  rw [← List.append_nil (bad.map fault)]
  refine .first hfound fault hsome fun hfound _ => ?_
  obtain ⟨b, rfl⟩ := hnone hfound
  exact .ok b

/-- The elements of a list are checked in their order. -/
theorem mapM {f : α → Except ε β} {faults : α → List ε} {as : List α}
    (h : ∀ a ∈ as, Reports (f a) (faults a)) : Reports (as.mapM f) (as.flatMap faults) := by
  induction as with
  | nil => exact .ok []
  | cons a as ih =>
      have hrest := ih fun other hother => h other (.tail _ hother)
      rw [List.mapM_cons, List.flatMap_cons]
      refine (h a (List.mem_cons_self ..)).bind fun b _ => ?_
      rw [← List.append_nil (as.flatMap faults)]
      exact hrest.bind fun rest _ => .ok (b :: rest)

/-- A computation that only goes on with the result reports the same faults. -/
theorem map {x : Except ε α} {faults : List ε} (h : Reports x faults) (f : α → β) :
    Reports (x >>= fun a => pure (f a)) faults := by
  rw [← List.append_nil faults]
  exact h.bind fun a _ => .ok (f a)

/-- Every leaf of a balanced tree is checked, from left to right. -/
theorem traverse_balanced {f : Nat → α → Except ε β} {faults : α × Nat → List ε}
    (h : ∀ item number, Reports (f number item) (faults (item, number))) (low : Nat)
    (items : List α) (hitems : items ≠ []) :
    Reports ((RangeTree.balanced low items hitems).traverse f)
      ((items.zipIdx low).flatMap faults) := by
  fun_induction RangeTree.balanced low items hitems with
  | case1 low item =>
      rw [RangeTree.traverse, List.zipIdx_singleton, List.flatMap_singleton]
      exact (h item low).map (RangeTree.leaf low)
  | case2 low first second rest _ lower _ ihlower ihupper =>
      have hlower : lower ≤ (first :: second :: rest).length := by
        simp only [List.length_cons, lower]
        omega
      rw [RangeTree.traverse, RangeTree.zipIdx_take_drop _ low hlower, List.flatMap_append]
      -- the two halves are all the children there are
      refine .map ?_ (RangeTree.branch low (low + (rest.length + 1)))
      rw [RangeTree.traverseAll]
      refine ihlower.bind fun node _ => ?_
      rw [RangeTree.traverseAll]
      refine .map ?_ (node :: ·)
      rw [RangeTree.traverseAll]
      exact ihupper.map fun node => [node]

end Reports

end RigPack

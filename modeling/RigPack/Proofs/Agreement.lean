import RigPack.Proofs.FirstFault

/-!
# Computations that come to the same

Two runs of a check on inputs that differ a little succeed together or fail together.
`Agree` says that they do: with results in a relation, or with faults that look the same
in some view, which may leave a part of a fault out.

## Main statements

* `Agree.bind`, `Agree.mapM`: steps that agree make computations that agree.
* `Agree.traverse_balanced`: so do the items of two balanced trees.
-/

namespace RigPack

variable {ε δ α α' β β' : Type}

/-- Whether two computations succeed with related results or fail with faults that are the
same in a view. -/
def Agree (view : ε → δ) (r : α → β → Prop) : Except ε α → Except ε β → Prop
  | .ok a, .ok b => r a b
  | .error e, .error e' => view e = view e'
  | _, _ => False

namespace Agree

variable {view : ε → δ} {r : α → α' → Prop} {s : β → β' → Prop}

theorem refl (x : Except ε α) : Agree view Eq x x := by
  cases x with
  | ok a => exact Eq.refl a
  | error e => exact Eq.refl (view e)

theorem ok_iff {x y : Except ε α} (h : Agree view Eq x y) (a : α) : x = .ok a ↔ y = .ok a := by
  cases x with
  | ok b =>
      cases y with
      | ok b' =>
          have hsame : b = b' := h
          rw [hsame]
      | error e => exact h.elim
  | error e =>
      cases y with
      | ok b => exact h.elim
      | error e' => exact ⟨nofun, nofun⟩

theorem mapError_eq {x y : Except ε α} (h : Agree view Eq x y) :
    x.mapError view = y.mapError view := by
  cases x with
  | ok a =>
      cases y with
      | ok b => exact congrArg Except.ok h
      | error e => exact h.elim
  | error e =>
      cases y with
      | ok b => exact h.elim
      | error e' => exact congrArg Except.error h

/-- Computations that report the same faults agree if their results do. -/
theorem of_reports {x : Except ε α} {y : Except ε α'} {faults : List ε} (hx : Reports x faults)
    (hy : Reports y faults) (h : ∀ a b, x = .ok a → y = .ok b → r a b) : Agree view r x y := by
  cases x with
  | ok a =>
      obtain ⟨b, rfl⟩ := hy.exists_ok_iff.2 hx
      exact h a b rfl rfl
  | error e =>
      obtain rfl := (hy.eq_error_iff e).2 hx
      exact Eq.refl (view e)

theorem bind {x : Except ε α} {y : Except ε α'} {f : α → Except ε β} {g : α' → Except ε β'}
    (h : Agree view r x y) (hnext : ∀ a b, r a b → Agree view s (f a) (g b)) :
    Agree view s (x >>= f) (y >>= g) := by
  cases x with
  | ok a =>
      cases y with
      | ok b => exact hnext a b h
      | error e => exact h.elim
  | error e =>
      cases y with
      | ok b => exact h.elim
      | error e' => exact h

/-- What goes on with the same result in the same way agrees. -/
theorem map {x y : Except ε α} (h : Agree view Eq x y) (f : α → β) :
    Agree view Eq (x >>= fun a => pure (f a)) (y >>= fun a => pure (f a)) := by
  refine h.bind fun a b hab => ?_
  rw [hab]
  exact refl _

/-- A list is worked off as another one is whose elements it has in another form. -/
theorem mapM {f : α' → Except ε β} {g : α → Except ε β} {change : α → α'} {as : List α}
    (h : ∀ a ∈ as, Agree view Eq (f (change a)) (g a)) :
    Agree view Eq ((as.map change).mapM f) (as.mapM g) := by
  induction as with
  | nil => exact refl (pure [])
  | cons a as ih =>
      rw [List.map_cons, List.mapM_cons, List.mapM_cons]
      have hrest := ih fun other hother => h other (.tail _ hother)
      refine (h a (List.mem_cons_self ..)).bind fun b b' hb => ?_
      rw [hb]
      exact hrest.map (b' :: ·)

/-- So is a balanced tree. -/
theorem traverse_balanced {f : Nat → α' → Except ε β} {g : Nat → α → Except ε β}
    {change : α → α'} (low : Nat) (items : List α) (hitems : items ≠ [])
    (h : ∀ number, ∀ item ∈ items, Agree view Eq (f number (change item)) (g number item))
    (hchanged : items.map change ≠ []) :
    Agree view Eq ((RangeTree.balanced low (items.map change) hchanged).traverse f)
      ((RangeTree.balanced low items hitems).traverse g) := by
  fun_induction RangeTree.balanced low items hitems with
  | case1 low item =>
      simp only [List.map_cons, List.map_nil, RangeTree.balanced, RangeTree.traverse]
      exact (h low item (List.mem_singleton_self item)).map _
  | case2 low first second rest _ lower _ ihlower ihupper =>
      have hlower := ihlower (fun number item hitem => h number item (List.mem_of_mem_take hitem))
      have hupper := ihupper (fun number item hitem => h number item (List.mem_of_mem_drop hitem))
      have htake : ((first :: second :: rest).map change).take lower
          = ((first :: second :: rest).take lower).map change := List.map_take.symm
      have hdrop : ((first :: second :: rest).map change).drop lower
          = ((first :: second :: rest).drop lower).map change := List.map_drop.symm
      simp only [List.map_cons, lower] at htake hdrop
      simp only [List.map_cons, RangeTree.balanced, RangeTree.traverse, List.length_map, htake,
        hdrop]
      refine .map ?_ _
      -- the two halves are all the children there are
      simp only [RangeTree.traverseAll]
      refine (hlower _).bind fun node node' hnode => ?_
      rw [hnode]
      refine .map ?_ (node' :: ·)
      exact (hupper _).map fun node => [node]

end Agree

end RigPack

import Mathlib.Data.Nat.Log
import RigPack.RangeTree.Balanced
import RigPack.Proofs.RangeTree.Descent

/-!
# The balanced tree of a timeline

`balanced` halves its items until each is alone.  The result partitions the
numbers of the items (`isPartition_balanced`), a number is found to be the item at
its position (`find?_balanced`), and since every halving adds one level of two
children, the way down compares at most `2 * ⌈log₂ N⌉ + 1` ranges
(`testCount_balanced_le`).
-/

namespace RigPack.RangeTree

variable {α : Type}

/-- Items that are cut in two keep their positions. -/
theorem zipIdx_take_drop (items : List α) (low : Nat) {count : Nat}
    (hcount : count ≤ items.length) :
    items.zipIdx low
      = (items.take count).zipIdx low ++ (items.drop count).zipIdx (low + count) := by
  conv_lhs => rw [← List.take_append_drop count items]
  rw [List.zipIdx_append, List.length_take, Nat.min_eq_left hcount]

theorem balanced_min (low : Nat) (items : List α) (hitems : items ≠ []) :
    (balanced low items hitems).min = low := by
  unfold balanced
  split <;> rfl

theorem balanced_max (low : Nat) (items : List α) (hitems : items ≠ []) :
    (balanced low items hitems).max = low + (items.length - 1) := by
  unfold balanced
  split
  · rfl
  · simp [max]

theorem isPartition_balanced (low : Nat) (items : List α) (hitems : items ≠ []) :
    (balanced low items hitems).IsPartition := by
  fun_induction balanced low items hitems with
  | case1 low item => exact .leaf low item
  | case2 low first second rest _ lower _ ihlower ihupper =>
      refine .branch (Nat.le_refl 2) ⟨balanced_min .., ?_, ?_⟩ ?_
      · rw [balanced_min, balanced_max]
        simp only [List.length_take, List.length_cons, lower]
        omega
      · rw [balanced_max]
        simp only [List.length_drop, List.length_cons, lower]
        omega
      · intro child hchild
        rcases List.mem_pair.1 hchild with rfl | rfl
        · exact ihlower
        · exact ihupper

theorem ofTimeline_eq_ok {items : List α} {node : RangeTree α} (h : ofTimeline items = .ok node) :
    ∃ hitems : items ≠ [], node = balanced 0 items hitems := by
  cases items with
  | nil => simp [ofTimeline] at h
  | cons first rest =>
      rw [ofTimeline] at h
      split at h
      · contradiction
      · exact ⟨List.cons_ne_nil first rest, (Except.ok.inj h).symm⟩

/-- A timeline of frames that can all be numbered has a tree. -/
theorem ofTimeline_of_length_le {items : List α} (hitems : items ≠ [])
    (hlength : items.length ≤ maxFrames) : ofTimeline items = .ok (balanced 0 items hitems) := by
  cases items with
  | nil => contradiction
  | cons first rest => exact if_neg (Nat.not_lt.2 hlength)

/-! ## Finding an item -/

/-- The item at a position is found under its number. -/
theorem find?_balanced_of_lt (low : Nat) (items : List α) (hitems : items ≠ []) :
    ∀ (i : Nat) (hi : i < items.length),
      (balanced low items hitems).find? (low + i) = some items[i] := by
  fun_induction balanced low items hitems with
  | case1 low item =>
      intro i hi
      obtain rfl : i = 0 := by simpa using hi
      simp [find?]
  | case2 low first second rest _ lower _ ihlower ihupper =>
      intro i hi
      rw [find?, findIn?, findIn?]
      by_cases hlower : i < lower
      · have hlength : i < ((first :: second :: rest).take lower).length := by
          rw [List.length_take]
          omega
        rw [covers_eq_true (by rw [balanced_min]; omega) (by rw [balanced_max]; omega), if_pos rfl,
          ihlower i hlength, List.getElem_take]
      · have hlength : i - lower < ((first :: second :: rest).drop lower).length := by
          rw [List.length_drop]
          omega
        have hlow : (balanced low ((first :: second :: rest).take lower) (by simp [lower])).covers
            (low + i) = false := covers_eq_false (.inr (by
              rw [balanced_max, List.length_take]
              omega))
        have hhigh : (balanced (low + lower) ((first :: second :: rest).drop lower)
            (by simp [lower]; omega)).covers (low + i) = true :=
          covers_eq_true (by rw [balanced_min]; omega) (by rw [balanced_max]; omega)
        have hfind := ihupper (i - lower) hlength
        rw [show low + lower + (i - lower) = low + i by omega, List.getElem_drop] at hfind
        rw [hlow, hhigh]
        simpa [show lower + (i - lower) = i by omega] using hfind

/-- What is found under a number is the item at its position, if there is one. -/
theorem find?_balanced (items : List α) (hitems : items ≠ []) (i : Nat) :
    (balanced 0 items hitems).find? i = items[i]? := by
  rcases Nat.lt_or_ge i items.length with hi | hi
  · rw [List.getElem?_eq_getElem hi, ← find?_balanced_of_lt 0 items hitems i hi, Nat.zero_add]
  · have hpos : 0 < items.length := List.length_pos_iff.2 hitems
    rw [List.getElem?_eq_none hi]
    refine (isPartition_balanced 0 items hitems).find?_eq_none (.inr ?_)
    rw [balanced_max]
    omega

/-! ## How many ranges are compared -/

/-- Every halving of the items adds two comparisons to the way down. -/
theorem testCount_balanced_le (t : Int) (low : Nat) (items : List α) (hitems : items ≠ []) :
    testCount t (balanced low items hitems) ≤ 2 * Nat.clog 2 items.length + 1 := by
  fun_induction balanced low items hitems with
  | case1 low item =>
      unfold testCount descent
      split <;> simp [children]
  | case2 low first second rest _ lower _ ihlower ihupper =>
      have hlength : (first :: second :: rest).length = rest.length + 2 := rfl
      have hclog : Nat.clog 2 (rest.length + 2) = Nat.clog 2 lower + 1 :=
        Nat.clog_of_two_le (by omega) (by omega)
      rw [List.length_take, hlength, Nat.min_eq_left (by omega)] at ihlower
      rw [List.length_drop, hlength] at ihupper
      have hmono : Nat.clog 2 (rest.length + 2 - lower) ≤ Nat.clog 2 lower :=
        Nat.clog_mono_right 2 (by omega)
      have hborder : (balanced low ((first :: second :: rest).take lower) (by simp [lower])).max
          < (balanced (low + lower) ((first :: second :: rest).drop lower)
            (by simp [lower]; omega)).min := by
        rw [balanced_max, balanced_min, List.length_take]
        omega
      rw [hlength, hclog]
      generalize balanced low _ _ = lowerHalf at ihlower hborder ⊢
      generalize balanced (low + lower) _ _ = upperHalf at ihupper hborder ⊢
      by_cases hholds : (branch low (low + (rest.length + 1)) [lowerHalf, upperHalf]).Holds t
      · rw [testCount_of_holds hholds, children, testCounts_cons, testCounts_cons, testCounts_nil]
        -- the two halves do not share a number, so only one of them is entered
        by_cases hupper : upperHalf.Holds t
        · have hnot : ¬ lowerHalf.Holds t := fun hlower => by
            have := hlower.2
            have := hupper.1
            omega
          rw [testCount_of_not_holds hnot]
          omega
        · rw [testCount_of_not_holds hupper]
          omega
      · rw [testCount_of_not_holds hholds]
        omega

end RigPack.RangeTree

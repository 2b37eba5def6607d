import RigPack.Proofs.RangeTree.SearchTree

/-!
# Halving a range of 32-bit numbers

Frames are numbered with 32 bits.  `balanced` does not compute with these numbers: it
counts the items that are left.  `ofRange?` does compute with them, and builds the tree of
a range of numbers from its two ends.  Every sum, every difference and every look-up in it
is checked, and there is no tree if one of them fails.

None does: the tree is the balanced one (`ofRange?_eq`), also where the last number is the
greatest there is.  The range gets shorter on both sides of every branch, so the building
ends.
-/

namespace RigPack.RangeTree

variable {α : Type}

/-! ## Checked steps -/

/-- The sum of two numbers, if it has no more than 32 bits. -/
def sum? (a b : UInt32) : Option UInt32 :=
  if a.toNat + b.toNat < UInt32.size then some (a + b) else none

/-- The difference of two numbers, unless it is below zero. -/
def difference? (a b : UInt32) : Option UInt32 :=
  if b ≤ a then some (a - b) else none

/-- The last number of the lower half of a range, and the first one of the upper half. -/
def middle? (min max : UInt32) : Option (UInt32 × UInt32) := do
  let width ← difference? max min
  let last ← sum? min (width / 2)
  let first ← sum? last 1
  return (last, first)

theorem sum?_eq_some_iff {a b sum : UInt32} :
    sum? a b = some sum ↔ sum.toNat = a.toNat + b.toNat := by
  unfold sum?
  split
  · rename_i hsize
    have hadd : (a + b).toNat = a.toNat + b.toNat := by
      rw [UInt32.toNat_add]
      exact Nat.mod_eq_of_lt hsize
    rw [Option.some.injEq, ← UInt32.toNat_inj, hadd, eq_comm]
  · rename_i hsize
    have hsum : sum.toNat < UInt32.size := sum.toNat_lt_size
    simp only [reduceCtorEq, false_iff]
    omega

theorem difference?_eq_some_iff {a b difference : UInt32} :
    difference? a b = some difference ↔ a.toNat = b.toNat + difference.toNat := by
  unfold difference?
  split
  · rename_i hle
    have hsub : (a - b).toNat = a.toNat - b.toNat := UInt32.toNat_sub_of_le a b hle
    have hle : b.toNat ≤ a.toNat := UInt32.le_iff_toNat_le.1 hle
    rw [Option.some.injEq, ← UInt32.toNat_inj, hsub]
    omega
  · rename_i hnot
    have hlt : a.toNat < b.toNat := by
      rw [UInt32.le_iff_toNat_le] at hnot
      omega
    simp only [reduceCtorEq, false_iff]
    omega

theorem middle?_eq_some_iff {min max last first : UInt32} :
    middle? min max = some (last, first) ↔
      min.toNat ≤ max.toNat ∧ last.toNat = min.toNat + (max.toNat - min.toNat) / 2 ∧
        first.toNat = last.toNat + 1 := by
  have hhalf (width : UInt32) : (width / 2).toNat = width.toNat / 2 := UInt32.toNat_div width 2
  simp only [middle?, Option.bind_eq_bind, Option.bind_eq_some_iff, difference?_eq_some_iff,
    sum?_eq_some_iff, hhalf, Option.pure_def, Option.some.injEq, Prod.mk.injEq]
  constructor
  · rintro ⟨width, hwidth, last, hlast, first, hfirst, rfl, rfl⟩
    have hone : (1 : UInt32).toNat = 1 := rfl
    omega
  · rintro ⟨hle, hlast, hfirst⟩
    refine ⟨max - min, ?_, last, ?_, first, hfirst, rfl, rfl⟩
    all_goals rw [UInt32.toNat_sub_of_le max min (UInt32.le_iff_toNat_le.2 hle)]; omega

/-- A range of two or more numbers has a middle, even at the end of the 32-bit numbers. -/
theorem exists_middle? {min max : UInt32} (h : min.toNat < max.toNat) :
    ∃ last first, middle? min max = some (last, first) := by
  have hsize : max.toNat < UInt32.size := max.toNat_lt_size
  have hofNat {n : Nat} (hn : n ≤ max.toNat) : (UInt32.ofNat n).toNat = n :=
    UInt32.toNat_ofNat_of_lt' (by omega)
  let last := min.toNat + (max.toNat - min.toNat) / 2
  refine ⟨UInt32.ofNat last, UInt32.ofNat (last + 1), middle?_eq_some_iff.2 ⟨h.le, ?_, ?_⟩⟩
  · exact hofNat (by omega)
  · rw [hofNat (n := last) (by omega), hofNat (n := last + 1) (by omega)]

/-! ## The tree of a range -/

/-- The tree of the items numbered from `min` to `max`, if every step on the way to it
succeeds. -/
def ofRange? (items : List α) (min max : UInt32) : Option (RangeTree α) :=
  if _hsame : min = max then items[min.toNat]?.map (leaf min.toNat)
  else
    match _hmiddle : middle? min max with
    | none => none
    | some (last, first) => do
      let lower ← ofRange? items min last
      let upper ← ofRange? items first max
      return branch min.toNat max.toNat [lower, upper]
termination_by max.toNat - min.toNat
decreasing_by
  all_goals
    have hne : min.toNat ≠ max.toNat := fun heq => _hsame (UInt32.toNat_inj.1 heq)
    have := middle?_eq_some_iff.1 _hmiddle
    omega

/-- Two or more items are cut in two halves. -/
theorem balanced_eq_branch (low : Nat) {items : List α} (hitems : items ≠ [])
    (htwo : 2 ≤ items.length) :
    ∃ hlower hupper, balanced low items hitems
      = branch low (low + (items.length - 1))
          [balanced low (items.take ((items.length + 1) / 2)) hlower,
            balanced (low + (items.length + 1) / 2) (items.drop ((items.length + 1) / 2))
              hupper] := by
  match items, htwo with
  | first :: second :: rest, _ =>
      refine ⟨by simp, by simp; omega, ?_⟩
      rw [balanced]
      rfl

theorem toNat_lt_of_le_of_ne {min max : UInt32} (hle : min ≤ max) (hne : ¬ min = max) :
    min.toNat < max.toNat := by
  have hle : min.toNat ≤ max.toNat := UInt32.le_iff_toNat_le.1 hle
  have hne : min.toNat ≠ max.toNat := fun heq => hne (UInt32.toNat_inj.1 heq)
  omega

/-- The tree of a range of numbers is the balanced tree of its items. -/
theorem ofRange?_eq (items : List α) {min max : UInt32} (hle : min ≤ max)
    (hmax : max.toNat < items.length) {part : List α} (hne : part ≠ [])
    (hpart : part = (items.drop min.toNat).take (max.toNat + 1 - min.toNat)) :
    ofRange? items min max = some (balanced min.toNat part hne) := by
  fun_induction ofRange? items min max generalizing part with
  | case1 min =>
      have hget : items[min.toNat]? = some items[min.toNat] := List.getElem?_eq_getElem hmax
      have hpart : part = [items[min.toNat]] := by
        rw [hpart, Nat.add_sub_cancel_left, List.take_one, List.head?_drop, hget]
        rfl
      subst hpart
      rw [hget, balanced]
      rfl
  | case2 min max hsame hnone =>
      have hlt : min.toNat < max.toNat := toNat_lt_of_le_of_ne hle hsame
      obtain ⟨last, first, hmiddle⟩ := exists_middle? hlt
      rw [hnone] at hmiddle
      contradiction
  | case3 min max hsame last first hmiddle ihlower ihupper =>
      have hlt : min.toNat < max.toNat := toNat_lt_of_le_of_ne hle hsame
      obtain ⟨-, hlast, hfirst⟩ := middle?_eq_some_iff.1 hmiddle
      have hlength : part.length = max.toNat + 1 - min.toNat := by
        rw [hpart, List.length_take, List.length_drop]
        omega
      have hhalf : (part.length + 1) / 2 = last.toNat + 1 - min.toNat := by omega
      obtain ⟨hlower_ne, hupper_ne, hbalanced⟩ := balanced_eq_branch min.toNat hne (by omega)
      have hlower : part.take ((part.length + 1) / 2)
          = (items.drop min.toNat).take (last.toNat + 1 - min.toNat) := by
        rw [hhalf, hpart, List.take_take, Nat.min_eq_left (by omega)]
      have hupper : part.drop ((part.length + 1) / 2)
          = (items.drop first.toNat).take (max.toNat + 1 - first.toNat) := by
        rw [hhalf, hpart, List.drop_take, List.drop_drop]
        congr 1
        · omega
        · congr 1
          omega
      have hends : min.toNat + (part.length - 1) = max.toNat := by omega
      have hnext : min.toNat + (part.length + 1) / 2 = first.toNat := by omega
      rw [ihlower (UInt32.le_iff_toNat_le.2 (by omega)) (by omega) hlower_ne hlower,
        ihupper (UInt32.le_iff_toNat_le.2 (by omega)) hmax hupper_ne hupper, hbalanced, hends]
      simp only [hnext]
      rfl

/-! ## The search tree of a timeline -/

theorem ofTimeline_cons (first : α) (rest : List α) :
    ofTimeline (first :: rest)
      = if 2 ^ 32 < rest.length + 1 then .error (.timelineTooLong (rest.length + 1))
        else .ok (balanced 0 (first :: rest) (List.cons_ne_nil first rest)) := rfl

/-- A timeline is refused if it has no frame or more than 32 bits can number.  Any other
one gets its search tree, and no step on the way to it leaves the 32-bit numbers or the
timeline. -/
theorem ofTimeline_builds_search_tree (items : List α) :
    (ofTimeline items = .error .emptyTimeline ↔ items.length = 0) ∧
    (∀ count, ofTimeline items = .error (.timelineTooLong count) ↔
      2 ^ 32 < items.length ∧ count = items.length) ∧
    (0 < items.length → items.length ≤ 2 ^ 32 → ∃ node, ofTimeline items = .ok node ∧
      ofRange? items 0 (UInt32.ofNat (items.length - 1)) = some node ∧
      node.IsSearchTree items ∧ node.leafCount = items.length ∧
      node.leafIndices = List.range items.length) := by
  cases items with
  | nil => simp [ofTimeline]
  | cons first rest =>
      rw [ofTimeline_cons, List.length_cons]
      by_cases hlong : 2 ^ 32 < rest.length + 1
      · rw [if_pos hlong]
        refine ⟨by simp, fun count => ?_, fun _ hshort => absurd hlong (by omega)⟩
        simp only [Except.error.injEq, Defect.timelineTooLong.injEq, hlong, true_and, eq_comm]
      · rw [if_neg hlong]
        refine ⟨by simp, fun count => ⟨by simp, fun h => absurd h.1 hlong⟩, fun _ _ => ?_⟩
        have hne := List.cons_ne_nil first rest
        have htree := isSearchTree_balanced (first :: rest) hne
        refine ⟨_, rfl, ?_, htree, htree.leafCount_eq, htree.leafIndices_eq⟩
        have hmax : (UInt32.ofNat (rest.length + 1 - 1)).toNat = rest.length :=
          UInt32.toNat_ofNat_of_lt' (by rw [UInt32.size]; omega)
        refine ofRange?_eq (first :: rest) ?_ ?_ hne ?_
        · exact UInt32.le_iff_toNat_le.2 (Nat.zero_le _)
        · rw [hmax, List.length_cons]
          omega
        · have hall : (first :: rest).length ≤ rest.length + 1 - 0 := Nat.le_refl _
          rw [hmax]
          exact (List.take_of_length_le hall).symm

/-- The longest timeline there can be: its last frame has the greatest number, and its
frames are found 32 edges below the root. -/
theorem ofTimeline_builds_deepest_search_tree :
    ∃ node, ofTimeline (List.replicate (2 ^ 32) ()) = .ok node ∧
      ofRange? (List.replicate (2 ^ 32) ()) 0 4294967295 = some node ∧ node.depth = 33 ∧
      node.leafCount = 2 ^ 32 := by
  have hlength : (List.replicate (2 ^ 32) ()).length = 2 ^ 32 := List.length_replicate
  obtain ⟨-, -, hbuilds⟩ := ofTimeline_builds_search_tree (List.replicate (2 ^ 32) ())
  rw [hlength] at hbuilds
  obtain ⟨node, hnode, hrange, htree, hcount, -⟩ := hbuilds (by decide) (Nat.le_refl _)
  refine ⟨node, hnode, hrange, ?_, hcount⟩
  rw [htree.depth, hlength, Nat.clog_pow 2 32 Nat.one_lt_two]

end RigPack.RangeTree

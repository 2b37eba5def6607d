import Mathlib.Data.List.Enum
import RigPack.Proofs.RangeTree.Balanced
import RigPack.Proofs.RangeTree.Preorder

/-!
# The shape of the balanced tree

A search tree over some items has a leaf for each of them, in their order and under
their positions, and every branch has two children that share its range between them.
It is balanced if no leaf lies deeper than halving needs: with `N` items every leaf is
`⌊log₂ N⌋` or `⌈log₂ N⌉` edges away from the root.  `IsSearchTree` says all this of a tree
and `isSearchTree_balanced` shows it of the one that is built.

## Strategy

The larger half of `n` items has `⌈n / 2⌉` of them, and `⌈log₂ n⌉` is one more than
`⌈log₂ ⌈n / 2⌉⌉`; the smaller half has `⌊n / 2⌋`, and `⌊log₂ n⌋` is one more than
`⌊log₂ ⌊n / 2⌋⌋`.  So both bounds on the levels of the leaves go down by one with every
halving, whichever half a leaf lies in.
-/

namespace RigPack.RangeTree

variable {α : Type}

/-! ## Leaves and branches of a tree -/

/-- The item of a leaf, with its number. -/
def leaf? : RangeTree α → Option (α × Nat)
  | leaf index item => some (item, index)
  | branch .. => none

/-- How many edges lead from the root to each leaf, from left to right. -/
def levels : RangeTree α → List Nat
  | leaf .. => [0]
  | branch _ _ children => levelsIn children
where
  /-- The levels of the leaves below the children of a branch. -/
  levelsIn : List (RangeTree α) → List Nat
    | [] => []
    | node :: nodes => node.levels.map (· + 1) ++ levelsIn nodes

/-- Whether the children of a node share its range: one of them starts where the node
does, the other ends where it does, and nothing lies between them. -/
def IsHalved : RangeTree α → Prop
  | leaf .. => True
  | branch min max children =>
    ∃ lower upper, children = [lower, upper] ∧ lower.min = min ∧ upper.max = max ∧
      lower.max + 1 = upper.min

/-- A tree in which the items of a list are found by their positions, with the fewest
comparisons. -/
structure IsSearchTree (items : List α) (node : RangeTree α) : Prop where
  /-- The leaves in pre-order hold the items, under their positions. -/
  leaves : node.nodes.filterMap leaf? = items.zipIdx
  /-- There is one branch less than there are items. -/
  branches : node.branchCount + 1 = items.length
  halved : ∀ other ∈ node.nodes, other.IsHalved
  find? : ∀ i, node.find? i = items[i]?
  depth : node.depth = Nat.clog 2 items.length + 1
  /-- Every leaf has a level, and it is one of two. -/
  levels : node.levels.length = items.length ∧
    ∀ level ∈ node.levels, level = Nat.log 2 items.length ∨ level = Nat.clog 2 items.length

theorem leafIndices_eq (node : RangeTree α) :
    node.leafIndices = (node.nodes.filterMap leaf?).map (·.2) := by
  unfold leafIndices
  rw [List.map_filterMap]
  congr 1
  funext other
  cases other <;> rfl

theorem leafCount_eq (node : RangeTree α) :
    node.leafCount = (node.nodes.filterMap leaf?).length := by
  unfold leafCount
  rw [List.length_filterMap_eq_countP, ← List.countP_eq_length_filter]
  congr 1
  funext other
  cases other <;> rfl

/-- The numbers of the leaves are the positions of the items. -/
theorem IsSearchTree.leafIndices_eq {items : List α} {node : RangeTree α}
    (h : node.IsSearchTree items) : node.leafIndices = List.range items.length := by
  rw [RangeTree.leafIndices_eq, h.leaves, List.zipIdx_map_snd, List.range_eq_range']

theorem IsSearchTree.leafCount_eq {items : List α} {node : RangeTree α}
    (h : node.IsSearchTree items) : node.leafCount = items.length := by
  rw [RangeTree.leafCount_eq, h.leaves, List.length_zipIdx]

/-- The leaves are the items under their positions. -/
theorem IsSearchTree.leaf_mem_nodes_iff {items : List α} {node : RangeTree α}
    (h : node.IsSearchTree items) {index : Nat} {item : α} :
    leaf index item ∈ node.nodes ↔ items[index]? = some item := by
  rw [← List.mk_mem_zipIdx_iff_getElem?, ← h.leaves, List.mem_filterMap]
  constructor
  · exact fun hmem => ⟨_, hmem, rfl⟩
  · rintro ⟨other, hmem, hleaf⟩
    cases other with
    | leaf number found =>
        obtain ⟨rfl, rfl⟩ := Prod.mk.inj (Option.some.inj hleaf)
        exact hmem
    | branch min max children => contradiction

/-! ## A branch of two -/

section Pair

variable (min max : Nat) (lower upper : RangeTree α)

theorem nodes_branch_pair : (branch min max [lower, upper]).nodes
    = branch min max [lower, upper] :: (lower.nodes ++ upper.nodes) := by
  simp

theorem branchCount_branch_pair : (branch min max [lower, upper]).branchCount
    = lower.branchCount + upper.branchCount + 1 := by
  unfold branchCount
  rw [nodes_branch_pair, List.filter_cons, List.filter_append]
  simp [isLeaf]

theorem depth_branch_pair : (branch min max [lower, upper]).depth
    = Nat.max lower.depth upper.depth + 1 := by
  have hdepth : (branch min max [lower, upper]).depth
      = 1 + Nat.max lower.depth (Nat.max upper.depth 0) := rfl
  have hzero : Nat.max upper.depth 0 = upper.depth := Nat.max_zero _
  rw [hdepth, hzero, Nat.add_comm]

theorem levels_branch_pair : (branch min max [lower, upper]).levels
    = lower.levels.map (· + 1) ++ upper.levels.map (· + 1) := by
  simp [levels, levels.levelsIn]

end Pair

/-! ## The balanced tree -/

theorem leaves_balanced (low : Nat) (items : List α) (hitems : items ≠ []) :
    (balanced low items hitems).nodes.filterMap leaf? = items.zipIdx low := by
  fun_induction balanced low items hitems with
  | case1 low item => simp [leaf?]
  | case2 low first second rest _ lower _ ihlower ihupper =>
      have hlower : lower ≤ (first :: second :: rest).length := by
        simp only [List.length_cons, lower]
        omega
      rw [nodes_branch_pair, List.filterMap_cons_none rfl, List.filterMap_append, ihlower, ihupper,
        zipIdx_take_drop _ low hlower]

theorem branchCount_balanced (low : Nat) (items : List α) (hitems : items ≠ []) :
    (balanced low items hitems).branchCount + 1 = items.length := by
  fun_induction balanced low items hitems with
  | case1 low item => simp [branchCount, isLeaf]
  | case2 low first second rest _ lower _ ihlower ihupper =>
      have hlength : ((first :: second :: rest).take lower).length
          + ((first :: second :: rest).drop lower).length = (first :: second :: rest).length := by
        rw [← List.length_append, List.take_append_drop]
      rw [branchCount_branch_pair]
      omega

theorem isHalved_balanced (low : Nat) (items : List α) (hitems : items ≠ []) :
    ∀ other ∈ (balanced low items hitems).nodes, other.IsHalved := by
  fun_induction balanced low items hitems with
  | case1 low item =>
      intro other hother
      rw [nodes_leaf, List.mem_singleton] at hother
      rw [hother]
      exact trivial
  | case2 low first second rest _ lower _ ihlower ihupper =>
      intro other hother
      rw [nodes_branch_pair] at hother
      rcases List.mem_cons.1 hother with rfl | hother
      · refine ⟨_, _, rfl, balanced_min .., ?_, ?_⟩
        · rw [balanced_max, List.length_drop]
          simp only [List.length_cons, lower]
          omega
        · rw [balanced_max, balanced_min, List.length_take]
          simp only [List.length_cons, lower]
          omega
      · rcases List.mem_append.1 hother with hother | hother
        · exact ihlower other hother
        · exact ihupper other hother

/-! ## How deep the leaves lie -/

theorem clog_halves {n : Nat} (hn : 2 ≤ n) : Nat.clog 2 n = Nat.clog 2 ((n + 1) / 2) + 1 := by
  rw [Nat.clog_of_two_le Nat.one_lt_two hn]
  rfl

theorem log_halves {n : Nat} (hn : 2 ≤ n) : Nat.log 2 n = Nat.log 2 (n / 2) + 1 :=
  Nat.log_of_one_lt_of_le Nat.one_lt_two hn

/-- The logarithm rounded up is the one rounded down, or one more. -/
theorem clog_le_log_add_one (n : Nat) : Nat.clog 2 n ≤ Nat.log 2 n + 1 := by
  apply Nat.clog_le_of_le_pow
  exact (Nat.lt_pow_succ_log_self Nat.one_lt_two n).le

theorem depth_balanced (low : Nat) (items : List α) (hitems : items ≠ []) :
    (balanced low items hitems).depth = Nat.clog 2 items.length + 1 := by
  fun_induction balanced low items hitems with
  | case1 low item => simp [depth]
  | case2 low first second rest _ lower _ ihlower ihupper =>
      have hlength : (first :: second :: rest).length = rest.length + 2 := rfl
      have hclog : Nat.clog 2 (rest.length + 2) = Nat.clog 2 lower + 1 :=
        clog_halves (by omega)
      have hmono : Nat.clog 2 (rest.length + 2 - lower) ≤ Nat.clog 2 lower :=
        Nat.clog_mono_right 2 (by omega)
      rw [List.length_take, hlength, Nat.min_eq_left (by omega)] at ihlower
      rw [List.length_drop, hlength] at ihupper
      rw [depth_branch_pair, ihlower, ihupper, hlength, hclog]
      have hmax : Nat.max (Nat.clog 2 lower + 1) (Nat.clog 2 (rest.length + 2 - lower) + 1)
          = Nat.clog 2 lower + 1 := Nat.max_eq_left (by omega)
      rw [hmax]

theorem length_levels_balanced (low : Nat) (items : List α) (hitems : items ≠ []) :
    (balanced low items hitems).levels.length = items.length := by
  fun_induction balanced low items hitems with
  | case1 low item => rfl
  | case2 low first second rest _ lower _ ihlower ihupper =>
      rw [levels_branch_pair, List.length_append, List.length_map, List.length_map, ihlower,
        ihupper, ← List.length_append, List.take_append_drop]

/-- No leaf of the balanced tree lies higher or deeper than halving the items leads. -/
theorem bounds_levels_balanced (low : Nat) (items : List α) (hitems : items ≠ []) :
    ∀ level ∈ (balanced low items hitems).levels,
      Nat.log 2 items.length ≤ level ∧ level ≤ Nat.clog 2 items.length := by
  fun_induction balanced low items hitems with
  | case1 low item => simp [levels]
  | case2 low first second rest _ lower _ ihlower ihupper =>
      have hlength : (first :: second :: rest).length = rest.length + 2 := rfl
      have hlog := log_halves (n := rest.length + 2) (by omega)
      have hclog : Nat.clog 2 (rest.length + 2) = Nat.clog 2 lower + 1 :=
        clog_halves (by omega)
      have hhalf : rest.length + 2 - lower = (rest.length + 2) / 2 := by omega
      have hlog_mono : Nat.log 2 ((rest.length + 2) / 2) ≤ Nat.log 2 lower :=
        Nat.log_mono_right (by omega)
      have hclog_mono : Nat.clog 2 ((rest.length + 2) / 2) ≤ Nat.clog 2 lower :=
        Nat.clog_mono_right 2 (by omega)
      rw [List.length_take, hlength, Nat.min_eq_left (by omega)] at ihlower
      rw [List.length_drop, hlength, hhalf] at ihupper
      rw [hlength, hlog, hclog, levels_branch_pair]
      intro level hlevel
      rcases List.mem_append.1 hlevel with hlevel | hlevel
      · obtain ⟨above, habove, rfl⟩ := List.mem_map.1 hlevel
        have := ihlower above habove
        omega
      · obtain ⟨above, habove, rfl⟩ := List.mem_map.1 hlevel
        have := ihupper above habove
        omega

theorem isSearchTree_balanced (items : List α) (hitems : items ≠ []) :
    (balanced 0 items hitems).IsSearchTree items where
  leaves := leaves_balanced 0 items hitems
  branches := branchCount_balanced 0 items hitems
  halved := isHalved_balanced 0 items hitems
  find? := find?_balanced items hitems
  depth := depth_balanced 0 items hitems
  levels := by
    refine ⟨length_levels_balanced 0 items hitems, fun level hlevel => ?_⟩
    have hbounds := bounds_levels_balanced 0 items hitems level hlevel
    have hnext := clog_le_log_add_one items.length
    omega

end RigPack.RangeTree

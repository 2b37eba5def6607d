import Mathlib.Algebra.GroupWithZero.Nat
import RigPack.Proofs.RangeTree.Partition

/-!
# The way down a tree

`descent t node` lists the nodes whose range holds the score `t`, each below one
that is listed before it.  Scores are integers here, so a score below zero is
simply held by no range.  In a tree that partitions its range the list is a path:
branches, then the leaf of the number `t`, which is also where `find?` ends
(`IsPartition.descent_eq`).
-/

namespace RigPack.RangeTree

variable {α β : Type}

/-- Whether the range of a node holds a score. -/
def Holds (t : Int) (node : RangeTree α) : Prop :=
  (node.min : Int) ≤ t ∧ t ≤ (node.max : Int)

instance (t : Int) (node : RangeTree α) : Decidable (node.Holds t) :=
  inferInstanceAs (Decidable (_ ∧ _))

mutual

/-- The nodes whose range holds a score, from the root down; below a node that
does not hold it nothing is listed. -/
def descent (t : Int) : RangeTree α → List (RangeTree α)
  | leaf index item => if (leaf index item).Holds t then [leaf index item] else []
  | branch min max children =>
    if (branch min max children).Holds t then branch min max children :: descents t children
    else []

/-- The nodes of several trees whose range holds a score, from left to right. -/
def descents (t : Int) : List (RangeTree α) → List (RangeTree α)
  | [] => []
  | node :: nodes => descent t node ++ descents t nodes

end

/-- How many ranges are compared with a score on the way down: that of the root,
and those of all children of every branch on the way. -/
def testCount (t : Int) (node : RangeTree α) : Nat :=
  1 + ((node.descent t).map (·.children.length)).sum

/-- How many ranges are compared on the way down several trees. -/
def testCounts (t : Int) (nodes : List (RangeTree α)) : Nat :=
  nodes.length + ((descents t nodes).map (·.children.length)).sum

theorem descent_of_not_holds {t : Int} {node : RangeTree α} (h : ¬ node.Holds t) :
    node.descent t = [] := by
  cases node <;> rw [descent, if_neg h]

theorem descent_of_holds {t : Int} {node : RangeTree α} (h : node.Holds t) :
    node.descent t = node :: descents t node.children := by
  cases node with
  | leaf index item => rw [descent, if_pos h, children, descents]
  | branch min max nodes => rw [descent, if_pos h, children]

theorem descents_append (t : Int) (nodes others : List (RangeTree α)) :
    descents t (nodes ++ others) = descents t nodes ++ descents t others := by
  induction nodes with
  | nil => rfl
  | cons node nodes ih => rw [List.cons_append, descents, descents, ih, List.append_assoc]

theorem descents_eq_nil {t : Int} {nodes : List (RangeTree α)}
    (h : ∀ node ∈ nodes, ¬ node.Holds t) : descents t nodes = [] := by
  induction nodes with
  | nil => rfl
  | cons node nodes ih =>
      rw [descents, descent_of_not_holds (h node (List.mem_cons_self ..)), List.nil_append]
      exact ih fun other hother => h other (.tail _ hother)

@[simp] theorem testCounts_nil (t : Int) : testCounts t ([] : List (RangeTree α)) = 0 := rfl

theorem testCounts_cons (t : Int) (node : RangeTree α) (nodes : List (RangeTree α)) :
    testCounts t (node :: nodes) = testCount t node + testCounts t nodes := by
  simp only [testCounts, testCount, descents, List.length_cons, List.map_append, List.sum_append]
  omega

theorem testCount_of_not_holds {t : Int} {node : RangeTree α} (h : ¬ node.Holds t) :
    testCount t node = 1 := by
  simp [testCount, descent_of_not_holds h]

theorem testCount_of_holds {t : Int} {node : RangeTree α} (h : node.Holds t) :
    testCount t node = 1 + testCounts t node.children := by
  simp [testCount, testCounts, descent_of_holds h]

/-- New items leave the number of comparisons as it is. -/
theorem testCount_of_traverse {ε : Type} {f : Nat → α → Except ε β} (t : Int) {node : RangeTree α}
    {node' : RangeTree β} (h : node.traverse f = .ok node') :
    testCount t node' = testCount t node := by
  have hholds {node : RangeTree α} {node' : RangeTree β} (h : node.traverse f = .ok node') :
      node'.Holds t ↔ node.Holds t := by
    obtain ⟨hmin, hmax⟩ := range_of_traverse h
    rw [Holds, Holds, hmin, hmax]
  induction node using RangeTree.induction_children generalizing node' with
  | leaf index item =>
      obtain ⟨item', -, rfl⟩ := traverse_leaf_eq_ok.1 h
      by_cases hnode : (leaf index item).Holds t
      · rw [testCount_of_holds hnode, testCount_of_holds ((hholds h).2 hnode)]
        rfl
      · rw [testCount_of_not_holds hnode, testCount_of_not_holds (mt (hholds h).1 hnode)]
  | branch min max children ih =>
      obtain ⟨children', hchildren, rfl⟩ := traverse_branch_eq_ok.1 h
      have hall := traverseAll_eq_ok.1 hchildren
      by_cases hnode : (branch min max children).Holds t
      · rw [testCount_of_holds hnode, testCount_of_holds ((hholds h).2 hnode)]
        rw [RangeTree.children, RangeTree.children]
        clear h hchildren hnode
        induction hall with
        | nil => rfl
        | @cons child child' rest rest' hchild hrest ihrest =>
            have hcounts := ihrest fun other hother => ih other (.tail _ hother)
            rw [testCounts_cons, testCounts_cons, ih child (List.mem_cons_self ..) hchild]
            omega
      · rw [testCount_of_not_holds hnode, testCount_of_not_holds (mt (hholds h).1 hnode)]

/-! ## In a partition the way down is a path -/

/-- Of the children of a partition only the one that covers a number is entered. -/
theorem descents_children {n : Nat} {before after : List (RangeTree α)} {child : RangeTree α}
    (hbefore : ∀ node ∈ before, node.max < n) (hafter : ∀ node ∈ after, n < node.min) :
    descents n (before ++ child :: after) = child.descent n := by
  have hnone : descents (n : Int) before = [] := descents_eq_nil fun node hnode hholds => by
    have := hbefore node hnode
    have := hholds.2
    omega
  have hnone' : descents (n : Int) after = [] := descents_eq_nil fun node hnode hholds => by
    have := hafter node hnode
    have := hholds.1
    omega
  rw [descents_append, hnone, descents, hnone', List.nil_append, List.append_nil]

/-- In a partition the way down to a number of its range leads through branches to
the leaf of that number, the one at which the number is found. -/
theorem IsPartition.descent_eq {node : RangeTree α} (hnode : node.IsPartition) {n : Nat}
    (hlow : node.min ≤ n) (hhigh : n ≤ node.max) :
    ∃ branches item, node.descent n = branches ++ [RangeTree.leaf n item] ∧
      (∀ other ∈ branches, other.isLeaf = false) ∧ node.find? n = some item := by
  induction hnode with
  | leaf index item =>
      obtain rfl : index = n := Nat.le_antisymm hlow hhigh
      have hholds : (RangeTree.leaf index item).Holds index := ⟨Int.le_refl _, Int.le_refl _⟩
      exact ⟨[], item, by rw [descent_of_holds hholds]; rfl, by simp, by simp [find?]⟩
  | @branch min max children htwo htiles heach ih =>
      obtain ⟨before, child, after, rfl, hchild_low, hchild_high, hbefore, hafter⟩ :=
        htiles.exists_child (fun node hnode => (heach node hnode).min_le_max) hlow hhigh
      obtain ⟨branches, item, hdescent, hbranches, hfind⟩ :=
        ih child (by simp) hchild_low hchild_high
      refine ⟨.branch min max (before ++ child :: after) :: branches, item, ?_, ?_, ?_⟩
      · have hholds : (RangeTree.branch min max (before ++ child :: after)).Holds n :=
          ⟨Int.ofNat_le.2 hlow, Int.ofNat_le.2 hhigh⟩
        rw [descent_of_holds hholds, children, descents_children hbefore hafter, hdescent]
        rfl
      · intro other hother
        rcases List.mem_cons.1 hother with rfl | hother
        · rfl
        · exact hbranches other hother
      · rw [find?_branch hbefore hchild_low hchild_high, hfind]

end RigPack.RangeTree

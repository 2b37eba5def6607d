import RigPack.Proofs.RangeTree.Partition

/-!
# The walk in pre-order

`walk` keeps the nodes that are still to be visited on a stack.  What a stack owes is
what its parts owe one after the other (`walk_append`), so the nodes of a branch are the
branch itself, then all nodes below its first child, then those below the next one
(`nodes_branch`).  Facts about all nodes of a tree are shown by that recursion.
-/

namespace RigPack.RangeTree

variable {α : Type}

theorem walk_cons (node : RangeTree α) (stack : List (RangeTree α)) :
    walk (node :: stack) = node :: walk (node.children ++ stack) := by
  rw [walk]

/-- A stack is worked off from its top: what lies below comes last. -/
theorem walk_append (stack below : List (RangeTree α)) :
    walk (stack ++ below) = walk stack ++ walk below := by
  induction stack using walk.induct with
  | case1 => rw [List.nil_append, walk, List.nil_append]
  | case2 node stack ih =>
      rw [List.cons_append, walk_cons, ← List.append_assoc, ih, walk_cons, List.cons_append]

theorem walk_eq_flatMap (stack : List (RangeTree α)) : walk stack = stack.flatMap nodes := by
  induction stack with
  | nil => rw [walk, List.flatMap_nil]
  | cons node stack ih =>
      calc walk (node :: stack)
          = walk ([node] ++ stack) := rfl
        _ = node.nodes ++ walk stack := walk_append [node] stack
        _ = (node :: stack).flatMap nodes := by rw [ih, List.flatMap_cons]

theorem nodes_eq (node : RangeTree α) : node.nodes = node :: node.children.flatMap nodes := by
  unfold nodes
  rw [walk_cons, List.append_nil, walk_eq_flatMap]
  rfl

@[simp] theorem nodes_leaf (index : Nat) (item : α) :
    (leaf index item).nodes = [leaf index item] := by
  rw [nodes_eq, children, List.flatMap_nil]

@[simp] theorem nodes_branch (min max : Nat) (children : List (RangeTree α)) :
    (branch min max children).nodes = branch min max children :: children.flatMap nodes := by
  rw [nodes_eq, RangeTree.children]

end RigPack.RangeTree

import Mathlib.Data.List.Perm.Basic
import RigPack.Proofs.RangeTree.Preorder

/-!
# The nodes in post-order

What is done for a node behind all that is below it is done in post-order.  These are the
nodes of the walk in another order (`postorder_perm`).  What is done below one node is
done in one piece (`postorder_isInfix`), so a branch comes behind all nodes below its
children (`exists_postorder_of_branch`).
-/

namespace RigPack.RangeTree

variable {α : Type}

mutual

/-- All nodes, each behind those below it and left in front of right. -/
def postorder : RangeTree α → List (RangeTree α)
  | leaf index item => [leaf index item]
  | branch min max children => postorders children ++ [branch min max children]

/-- The nodes of several trees. -/
def postorders : List (RangeTree α) → List (RangeTree α)
  | [] => []
  | node :: nodes => postorder node ++ postorders nodes

end

theorem postorders_eq_flatMap (nodes : List (RangeTree α)) :
    postorders nodes = nodes.flatMap postorder := by
  induction nodes with
  | nil => rfl
  | cons node nodes ih => rw [postorders, ih, List.flatMap_cons]

theorem postorder_branch (min max : Nat) (children : List (RangeTree α)) :
    (branch min max children).postorder
      = children.flatMap postorder ++ [branch min max children] := by
  rw [postorder, postorders_eq_flatMap]

theorem postorder_perm (node : RangeTree α) : node.postorder.Perm node.nodes := by
  induction node using induction_children with
  | leaf index item =>
      rw [postorder, nodes_leaf]
  | branch min max children ih =>
      rw [postorder_branch, nodes_branch]
      have hlast : (children.flatMap postorder ++ [branch min max children]).Perm
          (branch min max children :: children.flatMap postorder) :=
        List.perm_append_singleton _ _
      exact hlast.trans ((List.Perm.flatMap_left children ih).cons _)

theorem postorder_isInfix {node other : RangeTree α} (h : other ∈ node.nodes) :
    other.postorder <:+: node.postorder := by
  induction node using induction_children with
  | leaf index item =>
      rw [nodes_leaf, List.mem_singleton] at h
      subst h
      exact List.infix_rfl
  | branch min max children ih =>
      rw [nodes_branch] at h
      rcases List.mem_cons.1 h with rfl | h
      · exact List.infix_rfl
      · obtain ⟨child, hchild, hother⟩ := List.mem_flatMap.1 h
        have hbelow : child.postorder <:+: children.flatMap postorder :=
          List.infix_flatMap_of_mem hchild postorder
        rw [postorder_branch]
        exact (ih child hchild hother).trans (hbelow.trans (List.infix_append' [] _ _))

/-- All nodes below the children of a branch come before it. -/
theorem exists_postorder_of_branch {node : RangeTree α} {min max : Nat}
    {children : List (RangeTree α)} (h : branch min max children ∈ node.nodes) :
    ∃ before after, node.postorder = before ++ branch min max children :: after ∧
      ∀ child ∈ children, child.nodes ⊆ before := by
  obtain ⟨before, after, hsplit⟩ := postorder_isInfix h
  refine ⟨before ++ children.flatMap postorder, after, ?_, fun child hchild below hbelow => ?_⟩
  · rw [← hsplit, postorder_branch]
    simp only [List.append_assoc, List.cons_append, List.nil_append]
  · have hmem : below ∈ child.postorder := child.postorder_perm.mem_iff.2 hbelow
    exact List.mem_append_right _ (List.mem_flatMap.2 ⟨child, hchild, hmem⟩)

end RigPack.RangeTree

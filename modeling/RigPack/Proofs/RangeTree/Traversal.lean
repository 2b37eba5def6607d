import RigPack.Proofs.RangeTree.SearchTree

/-!
# Traversals of a tree

A tree is walked with a stack, and its items are replaced while it is rebuilt.  Both do what
a plain recursion over the tree does, whatever its ranges and numbers are and however many
children its branches have.

## Strategy

One call of the walk takes the top of the stack and puts the children in its place
(`next?`).  What the stack still owes, `walk` lists, so the calls answer that list and then
nothing (`answer?_reverse`).  The list for one node is what recursion lists (`nodes_eq_preorder`),
and its leaves are the leaves from left to right (`filterMap_nodes`).

A computation with a state is followed through the children in their order
(`runs_mapM`): it makes the calls that it would make for the list of the leaves.
-/

namespace RigPack.RangeTree

variable {α β σ : Type}

/-! ## Recursion over a tree -/

mutual

/-- All nodes, each in front of those below it and left in front of right. -/
def preorder : RangeTree α → List (RangeTree α)
  | leaf index item => [leaf index item]
  | branch min max children => branch min max children :: preorders children

/-- The nodes of several trees. -/
def preorders : List (RangeTree α) → List (RangeTree α)
  | [] => []
  | node :: nodes => preorder node ++ preorders nodes

end

mutual

/-- The items of the leaves from left to right, each with its number. -/
def leaves : RangeTree α → List (α × Nat)
  | leaf index item => [(item, index)]
  | branch _ _ children => leavesIn children

/-- The items of the leaves of several trees. -/
def leavesIn : List (RangeTree α) → List (α × Nat)
  | [] => []
  | node :: nodes => leaves node ++ leavesIn nodes

end

theorem preorders_eq_flatMap (nodes : List (RangeTree α)) :
    preorders nodes = nodes.flatMap preorder := by
  induction nodes with
  | nil => rfl
  | cons node nodes ih => rw [preorders, ih, List.flatMap_cons]

theorem leavesIn_eq_flatMap (nodes : List (RangeTree α)) :
    leavesIn nodes = nodes.flatMap leaves := by
  induction nodes with
  | nil => rfl
  | cons node nodes ih => rw [leavesIn, ih, List.flatMap_cons]

theorem nodes_eq_preorder (node : RangeTree α) : node.nodes = node.preorder := by
  induction node using induction_children with
  | leaf index item => rw [nodes_leaf, preorder]
  | branch min max children ih =>
      rw [nodes_branch, preorder, preorders_eq_flatMap, List.flatMap_congr ih]

theorem sizes_eq_sum (nodes : List (RangeTree α)) : sizes nodes = (nodes.map size).sum := by
  induction nodes with
  | nil => rfl
  | cons node nodes ih => rw [sizes, ih, List.map_cons, List.sum_cons]

theorem length_nodes (node : RangeTree α) : node.nodes.length = node.size := by
  induction node using induction_children with
  | leaf index item => rw [nodes_leaf, size, List.length_singleton]
  | branch min max children ih =>
      rw [nodes_branch, size, sizes_eq_sum, List.length_cons, List.length_flatMap,
        List.map_congr_left ih, Nat.add_comm]

/-- The leaves among the nodes of a tree are its leaves from left to right. -/
theorem filterMap_nodes (node : RangeTree α) : node.nodes.filterMap leaf? = node.leaves := by
  induction node using induction_children with
  | leaf index item => rw [nodes_leaf, leaves]; rfl
  | branch min max children ih =>
      rw [nodes_branch, leaves, leavesIn_eq_flatMap, List.filterMap_cons_none rfl,
        List.filterMap_flatMap, List.flatMap_congr ih]

theorem leafCount_add_branchCount (node : RangeTree α) :
    node.leafCount + node.branchCount = node.size := by
  rw [← length_nodes, List.length_eq_length_filter_add isLeaf]
  rfl

/-! ## The walk, call by call -/

/-- One call of a walk.  The top of the stack, which is its last entry, is answered, and its
children are pushed from the last one to the first. -/
def next? (stack : List (RangeTree α)) : Option (RangeTree α × List (RangeTree α)) :=
  stack.getLast?.map fun node => (node, stack.dropLast ++ node.children.reverse)

/-- The answer of each call of a walk; with an empty stack all calls answer nothing. -/
def answer? (stack : List (RangeTree α)) : (call : Nat) → Option (RangeTree α)
  | 0 => (next? stack).map (·.1)
  | call + 1 => (next? stack).bind fun (_, stack) => answer? stack call

/-- The calls answer what the stack owes, one node after the other, and then nothing. -/
theorem answer?_reverse (stack : List (RangeTree α)) (call : Nat) :
    answer? stack.reverse call = (walk stack)[call]? := by
  induction call generalizing stack with
  | zero => cases stack <;> simp [answer?, next?, walk]
  | succ call ih =>
      cases stack with
      | nil => simp [answer?, next?, walk]
      | cons node stack =>
          have hnext : next? (node :: stack).reverse
              = some (node, (node.children ++ stack).reverse) := by
            simp [next?]
          rw [answer?, hnext, walk, List.getElem?_cons_succ]
          exact ih (node.children ++ stack)

/-! ## New items -/

theorem run_bind_of_run_eq {γ δ : Type} {x : StateM σ γ} {f : γ → StateM σ δ} {s s' : σ} {c : γ}
    (h : x.run s = (c, s')) : (x >>= f).run s = (f c).run s' := by
  rw [StateT.run_bind, h]
  rfl

/-- Whether a computation of new items for a tree makes the calls that it makes for the list of
its leaves, and puts the results into a tree of the same shape. -/
def Runs (f : α → StateM σ β) (node : RangeTree α) : Prop :=
  ∀ s, ∃ node' items s', (node.mapM f).run s = (node', s') ∧
    (node.leaves.mapM fun leaf => f leaf.1).run s = (items, s') ∧
    node.sameShape node' = true ∧ node'.leaves.map (·.1) = items

theorem runs_traverseAll {f : α → StateM σ β} {nodes : List (RangeTree α)}
    (h : ∀ node ∈ nodes, Runs f node) (s : σ) :
    ∃ nodes' items s', (traverseAll (fun _ item => f item) nodes).run s = (nodes', s') ∧
      ((leavesIn nodes).mapM fun leaf => f leaf.1).run s = (items, s') ∧
      sameShapes nodes nodes' = true ∧ (leavesIn nodes').map (·.1) = items := by
  induction nodes generalizing s with
  | nil => exact ⟨[], [], s, rfl, rfl, rfl, rfl⟩
  | cons node nodes ih =>
      obtain ⟨node', first, s', hnode, hfirst, hshape, rfl⟩ := h node (List.mem_cons_self ..) s
      obtain ⟨nodes', rest, s'', hnodes, hrest, hshapes, rfl⟩ :=
        ih (fun other hother => h other (.tail _ hother)) s'
      refine ⟨node' :: nodes', _, s'', ?_, ?_, ?_, List.map_append⟩
      · rw [mapM] at hnode
        rw [traverseAll, run_bind_of_run_eq hnode, run_bind_of_run_eq hnodes]
        rfl
      · rw [leavesIn, List.mapM_append, run_bind_of_run_eq hfirst, run_bind_of_run_eq hrest]
        rfl
      · rw [sameShapes, hshape, hshapes, Bool.and_self]

theorem runs_mapM (f : α → StateM σ β) (node : RangeTree α) : Runs f node := by
  induction node using induction_children with
  | leaf index item =>
      intro s
      refine ⟨leaf index ((f item).run s).1, [((f item).run s).1], ((f item).run s).2, rfl, rfl,
        ?_, rfl⟩
      simp [sameShape]
  | branch min max children ih =>
      intro s
      obtain ⟨children', items, s', hchildren, hitems, hshapes, hleaves⟩ := runs_traverseAll ih s
      refine ⟨branch min max children', items, s', ?_, hitems, ?_, hleaves⟩
      · rw [mapM, traverse, run_bind_of_run_eq hchildren]
        rfl
      · simp [sameShape, hshapes]

theorem range_map (f : α → β) (node : RangeTree α) :
    (node.map f).min = node.min ∧ (node.map f).max = node.max := by
  cases node <;> exact ⟨rfl, rfl⟩

/-- The children of a branch are replaced one by one. -/
theorem map_branch (f : α → β) (min max : Nat) (children : List (RangeTree α)) :
    (branch min max children).map f = branch min max (children.map (map f)) := by
  have hall : Id.run (traverseAll (fun _ item => pure (f item)) children)
      = children.map (map f) := by
    induction children with
    | nil => rfl
    | cons child children ih => rw [List.map_cons, ← ih]; rfl
  rw [← hall]
  rfl

/-- What is found among new items is the new item of what was found. -/
theorem find?_map (f : α → β) (number : Nat) (node : RangeTree α) :
    (node.map f).find? number = (node.find? number).map f := by
  induction node using induction_children with
  | leaf index item =>
      have hleaf : (leaf index item).map f = leaf index (f item) := rfl
      rw [hleaf, find?, find?]
      split <;> rfl
  | branch min max children ih =>
      rw [map_branch, find?, find?]
      induction children with
      | nil => rfl
      | cons child children ihrest =>
          obtain ⟨hmin, hmax⟩ := range_map f child
          have hcovers : (child.map f).covers number = child.covers number := by
            rw [covers, covers, hmin, hmax]
          rw [List.map_cons, findIn?, findIn?, hcovers]
          split
          · exact ih child (List.mem_cons_self ..)
          · exact ihrest fun other hother => ih other (.tail _ hother)

/-! ## Both traversals -/

/-- The walk of any tree ends and visits the nodes as recursion does, so the leaves and branches
are counted and the numbers of the leaves listed by it.  New items are computed by one call for
each leaf, from left to right, and are found where the old ones were. -/
theorem traversals_follow_recursion (node : RangeTree α) :
    (∀ call, answer? [node] call = node.preorder[call]?) ∧
    node.nodes = node.preorder ∧ node.preorder.length = node.size ∧
    node.leafCount + node.branchCount = node.size ∧
    node.leafIndices = node.leaves.map (·.2) ∧
    (∀ {σ β : Type} (f : α → StateM σ β) (s : σ), ∃ node' items s',
      (node.mapM f).run s = (node', s') ∧
      (node.leaves.mapM fun leaf => f leaf.1).run s = (items, s') ∧
      node.sameShape node' = true ∧ node'.leaves.map (·.1) = items) ∧
    ∀ {β : Type} (f : α → β) (number : Nat),
      (node.map f).find? number = (node.find? number).map f := by
  refine ⟨fun call => ?_, node.nodes_eq_preorder, ?_, node.leafCount_add_branchCount, ?_,
    fun f => runs_mapM f node, fun f number => find?_map f number node⟩
  · rw [← nodes_eq_preorder]
    exact answer?_reverse [node] call
  · rw [← nodes_eq_preorder, length_nodes]
  · rw [leafIndices_eq, filterMap_nodes]

end RigPack.RangeTree

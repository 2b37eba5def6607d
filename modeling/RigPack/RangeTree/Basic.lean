/-!
# Range trees

A range tree finds the item of a number by comparing ranges on the way down: a leaf holds the item
of one number, a branch names the range of numbers below it.  Nothing forces the range of a branch
to agree with its children, so every function here says what it does on any tree.

## Main statements

* `RangeTree.walk`: a walk with an explicit stack visits the nodes in pre-order.
-/

namespace RigPack

/-- A tree of items, found by number. -/
inductive RangeTree (α : Type)
  | leaf (index : Nat) (item : α)
  | branch (min max : Nat) (children : List (RangeTree α))

namespace RangeTree

variable {α β : Type}

instance [Inhabited α] : Inhabited (RangeTree α) := ⟨.leaf 0 default⟩

/-- The least number the node claims to cover. -/
def min : RangeTree α → Nat
  | leaf index _ => index
  | branch min _ _ => min

/-- The greatest number the node claims to cover. -/
def max : RangeTree α → Nat
  | leaf index _ => index
  | branch _ max _ => max

/-- Whether the node claims to cover a number. -/
def covers (node : RangeTree α) (number : Nat) : Bool :=
  node.min ≤ number && number ≤ node.max

/-- Whether the node is a leaf. -/
def isLeaf : RangeTree α → Bool
  | leaf .. => true
  | branch .. => false

/-- The children from left to right. -/
def children : RangeTree α → List (RangeTree α)
  | leaf .. => []
  | branch _ _ children => children

/-! ## Recursion on the children -/

mutual

/-- The number of nodes. -/
def size : RangeTree α → Nat
  | leaf .. => 1
  | branch _ _ children => 1 + sizes children

/-- The number of nodes of several trees. -/
def sizes : List (RangeTree α) → Nat
  | [] => 0
  | node :: nodes => node.size + sizes nodes

end

mutual

/-- The number of nodes on the longest way down. -/
def depth : RangeTree α → Nat
  | leaf .. => 1
  | branch _ _ children => 1 + depths children

/-- The depth of the deepest of several trees. -/
def depths : List (RangeTree α) → Nat
  | [] => 0
  | node :: nodes => Nat.max node.depth (depths nodes)

end

mutual

/-- Whether two trees differ in their items only. -/
def sameShape : RangeTree α → RangeTree β → Bool
  | leaf i _, leaf j _ => i = j
  | branch min max nodes, branch min' max' nodes' =>
    min = min' && max = max' && sameShapes nodes nodes'
  | _, _ => false

/-- Whether two lists of trees differ in their items only. -/
def sameShapes : List (RangeTree α) → List (RangeTree β) → Bool
  | [], [] => true
  | node :: nodes, node' :: nodes' => node.sameShape node' && sameShapes nodes nodes'
  | _, _ => false

end

mutual

/-- The item of a number: of each branch only the first child that covers the number is tried. -/
def find? (number : Nat) : RangeTree α → Option α
  | leaf index item => if index = number then some item else none
  | branch _ _ children => findIn? number children

/-- The item of a number in the first of several trees that covers it. -/
def findIn? (number : Nat) : List (RangeTree α) → Option α
  | [] => none
  | node :: nodes => if node.covers number then node.find? number else findIn? number nodes

end

mutual

/-- The tree with other items, computed from left to right from each leaf's number and item. -/
def traverse {m : Type → Type} [Monad m] (f : Nat → α → m β) : RangeTree α → m (RangeTree β)
  | leaf index item => return leaf index (← f index item)
  | branch min max children => return branch min max (← traverseAll f children)

/-- Several trees with other items, from left to right. -/
def traverseAll {m : Type → Type} [Monad m] (f : Nat → α → m β) :
    List (RangeTree α) → m (List (RangeTree β))
  | [] => return []
  | node :: nodes => do
    let node ← node.traverse f
    let nodes ← traverseAll f nodes
    return node :: nodes

end

/-- The tree with other items, each computed in turn from the item that was there. -/
def mapM {m : Type → Type} [Monad m] (f : α → m β) (node : RangeTree α) : m (RangeTree β) :=
  node.traverse fun _ item => f item

/-- The tree with other items. -/
def map (f : α → β) (node : RangeTree α) : RangeTree β :=
  Id.run (node.mapM fun item => pure (f item))

/-! ## The walk over all nodes -/

theorem size_pos (node : RangeTree α) : 0 < node.size := by
  cases node <;> simp only [size] <;> omega

theorem sizes_append (nodes others : List (RangeTree α)) :
    sizes (nodes ++ others) = sizes nodes + sizes others := by
  induction nodes with
  | nil => simp [sizes]
  | cons node nodes ih => simp [sizes, ih]; omega

theorem size_eq (node : RangeTree α) : node.size = 1 + sizes node.children := by
  cases node <;> simp [size, sizes, children]

/-- The nodes below a stack of nodes: the top goes first, and its children take its place. -/
def walk : (stack : List (RangeTree α)) → List (RangeTree α)
  | [] => []
  | node :: stack => node :: walk (node.children ++ stack)
termination_by stack => sizes stack
decreasing_by
  rw [sizes_append, sizes, size_eq]
  omega

/-- All nodes, each in front of those below it and left in front of right. -/
def nodes (node : RangeTree α) : List (RangeTree α) :=
  walk [node]

/-- The number of leaves. -/
def leafCount (node : RangeTree α) : Nat :=
  (node.nodes.filter isLeaf).length

/-- The number of branches. -/
def branchCount (node : RangeTree α) : Nat :=
  (node.nodes.filter (!isLeaf ·)).length

/-- The number of a leaf. -/
def leafIndex? : RangeTree α → Option Nat
  | leaf index _ => some index
  | branch .. => none

/-- The numbers of the leaves from left to right. -/
def leafIndices (node : RangeTree α) : List Nat :=
  node.nodes.filterMap leafIndex?

/-! ## Texts -/

/-- The text of a node alone. -/
def title : RangeTree α → String
  | leaf index _ => "leaf " ++ toString index
  | branch min max _ => "branch " ++ toString min ++ ".." ++ toString max

/-- The text of a node in an outline. -/
def outlineTitle : RangeTree α → String
  | leaf index _ => "leaf " ++ toString index
  | branch min max _ => "[" ++ toString min ++ ", " ++ toString max ++ "]"

mutual

/-- The lines of an outline below its first line, each behind `margin`. -/
def outlineBelow (margin : String) : RangeTree α → List String
  | leaf .. => []
  | branch _ _ children => outlineChildren margin children

/-- The lines of the children in an outline; the last one's line of descent ends there. -/
def outlineChildren (margin : String) : List (RangeTree α) → List String
  | [] => []
  | [node] => (margin ++ "└── " ++ node.outlineTitle) :: node.outlineBelow (margin ++ "    ")
  | node :: nodes =>
    (margin ++ "├── " ++ node.outlineTitle) :: node.outlineBelow (margin ++ "│   ")
      ++ outlineChildren margin nodes

end

/-- The ranges of a tree, a line for each node. -/
def outline (node : RangeTree α) : String :=
  String.join ((node.outlineTitle :: node.outlineBelow "").map (· ++ "\n"))

end RangeTree

end RigPack

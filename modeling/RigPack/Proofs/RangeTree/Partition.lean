import RigPack.RangeTree.Basic
import RigPack.Proofs.Success

/-!
# Trees that partition their range

Nothing forces the range of a branch to agree with its children.  `IsPartition`
says that it does: below every branch there are at least two children, and they
cover the branch's range from left to right, without gap or overlap (`Tiles`).
The number of a leaf is then found by going down, since exactly one child of
every branch covers it.

## Main statements

* `Tiles.exists_child`: of nodes that tile a range, exactly one covers a number
  of the range; those before end too early, those after start too late.
* `IsPartition.find?_eq_none`: outside the range of the root nothing is found.
* `isPartition_of_traverse`: new items leave the ranges as they are.
-/

namespace RigPack.RangeTree

variable {α β : Type}

/-- Induction over a tree: what holds of a branch if it holds of its children
holds of every tree. -/
theorem induction_children {motive : RangeTree α → Prop}
    (leaf : ∀ index item, motive (leaf index item))
    (branch : ∀ min max children, (∀ child ∈ children, motive child) →
      motive (branch min max children)) (node : RangeTree α) : motive node :=
  RangeTree.rec (motive_1 := motive) (motive_2 := fun nodes => ∀ node ∈ nodes, motive node)
    leaf (fun min max children hchildren => branch min max children hchildren)
    (fun _ hnode => absurd hnode List.not_mem_nil)
    (fun _ _ hhead htail _ hnode => (List.mem_cons.1 hnode).elim (· ▸ hhead) (htail _))
    node

/-- Whether nodes cover the numbers from `low` to `high` from left to right, each
starting right behind the one before. -/
def Tiles (low high : Nat) : List (RangeTree α) → Prop
  | [] => False
  | [node] => node.min = low ∧ node.max = high
  | node :: next :: nodes => node.min = low ∧ Tiles (node.max + 1) high (next :: nodes)

/-- A tree in which the children of every branch are at least two and tile its
range. -/
inductive IsPartition : RangeTree α → Prop
  | leaf (index : Nat) (item : α) : IsPartition (.leaf index item)
  | branch {min max : Nat} {children : List (RangeTree α)} (htwo : 2 ≤ children.length)
      (htiles : Tiles min max children) (heach : ∀ child ∈ children, IsPartition child) :
      IsPartition (.branch min max children)

/-! ## Tiles -/

theorem Tiles.bounds {low high : Nat} {nodes : List (RangeTree α)} (htiles : Tiles low high nodes)
    (hle : ∀ node ∈ nodes, node.min ≤ node.max) :
    low ≤ high ∧ ∀ node ∈ nodes, low ≤ node.min ∧ node.max ≤ high := by
  induction nodes generalizing low with
  | nil => exact htiles.elim
  | cons node nodes ih =>
      have hnode := hle node (List.mem_cons_self ..)
      cases nodes with
      | nil =>
          obtain ⟨hmin, hmax⟩ := htiles
          refine ⟨by omega, fun other hother => ?_⟩
          rw [List.mem_singleton.1 hother]
          omega
      | cons next nodes =>
          obtain ⟨hmin, hrest⟩ := htiles
          obtain ⟨hhigh, hbounds⟩ := ih hrest fun other hother => hle other (.tail _ hother)
          refine ⟨by omega, fun other hother => ?_⟩
          rcases List.mem_cons.1 hother with rfl | hother
          · omega
          · have := hbounds other hother
            omega

/-- Of nodes that tile a range, the nodes before the one that covers a number end
too early for it and the nodes after it start too late. -/
theorem Tiles.exists_child {low high n : Nat} {nodes : List (RangeTree α)}
    (htiles : Tiles low high nodes) (hle : ∀ node ∈ nodes, node.min ≤ node.max)
    (hlow : low ≤ n) (hhigh : n ≤ high) :
    ∃ before child after, nodes = before ++ child :: after ∧ child.min ≤ n ∧ n ≤ child.max ∧
      (∀ node ∈ before, node.max < n) ∧ (∀ node ∈ after, n < node.min) := by
  induction nodes generalizing low with
  | nil => exact htiles.elim
  | cons node nodes ih =>
      cases nodes with
      | nil =>
          obtain ⟨rfl, rfl⟩ := htiles
          exact ⟨[], node, [], rfl, hlow, hhigh, by simp, by simp⟩
      | cons next nodes =>
          obtain ⟨rfl, hrest⟩ := htiles
          have hle' : ∀ other ∈ next :: nodes, other.min ≤ other.max :=
            fun other hother => hle other (.tail _ hother)
          -- the first node covers the number, or one behind it does
          by_cases hcovers : n ≤ node.max
          · have hbounds := (hrest.bounds hle').2
            refine ⟨[], node, next :: nodes, rfl, hlow, hcovers, by simp, fun other hother => ?_⟩
            have := (hbounds other hother).1
            omega
          · obtain ⟨before, child, after, hsplit, hmin, hmax, hbefore, hafter⟩ :=
              ih hrest hle' (by omega)
            refine ⟨node :: before, child, after, by rw [hsplit]; rfl, hmin, hmax, ?_, hafter⟩
            intro other hother
            rcases List.mem_cons.1 hother with rfl | hother
            · omega
            · exact hbefore other hother

theorem Tiles.narrower {low high : Nat} {nodes : List (RangeTree α)}
    (htiles : Tiles low high nodes) (hle : ∀ node ∈ nodes, node.min ≤ node.max)
    (htwo : 2 ≤ nodes.length) {node : RangeTree α} (hnode : node ∈ nodes) :
    low < node.min ∨ node.max < high := by
  match nodes, htiles, htwo with
  | first :: next :: nodes, ⟨hfirst, hrest⟩, _ =>
      have hfirst_le := hle first (List.mem_cons_self ..)
      obtain ⟨hhigh, hbounds⟩ := hrest.bounds fun other hother => hle other (.tail _ hother)
      rcases List.mem_cons.1 hnode with rfl | hnode
      · right
        omega
      · left
        have := (hbounds node hnode).1
        omega

theorem Tiles.pairwise {low high : Nat} {nodes : List (RangeTree α)}
    (htiles : Tiles low high nodes) (hle : ∀ node ∈ nodes, node.min ≤ node.max) :
    nodes.Pairwise fun first second => first.max < second.min := by
  induction nodes generalizing low with
  | nil => exact .nil
  | cons node nodes ih =>
      cases nodes with
      | nil => simp
      | cons next nodes =>
          have hle' : ∀ other ∈ next :: nodes, other.min ≤ other.max :=
            fun other hother => hle other (.tail _ hother)
          have hbounds := (htiles.2.bounds hle').2
          exact .cons (fun other hother => (hbounds other hother).1) (ih htiles.2 hle')

/-! ## Partitions -/

theorem IsPartition.min_le_max {node : RangeTree α} (hnode : node.IsPartition) :
    node.min ≤ node.max := by
  induction hnode with
  | leaf index item => exact Nat.le_refl _
  | branch htwo htiles heach ih => exact (htiles.bounds ih).1

theorem IsPartition.children_bounds {min max : Nat} {children : List (RangeTree α)}
    (htiles : Tiles min max children) (heach : ∀ child ∈ children, child.IsPartition) :
    ∀ child ∈ children, min ≤ child.min ∧ child.max ≤ max :=
  (htiles.bounds fun child hchild => (heach child hchild).min_le_max).2

theorem findIn?_eq_none {n : Nat} {nodes : List (RangeTree α)}
    (h : ∀ node ∈ nodes, node.covers n = false) : findIn? n nodes = none := by
  induction nodes with
  | nil => rfl
  | cons node nodes ih =>
      rw [findIn?, h node (List.mem_cons_self ..)]
      exact ih fun other hother => h other (.tail _ hother)

theorem findIn?_append_of_not_covers {n : Nat} {before nodes : List (RangeTree α)}
    (h : ∀ node ∈ before, node.covers n = false) :
    findIn? n (before ++ nodes) = findIn? n nodes := by
  induction before with
  | nil => rfl
  | cons node before ih =>
      rw [List.cons_append, findIn?, h node (List.mem_cons_self ..)]
      exact ih fun other hother => h other (.tail _ hother)

theorem covers_eq_false {node : RangeTree α} {n : Nat} (h : n < node.min ∨ node.max < n) :
    node.covers n = false := by
  simp only [covers, Bool.and_eq_false_iff, decide_eq_false_iff_not]
  omega

theorem covers_eq_true {node : RangeTree α} {n : Nat} (hlow : node.min ≤ n)
    (hhigh : n ≤ node.max) : node.covers n = true := by
  simp [covers, hlow, hhigh]

/-- Outside the range of the root nothing is found. -/
theorem IsPartition.find?_eq_none {node : RangeTree α} (hnode : node.IsPartition) {n : Nat}
    (h : n < node.min ∨ node.max < n) : node.find? n = none := by
  cases hnode with
  | leaf index item =>
      have hne : index ≠ n := by
        simp only [min, max] at h
        omega
      rw [find?, if_neg hne]
  | branch htwo htiles heach =>
      rw [find?]
      refine findIn?_eq_none fun child hchild => covers_eq_false ?_
      have := IsPartition.children_bounds htiles heach child hchild
      simp only [min, max] at h
      omega

/-- Of the children of a partition the one that covers a number is searched. -/
theorem find?_branch {min max n : Nat} {before after : List (RangeTree α)} {child : RangeTree α}
    (hbefore : ∀ node ∈ before, node.max < n) (hlow : child.min ≤ n) (hhigh : n ≤ child.max) :
    (branch min max (before ++ child :: after)).find? n = child.find? n := by
  rw [find?, findIn?_append_of_not_covers fun node hnode =>
    covers_eq_false (.inr (hbefore node hnode)), findIn?, covers_eq_true hlow hhigh]
  rfl

/-! ## New items in place of the old ones -/

section Traverse

variable {ε : Type} {f : Nat → α → Except ε β}

theorem traverse_leaf_eq_ok {index : Nat} {item : α} {node : RangeTree β} :
    (leaf index item).traverse f = .ok node ↔
      ∃ item', f index item = .ok item' ∧ node = leaf index item' := by
  rw [traverse]
  cases f index item <;> simp [bind, Except.bind, pure, Except.pure, eq_comm]

theorem traverse_branch_eq_ok {min max : Nat} {children : List (RangeTree α)}
    {node : RangeTree β} :
    (branch min max children).traverse f = .ok node ↔
      ∃ children', traverseAll f children = .ok children' ∧
        node = branch min max children' := by
  rw [traverse]
  cases traverseAll f children <;> simp [bind, Except.bind, pure, Except.pure, eq_comm]

theorem traverseAll_cons_eq_ok {node : RangeTree α} {nodes : List (RangeTree α)}
    {nodes' : List (RangeTree β)} :
    traverseAll f (node :: nodes) = .ok nodes' ↔
      ∃ node' rest', node.traverse f = .ok node' ∧ traverseAll f nodes = .ok rest' ∧
        nodes' = node' :: rest' := by
  rw [traverseAll]
  cases node.traverse f <;> cases traverseAll f nodes <;>
    simp [bind, Except.bind, pure, Except.pure, eq_comm]

theorem traverseAll_eq_ok {nodes : List (RangeTree α)} {nodes' : List (RangeTree β)} :
    traverseAll f nodes = .ok nodes' ↔
      List.Forall₂ (fun node node' => node.traverse f = .ok node') nodes nodes' := by
  induction nodes generalizing nodes' with
  | nil => simp [traverseAll, pure, Except.pure, eq_comm]
  | cons node nodes ih =>
      rw [traverseAll_cons_eq_ok]
      constructor
      · rintro ⟨node', rest', hnode, hrest, rfl⟩
        exact .cons hnode (ih.1 hrest)
      · rintro (_ | ⟨hnode, hrest⟩)
        exact ⟨_, _, hnode, ih.2 hrest, rfl⟩

/-- New items leave the range of a node as it is. -/
theorem range_of_traverse {node : RangeTree α} {node' : RangeTree β}
    (h : node.traverse f = .ok node') : node'.min = node.min ∧ node'.max = node.max := by
  cases node with
  | leaf index item =>
      obtain ⟨item', -, rfl⟩ := traverse_leaf_eq_ok.1 h
      exact ⟨rfl, rfl⟩
  | branch min max children =>
      obtain ⟨children', -, rfl⟩ := traverse_branch_eq_ok.1 h
      exact ⟨rfl, rfl⟩

theorem tiles_of_traverse {low high : Nat} {nodes : List (RangeTree α)}
    {nodes' : List (RangeTree β)} (htiles : Tiles low high nodes)
    (h : List.Forall₂ (fun node node' => node.traverse f = .ok node') nodes nodes') :
    Tiles low high nodes' := by
  induction h generalizing low with
  | nil => exact htiles
  | cons hnode hrest ih =>
      obtain ⟨hmin, hmax⟩ := range_of_traverse hnode
      cases hrest with
      | nil => exact ⟨hmin.trans htiles.1, hmax.trans htiles.2⟩
      | cons hnext hrest =>
          refine ⟨hmin.trans htiles.1, ih ?_⟩
          rw [hmax]
          exact htiles.2

theorem isPartition_of_traverse {node : RangeTree α} {node' : RangeTree β}
    (hnode : node.IsPartition) (h : node.traverse f = .ok node') : node'.IsPartition := by
  induction hnode generalizing node' with
  | leaf index item =>
      obtain ⟨item', -, rfl⟩ := traverse_leaf_eq_ok.1 h
      exact .leaf index item'
  | @branch min max children htwo htiles heach ih =>
      obtain ⟨children', hchildren, rfl⟩ := traverse_branch_eq_ok.1 h
      have hall := traverseAll_eq_ok.1 hchildren
      refine .branch (hall.length_eq ▸ htwo) (tiles_of_traverse htiles hall) ?_
      intro child' hchild'
      obtain ⟨child, hchild, hok⟩ := exists_left_of_forall₂ hall hchild'
      exact ih child hchild hok

/-- Under a number the item is found that was made of the item found there before. -/
theorem find?_traverse {node : RangeTree α} {node' : RangeTree β}
    (h : node.traverse f = .ok node') {n : Nat} {item' : β}
    (hfind : node'.find? n = some item') :
    ∃ item, node.find? n = some item ∧ f n item = .ok item' := by
  induction node using induction_children generalizing node' with
  | leaf index item =>
      obtain ⟨made, hmade, rfl⟩ := traverse_leaf_eq_ok.1 h
      rw [find?] at hfind
      split at hfind
      · rename_i hindex
        obtain rfl := hindex
        obtain rfl := Option.some.inj hfind
        exact ⟨item, by rw [find?, if_pos rfl], hmade⟩
      · contradiction
  | branch min max children ih =>
      obtain ⟨children', hchildren, rfl⟩ := traverse_branch_eq_ok.1 h
      have hall := traverseAll_eq_ok.1 hchildren
      rw [find?] at hfind ⊢
      clear h hchildren
      -- the same child is searched on both sides, since the ranges stay as they are
      induction hall with
      | nil => simp [findIn?] at hfind
      | @cons child child' rest rest' hchild hrest ihrest =>
          have hcovers : child'.covers n = child.covers n := by
            obtain ⟨hmin, hmax⟩ := range_of_traverse hchild
            rw [covers, covers, hmin, hmax]
          rw [findIn?, hcovers] at hfind
          rw [findIn?]
          cases hc : child.covers n with
          | true =>
              rw [hc, if_pos rfl] at hfind
              exact ih child (List.mem_cons_self ..) hchild hfind
          | false =>
              rw [hc] at hfind
              exact ihrest (fun other hother => ih other (.tail _ hother)) hfind

end Traverse

end RigPack.RangeTree

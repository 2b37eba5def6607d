import Mathlib.Data.List.Nodup
import RigPack.Timeline.Units
import RigPack.Proofs.RangeTree.Partition
import RigPack.Proofs.Text.Decimal

/-!
# The functions of a timeline have different names

Functions call each other by name, so two functions of one timeline must not
share one.  A name is read as a `UnitKey`, which says what the function is for:
the range of a branch, or the number of a frame and one of three uses.  Keys are
spelled differently (`UnitKey.name_injective`), and the keys below a node keep to
its range, so the children of a branch do not meet and the branch itself, which
is wider than each of them, is none of them (`units_names_nodup`).
-/

namespace RigPack

/-- What a function of a timeline is for. -/
inductive UnitKey
  | branch (min max : Nat)
  | root (index : Nat)
  | bone (index : Nat)
  | commands (index : Nat)

namespace UnitKey

/-- The name of the function. -/
def name : UnitKey → String
  | branch min max => branchUnit min max
  | root index => leafUnit index
  | bone index => boneUnit index
  | commands index => commandsUnit index

/-- The least number that the function is about. -/
def low : UnitKey → Nat
  | branch min _ => min
  | root index => index
  | bone index => index
  | commands index => index

/-- The greatest number that the function is about. -/
def high : UnitKey → Nat
  | branch _ max => max
  | root index => index
  | bone index => index
  | commands index => index

/-! ## Spelling -/

/-- What follows the number in the name of a function of a frame. -/
def ending : UnitKey → String
  | branch _ _ => ""
  | root _ => ""
  | bone _ => "_as_bone"
  | commands _ => "_commands"

theorem endsNumber_ending (key : UnitKey) : Text.EndsNumber key.ending.toList := by
  cases key <;> simp [ending]

/-- Whether the function is that of a branch. -/
def isBranch : UnitKey → Bool
  | branch _ _ => true
  | _ => false

theorem toList_branchUnit (min max : Nat) :
    (branchUnit min max).toList
      = "branch_".toList ++ (Nat.toDigits 10 min ++ '_' :: Nat.toDigits 10 max) := by
  simp [branchUnit]

/-- The functions of a frame are named by its number and by their use. -/
theorem toList_name_of_frame {key : UnitKey} (h : key.isBranch = false) :
    key.name.toList = "leaf_".toList ++ (Nat.toDigits 10 key.low ++ key.ending.toList) := by
  cases key with
  | branch min max => simp [isBranch] at h
  | root index => simp [name, leafUnit, low, ending]
  | bone index => simp [name, boneUnit, low, ending]
  | commands index => simp [name, commandsUnit, low, ending]

theorem branchUnit_ne_name {min max : Nat} {key : UnitKey} (h : key.isBranch = false) :
    branchUnit min max ≠ key.name := by
  intro heq
  have hlist := congrArg String.toList heq
  rw [toList_name_of_frame h, toList_branchUnit] at hlist
  simp at hlist

theorem branchUnit_injective {min max min' max' : Nat}
    (h : branchUnit min max = branchUnit min' max') : min = min' ∧ max = max' := by
  have hlist := congrArg String.toList h
  rw [toList_branchUnit, toList_branchUnit] at hlist
  obtain ⟨hmin, hrest⟩ := Text.toDigits_append_inj (by simp) (by simp)
    (List.append_cancel_left hlist)
  exact ⟨hmin, Text.toDigits_injective (List.cons.inj hrest).2⟩

theorem eq_of_name_eq_of_frame {first second : UnitKey} (hfirst : first.isBranch = false)
    (hsecond : second.isBranch = false) (h : first.name = second.name) : first = second := by
  have hlist := congrArg String.toList h
  rw [toList_name_of_frame hfirst, toList_name_of_frame hsecond] at hlist
  obtain ⟨hlow, hending⟩ := Text.toDigits_append_inj (endsNumber_ending first)
    (endsNumber_ending second) (List.append_cancel_left hlist)
  cases first <;> cases second <;> simp_all [low, ending, isBranch]

theorem name_injective : Function.Injective name := by
  intro first second h
  cases hfirst : first.isBranch with
  | false =>
      cases hsecond : second.isBranch with
      | false => exact eq_of_name_eq_of_frame hfirst hsecond h
      | true =>
          cases second with
          | branch min max => exact absurd h.symm (branchUnit_ne_name hfirst)
          | _ => simp [isBranch] at hsecond
  | true =>
      cases first with
      | branch min max =>
          cases second with
          | branch min' max' =>
              obtain ⟨rfl, rfl⟩ := branchUnit_injective h
              rfl
          | _ => exact absurd h (branchUnit_ne_name rfl)
      | _ => simp [isBranch] at hfirst

end UnitKey

/-! ## The keys of a timeline -/

namespace Timeline

/-- The keys of the functions of a leaf. -/
def leafKeys (index : Nat) (frame : Keyframe) : List UnitKey :=
  (frame.commands.map fun _ => .commands index).toList ++ [.root index, .bone index]

mutual

/-- The keys of the functions of a timeline, in the order of the functions. -/
def keys : Timeline → List UnitKey
  | .leaf index frame => leafKeys index frame
  | .branch min max children => keysOf children ++ [.branch min max]

/-- The keys of the functions of several timelines. -/
def keysOf : List Timeline → List UnitKey
  | [] => []
  | node :: nodes => keys node ++ keysOf nodes

end

theorem keysOf_eq_flatMap (nodes : List Timeline) : keysOf nodes = nodes.flatMap keys := by
  induction nodes with
  | nil => rfl
  | cons node nodes ih => rw [keysOf, ih, List.flatMap_cons]

theorem unitsOf_eq_flatMap (names : Naming) (animation : String) (nodes : List Timeline) :
    unitsOf names animation nodes = nodes.flatMap (units names animation) := by
  induction nodes with
  | nil => rfl
  | cons node nodes ih => rw [unitsOf, ih, List.flatMap_cons]

theorem names_leafUnits (names : Naming) (animation : String) (index : Nat) (frame : Keyframe) :
    (leafUnits names animation index frame).map (·.name)
      = (leafKeys index frame).map UnitKey.name := by
  cases hcommands : frame.commands <;> simp [leafUnits, leafKeys, hcommands, UnitKey.name]

theorem names_units (names : Naming) (animation : String) (node : Timeline) :
    (units names animation node).map (·.name) = (keys node).map UnitKey.name := by
  induction node using RangeTree.induction_children with
  | leaf index frame => exact names_leafUnits names animation index frame
  | branch min max children ih =>
      rw [units, keys, List.map_append, List.map_append, unitsOf_eq_flatMap, keysOf_eq_flatMap,
        List.map_flatMap, List.map_flatMap, List.flatMap_congr ih]
      rfl

/-- A key below a node keeps to the range of the node. -/
theorem bounds_of_mem_keys {node : Timeline} (hnode : node.IsPartition) :
    ∀ key ∈ keys node, node.min ≤ key.low ∧ key.low ≤ key.high ∧ key.high ≤ node.max := by
  induction hnode with
  | leaf index frame =>
      intro key hkey
      rw [keys, leafKeys] at hkey
      cases hcommands : frame.commands <;>
        simp only [hcommands, Option.map_none, Option.map_some, Option.toList_none,
          Option.toList_some, List.nil_append, List.cons_append, List.mem_cons,
          List.not_mem_nil, or_false] at hkey <;>
        rcases hkey with rfl | rfl | rfl <;>
        simp [UnitKey.low, UnitKey.high, RangeTree.min, RangeTree.max]
  | @branch min max children htwo htiles heach ih =>
      have hbounds := RangeTree.IsPartition.children_bounds htiles heach
      have hle := (RangeTree.IsPartition.branch htwo htiles heach).min_le_max
      intro key hkey
      rw [keys, keysOf_eq_flatMap] at hkey
      rcases List.mem_append.1 hkey with hkey | hkey
      · obtain ⟨child, hchild, hkey⟩ := List.mem_flatMap.1 hkey
        have := ih child hchild key hkey
        have := hbounds child hchild
        simp only [RangeTree.min, RangeTree.max]
        omega
      · rw [List.mem_singleton.1 hkey]
        exact ⟨Nat.le_refl _, hle, Nat.le_refl _⟩

theorem keys_disjoint {first second : Timeline} (hfirst : first.IsPartition)
    (hsecond : second.IsPartition) (h : first.max < second.min) :
    List.Disjoint (keys first) (keys second) := by
  intro key hkey hkey'
  have := bounds_of_mem_keys hfirst key hkey
  have := bounds_of_mem_keys hsecond key hkey'
  omega

theorem keys_nodup {node : Timeline} (hnode : node.IsPartition) : (keys node).Nodup := by
  induction hnode with
  | leaf index frame => cases hcommands : frame.commands <;> simp [keys, leafKeys, hcommands]
  | @branch min max children htwo htiles heach ih =>
      have hle : ∀ child ∈ children, child.min ≤ child.max :=
        fun child hchild => (heach child hchild).min_le_max
      rw [keys, keysOf_eq_flatMap]
      refine List.nodup_append.2 ⟨List.nodup_flatMap.2 ⟨ih, ?_⟩, List.nodup_singleton _, ?_⟩
      · refine (htiles.pairwise hle).imp_of_mem fun hfirst hsecond hborder => ?_
        exact keys_disjoint (heach _ hfirst) (heach _ hsecond) hborder
      · -- a child is narrower than the branch, so its keys do not name the range of the branch
        intro key hkey own hown heq
        obtain ⟨child, hchild, hkey⟩ := List.mem_flatMap.1 hkey
        have hkey_bounds := bounds_of_mem_keys (heach child hchild) key hkey
        have hnarrow := htiles.narrower hle htwo hchild
        rw [heq, List.mem_singleton.1 hown] at hkey_bounds
        simp only [UnitKey.low, UnitKey.high] at hkey_bounds
        omega

/-- The functions of a timeline that partitions its range have different names. -/
theorem units_names_nodup (names : Naming) (animation : String) {node : Timeline}
    (hnode : node.IsPartition) : ((units names animation node).map (·.name)).Nodup := by
  rw [names_units]
  exact (keys_nodup hnode).map UnitKey.name_injective

/-! ## The function of a node -/

/-- The function by which a node is entered. -/
def entry (names : Naming) (animation : String) : Timeline → FunctionUnit
  | .leaf index frame => ⟨leafUnit index, rootCommands names animation index frame⟩
  | .branch min max children => ⟨branchUnit min max, children.map (dispatch names animation)⟩

theorem name_entry (names : Naming) (animation : String) (node : Timeline) :
    (entry names animation node).name = node.unit := by
  cases node <;> rfl

theorem entry_mem_units (names : Naming) (animation : String) (node : Timeline) :
    entry names animation node ∈ units names animation node := by
  cases node with
  | leaf index frame => simp [entry, units, leafUnits]
  | branch min max children => simp [entry, units]

end Timeline

end RigPack

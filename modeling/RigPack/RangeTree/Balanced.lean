import RigPack.RangeTree.Basic
import RigPack.Defect

/-!
# Balanced range trees

The items of a timeline are numbered from zero on.  `RangeTree.ofTimeline` halves them again and
again, so the tree depends only on how many there are, and a number is found with about two
comparisons for each halving.
-/

namespace RigPack.RangeTree

variable {α : Type}

/--
The balanced tree of some items, numbered from `min` on.  With an odd number of items the first
half is the larger one.
-/
def balanced (min : Nat) : (items : List α) → items ≠ [] → RangeTree α
  | [item], _ => leaf min item
  | first :: second :: rest, _ =>
    let lower := (rest.length + 3) / 2
    branch min (min + (rest.length + 1))
      [balanced min ((first :: second :: rest).take lower) (by simp [lower]),
        balanced (min + lower) ((first :: second :: rest).drop lower) (by simp [lower]; omega)]
termination_by items => items.length
decreasing_by
  all_goals
    simp
    omega

/-- How many frames can be numbered. -/
def maxFrames : Nat :=
  UInt32.size

/-- The balanced tree of a timeline. -/
def ofTimeline : (items : List α) → Except Defect (RangeTree α)
  | [] => .error .emptyTimeline
  | first :: rest =>
    if maxFrames < rest.length + 1 then .error (.timelineTooLong (rest.length + 1))
    else .ok (balanced 0 (first :: rest) (List.cons_ne_nil first rest))

/-- The balanced tree over as many numbers, without items. -/
def ofCount (count : Nat) : Except Defect (RangeTree Unit) :=
  if maxFrames < count then .error (.timelineTooLong count)
  else ofTimeline (List.replicate count ())

example : ((ofCount 3).map outline).toOption
    = some "[0, 2]\n├── [0, 1]\n│   ├── leaf 0\n│   └── leaf 1\n└── leaf 2\n" := by
  decide +kernel

end RigPack.RangeTree

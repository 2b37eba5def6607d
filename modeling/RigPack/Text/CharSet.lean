/-!
# Sets of characters

Unicode publishes a property of characters as a list of code point ranges.  A `CharSet` is such a
list, and `CharSet.has` decides membership in it.
-/

namespace RigPack.Text

/-- A set of characters, as closed ranges of code points. -/
structure CharSet where
  ranges : List (Nat × Nat)

namespace CharSet

/-- Whether `c` lies in one of the ranges. -/
def has (set : CharSet) (c : Char) : Bool :=
  set.ranges.any fun range => range.1 ≤ c.toNat && c.toNat ≤ range.2

theorem has_iff {set : CharSet} {c : Char} :
    set.has c = true ↔ ∃ range ∈ set.ranges, range.1 ≤ c.toNat ∧ c.toNat ≤ range.2 := by
  simp [has]

end CharSet

end RigPack.Text

/-!
# Powers of two and ten

Binary numbers count in powers of two, decimals in powers of ten.  All of them are natural numbers
here; a negative power is a denominator.
-/

namespace RigPack.Binary

/-- Two to the power `n`. -/
def twoTo (n : Nat) : Nat :=
  Nat.pow 2 n

/-- Ten to the power `n`. -/
def tenTo (n : Nat) : Nat :=
  Nat.pow 10 n

theorem twoTo_succ (n : Nat) : twoTo (n + 1) = twoTo n * 2 := rfl

theorem tenTo_succ (n : Nat) : tenTo (n + 1) = tenTo n * 10 := rfl

theorem twoTo_pos (n : Nat) : 0 < twoTo n := by
  induction n with
  | zero => decide
  | succ n ih =>
    rw [twoTo_succ]
    omega

theorem tenTo_pos (n : Nat) : 0 < tenTo n := by
  induction n with
  | zero => decide
  | succ n ih =>
    rw [tenTo_succ]
    omega

end RigPack.Binary

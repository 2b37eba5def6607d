import RigPack.Proofs.Binary.Basin

/-!
# Numbers and their bit patterns

What a number stands for is read off its pattern.  This file goes the other way: two numbers
of one view have one pattern, unless they are the mark of a failed computation, of which
there are many (`Number.eq_of_view_eq`).

The magnitudes of a format are counted by their patterns, so a finite number is placed by
how far its exponent lies above the least one, and by its significand
(`Number.canonical_of_view`).
-/

namespace RigPack.Binary

/-! ## The size of a pattern -/

namespace Format

variable (f : Format)

theorem twoTo_width_sub_one :
    twoTo (f.width - 1) = twoTo f.exponentBits * twoTo f.fractionBits := by
  have hwidth : f.width - 1 = f.exponentBits + f.fractionBits := by
    unfold width
    omega
  rw [hwidth]
  exact Nat.pow_add 2 _ _

theorem two_pow_width : 2 ^ f.width = 2 * twoTo (f.width - 1) := by
  have hpos : f.width = f.width - 1 + 1 := by
    unfold width
    omega
  rw [hpos, Nat.pow_succ, Nat.mul_comm]
  rfl

end Format

/-! ## Patterns by what they stand for -/

namespace Number

variable {f : Format}

/-- The two parts that a pattern without sign consists of. -/
theorem magnitude_eq (x : Number f) :
    x.magnitude = x.magnitude / twoTo f.fractionBits * twoTo f.fractionBits
      + x.magnitude % twoTo f.fractionBits := by
  rw [Nat.mul_comm]
  exact (Nat.div_add_mod _ _).symm

theorem magnitude_div_lt (x : Number f) :
    x.magnitude / twoTo f.fractionBits < twoTo f.exponentBits := by
  rw [Nat.div_lt_iff_lt_mul (twoTo_pos _), ← f.twoTo_width_sub_one]
  exact Nat.mod_lt _ (twoTo_pos _)

/-- What the view of a finite number tells of its pattern. -/
theorem canonical_of_view {x : Number f} {negative : Bool} {significand : ℕ} {exponent : ℤ}
    (h : x.view = .finite negative significand exponent) :
    Canonical f significand exponent ∧ exponent < f.leastExponent + twoTo f.exponentBits ∧
      x.negative = negative ∧
      x.magnitude = (exponent - f.leastExponent).toNat * twoTo f.fractionBits + significand := by
  have hfraction : x.magnitude % twoTo f.fractionBits < twoTo f.fractionBits :=
    Nat.mod_lt _ (twoTo_pos _)
  have hfield := x.magnitude_div_lt
  have hmagnitude := x.magnitude_eq
  unfold view at h
  dsimp only at h
  generalize x.magnitude / twoTo f.fractionBits = field at *
  generalize x.magnitude % twoTo f.fractionBits = fraction at *
  split at h
  · split at h <;> contradiction
  · split at h
    · rename_i hzero
      obtain ⟨rfl, rfl, rfl⟩ := View.finite.inj h
      refine ⟨⟨by omega, le_rfl, fun hlt => absurd hlt (lt_irrefl _)⟩, by omega, rfl, ?_⟩
      rw [hmagnitude, hzero, sub_self]
      rfl
    · rename_i hnonzero
      obtain ⟨rfl, rfl, rfl⟩ := View.finite.inj h
      refine ⟨⟨by omega, by omega, fun _ => by omega⟩, by omega, rfl, ?_⟩
      -- the leading bit of the significand is one of the exponent field
      have hcount : (f.leastExponent + field - 1 - f.leastExponent).toNat + 1 = field := by
        omega
      calc x.magnitude
          = ((f.leastExponent + field - 1 - f.leastExponent).toNat + 1) * twoTo f.fractionBits
              + fraction := by rw [hcount, hmagnitude]
        _ = (f.leastExponent + field - 1 - f.leastExponent).toNat * twoTo f.fractionBits
              + (twoTo f.fractionBits + fraction) := by rw [Nat.add_one_mul, Nat.add_assoc]

theorem magnitude_of_view_infinite {x : Number f} {negative : Bool}
    (h : x.view = .infinite negative) : x.negative = negative ∧ x.magnitude = f.infinity := by
  have hmagnitude := x.magnitude_eq
  unfold view at h
  dsimp only at h
  split at h
  · rename_i hfield
    split at h
    · rename_i hfraction
      rw [hfield, hfraction, Nat.add_zero] at hmagnitude
      exact ⟨View.infinite.inj h, hmagnitude⟩
    · contradiction
  · split at h <;> contradiction

/-- A pattern is its sign bit and the rest. -/
theorem toNat_bits (x : Number f) :
    x.bits.toNat = (if x.negative then twoTo (f.width - 1) else 0) + x.magnitude := by
  have hwidth := f.two_pow_width
  have hlt := x.bits.isLt
  unfold negative magnitude
  by_cases hsign : twoTo (f.width - 1) ≤ x.bits.toNat
  · rw [if_pos (decide_eq_true hsign), Nat.mod_eq_sub_mod hsign, Nat.mod_eq_of_lt (by omega)]
    omega
  · rw [if_neg (by simpa using hsign), Nat.mod_eq_of_lt (by omega), Nat.zero_add]

/-- A number is its sign and its pattern without sign. -/
theorem eq_of_magnitude_eq {x y : Number f} (hnegative : x.negative = y.negative)
    (hmagnitude : x.magnitude = y.magnitude) : x = y := by
  have hbits : x.bits.toNat = y.bits.toNat := by
    rw [toNat_bits, toNat_bits, hnegative, hmagnitude]
  obtain ⟨xbits⟩ := x
  obtain ⟨ybits⟩ := y
  exact congrArg Number.mk (BitVec.eq_of_toNat_eq hbits)

/-- Numbers with one view are equal, but for those that are none. -/
theorem eq_of_view_eq {x y : Number f} (h : x.view = y.view) (hnumber : x.view ≠ .notANumber) :
    x = y := by
  cases hview : x.view with
  | finite negative significand exponent =>
      obtain ⟨-, -, hsign, hmagnitude⟩ := canonical_of_view hview
      obtain ⟨-, -, hsign', hmagnitude'⟩ := canonical_of_view (h.symm.trans hview)
      exact eq_of_magnitude_eq (hsign.trans hsign'.symm) (hmagnitude.trans hmagnitude'.symm)
  | infinite negative =>
      obtain ⟨hsign, hmagnitude⟩ := magnitude_of_view_infinite hview
      obtain ⟨hsign', hmagnitude'⟩ := magnitude_of_view_infinite (h.symm.trans hview)
      exact eq_of_magnitude_eq (hsign.trans hsign'.symm) (hmagnitude.trans hmagnitude'.symm)
  | notANumber => exact absurd hview hnumber

end Number

end RigPack.Binary

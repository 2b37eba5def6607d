import RigPack.Binary.Arithmetic
import RigPack.Proofs.Binary.Pattern

/-!
# Numbers that are too large

A quotient that lies beyond the numbers of a format is rounded to infinity.  This file says
which quotients do: those from the middle between the greatest number and the power of two
above it on (`singleBound` for 32 bits).  The mark of a failed computation comes out of no
rounding, only out of operations on infinities and zeros.

## Main statements

* `Number.isFinite_ofRatio_iff`: which quotients stay finite in 32 bits.
* `Number.isFinite_convert_iff`: which numbers of 64 bits do.

## Strategy

The pattern of a rounded quotient is compared with that of infinity.  Of the exponents below
the greatest one, no significand reaches infinity, and of that one only a significand that is
rounded up to the next power of two does.  That power is even, so it is taken from the middle
between it and its neighbour on.
-/

namespace RigPack.Binary

variable {num den : ℕ}

/-- The least rational that is no finite number of 32 bits once it is rounded. -/
def singleBound : ℚ :=
  2 ^ 128 - 2 ^ 103

/-- The absolute value of a finite number. -/
def View.size? : View → Option ℚ
  | .finite _ significand exponent => some (significand * 2 ^ exponent)
  | _ => none

/-! ## The logarithm of a quotient -/

theorem two_zpow_le_div_iff (hden : 0 < den) (guess : ℤ) :
    den * twoTo guess.toNat ≤ num * twoTo (-guess).toNat ↔ (2 : ℚ) ^ guess ≤ num / den := by
  have hpos : (0 : ℚ) < 2 ^ (-guess).toNat := by positivity
  have hden' : (0 : ℚ) < den := Nat.cast_pos.2 hden
  have hcast (m n : ℕ) : m ≤ n ↔ (m : ℚ) ≤ n := Nat.cast_le.symm
  rw [hcast, Nat.cast_mul, Nat.cast_mul, cast_twoTo, cast_twoTo, pow_toNat two_ne_zero guess,
    ← mul_assoc, mul_le_mul_iff_left₀ hpos, le_div_iff₀ hden', mul_comm]

/-- The difference of the logarithms is at most one too large. -/
theorem two_zpow_sub_one_le_div (hnum : 0 < num) (hden : 0 < den) :
    (2 : ℚ) ^ ((Nat.log2 num : ℤ) - Nat.log2 den - 1) ≤ num / den := by
  have hnumlow : (2 : ℚ) ^ Nat.log2 num ≤ num := by
    exact_mod_cast Nat.log2_self_le hnum.ne'
  have hdenhigh : (den : ℚ) < 2 ^ (Nat.log2 den + 1) := by
    exact_mod_cast Nat.lt_log2_self
  rw [le_div_iff₀ (Nat.cast_pos.2 hden)]
  calc (2 : ℚ) ^ ((Nat.log2 num : ℤ) - Nat.log2 den - 1) * den
      ≤ 2 ^ ((Nat.log2 num : ℤ) - Nat.log2 den - 1) * 2 ^ (Nat.log2 den + 1) :=
        mul_le_mul_of_nonneg_left hdenhigh.le (by positivity)
    _ = 2 ^ Nat.log2 num := by
        rw [← zpow_natCast, ← zpow_natCast, ← zpow_add₀ two_ne_zero]
        congr 1
        push_cast
        ring
    _ ≤ num := hnumlow

/-- The difference of the logarithms is never too small. -/
theorem div_lt_two_zpow_add_one (num : ℕ) (hden : 0 < den) :
    (num / den : ℚ) < 2 ^ ((Nat.log2 num : ℤ) - Nat.log2 den + 1) := by
  have hnumhigh : (num : ℚ) < 2 ^ (Nat.log2 num + 1) := by
    exact_mod_cast Nat.lt_log2_self
  have hdenlow : (2 : ℚ) ^ Nat.log2 den ≤ den := by
    exact_mod_cast Nat.log2_self_le hden.ne'
  rw [div_lt_iff₀ (Nat.cast_pos.2 hden)]
  calc (num : ℚ) < 2 ^ (Nat.log2 num + 1) := hnumhigh
    _ = 2 ^ ((Nat.log2 num : ℤ) - Nat.log2 den + 1) * 2 ^ Nat.log2 den := by
        rw [← zpow_natCast, ← zpow_natCast, ← zpow_add₀ two_ne_zero]
        congr 1
        push_cast
        ring
    _ ≤ 2 ^ ((Nat.log2 num : ℤ) - Nat.log2 den + 1) * den :=
        mul_le_mul_of_nonneg_left hdenlow (by positivity)

/-- The logarithm of a quotient, rounded down. -/
theorem floorLog2_spec (hnum : 0 < num) (hden : 0 < den) :
    (2 : ℚ) ^ floorLog2 num den ≤ num / den ∧
      (num / den : ℚ) < 2 ^ (floorLog2 num den + 1) := by
  unfold floorLog2
  dsimp only
  split
  · rename_i hguess
    exact ⟨(two_zpow_le_div_iff hden _).1 hguess, div_lt_two_zpow_add_one num hden⟩
  · rename_i hguess
    rw [two_zpow_le_div_iff hden, not_le] at hguess
    refine ⟨two_zpow_sub_one_le_div hnum hden, ?_⟩
    rwa [sub_add_cancel]

/-! ## Rounding to natural numbers -/

section Quotient

variable {c : ℕ} (hden : 0 < den)

include hden

theorem le_roundQuotient (h : (c : ℚ) ≤ num / den) : c ≤ roundQuotient num den := by
  have hden' : (0 : ℚ) < den := Nat.cast_pos.2 hden
  rw [le_div_iff₀ hden'] at h
  have hmul : c * den ≤ num := by exact_mod_cast h
  have hfloor : c ≤ num / den := (Nat.le_div_iff_mul_le hden).2 hmul
  unfold roundQuotient
  dsimp only
  split
  · exact hfloor
  · split <;> omega

theorem roundQuotient_le (h : (num / den : ℚ) < c) : roundQuotient num den ≤ c := by
  have hden' : (0 : ℚ) < den := Nat.cast_pos.2 hden
  rw [div_lt_iff₀ hden'] at h
  have hmul : num < c * den := by exact_mod_cast h
  have hfloor : num / den < c := (Nat.div_lt_iff_lt_mul hden).2 hmul
  unfold roundQuotient
  dsimp only
  split
  · omega
  · split <;> omega

/-- An even number is reached from the middle below it on. -/
theorem roundQuotient_lt_iff (hc : c % 2 = 0) :
    roundQuotient num den < c ↔ (num / den : ℚ) < c - 1 / 2 := by
  have hden' : (0 : ℚ) < den := Nat.cast_pos.2 hden
  have hmiddle : (num / den : ℚ) < c - 1 / 2 ↔ 2 * num + den < 2 * (den * c) := by
    have hcast : 2 * num + den < 2 * (den * c) ↔ (2 * num + den : ℚ) < 2 * (den * c) := by
      exact_mod_cast Iff.rfl
    rw [hcast, div_lt_iff₀ hden']
    constructor
    · intro h
      linarith
    · intro h
      linarith
  have hdiv : den * (num / den) + num % den = num := Nat.div_add_mod num den
  have hmod : num % den < den := Nat.mod_lt num hden
  rw [hmiddle]
  unfold roundQuotient
  dsimp only
  generalize num / den = quotient at *
  generalize num % den = rest at *
  rcases Nat.lt_trichotomy (quotient + 1) c with hlt | rfl | hlt
  · -- the quotient lies more than one below
    have hprod : den * (quotient + 2) ≤ den * c := Nat.mul_le_mul_left den hlt
    rw [Nat.mul_add] at hprod
    refine iff_of_true ?_ (by omega)
    split
    · omega
    · split <;> omega
  · rw [Nat.mul_add]
    split
    · exact iff_of_true (by omega) (by omega)
    · split
      · exact iff_of_false (by omega) (by omega)
      · exact iff_of_false (by omega) (by omega)
  · have hprod : den * c ≤ den * quotient := Nat.mul_le_mul_left den (Nat.le_of_lt_succ hlt)
    refine iff_of_false ?_ (by omega)
    split
    · omega
    · split <;> omega

end Quotient

/-! ## Rounding to a format -/

theorem Format.roundMagnitude_le (f : Format) (num den : ℕ) :
    f.roundMagnitude num den ≤ f.infinity := by
  unfold roundMagnitude
  split
  · exact Nat.zero_le _
  · exact Nat.min_le_right _ _

/-- A quotient in another unit. -/
theorem div_in_unit (num den : ℕ) (unit : ℤ) :
    ((num * twoTo (-unit).toNat : ℕ) : ℚ) / (den * twoTo unit.toNat : ℕ)
      = num / den / 2 ^ unit := by
  have hpos : (2 : ℚ) ^ (-unit).toNat ≠ 0 := by positivity
  rw [Nat.cast_mul, Nat.cast_mul, cast_twoTo, cast_twoTo, pow_toNat two_ne_zero unit,
    ← mul_assoc, mul_div_mul_right _ _ hpos, div_div]

section Significand

variable (num) (hden : 0 < den) (unit : ℤ)

include hden

/-- A significand has at most 24 bits, unless it is rounded up. -/
theorem significand_le (h : (num / den : ℚ) < 2 ^ (unit + 24)) :
    roundQuotient (num * twoTo (-unit).toNat) (den * twoTo unit.toNat) ≤ 2 ^ 24 := by
  refine roundQuotient_le (Nat.mul_pos hden (twoTo_pos _)) ?_
  rw [div_in_unit, div_lt_iff₀ (by positivity)]
  calc (num / den : ℚ) < 2 ^ (unit + 24) := h
    _ = ((2 ^ 24 : ℕ) : ℚ) * 2 ^ unit := by
        rw [zpow_add₀ two_ne_zero]
        norm_num [mul_comm]

theorem le_significand (h : (2 : ℚ) ^ (unit + 23) ≤ num / den) :
    2 ^ 23 ≤ roundQuotient (num * twoTo (-unit).toNat) (den * twoTo unit.toNat) := by
  refine le_roundQuotient (Nat.mul_pos hden (twoTo_pos _)) ?_
  rw [div_in_unit, le_div_iff₀ (by positivity)]
  calc ((2 ^ 23 : ℕ) : ℚ) * 2 ^ unit = 2 ^ (unit + 23) := by
        rw [zpow_add₀ two_ne_zero]
        norm_num [mul_comm]
    _ ≤ num / den := h

/-- A significand is rounded up to the next power of two from the middle below it on. -/
theorem significand_lt_iff :
    roundQuotient (num * twoTo (-unit).toNat) (den * twoTo unit.toNat) < 2 ^ 24 ↔
      (num / den : ℚ) < (2 ^ 24 - 1 / 2) * 2 ^ unit := by
  rw [roundQuotient_lt_iff (Nat.mul_pos hden (twoTo_pos _)) (by decide), div_in_unit,
    div_lt_iff₀ (by positivity), Nat.cast_pow, Nat.cast_ofNat]

end Significand

/-- A quotient is rounded to infinity from the middle above the greatest number on. -/
theorem roundMagnitude_single_lt_iff (hden : 0 < den) :
    Format.single.roundMagnitude num den < Format.single.infinity ↔
      (num / den : ℚ) < singleBound := by
  have hbound : singleBound = (2 ^ 24 - 1 / 2) * 2 ^ (104 : ℤ) := by
    norm_num [singleBound]
  have hinfinity : Format.single.infinity = 255 * 2 ^ 23 := by decide
  have hleast : Format.single.leastExponent = -149 := by decide
  have hfraction : twoTo Format.single.fractionBits = 2 ^ 23 := rfl
  have hbits : (Format.single.fractionBits : ℤ) = 23 := rfl
  unfold Format.roundMagnitude
  split
  · rename_i hzero
    rw [hzero, Nat.cast_zero, zero_div]
    exact iff_of_true (by decide) (by norm_num [singleBound])
  · rename_i hnonzero
    obtain ⟨hlow, hhigh⟩ := floorLog2_spec (Nat.pos_of_ne_zero hnonzero) hden
    rw [hleast, hfraction, hinfinity, hbits]
    dsimp only
    generalize floorLog2 num den = log at *
    obtain ⟨unit, hunit⟩ : ∃ unit : ℤ, unit = max (log - 23) (-149) := ⟨_, rfl⟩
    rw [← hunit]
    have hsmall := significand_le num hden unit
      (hhigh.trans_le (zpow_le_zpow_right₀ (by norm_num) (by omega)))
    have hup := significand_lt_iff num hden unit
    have hlarge := le_significand num hden unit
    generalize roundQuotient (num * twoTo (-unit).toNat) (den * twoTo unit.toNat)
      = significand at *
    rcases lt_trichotomy log 127 with hlog | hlog | hlog
    · refine iff_of_true (by omega) ?_
      calc (num / den : ℚ) < 2 ^ (log + 1) := hhigh
        _ ≤ 2 ^ (127 : ℤ) := zpow_le_zpow_right₀ (by norm_num) (by omega)
        _ < singleBound := by norm_num [singleBound]
    · have htop : unit = 104 := by omega
      rw [htop, ← hbound] at hup
      rw [← hup]
      omega
    · have hfull := hlarge ((zpow_le_zpow_right₀ (by norm_num) (by omega)).trans hlow)
      refine iff_of_false (by omega) (not_lt.2 ?_)
      calc singleBound ≤ 2 ^ (128 : ℤ) := by norm_num [singleBound]
        _ ≤ 2 ^ log := zpow_le_zpow_right₀ (by norm_num) (by omega)
        _ ≤ num / den := hlow

/-! ## Views by magnitude -/

namespace Number

variable {f : Format}

theorem infinity_lt_twoTo (f : Format) : f.infinity < twoTo (f.width - 1) := by
  have hpos := twoTo_pos f.exponentBits
  rw [f.twoTo_width_sub_one]
  exact Nat.mul_lt_mul_of_pos_right (by omega) (twoTo_pos _)

/-- A number of a pattern has that pattern. -/
theorem magnitude_ofMagnitude {magnitude : ℕ} (h : magnitude < twoTo (f.width - 1))
    (negative : Bool) : (ofMagnitude negative magnitude : Number f).magnitude = magnitude := by
  unfold ofMagnitude Number.magnitude
  rw [BitVec.toNat_ofNat, f.two_pow_width, Nat.mod_mul_left_mod]
  cases negative with
  | true => rw [if_pos rfl, Nat.add_mod_left, Nat.mod_eq_of_lt h]
  | false => rw [if_neg Bool.false_ne_true, Nat.zero_add, Nat.mod_eq_of_lt h]

/-- Infinity is the least pattern with the greatest exponent field. -/
theorem magnitude_lt_iff (x : Number f) :
    x.magnitude < f.infinity ↔
      x.magnitude / twoTo f.fractionBits < twoTo f.exponentBits - 1 :=
  (Nat.div_lt_iff_lt_mul (twoTo_pos _)).symm

theorem isFinite_iff (x : Number f) : x.isFinite = true ↔ x.magnitude < f.infinity := by
  have hfield := x.magnitude_div_lt
  rw [magnitude_lt_iff]
  unfold isFinite view
  dsimp only
  generalize x.magnitude / twoTo f.fractionBits = field at *
  by_cases hlast : field = twoTo f.exponentBits - 1
  · rw [if_pos hlast]
    refine iff_of_false ?_ (by omega)
    by_cases hzero : x.magnitude % twoTo f.fractionBits = 0
    · rw [if_pos hzero]
      exact Bool.false_ne_true
    · rw [if_neg hzero]
      exact Bool.false_ne_true
  · rw [if_neg hlast]
    refine iff_of_true ?_ (by omega)
    by_cases hzero : field = 0
    · rw [if_pos hzero]
    · rw [if_neg hzero]

theorem view_ne_notANumber_iff (x : Number f) :
    x.view ≠ .notANumber ↔ x.magnitude ≤ f.infinity := by
  have hfield := x.magnitude_div_lt
  have hmagnitude := x.magnitude_eq
  have hlt := x.magnitude_lt_iff
  unfold view
  dsimp only
  generalize x.magnitude / twoTo f.fractionBits = field at *
  generalize x.magnitude % twoTo f.fractionBits = fraction at *
  by_cases hlast : field = twoTo f.exponentBits - 1
  · rw [if_pos hlast, hmagnitude, hlast]
    by_cases hzero : fraction = 0
    · rw [if_pos hzero, hzero]
      exact iff_of_true nofun le_rfl
    · rw [if_neg hzero]
      refine iff_of_false (fun h => h rfl) ?_
      unfold Format.infinity
      omega
  · rw [if_neg hlast]
    refine iff_of_true ?_ (hlt.2 (by omega)).le
    split <;> nofun

/-! ## What rounding yields -/

theorem magnitude_ofRatio (negative : Bool) (num den : ℕ) :
    (ofRatio negative num den : Number f).magnitude = f.roundMagnitude num den :=
  magnitude_ofMagnitude ((f.roundMagnitude_le num den).trans_lt (infinity_lt_twoTo f)) negative

theorem view_ofRatio_ne (negative : Bool) (num den : ℕ) :
    (ofRatio negative num den : Number f).view ≠ .notANumber := by
  rw [view_ne_notANumber_iff, magnitude_ofRatio]
  exact f.roundMagnitude_le num den

theorem view_infinite_ne (negative : Bool) :
    (ofMagnitude negative f.infinity : Number f).view ≠ .notANumber := by
  rw [view_ne_notANumber_iff, magnitude_ofMagnitude (infinity_lt_twoTo f)]

/-- A quotient stays finite in 32 bits exactly below the bound. -/
theorem isFinite_ofRatio_iff (negative : Bool) (num : ℕ) {den : ℕ} (hden : 0 < den) :
    (ofRatio negative num den : Single).isFinite = true ↔ (num / den : ℚ) < singleBound := by
  rw [isFinite_iff, magnitude_ofRatio, roundMagnitude_single_lt_iff hden]

theorem isFinite_ofInt_iff (n : ℤ) :
    (ofInt n : Single).isFinite = true ↔ (n.natAbs : ℚ) < singleBound := by
  rw [ofInt, isFinite_ofRatio_iff _ _ Nat.one_pos, Nat.cast_one, div_one]

/-- A number of 64 bits stays finite in 32 bits exactly if it is finite and below the bound. -/
theorem isFinite_convert_iff (x : Double) :
    (x.convert .single).isFinite = true ↔ ∃ size ∈ x.view.size?, size < singleBound := by
  unfold convert
  cases hview : x.view with
  | finite negative significand exponent =>
      have hratio : ((significand * twoTo exponent.toNat : ℕ) : ℚ)
          / (twoTo (-exponent).toNat : ℕ) = significand * 2 ^ exponent := by
        have hscaled := div_in_unit significand 1 (-exponent)
        rw [neg_neg, one_mul, Nat.cast_one, div_one, zpow_neg, div_inv_eq_mul] at hscaled
        exact hscaled
      dsimp only
      rw [isFinite_ofRatio_iff _ _ (twoTo_pos _), hratio]
      constructor
      · exact fun h => ⟨_, rfl, h⟩
      · rintro ⟨_, ⟨⟩, h⟩
        exact h
  | infinite negative =>
      refine iff_of_false ?_ nofun
      rw [isFinite_iff, magnitude_ofMagnitude (infinity_lt_twoTo _)]
      exact lt_irrefl _
  | notANumber =>
      refine iff_of_false ?_ nofun
      dsimp only
      rw [isFinite_iff, magnitude_ofMagnitude (by decide)]
      decide

theorem view_convert_ne {x : Double} (h : x.view ≠ .notANumber) :
    (x.convert .single).view ≠ .notANumber := by
  unfold convert
  cases hview : x.view with
  | finite negative significand exponent => exact view_ofRatio_ne _ _ _
  | infinite negative => exact view_infinite_ne negative
  | notANumber => exact absurd hview h

/-! ## What quotients yield -/

theorem view_ne_of_isFinite {x : Number f} (h : x.isFinite = true) : x.view ≠ .notANumber := by
  intro hview
  rw [isFinite, hview] at h
  contradiction

theorem isZero_of_view {x : Number f} {negative : Bool} {exponent : ℤ}
    (h : x.view = .finite negative 0 exponent) : x.isZero = true := by
  obtain ⟨hcanonical, -, -, hmagnitude⟩ := canonical_of_view h
  have hpos := twoTo_pos f.fractionBits
  have hleast : exponent = f.leastExponent := by
    rcases hcanonical.least.eq_or_lt with heq | hlt
    · exact heq.symm
    · exact absurd (hcanonical.full hlt) (by omega)
  rw [hleast, sub_self, Int.toNat_zero, Nat.zero_mul] at hmagnitude
  exact decide_eq_true hmagnitude

/-- A quotient by a finite number other than zero is not the mark of a failed computation. -/
theorem view_quotient_ne {x y : Number f} (hx : x.view ≠ .notANumber) (hy : y.isFinite = true)
    (hzero : y.isZero = false) : (x.quotient y).view ≠ .notANumber := by
  unfold quotient
  cases hview : y.view with
  | finite negative significand exponent =>
      have hsignificand : significand ≠ 0 := by
        rintro rfl
        rw [isZero_of_view hview] at hzero
        contradiction
      cases hview' : x.view with
      | finite negative' significand' exponent' =>
          dsimp only
          rw [if_neg hsignificand]
          exact view_ofRatio_ne _ _ _
      | infinite negative' => exact view_infinite_ne _
      | notANumber => exact absurd hview' hx
  | infinite negative =>
      rw [isFinite, hview] at hy
      contradiction
  | notANumber => exact absurd hview (view_ne_of_isFinite hy)

end Number

end RigPack.Binary

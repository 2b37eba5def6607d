import Mathlib.Algebra.Order.Field.Power
import Mathlib.Tactic.Linarith
import Mathlib.Tactic.Positivity
import Mathlib.Tactic.Ring
import RigPack.Binary.Text

/-!
# Numbers and the decimals that round to them

The decimal that is printed for a number lies in the interval of the reals that round to
that number.  The intervals of different numbers of a format do not meet, so the decimal
says which number it was printed for.

Interval and decimal are compared as rationals here: `Basin.Holds` is what `Basin.has`
decides once all powers are brought to one side.

## Main statements

* `shortest_holds`: the search for a shortest decimal ends with a hit.
* `Canonical.eq_of_holds`: no rational lies in the intervals of two numbers.

## Strategy

A grid that is no coarser than a quarter unit has a hit, as one of its points lies between
the lower end and the middle of the interval.  The last grid of the search is that fine,
since the first one is at most twenty times the power of two above the number, and a
significand has at most 53 bits.

Numbers are ordered by exponent first and by significand then.  Of two numbers with one
exponent the intervals meet at most in the half between, which belongs to the even one
alone; and the greatest significand of an exponent is odd, so its interval ends before that
of the next exponent, where the interval below the least significand is cut to a quarter.
-/

namespace RigPack.Binary

variable {f : Format} {tie : Tie} {significand other : ℕ} {exponent unit power k : ℤ} {q r : ℚ}

/-- The rational that a decimal stands for. -/
def Decimal.value (d : Decimal) : ℚ :=
  d.digits * 10 ^ d.exponent

/-- Whether a rational lies in an interval that is counted in `2 ^ unit`. -/
def Basin.Holds (basin : Basin) (unit : ℤ) (q : ℚ) : Prop :=
  if basin.closed then basin.low * 2 ^ unit ≤ q ∧ q ≤ basin.high * 2 ^ unit
  else basin.low * 2 ^ unit < q ∧ q < basin.high * 2 ^ unit

/-! ## Powers -/

theorem pow_toNat {b : ℚ} (hb : b ≠ 0) (n : ℤ) : b ^ n.toNat = b ^ n * b ^ (-n).toNat := by
  rw [← zpow_natCast, ← zpow_natCast, ← zpow_add₀ hb]
  congr 1
  omega

theorem cast_twoTo (n : ℕ) : (twoTo n : ℚ) = 2 ^ n :=
  Nat.cast_pow 2 n

theorem cast_tenTo (n : ℕ) : (tenTo n : ℚ) = 10 ^ n :=
  Nat.cast_pow 10 n

/-- The factor by which both sides of a comparison are multiplied to make them natural. -/
def cleared (unit k : ℤ) : ℚ :=
  2 ^ (-unit).toNat * 10 ^ (-k).toNat

theorem cleared_pos (unit k : ℤ) : 0 < cleared unit k := by
  unfold cleared
  positivity

theorem cast_mul_binary (n : ℕ) (unit k : ℤ) :
    ((n * (twoTo unit.toNat * tenTo (-k).toNat) : ℕ) : ℚ) = n * 2 ^ unit * cleared unit k := by
  rw [cleared, Nat.cast_mul, Nat.cast_mul, cast_twoTo, cast_tenTo, pow_toNat two_ne_zero unit]
  ring

theorem cast_mul_decimal (n : ℕ) (unit k : ℤ) :
    ((n * (twoTo (-unit).toNat * tenTo k.toNat) : ℕ) : ℚ) = n * 10 ^ k * cleared unit k := by
  rw [cleared, Nat.cast_mul, Nat.cast_mul, cast_twoTo, cast_tenTo, pow_toNat (by norm_num) k]
  ring

/-- The decimal power that the search starts from is at most twice the binary one. -/
theorem ten_zpow_estimate_le {b : ℤ} (hlow : -1100 ≤ b) (hhigh : b ≤ 1100) :
    (10 : ℚ) ^ (b * 30103 / 100000) ≤ 2 ^ (b + 1) := by
  have hpowers : ∀ n < 1101, tenTo (n * 30103 / 100000) ≤ twoTo (n + 1) ∧
      twoTo n ≤ 2 * tenTo ((n * 30103 + 99999) / 100000) := by
    decide +kernel
  obtain ⟨n, rfl | rfl⟩ := Int.eq_nat_or_neg b
  · have hpower := (hpowers n (by omega)).1
    have hcast : ((tenTo (n * 30103 / 100000) : ℕ) : ℚ) ≤ (twoTo (n + 1) : ℕ) :=
      Nat.cast_le.2 hpower
    rw [cast_tenTo, cast_twoTo] at hcast
    exact_mod_cast hcast
  · have hpower := (hpowers n (by omega)).2
    have hcast : ((twoTo n : ℕ) : ℚ) ≤ ((2 * tenTo ((n * 30103 + 99999) / 100000) : ℕ) : ℚ) :=
      Nat.cast_le.2 hpower
    rw [Nat.cast_mul, cast_twoTo, cast_tenTo] at hcast
    have hfloor : -(n : ℤ) * 30103 / 100000 = -(((n * 30103 + 99999) / 100000 : ℕ) : ℤ) := by
      omega
    rw [hfloor, zpow_neg, zpow_add₀ two_ne_zero, zpow_neg, zpow_natCast, zpow_natCast, zpow_one,
      inv_le_iff_one_le_mul₀ (by positivity), mul_assoc, inv_mul_eq_div,
      one_le_div (by positivity)]
    exact_mod_cast hcast

/-! ## Hits of the search -/

theorem Basin.has_times_iff {basin : Basin} {digits : ℕ} :
    (basin.times (twoTo unit.toNat * tenTo (-k).toNat)).has
        (digits * (twoTo (-unit).toNat * tenTo k.toNat)) = true ↔
      basin.Holds unit (digits * 10 ^ k) := by
  have hpos := cleared_pos unit k
  have hle (m n : ℕ) : m ≤ n ↔ (m : ℚ) ≤ n := Nat.cast_le.symm
  have hlt (m n : ℕ) : m < n ↔ (m : ℚ) < n := Nat.cast_lt.symm
  unfold has times Holds
  dsimp only
  split
  · rw [Bool.and_eq_true, decide_eq_true_iff, decide_eq_true_iff, hle, hle, cast_mul_binary,
      cast_mul_binary, cast_mul_decimal, mul_le_mul_iff_left₀ hpos, mul_le_mul_iff_left₀ hpos]
  · rw [Bool.and_eq_true, decide_eq_true_iff, decide_eq_true_iff, hlt, hlt, cast_mul_binary,
      cast_mul_binary, cast_mul_decimal, mul_lt_mul_iff_left₀ hpos, mul_lt_mul_iff_left₀ hpos]

theorem Tie.pick_eq (tie : Tie) (d toLower toUpper : ℕ) :
    tie.pick d toLower toUpper = d ∨ tie.pick d toLower toUpper = d + 1 := by
  unfold pick
  split
  · exact .inl rfl
  · split
    · exact .inr rfl
    · cases tie with
      | up => exact .inr rfl
      | even =>
          dsimp only
          omega

theorem Basin.has_of_nearest? {basin : Basin} {step digits : ℕ}
    (h : basin.nearest? tie step = some digits) : basin.has (digits * step) = true := by
  unfold nearest? at h
  dsimp only at h
  split at h <;> rename_i hlower hupper
  · have hdigits := Option.some.inj h
    rcases tie.pick_eq (basin.middle / step) (basin.middle - basin.middle / step * step)
      ((basin.middle / step + 1) * step - basin.middle) with hpick | hpick
    · rw [← hdigits, hpick]
      exact hlower
    · rw [← hdigits, hpick]
      exact hupper
  · rw [← Option.some.inj h]
    exact hlower
  · rw [← Option.some.inj h]
    exact hupper
  · contradiction

/-- Steps that do not leap over the lower half of an interval hit it. -/
theorem Basin.isSome_nearest? {basin : Basin} {step : ℕ} (hstep : 0 < step)
    (hlow : basin.low + step ≤ basin.middle) (hhigh : basin.middle < basin.high) :
    (basin.nearest? tie step).isSome = true := by
  have hdiv : basin.middle / step * step ≤ basin.middle := Nat.div_mul_le_self _ _
  have hmod : basin.middle < basin.middle / step * step + step :=
    Nat.lt_div_mul_add hstep
  have hlower : basin.has (basin.middle / step * step) = true := by
    unfold has
    split
    · rw [Bool.and_eq_true, decide_eq_true_iff, decide_eq_true_iff]
      omega
    · rw [Bool.and_eq_true, decide_eq_true_iff, decide_eq_true_iff]
      omega
  unfold nearest?
  dsimp only
  rw [hlower]
  cases basin.has ((basin.middle / step + 1) * step) <;> rfl

theorem Basin.low_lt_middle (f : Format) (hpos : 0 < significand) (exponent : ℤ) :
    (Basin.of f significand exponent).low < 4 * significand := by
  unfold of
  dsimp only
  split <;> omega

/-- What is found on a grid lies in the interval. -/
theorem holds_of_onGrid? {digits : ℕ} (h : onGrid? f tie significand exponent k = some digits) :
    (Basin.of f significand exponent).Holds (exponent - 2) (digits * 10 ^ k) :=
  Basin.has_times_iff.1 (Basin.has_of_nearest? h)

/-- Something is found on a grid that is no coarser than a quarter unit. -/
theorem isSome_onGrid? (hpos : 0 < significand) (hk : (10 : ℚ) ^ k ≤ 2 ^ (exponent - 2)) :
    (onGrid? f tie significand exponent k).isSome = true := by
  have hstep : 0 < twoTo (-(exponent - 2)).toNat * tenTo k.toNat :=
    Nat.mul_pos (twoTo_pos _) (tenTo_pos _)
  have hfactor : 0 < twoTo (exponent - 2).toNat * tenTo (-k).toNat :=
    Nat.mul_pos (twoTo_pos _) (tenTo_pos _)
  have hle : 1 * (twoTo (-(exponent - 2)).toNat * tenTo k.toNat)
      ≤ 1 * (twoTo (exponent - 2).toNat * tenTo (-k).toNat) := by
    refine Nat.cast_le.1 (?_ : (_ : ℚ) ≤ _)
    rw [cast_mul_binary, cast_mul_decimal, mul_le_mul_iff_left₀ (cleared_pos _ _)]
    simpa using hk
  have hlow := Basin.low_lt_middle f hpos exponent
  refine Basin.isSome_nearest? hstep ?_ ?_
  · -- the lower half is at least one quarter unit wide
    calc (Basin.of f significand exponent).low * (twoTo (exponent - 2).toNat * tenTo (-k).toNat)
          + twoTo (-(exponent - 2)).toNat * tenTo k.toNat
        ≤ ((Basin.of f significand exponent).low + 1)
            * (twoTo (exponent - 2).toNat * tenTo (-k).toNat) := by
          rw [Nat.add_mul]
          omega
      _ ≤ 4 * significand * (twoTo (exponent - 2).toNat * tenTo (-k).toNat) :=
          Nat.mul_le_mul_right _ hlow
  · exact Nat.mul_lt_mul_of_pos_right (by simp [Basin.of]) hfactor

/-- A search that reaches a fine grid ends with a hit. -/
theorem firstHit_holds (hpos : 0 < significand) {grids : ℕ}
    (hk : (10 : ℚ) ^ (k - grids) ≤ 2 ^ (exponent - 2)) :
    (Basin.of f significand exponent).Holds (exponent - 2)
      (firstHit f tie significand exponent (grids + 1) k).value := by
  induction grids generalizing k with
  | zero =>
      have hsome : (onGrid? f tie significand exponent k).isSome = true :=
        isSome_onGrid? hpos (by simpa using hk)
      obtain ⟨digits, hdigits⟩ := Option.isSome_iff_exists.1 hsome
      rw [firstHit, hdigits]
      exact holds_of_onGrid? hdigits
  | succ grids ih =>
      rw [firstHit]
      cases hdigits : onGrid? f tie significand exponent k with
      | some digits => exact holds_of_onGrid? hdigits
      | none =>
          refine ih ?_
          rw [sub_sub, add_comm 1]
          exact_mod_cast hk

/-- The shortest decimal lies in the interval of its number. -/
theorem shortest_holds (f : Format) (tie : Tie) (hpos : 0 < significand)
    (hsignificand : significand < 2 ^ 53) (hlow : -1074 ≤ exponent) (hhigh : exponent < 1024) :
    (Basin.of f significand exponent).Holds (exponent - 2)
      (shortest f tie significand exponent).value := by
  have hlog : Nat.log2 significand < 53 := (Nat.log2_lt hpos.ne').2 hsignificand
  refine firstHit_holds hpos ?_
  set binary : ℤ := Nat.log2 significand + exponent + 1 with hbinary
  have hestimate := ten_zpow_estimate_le (b := binary) (by omega) (by omega)
  calc (10 : ℚ) ^ (binary * 30103 / 100000 + 1 - (19 : ℕ))
      = 10 ^ (binary * 30103 / 100000) * 10 ^ (-18 : ℤ) := by
        rw [← zpow_add₀ (by norm_num)]
        congr 1
        push_cast
        ring
    _ ≤ 2 ^ (binary + 1) * 2 ^ (-59 : ℤ) := by
        refine mul_le_mul hestimate (by norm_num) (by positivity) (by positivity)
    _ = 2 ^ (binary + 1 - 59) := by
        rw [← zpow_add₀ two_ne_zero, sub_eq_add_neg]
    _ ≤ 2 ^ (exponent - 2) := zpow_le_zpow_right₀ (by norm_num) (by omega)

/-! ## Intervals of different numbers -/

/-- Whether a significand and an exponent are those of a number of the format. -/
structure Canonical (f : Format) (significand : ℕ) (exponent : ℤ) : Prop where
  lt : significand < 2 * twoTo f.fractionBits
  least : f.leastExponent ≤ exponent
  /-- Only next to zero the significand may be short. -/
  full : f.leastExponent < exponent → twoTo f.fractionBits ≤ significand

theorem Basin.Holds.le {basin : Basin} (h : basin.Holds unit q) :
    basin.low * 2 ^ unit ≤ q ∧ q ≤ basin.high * 2 ^ unit := by
  unfold Holds at h
  split at h
  · exact h
  · exact ⟨h.1.le, h.2.le⟩

/-- Two intervals that at most touch do not meet if one of them is open. -/
theorem Basin.Holds.lt_of_high_le {basin basin' : Basin} (hq : basin.Holds unit q)
    (hr : basin'.Holds power r) (hends : (basin.high * 2 ^ unit : ℚ) ≤ basin'.low * 2 ^ power)
    (hopen : basin.closed = false ∨ basin'.closed = false) : q < r := by
  have hle := hq.le.2
  have hle' := hr.le.1
  rcases hopen with hopen | hopen
  · rw [Holds, hopen] at hq
    exact (hq.2.trans_le hends).trans_le hle'
  · rw [Holds, hopen] at hr
    exact (hle.trans hends).trans_lt hr.1

theorem Basin.Holds.lt_of_high_lt {basin basin' : Basin} (hq : basin.Holds unit q)
    (hr : basin'.Holds power r) (hends : (basin.high * 2 ^ unit : ℚ) < basin'.low * 2 ^ power) :
    q < r :=
  (hq.le.2.trans_lt hends).trans_le hr.le.1

/-- The interval of a number lies below that of any number of a greater significand. -/
theorem Canonical.lt_of_significand_lt (h : Canonical f significand exponent)
    (hlt : significand < other)
    (hq : (Basin.of f significand exponent).Holds (exponent - 2) q)
    (hr : (Basin.of f other exponent).Holds (exponent - 2) r) : q < r := by
  have hunit : (0 : ℚ) < 2 ^ (exponent - 2) := by positivity
  have hlow : (Basin.of f other exponent).low = 4 * other - 2 := by
    refine if_neg fun ⟨hother, hexponent⟩ => ?_
    have hfull := h.full hexponent
    omega
  have hhigh : (Basin.of f significand exponent).high = 4 * significand + 2 := rfl
  rcases Nat.lt_or_ge (4 * significand + 2) (4 * other - 2) with hends | hends
  · refine hq.lt_of_high_lt hr ?_
    rw [hlow, hhigh]
    exact mul_lt_mul_of_pos_right (Nat.cast_lt.2 hends) hunit
  · -- the numbers are neighbours, and one of two neighbours is odd
    have hnext : other = significand + 1 := by omega
    have hopen : (Basin.of f significand exponent).closed = false ∨
        (Basin.of f other exponent).closed = false := by
      simp only [Basin.of, decide_eq_false_iff_not]
      omega
    refine hq.lt_of_high_le hr ?_ hopen
    rw [hlow, hhigh]
    exact mul_le_mul_of_nonneg_right (Nat.cast_le.2 (by omega)) hunit.le

/-- The interval of a number lies below that of any number of a greater exponent. -/
theorem Canonical.lt_of_exponent_lt (h : Canonical f significand exponent)
    (h' : Canonical f other power) (hlt : exponent < power)
    (hq : (Basin.of f significand exponent).Holds (exponent - 2) q)
    (hr : (Basin.of f other power).Holds (power - 2) r) : q < r := by
  have hunit : (0 : ℚ) < 2 ^ (exponent - 2) := by positivity
  have hfull := h'.full (h.least.trans_lt hlt)
  have hsmall := h.lt
  have hpos := twoTo_pos f.fractionBits
  -- the lower end of the greater exponent, in units of the smaller one
  have hlow : 4 * twoTo f.fractionBits - 1 ≤ (Basin.of f other power).low := by
    unfold Basin.of
    dsimp only
    split
    · omega
    · rename_i hne
      have hpower := h.least.trans_lt hlt
      have : other ≠ twoTo f.fractionBits := fun heq => hne ⟨heq, hpower⟩
      omega
  have hends : (((8 * twoTo f.fractionBits - 2 : ℕ) : ℚ) * 2 ^ (exponent - 2))
      ≤ (Basin.of f other power).low * 2 ^ (power - 2) := by
    calc (((8 * twoTo f.fractionBits - 2 : ℕ) : ℚ) * 2 ^ (exponent - 2))
        = ((4 * twoTo f.fractionBits - 1 : ℕ) : ℚ) * 2 ^ (exponent - 1) := by
          have hdouble : 8 * twoTo f.fractionBits - 2 = 2 * (4 * twoTo f.fractionBits - 1) := by
            omega
          have hexponent : exponent - 1 = exponent - 2 + 1 := by ring
          rw [hdouble, hexponent, zpow_add_one₀ two_ne_zero, Nat.cast_mul, Nat.cast_ofNat]
          ring
      _ ≤ (Basin.of f other power).low * 2 ^ (power - 2) := by
          refine mul_le_mul (Nat.cast_le.2 hlow) ?_ (by positivity) (by positivity)
          exact zpow_le_zpow_right₀ (by norm_num) (by omega)
  have hhigh : (Basin.of f significand exponent).high = 4 * significand + 2 := rfl
  rcases Nat.lt_or_ge (4 * significand + 2) (8 * twoTo f.fractionBits - 2) with hcase | hcase
  · refine hq.lt_of_high_lt hr (lt_of_lt_of_le ?_ hends)
    rw [hhigh]
    exact mul_lt_mul_of_pos_right (Nat.cast_lt.2 hcase) hunit
  · -- the greatest significand is odd
    have hopen : (Basin.of f significand exponent).closed = false := by
      simp only [Basin.of, decide_eq_false_iff_not]
      omega
    refine hq.lt_of_high_le hr (le_trans ?_ hends) (.inl hopen)
    rw [hhigh]
    exact mul_le_mul_of_nonneg_right (Nat.cast_le.2 (by omega)) hunit.le

/-- A rational lies in the interval of one number only. -/
theorem Canonical.eq_of_holds (h : Canonical f significand exponent)
    (h' : Canonical f other power)
    (hq : (Basin.of f significand exponent).Holds (exponent - 2) q)
    (hq' : (Basin.of f other power).Holds (power - 2) q) :
    significand = other ∧ exponent = power := by
  rcases lt_trichotomy exponent power with hlt | rfl | hlt
  · exact absurd (h.lt_of_exponent_lt h' hlt hq hq') (lt_irrefl q)
  · rcases lt_trichotomy significand other with hlt | rfl | hlt
    · exact absurd (h.lt_of_significand_lt hlt hq hq') (lt_irrefl q)
    · exact ⟨rfl, rfl⟩
    · exact absurd (h'.lt_of_significand_lt hlt hq' hq) (lt_irrefl q)
  · exact absurd (h'.lt_of_exponent_lt h hlt hq' hq) (lt_irrefl q)

end RigPack.Binary

import RigPack.Proofs.Binary.Literal
import RigPack.Proofs.Binary.Overflow

/-!
# Numbers, read back from their text

Commands hold the shortest decimal that tells a number of 32 bits from all others.  Whoever
reads it takes the nearest number, and so gets the number back that was written
(`Number.read?_chars`).

## Main statements

* `Canonical.exists_of_roundMagnitude`: a quotient is rounded to a number whose interval holds
  the quotient.
* `Number.read?_chars`: a number is read back from its text; the marks of failed computations
  share one text, and become one mark.

## Strategy

Of two numbers only one has an interval that holds a given quotient (`Canonical.eq_of_holds`).
So it is enough to find the quotient in the interval of the number that it is rounded to, be
it of the same exponent or, if the significand is rounded up to a power of two, of the next.
-/

namespace RigPack.Binary

variable {f : Format} {num den : ℕ}

/-! ## The interval of a rounded quotient -/

/-- A quotient lies at most a half from what it is rounded to, and closer if that is odd. -/
theorem roundQuotient_near (num : ℕ) (hden : 0 < den) :
    (roundQuotient num den - 1 / 2 : ℚ) ≤ num / den ∧
      (num / den : ℚ) ≤ roundQuotient num den + 1 / 2 ∧
      (roundQuotient num den % 2 = 1 →
        (roundQuotient num den - 1 / 2 : ℚ) < num / den ∧
        (num / den : ℚ) < roundQuotient num den + 1 / 2) := by
  have hden' : (0 : ℚ) < den := Nat.cast_pos.2 hden
  have hdiv : den * (num / den) + num % den = num := Nat.div_add_mod num den
  have hmod : num % den < den := Nat.mod_lt num hden
  obtain ⟨s, hs⟩ : ∃ s, s = roundQuotient num den := ⟨_, rfl⟩
  -- without the division, all is a matter of natural numbers
  have hnear : 2 * (s * den) ≤ 2 * num + den ∧ 2 * num ≤ 2 * (s * den) + den ∧
      (s % 2 = 1 → 2 * (s * den) < 2 * num + den ∧ 2 * num < 2 * (s * den) + den) := by
    unfold roundQuotient at hs
    dsimp only at hs
    generalize num / den = quotient at *
    generalize num % den = rest at *
    have hnext : (quotient + 1) * den = den * quotient + den := by ring
    have hsame : quotient * den = den * quotient := by ring
    split at hs
    · rw [hs, hsame]
      omega
    · split at hs
      · rw [hs, hnext]
        omega
      · rcases Nat.mod_two_eq_zero_or_one quotient with heven | hodd
        · rw [hs, heven, Nat.add_zero, hsame]
          omega
        · rw [hs, hodd, hnext]
          omega
  have hcast : (2 * (s * den) : ℚ) ≤ 2 * num + den ∧ (2 * num : ℚ) ≤ 2 * (s * den) + den ∧
      (s % 2 = 1 → (2 * (s * den) : ℚ) < 2 * num + den ∧ (2 * num : ℚ) < 2 * (s * den) + den) := by
    exact_mod_cast hnear
  rw [← hs, le_div_iff₀ hden', div_le_iff₀ hden', lt_div_iff₀ hden', div_lt_iff₀ hden']
  obtain ⟨hlow, hhigh, hodd⟩ := hcast
  refine ⟨by linarith, by linarith, fun h => ?_⟩
  obtain ⟨hlow, hhigh⟩ := hodd h
  exact ⟨by linarith, by linarith⟩

/-- A rational lies in an interval if it does so once it is counted in the unit of that. -/
theorem Basin.holds_of_counted {basin : Basin} {unit : ℤ} {r : ℚ} (hlow : basin.low ≤ r)
    (hhigh : r ≤ basin.high) (hopen : basin.closed = false → basin.low < r ∧ r < basin.high) :
    basin.Holds unit (r * 2 ^ unit) := by
  have hpos : (0 : ℚ) < 2 ^ unit := by positivity
  unfold Holds
  split
  · exact ⟨mul_le_mul_of_nonneg_right hlow hpos.le, mul_le_mul_of_nonneg_right hhigh hpos.le⟩
  · rename_i hclosed
    obtain ⟨hlow, hhigh⟩ := hopen (by simpa using hclosed)
    exact ⟨mul_lt_mul_of_pos_right hlow hpos, mul_lt_mul_of_pos_right hhigh hpos⟩

/-- The lower end of an interval, in quarters, lies at most two below the number. -/
theorem Basin.low_cases (f : Format) (significand : ℕ) (exponent : ℤ) :
    ((Basin.of f significand exponent).low = 4 * significand - 1 ∧
        significand = twoTo f.fractionBits ∧ f.leastExponent < exponent) ∨
      (Basin.of f significand exponent).low = 4 * significand - 2 := by
  unfold of
  dsimp only
  split
  · rename_i h
    exact .inl ⟨rfl, h⟩
  · exact .inr rfl

section Near

variable {unit : ℤ} {s : ℕ} {r : ℚ}

/-- What is nearest to a significand lies in the interval of the number. -/
theorem Basin.holds_of_near (hpos : 0 < r)
    (hfull : f.leastExponent < unit → (twoTo f.fractionBits : ℚ) ≤ r)
    (hlow : (s - 1 / 2 : ℚ) ≤ r) (hhigh : r ≤ (s + 1 / 2 : ℚ))
    (hodd : s % 2 = 1 → (s - 1 / 2 : ℚ) < r ∧ r < (s + 1 / 2 : ℚ)) :
    (Basin.of f s unit).Holds (unit - 2) (r * 2 ^ unit) := by
  have hcount : r * 2 ^ unit = 4 * r * 2 ^ (unit - 2) := by
    rw [zpow_sub₀ two_ne_zero]
    norm_num
    ring
  have hhigh_eq : ((Basin.of f s unit).high : ℚ) = 4 * s + 2 := by
    norm_num [Basin.of]
  rw [hcount]
  refine holds_of_counted ?_ (by linarith) fun hopen => ?_
  · rcases low_cases f s unit with ⟨hend, hs, hunit⟩ | hend
    · have hs' : (s : ℚ) ≤ r := hs ▸ hfull hunit
      have hcast : ((4 * s - 1 : ℕ) : ℚ) ≤ 4 * s := by exact_mod_cast Nat.sub_le _ _
      rw [hend]
      linarith
    · rw [hend]
      rcases Nat.eq_zero_or_pos s with rfl | hs
      · norm_num
        linarith
      · rw [Nat.cast_sub (by omega)]
        push_cast
        linarith
  · have hs : s % 2 = 1 := by simpa [Basin.of] using hopen
    obtain ⟨hlow, hhigh⟩ := hodd hs
    refine ⟨?_, by linarith⟩
    rcases low_cases f s unit with ⟨hend, hs', hunit⟩ | hend
    · have hs'' : (s : ℚ) ≤ r := hs' ▸ hfull hunit
      rw [hend, Nat.cast_sub (by omega)]
      push_cast
      linarith
    · rw [hend, Nat.cast_sub (by omega)]
      push_cast
      linarith

/-- What is rounded up to the next power of two lies in the interval of that power, with the
significand halved. -/
theorem Basin.holds_of_carry (hfraction : 0 < f.fractionBits) (hleast : f.leastExponent ≤ unit)
    (hlow : (2 * twoTo f.fractionBits - 1 / 2 : ℚ) ≤ r) (hhigh : r < 2 * twoTo f.fractionBits) :
    (Basin.of f (twoTo f.fractionBits) (unit + 1)).Holds (unit + 1 - 2) (r * 2 ^ unit) := by
  have hcount : r * 2 ^ unit = 2 * r * 2 ^ (unit + 1 - 2) := by
    have hunit : unit + 1 - 2 = unit - 1 := by ring
    rw [hunit, zpow_sub₀ two_ne_zero]
    norm_num
    ring
  have hclosed : (Basin.of f (twoTo f.fractionBits) (unit + 1)).closed = true := by
    obtain ⟨bits, hbits⟩ := Nat.exists_eq_succ_of_ne_zero hfraction.ne'
    rw [hbits, twoTo_succ]
    simp [Basin.of]
  have hlow_eq : (Basin.of f (twoTo f.fractionBits) (unit + 1)).low
      = 4 * twoTo f.fractionBits - 1 := if_pos ⟨rfl, by omega⟩
  have hhigh_eq : ((Basin.of f (twoTo f.fractionBits) (unit + 1)).high : ℚ)
      = 4 * twoTo f.fractionBits + 2 := by
    norm_num [Basin.of]
  have hpos := twoTo_pos f.fractionBits
  rw [hcount]
  refine holds_of_counted ?_ (by linarith) fun hopen => ?_
  · rw [hlow_eq, Nat.cast_sub (by omega)]
    push_cast
    linarith
  · rw [hclosed] at hopen
    contradiction

end Near

section Counted

variable {log unit : ℤ} {bits : ℕ} {r : ℚ}

theorem cast_twoTo_mul_zpow (bits : ℕ) (unit : ℤ) :
    (twoTo bits : ℚ) * 2 ^ unit = 2 ^ (bits + unit) := by
  rw [cast_twoTo, ← zpow_natCast, ← zpow_add₀ two_ne_zero]

/-- A rational that is counted in a unit has no more bits than there are above the unit. -/
theorem counted_lt (h : r * 2 ^ unit < 2 ^ (log + 1)) (hlog : log ≤ bits + unit) :
    r < (2 * twoTo bits : ℕ) := by
  have hpos : (0 : ℚ) < 2 ^ unit := by positivity
  refine lt_of_mul_lt_mul_right ?_ hpos.le
  calc r * 2 ^ unit < 2 ^ (log + 1) := h
    _ ≤ 2 ^ (bits + unit + 1) := zpow_le_zpow_right₀ (by norm_num) (by omega)
    _ = (2 * twoTo bits : ℕ) * 2 ^ unit := by
        rw [zpow_add_one₀ two_ne_zero, ← cast_twoTo_mul_zpow]
        push_cast
        ring

/-- A rational that is counted in a unit has all the bits above the unit. -/
theorem le_counted (h : (2 : ℚ) ^ log ≤ r * 2 ^ unit) (hlog : bits + unit ≤ log) :
    (twoTo bits : ℚ) ≤ r := by
  have hpos : (0 : ℚ) < 2 ^ unit := by positivity
  refine le_of_mul_le_mul_right ?_ hpos
  calc (twoTo bits : ℚ) * 2 ^ unit = 2 ^ (bits + unit) := cast_twoTo_mul_zpow bits unit
    _ ≤ 2 ^ log := zpow_le_zpow_right₀ (by norm_num) hlog
    _ ≤ r * 2 ^ unit := h

end Counted

/-- A quotient is rounded to a number whose interval holds the quotient; the pattern of that
number is the one that rounding computes. -/
theorem Canonical.exists_of_roundMagnitude (hfraction : 0 < f.fractionBits) (hnum : 0 < num)
    (hden : 0 < den) :
    ∃ significand exponent, Canonical f significand exponent ∧
      (Basin.of f significand exponent).Holds (exponent - 2) (num / den) ∧
      f.roundMagnitude num den
        = min ((exponent - f.leastExponent).toNat * twoTo f.fractionBits + significand)
            f.infinity := by
  have hpos : (0 : ℚ) < num / den := div_pos (Nat.cast_pos.2 hnum) (Nat.cast_pos.2 hden)
  obtain ⟨hlog, hlog'⟩ := floorLog2_spec hnum hden
  unfold Format.roundMagnitude
  rw [if_neg hnum.ne']
  generalize floorLog2 num den = log at *
  obtain ⟨unit, hunit⟩ : ∃ unit, unit = max (log - f.fractionBits) f.leastExponent := ⟨_, rfl⟩
  have hleast : f.leastExponent ≤ unit := hunit ▸ le_max_right _ _
  rw [← hunit]
  dsimp only
  -- the quotient, counted in the unit of its last bit
  obtain ⟨r, hr⟩ : ∃ r : ℚ, num / den = r * 2 ^ unit :=
    ⟨num / den / 2 ^ unit, (div_mul_cancel₀ _ (by positivity)).symm⟩
  have hunit_pos : (0 : ℚ) < 2 ^ unit := by positivity
  have hpos_r : 0 < r := by
    rwa [hr, mul_pos_iff_of_pos_right hunit_pos] at hpos
  have hratio : ((num * twoTo (-unit).toNat : ℕ) : ℚ) / (den * twoTo unit.toNat : ℕ) = r := by
    rw [div_in_unit, hr, mul_div_cancel_right₀ _ hunit_pos.ne']
  have hbits := twoTo_pos f.fractionBits
  have hbelow : r < (2 * twoTo f.fractionBits : ℕ) := counted_lt (hr ▸ hlog') (by omega)
  have hfull : f.leastExponent < unit → (twoTo f.fractionBits : ℚ) ≤ r := fun habove =>
    le_counted (hr ▸ hlog) (by omega)
  have hunit_den : 0 < den * twoTo unit.toNat := Nat.mul_pos hden (twoTo_pos _)
  have hnear := roundQuotient_near (num * twoTo (-unit).toNat) hunit_den
  have hle := roundQuotient_le hunit_den (hratio ▸ hbelow)
  have hge := fun h => le_roundQuotient hunit_den (hratio ▸ hfull h)
  rw [hratio] at hnear
  obtain ⟨hlow, hhigh, hodd⟩ := hnear
  generalize roundQuotient (num * twoTo (-unit).toNat) (den * twoTo unit.toNat) = s at *
  push_cast at hbelow
  rw [hr]
  rcases hle.lt_or_eq with hlt | rfl
  · exact ⟨s, unit, ⟨hlt, hleast, hge⟩, Basin.holds_of_near hpos_r hfull hlow hhigh hodd, rfl⟩
  · push_cast at hlow
    refine ⟨twoTo f.fractionBits, unit + 1, ⟨by omega, by omega, fun _ => le_rfl⟩,
      Basin.holds_of_carry hfraction hleast hlow hbelow, ?_⟩
    have hnext : (unit + 1 - f.leastExponent).toNat = (unit - f.leastExponent).toNat + 1 := by
      omega
    rw [hnext]
    congr 1
    ring

/-- Everything up to half of the least number lies in the interval of zero. -/
theorem Basin.zero_holds (f : Format) {q : ℚ} (hpos : 0 ≤ q) (hle : q ≤ 2 ^ (f.leastExponent - 1)) :
    (Basin.of f 0 f.leastExponent).Holds (f.leastExponent - 2) q := by
  have hclosed : (Basin.of f 0 f.leastExponent).closed = true := by simp [Basin.of]
  have hlow : (Basin.of f 0 f.leastExponent).low = 0 := by
    rcases Basin.low_cases f 0 f.leastExponent with ⟨hend, -, -⟩ | hend
    · exact hend
    · exact hend
  have hhigh : ((Basin.of f 0 f.leastExponent).high : ℚ) = 2 := by simp [Basin.of]
  have hhalf : (2 : ℚ) ^ (f.leastExponent - 1) = 2 * 2 ^ (f.leastExponent - 2) := by
    rw [← zpow_one_add₀ two_ne_zero]
    congr 1
    ring
  rw [Basin.Holds, if_pos hclosed, hlow, hhigh, Nat.cast_zero, zero_mul, ← hhalf]
  exact ⟨hpos, hle⟩

/-- What lies in the interval of a number is rounded to that number. -/
theorem Canonical.roundMagnitude_eq {significand : ℕ} {exponent : ℤ}
    (h : Canonical f significand exponent) (hfraction : 0 < f.fractionBits) (hden : 0 < den)
    (hq : (Basin.of f significand exponent).Holds (exponent - 2) (num / den)) :
    f.roundMagnitude num den
      = min ((exponent - f.leastExponent).toNat * twoTo f.fractionBits + significand)
          f.infinity := by
  rcases Nat.eq_zero_or_pos num with rfl | hnum
  · have hzero : Canonical f 0 f.leastExponent :=
      ⟨by simp [twoTo_pos], le_rfl, fun hlt => absurd hlt (lt_irrefl _)⟩
    have hq' := Basin.zero_holds f le_rfl (by positivity)
    rw [Nat.cast_zero, zero_div] at hq
    obtain ⟨rfl, rfl⟩ := h.eq_of_holds hzero hq hq'
    simp [Format.roundMagnitude]
  · obtain ⟨other, power, h', hq', hround⟩ := exists_of_roundMagnitude hfraction hnum hden
    obtain ⟨rfl, rfl⟩ := h.eq_of_holds h' hq hq'
    exact hround

/-! ## Reading numbers -/

namespace Decimal

theorem value_nonneg (d : Decimal) : 0 ≤ d.value := by
  unfold value
  positivity

/-- A decimal that is far below the numbers of 32 bits. -/
theorem value_le_of_small {d : Decimal} (hd : d.exponent ≤ 0)
    (hsmall : d.digits = 0 ∨ d.exponent + (Nat.log2 d.digits : ℤ) < -256) :
    d.value ≤ 2 ^ (Format.single.leastExponent - 1) := by
  have hleast : Format.single.leastExponent = -149 := by decide
  rcases hsmall with hzero | htop
  · rw [value, hzero, Nat.cast_zero, zero_mul]
    positivity
  · have hdigits : (d.digits : ℚ) ≤ 2 ^ (Nat.log2 d.digits + 1) := by
      exact_mod_cast Nat.lt_log2_self.le
    have hpower : (10 : ℚ) ^ d.exponent ≤ 2 ^ d.exponent := by
      obtain ⟨places, hplaces⟩ : ∃ places : ℕ, d.exponent = -places :=
        ⟨(-d.exponent).toNat, by omega⟩
      rw [hplaces, zpow_neg, zpow_neg, zpow_natCast, zpow_natCast]
      exact inv_anti₀ (by positivity) (pow_le_pow_left₀ (by norm_num) (by norm_num) _)
    calc d.value ≤ 2 ^ (Nat.log2 d.digits + 1) * 2 ^ d.exponent :=
          mul_le_mul hdigits hpower (by positivity) (by positivity)
      _ = 2 ^ ((Nat.log2 d.digits : ℤ) + 1 + d.exponent) := by
          rw [← zpow_natCast, ← zpow_add₀ two_ne_zero]
          push_cast
          rfl
      _ ≤ 2 ^ (Format.single.leastExponent - 1) :=
          zpow_le_zpow_right₀ (by norm_num) (by omega)

end Decimal

namespace Number

theorem negative_ofMagnitude {magnitude : ℕ} (h : magnitude < twoTo (f.width - 1))
    (negative : Bool) : (ofMagnitude negative magnitude : Number f).negative = negative := by
  have hwidth := f.two_pow_width
  unfold ofMagnitude Number.negative
  rw [BitVec.toNat_ofNat]
  cases negative with
  | true =>
      rw [if_pos rfl, Nat.mod_eq_of_lt (by omega), decide_eq_true_iff]
      omega
  | false =>
      rw [if_neg Bool.false_ne_true, Nat.zero_add, Nat.mod_eq_of_lt (by omega),
        decide_eq_false_iff_not]
      omega

/-- A number is put together from its sign and its pattern. -/
theorem ofMagnitude_eq {x : Number f} {negative : Bool} {magnitude : ℕ}
    (hnegative : x.negative = negative) (hmagnitude : x.magnitude = magnitude) :
    ofMagnitude negative magnitude = x := by
  have hlt : magnitude < twoTo (f.width - 1) := by
    rw [← hmagnitude]
    exact Nat.mod_lt _ (twoTo_pos _)
  refine eq_of_magnitude_eq ?_ ?_
  · rw [negative_ofMagnitude hlt, hnegative]
  · rw [magnitude_ofMagnitude hlt, hmagnitude]

/-- A quotient in the interval of a finite number is read as that number. -/
theorem ofRatio_eq {x : Number f} (hfraction : 0 < f.fractionBits) {negative : Bool}
    {significand : ℕ} {exponent : ℤ} (hx : x.view = .finite negative significand exponent)
    (hden : 0 < den) (hq : (Basin.of f significand exponent).Holds (exponent - 2) (num / den)) :
    ofRatio negative num den = x := by
  obtain ⟨hcanonical, -, hnegative, hmagnitude⟩ := canonical_of_view hx
  have hfinite : x.magnitude < f.infinity := by
    rw [← isFinite_iff, isFinite, hx]
  refine ofMagnitude_eq hnegative ?_
  rw [hcanonical.roundMagnitude_eq hfraction hden hq, ← hmagnitude, Nat.min_eq_left hfinite.le]

/-- A decimal in the interval of a finite number is read as that number. -/
theorem ofDecimal_eq {x : Single} {negative : Bool} {significand : ℕ} {exponent : ℤ}
    (hx : x.view = .finite negative significand exponent) {d : Decimal} (hd : d.exponent ≤ 0)
    (hq : (Basin.of .single significand exponent).Holds (exponent - 2) d.value) :
    ofDecimal negative d.digits d.exponent = x := by
  obtain ⟨hcanonical, -, hnegative, hmagnitude⟩ := canonical_of_view hx
  unfold ofDecimal
  dsimp only
  have hreach : (twoTo Format.single.exponentBits : ℤ) = 256 := by decide
  rw [hreach]
  split
  · rename_i hsmall
    have hzero : Canonical .single 0 Format.single.leastExponent :=
      ⟨by decide, le_rfl, fun hlt => absurd hlt (lt_irrefl _)⟩
    have hq' := Basin.zero_holds .single d.value_nonneg (d.value_le_of_small hd hsmall)
    obtain ⟨rfl, rfl⟩ := hcanonical.eq_of_holds hzero hq hq'
    rw [sub_self, Int.toNat_zero, Nat.zero_mul] at hmagnitude
    exact ofMagnitude_eq hnegative hmagnitude
  · rw [if_neg (by omega)]
    refine ofRatio_eq (by decide) hx (tenTo_pos _) ?_
    have hvalue : ((d.digits * tenTo d.exponent.toNat : ℕ) : ℚ) / (tenTo (-d.exponent).toNat : ℕ)
        = d.value := by
      have hdenominator : (tenTo (-d.exponent).toNat : ℚ) = (10 ^ d.exponent)⁻¹ := by
        rw [cast_tenTo, ← zpow_natCast, ← zpow_neg, Int.toNat_of_nonneg (by omega)]
      have hnumerator : d.exponent.toNat = 0 := by omega
      rw [hnumerator, hdenominator, Decimal.value, div_inv_eq_mul]
      simp [tenTo]
    rw [hvalue]
    exact hq

/-! ## Texts -/

/-- The number that a text spells behind a sign: digits with at most one point, or a word. -/
def readUnsigned? (negative : Bool) (cs : List Char) : Option Single :=
  if cs = ['i', 'n', 'f'] then some (infinite negative)
  else if cs = ['N', 'a', 'N'] then some notANumber
  else if isUnsigned cs then
    some (ofDecimal negative (readDecimal cs).digits (readDecimal cs).exponent)
  else none

/-- The number that a text spells, behind a minus sign if there is one. -/
def read? : List Char → Option Single
  | '-' :: cs => readUnsigned? true cs
  | cs => readUnsigned? false cs

/-- The number that the text of a number is read as: all marks of failed computations are
written alike, and one stands for them. -/
def asRead (x : Single) : Single :=
  if x.view = .notANumber then notANumber else x

theorem asRead_eq_self {x : Single} (h : x.view ≠ .notANumber) : x.asRead = x :=
  if_neg h

theorem read?_sign_append {negative : Bool} {cs : List Char} (hcs : cs.head? ≠ some '-') :
    read? ((if negative then ['-'] else []) ++ cs) = readUnsigned? negative cs := by
  cases negative with
  | true => rfl
  | false =>
      rw [if_neg Bool.false_ne_true, List.nil_append, read?]
      rintro rest rfl
      exact hcs rfl

/-- A word is no text of digits. -/
theorem ne_of_isUnsigned {cs word : List Char} (h : isUnsigned cs = true)
    (hword : isUnsigned word = false) : cs ≠ word := by
  rintro rfl
  rw [h] at hword
  contradiction

/-- A number is read back from its text. -/
theorem read?_chars (x : Single) : read? (x.chars .command) = some x.asRead := by
  rw [chars_command, read?_sign_append (View.head?_body_ne _ _)]
  unfold readUnsigned?
  cases hx : x.view with
  | finite negative significand exponent =>
      have hdigits := (printed .single significand exponent).isUnsigned_positional
      obtain ⟨hcanonical, hhigh, -, -⟩ := canonical_of_view hx
      have hholds := printed_holds Format.reached_single hcanonical hhigh
      rw [← Decimal.value_readDecimal] at hholds
      rw [View.body, if_neg (ne_of_isUnsigned hdigits (by decide)),
        if_neg (ne_of_isUnsigned hdigits (by decide)), if_pos hdigits, View.isNegative,
        ofDecimal_eq hx (Int.neg_nonpos_of_nonneg (Int.natCast_nonneg _)) hholds, asRead_eq_self]
      simp [hx]
  | infinite negative =>
      obtain ⟨hnegative, hmagnitude⟩ := magnitude_of_view_infinite hx
      rw [View.body, View.isNegative, if_pos rfl, infinite, ofMagnitude_eq hnegative hmagnitude,
        asRead_eq_self]
      simp [hx]
  | notANumber =>
      have hword : ['N', 'a', 'N'] ≠ ['i', 'n', 'f'] := by decide
      rw [View.body, if_neg hword, if_pos rfl, asRead, if_pos hx]

example : read? "-0.1".toList = some (ofDecimal true 1 (-1)) := by decide +kernel
example : read? "1e3".toList = none := by decide +kernel

end Number

end RigPack.Binary

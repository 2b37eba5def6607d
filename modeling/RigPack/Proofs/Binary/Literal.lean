import RigPack.Proofs.Binary.Pattern
import RigPack.Proofs.Text.Decimal

/-!
# What the text of a number says

In commands a number is written with digits and at most one point, behind a sign if it is
negative, and words stand for what is no finite number.  This file reads such texts: the
decimal that digits and a point spell is the one that was printed, and by `Basin` a decimal
belongs to one number only.

## Main statements

* `Number.isPlain_chars`: the text is a sign, digits and maybe decimal places exactly if the
  number is finite.
* `Number.alike_of_chars_eq`: numbers with one text are equal, but for those that are none.

## Strategy

`Decimal.positional_cases` takes the three forms of a decimal to two, one with a point and
one without, and says which digits stand where.  Everything else is read off these two
forms.  Of the text of a number the sign is split off first, as no other part starts with
one.
-/

namespace RigPack.Binary

/-! ## Texts of digits -/

/-- Whether a text consists of one or more digits. -/
def isDigits (cs : List Char) : Bool :=
  !cs.isEmpty && cs.all Char.isDigit

/-- Whether a text consists of digits, behind which a point and more digits may stand. -/
def isUnsigned (cs : List Char) : Bool :=
  isDigits (cs.takeWhile (· ≠ '.')) &&
    match cs.dropWhile (· ≠ '.') with
    | [] => true
    | _ :: places => isDigits places

/-- Whether a text is a number without exponent, behind a minus sign if there is one. -/
def isPlain : List Char → Bool
  | '-' :: cs => isUnsigned cs
  | cs => isUnsigned cs

/-- The decimal that digits with at most one point spell. -/
def readDecimal (cs : List Char) : Decimal :=
  let whole := cs.takeWhile (· ≠ '.')
  let places := (cs.dropWhile (· ≠ '.')).drop 1
  ⟨(Text.decimal? (whole ++ places)).getD 0, -places.length⟩

theorem isDigits_iff {cs : List Char} :
    isDigits cs = true ↔ cs ≠ [] ∧ ∀ c ∈ cs, c.isDigit = true := by
  simp [isDigits]

theorem isDigits_toDigits (n : ℕ) : isDigits (Nat.toDigits 10 n) = true :=
  isDigits_iff.2 ⟨Nat.toDigits_ne_nil, fun _ => Text.isDigit_of_mem_toDigits⟩

section Point

variable {whole places : List Char} (hwhole : isDigits whole = true)

include hwhole

theorem ne_point_of_isDigits : ∀ c ∈ whole, (decide (c ≠ '.')) = true := by
  intro c hc
  have hdigit := (isDigits_iff.1 hwhole).2 c hc
  rw [decide_eq_true_iff]
  rintro rfl
  exact absurd hdigit (by decide)

/-- Digits end where the point stands. -/
theorem span_point (places : List Char) : (whole ++ '.' :: places).takeWhile (· ≠ '.') = whole ∧
    (whole ++ '.' :: places).dropWhile (· ≠ '.') = '.' :: places := by
  have hne := ne_point_of_isDigits hwhole
  rw [List.takeWhile_append_of_pos hne, List.dropWhile_append_of_pos hne]
  simp

theorem span_whole : whole.takeWhile (· ≠ '.') = whole ∧ whole.dropWhile (· ≠ '.') = [] := by
  have hne := ne_point_of_isDigits hwhole
  have htake : (whole ++ []).takeWhile (· ≠ '.') = whole ++ [] :=
    List.takeWhile_append_of_pos hne
  have hdrop : (whole ++ []).dropWhile (· ≠ '.') = [] := List.dropWhile_append_of_pos hne
  rw [List.append_nil] at htake hdrop
  exact ⟨htake, hdrop⟩

theorem isUnsigned_whole : isUnsigned whole = true := by
  obtain ⟨htake, hdrop⟩ := span_whole hwhole
  rw [isUnsigned, htake, hdrop, hwhole]
  rfl

theorem isUnsigned_point (hplaces : isDigits places = true) :
    isUnsigned (whole ++ '.' :: places) = true := by
  obtain ⟨htake, hdrop⟩ := span_point hwhole places
  rw [isUnsigned, htake, hdrop, hwhole]
  exact hplaces

theorem readDecimal_whole {n : ℕ} (hn : Text.decimal? whole = some n) :
    readDecimal whole = ⟨n, 0⟩ := by
  obtain ⟨htake, hdrop⟩ := span_whole hwhole
  unfold readDecimal
  dsimp only
  rw [htake, hdrop, List.drop_nil, List.append_nil, hn]
  rfl

theorem readDecimal_point {n : ℕ} (hn : Text.decimal? (whole ++ places) = some n) :
    readDecimal (whole ++ '.' :: places) = ⟨n, -places.length⟩ := by
  obtain ⟨htake, hdrop⟩ := span_point hwhole places
  unfold readDecimal
  dsimp only
  rw [htake, hdrop, List.drop_one, List.tail_cons, hn]
  rfl

end Point

/-! ## Decimals without exponent -/

namespace Decimal

/-- A decimal is written as one natural number, or as its digits around a point. -/
theorem positional_cases (d : Decimal) :
    (0 ≤ d.exponent ∧ isDigits (d.positional "") = true ∧
      Text.decimal? (d.positional "") = some (d.digits * 10 ^ d.exponent.toNat)) ∨
    ∃ whole places, d.positional "" = whole ++ '.' :: places ∧ isDigits whole = true ∧
      isDigits places = true ∧ Text.decimal? (whole ++ places) = some d.digits ∧
      d.exponent = -places.length := by
  obtain ⟨hne, hdigits⟩ := isDigits_iff.1 (isDigits_toDigits d.digits)
  have hlength : 0 < d.chars.length := List.length_pos_iff.2 hne
  have hzeros (n : ℕ) : ∀ c ∈ List.replicate n '0', c.isDigit = true := by
    intro c hc
    rw [List.eq_of_mem_replicate hc]
    decide
  unfold positional
  split
  · -- zeros stand behind the digits
    rename_i hexponent
    rw [String.toList_empty, List.append_nil]
    refine .inl ⟨hexponent, isDigits_iff.2 ⟨List.append_ne_nil_of_left_ne_nil hne _, ?_⟩,
      Text.decimal?_append_zeros _ _⟩
    exact List.forall_mem_append.2 ⟨hdigits, hzeros _⟩
  · rename_i hexponent
    have hpoint : d.point = d.chars.length + d.exponent := rfl
    split
    · -- the point stands between the digits
      rename_i hpos
      refine .inr ⟨_, _, rfl, isDigits_iff.2 ⟨?_, fun c hc => hdigits c (List.mem_of_mem_take hc)⟩,
        isDigits_iff.2 ⟨?_, fun c hc => hdigits c (List.mem_of_mem_drop hc)⟩, ?_, ?_⟩
      · rw [← List.length_pos_iff, List.length_take]
        omega
      · rw [← List.length_pos_iff, List.length_drop]
        omega
      · rw [List.take_append_drop]
        exact Text.decimal?_toDigits d.digits
      · rw [List.length_drop]
        omega
    · -- zeros stand in front of the digits, and the point behind the first zero
      rename_i hpos
      refine .inr ⟨['0'], List.replicate (-d.point).toNat '0' ++ d.chars, rfl, by decide,
        isDigits_iff.2 ⟨List.append_ne_nil_of_right_ne_nil _ hne,
          List.forall_mem_append.2 ⟨hzeros _, hdigits⟩⟩, ?_, ?_⟩
      · rw [← List.append_assoc]
        exact Text.decimal?_zeros_append ((-d.point).toNat + 1) d.digits
      · rw [List.length_append, List.length_replicate]
        omega

/-- A decimal is read back as a decimal that stands for the same rational. -/
theorem value_readDecimal (d : Decimal) : (readDecimal (d.positional "")).value = d.value := by
  rcases d.positional_cases with ⟨hexponent, hdigits, hread⟩ |
    ⟨whole, places, htext, hwhole, -, hread, hexponent⟩
  · rw [readDecimal_whole hdigits hread, value, value, zpow_zero, mul_one, Nat.cast_mul,
      Nat.cast_pow, ← zpow_natCast, Int.toNat_of_nonneg hexponent]
    rfl
  · rw [htext, readDecimal_point hwhole hread, value, value, hexponent]

theorem isUnsigned_positional (d : Decimal) : isUnsigned (d.positional "") = true := by
  rcases d.positional_cases with ⟨-, hdigits, -⟩ | ⟨whole, places, htext, hwhole, hplaces, -, -⟩
  · exact isUnsigned_whole hdigits
  · rw [htext]
    exact isUnsigned_point hwhole hplaces

end Decimal

/-- A text of digits and a point starts with a digit. -/
theorem exists_digit_of_isUnsigned {cs : List Char} (h : isUnsigned cs = true) :
    ∃ c rest, cs = c :: rest ∧ c.isDigit = true := by
  obtain ⟨hne, hdigits⟩ := isDigits_iff.1 (Bool.and_eq_true_iff.1 h).1
  cases cs with
  | nil => contradiction
  | cons c rest =>
      have hpoint : c ≠ '.' := by
        rintro rfl
        exact hne rfl
      exact ⟨c, rest, rfl, hdigits c (by simp [hpoint])⟩

/-! ## The text of a number -/

/-- Whether the search for a shortest decimal is long enough for all numbers of a format. -/
structure Format.Reached (f : Format) : Prop where
  fraction : f.fractionBits ≤ 52
  least : -1074 ≤ f.leastExponent
  greatest : f.leastExponent + twoTo f.exponentBits ≤ 1024

theorem Format.reached_single : Format.single.Reached where
  fraction := by decide
  least := by decide
  greatest := by decide

/-- The decimal that is written for a finite number. -/
def printed (f : Format) (significand : ℕ) (exponent : ℤ) : Decimal :=
  if significand = 0 then ⟨0, 0⟩ else shortest f .up significand exponent

/-- The decimal of a number lies in its interval. -/
theorem printed_holds {f : Format} (hf : f.Reached) {significand : ℕ} {exponent : ℤ}
    (h : Canonical f significand exponent)
    (hhigh : exponent < f.leastExponent + twoTo f.exponentBits) :
    (Basin.of f significand exponent).Holds (exponent - 2)
      (printed f significand exponent).value := by
  unfold printed
  split
  · rename_i hzero
    have hlow : (Basin.of f significand exponent).low = 0 := by
      simp only [Basin.of, hzero]
      split <;> rfl
    have hclosed : (Basin.of f significand exponent).closed = true := by
      simp [Basin.of, hzero]
    have hzero : (⟨0, 0⟩ : Decimal).value = 0 := by simp [Decimal.value]
    rw [Basin.Holds, if_pos hclosed, hlow, hzero, Nat.cast_zero, zero_mul]
    exact ⟨le_rfl, by positivity⟩
  · rename_i hnonzero
    have hbits : twoTo f.fractionBits ≤ 2 ^ 52 := Nat.pow_le_pow_right (by decide) hf.fraction
    have hsmall := h.lt
    have hleast := h.least
    have hfloor := hf.least
    have hceiling := hf.greatest
    exact shortest_holds f .up (Nat.pos_of_ne_zero hnonzero) (by omega) (by omega) (by omega)

namespace View

variable (f : Format)

/-- Whether a minus sign is written. -/
def isNegative : View → Bool
  | .finite negative _ _ => negative
  | .infinite negative => negative
  | .notANumber => false

/-- What is written behind the sign. -/
def body : View → List Char
  | .finite _ significand exponent => (printed f significand exponent).positional ""
  | .infinite _ => ['i', 'n', 'f']
  | .notANumber => ['N', 'a', 'N']

/-- What is written behind the sign does not start with one. -/
theorem head?_body_ne (view : View) : (view.body f).head? ≠ some '-' := by
  cases view with
  | finite negative significand exponent =>
      obtain ⟨c, rest, htext, hdigit⟩ :=
        exists_digit_of_isUnsigned (printed f significand exponent).isUnsigned_positional
      rw [body, htext]
      rintro ⟨⟩
      exact absurd hdigit (by decide)
  | infinite negative => exact (by decide : ['i', 'n', 'f'].head? ≠ some '-')
  | notANumber => exact (by decide : ['N', 'a', 'N'].head? ≠ some '-')

/-- The words are no numbers. -/
theorem isUnsigned_body_iff (view : View) :
    isUnsigned (view.body f) = true ↔ ∃ negative significand exponent,
      view = .finite negative significand exponent := by
  cases view with
  | finite negative significand exponent =>
      exact iff_of_true (Decimal.isUnsigned_positional _) ⟨_, _, _, rfl⟩
  | infinite negative =>
      exact iff_of_false (by decide : ¬isUnsigned ['i', 'n', 'f'] = true) nofun
  | notANumber => exact iff_of_false (by decide : ¬isUnsigned ['N', 'a', 'N'] = true) nofun

end View

namespace Number

variable {f : Format}

theorem chars_command (x : Number f) :
    x.chars .command = (if x.view.isNegative then ['-'] else []) ++ x.view.body f := by
  unfold chars
  cases x.view with
  | finite negative significand exponent => rfl
  | infinite negative => rfl
  | notANumber => rfl

theorem isPlain_sign_append {negative : Bool} {cs : List Char} (hcs : cs.head? ≠ some '-') :
    isPlain ((if negative then ['-'] else []) ++ cs) = isUnsigned cs := by
  cases negative with
  | true => rfl
  | false =>
      rw [if_neg Bool.false_ne_true, List.nil_append, isPlain]
      rintro rest rfl
      exact hcs rfl

/-- A number is written with digits exactly if it is finite. -/
theorem isPlain_chars (x : Number f) : isPlain (x.chars .command) = x.isFinite := by
  rw [chars_command, isPlain_sign_append (View.head?_body_ne f _), Bool.eq_iff_iff,
    View.isUnsigned_body_iff, isFinite]
  cases x.view with
  | finite negative significand exponent => exact iff_of_true ⟨_, _, _, rfl⟩ rfl
  | infinite negative => exact iff_of_false nofun Bool.false_ne_true
  | notANumber => exact iff_of_false nofun Bool.false_ne_true

theorem sign_append_inj {negative other : Bool} {cs ds : List Char} (hcs : cs.head? ≠ some '-')
    (hds : ds.head? ≠ some '-')
    (h : (if negative then ['-'] else []) ++ cs = (if other then ['-'] else []) ++ ds) :
    negative = other ∧ cs = ds := by
  cases negative <;> cases other
  · exact ⟨rfl, h⟩
  · exact absurd (congrArg List.head? h) hcs
  · exact absurd (congrArg List.head? h).symm hds
  · exact ⟨rfl, (List.cons.inj h).2⟩

/-- Whether two patterns are one number, or both marks of a failed computation. -/
def Alike (x y : Number f) : Prop :=
  x = y ∨ x.view = .notANumber ∧ y.view = .notANumber

/-- Numbers that are printed alike are equal, but for those that are none. -/
theorem alike_of_chars_eq (hf : f.Reached) {x y : Number f}
    (h : x.chars .command = y.chars .command) : x.Alike y := by
  rw [chars_command, chars_command] at h
  obtain ⟨hsign, hbody⟩ :=
    sign_append_inj (View.head?_body_ne f _) (View.head?_body_ne f _) h
  have hfinite := (View.isUnsigned_body_iff f x.view).symm.trans
    ((Bool.eq_iff_iff.1 (congrArg isUnsigned hbody)).trans (View.isUnsigned_body_iff f y.view))
  cases hx : x.view with
  | finite negative significand exponent =>
      left
      obtain ⟨other, significand', exponent', hy⟩ := hfinite.1 ⟨_, _, _, hx⟩
      rw [hx, hy] at hsign hbody
      -- one text, one rational, one interval
      have hvalue : (printed f significand exponent).value
          = (printed f significand' exponent').value := by
        have hread := congrArg (fun cs => (readDecimal cs).value) hbody
        exact (Decimal.value_readDecimal _).symm.trans
          (hread.trans (Decimal.value_readDecimal _))
      obtain ⟨hcanonical, hhigh, -, -⟩ := canonical_of_view hx
      obtain ⟨hcanonical', hhigh', -, -⟩ := canonical_of_view hy
      have hholds := printed_holds hf hcanonical hhigh
      have hholds' := printed_holds hf hcanonical' hhigh'
      rw [hvalue] at hholds
      obtain ⟨rfl, rfl⟩ := hcanonical.eq_of_holds hcanonical' hholds hholds'
      have hview : x.view = y.view := by
        rw [hx, hy]
        exact congrArg (View.finite · significand exponent) hsign
      exact eq_of_view_eq hview (by rw [hx]; nofun)
  | infinite negative =>
      left
      cases hy : y.view with
      | finite other significand exponent =>
          obtain ⟨_, _, _, hword⟩ := hfinite.2 ⟨_, _, _, hy⟩
          rw [hx] at hword
          contradiction
      | infinite other =>
          rw [hx, hy] at hsign
          refine eq_of_view_eq ?_ (by rw [hx]; nofun)
          rw [hx, hy]
          exact congrArg View.infinite hsign
      | notANumber =>
          rw [hx, hy] at hbody
          exact absurd hbody (by decide : ¬['i', 'n', 'f'] = ['N', 'a', 'N'])
  | notANumber =>
      right
      refine ⟨hx, ?_⟩
      cases hy : y.view with
      | finite other significand exponent =>
          obtain ⟨_, _, _, hword⟩ := hfinite.2 ⟨_, _, _, hy⟩
          rw [hx] at hword
          contradiction
      | infinite other =>
          rw [hx, hy] at hbody
          exact absurd hbody (by decide : ¬['N', 'a', 'N'] = ['i', 'n', 'f'])
      | notANumber => rfl

end Number

end RigPack.Binary

import Mathlib.Algebra.Ring.Nat
import RigPack.Text.Digits

/-!
# Decimal numbers read back

A number is written with the digits of `Nat.toDigits 10`.  This file shows that
`decimal?` reads such digits back, and that digits end where they seem to end:
if no further digit follows, the text up to the first character that is no digit
is exactly the number (`takeWhile_toDigits`).  So a number can be cut off a text
without knowing its length (`toDigits_append_inj`), which is what the names and
ranges of generated functions rely on.
-/

namespace RigPack.Text

/-- A text that does not start with a digit, so that it can follow a number. -/
def EndsNumber (cs : List Char) : Prop :=
  ∀ c ∈ cs.head?, c.isDigit = false

@[simp] theorem endsNumber_nil : EndsNumber [] := by
  simp [EndsNumber]

@[simp] theorem endsNumber_cons {c : Char} {cs : List Char} :
    EndsNumber (c :: cs) ↔ c.isDigit = false := by
  simp [EndsNumber]

/-- A character that passes a test is another one than a character that does not. -/
theorem ne_of_test {test : Char → Bool} {c d : Char} (hc : test c = true) (hd : test d = false) :
    c ≠ d := by
  rintro rfl
  rw [hd] at hc
  contradiction

/-! ## Reading -/

theorem isDigit_iff {c : Char} : c.isDigit = true ↔ '0' ≤ c ∧ c ≤ '9' := by
  rw [Char.isDigit, Bool.and_eq_true, decide_eq_true_eq, decide_eq_true_eq]
  exact Iff.rfl

/-- The decimal digits are those of the base ten. -/
theorem digit?_eq (c : Char) :
    digit? 10 c = if c.isDigit then some (digitValue c) else none := by
  by_cases h : '0' ≤ c ∧ c ≤ '9'
  · have hvalue : c.toNat - '0'.toNat < 10 := by
      have hle : c.toNat ≤ '9'.toNat := h.2
      have hnine : '9'.toNat = 57 := rfl
      have hzero : '0'.toNat = 48 := rfl
      omega
    rw [digit?, if_pos h, if_pos hvalue, if_pos (isDigit_iff.2 h), digitValue]
  · rw [digit?, if_neg h, if_neg (h ∘ isDigit_iff.1)]
    -- a letter counts ten or more
    refine if_neg (Nat.not_lt.2 ?_)
    split
    · exact Nat.le_add_left ..
    · split
      · exact Nat.le_add_left ..
      · decide

theorem digit?_digitChar {d : Nat} (hd : d < 10) : digit? 10 d.digitChar = some d :=
  (by decide : ∀ d : Fin 10, digit? 10 (Nat.digitChar d) = some d.val) ⟨d, hd⟩

theorem ofDigits_append_singleton (base : Nat) (digits : List Nat) (d : Nat) :
    ofDigits base (digits ++ [d]) = base * ofDigits base digits + d := by
  simp [ofDigits]

/-- The digits of a number, each read alone, are a number again. -/
theorem exists_digits_of_toDigits (n : Nat) :
    ∃ digits, (Nat.toDigits 10 n).mapM (digit? 10) = some digits ∧ ofDigits 10 digits = n := by
  induction n using Nat.strongRecOn with
  | ind n ih =>
      rcases Nat.lt_or_ge n 10 with hn | hn
      · refine ⟨[n], ?_, by simp [ofDigits]⟩
        simp [Nat.toDigits_of_lt_base hn, digit?_digitChar hn]
      · obtain ⟨digits, hread, hvalue⟩ := ih (n / 10) (by omega)
        have hlast : digit? 10 (n % 10).digitChar = some (n % 10) :=
          digit?_digitChar (Nat.mod_lt _ (by omega))
        refine ⟨digits ++ [n % 10], ?_, ?_⟩
        · rw [Nat.toDigits_of_base_le (by omega) hn, List.mapM_append, hread]
          simp [hlast]
        · rw [ofDigits_append_singleton, hvalue]
          omega

/-- The digits of a number spell it. -/
theorem decimal?_toDigits (n : Nat) : decimal? (Nat.toDigits 10 n) = some n := by
  obtain ⟨digits, hread, hvalue⟩ := exists_digits_of_toDigits n
  have hne : Nat.toDigits 10 n ≠ [] := Nat.toDigits_ne_nil
  unfold decimal?
  split
  · contradiction
  · rw [hread, Option.map_some, hvalue]

/-! ## Zeros around a number -/

theorem decimal?_of_ne_nil {cs : List Char} (hne : cs ≠ []) :
    decimal? cs = (cs.mapM (digit? 10)).map (ofDigits 10) := by
  unfold decimal?
  split
  · contradiction
  · rfl

theorem mapM_digit?_zeros (zeros : Nat) :
    (List.replicate zeros '0').mapM (digit? 10) = some (List.replicate zeros 0) := by
  induction zeros with
  | zero => rfl
  | succ zeros ih =>
      have hzero : digit? 10 '0' = some 0 := by decide
      rw [List.replicate_succ, List.mapM_cons, hzero, ih]
      rfl

theorem ofDigits_zeros_append (base zeros : Nat) (digits : List Nat) :
    ofDigits base (List.replicate zeros 0 ++ digits) = ofDigits base digits := by
  induction zeros with
  | zero => rfl
  | succ zeros ih =>
      rw [List.replicate_succ, List.cons_append, ← ih]
      simp [ofDigits]

theorem ofDigits_append_zeros (base zeros : Nat) (digits : List Nat) :
    ofDigits base (digits ++ List.replicate zeros 0) = ofDigits base digits * base ^ zeros := by
  induction zeros with
  | zero => simp
  | succ zeros ih =>
      rw [List.replicate_succ', ← List.append_assoc, ofDigits_append_singleton, ih,
        Nat.add_zero, Nat.pow_succ, Nat.mul_comm base, Nat.mul_assoc]

/-- Zeros in front of a number do not change it. -/
theorem decimal?_zeros_append (zeros n : Nat) :
    decimal? (List.replicate zeros '0' ++ Nat.toDigits 10 n) = some n := by
  obtain ⟨digits, hread, hvalue⟩ := exists_digits_of_toDigits n
  have hne : List.replicate zeros '0' ++ Nat.toDigits 10 n ≠ [] :=
    List.append_ne_nil_of_right_ne_nil _ Nat.toDigits_ne_nil
  rw [decimal?_of_ne_nil hne, List.mapM_append, mapM_digit?_zeros, hread]
  exact congrArg some ((ofDigits_zeros_append 10 zeros digits).trans hvalue)

/-- A zero behind a number multiplies it by ten. -/
theorem decimal?_append_zeros (zeros n : Nat) :
    decimal? (Nat.toDigits 10 n ++ List.replicate zeros '0') = some (n * 10 ^ zeros) := by
  obtain ⟨digits, hread, hvalue⟩ := exists_digits_of_toDigits n
  have hne : Nat.toDigits 10 n ++ List.replicate zeros '0' ≠ [] :=
    List.append_ne_nil_of_left_ne_nil Nat.toDigits_ne_nil _
  rw [decimal?_of_ne_nil hne, List.mapM_append, mapM_digit?_zeros, hread, ← hvalue]
  exact congrArg some (ofDigits_append_zeros 10 zeros digits)

/-! ## Where a number ends -/

theorem isDigit_of_mem_toDigits {n : Nat} {c : Char} (hc : c ∈ Nat.toDigits 10 n) :
    c.isDigit = true :=
  Nat.isDigit_of_mem_toDigits (by omega) (by omega) hc

theorem takeWhile_eq_nil_of_endsNumber {cs : List Char} (hcs : EndsNumber cs) :
    cs.takeWhile Char.isDigit = [] := by
  cases cs with
  | nil => rfl
  | cons c cs => simp [endsNumber_cons.1 hcs]

/-- The digits in front of a text that no digit starts are exactly the number. -/
theorem takeWhile_toDigits (n : Nat) {cs : List Char} (hcs : EndsNumber cs) :
    (Nat.toDigits 10 n ++ cs).takeWhile Char.isDigit = Nat.toDigits 10 n := by
  rw [List.takeWhile_append_of_pos fun c hc => isDigit_of_mem_toDigits hc,
    takeWhile_eq_nil_of_endsNumber hcs, List.append_nil]

theorem toDigits_injective {m n : Nat} (h : Nat.toDigits 10 m = Nat.toDigits 10 n) : m = n := by
  have hread := decimal?_toDigits m
  rw [h, decimal?_toDigits n] at hread
  exact (Option.some.inj hread).symm

/-- Two numbers with different texts behind them are written differently. -/
theorem toDigits_append_inj {m n : Nat} {cs ds : List Char} (hcs : EndsNumber cs)
    (hds : EndsNumber ds) (h : Nat.toDigits 10 m ++ cs = Nat.toDigits 10 n ++ ds) :
    m = n ∧ cs = ds := by
  have hdigits : Nat.toDigits 10 m = Nat.toDigits 10 n := by
    rw [← takeWhile_toDigits m hcs, h, takeWhile_toDigits n hds]
  rw [hdigits] at h
  exact ⟨toDigits_injective hdigits, List.append_cancel_left h⟩

theorem toList_toString (n : Nat) : (toString n).toList = Nat.toDigits 10 n := by
  rw [Nat.toString_eq_repr, Nat.toList_repr]

/-! ## Numbers with a sign -/

theorem toList_toString_negSucc (n : Nat) :
    (toString (Int.negSucc n)).toList = '-' :: Nat.toDigits 10 (n + 1) := by
  have htext : toString (Int.negSucc n) = "-" ++ toString (n + 1) := rfl
  rw [htext, String.toList_append, toList_toString]
  rfl

theorem signedDecimal?_of_isDigit {cs : List Char} (hcs : ∀ c ∈ cs, c.isDigit = true) :
    signedDecimal? cs = (decimal? cs).map Int.ofNat := by
  unfold signedDecimal?
  split
  · exact absurd (hcs _ (List.mem_cons_self ..)) (by decide)
  · exact absurd (hcs _ (List.mem_cons_self ..)) (by decide)
  · rfl

/-- The text of an integer is read as that integer. -/
theorem signedDecimal?_toString (n : Int) : signedDecimal? (toString n).toList = some n := by
  cases n with
  | ofNat n =>
      have htext : (toString (Int.ofNat n)).toList = Nat.toDigits 10 n := toList_toString n
      rw [htext, signedDecimal?_of_isDigit fun c => isDigit_of_mem_toDigits, decimal?_toDigits]
      rfl
  | negSucc n =>
      rw [toList_toString_negSucc, signedDecimal?, decimal?_toDigits]
      rfl

theorem isDigit_or_eq_minus_of_mem_toString {n : Int} {c : Char}
    (hc : c ∈ (toString n).toList) : c.isDigit = true ∨ c = '-' := by
  cases n with
  | ofNat n =>
      have htext : (toString (Int.ofNat n)).toList = Nat.toDigits 10 n := toList_toString n
      rw [htext] at hc
      exact .inl (isDigit_of_mem_toDigits hc)
  | negSucc n =>
      rw [toList_toString_negSucc] at hc
      rcases List.mem_cons.1 hc with hc | hc
      · exact .inr hc
      · exact .inl (isDigit_of_mem_toDigits hc)

end RigPack.Text

import RigPack.Proofs.Success
import RigPack.Proofs.Text.Decimal
import RigPack.Settings.Environment

/-!
# Numbers in the environment

The environment gives a number of 32 bits as text.  It is read digit by digit, and given up as
soon as it is too large.  That is no other reading than the decimal one: a text is accepted
exactly if it is one or more decimal digits, with a plus in front or not, whose value fits
(`parseWord_eq_ok_iff`).
-/

namespace RigPack

/-- Whether a text spells a number of 32 bits in decimal digits, behind a plus or without one. -/
def SpellsWord (cs : List Char) (n : UInt32) : Prop :=
  ∃ digits, (cs = digits ∨ cs = '+' :: digits) ∧ Text.decimal? digits = some n.toNat

namespace Text

/-- Further digits only make a number larger. -/
theorem le_foldl_digits (n : Nat) (digits : List Nat) :
    n ≤ digits.foldl (fun n d => 10 * n + d) n := by
  induction digits generalizing n with
  | nil => exact Nat.le_refl n
  | cons d digits ih => exact Nat.le_trans (by omega) (ih (10 * n + d))

end Text

namespace Environment

/-- A number fits in the end exactly if it fits behind every digit. -/
theorem addDigits_eq_ok_iff {n k : Nat} (hn : n < UInt32.size) {cs : List Char} :
    addDigits n cs = .ok k ↔ ∃ digits, cs.mapM (Text.digit? 10) = some digits ∧
      digits.foldl (fun n d => 10 * n + d) n = k ∧ k < UInt32.size := by
  induction cs generalizing n with
  | nil =>
      simp only [addDigits, Except.ok.injEq, List.mapM_nil, Option.pure_def, Option.some.injEq,
        exists_eq_left', List.foldl_nil, iff_self_and]
      rintro rfl
      exact hn
  | cons c cs ih =>
      rw [addDigits, List.mapM_cons, Text.digit?_eq]
      cases hc : c.isDigit with
      | false => simp
      | true =>
          simp only [Bool.not_true, Bool.false_eq_true, if_false, if_true, Option.bind_eq_bind,
            Option.bind_some, Option.pure_def, Option.bind_eq_some_iff, Option.some.injEq]
          split
          · rename_i hlarge
            -- what is too large now stays too large
            refine ⟨nofun, ?_⟩
            rintro ⟨_, ⟨digits, -, rfl⟩, rfl, hk⟩
            rw [List.foldl_cons] at hk
            exact absurd (Nat.le_trans hlarge (Text.le_foldl_digits _ digits)) (Nat.not_le.2 hk)
          · rename_i hfits
            rw [ih (Nat.lt_of_not_le hfits)]
            constructor
            · rintro ⟨digits, hdigits, hk⟩
              exact ⟨_, ⟨digits, hdigits, rfl⟩, hk⟩
            · rintro ⟨_, ⟨digits, hdigits, rfl⟩, hk⟩
              exact ⟨digits, hdigits, hk⟩

/-- Digits behind no sign are read as the number that they spell. -/
theorem addDigits_map_eq_ok_iff {cs : List Char} {n : UInt32} (hne : cs ≠ []) :
    (addDigits 0 cs).map UInt32.ofNat = .ok n ↔ Text.decimal? cs = some n.toNat := by
  rw [Text.decimal?_of_ne_nil hne, map_eq_ok, Option.map_eq_some_iff]
  simp only [addDigits_eq_ok_iff (by decide : 0 < UInt32.size)]
  constructor
  · rintro ⟨k, ⟨digits, hdigits, rfl, hk⟩, rfl⟩
    exact ⟨digits, hdigits, (UInt32.toNat_ofNat_of_lt' hk).symm⟩
  · rintro ⟨digits, hdigits, hvalue⟩
    exact ⟨n.toNat, ⟨digits, hdigits, hvalue, n.toNat_lt⟩, UInt32.ofNat_toNat⟩

/-- A plus is no digit. -/
theorem decimal?_plus (cs : List Char) : Text.decimal? ('+' :: cs) = none := by
  have hplus : Text.digit? 10 '+' = none := by decide
  rw [Text.decimal?_of_ne_nil (by simp), List.mapM_cons, hplus]
  rfl

/-- A text is read as a number exactly if it spells the number. -/
theorem parseWord_eq_ok_iff {cs : List Char} {n : UInt32} :
    parseWord cs = .ok n ↔ SpellsWord cs n := by
  have hnil : Text.decimal? [] = none := rfl
  unfold parseWord SpellsWord
  split
  · simp [hnil]
  · simp [hnil, decimal?_plus]
  · rename_i digits hne
    rw [addDigits_map_eq_ok_iff (by rintro rfl; exact hne rfl)]
    constructor
    · exact fun h => ⟨digits, .inr rfl, h⟩
    · rintro ⟨_, rfl | h, hvalue⟩
      · rw [decimal?_plus] at hvalue
        contradiction
      · rwa [List.cons.inj h |>.2]
  · rename_i hne _ hplus
    rw [addDigits_map_eq_ok_iff hne]
    constructor
    · exact fun h => ⟨cs, .inl rfl, h⟩
    · rintro ⟨digits, rfl | rfl, hvalue⟩
      · exact hvalue
      · exact absurd rfl (hplus digits)

end Environment

end RigPack

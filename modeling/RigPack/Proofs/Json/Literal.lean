import RigPack.Proofs.Binary.Literal
import RigPack.Proofs.Binary.Overflow
import RigPack.Proofs.Json.Provenance
import RigPack.Json.Reader
import RigPack.Snbt

/-!
# The numbers that literals name

A number of a document goes three ways before a command holds it: its literal names a whole
number or one of 64 bits, this is rounded to 32 bits, and the result is written.  This file
says what comes of a literal: digits if it fits into 32 bits, the word for infinity if it does
not, and the mark of a failed computation never.

The first two ways are those of a grammar, so all this rests on the rule by which it rounds
numbers (`Grammar.RoundsNumbers`).

## Main statements

* `roundsNumbers`: documents are read by this rule.
* `Literal.spelled_of_names`: how the number that a literal names is written.

## Strategy

A literal that is not whole is scaled by powers of ten.  A product is refused if it gets too
large, and the divisors are finite numbers other than zero, so neither yields the mark
(`Number.view_quotient_ne`).
-/

namespace RigPack

open Binary

/-! ## The texts of floats -/

namespace Snbt

/-- Whether a text is a number without exponent, with the mark of a float behind it. -/
def isFloatText (text : String) : Bool :=
  text.toList.getLast? = some 'f' && isPlain text.toList.dropLast

/-- A float is written with digits exactly if it is finite. -/
theorem isFloatText_float (x : Single) : isFloatText (Snbt.float x).text = x.isFinite := by
  unfold isFloatText
  rw [text, chars, String.toList_ofList, List.getLast?_concat, List.dropLast_concat,
    Number.isPlain_chars, decide_eq_true rfl, Bool.true_and]

theorem text_of_infinite {x : Single} {negative : Bool} (h : x.view = .infinite negative) :
    (Snbt.float x).text = if negative then "-inff" else "inff" := by
  rw [text, chars, Number.chars_command, h]
  cases negative <;> rfl

end Snbt

namespace Json

/-! ## Scaling -/

/-- The powers of ten by which numbers are scaled are finite and not zero. -/
theorem isFinite_powerOfTen {power : ℕ} (h : power ≤ greatestPower) :
    (powerOfTen power).isFinite = true ∧ (powerOfTen power).isZero = false := by
  have hall : ∀ power : Fin (greatestPower + 1),
      (powerOfTen power).isFinite = true ∧ (powerOfTen power).isZero = false := by
    decide +kernel
  exact hall ⟨power, Nat.lt_succ_of_le h⟩

theorem view_scaled?_ne {x y : Double} (hx : x.view ≠ .notANumber) {exponent : ℤ}
    (h : scaled? x exponent = some y) : y.view ≠ .notANumber := by
  have hquotient {x : Double} (hx : x.view ≠ .notANumber) {power : ℕ}
      (hpower : power ≤ greatestPower) : (x.quotient (powerOfTen power)).view ≠ .notANumber := by
    obtain ⟨hfinite, hzero⟩ := isFinite_powerOfTen hpower
    exact Number.view_quotient_ne hx hfinite hzero
  unfold scaled? at h
  split at h
  · rwa [← Option.some.inj h]
  split at h
  · contradiction
  split at h
  · -- a product that gets too large is refused
    dsimp only at h
    split at h
    · rename_i hfinite
      rw [← Option.some.inj h]
      exact Number.view_ne_of_isFinite hfinite
    · contradiction
  split at h
  · rw [← Option.some.inj h]
    exact hquotient hx (by omega)
  split at h
  · rw [← Option.some.inj h]
    exact hquotient (hquotient hx le_rfl) (by omega)
  · rw [← Option.some.inj h]
    exact Number.view_ofRatio_ne _ _ _

namespace Literal

variable {literal : Literal}

/-- A literal never names the mark of a failed computation. -/
theorem view_of_number? {x : Double} (h : literal.number? = some (.real x)) :
    x.view ≠ .notANumber := by
  have hreal (h : ((scaled? (.ofInt literal.digits) literal.exponent).map fun x =>
      Json.Number.real (if literal.negative then .ofMagnitude true x.magnitude else x))
        = some (.real x)) : x.view ≠ .notANumber := by
    obtain ⟨y, hy, hsigned⟩ := Option.map_eq_some_iff.1 h
    have hview := view_scaled?_ne (Number.view_ofRatio_ne _ _ _) hy
    rw [← Json.Number.real.inj hsigned]
    split
    · -- the sign is no part of the magnitude
      rw [Number.view_ne_notANumber_iff] at hview ⊢
      rwa [Number.magnitude_ofMagnitude (hview.trans_lt (Number.infinity_lt_twoTo _))]
    · exact hview
  unfold number? at h
  dsimp only at h
  split at h
  · exact hreal h
  split at h
  · exact absurd (Option.some.inj h) nofun
  split at h
  · exact hreal h
  · exact absurd (Option.some.inj h) nofun

end Literal

/-! ## Rounding to 32 bits -/

/-- The rule by which the literals of a document become numbers of 32 bits. -/
structure Grammar.RoundsNumbers [Grammar] : Prop where
  /-- A literal never names the mark of a failed computation. -/
  named : ∀ literal x, Grammar.number? literal = some (.real x) → x.view ≠ .notANumber
  /-- For a number stands the nearest one of 32 bits, and beyond all of them an infinity. -/
  rounded : ∀ number, Grammar.single number = number.single

/-- Documents are read by the rule. -/
theorem roundsNumbers : Grammar.RoundsNumbers where
  named _ _ := Literal.view_of_number?
  rounded _ := rfl

/-- The absolute value of a number of a document. -/
def Number.size? : Json.Number → Option ℚ
  | .whole n => some n.natAbs
  | .real x => x.view.size?

theorem Number.isFinite_single_iff (number : Json.Number) :
    number.single.isFinite = true ↔ ∃ size ∈ number.size?, size < singleBound := by
  cases number with
  | whole n =>
      rw [single, Binary.Number.isFinite_ofInt_iff]
      exact ⟨fun h => ⟨_, rfl, h⟩, fun ⟨_, hsize, h⟩ => Option.some.inj hsize ▸ h⟩
  | real x => exact Binary.Number.isFinite_convert_iff x

namespace Literal

variable [Grammar] {literal : Literal} {x : Single}

/-- Whether a literal names a number that can be rounded to 32 bits. -/
def Fits (literal : Literal) : Prop :=
  ∃ number, Grammar.number? literal = some number ∧ ∃ size ∈ number.size?, size < singleBound

/-- Whether a number is what stands for a literal in 32 bits. -/
def Names (literal : Literal) (x : Single) : Prop :=
  (Grammar.number? literal).map Grammar.single = some x

theorem names_of_single {draft : Draft} (h : Decoder.single draft = .ok x) :
    ∃ literal : Literal, draft = .number literal ∧ literal.Names x := by
  unfold Decoder.single at h
  split at h
  · rename_i literal
    refine ⟨literal, rfl, ?_⟩
    unfold Names
    cases hnumber : Grammar.number? literal with
    | none =>
        rw [hnumber] at h
        contradiction
    | some number =>
        rw [hnumber] at h
        exact congrArg some (Except.ok.inj h)
  · exact absurd h wrongType_ne_ok

section Rule

variable (hrule : Grammar.RoundsNumbers)

include hrule

/-- What stands for a literal is the number that it names, rounded. -/
theorem exists_of_names (h : literal.Names x) :
    ∃ number, Grammar.number? literal = some number ∧ x = number.single := by
  obtain ⟨number, hnumber, rfl⟩ := Option.map_eq_some_iff.1 h
  exact ⟨number, hnumber, hrule.rounded number⟩

theorem isFinite_iff_of_names (h : literal.Names x) : x.isFinite = true ↔ literal.Fits := by
  obtain ⟨number, hnumber, rfl⟩ := exists_of_names hrule h
  rw [number.isFinite_single_iff]
  constructor
  · exact fun hsize => ⟨number, hnumber, hsize⟩
  · rintro ⟨number', hnumber', hsize⟩
    rwa [Option.some.inj (hnumber.symm.trans hnumber')]

theorem view_ne_of_names (h : literal.Names x) : x.view ≠ .notANumber := by
  obtain ⟨number, hnumber, rfl⟩ := exists_of_names hrule h
  cases number with
  | whole n => exact Number.view_ofRatio_ne _ _ _
  | real y => exact Binary.Number.view_convert_ne (hrule.named literal y hnumber)

end Rule

/-- How the number that a literal names is written: with digits if the literal fits, and as
infinity if it does not. -/
structure Spelled (literal : Literal) (text : String) : Prop where
  float : literal.Fits → Snbt.isFloatText text = true
  infinite : ¬ literal.Fits → text = "inff" ∨ text = "-inff"

/-- The number that a literal names is written as it fits. -/
theorem spelled_of_names (hrule : Grammar.RoundsNumbers) (h : literal.Names x) :
    literal.Spelled (Snbt.float x).text where
  float hfits := by
    rw [Snbt.isFloatText_float, isFinite_iff_of_names hrule h]
    exact hfits
  infinite hfits := by
    rw [← isFinite_iff_of_names hrule h, Number.isFinite] at hfits
    cases hview : x.view with
    | finite negative significand exponent =>
        rw [hview] at hfits
        exact absurd rfl hfits
    | infinite negative =>
        rw [Snbt.text_of_infinite hview]
        cases negative with
        | true => exact .inr rfl
        | false => exact .inl rfl
    | notANumber => exact absurd hview (view_ne_of_names hrule h)

end Literal

end Json

end RigPack

import RigPack.Binary.Text
import RigPack.Proofs.Text.Decimal

/-!
# The characters of a number

The text of a binary number is made of digits and of a few marks and letters, whichever
style it is in (`Binary.isNumberChar_of_mem_chars`).
-/

namespace RigPack.Binary

/-- Whether a character is one of those that numbers are made of. -/
def isNumberChar (c : Char) : Bool :=
  c.isDigit || "+-.einfNa".toList.contains c

theorem isNumberChar_of_mem_toDigits {n : Nat} {c : Char} (hc : c ∈ Nat.toDigits 10 n) :
    isNumberChar c = true := by
  rw [isNumberChar, Text.isDigit_of_mem_toDigits hc, Bool.true_or]

theorem Decimal.isNumberChar_of_mem_positional {d : Decimal} {wholeMark : String}
    (hmark : wholeMark.toList.all isNumberChar = true) :
    ∀ c ∈ d.positional wholeMark, isNumberChar c = true := by
  have hchars : ∀ c ∈ d.chars, isNumberChar c = true := fun c => isNumberChar_of_mem_toDigits
  have hzero : isNumberChar '0' = true := by decide
  have hpoint : isNumberChar '.' = true := by decide
  intro c hc
  unfold positional at hc
  split at hc
  · simp only [List.mem_append, List.mem_replicate] at hc
    rcases hc with (hc | ⟨-, rfl⟩) | hc
    · exact hchars c hc
    · exact hzero
    · exact List.all_eq_true.1 hmark c hc
  · split at hc
    · rcases List.mem_append.1 hc with hc | hc
      · exact hchars c (List.mem_of_mem_take hc)
      · rcases List.mem_cons.1 hc with rfl | hc
        · exact hpoint
        · exact hchars c (List.mem_of_mem_drop hc)
    · simp only [List.cons_append, List.mem_cons, List.mem_append, List.mem_replicate] at hc
      rcases hc with rfl | rfl | ⟨-, rfl⟩ | hc
      · exact hzero
      · exact hpoint
      · exact hzero
      · exact hchars c hc

theorem Decimal.isNumberChar_of_mem_scientific {d : Decimal} :
    ∀ c ∈ d.scientific, isNumberChar c = true := by
  have hchars : ∀ c ∈ d.chars, isNumberChar c = true := fun c => isNumberChar_of_mem_toDigits
  have hmarks : ∀ c ∈ ['.', 'e', '+', '-'], isNumberChar c = true :=
    List.all_eq_true.1 (by decide)
  intro c hc
  simp only [scientific, List.append_assoc, List.mem_append, List.mem_cons] at hc
  rcases hc with hc | hc | rfl | rfl | hc
  · exact hchars c (List.mem_of_mem_take hc)
  · split at hc
    · exact absurd hc List.not_mem_nil
    · rcases List.mem_cons.1 hc with rfl | hc
      · exact hmarks _ (by decide)
      · exact hchars c (List.mem_of_mem_drop hc)
  · exact hmarks _ (by decide)
  · split
    · exact hmarks _ (by decide)
    · exact hmarks _ (by decide)
  · exact isNumberChar_of_mem_toDigits hc

/-- The text of a number is made of the characters of numbers. -/
theorem isNumberChar_of_mem_chars {f : Format} {style : Style}
    (hmark : style.wholeMark.toList.all isNumberChar = true) {x : Number f} :
    ∀ c ∈ x.chars style, isNumberChar c = true := by
  have hminus : isNumberChar '-' = true := by decide
  have hdecimal (d : Decimal) : ∀ c ∈ d.text style, isNumberChar c = true := by
    unfold Decimal.text
    split
    · exact Decimal.isNumberChar_of_mem_positional hmark
    · exact Decimal.isNumberChar_of_mem_scientific
  have hsign (negative : Bool) {text : List Char} (htext : ∀ c ∈ text, isNumberChar c = true) :
      ∀ c ∈ (if negative then ['-'] else []) ++ text, isNumberChar c = true := by
    cases negative with
    | false => exact htext
    | true => exact List.forall_mem_cons.2 ⟨hminus, htext⟩
  unfold Number.chars
  split
  · exact hsign _ (hdecimal _)
  · exact hsign _ (List.all_eq_true.1 (by decide))
  · exact List.all_eq_true.1 (by decide)

end RigPack.Binary

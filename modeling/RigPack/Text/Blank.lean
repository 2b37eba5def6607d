import RigPack.Text.CharSet

/-!
# Blank characters

A text that a user leaves "empty" may still hold blanks: the characters with the Unicode property
White_Space.  `trim` drops them from both ends, and the zero-width characters, which lack the
property, stay.
-/

namespace RigPack.Text

/-- The characters with the Unicode property White_Space. -/
def whiteSpace : CharSet :=
  ⟨[(0x09, 0x0D), (0x20, 0x20), (0x85, 0x85), (0xA0, 0xA0), (0x1680, 0x1680), (0x2000, 0x200A),
    (0x2028, 0x2029), (0x202F, 0x202F), (0x205F, 0x205F), (0x3000, 0x3000)]⟩

/-- Whether `c` is a blank. -/
def isBlank (c : Char) : Bool :=
  whiteSpace.has c

/-- A list of characters without the blanks at its front. -/
def dropBlanks (cs : List Char) : List Char :=
  cs.dropWhile isBlank

/-- A text without the blanks at its two ends. -/
def trim (s : String) : String :=
  String.ofList (dropBlanks (dropBlanks s.toList).reverse).reverse

/-- Every blank of the ASCII range that core knows is a blank here. -/
theorem isBlank_of_isWhitespace {c : Char} (h : c.isWhitespace = true) : isBlank c = true := by
  rw [Char.isWhitespace] at h
  simp only [Bool.or_eq_true, decide_eq_true_eq] at h
  rcases h with ((rfl | rfl) | rfl) | rfl <;> decide

example : trim "\u3000 if entity @s\u00a0" = "if entity @s" := by decide
example : trim "\u200b" = "\u200b" := by decide

end RigPack.Text

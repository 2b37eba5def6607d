import Mathlib.Data.List.Basic
import RigPack.Timeline.Units
import RigPack.Proofs.Text.Decimal

/-!
# Score tests, read from the text of a line

The game knows a function file as lines of text.  A line of the form

```text
execute if score @s aj.anim_time matches R run function F
```

asks whether the time score lies in the range `R`, and if so runs the function of
the name `F`.  This file reads such a line character by character, without knowing
what wrote it, and shows that the line by which a timeline enters a node is read
as the range of the node and the name of its function (`read?_dispatch`).
-/

namespace RigPack

namespace ScoreRange

/-- Whether a score lies in a range. -/
def Has (t : Int) : ScoreRange → Prop
  | exactly n => t = n
  | between low high => (low : Int) ≤ t ∧ t ≤ high
  | atLeast low => (low : Int) ≤ t

instance (t : Int) (range : ScoreRange) : Decidable (range.Has t) :=
  match range with
  | exactly n => inferInstanceAs (Decidable (t = n))
  | between low high => inferInstanceAs (Decidable ((low : Int) ≤ t ∧ t ≤ high))
  | atLeast low => inferInstanceAs (Decidable ((low : Int) ≤ t))

/-- The range that a text starts with, and the text behind it: `a` is the number
`a` alone, `a..b` the numbers from `a` to `b`, and `a..` those from `a` on. -/
def read? (cs : List Char) : Option (ScoreRange × List Char) :=
  match Text.decimal? (cs.takeWhile Char.isDigit), cs.dropWhile Char.isDigit with
  | none, _ => none
  | some low, '.' :: '.' :: rest =>
    match Text.decimal? (rest.takeWhile Char.isDigit) with
    | none => some (atLeast low, rest)
    | some high => some (between low high, rest.dropWhile Char.isDigit)
  | some n, rest => some (exactly n, rest)

theorem dropWhile_toDigits (n : Nat) {cs : List Char} (hcs : Text.EndsNumber cs) :
    (Nat.toDigits 10 n ++ cs).dropWhile Char.isDigit = cs := by
  have hsplit := List.takeWhile_append_dropWhile (p := Char.isDigit)
    (l := Nat.toDigits 10 n ++ cs)
  rw [Text.takeWhile_toDigits n hcs] at hsplit
  exact List.append_cancel_left hsplit

/-- A range is read back from its text, up to the blank behind it. -/
theorem read?_text (range : ScoreRange) (rest : List Char) :
    read? (range.text.toList ++ ' ' :: rest) = some (range, ' ' :: rest) := by
  have hblank : Text.EndsNumber (' ' :: rest) := by simp
  cases range with
  | exactly n =>
      have htext : (exactly n).text.toList = Nat.toDigits 10 n := by simp [text]
      rw [read?, htext, Text.takeWhile_toDigits n hblank, dropWhile_toDigits n hblank,
        Text.decimal?_toDigits]
      simp
  | between low high =>
      have hdots : Text.EndsNumber ('.' :: '.' :: (Nat.toDigits 10 high ++ ' ' :: rest)) := by simp
      have htext : (between low high).text.toList ++ ' ' :: rest
          = Nat.toDigits 10 low ++ '.' :: '.' :: (Nat.toDigits 10 high ++ ' ' :: rest) := by
        simp [text]
      rw [read?, htext, Text.takeWhile_toDigits low hdots, dropWhile_toDigits low hdots,
        Text.decimal?_toDigits]
      simp only
      rw [Text.takeWhile_toDigits high hblank, dropWhile_toDigits high hblank,
        Text.decimal?_toDigits]
  | atLeast low =>
      have hdots : Text.EndsNumber ('.' :: '.' :: ' ' :: rest) := by simp
      have htext : (atLeast low).text.toList ++ ' ' :: rest
          = Nat.toDigits 10 low ++ '.' :: '.' :: ' ' :: rest := by simp [text]
      rw [read?, htext, Text.takeWhile_toDigits low hdots, dropWhile_toDigits low hdots,
        Text.decimal?_toDigits]
      simp only
      rw [Text.takeWhile_eq_nil_of_endsNumber hblank]
      rfl

end ScoreRange

/-- What a line asks that tests the time score of the entity that runs it. -/
structure ScoreTest where
  range : ScoreRange
  /-- The name of the function that runs if the score lies in the range. -/
  target : String

namespace ScoreTest

/-- What stands in front of the range. -/
def opening : String :=
  "execute if score @s aj.anim_time matches "

/-- What stands between the range and the name of the function. -/
def middle : String :=
  " run function "

/-- The test that a line spells, if it has the form of one. -/
def read? (line : String) : Option ScoreTest := do
  let rest ← line.toList.dropPrefix? opening.toList
  let (range, rest) ← ScoreRange.read? rest
  let target ← rest.dropPrefix? middle.toList
  return ⟨range, String.ofList target⟩

theorem read?_spelled (range : ScoreRange) (target : String) :
    read? (opening ++ (range.text ++ (middle ++ target))) = some ⟨range, target⟩ := by
  -- the blank that starts the middle part is where the range ends
  have hmiddle : middle.toList ++ target.toList
      = ' ' :: ("run function ".toList ++ target.toList) := rfl
  have hread : ScoreRange.read? (range.text.toList ++ (middle.toList ++ target.toList))
      = some (range, middle.toList ++ target.toList) := by
    rw [hmiddle]
    exact ScoreRange.read?_text range _
  simp only [read?, String.toList_append]
  rw [List.dropPrefix?_append_of_beq _ (BEq.refl _), Option.bind_eq_bind, Option.bind_some, hread,
    Option.bind_eq_bind, Option.bind_some]
  simp only
  rw [List.dropPrefix?_append_of_beq _ (BEq.refl _), Option.bind_some, String.ofList_toList]
  rfl

end ScoreTest

namespace ScoreRange

theorem suffix_of_read? {cs rest : List Char} {range : ScoreRange}
    (h : read? cs = some (range, rest)) : rest <:+ cs := by
  have hdrop := List.dropWhile_suffix Char.isDigit (l := cs)
  unfold read? at h
  split at h
  · simp at h
  · rename_i low later hlow hlater
    rw [hlater] at hdrop
    have hlater_suffix : later <:+ cs :=
      ((List.suffix_cons '.' later).trans (List.suffix_cons '.' _)).trans hdrop
    split at h
    · obtain ⟨-, rfl⟩ := Prod.mk.inj (Option.some.inj h)
      exact hlater_suffix
    · obtain ⟨-, rfl⟩ := Prod.mk.inj (Option.some.inj h)
      exact (List.dropWhile_suffix _).trans hlater_suffix
  · obtain ⟨-, rfl⟩ := Prod.mk.inj (Option.some.inj h)
    exact hdrop

end ScoreRange

/-- What a line calls that is read as a test stands at the end of the line. -/
theorem ScoreTest.target_suffix {line : String} {test : ScoreTest}
    (h : ScoreTest.read? line = some test) : test.target.toList <:+ line.toList := by
  simp only [ScoreTest.read?, Option.bind_eq_bind, Option.bind_eq_some_iff] at h
  obtain ⟨behindOpening, hopening, ⟨range, behindRange⟩, hrange, target, hmiddle, htest⟩ := h
  obtain ⟨opening', hline, -⟩ := List.dropPrefix?_eq_some_iff.1 hopening
  obtain ⟨middle', hbehind, -⟩ := List.dropPrefix?_eq_some_iff.1 hmiddle
  obtain rfl := Option.some.inj htest
  have htarget : target <:+ behindRange := ⟨middle', hbehind.symm⟩
  have hrest : behindOpening <:+ line.toList := ⟨opening', hline.symm⟩
  rw [String.toList_ofList]
  exact (htarget.trans (ScoreRange.suffix_of_read? hrange)).trans hrest

theorem Timeline.text_dispatch {α : Type} (names : Naming) (animation : String)
    (node : RangeTree α) :
    (Timeline.dispatch names animation node).text = ScoreTest.opening ++ (node.scoreRange.text
      ++ (ScoreTest.middle ++ (names.timelineFunction animation node.unit).text)) := by
  have hopening : "execute " ++ ("if score " ++ (scoreText .self .time ++ " matches "))
      = ScoreTest.opening := by decide +kernel
  have hmiddle : " run " ++ "function " = ScoreTest.middle := by decide +kernel
  have htext : (Timeline.dispatch names animation node).text
      = "execute " ++ " ".intercalate
          ["if score " ++ scoreText .self .time ++ " matches " ++ node.scoreRange.text]
        ++ " run " ++ ("function " ++ (names.timelineFunction animation node.unit).text) := rfl
  rw [← hopening, ← hmiddle, htext, String.intercalate_singleton]
  simp only [String.append_assoc]

/-- The line by which a node is entered asks for the range of the node, and calls
the function of the node. -/
theorem Timeline.read?_dispatch {α : Type} (names : Naming) (animation : String)
    (node : RangeTree α) :
    ScoreTest.read? (Timeline.dispatch names animation node).text
      = some ⟨node.scoreRange, (names.timelineFunction animation node.unit).text⟩ := by
  rw [Timeline.text_dispatch, ScoreTest.read?_spelled]

end RigPack

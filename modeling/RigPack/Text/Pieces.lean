/-!
# Pieces of a text

Paths, lists and file contents are cut at a mark.  A text with `n` marks has `n + 1` pieces, some of
which may be empty.
-/

namespace RigPack.Text

/-- The pieces between the marks of a list of characters. -/
def pieces (mark : Char) : List Char → List (List Char)
  | [] => [[]]
  | c :: cs =>
    if c = mark then [] :: pieces mark cs
    else
      match pieces mark cs with
      | [] => [[c]]
      | piece :: rest => (c :: piece) :: rest

theorem pieces_ne_nil (mark : Char) (cs : List Char) : pieces mark cs ≠ [] := by
  fun_cases pieces mark cs <;> simp_all

/-- No piece holds a mark. -/
theorem not_mem_of_mem_pieces {mark : Char} {cs piece : List Char}
    (h : piece ∈ pieces mark cs) : mark ∉ piece := by
  induction cs generalizing piece with
  | nil => simp_all [pieces]
  | cons c cs ih => grind [pieces]

/-- The pieces with a mark between each two are the text. -/
theorem intercalate_pieces (mark : Char) (cs : List Char) :
    [mark].intercalate (pieces mark cs) = cs := by
  induction cs with
  | nil => simp [pieces, List.intercalate]
  | cons c cs ih =>
    have some_ := pieces_ne_nil mark cs
    rw [pieces]
    split
    · cases h : pieces mark cs with
      | nil => exact absurd h some_
      | cons piece rest =>
        rw [h] at ih
        simp_all [List.intercalate]
    · cases h : pieces mark cs with
      | nil => exact absurd h some_
      | cons piece rest =>
        rw [h] at ih
        cases rest <;> simp_all [List.intercalate]

end RigPack.Text

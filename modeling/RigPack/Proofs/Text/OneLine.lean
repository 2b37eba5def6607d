import RigPack.Proofs.Binary.Chars
import RigPack.Proofs.Text.Words
import RigPack.Text.Lines

/-!
# Texts on one line

A text without line feeds can be put on a line of its own, and is got back when the lines are
split again.  Whether a text has no line feed is decided part by part: for what is joined or
appended, for numbers in each of their forms, and for the lines of another text.

## Main statements

* `Text.closedLines_unlines_iff`: lines are got back exactly if each of them is on one line.
* `Binary.newline_not_mem_chars`: a number is written on one line.
-/

namespace RigPack

/-- Whether a text holds no line feed. -/
def IsOneLine (s : String) : Prop :=
  '\n' ∉ s.toList

instance (s : String) : Decidable (IsOneLine s) :=
  inferInstanceAs (Decidable (¬ _))

theorem isOneLine_append {s t : String} :
    IsOneLine (s ++ t) ↔ IsOneLine s ∧ IsOneLine t := by
  simp [IsOneLine]

theorem isOneLine_ofList {cs : List Char} :
    IsOneLine (String.ofList cs) ↔ '\n' ∉ cs := by
  simp [IsOneLine]

theorem isOneLine_intercalate {separator : String} (hseparator : IsOneLine separator)
    {parts : List String} :
    IsOneLine (separator.intercalate parts) ↔ ∀ part ∈ parts, IsOneLine part :=
  Text.not_mem_intercalate_iff hseparator

/-! ## Lines, joined and split -/

namespace Text

/-- The texts that a text is split into at its line feeds, but for the last one, which no line
feed closes. -/
def closedLines (s : String) : List String :=
  (pieces '\n' s.toList).dropLast.map String.ofList

theorem closedLines_unlines_cons {line : String} (hline : IsOneLine line) (lines : List String) :
    closedLines (unlines (line :: lines)) = line :: closedLines (unlines lines) := by
  have htext :
      (unlines (line :: lines)).toList = line.toList ++ '\n' :: (unlines lines).toList := by
    simp [unlines]
  rw [closedLines, htext, pieces_append_mark hline,
    List.dropLast_cons_of_ne_nil (pieces_ne_nil _ _), List.map_cons, String.ofList_toList]
  rfl

/-- Lines are got back from their text exactly if none of them holds a line feed. -/
theorem closedLines_unlines_iff {lines : List String} :
    closedLines (unlines lines) = lines ↔ ∀ line ∈ lines, IsOneLine line := by
  constructor
  · intro h line hline
    rw [← h, closedLines] at hline
    obtain ⟨piece, hpiece, rfl⟩ := List.mem_map.1 hline
    exact isOneLine_ofList.2 (not_mem_of_mem_pieces (List.dropLast_subset _ hpiece))
  · intro h
    induction lines with
    | nil => rfl
    | cons line lines ih =>
        obtain ⟨hline, hlines⟩ := List.forall_mem_cons.1 h
        rw [closedLines_unlines_cons hline, ih hlines]

theorem newline_not_mem_lineChars {cs line : List Char} (h : line ∈ lineChars cs) :
    '\n' ∉ line := by
  fun_induction lineChars cs generalizing line with
  | case1 => exact absurd h List.not_mem_nil
  | case2 rest ih =>
      rcases List.mem_cons.1 h with rfl | h
      · exact List.not_mem_nil
      · exact ih h
  | case3 rest ih =>
      rcases List.mem_cons.1 h with rfl | h
      · exact List.not_mem_nil
      · exact ih h
  | case4 c rest hc _ hrest ih =>
      obtain rfl := List.mem_singleton.1 h
      exact fun hmem => hc (List.mem_singleton.1 hmem).symm
  | case5 c rest hc _ first others hrest ih =>
      rcases List.mem_cons.1 h with rfl | h
      · have hfirst : '\n' ∉ first := ih (hrest ▸ List.mem_cons_self ..)
        exact List.not_mem_cons_of_ne_of_not_mem (fun heq => hc heq.symm) hfirst
      · exact ih (hrest ▸ .tail _ h)

/-- The lines of a text are on one line each. -/
theorem isOneLine_of_mem_lines {s line : String} (h : line ∈ lines s) : IsOneLine line := by
  obtain ⟨cs, hcs, rfl⟩ := List.mem_map.1 h
  exact isOneLine_ofList.2 (newline_not_mem_lineChars hcs)

theorem newline_not_mem_toDigits (n : Nat) : '\n' ∉ Nat.toDigits 10 n := fun hmem =>
  absurd (isDigit_of_mem_toDigits hmem) (by decide)

end Text

theorem isOneLine_toString (n : Nat) : IsOneLine (toString n) := by
  rw [IsOneLine, Text.toList_toString]
  exact Text.newline_not_mem_toDigits n

theorem isOneLine_toString_int (n : Int) : IsOneLine (toString n) := by
  cases n with
  | ofNat n => exact isOneLine_toString n
  | negSucc n => exact isOneLine_append.2 ⟨by decide, isOneLine_toString (n + 1)⟩

/-! ## Numbers -/

/-- A number is written on one line. -/
theorem Binary.newline_not_mem_chars {f : Format} {style : Style}
    (hmark : style.wholeMark.toList.all isNumberChar = true) (x : Number f) :
    '\n' ∉ x.chars style := fun hmem =>
  absurd (isNumberChar_of_mem_chars hmark _ hmem) (by decide)

end RigPack

import RigPack.Proofs.Text.OneLine

/-!
# Line breaks, split and written again

A text is split into lines at its line breaks, and lines are written with a line feed behind
each.  What this does to a text is said without lines: a break of two characters becomes one
of one character, and a text that some further line ends gets the line feed that it lacks.
Nothing else changes, so a carriage return that is not in front of a line feed stays.

## Main statements

* `unlines_lines`: a text that is split into lines and written again.
-/

namespace RigPack.Text

/-- A text with one character for each line break: a carriage return in front of a line feed is
dropped. -/
def singleBreaks : List Char → List Char
  | [] => []
  | '\r' :: '\n' :: rest => '\n' :: singleBreaks rest
  | c :: rest => c :: singleBreaks rest

/-- The line feed that a text lacks at its end; an empty text lacks none. -/
def missingBreak (cs : List Char) : List Char :=
  if cs = [] ∨ cs.getLast? = some '\n' then [] else ['\n']

@[simp] theorem missingBreak_nil : missingBreak [] = [] := rfl

@[simp] theorem missingBreak_newline_cons (rest : List Char) :
    missingBreak ('\n' :: rest) = missingBreak rest := by
  cases rest with
  | nil => rfl
  | cons c rest => simp [missingBreak, List.getLast?_cons_cons]

theorem missingBreak_cons (c : Char) {rest : List Char} (hrest : rest ≠ []) :
    missingBreak (c :: rest) = missingBreak rest := by
  obtain ⟨next, rest, rfl⟩ := List.exists_cons_of_ne_nil hrest
  simp [missingBreak, List.getLast?_cons_cons]

theorem lineChars_eq_nil_iff {cs : List Char} : lineChars cs = [] ↔ cs = [] := by
  fun_cases lineChars cs <;> simp_all

/-- The lines of a text, with a line feed behind each, are the text with single line breaks. -/
theorem flatMap_lineChars (cs : List Char) :
    (lineChars cs).flatMap (· ++ ['\n']) = singleBreaks cs ++ missingBreak cs := by
  fun_induction lineChars cs with
  | case1 => rfl
  | case2 rest ih =>
      rw [List.flatMap_cons, ih, singleBreaks, missingBreak_newline_cons]
      · rfl
      · simp
  | case3 rest ih =>
      rw [List.flatMap_cons, ih, singleBreaks, missingBreak_cons '\r' (by simp),
        missingBreak_newline_cons]
      rfl
  | case4 c rest hnewline hreturn hnil ih =>
      -- the character is the last one, and closes no line
      obtain rfl := lineChars_eq_nil_iff.1 hnil
      have hc : c ≠ '\n' := hnewline
      simp [singleBreaks, missingBreak, hc]
  | case5 c rest hnewline hreturn line lines hlines ih =>
      have hrest : rest ≠ [] := fun hnil => by simp [hnil, lineChars] at hlines
      rw [hlines, List.flatMap_cons] at ih
      rw [List.flatMap_cons, singleBreaks, missingBreak_cons c hrest, List.cons_append,
        List.cons_append, List.cons_append, ← ih]
      exact hreturn

/-- A text that is split into lines and written again has single line breaks, and one behind its
last line. -/
theorem unlines_lines (s : String) :
    unlines (lines s) = String.ofList (singleBreaks s.toList ++ missingBreak s.toList) := by
  rw [← flatMap_lineChars, ← String.toList_inj, String.toList_ofList]
  simp [unlines, lines, List.flatMap_map, Function.comp_def]

example : unlines (lines "a\r\n\r\r\n b\r") = "a\n\r\n b\r\n" := by decide

end RigPack.Text

import RigPack.Proofs.Path
import RigPack.Proofs.Text.Decimal

/-!
# Texts, cut at a mark

Names are cut at their dots and commands at their blanks.  A text is its pieces with the mark
between each two, so what is said of the pieces is said of the text.  The pieces between the
blanks of a command are its words.
-/

namespace RigPack.Text

/-! ## Cutting -/

/-- The pieces between the marks of a text. -/
def cut (mark : Char) (text : String) : List String :=
  (pieces mark text.toList).map String.ofList

theorem cut_ne_nil (mark : Char) (text : String) : cut mark text ≠ [] :=
  fun h => pieces_ne_nil mark text.toList (List.map_eq_nil_iff.1 h)

theorem cut_eq_singleton {mark : Char} {text : String} (h : mark ∉ text.toList) :
    cut mark text = [text] := by
  rw [cut, pieces_of_not_mem h, List.map_singleton, String.ofList_toList]

/-- A mark separates the pieces in front of it from those behind. -/
theorem cut_append (mark : Char) (front back : String) :
    cut mark (front ++ String.singleton mark ++ back) = cut mark front ++ cut mark back := by
  have htext : (front ++ String.singleton mark ++ back).toList
      = front.toList ++ mark :: back.toList := by simp
  rw [cut, htext, pieces_append, List.map_append]
  rfl

/-- A text is its pieces with a mark between each two. -/
theorem intercalate_cut (mark : Char) (text : String) :
    (String.singleton mark).intercalate (cut mark text) = text := by
  apply String.toList_inj.1
  rw [String.toList_intercalate, cut, List.map_map, String.toList_singleton]
  have hid : String.toList ∘ String.ofList = id := funext fun piece => String.toList_ofList
  rw [hid, List.map_id]
  exact intercalate_pieces mark text.toList

theorem not_mem_of_mem_cut {mark : Char} {text piece : String} (h : piece ∈ cut mark text) :
    mark ∉ piece.toList := by
  obtain ⟨cs, hcs, rfl⟩ := List.mem_map.1 h
  rw [String.toList_ofList]
  exact not_mem_of_mem_pieces hcs

theorem cut_intercalate (mark : Char) {texts : List String} (hne : texts ≠ []) :
    cut mark ((String.singleton mark).intercalate texts) = texts.flatMap (cut mark) := by
  induction texts with
  | nil => exact absurd rfl hne
  | cons text rest ih =>
      cases rest with
      | nil => simp
      | cons next rest =>
          rw [String.intercalate_cons_cons, cut_append, ih (List.cons_ne_nil _ _)]
          rfl

/-- A joined text holds what its parts and the separator hold. -/
theorem not_mem_intercalate_iff {c : Char} {separator : String} (hc : c ∉ separator.toList)
    {parts : List String} :
    c ∉ (separator.intercalate parts).toList ↔ ∀ part ∈ parts, c ∉ part.toList := by
  induction parts with
  | nil => simp
  | cons part rest ih =>
      cases rest with
      | nil => simp
      | cons next rest =>
          rw [String.intercalate_cons_cons, String.toList_append, String.toList_append,
            List.mem_append, List.mem_append, not_or, not_or, ih, and_iff_left hc]
          exact (List.forall_mem_cons (p := fun part : String => c ∉ part.toList)).symm

/-- What is joined of texts without marks is cut into these texts. -/
theorem cut_intercalate_of_not_mem {mark : Char} {texts : List String} (hne : texts ≠ [])
    (htexts : ∀ text ∈ texts, mark ∉ text.toList) :
    cut mark ((String.singleton mark).intercalate texts) = texts := by
  rw [cut_intercalate mark hne]
  clear hne
  induction texts with
  | nil => rfl
  | cons text rest ih =>
      rw [List.flatMap_cons, cut_eq_singleton (htexts text (List.mem_cons_self ..)),
        ih fun other hother => htexts other (.tail _ hother), List.singleton_append]

/-! ## Words -/

/-- The words of a line. -/
def words (line : String) : List String :=
  cut ' ' line

/-- Whether a text is a single word. -/
def IsOneWord (s : String) : Prop :=
  ' ' ∉ s.toList

instance (s : String) : Decidable (IsOneWord s) :=
  inferInstanceAs (Decidable (¬_))

theorem isOneWord_append {s t : String} :
    IsOneWord (s ++ t) ↔ IsOneWord s ∧ IsOneWord t := by
  simp [IsOneWord]

theorem isOneWord_toString (n : Nat) : IsOneWord (toString n) := by
  intro hmem
  rw [toList_toString] at hmem
  exact absurd (isDigit_of_mem_toDigits hmem) (by decide)

theorem isOneWord_toString_int (n : Int) : IsOneWord (toString n) := by
  intro hmem
  rcases isDigit_or_eq_minus_of_mem_toString hmem with hdigit | hminus
  · exact absurd hdigit (by decide)
  · exact absurd hminus (by decide)

theorem words_eq_singleton {s : String} (h : IsOneWord s) : words s = [s] :=
  cut_eq_singleton h

/-- A blank separates the words in front of it from those behind. -/
theorem words_append (front back : String) :
    words (front ++ " " ++ back) = words front ++ words back :=
  cut_append ' ' front back

/-- A fixed text that ends in a blank, with its words spelled out. -/
theorem words_lead (front : String) {lead : String} (h : lead.toList = front.toList ++ [' '])
    (back : String) : words (lead ++ back) = words front ++ words back := by
  have hlead : lead = front ++ " " := String.toList_inj.1 (by simp [h])
  rw [hlead, words_append]

/-- A fixed text between two blanks, with its words spelled out. -/
theorem words_between (inner : String) {middle : String}
    (h : middle.toList = ' ' :: (inner.toList ++ [' '])) (front back : String) :
    words (front ++ middle ++ back) = words front ++ (words inner ++ words back) := by
  have hmiddle : front ++ middle ++ back = front ++ " " ++ (inner ++ " " ++ back) :=
    String.toList_inj.1 (by simp [h])
  rw [hmiddle, words_append, words_append]

/-- A fixed text behind a blank, with its words spelled out. -/
theorem words_trail (back : String) {trail : String} (h : trail.toList = ' ' :: back.toList)
    (front : String) : words (front ++ trail) = words front ++ words back := by
  have htrail : front ++ trail = front ++ " " ++ back := String.toList_inj.1 (by simp [h])
  rw [htrail, words_append]

theorem words_intercalate {texts : List String} (hne : texts ≠ []) :
    words (" ".intercalate texts) = texts.flatMap words :=
  cut_intercalate ' ' hne

theorem intercalate_words (line : String) : " ".intercalate (words line) = line :=
  intercalate_cut ' ' line

/-! ## The last of several marks -/

/-- What stands in front of the last mark of a list, and what behind it. -/
def splitAtLast {α : Type} [DecidableEq α] (mark : α) : List α → Option (List α × List α)
  | [] => none
  | x :: xs =>
    match splitAtLast mark xs with
    | some (front, back) => some (x :: front, back)
    | none => if x = mark then some ([], xs) else none

section SplitAtLast

variable {α : Type} [DecidableEq α] {mark : α} {front back xs : List α}

theorem splitAtLast_of_not_mem (h : mark ∉ xs) : splitAtLast mark xs = none := by
  induction xs with
  | nil => rfl
  | cons x xs ih =>
      rw [splitAtLast, ih fun hmem => h (.tail _ hmem)]
      exact if_neg fun heq => h (List.mem_cons.2 (.inl heq.symm))

theorem splitAtLast_append (h : mark ∉ back) :
    splitAtLast mark (front ++ mark :: back) = some (front, back) := by
  induction front with
  | nil =>
      rw [List.nil_append, splitAtLast, splitAtLast_of_not_mem h]
      exact if_pos rfl
  | cons x front ih => rw [List.cons_append, splitAtLast, ih]

theorem eq_append_of_splitAtLast (h : splitAtLast mark xs = some (front, back)) :
    xs = front ++ mark :: back := by
  induction xs generalizing front with
  | nil => contradiction
  | cons x xs ih =>
      rw [splitAtLast] at h
      split at h
      · rename_i hrest
        obtain ⟨rfl, rfl⟩ := Prod.mk.inj (Option.some.inj h)
        rw [List.cons_append, ← ih hrest]
      · split at h
        · rename_i heq
          obtain ⟨rfl, rfl⟩ := Prod.mk.inj (Option.some.inj h)
          rw [heq, List.nil_append]
        · contradiction

end SplitAtLast

end RigPack.Text

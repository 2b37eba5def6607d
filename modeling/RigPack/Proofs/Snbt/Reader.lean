import RigPack.Snbt
import RigPack.Proofs.Binary.Chars

/-!
# Tag values, read from their text

The text of a tag value is put into commands, among other text.  So it has to tell which
value it is of and where it ends.  This file reads a value character by character: what
stands between quotes up to the first quote that is not escaped, what is nested one level
further down, and a number up to the next comma or closing bracket.

## Main statements

* `Snbt.readValue_chars`: a value is read back from its text, whatever follows, if that
  does not prolong a number.
* `Snbt.text_unambiguous`: two values with one text are equal, but for floating point
  numbers that are printed alike.

## Strategy

Reading a value, and the rest of a list or compound, is one step that takes at least one
character.  So as many steps as there are characters are enough, and the induction is on
the value, in the order in which its text is written.
-/

namespace RigPack.Snbt

/-- A value as far as its text can tell: a floating point number is its text. -/
inductive Shown
  | int (n : Int32)
  | float (text : List Char)
  | string (s : String)
  | list (items : List Shown)
  | compound (entries : List (String × Shown))

mutual

/-- What can be told of a value. -/
def shown : Snbt → Shown
  | .int n => .int n
  | .float x => .float (x.chars .command)
  | .string s => .string s
  | .list items => .list (shownItems items)
  | .compound entries => .compound (shownEntries entries)

/-- What can be told of the items of a list. -/
def shownItems : List Snbt → List Shown
  | [] => []
  | item :: items => shown item :: shownItems items

/-- What can be told of the entries of a compound. -/
def shownEntries : List (String × Snbt) → List (String × Shown)
  | [] => []
  | (key, value) :: entries => (key, shown value) :: shownEntries entries

end

/-! ## Reading -/

/-- Whether a character ends a number. -/
def isEnd (c : Char) : Bool :=
  c = ',' || c = ']' || c = '\x7d'

/-- The number that a text starts with, and what follows it. -/
def readNumber (cs : List Char) : Option (Shown × List Char) :=
  let number := cs.takeWhile (!isEnd ·)
  let rest := cs.dropWhile (!isEnd ·)
  if number.getLast? = some 'f' then some (.float number.dropLast, rest)
  else (Text.signedDecimal? number).map fun n => (.int (Int32.ofInt n), rest)

/-- A text up to the quote that ends it, and what follows that quote. -/
def readQuoted : List Char → Option (List Char × List Char)
  | [] => none
  | '"' :: cs => some ([], cs)
  | '\\' :: c :: cs => (readQuoted cs).map fun (s, rest) => (c :: s, rest)
  | c :: cs => (readQuoted cs).map fun (s, rest) => (c :: s, rest)

/-- The key that a text starts with, and what follows the colon behind it. -/
def readKey (cs : List Char) : Option (String × List Char) := do
  let (key, rest) ←
    match cs with
    | '"' :: cs => readQuoted cs
    | cs => some (cs.takeWhile isBareChar, cs.dropWhile isBareChar)
  match rest with
  | ':' :: rest => some (String.ofList key, rest)
  | _ => none

mutual

/-- The value that a text starts with, read in so many steps, and what follows it. -/
def readValue : Nat → List Char → Option (Shown × List Char)
  | 0, _ => none
  | _ + 1, '"' :: cs => do
    let (s, rest) ← readQuoted cs
    return (.string (String.ofList s), rest)
  | _ + 1, '[' :: ']' :: cs => some (.list [], cs)
  | steps + 1, '[' :: cs => do
    let (item, rest) ← readValue steps cs
    let (items, rest) ← readItems steps rest
    return (.list (item :: items), rest)
  | _ + 1, '\x7b' :: '\x7d' :: cs => some (.compound [], cs)
  | steps + 1, '\x7b' :: cs => do
    let (key, rest) ← readKey cs
    let (value, rest) ← readValue steps rest
    let (entries, rest) ← readEntries steps rest
    return (.compound ((key, value) :: entries), rest)
  | _ + 1, cs => readNumber cs

/-- The items behind one of a list, up to the bracket that ends the list. -/
def readItems : Nat → List Char → Option (List Shown × List Char)
  | steps + 1, ',' :: cs => do
    let (item, rest) ← readValue steps cs
    let (items, rest) ← readItems steps rest
    return (item :: items, rest)
  | _ + 1, ']' :: cs => some ([], cs)
  | _, _ => none

/-- The entries behind one of a compound, up to the bracket that ends the compound. -/
def readEntries : Nat → List Char → Option (List (String × Shown) × List Char)
  | steps + 1, ',' :: cs => do
    let (key, rest) ← readKey cs
    let (value, rest) ← readValue steps rest
    let (entries, rest) ← readEntries steps rest
    return ((key, value) :: entries, rest)
  | _ + 1, '\x7d' :: cs => some ([], cs)
  | _, _ => none

end

/-- The value that a text starts with, and what follows it. -/
def read (cs : List Char) : Option (Shown × List Char) :=
  readValue cs.length cs

/-- A text that does not prolong a number in front of it. -/
def Ends (cs : List Char) : Prop :=
  ∀ c ∈ cs.head?, isEnd c = true

@[simp] theorem ends_nil : Ends [] := nofun

@[simp] theorem ends_cons {c : Char} {cs : List Char} : Ends (c :: cs) ↔ isEnd c = true := by
  simp [Ends]

/-! ## Numbers -/

theorem isEnd_of_isNumberChar {c : Char} (hc : Binary.isNumberChar c = true) :
    isEnd c = false := by
  unfold isEnd
  simp only [Bool.or_eq_false_iff, decide_eq_false_iff_not]
  refine ⟨⟨?_, ?_⟩, ?_⟩ <;> rintro rfl <;> exact absurd hc (by decide)

/-- A number is cut off the text that it stands in front of. -/
theorem span_number {number rest : List Char}
    (hnumber : ∀ c ∈ number, Binary.isNumberChar c = true) (hrest : Ends rest) :
    (number ++ rest).takeWhile (!isEnd ·) = number ∧
      (number ++ rest).dropWhile (!isEnd ·) = rest := by
  have hin : ∀ c ∈ number, (!isEnd c) = true := fun c hc => by
    rw [isEnd_of_isNumberChar (hnumber c hc), Bool.not_false]
  rw [List.takeWhile_append_of_pos hin, List.dropWhile_append_of_pos hin]
  cases rest with
  | nil => exact ⟨List.append_nil number, rfl⟩
  | cons c rest =>
      have hend : isEnd c = true := ends_cons.1 hrest
      simp [hend]

theorem isNumberChar_of_mem_float (x : Binary.Single) :
    ∀ c ∈ x.chars .command ++ ['f'], Binary.isNumberChar c = true := by
  intro c hc
  rcases List.mem_append.1 hc with hc | hc
  · exact Binary.isNumberChar_of_mem_chars (by decide) c hc
  · rw [List.mem_singleton.1 hc]
    decide

theorem readNumber_float (x : Binary.Single) {rest : List Char} (hrest : Ends rest) :
    readNumber (x.chars .command ++ ['f'] ++ rest) = some (.float (x.chars .command), rest) := by
  obtain ⟨htake, hdrop⟩ := span_number (isNumberChar_of_mem_float x) hrest
  have hlast : (x.chars .command ++ ['f']).getLast? = some 'f' := List.getLast?_concat
  unfold readNumber
  simp only [htake, hdrop, hlast, if_true, List.dropLast_concat]

theorem isNumberChar_of_mem_toString {n : Int} :
    ∀ c ∈ (toString n).toList, Binary.isNumberChar c = true := by
  intro c hc
  rcases Text.isDigit_or_eq_minus_of_mem_toString hc with hdigit | rfl
  · rw [Binary.isNumberChar, hdigit, Bool.true_or]
  · decide

theorem readNumber_int (n : Int32) {rest : List Char} (hrest : Ends rest) :
    readNumber ((toString n.toInt).toList ++ rest) = some (.int n, rest) := by
  have hall : ∀ c ∈ (toString n.toInt).toList, Binary.isNumberChar c = true :=
    isNumberChar_of_mem_toString
  obtain ⟨htake, hdrop⟩ := span_number hall hrest
  have hlast : (toString n.toInt).toList.getLast? ≠ some 'f' := by
    intro hlast
    rcases Text.isDigit_or_eq_minus_of_mem_toString (List.mem_of_getLast? hlast) with h | h
    · exact absurd h (by decide)
    · exact absurd h (by decide)
  unfold readNumber
  simp only [htake, hdrop, if_neg hlast, Text.signedDecimal?_toString, Option.map_some,
    Int32.ofInt_toInt]

/-! ## Quotes and keys -/

theorem readQuoted_append (s rest : List Char) :
    readQuoted (s.flatMap escapedChar ++ '"' :: rest) = some (s, rest) := by
  induction s with
  | nil => rfl
  | cons c s ih =>
      rw [List.flatMap_cons, List.append_assoc, escapedChar]
      split
      · rename_i hquote
        rw [hquote, List.cons_append, List.cons_append, readQuoted, List.nil_append, ih]
        rfl
      · rename_i hquote
        split
        · rename_i hslash
          rw [hslash, List.cons_append, List.cons_append, readQuoted, List.nil_append, ih]
          rfl
        · rename_i hslash
          rw [List.singleton_append, readQuoted, ih]
          · rfl
          · exact hquote
          · exact fun _ _ heq => absurd heq hslash

theorem readKey_keyChars (key : String) (rest : List Char) :
    readKey (keyChars key ++ ':' :: rest) = some (key, rest) := by
  unfold keyChars
  split
  · rename_i hbare
    obtain ⟨hne, hall⟩ := Bool.and_eq_true_iff.1 hbare
    have hall := List.all_eq_true.1 hall
    have hcolon : isBareChar ':' = false := by decide
    have htake : (key.toList ++ ':' :: rest).takeWhile isBareChar = key.toList := by
      rw [List.takeWhile_append_of_pos hall, List.takeWhile_cons, hcolon]
      exact List.append_nil _
    have hdrop : (key.toList ++ ':' :: rest).dropWhile isBareChar = ':' :: rest := by
      rw [List.dropWhile_append_of_pos hall, List.dropWhile_cons, hcolon]
      rfl
    unfold readKey
    split
    · rename_i cs heq
      -- a bare key does not start with a quote
      cases hkey : key.toList with
      | nil => simp [hkey] at hne
      | cons c tail =>
          rw [hkey, List.cons_append] at heq
          have hquote := hall c (hkey ▸ List.mem_cons_self ..)
          rw [(List.cons.inj heq).1] at hquote
          exact absurd hquote (by decide)
    · rw [htake, hdrop]
      simp
  · have hread : readQuoted (key.toList.flatMap escapedChar ++ ['"'] ++ ':' :: rest)
        = some (key.toList, ':' :: rest) := by
      rw [List.append_assoc]
      exact readQuoted_append key.toList (':' :: rest)
    unfold readKey quotedChars
    simp only [List.cons_append, hread]
    simp

/-! ## Values -/

/-- No number starts with a bracket that closes something. -/
theorem readNumber_bracket (cs : List Char) : readNumber (']' :: cs) = none := by
  unfold readNumber
  have hend : isEnd ']' = true := by decide
  simp [hend, Text.signedDecimal?, Text.decimal?]

/-- No value starts with a bracket that closes something. -/
theorem readValue_bracket (steps : Nat) (cs : List Char) : readValue steps (']' :: cs) = none := by
  cases steps with
  | zero => rfl
  | succ steps => exact readNumber_bracket cs

/-- No key starts with a bracket that closes something. -/
theorem readKey_bracket (cs : List Char) : readKey ('\x7d' :: cs) = none := by
  have hbare : isBareChar '\x7d' = false := by decide
  simp [readKey, hbare]

/-- What starts with a character of numbers is read as a number. -/
theorem readValue_number {steps : Nat} {c : Char} {cs : List Char}
    (hc : Binary.isNumberChar c = true) :
    readValue (steps + 1) (c :: cs) = readNumber (c :: cs) := by
  rw [readValue]
  all_goals
    rintro _ heq
    rw [(List.cons.inj heq).1] at hc
    exact absurd hc (by decide)

theorem ends_charsOfItems (items : List Snbt) (rest : List Char) :
    Ends (charsOfItems items ++ rest) := by
  cases items with
  | nil => exact ends_cons.2 rfl
  | cons item items => exact ends_cons.2 rfl

theorem ends_charsOfEntries (entries : List (String × Snbt)) (rest : List Char) :
    Ends (charsOfEntries entries ++ rest) := by
  cases entries with
  | nil => exact ends_cons.2 rfl
  | cons entry entries => exact ends_cons.2 rfl

theorem readValue_list {steps : Nat} {cs : List Char} {item : Shown} {items : List Shown}
    {middle rest : List Char} (hitem : readValue steps cs = some (item, middle))
    (hitems : readItems steps middle = some (items, rest)) :
    readValue (steps + 1) ('[' :: cs) = some (.list (item :: items), rest) := by
  rw [readValue, hitem]
  · simp [hitems]
  · rintro after rfl
    rw [readValue_bracket] at hitem
    contradiction

theorem readValue_compound {steps : Nat} {cs : List Char} {key : String} {value : Shown}
    {entries : List (String × Shown)} {first second rest : List Char}
    (hkey : readKey cs = some (key, first)) (hvalue : readValue steps first = some (value, second))
    (hentries : readEntries steps second = some (entries, rest)) :
    readValue (steps + 1) ('\x7b' :: cs) = some (.compound ((key, value) :: entries), rest) := by
  rw [readValue, hkey]
  · simp [hvalue, hentries]
  · rintro after rfl
    rw [readKey_bracket] at hkey
    contradiction

/-! ## Reading back what was written -/

theorem toString_ne_nil (n : Int) : (toString n).toList ≠ [] := by
  intro hnil
  have hread := Text.signedDecimal?_toString n
  rw [hnil] at hread
  contradiction

theorem chars_ne_nil (value : Snbt) : value.chars ≠ [] := by
  rcases value with n | x | s | (_ | ⟨item, items⟩) | (_ | ⟨⟨key, value⟩, entries⟩)
  · exact toString_ne_nil n.toInt
  all_goals simp [chars, quotedChars]

/-- A text of characters of numbers is read as a number, if it is one. -/
theorem readValue_of_isNumberChar {steps : Nat} {number rest : List Char} (hne : number ≠ [])
    (hnumber : ∀ c ∈ number, Binary.isNumberChar c = true) :
    readValue (steps + 1) (number ++ rest) = readNumber (number ++ rest) := by
  cases number with
  | nil => contradiction
  | cons c number => exact readValue_number (hnumber c (List.mem_cons_self ..))

mutual

/-- A value is read back from its text, up to what follows. -/
theorem readValue_chars : ∀ (value : Snbt) (steps : Nat) (rest : List Char),
    value.chars.length ≤ steps → Ends rest →
      readValue steps (value.chars ++ rest) = some (value.shown, rest)
  | value, 0, rest, hsteps, _ =>
    absurd (List.length_eq_zero_iff.1 (Nat.le_zero.1 hsteps)) value.chars_ne_nil
  | .int n, steps + 1, rest, _, hrest => by
    rw [chars, readValue_of_isNumberChar (toString_ne_nil _) isNumberChar_of_mem_toString]
    exact readNumber_int n hrest
  | .float x, steps + 1, rest, _, hrest => by
    rw [chars, readValue_of_isNumberChar (by simp) (isNumberChar_of_mem_float x)]
    exact readNumber_float x hrest
  | .string s, steps + 1, rest, _, _ => by
    have hread := readQuoted_append s.toList rest
    rw [chars, quotedChars, List.cons_append, List.cons_append, List.append_assoc, readValue,
      List.singleton_append, hread]
    simp [shown]
  | .list [], steps + 1, rest, _, _ => rfl
  | .list (item :: items), steps + 1, rest, hsteps, _ => by
    simp only [chars, List.cons_append, List.append_assoc, List.length_cons,
      List.length_append] at hsteps ⊢
    have hitem := readValue_chars item steps _ (by omega) (ends_charsOfItems items rest)
    have hitems := readItems_charsOfItems items steps rest (by omega)
    exact readValue_list hitem hitems
  | .compound [], steps + 1, rest, _, _ => rfl
  | .compound ((key, value) :: entries), steps + 1, rest, hsteps, _ => by
    simp only [chars, List.cons_append, List.append_assoc, List.length_cons,
      List.length_append] at hsteps ⊢
    have hkey := readKey_keyChars key (value.chars ++ (charsOfEntries entries ++ rest))
    have hvalue := readValue_chars value steps _ (by omega) (ends_charsOfEntries entries rest)
    have hentries := readEntries_charsOfEntries entries steps rest (by omega)
    exact readValue_compound hkey hvalue hentries

theorem readItems_charsOfItems : ∀ (items : List Snbt) (steps : Nat) (rest : List Char),
    (charsOfItems items).length ≤ steps →
      readItems steps (charsOfItems items ++ rest) = some (shownItems items, rest)
  | [], 0, _, hsteps => absurd hsteps (by simp [charsOfItems])
  | [], steps + 1, rest, _ => rfl
  | _ :: _, 0, _, hsteps => absurd hsteps (by simp [charsOfItems])
  | item :: items, steps + 1, rest, hsteps => by
    simp only [charsOfItems, List.cons_append, List.append_assoc, List.length_cons,
      List.length_append] at hsteps ⊢
    have hitem := readValue_chars item steps _ (by omega) (ends_charsOfItems items rest)
    have hitems := readItems_charsOfItems items steps rest (by omega)
    rw [readItems, hitem]
    simp [hitems, shownItems]

theorem readEntries_charsOfEntries :
    ∀ (entries : List (String × Snbt)) (steps : Nat) (rest : List Char),
      (charsOfEntries entries).length ≤ steps →
        readEntries steps (charsOfEntries entries ++ rest) = some (shownEntries entries, rest)
  | [], 0, _, hsteps => absurd hsteps (by simp [charsOfEntries])
  | [], steps + 1, rest, _ => rfl
  | _ :: _, 0, _, hsteps => absurd hsteps (by simp [charsOfEntries])
  | (key, value) :: entries, steps + 1, rest, hsteps => by
    simp only [charsOfEntries, List.cons_append, List.append_assoc, List.length_cons,
      List.length_append] at hsteps ⊢
    have hkey := readKey_keyChars key (value.chars ++ (charsOfEntries entries ++ rest))
    have hvalue := readValue_chars value steps _ (by omega) (ends_charsOfEntries entries rest)
    have hentries := readEntries_charsOfEntries entries steps rest (by omega)
    rw [readEntries, hkey]
    simp [hvalue, hentries, shownEntries]

end

/-- A value is read back at the end of a text, and before a comma or a closing bracket. -/
theorem read_text (value : Snbt) {rest : List Char} (hrest : Ends rest) :
    read (value.text.toList ++ rest) = some (value.shown, rest) := by
  have htext : value.text.toList = value.chars := String.toList_ofList
  rw [htext]
  refine readValue_chars value _ rest ?_ hrest
  rw [List.length_append]
  exact Nat.le_add_right _ _

/-- Values with one text show the same. -/
theorem shown_eq_of_text_eq {value other : Snbt} (htext : value.text = other.text) :
    value.shown = other.shown := by
  have hvalue := read_text value ends_nil
  rw [htext, read_text other ends_nil] at hvalue
  exact (Prod.mk.inj (Option.some.inj hvalue)).1.symm

/-- Two values with one text are equal, but for floating point numbers that are printed
alike; and a value is read back from its text, at the end or before a comma or a closing
bracket. -/
theorem text_unambiguous :
    (∀ value other : Snbt, value.text = other.text → value.shown = other.shown) ∧
    ∀ (value : Snbt) (rest : List Char), Ends rest →
      read (value.text.toList ++ rest) = some (value.shown, rest) :=
  ⟨fun _ _ htext => shown_eq_of_text_eq htext, fun value _ hrest => read_text value hrest⟩

/-- A compound with an empty key, a repeated one and one that looks like the end of the
compound, in front of a closing bracket; and two numbers that are none, with other bits. -/
theorem text_unambiguous_of_odd_keys :
    let key := "\",a:]\x7d\\é"
    let value : Snbt := .compound [("", .list []), (key, .string key), (key, .float (.ofInt 1)),
      ("inff", .compound [("-1", .int (-1))])]
    read (value.text.toList ++ [']', 'f']) = some (value.shown, [']', 'f']) ∧
      (Snbt.float ⟨0x7fc00000⟩).text = (Snbt.float ⟨0xffc00001⟩).text ∧
      (Snbt.float ⟨0x7fc00000⟩).shown = (Snbt.float ⟨0xffc00001⟩).shown := by
  intro key value
  have htext : (Snbt.float ⟨0x7fc00000⟩).text = (Snbt.float ⟨0xffc00001⟩).text := by
    decide +kernel
  exact ⟨text_unambiguous.2 value _ (ends_cons.2 rfl), htext, text_unambiguous.1 _ _ htext⟩

end RigPack.Snbt

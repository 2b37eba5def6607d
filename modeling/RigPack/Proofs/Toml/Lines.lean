import RigPack.Proofs.Toml.Numbers
import RigPack.Proofs.Toml.Strings
import RigPack.Toml.Reader

/-!
# Lines of TOML documents

The lines that a simple document is made of: the header of a table, a key without dots and quotes
with a value that no brackets delimit, and empty lines.  Each line is read as one change of the
draft (`readLines_header`, `readLines_pair`), whatever the lines behind it are.
-/

namespace RigPack.Toml

/-! ## Keys -/

theorem isGap_of_isKeyChar {c : Char} (hc : isKeyChar c = true) : isGap c = false := by
  simp [isGap, Text.ne_of_test hc (d := ' ') (by decide),
    Text.ne_of_test hc (d := '\t') (by decide)]

/-- Whether a text is a key that needs no quotes. -/
structure IsName (name : List Char) : Prop where
  ne_nil : name ≠ []
  isKeyChar : ∀ c ∈ name, isKeyChar c = true

namespace IsName

theorem of_all {name : List Char} (hne : name ≠ []) (h : name.all Toml.isKeyChar = true) :
    IsName name :=
  ⟨hne, List.all_eq_true.1 h⟩

variable {name : List Char} (hname : IsName name)

include hname

theorem exists_eq_cons : ∃ c cs, name = c :: cs ∧ Toml.isKeyChar c = true := by
  obtain ⟨c, cs, rfl⟩ := List.exists_cons_of_ne_nil hname.ne_nil
  exact ⟨c, cs, rfl, hname.isKeyChar c (List.mem_cons_self ..)⟩

theorem skipGap_append (rest : List Char) : skipGap (name ++ rest) = name ++ rest := by
  obtain ⟨c, cs, rfl, hc⟩ := hname.exists_eq_cons
  simp [skipGap, isGap_of_isKeyChar hc]

theorem readKeyPart_append {rest : List Char}
    (hrest : ∀ c ∈ rest.head?, Toml.isKeyChar c = false) :
    readKeyPart (name ++ rest) = some (String.ofList name, rest) := by
  have htaken : (name ++ rest).takeWhile Toml.isKeyChar = name := by
    have hend : rest.takeWhile Toml.isKeyChar = [] := by
      cases rest with
      | nil => rfl
      | cons c rest => simp [hrest c rfl]
    rw [List.takeWhile_append_of_pos hname.isKeyChar, hend, List.append_nil]
  obtain ⟨c, cs, hcs, hc⟩ := hname.exists_eq_cons
  unfold readKeyPart
  split
  · rename_i heq
    rw [hcs, List.cons_append] at heq
    exact absurd (List.cons.inj heq).1 (Text.ne_of_test hc (by decide))
  · rename_i heq
    rw [hcs, List.cons_append] at heq
    exact absurd (List.cons.inj heq).1 (Text.ne_of_test hc (by decide))
  · rw [htaken]
    simp [hname.ne_nil]

/-- A name is read as a key of one part. -/
theorem readKey_append {rest : List Char} (hrest : ∀ c ∈ rest.head?, Toml.isKeyChar c = false)
    (hdot : (skipGap rest).head? ≠ some '.') :
    readKey (name ++ rest) = some ([String.ofList name], skipGap rest) := by
  rw [readKey, maxKeyParts, readKeyParts, hname.skipGap_append, hname.readKeyPart_append hrest]
  simp only [Option.bind_eq_bind, Option.bind_some]
  split
  · rename_i heq
    rw [heq] at hdot
    exact absurd rfl hdot
  · rfl

end IsName

/-! ## Values -/

/-- A text that starts as a value without brackets. -/
def StartsScalar (cs : List Char) : Prop :=
  ∃ c rest, cs = c :: rest ∧ isGap c = false ∧ c ≠ '[' ∧ c ≠ '\x7b'

theorem StartsScalar.skipGap_eq {cs : List Char} (h : StartsScalar cs) : skipGap cs = cs := by
  obtain ⟨c, rest, rfl, hgap, -⟩ := h
  simp [skipGap, hgap]

theorem startsScalar_quotedChars (cs rest : List Char) :
    StartsScalar (quotedChars cs ++ rest) := by
  obtain ⟨more, hquoted⟩ := exists_quotedChars_eq_cons cs
  refine ⟨(formOf cs).mark, more ++ rest, by rw [hquoted, List.cons_append], ?_⟩
  rcases formOf_mark_eq cs with h | h <;> rw [h] <;> decide

theorem startsScalar_toDigits (n : Nat) (rest : List Char) :
    StartsScalar (Nat.toDigits 10 n ++ rest) := by
  obtain ⟨c, cs, hcs, hc, -⟩ := exists_toDigits_eq_cons n
  have hne {d : Char} (hd : d.isDigit = false) : c ≠ d := Text.ne_of_test hc hd
  refine ⟨c, cs ++ rest, by rw [hcs, List.cons_append], ?_, hne rfl, hne rfl⟩
  simp [isGap, hne (d := ' ') rfl, hne (d := '\t') rfl]

theorem StartsScalar.readValue_eq {cs : List Char} (h : StartsScalar cs) (steps depth : Nat) :
    readValue (steps + 1) depth cs = readScalar cs := by
  obtain ⟨c, rest, rfl, -, hbracket, hbrace⟩ := h
  -- no value with brackets starts with such a character, at whatever depth
  rw [readValue]
  · exact fun _ hcons _ => hbracket (List.cons.inj hcons).1
  · exact fun _ hcons _ => hbrace (List.cons.inj hcons).1
  · exact fun _ _ hcons _ => hbracket (List.cons.inj hcons).1
  · exact fun _ _ hcons _ => hbrace (List.cons.inj hcons).1

/-! ## Lines -/

theorem readLineEnd_break (rest : List Char) : readLineEnd ('\n' :: rest) = some rest := by
  simp [readLineEnd, skipGap, isGap, lineBreak]

theorem readLines_cons (steps : Nat) (draft : Draft) {c : Char} (hgap : isGap c = false)
    (rest : List Char) :
    readLines (steps + 1) draft (c :: rest) =
      if c = '#' ∨ c = '\n' ∨ c = '\r' then
        (readLineEnd (c :: rest)).bind (readLines steps draft)
      else
        (if c = '[' then readHeader draft rest else readPair draft (c :: rest)).bind fun read =>
          (readLineEnd read.2).bind (readLines steps read.1) := by
  have hskip : skipGap (c :: rest) = c :: rest := by simp [skipGap, hgap]
  rw [readLines.eq_def]
  simp only [hskip]
  by_cases hheader : c = '['
  · rw [if_pos hheader, if_pos hheader]
    rfl
  · rw [if_neg hheader, if_neg hheader]
    rfl

section Lines

variable {name : List Char} (hname : IsName name) (steps : Nat) (draft : Draft)

include hname

theorem readHeader_name (rest : List Char) :
    readHeader draft (name ++ ']' :: rest)
      = (draft.openTable [String.ofList name]).map fun draft => (draft, rest) := by
  have hkey : readKey (name ++ ']' :: rest) = some ([String.ofList name], ']' :: rest) :=
    hname.readKey_append (by rintro _ ⟨⟩; decide) (by simp [skipGap, isGap])
  obtain ⟨c, cs, hcs, hc⟩ := hname.exists_eq_cons
  unfold readHeader
  split
  · rename_i heq
    rw [hcs, List.cons_append] at heq
    exact absurd (List.cons.inj heq).1 (Text.ne_of_test hc (by decide))
  · rw [hkey]
    simp only [Option.bind_eq_bind, Option.bind_some, behind, List.head?_cons, if_pos,
      List.tail_cons]
    cases draft.openTable [String.ofList name] <;> rfl

theorem readPair_name {value rest : List Char} {v : Toml} (hvalue : StartsScalar value)
    (hread : readScalar value = some (v, rest)) :
    readPair draft (name ++ ' ' :: '=' :: ' ' :: value)
      = (draft.addPair [] (String.ofList name) v).map fun draft => (draft, rest) := by
  have hskip (cs : List Char) : skipGap (' ' :: cs) = skipGap cs := rfl
  have hkey : readKey (name ++ ' ' :: '=' :: ' ' :: value)
      = some ([String.ofList name], '=' :: ' ' :: value) :=
    hname.readKey_append (by rintro _ ⟨⟩; decide) (by simp [skipGap, isGap])
  rw [readPair, hkey]
  simp only [Option.bind_eq_bind, Option.bind_some, behind, List.head?_cons, if_pos,
    List.tail_cons, List.getLast?_singleton, hskip, hvalue.skipGap_eq, hvalue.readValue_eq, hread,
    List.dropLast_singleton]
  cases draft.addPair [] (String.ofList name) v <;> rfl

/-- A line with a header opens a table. -/
theorem readLines_header (rest : List Char) :
    readLines (steps + 1) draft ('[' :: (name ++ ']' :: '\n' :: rest))
      = (draft.openTable [String.ofList name]).bind fun draft => readLines steps draft rest := by
  rw [readLines_cons steps draft (by decide), if_neg (by decide), if_pos rfl,
    readHeader_name hname]
  cases draft.openTable [String.ofList name] with
  | none => rfl
  | some opened => exact congrArg (Option.bind · _) (readLineEnd_break rest)

/-- A line with a name and a value adds the value to the open table. -/
theorem readLines_pair {value rest : List Char} {v : Toml} (hvalue : StartsScalar value)
    (hread : readScalar value = some (v, '\n' :: rest)) :
    readLines (steps + 1) draft (name ++ ' ' :: '=' :: ' ' :: value)
      = (draft.addPair [] (String.ofList name) v).bind fun draft => readLines steps draft rest := by
  have hpair := readPair_name hname draft hvalue hread
  obtain ⟨c, cs, hcs, hc⟩ := hname.exists_eq_cons
  have hne {d : Char} (hd : isKeyChar d = false) : c ≠ d := Text.ne_of_test hc hd
  have hgap : isGap c = false := isGap_of_isKeyChar hc
  have hblank : ¬ (c = '#' ∨ c = '\n' ∨ c = '\r') := by
    simp [hne (d := '#') (by decide), hne (d := '\n') (by decide), hne (d := '\r') (by decide)]
  rw [hcs, List.cons_append] at hpair
  rw [hcs, List.cons_append, readLines_cons steps draft hgap, if_neg hblank,
    if_neg (hne (d := '[') (by decide)), hpair, ← hcs]
  cases draft.addPair [] (String.ofList name) v with
  | none => rfl
  | some added => exact congrArg (Option.bind · _) (readLineEnd_break rest)

end Lines

/-- A line with a new name adds its value behind those of the open table. -/
theorem readLines_new_pair {name : String} (hname : IsName name.toList) (steps : Nat)
    {root opened : Entries} {path : List String} {listed : Bool} (hnew : get? name opened = none)
    {value rest : List Char} {v : Toml} (hvalue : StartsScalar value)
    (hread : readScalar value = some (v, '\n' :: rest)) :
    readLines (steps + 1) ⟨root, path, listed, opened⟩ (name.toList ++ ' ' :: '=' :: ' ' :: value)
      = readLines steps ⟨root, path, listed, opened ++ [(name, .value v)]⟩ rest := by
  have hadded : Draft.addPair ⟨root, path, listed, opened⟩ [] name v
      = some ⟨root, path, listed, opened ++ [(name, .value v)]⟩ := by
    simp [Draft.addPair, addValue, changeAt, hnew]
  rw [readLines_pair hname _ _ hvalue hread, String.ofList_toList, hadded, Option.bind_some]

/-- Empty lines at the end of a document do not count. -/
theorem readLines_breaks {steps breaks : Nat} (h : breaks ≤ steps) (draft : Draft) :
    readLines steps draft (List.replicate breaks '\n') = draft.close := by
  induction breaks generalizing steps with
  | zero => cases steps <;> rfl
  | succ breaks ih =>
      obtain ⟨steps, rfl⟩ := Nat.exists_eq_add_of_le' h
      rw [List.replicate_succ, ← Nat.add_assoc, readLines_cons _ draft (by decide),
        if_pos (by decide), readLineEnd_break]
      exact ih (Nat.le_add_left breaks steps)

/-- A text without a byte order mark is read line by line. -/
theorem read?_eq {s : String} (hmark : s.toList.head? ≠ some '\ufeff') :
    read? s = (readLines s.toList.length .start s.toList).map entriesToToml := by
  unfold read?
  split
  · rename_i heq
    rw [heq] at hmark
    exact absurd rfl hmark
  · rfl

end RigPack.Toml

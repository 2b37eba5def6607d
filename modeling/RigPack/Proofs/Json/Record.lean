import RigPack.Export.Basic

/-!
# The record of a namespace, read back

An export finds out whose pack lies in its way by reading what an earlier export wrote
there.  So what `Json.pretty` makes of the record of a namespace has to be read back as
that namespace, whatever characters it holds.

## Main statements

* `Draft.readText_escaped`: every string is read back from its escaped characters.
* `Export.recordedSpace_record`: the metadata of a pack records its namespace.
-/

namespace RigPack.Json

namespace Draft

/-! ## Escapes -/

/-- The digits of a numbered escape are read alike, whatever follows them. -/
theorem readUnit_append {unit : List Char} (hunit : unit.length = 4) (rest : List Char) :
    readUnit (unit ++ rest) = (readUnit unit).map fun read => (read.1, rest) := by
  have htake : (unit ++ rest).take 4 = unit := by rw [← hunit, List.take_left]
  have hdrop : (unit ++ rest).drop 4 = rest := by rw [← hunit, List.drop_left]
  have hself : unit.take 4 = unit := List.take_of_length_le (Nat.le_of_eq hunit)
  rw [readUnit, readUnit, htake, hdrop, hself]
  split
  · rfl
  · split
    · split <;> rfl
    · rfl

/-- The characters that are escaped by number. -/
theorem escapedChar_numbered : ∀ n : Fin 32, n.val ∉ [8, 9, 10, 12, 13] →
    (escapedChar (Char.ofNat n)).take 2 = ['\\', 'u'] ∧
      ((escapedChar (Char.ofNat n)).drop 2).length = 4 ∧
      (readUnit ((escapedChar (Char.ofNat n)).drop 2)).toOption = some (n.val, []) := by
  decide

/-- The reader of escapes gets every character back. -/
theorem readEscape_escaped {c : Char} (h : c = '"' ∨ c = '\\' ∨ c.toNat < 0x20) :
    ∃ cs, escapedChar c = '\\' :: cs ∧ ∀ rest, readEscape (cs ++ rest) = .char c rest := by
  by_cases hquote : c = '"'
  · subst hquote
    exact ⟨['"'], rfl, fun rest => rfl⟩
  by_cases hslash : c = '\\'
  · subst hslash
    exact ⟨['\\'], rfl, fun rest => rfl⟩
  have hlow : c.toNat < 32 := (h.resolve_left hquote).resolve_left hslash
  obtain ⟨n, rfl⟩ : ∃ n : Fin 32, c = Char.ofNat n := ⟨⟨c.toNat, hlow⟩, (Char.ofNat_toNat c).symm⟩
  by_cases hshort : n.val ∈ [8, 9, 10, 12, 13]
  · have hn : n = 8 ∨ n = 9 ∨ n = 10 ∨ n = 12 ∨ n = 13 := by
      revert n
      decide
    rcases hn with rfl | rfl | rfl | rfl | rfl <;> exact ⟨_, rfl, fun rest => rfl⟩
  · obtain ⟨hfront, hlength, hread⟩ := escapedChar_numbered n hshort
    refine ⟨'u' :: (escapedChar (Char.ofNat n)).drop 2, ?_, fun rest => ?_⟩
    · exact (List.take_append_drop 2 _).symm.trans (by rw [hfront]; rfl)
    · have hunit : readUnit ((escapedChar (Char.ofNat n)).drop 2) = .ok (n.val, []) := by
        cases hcase : readUnit ((escapedChar (Char.ofNat n)).drop 2) with
        | error fault => simp [hcase, Except.toOption] at hread
        | ok read => simpa [hcase, Except.toOption] using hread
      rw [List.cons_append, readEscape, readNumberedEscape, readUnit_append hlength, hunit]
      have hlow : ¬ 0xD800 ≤ n.val := by omega
      have hhigh : ¬ 0xDC00 ≤ n.val := by omega
      simp [Except.map, hlow, hhigh]

/-! ## Strings -/

/-- What stands in a string without a backslash. -/
theorem escapedChar_plain {c : Char} (h : ¬ (c = '"' ∨ c = '\\' ∨ c.toNat < 0x20)) :
    escapedChar c = [c] := by
  obtain ⟨hquote, hslash, hlow⟩ : c ≠ '"' ∧ c ≠ '\\' ∧ ¬ c.toNat < 0x20 := by
    simpa only [not_or] using h
  have hne {d : Char} (hd : d.toNat < 0x20) : c ≠ d := fun heq => hlow (heq ▸ hd)
  have hlower : ¬ c.toNat < 0x10 := by omega
  simp [escapedChar, hquote, hslash, hlow, hlower, hne (d := '\x08') (by decide),
    hne (d := '\t') (by decide), hne (d := '\n') (by decide), hne (d := '\x0c') (by decide),
    hne (d := '\r') (by decide)]

theorem readTextFrom_escaped (cs read rest : List Char) {steps : Nat} (h : cs.length < steps) :
    readTextFrom steps read false (cs.flatMap escapedChar ++ '"' :: rest)
      = (.whole (String.ofList (read.reverse ++ cs)), some rest) := by
  induction cs generalizing read steps with
  | nil =>
      obtain ⟨steps, rfl⟩ := Nat.exists_eq_succ_of_ne_zero (Nat.ne_of_gt h)
      simp [readTextFrom]
  | cons c cs ih =>
      obtain ⟨steps, rfl⟩ := Nat.exists_eq_succ_of_ne_zero (Nat.ne_of_gt (Nat.zero_lt_of_lt h))
      have hsteps : cs.length < steps := by simpa using h
      have hnext := ih (c :: read) hsteps
      rw [List.reverse_cons, List.append_assoc, List.singleton_append] at hnext
      rw [List.flatMap_cons, List.append_assoc]
      by_cases hc : c = '"' ∨ c = '\\' ∨ c.toNat < 0x20
      · obtain ⟨escape, hescape, hread⟩ := readEscape_escaped hc
        rw [hescape, List.cons_append, readTextFrom, hread]
        exact hnext
      · rw [escapedChar_plain hc, List.singleton_append]
        obtain ⟨hquote, hslash, hlow⟩ : c ≠ '"' ∧ c ≠ '\\' ∧ ¬ c.toNat < 0x20 := by
          simpa only [not_or] using hc
        rw [readTextFrom, if_neg hlow]
        · exact hnext
        · exact fun heq => hquote heq
        · exact fun heq => hslash heq

theorem length_le_escaped (cs : List Char) : cs.length ≤ (cs.flatMap escapedChar).length := by
  induction cs with
  | nil => exact Nat.le_refl 0
  | cons c cs ih =>
      have hpos : 0 < (escapedChar c).length := by
        by_cases hc : c = '"' ∨ c = '\\' ∨ c.toNat < 0x20
        · obtain ⟨escape, hescape, -⟩ := readEscape_escaped hc
          simp [hescape]
        · simp [escapedChar_plain hc]
      rw [List.flatMap_cons, List.length_append, List.length_cons]
      omega

/-- A string is read back from its escaped characters. -/
theorem readText_escaped (s : String) (rest : List Char) :
    readText (s.toList.flatMap escapedChar ++ '"' :: rest) = (.whole s, some rest) := by
  rw [readText, readTextFrom_escaped]
  · simp
  · have h := length_le_escaped s.toList
    rw [List.length_append]
    omega

/-! ## Objects with one field -/

theorem readValue_string {steps : Nat} {cs rest : List Char} {s : String}
    (h : skipSpace cs = stringChars s ++ rest) :
    readValue (steps + 1) cs = (.text (.whole s), some rest) := by
  have hskip : skipSpace cs = '"' :: (s.toList.flatMap escapedChar ++ '"' :: rest) := by
    rw [h, stringChars]
    simp
  rw [readValue.eq_def]
  simp only [hskip, readText_escaped]

/-- An object with one text, laid out on lines, is read as such. -/
theorem readValue_pretty (steps : Nat) (name value : String) :
    readValue (steps + 6) ((Json.object [(name, .string value)]).prettyChars 0)
      = (.object [(.text (.whole name), .text (.whole value))] .closed, some []) := by
  have hchars : (Json.object [(name, .string value)]).prettyChars 0
      = '\x7b' :: '\n' :: ' ' :: ' ' :: (stringChars name
          ++ ':' :: ' ' :: (stringChars value ++ ['\n', '\x7d'])) := by
    simp [prettyChars, prettyFields, newLine]
  have hname : readValue (steps + 3) (stringChars name
      ++ ':' :: ' ' :: (stringChars value ++ ['\n', '\x7d']))
      = (.text (.whole name), some (':' :: ' ' :: (stringChars value ++ ['\n', '\x7d']))) :=
    readValue_string rfl
  have hvalue : readValue (steps + 3) (' ' :: (stringChars value ++ ['\n', '\x7d']))
      = (.text (.whole value), some ['\n', '\x7d']) :=
    readValue_string rfl
  have hend : readMembers (steps + 3) false ['\n', '\x7d'] = ([], .closed, some []) := rfl
  have hmember : readMember (steps + 4) (stringChars name
      ++ ':' :: ' ' :: (stringChars value ++ ['\n', '\x7d']))
      = ([(.text (.whole name), .text (.whole value))], .closed, some []) := by
    have hcolon : skipSpace (':' :: ' ' :: (stringChars value ++ ['\n', '\x7d']))
        = ':' :: ' ' :: (stringChars value ++ ['\n', '\x7d']) := rfl
    rw [readMember]
    simp only [hname, hcolon, if_true, hvalue, hend]
  have hmembers : readMembers (steps + 5) true ('\n' :: ' ' :: ' ' :: (stringChars name
      ++ ':' :: ' ' :: (stringChars value ++ ['\n', '\x7d'])))
      = ([(.text (.whole name), .text (.whole value))], .closed, some []) :=
    hmember
  rw [hchars]
  exact congrArg (fun read : List (Draft × Draft) × Ending × Option (List Char) =>
    (Draft.object read.1 read.2.1, read.2.2)) hmembers

end Draft

end RigPack.Json

namespace RigPack.Export

/-- The metadata of a pack records its namespace. -/
theorem recordedSpace_record (names : Naming) :
    recordedSpace (Content.json (Blueprint.record names)).text = .ok names.space := by
  let record := (Blueprint.record names).prettyChars 0
  have hsteps : ∃ steps, 4 * record.length + 4 = steps + 6 := by
    have hpos : 0 < record.length := by simp [record, Blueprint.record, Json.prettyChars]
    exact ⟨4 * record.length - 2, by omega⟩
  obtain ⟨steps, hsteps⟩ := hsteps
  have hread : Json.Draft.read (Content.json (Blueprint.record names)).text
      = (.object [(.text (.whole "project_namespace"), .text (.whole names.space))] .closed,
        true) := by
    rw [Json.Draft.read, Content.text, Json.pretty, String.toList_ofList, hsteps]
    rw [Blueprint.record, Json.Draft.readValue_pretty]
    rfl
  rw [recordedSpace, Json.parse, hread]
  rfl

end RigPack.Export

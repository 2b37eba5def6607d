import RigPack.Proofs.Text.Decimal
import RigPack.Toml.Scalar

/-!
# Numbers in TOML read back

A number at the end of a line might be the beginning of a date or a time, or of a number with
decimal places or an exponent, and all of these are tried first.  This file shows that a natural
number written in decimal digits is read as that number (`readScalar_toDigits`): no reading that
needs a mark among the digits or behind them succeeds.
-/

namespace RigPack.Toml

/-! ## Dates and times -/

theorem isDigit_of_mapM_digit? {cs : List Char} {digits : List Nat}
    (h : cs.mapM (Text.digit? 10) = some digits) : ∀ c ∈ cs, c.isDigit = true := by
  induction cs generalizing digits with
  | nil => simp
  | cons c cs ih =>
      rw [List.mapM_cons, Text.digit?_eq] at h
      cases hc : c.isDigit with
      | false => simp [hc] at h
      | true =>
          obtain ⟨rest, hrest, -⟩ : ∃ rest, cs.mapM (Text.digit? 10) = some rest ∧ _ := by
            simpa [hc, Option.bind_eq_some_iff] using h
          simpa [hc] using ih hrest

/-- A field that is read is so many digits. -/
theorem readField_eq_some {length low high : Nat} {cs rest : List Char} {n : Nat}
    (h : readField length low high cs = some (n, rest)) :
    rest = cs.drop length ∧ ∀ c ∈ cs.take length, c.isDigit = true := by
  simp only [readField, Option.bind_eq_bind, Option.bind_eq_some_iff] at h
  obtain ⟨digits, hdigits, h⟩ := h
  split at h
  · simp only [Option.pure_def, Option.some.injEq, Prod.mk.injEq] at h
    exact ⟨h.2.symm, isDigit_of_mapM_digit? hdigits⟩
  · contradiction

section Line

variable {digits : List Char} (hdigits : ∀ c ∈ digits, c.isDigit = true) (rest : List Char)

include hdigits

/-- Behind some of the digits in front of a line break stands a digit or the line break. -/
theorem behind_drop {length : Nat}
    (htaken : ∀ c ∈ (digits ++ '\n' :: rest).take length, c.isDigit = true) {mark : Char}
    (hmark : mark.isDigit = false ∧ mark ≠ '\n') :
    behind mark ((digits ++ '\n' :: rest).drop length) = none := by
  have hlength : length ≤ digits.length := by
    refine Nat.le_of_not_lt fun hlt => ?_
    have hbreak : '\n' ∈ (digits ++ '\n' :: rest).take length := by
      obtain ⟨more, rfl⟩ := Nat.exists_eq_add_of_lt hlt
      rw [Nat.add_assoc, List.take_length_add_append]
      simp
    exact absurd (htaken _ hbreak) (by decide)
  rw [List.drop_append_of_le_length hlength]
  cases hleft : digits.drop length with
  | nil => simp [behind, hmark.2.symm]
  | cons c left =>
      have hc : c.isDigit = true := hdigits c (List.mem_of_mem_drop (hleft ▸ List.mem_cons_self ..))
      simp [behind, Text.ne_of_test hc hmark.1]

/-- Digits up to the end of a line have no field with a mark behind it. -/
theorem behind_of_readField {length low high n : Nat} {after : List Char}
    (hread : readField length low high (digits ++ '\n' :: rest) = some (n, after)) {mark : Char}
    (hmark : mark.isDigit = false ∧ mark ≠ '\n') : behind mark after = none := by
  obtain ⟨rfl, htaken⟩ := readField_eq_some hread
  exact behind_drop hdigits rest htaken hmark

/-- Digits up to the end of a line are no date and no time. -/
theorem readDate_digits : readDate (digits ++ '\n' :: rest) = none := by
  have hday : readDay (digits ++ '\n' :: rest) = none := by
    cases hread : readField 4 0 9999 (digits ++ '\n' :: rest) with
    | none => simp [readDay, hread]
    | some read => simp [readDay, hread, behind_of_readField hdigits rest hread]
  have hclock : readClock (digits ++ '\n' :: rest) = none := by
    cases hread : readField 2 0 23 (digits ++ '\n' :: rest) with
    | none => simp [readClock, hread]
    | some read => simp [readClock, hread, behind_of_readField hdigits rest hread]
  rw [readDate, hday, hclock]
  rfl

end Line

/-! ## Whole numbers -/

/-- A digit that no underscore follows. -/
theorem readDigits_cons {c : Char} {d : Nat} (hd : Text.digit? 10 c = some d) {rest : List Char}
    (hrest : rest.head? ≠ some '_') :
    readDigits 10 (c :: rest) =
      if rest.head?.any fun next => (Text.digit? 10 next).isSome then
        (readDigits 10 rest).map fun (digits, rest) => (d :: digits, rest)
      else some ([d], rest) := by
  rw [readDigits.eq_def]
  simp only [hd]
  split
  · contradiction
  · exact absurd rfl hrest
  · rename_i hsome _
    obtain rfl := Option.some.inj hsome
    rfl

/-- Digits up to the end of a line are read as their values. -/
theorem readDigits_append {cs : List Char} {digits : List Nat} (hne : cs ≠ [])
    (h : cs.mapM (Text.digit? 10) = some digits) (rest : List Char) :
    readDigits 10 (cs ++ '\n' :: rest) = some (digits, '\n' :: rest) := by
  have hbreak : Text.digit? 10 '\n' = none := by decide
  induction cs generalizing digits with
  | nil => contradiction
  | cons c cs ih =>
      simp only [List.mapM_cons, Option.bind_eq_bind, Option.bind_eq_some_iff, Option.pure_def,
        Option.some.injEq] at h
      obtain ⟨d, hd, ds, hds, rfl⟩ := h
      cases cs with
      | nil =>
          obtain rfl : ds = [] := by simpa using hds.symm
          rw [List.cons_append, List.nil_append, readDigits_cons hd (by simp)]
          simp [hbreak]
      | cons next cs =>
          have hnext : next.isDigit = true :=
            isDigit_of_mapM_digit? hds next (List.mem_cons_self ..)
          have hscore : next ≠ '_' := by rintro rfl; contradiction
          have hread := ih (by simp) hds
          rw [List.cons_append] at hread
          rw [List.cons_append, List.cons_append, readDigits_cons hd (by simp [hscore]), hread]
          simp [Text.digit?_eq, hnext]

/-- A number other than zero does not start with a zero. -/
theorem toDigits_eq_cons {n : Nat} (hn : n ≠ 0) :
    ∃ c cs, Nat.toDigits 10 n = c :: cs ∧ c ≠ '0' := by
  induction n using Nat.strongRecOn with
  | ind n ih =>
      rcases Nat.lt_or_ge n 10 with hlt | hge
      · have hchar : ∀ d : Fin 10, d.val ≠ 0 → Nat.digitChar d ≠ '0' := by decide
        exact ⟨_, [], Nat.toDigits_of_lt_base hlt, hchar ⟨n, hlt⟩ hn⟩
      · obtain ⟨c, cs, hcs, hc⟩ := ih (n / 10) (by omega) (by omega)
        exact ⟨c, _, by rw [Nat.toDigits_of_base_le (by omega) hge, hcs]; rfl, hc⟩

theorem readWhole_toDigits (n : Nat) (rest : List Char) :
    ∃ digits, readWhole (Nat.toDigits 10 n ++ '\n' :: rest) = some (digits, '\n' :: rest) ∧
      Text.ofDigits 10 digits = n := by
  by_cases hn : n = 0
  · subst n
    exact ⟨[0], rfl, rfl⟩
  · obtain ⟨digits, hdigits, hvalue⟩ := Text.exists_digits_of_toDigits n
    refine ⟨digits, ?_, hvalue⟩
    rw [← readDigits_append Nat.toDigits_ne_nil hdigits]
    obtain ⟨c, cs, hcs, hc⟩ := toDigits_eq_cons hn
    rw [hcs, List.cons_append, readWhole]
    rintro rest heq
    exact hc (List.cons.inj heq).1

/-! ## Numbers -/

section Number

variable (n : Nat) (rest : List Char)

theorem exists_toDigits_eq_cons :
    ∃ c cs, Nat.toDigits 10 n = c :: cs ∧ c.isDigit = true ∧ ∀ c ∈ cs, c.isDigit = true := by
  have hdigits : ∀ c ∈ Nat.toDigits 10 n, c.isDigit = true := fun c => Text.isDigit_of_mem_toDigits
  obtain ⟨c, cs, hcs⟩ := List.exists_cons_of_ne_nil (Nat.toDigits_ne_nil (n := n) (b := 10))
  rw [hcs] at hdigits
  exact ⟨c, cs, hcs, hdigits c (List.mem_cons_self ..), fun c hc => hdigits c (.tail _ hc)⟩

theorem readSign_toDigits :
    readSign (Nat.toDigits 10 n ++ '\n' :: rest) = (false, Nat.toDigits 10 n ++ '\n' :: rest) := by
  obtain ⟨c, cs, hcs, hc, -⟩ := exists_toDigits_eq_cons n
  rw [hcs, List.cons_append]
  unfold readSign
  split
  · rename_i hcons
    rw [(List.cons.inj hcons).1] at hc
    contradiction
  · rename_i hcons
    rw [(List.cons.inj hcons).1] at hc
    contradiction
  · rfl

/-- Nothing behind a whole number makes it one with decimal places. -/
theorem readReal_toDigits : readReal (Nat.toDigits 10 n ++ '\n' :: rest) = none := by
  obtain ⟨digits, hwhole, -⟩ := readWhole_toDigits n rest
  simp [readReal, readSign_toDigits, hwhole, readPower]

theorem readWord_toDigits {word : String} {w : Char} {ws : List Char}
    (hword : word.toList = w :: ws) (hw : w.isDigit = false) (value : Toml) :
    readWord word value (Nat.toDigits 10 n ++ '\n' :: rest) = none := by
  obtain ⟨c, cs, hcs, hc, -⟩ := exists_toDigits_eq_cons n
  have hne : w ≠ c := (Text.ne_of_test hc hw).symm
  rw [readWord, hword, hcs, List.cons_append]
  simp [hne]

theorem readSpecial_toDigits : readSpecial (Nat.toDigits 10 n ++ '\n' :: rest) = none := by
  have hinf := readWord_toDigits n rest (rfl : "inf".toList = ['i', 'n', 'f']) rfl .real
  have hnan := readWord_toDigits n rest (rfl : "nan".toList = ['n', 'a', 'n']) rfl .real
  rw [readSpecial, readSign_toDigits]
  dsimp only
  rw [hinf, hnan]
  rfl

/-- Behind the first digit of a number stands another one or the end of the line. -/
theorem isDigit_or_eq_of_toDigits_eq {first second : Char} {more : List Char}
    (h : Nat.toDigits 10 n ++ '\n' :: rest = first :: second :: more) :
    second.isDigit = true ∨ second = '\n' := by
  obtain ⟨c, cs, hcs, -, hdigits⟩ := exists_toDigits_eq_cons n
  rw [hcs, List.cons_append] at h
  cases cs with
  | nil => exact .inr (List.cons.inj (List.cons.inj h).2).1.symm
  | cons d cs =>
      have hsecond : d = second := (List.cons.inj (List.cons.inj h).2).1
      exact .inl (hsecond ▸ hdigits d (List.mem_cons_self ..))

theorem readInteger_toDigits (hn : n ≤ Int64.maxValue.toInt) :
    readInteger (Nat.toDigits 10 n ++ '\n' :: rest) = some (.integer n, '\n' :: rest) := by
  have hbase {mark : Char} {more : List Char} (hmark : mark.isDigit = false ∧ mark ≠ '\n')
      (h : Nat.toDigits 10 n ++ '\n' :: rest = '0' :: mark :: more) : False := by
    rcases isDigit_or_eq_of_toDigits_eq n rest h with hdigit | hbreak
    · rw [hmark.1] at hdigit
      contradiction
    · exact hmark.2 hbreak
  obtain ⟨digits, hwhole, hvalue⟩ := readWhole_toDigits n rest
  have hrange : Int64.minValue.toInt ≤ (n : Int) ∧ (n : Int) ≤ Int64.maxValue.toInt := by
    refine ⟨Int.le_trans ?_ (Int.natCast_nonneg n), hn⟩
    decide
  unfold readInteger
  split
  · rename_i h
    exact (hbase (by decide) h).elim
  · rename_i h
    exact (hbase (by decide) h).elim
  · rename_i h
    exact (hbase (by decide) h).elim
  · simp [readSign_toDigits, hwhole, hvalue, integer?, hrange]

/-- A number on its line is read as that number. -/
theorem readScalar_toDigits (hn : n ≤ Int64.maxValue.toInt) :
    readScalar (Nat.toDigits 10 n ++ '\n' :: rest) = some (.integer n, '\n' :: rest) := by
  obtain ⟨c, cs, hcs, hc, -⟩ := exists_toDigits_eq_cons n
  have hne {d : Char} (hd : d.isDigit = false) : c ≠ d := Text.ne_of_test hc hd
  have hdate := readDate_digits (fun c => Text.isDigit_of_mem_toDigits (n := n)) rest
  have hread : readScalar (Nat.toDigits 10 n ++ '\n' :: rest)
      = (((readDate (Nat.toDigits 10 n ++ '\n' :: rest)).or
          (readReal (Nat.toDigits 10 n ++ '\n' :: rest))).or
        (readSpecial (Nat.toDigits 10 n ++ '\n' :: rest))).or
          (readInteger (Nat.toDigits 10 n ++ '\n' :: rest)) := by
    rw [hcs, List.cons_append, readScalar]
    simp [hne (d := '"') rfl, hne (d := '\'') rfl, hne (d := 't') rfl, hne (d := 'f') rfl]
  rw [hread, hdate, readReal_toDigits, readSpecial_toDigits, readInteger_toDigits n rest hn]
  rfl

end Number

end RigPack.Toml

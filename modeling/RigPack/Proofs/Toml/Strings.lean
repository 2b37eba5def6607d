import RigPack.Toml.Printer
import RigPack.Toml.Scalar

/-!
# TOML strings read back

A string is written in one of five forms, of which only two allow escapes, and of quotes in a
row some are written as they are and some are not.  Whatever the form, the string is read back
from it (`readString_quotedChars`, `readScalar_quotedChars`).

## Strategy

`Quote.Spells` says, character by character, that a text is a spelling of a string between the
quotes of a form.  Quotes that stand in a row are read at once, so the spelling carries the
number of quotes in front of it that are not read yet; it is at most two where three quotes end
the string, and zero where one does.  That a spelling is read as what it spells is one induction
(`Quote.Spells.readBody_eq`).  What is written with escapes is always a spelling
(`Quote.spells_escapedChars`); without escapes a string spells itself if the form fits
(`Quote.spells_self`).
-/

namespace RigPack.Toml

namespace Quote

/-- The most quotes that may stand in a row within a string. -/
def mostMarks (quote : Quote) : Nat :=
  if quote.tripled then 2 else 0

/-- The quotes on either side of a string. -/
def marks (quote : Quote) : List Char :=
  List.replicate (if quote.tripled then 3 else 1) quote.mark

/-- The line break that stands in front of a string if the string has one. -/
def opening (quote : Quote) (s : List Char) : List Char :=
  if quote.tripled && s.contains '\n' then ['\n'] else []

theorem exists_marks_eq_cons (quote : Quote) : ∃ more, quote.marks = quote.mark :: more := by
  unfold marks
  split <;> exact ⟨_, rfl⟩

/-- A text that does not start with a quote of the form. -/
def EndsRun (quote : Quote) (cs : List Char) : Prop :=
  cs.head? ≠ some quote.mark

/--
Whether a text is a spelling of a string, where `run` quotes stand in front of it that are not
read yet.
-/
inductive Spells (quote : Quote) : (run : Nat) → (s text : List Char) → Prop
  | nil (run : Nat) : Spells quote run [] []
  | mark {run : Nat} {s text : List Char} (hrun : run < quote.mostMarks)
    (h : Spells quote (run + 1) s text) :
    Spells quote run (quote.mark :: s) (quote.mark :: text)
  | char {run : Nat} {c first : Char} {more s text : List Char} (hfirst : first ≠ quote.mark)
    (hstep : ∀ rest, quote.step? (first :: (more ++ rest)) = some ([c], more.length))
    (h : Spells quote 0 s text) :
    Spells quote run (c :: s) (first :: (more ++ text))

/-! ## Reading quotes -/

theorem runLength_replicate (quote : Quote) (run : Nat) {rest : List Char}
    (hrest : quote.EndsRun rest) :
    quote.runLength (List.replicate run quote.mark ++ rest) = run := by
  have hend : rest.takeWhile (· = quote.mark) = [] := by
    cases rest with
    | nil => rfl
    | cons c rest =>
        have hne : c ≠ quote.mark := by simpa [EndsRun] using hrest
        simp [hne]
  rw [runLength, List.takeWhile_append_of_pos (by simp), hend]
  simp

/-- Quotes that do not end the string are read at once. -/
theorem readBody_replicate (quote : Quote) {run : Nat} (hrun : run ≤ quote.mostMarks)
    {rest : List Char} (hrest : quote.EndsRun rest) :
    quote.readBody (List.replicate run quote.mark ++ rest)
      = (quote.readBody rest).map
          fun read => (List.replicate run quote.mark ++ read.1, read.2) := by
  cases run with
  | zero => simp
  | succ run =>
      have htripled : quote.tripled = true := by
        cases h : quote.tripled with
        | true => rfl
        | false => simp [mostMarks, h] at hrun
      have hshort : 1 + run < 3 := by
        rw [mostMarks, if_pos htripled] at hrun
        omega
      rw [List.replicate_succ, List.cons_append, readBody, if_pos rfl, htripled]
      simp only [Bool.not_true, Bool.false_eq_true, if_false, runLength_replicate quote run hrest,
        if_pos hshort, Nat.add_sub_cancel_left]
      rw [List.drop_left' List.length_replicate, Nat.add_comm, List.replicate_succ]
      cases quote.readBody rest <;> rfl

/-- The quotes that end a string of several lines may have up to two of the string before them. -/
theorem readBody_marks (quote : Quote) {run : Nat} (hrun : run ≤ quote.mostMarks)
    {rest : List Char} (hrest : quote.EndsRun rest) :
    quote.readBody (List.replicate run quote.mark ++ (quote.marks ++ rest))
      = some (List.replicate run quote.mark, rest) := by
  cases htripled : quote.tripled with
  | false =>
      have hzero : run = 0 := by simpa [mostMarks, htripled] using hrun
      simp [hzero, marks, htripled, readBody]
  | true =>
      have hmost : run ≤ 2 := by simpa [mostMarks, htripled] using hrun
      have hall : List.replicate run quote.mark ++ (quote.marks ++ rest)
          = quote.mark :: (List.replicate (run + 2) quote.mark ++ rest) := by
        rw [marks, htripled, if_pos rfl, ← List.append_assoc, List.replicate_append_replicate]
        rfl
      have hkept : min (1 + (run + 2) - 3) 2 = run := by omega
      have hlong : ¬ 1 + (run + 2) < 3 := by omega
      rw [hall, readBody, if_pos rfl, htripled]
      simp only [Bool.not_true, Bool.false_eq_true, if_false,
        runLength_replicate quote (run + 2) hrest, if_neg hlong, hkept]
      rw [List.drop_left' List.length_replicate]

theorem readBody_step (quote : Quote) {first : Char} {more s rest : List Char}
    (hfirst : first ≠ quote.mark)
    (hstep : quote.step? (first :: (more ++ rest)) = some (s, more.length)) :
    quote.readBody (first :: (more ++ rest))
      = (quote.readBody rest).map fun read => (s ++ read.1, read.2) := by
  rw [readBody, if_neg hfirst, hstep]
  simp only [Option.bind_eq_bind, Option.bind_some, List.drop_left]
  cases quote.readBody rest <;> rfl

/-- A string is read from each of its spellings. -/
theorem Spells.readBody_eq {quote : Quote} {run : Nat} {s text : List Char}
    (h : quote.Spells run s text) (hrun : run ≤ quote.mostMarks) {rest : List Char}
    (hrest : quote.EndsRun rest) :
    quote.readBody (List.replicate run quote.mark ++ (text ++ (quote.marks ++ rest)))
      = some (List.replicate run quote.mark ++ s, rest) := by
  induction h with
  | nil run => rw [List.nil_append, readBody_marks quote hrun hrest, List.append_nil]
  | @mark run s text hlt _ ih =>
      have hnext := ih hlt
      rw [List.replicate_succ', List.append_assoc, List.append_assoc] at hnext
      exact hnext
  | @char run c first more s text hfirst hstep _ ih =>
      have hends : quote.EndsRun (first :: (more ++ text) ++ (quote.marks ++ rest)) := by
        simpa [EndsRun] using hfirst
      have hread := ih (Nat.zero_le _)
      rw [List.replicate_zero, List.nil_append] at hread
      rw [readBody_replicate quote hrun hends, List.cons_append, List.append_assoc,
        readBody_step quote hfirst (hstep _)]
      simp [hread]

/-! ## Characters with and without escapes -/

theorem step?_of_isPlain {quote : Quote} {c : Char} (hc : isPlain c = true)
    (hslash : ¬ (c = '\\' ∧ quote.mark = '"')) (rest : List Char) :
    quote.step? (c :: rest) = some ([c], 0) := by
  rw [step?, if_neg hslash, if_pos hc]

theorem step?_break {quote : Quote} (htripled : quote.tripled = true) (rest : List Char) :
    quote.step? ('\n' :: rest) = some (['\n'], 0) := by
  have hplain : isPlain '\n' = false := by decide
  simp [step?, hplain, htripled, lineBreak]

theorem lineBreak_cons {c : Char} (hbreak : c ≠ '\n' ∧ c ≠ '\r') (rest : List Char) :
    lineBreak (c :: rest) = 0 := by
  unfold lineBreak
  split <;> simp_all

/-- A line that ends in a backslash goes on with a blank or a line break behind it. -/
theorem hiddenLength_cons {c : Char} (hgap : isGap c = false) (hbreak : c ≠ '\n' ∧ c ≠ '\r')
    (rest : List Char) : hiddenLength (c :: rest) = 0 := by
  have hskip : skipGap (c :: rest) = c :: rest := by simp [skipGap, hgap]
  rw [hiddenLength, hskip, if_pos (lineBreak_cons hbreak rest)]

theorem step?_backslash {tripled : Bool} {letter c : Char} {more rest : List Char}
    (hgap : isGap letter = false) (hbreak : letter ≠ '\n' ∧ letter ≠ '\r')
    (hescape : escape? (letter :: (more ++ rest)) = some (c, more.length + 1)) :
    step? ⟨'"', tripled⟩ ('\\' :: (letter :: more ++ rest)) = some ([c], more.length + 1) := by
  have hvisible : hiddenLength (letter :: (more ++ rest)) = 0 := hiddenLength_cons hgap hbreak _
  rw [List.cons_append, step?, if_pos ⟨rfl, rfl⟩, if_neg (by simp [hvisible]), hescape]
  rfl

theorem digit?_hexDigit {d : Nat} (hd : d < 16) : Text.digit? 16 (hexDigit d) = some d :=
  (by decide : ∀ d : Fin 16, Text.digit? 16 (hexDigit d) = some d.val) ⟨d, hd⟩

/-- A character is read from its number. -/
theorem escape?_numberedEscape {c : Char} (hc : c.toNat < 0xD800) (rest : List Char) :
    escape? ((numberedEscape c.toNat).tail ++ rest) = some (c, 5) := by
  have hmod (n : Nat) : n % 16 < 16 := Nat.mod_lt n (by decide)
  have hvalue : Text.ofDigits 16 [c.toNat / 4096 % 16, c.toNat / 256 % 16, c.toNat / 16 % 16,
      c.toNat % 16] = c.toNat := by
    simp only [Text.ofDigits, List.foldl_cons, List.foldl_nil]
    omega
  have hchar : charOf? c.toNat = some c := by
    rw [charOf?, if_pos (.inl hc), Char.ofNat_toNat]
  simp [numberedEscape, escape?, digit?_hexDigit (hmod _), hvalue, hchar]

theorem toNat_of_isControl {c : Char} (hc : isControl c = true) : c.toNat < 0xD800 := by
  by_cases hlow : c.toNat < 0x20
  · omega
  · have hdelete : c = '\x7f' := by
      simp only [isControl, isPlain, Bool.and_eq_true, Bool.not_eq_true', Bool.or_eq_false_iff,
        Bool.and_eq_false_iff, decide_eq_false_iff_not, Decidable.not_not] at hc
      exact hc.1.2.resolve_left fun h => h (Nat.le_of_not_lt hlow)
    rw [hdelete]
    decide

/-- The spelling of a character is read as the character. -/
theorem exists_step?_escaped (tripled : Bool) {c : Char} (hc : c ≠ '"') :
    ∃ first more, escaped tripled c = first :: more ∧ first ≠ '"' ∧
      ∀ rest, step? ⟨'"', tripled⟩ (first :: (more ++ rest)) = some ([c], more.length) := by
  have hletter {letter : Char} (hspelling : escaped tripled c = ['\\', letter])
      (hgap : isGap letter = false) (hbreak : letter ≠ '\n' ∧ letter ≠ '\r')
      (hescape : ∀ rest, escape? (letter :: rest) = some (c, 1)) :
      ∃ first more, escaped tripled c = first :: more ∧ first ≠ '"' ∧
        ∀ rest, step? ⟨'"', tripled⟩ (first :: (more ++ rest)) = some ([c], more.length) :=
    ⟨_, [letter], hspelling, by decide, fun rest => step?_backslash hgap hbreak (hescape _)⟩
  by_cases hline : c = '\n'
  · subst c
    cases tripled with
    | true => exact ⟨_, [], rfl, by decide, fun rest => step?_break rfl rest⟩
    | false => exact hletter rfl (by decide) (by decide) fun _ => rfl
  by_cases hshort : c ∈ ['\x08', '\t', '\x0c', '\r', '\\']
  · simp only [List.mem_cons, List.not_mem_nil, or_false] at hshort
    rcases hshort with rfl | rfl | rfl | rfl | rfl
    all_goals exact hletter rfl (by decide) (by decide) fun _ => rfl
  · simp only [List.mem_cons, List.not_mem_nil, or_false, not_or] at hshort
    obtain ⟨hback, htab, hfeed, hreturn, hslash⟩ := hshort
    simp only [escaped, hback, htab, hline, hfeed, hreturn, hslash, if_false]
    by_cases hcontrol : isControl c = true
    · rw [if_pos hcontrol]
      exact ⟨_, _, rfl, by decide, fun rest => step?_backslash (by decide) (by decide)
        (escape?_numberedEscape (toNat_of_isControl hcontrol) rest)⟩
    · rw [if_neg hcontrol]
      have hplain : isPlain c = true := by simpa [isControl, hline] using hcontrol
      exact ⟨c, [], rfl, hc, step?_of_isPlain hplain fun h => hslash h.1⟩

/-! ## Spellings -/

/-- What is written for a string with escapes is a spelling of it. -/
theorem spells_escapedChars (tripled : Bool) (run : Nat) (cs : List Char) :
    Spells ⟨'"', tripled⟩ run cs (escapedChars tripled (mostMarks ⟨'"', tripled⟩) run cs) := by
  induction cs generalizing run with
  | nil => exact .nil run
  | cons c cs ih =>
      rw [escapedChars]
      split
      · subst c
        split
        · rename_i hrun
          exact .mark hrun (ih (run + 1))
        · have hread (rest : List Char) :
              step? ⟨'"', tripled⟩ ('\\' :: (['"'] ++ rest)) = some (['"'], 1) :=
            step?_backslash (by decide) (by decide) rfl
          have hslash : '\\' ≠ '"' := by decide
          exact .char hslash hread (ih 0)
      · rename_i hc
        obtain ⟨first, more, hspelling, hfirst, hstep⟩ := exists_step?_escaped tripled hc
        rw [hspelling]
        exact .char hfirst hstep (ih 0)

theorem le_longestRun (mark : Char) (run longest : Nat) (cs : List Char) :
    longest ≤ longestRun mark run longest cs := by
  induction cs generalizing run longest with
  | nil => exact Nat.le_refl _
  | cons c cs ih =>
      rw [longestRun]
      split
      · exact Nat.le_trans (Nat.le_max_left ..) (ih ..)
      · exact ih ..

/-- A string without escapes spells itself unless too many quotes stand in a row. -/
theorem spells_self {quote : Quote} {run longest : Nat} {cs : List Char}
    (hruns : longestRun quote.mark run longest cs ≤ quote.mostMarks)
    (hstep : ∀ c ∈ cs, ∀ rest, quote.step? (c :: rest) = some ([c], 0)) :
    quote.Spells run cs cs := by
  induction cs generalizing run longest with
  | nil => exact .nil run
  | cons c cs ih =>
      have hrest : ∀ c ∈ cs, ∀ rest, quote.step? (c :: rest) = some ([c], 0) :=
        fun c hc => hstep c (.tail _ hc)
      rw [longestRun] at hruns
      split at hruns
      · rename_i hmark
        have hlongest := Nat.le_trans (le_longestRun ..) hruns
        subst c
        exact .mark (Nat.le_trans (Nat.le_max_right ..) hlongest) (ih hruns hrest)
      · rename_i hmark
        have hread (rest : List Char) : quote.step? (c :: ([] ++ rest)) = some ([c], 0) :=
          hstep c (List.mem_cons_self ..) rest
        exact .char hmark hread (ih hruns hrest)

/-- What is read as another character than a line break is none. -/
theorem lineBreak_of_step? {quote : Quote} {first c : Char} {rest : List Char} {length : Nat}
    (hstep : quote.step? (first :: rest) = some ([c], length)) (hc : c ≠ '\n') :
    lineBreak (first :: rest) = 0 := by
  have hplain : isPlain '\n' = false ∧ isPlain '\r' = false := by decide
  unfold lineBreak
  split
  · rename_i hcons
    obtain ⟨rfl, rfl⟩ := List.cons.inj hcons
    simp [step?, hplain, hc.symm] at hstep
  · rename_i hcons
    obtain ⟨rfl, rfl⟩ := List.cons.inj hcons
    simp [step?, hplain, hc.symm] at hstep
  · rfl

/-- A spelling starts with a line break only if the string has one. -/
theorem Spells.lineBreak_eq {quote : Quote} {run : Nat} {s text : List Char}
    (h : quote.Spells run s text) (hmark : quote.mark ≠ '\n' ∧ quote.mark ≠ '\r') (hs : '\n' ∉ s)
    (rest : List Char) : lineBreak (text ++ (quote.marks ++ rest)) = 0 := by
  cases h with
  | nil =>
      obtain ⟨more, hmarks⟩ := quote.exists_marks_eq_cons
      rw [hmarks]
      exact lineBreak_cons hmark _
  | mark => exact lineBreak_cons hmark _
  | @char _ c first more s text hfirst hstep h =>
      rw [List.cons_append, List.append_assoc]
      exact lineBreak_of_step? (hstep _) fun hc => hs (hc ▸ List.mem_cons_self ..)

/-- The line break in front of a string is the only one that is passed over. -/
theorem Spells.drop_opening {quote : Quote} {run : Nat} {s text : List Char}
    (h : quote.Spells run s text) (hmark : quote.mark ≠ '\n' ∧ quote.mark ≠ '\r')
    (htripled : quote.tripled = true) (rest : List Char) :
    (quote.opening s ++ (text ++ (quote.marks ++ rest))).drop
        (lineBreak (quote.opening s ++ (text ++ (quote.marks ++ rest))))
      = text ++ (quote.marks ++ rest) := by
  rw [opening, htripled, Bool.true_and]
  split
  · rfl
  · rename_i hnone
    rw [List.nil_append, h.lineBreak_eq hmark (by simpa using hnone), List.drop_zero]

/-- A spelling on one line cannot be taken for the quotes of a string of several lines. -/
theorem Spells.ne_marks {mark : Char} {s text rest : List Char}
    (h : Spells ⟨mark, false⟩ 0 s text) (hrest : EndsRun ⟨mark, false⟩ rest) (more : List Char) :
    text ++ mark :: rest ≠ mark :: mark :: more := by
  cases h with
  | nil =>
      rintro ⟨⟩
      exact hrest rfl
  | mark hrun => exact absurd hrun (Nat.not_lt_zero _)
  | char hfirst => exact fun heq => hfirst (List.cons.inj heq).1

end Quote

/-! ## Forms -/

/-- A form without escapes is chosen only for what it can hold. -/
theorem formOf_cases (cs : List Char) :
    (formOf cs).mark = '"' ∨
      (formOf cs).mark = '\'' ∧ cs.any isControl = false ∧
        longestRun '\'' 0 0 cs ≤ (formOf cs).mostMarks ∧
        ('\n' ∈ cs → (formOf cs).tripled = true) := by
  unfold formOf
  extract_lets hasControl hasBreak hasBackslash doubles singles
  split
  · exact .inl rfl
  split
  · rename_i h
    simp only [Bool.and_eq_true, Bool.not_eq_true', decide_eq_true_eq] at h
    obtain ⟨⟨hcontrol, hsingles⟩, hbreak⟩ := h
    have hnone : '\n' ∉ cs := by simpa [hasBreak] using hbreak
    exact .inr ⟨rfl, hcontrol, Nat.le_of_eq hsingles, fun h => absurd h hnone⟩
  split
  · exact .inl rfl
  split
  · rename_i h
    simp only [Bool.and_eq_true, Bool.not_eq_true', decide_eq_true_eq] at h
    exact .inr ⟨rfl, h.1, h.2, fun _ => rfl⟩
  · exact .inl rfl

/-- The body of a string in its quotes. -/
def bodyChars (cs : List Char) : List Char :=
  if (formOf cs).mark = '"' then escapedChars (formOf cs).tripled (formOf cs).mostMarks 0 cs
  else cs

theorem spells_bodyChars (cs : List Char) : (formOf cs).Spells 0 cs (bodyChars cs) := by
  rw [bodyChars]
  split
  · rename_i hmark
    have hspells := Quote.spells_escapedChars (formOf cs).tripled 0 cs
    rwa [← hmark] at hspells
  · rename_i hmark
    obtain ⟨hquote, hcontrol, hruns, hbreak⟩ := (formOf_cases cs).resolve_left hmark
    rw [← hquote] at hruns
    refine Quote.spells_self hruns fun c hc rest => ?_
    by_cases hline : c = '\n'
    · subst c
      exact Quote.step?_break (hbreak hc) rest
    · have hplain : isPlain c = true := by
        have hfree := List.any_eq_false.1 hcontrol c hc
        simpa [isControl, hline] using hfree
      exact Quote.step?_of_isPlain hplain (fun h => hmark h.2) rest

theorem quotedChars_eq (cs : List Char) :
    quotedChars cs
      = (formOf cs).marks ++ ((formOf cs).opening cs ++ (bodyChars cs ++ (formOf cs).marks)) := by
  simp only [quotedChars, Quote.marks, Quote.opening, bodyChars, Quote.mostMarks,
    List.append_assoc]

theorem exists_quotedChars_eq_cons (cs : List Char) :
    ∃ rest, quotedChars cs = (formOf cs).mark :: rest := by
  obtain ⟨more, hmarks⟩ := (formOf cs).exists_marks_eq_cons
  rw [quotedChars_eq, hmarks]
  exact ⟨_, rfl⟩

theorem formOf_mark_eq (cs : List Char) : (formOf cs).mark = '"' ∨ (formOf cs).mark = '\'' :=
  (formOf_cases cs).imp_right And.left

theorem formOf_mark_ne (cs : List Char) :
    (formOf cs).mark ≠ '\n' ∧ (formOf cs).mark ≠ '\r' := by
  rcases formOf_mark_eq cs with h | h <;> rw [h] <;> decide

/-! ## Strings -/

/-- One quote in front of a text opens a string on one line, unless two more follow. -/
theorem readString_of_single {mark : Char} {cs : List Char}
    (h : ∀ rest, cs ≠ mark :: mark :: rest) :
    readString mark (mark :: cs) = readLineString mark cs := by
  unfold readString
  split
  · rename_i hcons
    obtain ⟨rfl, rfl⟩ := List.cons.inj hcons
    split
    · rename_i hmarks
      obtain ⟨-, rfl, rfl⟩ := hmarks
      exact absurd rfl (h _)
    · rw [if_pos rfl]
  · rename_i hcons
    obtain ⟨rfl, rfl⟩ := List.cons.inj hcons
    rw [if_pos rfl]
  · contradiction

theorem readString_of_tripled {mark : Char} (cs : List Char) :
    readString mark (mark :: mark :: mark :: cs)
      = (Quote.readBody ⟨mark, true⟩ (cs.drop (lineBreak cs))).map
          fun read => (String.ofList read.1, read.2) := by
  rw [readString, if_pos ⟨rfl, rfl, rfl⟩]

/-- A string is read back from its form, whatever stands behind it except a quote. -/
theorem readString_quotedChars (cs : List Char) {rest : List Char}
    (hrest : (formOf cs).EndsRun rest) :
    readString (formOf cs).mark (quotedChars cs ++ rest) = some (String.ofList cs, rest) := by
  have hspells := spells_bodyChars cs
  have hmark := formOf_mark_ne cs
  have hread := hspells.readBody_eq (Nat.zero_le _) hrest
  rw [List.replicate_zero, List.nil_append, List.nil_append] at hread
  rw [quotedChars_eq, List.append_assoc, List.append_assoc, List.append_assoc]
  generalize formOf cs = quote at *
  obtain ⟨mark, tripled⟩ := quote
  cases tripled with
  | true =>
      have hmarks (behind : List Char) :
          Quote.marks ⟨mark, true⟩ ++ behind = mark :: mark :: mark :: behind := rfl
      have hopening := hspells.drop_opening hmark rfl rest
      rw [hmarks, readString_of_tripled, hopening, hread]
      rfl
  | false =>
      have hmarks (behind : List Char) : Quote.marks ⟨mark, false⟩ ++ behind = mark :: behind := rfl
      have hopening : Quote.opening ⟨mark, false⟩ cs = [] := rfl
      rw [hmarks, hopening, List.nil_append]
      rw [hmarks] at hread ⊢
      rw [readString_of_single (hspells.ne_marks hrest), readLineString, hread]
      rfl

/-- A string on its line is read as that string. -/
theorem readScalar_quotedChars (cs rest : List Char) :
    readScalar (quotedChars cs ++ '\n' :: rest)
      = some (.string (String.ofList cs), '\n' :: rest) := by
  have hends : (formOf cs).EndsRun ('\n' :: rest) := by
    simpa [Quote.EndsRun] using (formOf_mark_ne cs).1.symm
  have hread := readString_quotedChars cs hends
  obtain ⟨more, hquoted⟩ := exists_quotedChars_eq_cons cs
  rw [hquoted, List.cons_append] at hread ⊢
  rw [readScalar, if_pos (formOf_mark_eq cs), hread]
  rfl

end RigPack.Toml

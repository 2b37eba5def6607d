import RigPack.Json.Parser
import RigPack.Proofs.Json.Record
import RigPack.Proofs.Table

/-!
# Values on one line, read back

Messages are put into commands as JSON values without blanks.  This file reads such a value with
the reader of the program, and gets it back (`Json.parse_compact`), if it is one that a message
consists of: it holds no numbers, the fields of its objects stand in the order of their names,
and it does not nest too deep.

## Strategy

Every reader is a step that takes at least one character, and no reader takes more than two
steps for that.  So twice as many steps as there are characters are enough, and the induction
is on the value, in the order in which its text is written.
-/

namespace RigPack.Json

mutual

/-- Whether a value is one that messages consist of, nested at most so deep. -/
def isMessage : Nat → Json → Bool
  | _, .number _ => false
  | 0, .array _ => false
  | 0, .object _ => false
  | depth + 1, .array items => areMessages depth items
  | depth + 1, .object fields =>
    decide (fields.Pairwise fun a b => a.1 < b.1) && fieldsAreMessages depth fields
  | _, _ => true

/-- Whether the items of an array are values of messages. -/
def areMessages : Nat → List Json → Bool
  | _, [] => true
  | depth, item :: items => isMessage depth item && areMessages depth items

/-- Whether the fields of an object hold values of messages. -/
def fieldsAreMessages : Nat → List (String × Json) → Bool
  | _, [] => true
  | depth, (_, value) :: fields => isMessage depth value && fieldsAreMessages depth fields

end

mutual

/-- The draft of a value without numbers. -/
def draft : Json → Draft
  | .null => .null
  | .bool b => .bool b
  | .number _ => .null
  | .string s => .text (.whole s)
  | .array items => .array (drafts items) .closed
  | .object fields => .object (fieldDrafts fields) .closed

/-- The drafts of the items of an array. -/
def drafts : List Json → List Draft
  | [] => []
  | item :: items => item.draft :: drafts items

/-- The drafts of the fields of an object. -/
def fieldDrafts : List (String × Json) → List (Draft × Draft)
  | [] => []
  | (name, value) :: fields => (.text (.whole name), value.draft) :: fieldDrafts fields

end

/-! ## From drafts to values -/

mutual

/-- A draft of a message means that message. -/
theorem toJson_draft : ∀ (depth : Nat) (value : Json), isMessage depth value = true →
    value.draft.toJson depth = .ok value
  | _, .null, _ => by simp [draft, Draft.toJson]
  | _, .bool _, _ => by simp [draft, Draft.toJson]
  | _, .number _, h => by simp [isMessage] at h
  | _, .string _, _ => by simp [draft, Draft.toJson, Draft.Text.read, Except.map]
  | 0, .array _, h => by simp [isMessage] at h
  | 0, .object _, h => by simp [isMessage] at h
  | depth + 1, .array items, h => by
    rw [isMessage] at h
    rw [draft, Draft.toJson, itemsToJson_drafts depth items h]
    rfl
  | depth + 1, .object fields, h => by
    rw [isMessage, Bool.and_eq_true, decide_eq_true_eq] at h
    rw [draft, Draft.toJson, membersToJson_fieldDrafts depth fields h.2]
    exact congrArg (fun entries => Except.ok (Json.object entries)) (Table.entries_ofList h.1)

theorem itemsToJson_drafts : ∀ (depth : Nat) (items : List Json), areMessages depth items = true →
    Draft.itemsToJson depth (drafts items) = .ok items
  | _, [], _ => by simp [drafts, Draft.itemsToJson]
  | depth, item :: items, h => by
    rw [areMessages, Bool.and_eq_true] at h
    rw [drafts, Draft.itemsToJson, toJson_draft depth item h.1, itemsToJson_drafts depth items h.2]
    rfl

theorem membersToJson_fieldDrafts : ∀ (depth : Nat) (fields : List (String × Json)),
    fieldsAreMessages depth fields = true →
      Draft.membersToJson depth (fieldDrafts fields) = .ok fields
  | _, [], _ => by simp [fieldDrafts, Draft.membersToJson]
  | depth, (name, value) :: fields, h => by
    rw [fieldsAreMessages, Bool.and_eq_true] at h
    rw [fieldDrafts, Draft.membersToJson, toJson_draft depth value h.1,
      membersToJson_fieldDrafts depth fields h.2]
    rfl

end

/-! ## From texts to drafts -/

namespace Draft

/-- A value on one line starts with no blank and does not close anything. -/
theorem exists_cons_compactChars {depth : Nat} : ∀ {value : Json}, isMessage depth value = true →
    ∃ c cs, value.compactChars = c :: cs ∧ isSpace c = false ∧ c ≠ ']'
  | .null, _ => ⟨'n', _, rfl, by decide, by decide⟩
  | .bool true, _ => ⟨'t', _, rfl, by decide, by decide⟩
  | .bool false, _ => ⟨'f', _, rfl, by decide, by decide⟩
  | .number _, h => by simp [isMessage] at h
  | .string _, _ => ⟨'"', _, rfl, by decide, by decide⟩
  | .array [], _ => ⟨'[', _, rfl, by decide, by decide⟩
  | .array (_ :: _), _ => ⟨'[', _, rfl, by decide, by decide⟩
  | .object [], _ => ⟨'\x7b', _, rfl, by decide, by decide⟩
  | .object ((_, _) :: _), _ => ⟨'\x7b', _, rfl, by decide, by decide⟩

theorem length_compactChars_pos {depth : Nat} {value : Json} (h : isMessage depth value = true) :
    0 < value.compactChars.length := by
  obtain ⟨c, cs, hchars, -, -⟩ := exists_cons_compactChars h
  simp [hchars]

theorem length_stringChars_pos (s : String) : 0 < (stringChars s).length := by
  simp [stringChars]

theorem length_compactItems_pos (items : List Json) : 0 < (compactItems items).length := by
  cases items <;> simp [compactItems]

theorem length_compactFields_pos (fields : List (String × Json)) :
    0 < (compactFields fields).length := by
  rcases fields with _ | ⟨⟨name, value⟩, fields⟩ <;> simp [compactFields]

theorem skipSpace_cons {c : Char} (hc : isSpace c = false) (cs : List Char) :
    skipSpace (c :: cs) = c :: cs :=
  List.dropWhile_cons_of_neg (by simp [hc])

section Steps

variable {steps : Nat} {cs middle later rest : List Char} {item name value : Draft}
  {items : List Draft} {members : List (Draft × Draft)}

theorem readItem_of_readValue (hitem : readValue steps cs = (item, some middle))
    (hitems : readItems steps false middle = (items, .closed, some rest)) :
    readItem (steps + 1) cs = (item :: items, .closed, some rest) := by
  rw [readItem, hitem]
  simp only [hitems]

/-- The first item of an array is read after its bracket. -/
theorem readItems_first {depth : Nat} {first : Json} (h : isMessage depth first = true) :
    readItems (steps + 1) true (first.compactChars ++ cs)
      = readItem steps (first.compactChars ++ cs) := by
  obtain ⟨c, front, hchars, hc, hne⟩ := exists_cons_compactChars h
  rw [hchars, List.cons_append, readItems, skipSpace_cons hc]
  simp only [if_neg hne, if_true]

/-- Any other item is read after its comma. -/
theorem readItems_next {depth : Nat} {next : Json} (h : isMessage depth next = true) :
    readItems (steps + 1) false (',' :: (next.compactChars ++ cs))
      = readItem steps (next.compactChars ++ cs) := by
  obtain ⟨c, front, hchars, hc, hne⟩ := exists_cons_compactChars h
  rw [hchars, List.cons_append]
  have hcomma : skipSpace (',' :: c :: (front ++ cs)) = ',' :: c :: (front ++ cs) := rfl
  have hclosing : ',' ≠ ']' := by decide
  rw [readItems, hcomma]
  simp only [if_neg hclosing, if_true, skipSpace_cons hc, if_neg Bool.false_ne_true]
  split
  · rename_i heq
    exact absurd (List.cons.inj heq).1 hne
  · rfl

theorem readValue_stringChars (s : String) (rest : List Char) :
    readValue (steps + 1) (stringChars s ++ rest) = (.text (.whole s), some rest) :=
  readValue_string rfl

theorem readMember_of_readValue (hname : readValue steps cs = (name, some (':' :: middle)))
    (hvalue : readValue steps middle = (value, some later))
    (hmembers : readMembers steps false later = (members, .closed, some rest)) :
    readMember (steps + 1) cs = ((name, value) :: members, .closed, some rest) := by
  have hcolon : skipSpace (':' :: middle) = ':' :: middle := rfl
  rw [readMember, hname]
  simp only [hcolon, if_true, hvalue, hmembers]

theorem readMembers_first :
    readMembers (steps + 1) true ('"' :: cs) = readMember steps ('"' :: cs) := rfl

theorem readMembers_next :
    readMembers (steps + 1) false (',' :: cs) = readMember steps cs := rfl

end Steps

mutual

/-- A value on one line is read as its draft, whatever follows. -/
theorem readValue_compactChars : ∀ (depth : Nat) (value : Json) (steps : Nat) (rest : List Char),
    isMessage depth value = true → 2 * value.compactChars.length ≤ steps →
      readValue steps (value.compactChars ++ rest) = (value.draft, some rest)
  | _, .null, steps, rest, _, hsteps => by
    obtain ⟨steps, rfl⟩ := Nat.exists_eq_add_of_le' hsteps
    rfl
  | _, .bool true, steps, rest, _, hsteps => by
    obtain ⟨steps, rfl⟩ := Nat.exists_eq_add_of_le' hsteps
    rfl
  | _, .bool false, steps, rest, _, hsteps => by
    obtain ⟨steps, rfl⟩ := Nat.exists_eq_add_of_le' hsteps
    rfl
  | _, .number _, _, _, h, _ => by simp [isMessage] at h
  | _, .string s, steps, rest, _, hsteps => by
    have hpos : 0 < (Json.string s).compactChars.length := length_stringChars_pos s
    obtain ⟨steps, rfl⟩ := Nat.exists_eq_succ_of_ne_zero (by omega : steps ≠ 0)
    exact readValue_stringChars s rest
  | _, .array [], steps, rest, _, hsteps => by
    obtain ⟨steps, rfl⟩ := Nat.exists_eq_add_of_le' hsteps
    rfl
  | _, .object [], steps, rest, _, hsteps => by
    obtain ⟨steps, rfl⟩ := Nat.exists_eq_add_of_le' hsteps
    rfl
  | 0, .array (_ :: _), _, _, h, _ => by simp [isMessage] at h
  | 0, .object (_ :: _), _, _, h, _ => by simp [isMessage] at h
  | depth + 1, .array (item :: items), steps, rest, h, hsteps => by
    rw [isMessage, areMessages, Bool.and_eq_true] at h
    have hpos := length_compactChars_pos h.1
    have hpos' := length_compactItems_pos items
    simp only [compactChars, List.length_cons, List.length_append] at hsteps
    obtain ⟨steps, rfl⟩ : ∃ fewer, steps = fewer + 3 := ⟨steps - 3, by omega⟩
    have hitem := readValue_compactChars depth item steps (compactItems items ++ rest) h.1
      (by omega)
    have hitems := readItems_compactItems depth items steps rest h.2 (by omega)
    rw [compactChars, List.cons_append, List.cons_append, List.append_assoc]
    exact congrArg (fun read => (Draft.array read.1 read.2.1, read.2.2))
      ((readItems_first h.1).trans (readItem_of_readValue hitem hitems))
  | depth + 1, .object ((name, value) :: fields), steps, rest, h, hsteps => by
    rw [isMessage, fieldsAreMessages, Bool.and_eq_true, Bool.and_eq_true] at h
    have hpos' := length_compactFields_pos fields
    simp only [compactChars, List.length_cons, List.length_append] at hsteps
    have hname_pos := length_stringChars_pos name
    obtain ⟨steps, rfl⟩ : ∃ fewer, steps = fewer + 4 := ⟨steps - 4, by omega⟩
    have hvalue := readValue_compactChars depth value (steps + 1) (compactFields fields ++ rest)
      h.2.1 (by omega)
    have hfields := readMembers_compactFields depth fields (steps + 1) rest h.2.2 (by omega)
    have hread := readMember_of_readValue (readValue_stringChars name _) hvalue hfields
    simp only [compactChars, stringChars, List.cons_append, List.append_assoc] at hread ⊢
    exact congrArg (fun read => (Draft.object read.1 read.2.1, read.2.2))
      (readMembers_first.trans hread)

/-- The items behind one are read as their drafts, up to the end of their array. -/
theorem readItems_compactItems : ∀ (depth : Nat) (items : List Json) (steps : Nat)
    (rest : List Char), areMessages depth items = true → 2 * (compactItems items).length ≤ steps →
      readItems steps false (compactItems items ++ rest) = (drafts items, .closed, some rest)
  | _, [], steps, rest, _, hsteps => by
    obtain ⟨steps, rfl⟩ := Nat.exists_eq_add_of_le' hsteps
    rfl
  | depth, item :: items, steps, rest, h, hsteps => by
    rw [areMessages, Bool.and_eq_true] at h
    simp only [compactItems, List.length_cons, List.length_append] at hsteps
    obtain ⟨steps, rfl⟩ : ∃ fewer, steps = fewer + 2 := ⟨steps - 2, by omega⟩
    have hitem := readValue_compactChars depth item steps (compactItems items ++ rest) h.1
      (by omega)
    have hitems := readItems_compactItems depth items steps rest h.2 (by omega)
    rw [compactItems, List.cons_append, List.cons_append, List.append_assoc]
    exact (readItems_next h.1).trans (readItem_of_readValue hitem hitems)

/-- The fields behind one are read as their drafts, up to the end of their object. -/
theorem readMembers_compactFields : ∀ (depth : Nat) (fields : List (String × Json)) (steps : Nat)
    (rest : List Char), fieldsAreMessages depth fields = true →
      2 * (compactFields fields).length ≤ steps →
      readMembers steps false (compactFields fields ++ rest)
        = (fieldDrafts fields, .closed, some rest)
  | _, [], steps, rest, _, hsteps => by
    obtain ⟨steps, rfl⟩ := Nat.exists_eq_add_of_le' hsteps
    rfl
  | depth, (name, value) :: fields, steps, rest, h, hsteps => by
    rw [fieldsAreMessages, Bool.and_eq_true] at h
    have hname_pos := length_stringChars_pos name
    simp only [compactFields, List.length_cons, List.length_append] at hsteps
    obtain ⟨steps, rfl⟩ : ∃ fewer, steps = fewer + 3 := ⟨steps - 3, by omega⟩
    have hvalue := readValue_compactChars depth value (steps + 1) (compactFields fields ++ rest)
      h.1 (by omega)
    have hfields := readMembers_compactFields depth fields (steps + 1) rest h.2 (by omega)
    have hread := readMember_of_readValue (readValue_stringChars name _) hvalue hfields
    simp only [compactFields, List.cons_append, List.append_assoc] at hread ⊢
    exact readMembers_next.trans hread

end

end Draft

/-- A message is read back from its text on one line. -/
theorem parse_compact {value : Json} (h : isMessage maxDepth value = true) :
    parse value.compact = .ok value := by
  have hread : Draft.read value.compact = (value.draft, true) := by
    have hvalue := Draft.readValue_compactChars maxDepth value
      (4 * value.compactChars.length + 4) [] h (by omega)
    rw [List.append_nil] at hvalue
    rw [Draft.read, compact, String.toList_ofList, hvalue]
    rfl
  rw [parse, hread]
  exact congrArg (fun read => read >>= fun value => Except.ok value) (toJson_draft maxDepth value h)

end RigPack.Json

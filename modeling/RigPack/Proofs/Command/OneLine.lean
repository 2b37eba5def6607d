import RigPack.Command.Text
import RigPack.Proofs.Json.Record
import RigPack.Proofs.Text.OneLine
import RigPack.Proofs.Text.Words

/-!
# Commands on one line

A function file gives each command a line.  That works as long as the text of a command holds
no line feed of its own.  Fixed words and numbers hold none, and the strings of a message are
escaped; but tag values keep the line feeds of their strings, and texts that a user wrote are
taken as they are.  So a command is on one line exactly if the texts are that it is put
together from (`Command.parts`).

## Main statements

* `Json.isOneLine_compact`: a message is on one line, whatever its strings are.
* `Snbt.isOneLine_text_iff`: a tag value is on one line exactly if its strings and keys are.
* `Command.isOneLine_text_iff`: so is a command, if its parts are.
-/

namespace RigPack

/-! ## Messages -/

namespace Json

theorem newline_not_mem_escapedChar (c : Char) : '\n' ∉ escapedChar c := by
  by_cases hc : c = '"' ∨ c = '\\' ∨ c.toNat < 0x20
  · rcases hc with rfl | rfl | hlow
    · decide
    · decide
    · obtain ⟨n, rfl⟩ : ∃ n : Fin 32, c = Char.ofNat n :=
        ⟨⟨c.toNat, hlow⟩, (Char.ofNat_toNat c).symm⟩
      exact (by decide : ∀ n : Fin 32, '\n' ∉ escapedChar (Char.ofNat n)) n
  · rw [Draft.escapedChar_plain hc, List.mem_singleton]
    rintro rfl
    exact hc (by decide)

theorem newline_not_mem_stringChars (s : String) : '\n' ∉ stringChars s := by
  have hbody : '\n' ∉ s.toList.flatMap escapedChar := by
    simp [List.mem_flatMap, newline_not_mem_escapedChar]
  simp [stringChars, hbody]

theorem Number.newline_not_mem_chars (n : Number) : '\n' ∉ n.chars := by
  cases n with
  | whole n => exact isOneLine_toString_int n
  | real x => exact Binary.newline_not_mem_chars (by decide) x

mutual

theorem newline_not_mem_compactChars : ∀ value : Json, '\n' ∉ value.compactChars
  | .null => by decide
  | .bool true => by decide
  | .bool false => by decide
  | .number n => by
    rw [compactChars]
    exact n.newline_not_mem_chars
  | .string s => by
    rw [compactChars]
    exact newline_not_mem_stringChars s
  | .array [] => by decide
  | .array (item :: items) => by
    simp [compactChars, newline_not_mem_compactChars item, newline_not_mem_compactItems items]
  | .object [] => by decide
  | .object ((name, value) :: fields) => by
    simp [compactChars, newline_not_mem_stringChars, newline_not_mem_compactChars value,
      newline_not_mem_compactFields fields]

theorem newline_not_mem_compactItems : ∀ items : List Json, '\n' ∉ compactItems items
  | [] => by decide
  | item :: items => by
    simp [compactItems, newline_not_mem_compactChars item, newline_not_mem_compactItems items]

theorem newline_not_mem_compactFields :
    ∀ fields : List (String × Json), '\n' ∉ compactFields fields
  | [] => by decide
  | (name, value) :: fields => by
    simp [compactFields, newline_not_mem_stringChars, newline_not_mem_compactChars value,
      newline_not_mem_compactFields fields]

end

/-- A value without blanks is on one line, whatever its strings are. -/
theorem isOneLine_compact (value : Json) : IsOneLine value.compact :=
  isOneLine_ofList.2 value.newline_not_mem_compactChars

end Json

/-! ## Tag values -/

namespace Snbt

mutual

/-- The strings and the keys of a value. -/
@[simp] def texts : Snbt → List String
  | .int _ => []
  | .float _ => []
  | .string s => [s]
  | .list items => textsOfItems items
  | .compound entries => textsOfEntries entries

/-- The strings and the keys of the items of a list. -/
@[simp] def textsOfItems : List Snbt → List String
  | [] => []
  | item :: items => item.texts ++ textsOfItems items

/-- The strings and the keys of the entries of a compound. -/
@[simp] def textsOfEntries : List (String × Snbt) → List String
  | [] => []
  | (key, value) :: entries => key :: (value.texts ++ textsOfEntries entries)

end

@[simp] theorem textsOfItems_map {α : Type} (f : α → Snbt) (as : List α) :
    textsOfItems (as.map f) = as.flatMap fun a => (f a).texts := by
  induction as with
  | nil => rfl
  | cons a as ih => rw [List.map_cons, textsOfItems, ih, List.flatMap_cons]

@[simp] theorem texts_ofTransform (transform : Transform) : (ofTransform transform).texts = [] := by
  rw [ofTransform, texts, textsOfItems_map]
  exact List.flatMap_eq_nil_iff.2 fun _ _ => rfl

/-- Whether a character stands in the text of a value only where a string or a key holds it. -/
def isContent (c : Char) : Bool :=
  !Binary.isNumberChar c && !(['"', '\\', '[', ']', '\x7b', '\x7d', ':', ','].contains c)

section Content

variable {c : Char} (hc : isContent c = true)

include hc

theorem ne_of_isContent {d : Char} (hd : isContent d = false) : c ≠ d := by
  rintro rfl
  rw [hc] at hd
  contradiction

theorem isNumberChar_of_isContent : Binary.isNumberChar c = false := by
  simp only [isContent, Bool.and_eq_true, Bool.not_eq_true'] at hc
  exact hc.1

/-- Between quotes such a character stays what it is. -/
theorem mem_escapedChar_iff (d : Char) : c ∈ escapedChar d ↔ d = c := by
  have hquote : c ≠ '"' := ne_of_isContent hc (by decide)
  have hslash : c ≠ '\\' := ne_of_isContent hc (by decide)
  unfold escapedChar
  split
  · rename_i heq
    simp [heq, hquote, hslash, hquote.symm]
  · split
    · rename_i heq
      simp [heq, hslash, hslash.symm]
    · simp [eq_comm]

theorem mem_quotedChars_iff (s : List Char) : c ∈ quotedChars s ↔ c ∈ s := by
  have hquote : c ≠ '"' := ne_of_isContent hc (by decide)
  simp [quotedChars, List.mem_flatMap, mem_escapedChar_iff hc, hquote]

theorem mem_keyChars_iff (key : String) : c ∈ keyChars key ↔ c ∈ key.toList := by
  unfold keyChars
  split
  · exact Iff.rfl
  · exact mem_quotedChars_iff hc _

theorem not_mem_toString (n : Int) : c ∉ (toString n).toList := by
  intro hmem
  have hnumber := isNumberChar_of_isContent hc
  rcases Text.isDigit_or_eq_minus_of_mem_toString hmem with hdigit | rfl
  · rw [Binary.isNumberChar, hdigit, Bool.true_or] at hnumber
    contradiction
  · contradiction

theorem not_mem_float (x : Binary.Single) : c ∉ x.chars .command ++ ['f'] := by
  intro hmem
  have hnumber := isNumberChar_of_isContent hc
  rcases List.mem_append.1 hmem with hmem | hmem
  · rw [Binary.isNumberChar_of_mem_chars (by decide) c hmem] at hnumber
    contradiction
  · rw [List.mem_singleton.1 hmem] at hnumber
    contradiction

mutual

theorem not_mem_chars_iff :
    ∀ value : Snbt, c ∉ value.chars ↔ ∀ s ∈ value.texts, c ∉ s.toList
  | .int n => by
    have hn : c ∉ (toString n.toInt).toList := not_mem_toString hc n.toInt
    rw [chars, iff_true_intro hn]
    simp
  | .float x => by
    rw [chars, iff_true_intro (not_mem_float hc x)]
    simp
  | .string s => by
    rw [chars, mem_quotedChars_iff hc]
    simp
  | .list [] => by
    have hopening : c ≠ '[' := ne_of_isContent hc (by decide)
    have hclosing : c ≠ ']' := ne_of_isContent hc (by decide)
    simp [chars, texts, textsOfItems, hopening, hclosing]
  | .list (item :: items) => by
    have hopening : c ≠ '[' := ne_of_isContent hc (by decide)
    simp [chars, texts, textsOfItems, or_imp, forall_and, not_mem_chars_iff item,
      not_mem_charsOfItems_iff items, hopening]
  | .compound [] => by
    have hopening : c ≠ '\x7b' := ne_of_isContent hc (by decide)
    have hclosing : c ≠ '\x7d' := ne_of_isContent hc (by decide)
    simp [chars, texts, textsOfEntries, hopening, hclosing]
  | .compound ((key, value) :: entries) => by
    have hopening : c ≠ '\x7b' := ne_of_isContent hc (by decide)
    have hcolon : c ≠ ':' := ne_of_isContent hc (by decide)
    simp [chars, texts, textsOfEntries, or_imp, forall_and, not_mem_chars_iff value,
      not_mem_charsOfEntries_iff entries, mem_keyChars_iff hc, hopening, hcolon]

theorem not_mem_charsOfItems_iff :
    ∀ items : List Snbt, c ∉ charsOfItems items ↔ ∀ s ∈ textsOfItems items, c ∉ s.toList
  | [] => by
    have hclosing : c ≠ ']' := ne_of_isContent hc (by decide)
    simp [charsOfItems, textsOfItems, hclosing]
  | item :: items => by
    have hcomma : c ≠ ',' := ne_of_isContent hc (by decide)
    simp [charsOfItems, textsOfItems, or_imp, forall_and, not_mem_chars_iff item,
      not_mem_charsOfItems_iff items, hcomma]

theorem not_mem_charsOfEntries_iff :
    ∀ entries : List (String × Snbt),
      c ∉ charsOfEntries entries ↔ ∀ s ∈ textsOfEntries entries, c ∉ s.toList
  | [] => by
    have hclosing : c ≠ '\x7d' := ne_of_isContent hc (by decide)
    simp [charsOfEntries, textsOfEntries, hclosing]
  | (key, value) :: entries => by
    have hcomma : c ≠ ',' := ne_of_isContent hc (by decide)
    have hcolon : c ≠ ':' := ne_of_isContent hc (by decide)
    simp [charsOfEntries, textsOfEntries, or_imp, forall_and, not_mem_chars_iff value,
      not_mem_charsOfEntries_iff entries, mem_keyChars_iff hc, hcomma, hcolon]

end

end Content

/-- A value is on one line exactly if its strings and keys are. -/
theorem isOneLine_text_iff (value : Snbt) :
    IsOneLine value.text ↔ ∀ s ∈ value.texts, IsOneLine s := by
  rw [text, isOneLine_ofList]
  exact not_mem_chars_iff (by decide) value

/-- A value is one word exactly if its strings and keys hold no blanks. -/
theorem isOneWord_text_iff (value : Snbt) :
    Text.IsOneWord value.text ↔ ∀ s ∈ value.texts, Text.IsOneWord s := by
  rw [text, Text.IsOneWord, String.toList_ofList]
  exact not_mem_chars_iff (by decide) value

end Snbt

/-! ## Commands -/

/-- The texts that a location is put together from. -/
@[simp] def Location.parts (location : Location) : List String :=
  location.space :: location.path

@[simp] def Holder.parts : Holder → List String
  | self => []
  | name label => [label]

@[simp] def EntityKind.parts : EntityKind → List String
  | display => []
  | among group => group.parts

@[simp] def Callee.parts : Callee → List String
  | function location => location.parts
  | group location => location.parts

@[simp] def Clause.parts : Clause → List String
  | asEvery kind tag => kind.parts ++ [tag]
  | asNearby kind tag => kind.parts ++ [tag]
  | ifTagged tag => [tag]
  | ifUntagged tag => [tag]
  | ifScore holder _ _ => holder.parts
  | ifSameScore holder _ other _ => holder.parts ++ other.parts
  | storeScore holder _ => holder.parts
  | storeData path => [path]
  | written text => [text]
  | _ => []

/-- The texts that a command is put together from, but for fixed words, numbers and the strings
of messages. -/
@[simp] def Command.parts : Command → List String
  | setScore holder _ _ => holder.parts
  | addScore holder _ _ => holder.parts
  | getScore holder _ => holder.parts
  | copyScore holder _ source => holder.parts ++ source.parts
  | addTag tag => [tag]
  | removeTag tag => [tag]
  | call callee => callee.parts
  | summon kind data => kind.parts ++ data.texts
  | mergeData data => data.texts
  | execute clauses command => clauses.flatMap Clause.parts ++ command.parts
  | written text => [text]
  | _ => []

@[simp] theorem Command.parts_run (location : Location) :
    (run location).parts = location.parts :=
  rfl

theorem Location.isOneLine_text_iff (location : Location) :
    IsOneLine location.text ↔ ∀ part ∈ location.parts, IsOneLine part := by
  have hcolon : IsOneLine ":" := by decide
  rw [text, isOneLine_append, isOneLine_append, isOneLine_intercalate (by decide), parts,
    List.forall_mem_cons, and_iff_left hcolon]

theorem Objective.isOneLine_name (objective : Objective) : IsOneLine objective.name := by
  cases objective <;> decide

theorem Holder.isOneLine_text_iff (holder : Holder) :
    IsOneLine holder.text ↔ ∀ part ∈ holder.parts, IsOneLine part := by
  cases holder <;> simp [text, parts, IsOneLine]

theorem isOneLine_scoreText_iff (holder : Holder) (objective : Objective) :
    IsOneLine (scoreText holder objective) ↔ ∀ part ∈ holder.parts, IsOneLine part := by
  have hblank : IsOneLine " " := by decide
  rw [scoreText, isOneLine_append, isOneLine_append, holder.isOneLine_text_iff,
    and_iff_left objective.isOneLine_name, and_iff_left hblank]

theorem ScoreRange.isOneLine_text (range : ScoreRange) : IsOneLine range.text := by
  have hdots : IsOneLine ".." := by decide
  cases range with
  | exactly n => exact isOneLine_toString n
  | between low high =>
      exact isOneLine_append.2
        ⟨isOneLine_append.2 ⟨isOneLine_toString low, hdots⟩, isOneLine_toString high⟩
  | atLeast low => exact isOneLine_append.2 ⟨isOneLine_toString low, hdots⟩

theorem EntityKind.isOneLine_text_iff (kind : EntityKind) :
    IsOneLine kind.text ↔ ∀ part ∈ kind.parts, IsOneLine part := by
  cases kind with
  | display => simp [text, parts, IsOneLine]
  | among group =>
      have hmark : IsOneLine "#" := by decide
      rw [text, parts, isOneLine_append, group.isOneLine_text_iff, and_iff_right hmark]

theorem Callee.isOneLine_text_iff (callee : Callee) :
    IsOneLine callee.text ↔ ∀ part ∈ callee.parts, IsOneLine part := by
  cases callee with
  | function location => exact location.isOneLine_text_iff
  | group location =>
      have hmark : IsOneLine "#" := by decide
      rw [text, parts, isOneLine_append, location.isOneLine_text_iff, and_iff_right hmark]

theorem Clause.isOneLine_text_iff (clause : Clause) :
    IsOneLine clause.text ↔ ∀ part ∈ clause.parts, IsOneLine part := by
  cases clause <;> unfold text parts <;>
    simp only [isOneLine_append, EntityKind.isOneLine_text_iff, isOneLine_scoreText_iff,
      ScoreRange.isOneLine_text] <;>
    simp [IsOneLine, or_imp, forall_and]

/-- A command is on one line exactly if all texts are that it is put together from. -/
theorem Command.isOneLine_text_iff (command : Command) :
    IsOneLine command.text ↔ ∀ part ∈ command.parts, IsOneLine part := by
  induction command with
  | execute clauses command ih =>
      have hclauses : (∀ text ∈ clauses.map Clause.text, IsOneLine text) ↔
          ∀ part ∈ clauses.flatMap Clause.parts, IsOneLine part := by
        simp only [List.forall_mem_map, List.forall_mem_flatMap, Clause.isOneLine_text_iff]
      have hfront : IsOneLine "execute " := by decide
      have hrun : IsOneLine " run " := by decide
      unfold text parts
      rw [isOneLine_append, isOneLine_append, isOneLine_append, isOneLine_intercalate (by decide),
        and_iff_right hfront, and_iff_left hrun, hclauses, ih, List.forall_mem_append]
  | kill => decide
  | written text => exact List.forall_mem_singleton.symm
  | _ =>
      unfold text parts
      simp only [isOneLine_append, isOneLine_toString, isOneLine_toString_int,
        Objective.isOneLine_name, isOneLine_scoreText_iff, EntityKind.isOneLine_text_iff,
        Callee.isOneLine_text_iff, Snbt.isOneLine_text_iff, Json.isOneLine_compact]
      simp [IsOneLine, or_imp, forall_and]

end RigPack

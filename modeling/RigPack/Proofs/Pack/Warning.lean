import RigPack.Pack.Layout
import RigPack.Proofs.Command.RoundTrip

/-!
# The warning of a function for the root

A function that is for the root tells players if another entity runs it, and its message names it.
This file reads a message as players see it, as one text, and finds the name there.  It also shows
that the message can stand in a line behind clauses: no word of it is the one that ends them.

## Main statements

* `namedFunction?_rootOnlyWarning`: the name in the message is the one that it was made for.
* `run_not_mem_words_rootOnlyWarning`: no word of the message is `run`.
-/

namespace RigPack

namespace Json

mutual

/-- What players see of a message: its pieces one after the other, without their colors. -/
def plainText : Json → String
  | .string s => s
  | .array items => plainTexts items
  | .object fields =>
    match fields.lookup "text" with
    | some (.string s) => s
    | _ => ""
  | _ => ""

/-- What players see of the pieces of a message. -/
def plainTexts : List Json → String
  | [] => ""
  | item :: items => item.plainText ++ plainTexts items

end

/-- The function that a message speaks of. -/
def namedFunction? (message : Json) : Option String :=
  match (Text.words message.plainText).dropWhile (· ≠ "function") with
  | _ :: name :: _ => some name
  | _ => none

/-- A text that needs no escapes, between two blanks. -/
theorem stringChars_between_blanks {s : String}
    (hs : s.toList.flatMap escapedChar = s.toList) :
    stringChars (" " ++ s ++ " ") = '"' :: ' ' :: (s.toList ++ [' ', '"']) := by
  have hblank : escapedChar ' ' = [' '] := by decide
  simp [stringChars, hs, hblank]

end Json

namespace Blueprint

open Json

variable {location : Location}

@[simp] theorem plainText_plain (text : String) : (plain text).plainText = text := by
  simp [plain, plainText]

@[simp] theorem plainText_colored (color text : String) :
    (colored color text).plainText = text := by
  have hcolor : ("text" == "color") = false := by decide
  simp [colored, plainText, List.lookup_cons, hcolor]

theorem plainText_rootOnlyWarning (location : Location) :
    (rootOnlyWarning location).plainText
      = "[animpack] ERROR ☠ > The function" ++ " " ++ location.text ++ " "
        ++ "must be run as the root entity!" := by
  have hfront : "[animpack] ERROR ☠ > The function"
      = "" ++ "[" ++ "animpack" ++ "] " ++ "ERROR ☠" ++ " > " ++ "The function" := by decide
  have hback : "must be run as the root entity!"
      = "must be run" ++ (" as " ++ ("the root entity!" ++ "")) := by decide
  rw [hfront, hback]
  simp only [rootOnlyWarning, plainText, plainTexts, plainText_plain, plainText_colored,
    String.append_assoc, String.append_empty]

theorem namedFunction?_rootOnlyWarning (hword : Text.IsOneWord location.text) :
    namedFunction? (rootOnlyWarning location) = some location.text := by
  have hfront : Text.words "[animpack] ERROR ☠ > The function"
      = ["[animpack]", "ERROR", "☠", ">", "The", "function"] := by decide
  rw [namedFunction?, plainText_rootOnlyWarning, Text.words_append, Text.words_append, hfront,
    Text.words_eq_singleton hword]
  rfl

theorem isMessage_plain (depth : ℕ) (text : String) : isMessage (depth + 1) (plain text) = true :=
  rfl

theorem isMessage_colored (depth : ℕ) (color text : String) :
    isMessage (depth + 1) (colored color text) = true := by
  have horder : "color" < "text" := by decide
  have hsorted : [("color", Json.string color), ("text", Json.string text)].Pairwise
      fun a b => a.1 < b.1 := List.pairwise_pair.2 horder
  rw [colored, isMessage, decide_eq_true hsorted]
  rfl

/-- A warning is a message that can be read. -/
theorem isMessage_rootOnlyWarning (location : Location) :
    isMessage maxDepth (rootOnlyWarning location) = true := by
  simp only [rootOnlyWarning, maxDepth, isMessage, areMessages, isMessage_plain,
    isMessage_colored, Bool.and_true]

/-- The words of a warning, as it is written in a command. -/
def warningWords (location : Location) : List String := [
  "[\"\",\x7b\"text\":\"[\"\x7d,\x7b\"color\":\"aqua\",\"text\":\"animpack\"\x7d,\x7b\"text\":\"]",
  "\"\x7d,\x7b\"color\":\"red\",\"text\":\"ERROR",
  "☠\"\x7d,\x7b\"color\":\"gray\",\"text\":\"",
  ">",
  "\"\x7d,[\x7b\"color\":\"yellow\",\"text\":\"The",
  "function\"\x7d,\x7b\"color\":\"blue\",\"text\":\"",
  location.text,
  "\"\x7d,\x7b\"text\":\"must",
  "be",
  "run\"\x7d,\x7b\"color\":\"red\",\"text\":\"",
  "as",
  "\"\x7d,\x7b\"text\":\"the",
  "root",
  "entity!\"\x7d]]"]

set_option maxRecDepth 4000 in
theorem compact_rootOnlyWarning (hplain : location.text.toList.flatMap escapedChar
    = location.text.toList) :
    (rootOnlyWarning location).compact = " ".intercalate (warningWords location) := by
  refine String.toList_inj.1 ?_
  rw [compact, String.toList_ofList, String.toList_intercalate]
  simp only [rootOnlyWarning, plain, colored, compactChars, compactItems, compactFields,
    stringChars_between_blanks hplain, List.append_assoc, List.cons_append, List.nil_append]
  rfl

/-- A character that is escaped stands in no name. -/
theorem not_isNameChar_of_escaped {c : Char} (h : c = '"' ∨ c = '\\' ∨ c.toNat < 0x20) :
    isNameChar c = false ∧ c ≠ '/' ∧ c ≠ ':' := by
  rcases h with rfl | rfl | hlow
  · decide
  · decide
  · obtain ⟨n, rfl⟩ : ∃ n : Fin 32, c = Char.ofNat n :=
      ⟨⟨c.toNat, hlow⟩, (Char.ofNat_toNat c).symm⟩
    exact (by decide : ∀ n : Fin 32, isNameChar (Char.ofNat n) = false ∧
      Char.ofNat n ≠ '/' ∧ Char.ofNat n ≠ ':') n

/-- The word that ends clauses is none of the words of a warning. -/
theorem run_not_mem_words_rootOnlyWarning (hlegible : location.IsLegible) :
    "run" ∉ Text.words (rootOnlyWarning location).compact := by
  have hplain : location.text.toList.flatMap escapedChar = location.text.toList := by
    refine (List.flatMap_congr fun c hc => ?_).trans (List.flatMap_singleton' _)
    refine Draft.escapedChar_plain fun hescaped => ?_
    obtain ⟨hname, hslash, hcolon⟩ := not_isNameChar_of_escaped hescaped
    exact hlegible.not_mem_text hname hslash hcolon hc
  have hone : ∀ word ∈ warningWords location, Text.IsOneWord word := by
    simp +decide [warningWords, hlegible.isOneWord_text]
  have hwords : Text.words (rootOnlyWarning location).compact = warningWords location := by
    rw [compact_rootOnlyWarning hplain]
    exact Text.cut_intercalate_of_not_mem (List.cons_ne_nil _ _) hone
  have hne : "run" ≠ location.text := by
    intro heq
    exact absurd (heq ▸ location.colon_mem_text) (by decide)
  rw [hwords]
  simp [warningWords, hne]

/-- So a warning can be told behind clauses. -/
theorem run_not_mem_words_tell_rootOnlyWarning (hlegible : location.IsLegible) :
    "run" ∉ Text.words (Command.tell (rootOnlyWarning location)).text := by
  have htell : (Command.tell (rootOnlyWarning location)).IsLegible :=
    isMessage_rootOnlyWarning location
  rw [Command.words_text htell, Command.words]
  simp [run_not_mem_words_rootOnlyWarning hlegible]

end Blueprint

end RigPack

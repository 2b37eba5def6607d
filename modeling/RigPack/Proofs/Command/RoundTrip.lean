import Mathlib.Data.List.Basic
import RigPack.Export.Basic
import RigPack.Proofs.Command.OneLine
import RigPack.Proofs.Command.Reader
import RigPack.Proofs.Json.Compact

/-!
# Commands, read back

A command is read back from its line, as long as its names do not hold the characters that mean
something in a line (`Command.read?_text`).

## Main statements

* `Command.read?_text`: a legible command is read back from its text.
* `Command.read?_execute_written`: behind a condition as written by a user, whatever it is, the
  command is read back, too.

## Strategy

The text of a clause or a command is cut into its words once (`Clause.words_text`,
`Command.words_text`).  All else is about words.
-/

namespace RigPack

/-! ## Names in lines -/

/-- Whether a text can be a word, or an option of a selector: it consists of the characters of
names, or the mark of the holders that no player can be. -/
def IsLabel (s : String) : Prop :=
  s.toList.all (fun c => isNameChar c || c = '#') = true

instance (s : String) : Decidable (IsLabel s) :=
  inferInstanceAs (Decidable (_ = true))

theorem IsLabel.not_mem {s : String} (h : IsLabel s) {c : Char}
    (hc : (isNameChar c || c = '#') = false) : c ∉ s.toList := fun hmem => by
  rw [List.all_eq_true.1 h c hmem] at hc
  contradiction

theorem IsLabel.isOneWord {s : String} (h : IsLabel s) : Text.IsOneWord s :=
  h.not_mem (by decide)

theorem IsLabel.append {s t : String} (hs : IsLabel s) (ht : IsLabel t) : IsLabel (s ++ t) := by
  rw [IsLabel, String.toList_append, List.all_append, hs, ht, Bool.and_self]

/-- Whether a location is read back from its text: it has a path, and is made of the characters
of names. -/
structure Location.IsLegible (location : Location) : Prop where
  ne_nil : location.path ≠ []
  parts : ∀ part ∈ location.parts, part.toList.all isNameChar = true

theorem Location.colon_mem_text (location : Location) : ':' ∈ location.text.toList := by
  simp [text]

namespace Location.IsLegible

variable {location : Location} (h : location.IsLegible)

include h

theorem not_mem_part {part : String} (hpart : part ∈ location.parts) {c : Char}
    (hc : isNameChar c = false) : c ∉ part.toList := fun hmem => by
  rw [List.all_eq_true.1 (h.parts part hpart) c hmem] at hc
  contradiction

theorem not_mem_path {c : Char} (hc : isNameChar c = false) (hslash : c ≠ '/') :
    c ∉ ("/".intercalate location.path).toList :=
  (Text.not_mem_intercalate_iff (by simpa using hslash)).2 fun _ hpart =>
    h.not_mem_part (List.mem_cons_of_mem _ hpart) hc

theorem not_mem_text {c : Char} (hc : isNameChar c = false) (hslash : c ≠ '/') (hcolon : c ≠ ':') :
    c ∉ location.text.toList := by
  have hspace := h.not_mem_part (List.mem_cons_self ..) hc
  have hmark : c ∉ ":".toList := by simpa using hcolon
  rw [text, String.toList_append, String.toList_append, List.mem_append, List.mem_append]
  exact not_or_intro (not_or_intro hspace hmark) (h.not_mem_path hc hslash)

theorem isOneWord_text : Text.IsOneWord location.text :=
  h.not_mem_text (by decide) (by decide) (by decide)

theorem read?_text : read? location.text = some location := by
  have hspace : Text.cut ':' location.space = [location.space] :=
    Text.cut_eq_singleton (h.not_mem_part (List.mem_cons_self ..) (by decide))
  have hpath : Text.cut ':' ("/".intercalate location.path) = ["/".intercalate location.path] :=
    Text.cut_eq_singleton (h.not_mem_path (by decide) (by decide))
  have hcut : Text.cut ':' location.text = [location.space, "/".intercalate location.path] :=
    (Text.cut_append ':' location.space ("/".intercalate location.path)).trans
      (by rw [hspace, hpath]; rfl)
  have hsegments : Text.cut '/' ("/".intercalate location.path) = location.path :=
    Text.cut_intercalate_of_not_mem h.ne_nil fun part hpart =>
      h.not_mem_part (List.mem_cons_of_mem _ hpart) (by decide)
  rw [read?, hcut]
  simp only [hsegments]

end Location.IsLegible

/-! ## Words -/

theorem Objective.read?_name (objective : Objective) : read? objective.name = some objective := by
  cases objective <;> decide

theorem Objective.isOneWord_name (objective : Objective) : Text.IsOneWord objective.name := by
  cases objective <;> decide

@[simp] def Holder.IsLegible : Holder → Prop
  | self => True
  | name label => IsLabel label

theorem Holder.read_text {holder : Holder} (h : holder.IsLegible) : read holder.text = holder := by
  cases holder with
  | self => rfl
  | name label =>
      refine if_neg fun heq => ?_
      have hmem : '@' ∈ label.toList := by
        rw [show label = "@s" from heq]
        decide
      exact IsLabel.not_mem h (by decide) hmem

theorem Holder.isOneWord_text {holder : Holder} (h : holder.IsLegible) :
    Text.IsOneWord holder.text := by
  cases holder with
  | self => decide
  | name label => exact IsLabel.isOneWord h

theorem natOfWord?_toString (n : Nat) : natOfWord? (toString n) = some n := by
  rw [natOfWord?, Text.toList_toString, Text.decimal?_toDigits]

theorem ScoreRange.ofWord?_text (range : ScoreRange) : ofWord? range.text = some range := by
  rw [ofWord?, read?_text range []]
  rfl

theorem ScoreRange.isOneWord_text (range : ScoreRange) : Text.IsOneWord range.text := by
  have hdots : Text.IsOneWord ".." := by decide
  cases range with
  | exactly n => exact Text.isOneWord_toString n
  | between low high =>
      exact Text.isOneWord_append.2 ⟨Text.isOneWord_append.2
        ⟨Text.isOneWord_toString low, hdots⟩, Text.isOneWord_toString high⟩
  | atLeast low => exact Text.isOneWord_append.2 ⟨Text.isOneWord_toString low, hdots⟩

@[simp] def EntityKind.IsLegible : EntityKind → Prop
  | display => True
  | among group => group.IsLegible

theorem EntityKind.read?_text {kind : EntityKind} (h : kind.IsLegible) :
    read? kind.text = some kind := by
  cases kind with
  | display => decide
  | among group =>
      have htext : (among group).text.toList = '#' :: group.text.toList := by simp [text]
      rw [read?, htext]
      simp only [String.ofList_toList]
      rw [Location.IsLegible.read?_text h, Option.map_some]

theorem EntityKind.not_mem_text {kind : EntityKind} (h : kind.IsLegible) {c : Char}
    (hc : isNameChar c = false) (hmarks : c ∉ ['/', ':', '#']) : c ∉ kind.text.toList := by
  simp only [List.mem_cons, List.not_mem_nil, or_false, not_or] at hmarks
  cases kind with
  | display =>
      intro hmem
      have hchars : display.text.toList.all (fun c => isNameChar c || c = ':') = true := by decide
      have hchar := List.all_eq_true.1 hchars c hmem
      rw [Bool.or_eq_true, decide_eq_true_eq] at hchar
      rcases hchar with hname | rfl
      · rw [hname] at hc
        contradiction
      · exact hmarks.2.1 rfl
  | among group =>
      simp [text, hmarks.2.2, Location.IsLegible.not_mem_text h hc hmarks.1 hmarks.2.1]

@[simp] def Callee.IsLegible : Callee → Prop
  | function location => location.IsLegible
  | group location => location.IsLegible

theorem Callee.read?_text {callee : Callee} (h : callee.IsLegible) :
    read? callee.text = some callee := by
  cases callee with
  | function location =>
      have hmark : '#' ∉ location.text.toList :=
        Location.IsLegible.not_mem_text h (by decide) (by decide) (by decide)
      rw [read?, text]
      split
      · rename_i name hname
        rw [hname] at hmark
        exact absurd (List.mem_cons_self ..) hmark
      · rw [Location.IsLegible.read?_text h, Option.map_some]
  | group location =>
      have htext : (group location).text.toList = '#' :: location.text.toList := by simp [text]
      rw [read?, htext]
      simp only [String.ofList_toList]
      rw [Location.IsLegible.read?_text h, Option.map_some]

theorem Callee.isOneWord_text {callee : Callee} (h : callee.IsLegible) :
    Text.IsOneWord callee.text := by
  cases callee with
  | function location => exact Location.IsLegible.isOneWord_text h
  | group location =>
      exact Text.isOneWord_append.2 ⟨by decide, Location.IsLegible.isOneWord_text h⟩

theorem between?_append (front inner back : String) :
    between? front back (front ++ inner ++ back) = some inner := by
  have hsuffix : (inner.toList ++ back.toList).dropSuffix? back.toList = some inner.toList :=
    List.dropSuffix?_eq_some_iff.2 ⟨_, rfl, BEq.refl _⟩
  rw [between?, String.toList_append, String.toList_append, List.append_assoc,
    List.dropPrefix?_append_of_beq _ (BEq.refl _), Option.bind_eq_bind, Option.bind_some, hsuffix]
  simp

theorem words_scoreText {holder : Holder} (h : holder.IsLegible) (objective : Objective) :
    Text.words (scoreText holder objective) = [holder.text, objective.name] := by
  rw [scoreText, Text.words_append, Text.words_eq_singleton (Holder.isOneWord_text h),
    Text.words_eq_singleton objective.isOneWord_name, List.singleton_append]

/-! ## Clauses -/

namespace Clause

/-- Whether a clause is one of the forms that are read back, with names that can be read. -/
@[simp] def IsLegible : Clause → Prop
  | asEvery kind tag => kind.IsLegible ∧ IsLabel tag
  | asNearby kind tag => kind.IsLegible ∧ IsLabel tag
  | atSelf => True
  | onPassengers => True
  | ifTagged tag => IsLabel tag
  | ifUntagged tag => IsLabel tag
  | ifScore holder _ _ => holder.IsLegible
  | ifSameScore holder _ other _ => holder.IsLegible ∧ other.IsLegible
  | storeScore holder _ => holder.IsLegible
  | storeData path => IsLabel path
  | written _ => False

/-- The words of a clause. -/
def words : Clause → List String
  | asEvery kind tag => ["as", "@e[type=" ++ (kind.text ++ "," ++ ("tag=" ++ tag)) ++ "]"]
  | asNearby kind tag =>
    ["as", "@e[type=" ++ (kind.text ++ "," ++ ("limit=1,distance=..1,tag=" ++ tag)) ++ "]"]
  | atSelf => ["at", "@s"]
  | onPassengers => ["on", "passengers"]
  | ifTagged tag => ["if", "entity", "@s[tag=" ++ tag ++ "]"]
  | ifUntagged tag => ["if", "entity", "@s[tag=" ++ ("!" ++ tag) ++ "]"]
  | ifScore holder objective range =>
    ["if", "score", holder.text, objective.name, "matches", range.text]
  | ifSameScore holder objective other against =>
    ["if", "score", holder.text, objective.name, "=", other.text, against.name]
  | storeScore holder objective => ["store", "result", "score", holder.text, objective.name]
  | storeData path => ["store", "result", "entity", "@s", path, "int", "1"]
  | written text => Text.words text

theorem isOneWord_search {kind : EntityKind} {options tag : String} (hkind : kind.IsLegible)
    (hoptions : Text.IsOneWord options) (htag : IsLabel tag) :
    Text.IsOneWord ("@e[type=" ++ (kind.text ++ "," ++ (options ++ tag)) ++ "]") := by
  have hkind_word : Text.IsOneWord kind.text :=
    EntityKind.not_mem_text hkind (by decide) (by decide)
  simp only [Text.isOneWord_append, hkind_word, hoptions, htag.isOneWord]
  decide

theorem isOneWord_tagTest {tag : String} (htag : Text.IsOneWord tag) :
    Text.IsOneWord ("@s[tag=" ++ tag ++ "]") := by
  simp only [Text.isOneWord_append, htag]
  decide

theorem words_text {clause : Clause} (h : clause.IsLegible) :
    Text.words clause.text = clause.words := by
  cases clause with
  | asEvery kind tag =>
      have hcomma : ",tag=" = "," ++ "tag=" := rfl
      have htext : (asEvery kind tag).text
          = "as " ++ ("@e[type=" ++ (kind.text ++ "," ++ ("tag=" ++ tag)) ++ "]") := by
        unfold text
        rw [hcomma]
        simp only [← String.append_assoc]
        rfl
      rw [htext, Text.words_lead "as",
        Text.words_eq_singleton (isOneWord_search h.1 (by decide) h.2)]
      all_goals rfl
  | asNearby kind tag =>
      have hcomma : ",limit=1,distance=..1,tag=" = "," ++ "limit=1,distance=..1,tag=" := rfl
      have htext : (asNearby kind tag).text = "as " ++ ("@e[type=" ++ (kind.text ++ ","
          ++ ("limit=1,distance=..1,tag=" ++ tag)) ++ "]") := by
        unfold text
        rw [hcomma]
        simp only [← String.append_assoc]
        rfl
      rw [htext, Text.words_lead "as",
        Text.words_eq_singleton (isOneWord_search h.1 (by decide) h.2)]
      all_goals rfl
  | atSelf => decide
  | onPassengers => decide
  | ifTagged tag =>
      have htext : (ifTagged tag).text = "if entity " ++ ("@s[tag=" ++ tag ++ "]") := by
        unfold text
        simp only [← String.append_assoc]
        rfl
      rw [htext, Text.words_lead "if entity",
        Text.words_eq_singleton (isOneWord_tagTest (IsLabel.isOneWord h))]
      all_goals rfl
  | ifUntagged tag =>
      have hmark : "if entity @s[tag=!" = "if entity @s[tag=" ++ "!" := rfl
      have htext : (ifUntagged tag).text = "if entity " ++ ("@s[tag=" ++ ("!" ++ tag) ++ "]") := by
        unfold text
        rw [hmark]
        simp only [← String.append_assoc]
        rfl
      have hword : Text.IsOneWord ("!" ++ tag) :=
        Text.isOneWord_append.2 ⟨by decide, IsLabel.isOneWord h⟩
      rw [htext, Text.words_lead "if entity", Text.words_eq_singleton (isOneWord_tagTest hword)]
      all_goals rfl
  | ifScore holder objective range =>
      unfold text
      rw [Text.words_between "matches", Text.words_lead "if score",
        words_scoreText h, Text.words_eq_singleton range.isOneWord_text]
      all_goals rfl
  | ifSameScore holder objective other against =>
      unfold text
      rw [Text.words_between "=", Text.words_lead "if score",
        words_scoreText h.1, words_scoreText h.2]
      all_goals rfl
  | storeScore holder objective =>
      unfold text
      rw [Text.words_lead "store result score", words_scoreText h]
      all_goals rfl
  | storeData path =>
      unfold text
      rw [Text.words_trail "int 1", Text.words_lead "store result entity @s",
        Text.words_eq_singleton (IsLabel.isOneWord h)]
      all_goals rfl
  | written text => rfl

/-! ### Reading clauses -/

section Search

variable {kind : EntityKind} {tag : String} (hkind : kind.IsLegible) (htag : IsLabel tag)

theorem between?_tag (tag : String) : between? "tag=" "" ("tag=" ++ tag) = some tag := by
  have hread := between?_append "tag=" tag ""
  rwa [String.append_empty] at hread

include hkind

theorem cut_kind_append (options : String) :
    Text.cut ',' (kind.text ++ "," ++ options) = kind.text :: Text.cut ',' options := by
  have hkind_one : Text.cut ',' kind.text = [kind.text] :=
    Text.cut_eq_singleton (EntityKind.not_mem_text hkind (by decide) (by decide))
  exact (Text.cut_append ',' kind.text options).trans (by rw [hkind_one, List.singleton_append])

include htag

theorem readSearch?_every :
    readSearch? ("@e[type=" ++ (kind.text ++ "," ++ ("tag=" ++ tag)) ++ "]")
      = some (.asEvery kind tag) := by
  have hcomma : ',' ∉ ("tag=" ++ tag).toList := by
    rw [String.toList_append, List.mem_append]
    exact not_or_intro (by decide) (htag.not_mem (by decide))
  rw [readSearch?, between?_append, Option.bind_eq_bind, Option.bind_some, cut_kind_append hkind,
    Text.cut_eq_singleton hcomma]
  simp only
  rw [EntityKind.read?_text hkind, between?_tag]
  rfl

theorem readSearch?_nearby :
    readSearch? ("@e[type=" ++ (kind.text ++ "," ++ ("limit=1,distance=..1,tag=" ++ tag)) ++ "]")
      = some (.asNearby kind tag) := by
  have hcomma : ',' ∉ ("tag=" ++ tag).toList := by
    rw [String.toList_append, List.mem_append]
    exact not_or_intro (by decide) (htag.not_mem (by decide))
  have hcut : Text.cut ',' ("limit=1,distance=..1,tag=" ++ tag)
      = ["limit=1", "distance=..1", "tag=" ++ tag] := by
    have htext : "limit=1,distance=..1,tag=" ++ tag
        = "limit=1,distance=..1" ++ "," ++ ("tag=" ++ tag) := by
      rw [← String.append_assoc]
      rfl
    rw [htext]
    exact (Text.cut_append ',' _ _).trans (by rw [Text.cut_eq_singleton hcomma]; rfl)
  rw [readSearch?, between?_append, Option.bind_eq_bind, Option.bind_some, cut_kind_append hkind,
    hcut]
  simp only
  rw [EntityKind.read?_text hkind, between?_tag]
  rfl

end Search

theorem readTagTest?_tagged {tag : String} (htag : IsLabel tag) :
    readTagTest? ("@s[tag=" ++ tag ++ "]") = some (.ifTagged tag) := by
  rw [readTagTest?, between?_append, Option.bind_eq_bind, Option.bind_some]
  split
  · rename_i lacking heq
    have hmark := htag.not_mem (by decide : (isNameChar '!' || '!' = '#') = false)
    rw [heq] at hmark
    exact absurd (List.mem_cons_self ..) hmark
  · rfl

theorem readTagTest?_untagged (tag : String) :
    readTagTest? ("@s[tag=" ++ ("!" ++ tag) ++ "]") = some (.ifUntagged tag) := by
  have hmark : ("!" ++ tag).toList = '!' :: tag.toList := by simp
  rw [readTagTest?, between?_append, Option.bind_eq_bind, Option.bind_some, hmark]
  simp

/-- A clause at the front of a list of words is read. -/
theorem readAll?_words_append {clause : Clause} (h : clause.IsLegible) (rest : List String) :
    readAll? (clause.words ++ rest) = (readAll? rest).map (clause :: ·) := by
  cases clause with
  | asEvery kind tag =>
      simp only [words, List.cons_append, List.nil_append, readAll?, readSearch?_every h.1 h.2]
      cases readAll? rest <;> rfl
  | asNearby kind tag =>
      simp only [words, List.cons_append, List.nil_append, readAll?, readSearch?_nearby h.1 h.2]
      cases readAll? rest <;> rfl
  | atSelf =>
      simp only [words, List.cons_append, List.nil_append, readAll?]
      cases readAll? rest <;> rfl
  | onPassengers =>
      simp only [words, List.cons_append, List.nil_append, readAll?]
      cases readAll? rest <;> rfl
  | ifTagged tag =>
      simp only [words, List.cons_append, List.nil_append, readAll?, readTagTest?_tagged h]
      cases readAll? rest <;> rfl
  | ifUntagged tag =>
      simp only [words, List.cons_append, List.nil_append, readAll?, readTagTest?_untagged]
      cases readAll? rest <;> rfl
  | ifScore holder objective range =>
      simp only [words, List.cons_append, List.nil_append, readAll?, Holder.read_text h,
        Objective.read?_name, ScoreRange.ofWord?_text]
      cases readAll? rest <;> rfl
  | ifSameScore holder objective other against =>
      simp only [words, List.cons_append, List.nil_append, readAll?, Holder.read_text h.1,
        Holder.read_text h.2, Objective.read?_name]
      cases readAll? rest <;> rfl
  | storeScore holder objective =>
      simp only [words, List.cons_append, List.nil_append, readAll?, Holder.read_text h,
        Objective.read?_name]
      cases readAll? rest <;> rfl
  | storeData path =>
      simp only [words, List.cons_append, List.nil_append, readAll?]
      cases readAll? rest <;> rfl
  | written text => exact absurd h id

/-- Clauses are read back from their words. -/
theorem readAll_words {clauses : List Clause} (h : ∀ clause ∈ clauses, clause.IsLegible) :
    readAll (clauses.flatMap words) = clauses := by
  have hread : readAll? (clauses.flatMap words) = some clauses := by
    induction clauses with
    | nil => rfl
    | cons clause clauses ih =>
        rw [List.flatMap_cons, readAll?_words_append (h clause (List.mem_cons_self ..)),
          ih fun other hother => h other (.tail _ hother), Option.map_some]
  rw [readAll, hread, Option.getD_some]

/-- The clauses that a clause is read as; one as written by a user may spell others. -/
def asRead : Clause → List Clause
  | written text => readAll (Text.words text)
  | clause => [clause]

theorem asRead_of_isLegible {clause : Clause} (h : clause.IsLegible) :
    clause.asRead = [clause] := by
  cases clause with
  | written text => exact absurd h id
  | _ => rfl

theorem flatMap_asRead {clauses : List Clause} (h : ∀ clause ∈ clauses, clause.IsLegible) :
    clauses.flatMap asRead = clauses :=
  (List.flatMap_congr fun clause hclause => asRead_of_isLegible (h clause hclause)).trans
    (List.flatMap_singleton' clauses)

end Clause

/-! ## Commands -/

namespace Command

/-- Whether a command is one of the forms that are read back, with names that can be read.  Behind
clauses no word `run` may stand in the text of the command. -/
@[simp] def IsLegible : Command → Prop
  | addObjective _ => True
  | setScore holder _ _ => holder.IsLegible
  | addScore holder _ _ => holder.IsLegible
  | getScore holder _ => holder.IsLegible
  | copyScore holder _ source => holder.IsLegible ∧ source.IsLegible
  | addTag tag => IsLabel tag
  | removeTag tag => IsLabel tag
  | call callee => callee.IsLegible
  | summon kind _ => kind.IsLegible
  | kill => True
  | tell message => message.isMessage Json.maxDepth = true
  | mergeData _ => True
  | setModel _ => True
  | execute clauses command =>
    clauses ≠ [] ∧ (∀ clause ∈ clauses, clause.IsLegible) ∧ command.IsLegible ∧
      "run" ∉ Text.words command.text
  | written _ => False

/-- The command that the line of a command is read as. -/
def asRead : Command → Command
  | summon kind data => summon kind data.asRead
  | mergeData data => mergeData data.asRead
  | execute clauses command => execute (clauses.flatMap Clause.asRead) command.asRead
  | command => command

/-- The words of a command. -/
def words : Command → List String
  | addObjective objective => ["scoreboard", "objectives", "add", objective.name, "dummy"]
  | setScore holder objective value =>
    ["scoreboard", "players", "set", holder.text, objective.name, toString value]
  | addScore holder objective value =>
    ["scoreboard", "players", "add", holder.text, objective.name, toString value]
  | getScore holder objective => ["scoreboard", "players", "get", holder.text, objective.name]
  | copyScore holder objective source =>
    ["scoreboard", "players", "operation", holder.text, objective.name, "=", source.text,
      objective.name]
  | addTag tag => ["tag", "@s", "add", tag]
  | removeTag tag => ["tag", "@s", "remove", tag]
  | call callee => ["function", callee.text]
  | summon kind data => "summon" :: kind.text :: "~" :: "~" :: "~" :: Text.words data.text
  | kill => ["kill", "@s"]
  | tell message => "tellraw" :: "@a" :: Text.words message.compact
  | mergeData data =>
    "data" :: "modify" :: "entity" :: "@s" :: "\x7b\x7d" :: "merge" :: "value"
      :: Text.words data.text
  | setModel model =>
    ["data", "modify", "entity", "@s", "item.tag.CustomModelData", "set", "value",
      toString model.toInt]
  | execute clauses command =>
    "execute" :: clauses.flatMap Clause.words ++ "run" :: Text.words command.text
  | written text => Text.words text

theorem words_text {command : Command} (h : command.IsLegible) :
    Text.words command.text = command.words := by
  cases command with
  | addObjective objective =>
      unfold text
      rw [Text.words_trail "dummy", Text.words_lead "scoreboard objectives add",
        Text.words_eq_singleton objective.isOneWord_name]
      all_goals rfl
  | setScore holder objective value =>
      unfold text
      rw [Text.words_append, Text.words_lead "scoreboard players set", words_scoreText h,
        Text.words_eq_singleton (Text.isOneWord_toString value)]
      all_goals rfl
  | addScore holder objective value =>
      unfold text
      rw [Text.words_append, Text.words_lead "scoreboard players add", words_scoreText h,
        Text.words_eq_singleton (Text.isOneWord_toString value)]
      all_goals rfl
  | getScore holder objective =>
      unfold text
      rw [Text.words_lead "scoreboard players get", words_scoreText h]
      all_goals rfl
  | copyScore holder objective source =>
      unfold text
      rw [Text.words_between "=", Text.words_lead "scoreboard players operation",
        words_scoreText h.1, words_scoreText h.2]
      all_goals rfl
  | addTag tag =>
      unfold text
      rw [Text.words_lead "tag @s add", Text.words_eq_singleton (IsLabel.isOneWord h)]
      all_goals rfl
  | removeTag tag =>
      unfold text
      rw [Text.words_lead "tag @s remove", Text.words_eq_singleton (IsLabel.isOneWord h)]
      all_goals rfl
  | call callee =>
      unfold text
      rw [Text.words_lead "function", Text.words_eq_singleton (Callee.isOneWord_text h)]
      all_goals rfl
  | summon kind data =>
      have hkind : Text.IsOneWord kind.text := EntityKind.not_mem_text h (by decide) (by decide)
      unfold text
      rw [Text.words_between "~ ~ ~", Text.words_lead "summon", Text.words_eq_singleton hkind]
      all_goals rfl
  | kill => decide
  | tell message =>
      unfold text
      rw [Text.words_lead "tellraw @a"]
      all_goals rfl
  | mergeData data =>
      unfold text
      rw [Text.words_lead "data modify entity @s \x7b\x7d merge value"]
      · rfl
      · decide
  | setModel model =>
      unfold text
      rw [Text.words_lead "data modify entity @s item.tag.CustomModelData set value",
        Text.words_eq_singleton (Text.isOneWord_toString_int model.toInt)]
      · rfl
      · decide
  | execute clauses command =>
      obtain ⟨hne, hclauses, -⟩ := h
      have hwords : (clauses.map Clause.text).flatMap Text.words
          = clauses.flatMap Clause.words := by
        rw [List.flatMap_map]
        exact List.flatMap_congr fun clause hclause => Clause.words_text (hclauses clause hclause)
      unfold text
      rw [Text.words_between "run", Text.words_lead "execute",
        Text.words_intercalate (by simpa using hne), hwords]
      all_goals rfl
  | written text => rfl

/-- The words of a command without clauses are read as that command. -/
theorem readPlain?_words {command : Command} (h : command.IsLegible)
    (hplain : ∀ clauses inner, command ≠ execute clauses inner) :
    readPlain? command.words = some command.asRead := by
  cases command with
  | addObjective objective =>
      simp only [words, readPlain?, Objective.read?_name]
      rfl
  | setScore holder objective value =>
      simp only [words, readPlain?, Holder.read_text h, Objective.read?_name,
        natOfWord?_toString]
      rfl
  | addScore holder objective value =>
      simp only [words, readPlain?, Holder.read_text h, Objective.read?_name,
        natOfWord?_toString]
      rfl
  | getScore holder objective =>
      simp only [words, readPlain?, Holder.read_text h, Objective.read?_name]
      rfl
  | copyScore holder objective source =>
      simp only [words, readPlain?, Holder.read_text h.1, Holder.read_text h.2,
        Objective.read?_name]
      rfl
  | addTag tag => rfl
  | removeTag tag => rfl
  | call callee =>
      simp only [words, readPlain?, Callee.read?_text h]
      rfl
  | summon kind data =>
      simp only [words, readPlain?, EntityKind.read?_text h, Text.intercalate_words,
        Snbt.read?_text]
      rfl
  | kill => rfl
  | tell message =>
      simp only [words, readPlain?, Text.intercalate_words, Json.parse_compact h]
      rfl
  | mergeData data =>
      simp only [words, readPlain?, Text.intercalate_words, Snbt.read?_text]
      rfl
  | setModel model =>
      simp only [words, readPlain?, Text.signedDecimal?_toString]
      rw [Option.bind_eq_bind, Option.bind_some, Int32.ofInt_toInt]
      rfl
  | execute clauses command => exact absurd rfl (hplain clauses command)
  | written text => exact absurd h id

theorem readWords?_eq_readPlain? {line : List String} (h : line.head? ≠ some "execute") :
    readWords? line = readPlain? line := by
  unfold readWords?
  split
  · exact absurd rfl h
  · rfl

/-- What stands behind clauses is read, whatever they are. -/
theorem readWords?_execute (front : List String) {command : Command} (h : command.IsLegible)
    (hrun : "run" ∉ Text.words command.text) :
    readWords? ("execute" :: front ++ "run" :: Text.words command.text)
      = some (execute (Clause.readAll front) command.asRead) := by
  have hplain : ∀ clauses inner, command ≠ execute clauses inner := by
    rintro clauses inner rfl
    rw [words_text h, words] at hrun
    exact hrun (by simp)
  have hread := readPlain?_words h hplain
  rw [← words_text h] at hread
  rw [List.cons_append, readWords?, Text.splitAtLast_append hrun, Option.bind_eq_bind,
    Option.bind_some]
  simp only [hread]
  rfl

/-- A command is read back from its text. -/
theorem read?_text {command : Command} (h : command.IsLegible) :
    read? command.text = some command.asRead := by
  rw [read?]
  cases command with
  | execute clauses command =>
      rw [words_text h, words, readWords?_execute _ h.2.2.1 h.2.2.2, Clause.readAll_words h.2.1,
        asRead, Clause.flatMap_asRead h.2.1]
  | written text => exact absurd h id
  | _ =>
      rw [words_text h, readWords?_eq_readPlain? (by simp [words]), readPlain?_words h nofun]

/-- Behind a condition as written by a user, whatever it is, the command is read back. -/
theorem read?_execute_written (condition : String) {command : Command} (h : command.IsLegible)
    (hrun : "run" ∉ Text.words command.text) :
    read? (execute [.written condition] command).text
      = some (execute [.written condition] command).asRead := by
  have hwords : Text.words (execute [.written condition] command).text
      = "execute" :: Text.words condition ++ "run" :: Text.words command.text := by
    have htext : (execute [.written condition] command).text
        = "execute " ++ " ".intercalate [condition] ++ " run " ++ command.text := rfl
    rw [htext, String.intercalate_singleton, Text.words_between "run", Text.words_lead "execute"]
    all_goals rfl
  rw [read?, hwords, readWords?_execute _ h hrun, asRead, List.flatMap_singleton, Clause.asRead]

end Command

end RigPack

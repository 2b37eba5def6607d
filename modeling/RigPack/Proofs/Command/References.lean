import RigPack.Proofs.Command.RoundTrip

/-!
# What commands refer to

Functions call each other by name, and a name that leads nowhere is not reported by the game.
This file lists what a command refers to: the functions it calls, the lists of entity types it
searches, and the messages, which name functions, too.  A line refers to what the command refers
to as which it is read.

## Main statements

* `Command.callees_asRead`, `Command.groups_asRead`, `Command.messages_asRead`: a line is read as a
  command that refers to the same.
* `Clause.isInfix_of_mem_groups_readAll`, `Clause.eq_of_mem_unknown_readAll`: a list that is
  searched in a condition of a user is one that the user spelled there, and a condition of a form
  that is not known here is left as it stands.
* `Command.isLegible_execute_call`: a call can stand behind any clauses that can be read.
-/

namespace RigPack

/-! ## References -/

/-- The lists of entity types that a type of entities is taken from. -/
def EntityKind.groups : EntityKind → List Location
  | display => []
  | among group => [group]

/-- The lists of entity types that a clause searches. -/
def Clause.groups : Clause → List Location
  | asEvery kind _ => kind.groups
  | asNearby kind _ => kind.groups
  | _ => []

/-- The text of a clause of another form than those known here. -/
def Clause.unknown : Clause → List String
  | written text => [text]
  | _ => []

theorem Clause.unknown_of_isLegible {clause : Clause} (h : clause.IsLegible) :
    clause.unknown = [] := by
  cases clause with
  | written text => exact absurd h id
  | _ => rfl

namespace Command

/-- What a command calls, behind whatever clauses. -/
def callees : Command → List Callee
  | call callee => [callee]
  | execute _ command => command.callees
  | _ => []

/-- The lists of entity types that a command searches or summons from. -/
def groups : Command → List Location
  | summon kind _ => kind.groups
  | execute clauses command => clauses.flatMap Clause.groups ++ command.groups
  | _ => []

/-- The texts in front of a command that are clauses of another form than those known here. -/
def unknown : Command → List String
  | execute clauses command => clauses.flatMap Clause.unknown ++ command.unknown
  | _ => []

/-- The messages that a command tells to players. -/
def messages : Command → List Json
  | tell message => [message]
  | execute _ command => command.messages
  | _ => []

/-! ### References of what is read -/

theorem callees_asRead (command : Command) : command.asRead.callees = command.callees := by
  induction command with
  | execute clauses command ih => exact ih
  | _ => rfl

theorem messages_asRead (command : Command) : command.asRead.messages = command.messages := by
  induction command with
  | execute clauses command ih => exact ih
  | _ => rfl

theorem groups_asRead {command : Command} (h : command.IsLegible) :
    command.asRead.groups = command.groups := by
  induction command with
  | execute clauses command ih =>
      rw [asRead, groups, groups, Clause.flatMap_asRead h.2.1, ih h.2.2.1]
  | _ => rfl

/-- A command that can be read has no clauses of another form. -/
theorem unknown_asRead {command : Command} (h : command.IsLegible) :
    command.asRead.unknown = [] := by
  induction command with
  | execute clauses command ih =>
      obtain ⟨-, hclauses, hcommand, -⟩ := h
      rw [asRead, unknown, Clause.flatMap_asRead hclauses, ih hcommand, List.append_nil,
        List.flatMap_eq_nil_iff]
      exact fun clause hclause => Clause.unknown_of_isLegible (hclauses clause hclause)
  | _ => rfl

end Command

/-! ## Calls behind clauses -/

/-- What is called is not the word that ends clauses. -/
theorem Callee.text_ne_run (callee : Callee) : callee.text ≠ "run" := by
  have hcolon : ':' ∈ callee.text.toList := by
    cases callee with
    | function location => exact location.colon_mem_text
    | group location => simp [text, location.colon_mem_text]
  intro heq
  rw [heq] at hcolon
  exact absurd hcolon (by decide)

namespace Command

theorem run_not_mem_words_call {callee : Callee} (h : callee.IsLegible) :
    "run" ∉ Text.words (call callee).text := by
  have hlegible : (call callee).IsLegible := h
  rw [words_text hlegible, words]
  simp [callee.text_ne_run.symm]

theorem run_not_mem_words_setModel (model : Int32) :
    "run" ∉ Text.words (setModel model).text := by
  have hnumber : "run" ≠ toString model.toInt := by
    intro heq
    have hmem : 'r' ∈ (toString model.toInt).toList := by
      rw [← heq]
      decide
    rcases Text.isDigit_or_eq_minus_of_mem_toString hmem with hdigit | hminus
    · exact absurd hdigit (by decide)
    · exact absurd hminus (by decide)
  have hlegible : (setModel model).IsLegible := trivial
  rw [words_text hlegible, words]
  simp only [List.mem_cons, hnumber]
  decide

theorem run_not_mem_words_mergeData {entries : List (String × Snbt)}
    (hwords : ∀ s ∈ (Snbt.compound entries).texts, Text.IsOneWord s) :
    "run" ∉ Text.words (mergeData (.compound entries)).text := by
  have hword := Text.words_eq_singleton ((Snbt.compound entries).isOneWord_text_iff.2 hwords)
  have hne : "run" ≠ (Snbt.compound entries).text := by
    intro heq
    have hchars : (Snbt.compound entries).chars = ['r', 'u', 'n'] := by
      rw [← String.toList_ofList (l := (Snbt.compound entries).chars), ← Snbt.text, ← heq]
      decide
    cases entries <;> simp [Snbt.chars] at hchars
  have hlegible : (mergeData (.compound entries)).IsLegible := trivial
  rw [words_text hlegible, words, hword]
  simp [hne]

/-- A call can be read behind all clauses that can be read. -/
theorem isLegible_execute_call {clauses : List Clause} {callee : Callee} (hne : clauses ≠ [])
    (hclauses : ∀ clause ∈ clauses, clause.IsLegible) (h : callee.IsLegible) :
    (execute clauses (call callee)).IsLegible :=
  ⟨hne, hclauses, h, run_not_mem_words_call h⟩

end Command

/-! ## What a condition spells -/

section Spelled

theorem isInfix_intercalate {separator part : String} {parts : List String} (h : part ∈ parts) :
    part.toList <:+: (separator.intercalate parts).toList := by
  induction parts with
  | nil => exact absurd h List.not_mem_nil
  | cons first rest ih =>
      cases rest with
      | nil =>
          obtain rfl := List.mem_singleton.1 h
          simp only [String.intercalate_singleton, List.infix_rfl]
      | cons next rest =>
          rw [String.intercalate_cons_cons, String.toList_append, String.toList_append]
          rcases List.mem_cons.1 h with rfl | h
          · exact (List.infix_append' [] _ _).trans (List.infix_append' [] _ _)
          · exact (ih h).trans (List.suffix_append _ _).isInfix

theorem eq_append_of_between? {front back word inner : String}
    (h : between? front back word = some inner) : word = front ++ inner ++ back := by
  simp only [between?, Option.bind_eq_bind, Option.bind_eq_some_iff] at h
  obtain ⟨rest, hfront, cs, hback, hinner⟩ := h
  obtain ⟨front', hword, hfront⟩ := List.dropPrefix?_eq_some_iff.1 hfront
  obtain ⟨back', hrest, hback⟩ := List.dropSuffix?_eq_some_iff.1 hback
  obtain rfl := Option.some.inj hinner
  refine String.toList_inj.1 ?_
  rw [hword, hrest, eq_of_beq hfront, eq_of_beq hback]
  simp

/-- What is read as a name is spelled as that name. -/
theorem Location.text_of_read? {name : String} {location : Location}
    (h : read? name = some location) : location.text = name := by
  unfold read? at h
  split at h
  · rename_i space path hcut
    obtain rfl := Option.some.inj h
    have hpath := Text.intercalate_cut '/' path
    have hname := Text.intercalate_cut ':' name
    rw [hcut, String.intercalate_cons_cons, String.intercalate_singleton] at hname
    rw [← hname]
    exact congrArg (space ++ ":" ++ ·) hpath
  · contradiction

theorem EntityKind.eq_of_read?_among {word : String} {group : Location}
    (h : read? word = some (.among group)) : word = "#" ++ group.text := by
  unfold read? at h
  split at h
  · rename_i name hname
    obtain ⟨location, hlocation, hgroup⟩ := Option.map_eq_some_iff.1 h
    obtain rfl := EntityKind.among.inj hgroup
    refine String.toList_inj.1 ?_
    rw [Location.text_of_read? hlocation, hname]
    simp
  · split at h <;> simp at h

namespace Clause

/-- What a selector is read as: the first of its options is the type of what is searched for. -/
theorem exists_of_readSearch? {word : String} {clause : Clause}
    (h : readSearch? word = some clause) :
    ∃ type rest kind tag, word = "@e[type=" ++ type ++ rest ∧ EntityKind.read? type = some kind ∧
      (clause = .asEvery kind tag ∨ clause = .asNearby kind tag) := by
  simp only [readSearch?, Option.bind_eq_bind, Option.bind_eq_some_iff] at h
  obtain ⟨options, hoptions, h⟩ := h
  have hfirst {type : String} {others : List String}
      (hcut : Text.cut ',' options = type :: others) :
      ∃ rest, word = "@e[type=" ++ type ++ rest := by
    obtain ⟨tail, htail⟩ : ∃ tail, options = type ++ tail := by
      rw [← Text.intercalate_cut ',' options, hcut]
      cases others with
      | nil => exact ⟨"", by simp⟩
      | cons next others =>
          exact ⟨_, by rw [String.intercalate_cons_cons, String.append_assoc]⟩
    refine ⟨tail ++ "]", ?_⟩
    rw [eq_append_of_between? hoptions, htail]
    simp only [String.append_assoc]
  split at h
  · rename_i hcut
    simp only [Option.bind_eq_some_iff] at h
    obtain ⟨kind, hkind, tag, -, hclause⟩ := h
    obtain ⟨rest, hrest⟩ := hfirst hcut
    exact ⟨_, rest, kind, tag, hrest, hkind, .inl (Option.some.inj hclause).symm⟩
  · rename_i hcut
    simp only [Option.bind_eq_some_iff] at h
    obtain ⟨kind, hkind, tag, -, hclause⟩ := h
    obtain ⟨rest, hrest⟩ := hfirst hcut
    exact ⟨_, rest, kind, tag, hrest, hkind, .inr (Option.some.inj hclause).symm⟩
  · contradiction

/-- A selector that is read as a search among a list spells the list as its type. -/
theorem isInfix_of_mem_groups_readSearch? {word : String} {clause : Clause}
    (h : readSearch? word = some clause) {group : Location} (hgroup : group ∈ clause.groups) :
    ("type=#" ++ group.text).toList <:+: word.toList := by
  obtain ⟨type, rest, kind, tag, rfl, hkind, hclause⟩ := exists_of_readSearch? h
  have hmem : group ∈ kind.groups := by
    rcases hclause with rfl | rfl
    · exact hgroup
    · exact hgroup
  obtain rfl : kind = .among group := by
    cases kind with
    | display => exact absurd hmem List.not_mem_nil
    | among other => rw [List.mem_singleton.1 hmem]
  have hfront : "@e[type=" ++ "#" = "@e[" ++ "type=#" := by decide
  have hword : "@e[type=" ++ type ++ rest = "@e[" ++ ("type=#" ++ group.text) ++ rest := by
    rw [EntityKind.eq_of_read?_among hkind]
    simp only [← String.append_assoc, hfront]
  exact ⟨"@e[".toList, rest.toList, by rw [hword]; simp⟩

/-- Whether a clause is one of the forms known here and searches nothing. -/
def IsLocal (clause : Clause) : Prop :=
  clause.groups = [] ∧ clause.unknown = []

theorem unknown_of_readSearch? {word : String} {clause : Clause}
    (h : readSearch? word = some clause) : clause.unknown = [] := by
  obtain ⟨-, -, kind, tag, -, -, rfl | rfl⟩ := exists_of_readSearch? h
  · rfl
  · rfl

theorem isLocal_of_readTagTest? {word : String} {clause : Clause}
    (h : readTagTest? word = some clause) : clause.IsLocal := by
  simp only [readTagTest?, Option.bind_eq_bind, Option.bind_eq_some_iff] at h
  obtain ⟨tag, -, h⟩ := h
  split at h
  · obtain rfl := Option.some.inj h
    exact ⟨rfl, rfl⟩
  · obtain rfl := Option.some.inj h
    exact ⟨rfl, rfl⟩

/-- Whether a clause is a search that one of some words spells, or searches nothing. -/
def ComesFrom (words : List String) (clause : Clause) : Prop :=
  (∃ word ∈ words, readSearch? word = some clause) ∨ clause.IsLocal

/-- A clause comes from the words of the first clause, or from those behind them. -/
theorem comesFrom_of_mem_cons (front : List String) {rest : List String} {first clause : Clause}
    {clauses : List Clause} (hfirst : first.ComesFrom front)
    (hrest : clause ∈ clauses → clause.ComesFrom rest) (hmem : clause ∈ first :: clauses) :
    clause.ComesFrom (front ++ rest) := by
  rcases List.mem_cons.1 hmem with rfl | hmem
  · rcases hfirst with ⟨word, hword, hread⟩ | hlocal
    · exact .inl ⟨word, List.mem_append_left _ hword, hread⟩
    · exact .inr hlocal
  · rcases hrest hmem with ⟨word, hword, hread⟩ | hlocal
    · exact .inl ⟨word, List.mem_append_right _ hword, hread⟩
    · exact .inr hlocal

/-- A clause that is read comes from the words. -/
theorem comesFrom_of_mem {words : List String} {clauses : List Clause}
    (h : readAll? words = some clauses) {clause : Clause} (hclause : clause ∈ clauses) :
    clause.ComesFrom words := by
  fun_induction readAll? words generalizing clauses with
  | case1 =>
      obtain rfl := Option.some.inj h
      exact absurd hclause List.not_mem_nil
  | case2 selector words ih =>
      simp only [Option.bind_eq_bind, Option.bind_eq_some_iff] at h
      obtain ⟨first, hfirst, rest, hrest, heq⟩ := h
      obtain rfl := Option.some.inj heq
      exact comesFrom_of_mem_cons ["as", selector] (.inl ⟨selector, by simp, hfirst⟩) (ih hrest)
        hclause
  | case3 words ih =>
      simp only [Option.bind_eq_bind, Option.bind_eq_some_iff] at h
      obtain ⟨rest, hrest, heq⟩ := h
      obtain rfl := Option.some.inj heq
      exact comesFrom_of_mem_cons ["at", "@s"] (.inr ⟨rfl, rfl⟩) (ih hrest) hclause
  | case4 words ih =>
      simp only [Option.bind_eq_bind, Option.bind_eq_some_iff] at h
      obtain ⟨rest, hrest, heq⟩ := h
      obtain rfl := Option.some.inj heq
      exact comesFrom_of_mem_cons ["on", "passengers"] (.inr ⟨rfl, rfl⟩) (ih hrest) hclause
  | case5 selector words ih =>
      simp only [Option.bind_eq_bind, Option.bind_eq_some_iff] at h
      obtain ⟨first, hfirst, rest, hrest, heq⟩ := h
      obtain rfl := Option.some.inj heq
      exact comesFrom_of_mem_cons ["if", "entity", selector]
        (.inr (isLocal_of_readTagTest? hfirst)) (ih hrest) hclause
  | case6 holder objective range words ih =>
      simp only [Option.bind_eq_bind, Option.bind_eq_some_iff] at h
      obtain ⟨_, -, _, -, rest, hrest, heq⟩ := h
      obtain rfl := Option.some.inj heq
      exact comesFrom_of_mem_cons ["if", "score", holder, objective, "matches", range]
        (.inr ⟨rfl, rfl⟩) (ih hrest) hclause
  | case7 holder objective other against words ih =>
      simp only [Option.bind_eq_bind, Option.bind_eq_some_iff] at h
      obtain ⟨_, -, _, -, rest, hrest, heq⟩ := h
      obtain rfl := Option.some.inj heq
      exact comesFrom_of_mem_cons ["if", "score", holder, objective, "=", other, against]
        (.inr ⟨rfl, rfl⟩) (ih hrest) hclause
  | case8 holder objective words ih =>
      simp only [Option.bind_eq_bind, Option.bind_eq_some_iff] at h
      obtain ⟨_, -, rest, hrest, heq⟩ := h
      obtain rfl := Option.some.inj heq
      exact comesFrom_of_mem_cons ["store", "result", "score", holder, objective]
        (.inr ⟨rfl, rfl⟩) (ih hrest) hclause
  | case9 path words ih =>
      simp only [Option.bind_eq_bind, Option.bind_eq_some_iff] at h
      obtain ⟨rest, hrest, heq⟩ := h
      obtain rfl := Option.some.inj heq
      exact comesFrom_of_mem_cons ["store", "result", "entity", "@s", path, "int", "1"]
        (.inr ⟨rfl, rfl⟩) (ih hrest) hclause
  | case10 => contradiction

/-- A list that is searched in front of a command is spelled in the condition that stands there. -/
theorem isInfix_of_mem_groups_readAll {condition : String} {group : Location}
    (hgroup : group ∈ (readAll (Text.words condition)).flatMap groups) :
    ("type=#" ++ group.text).toList <:+: condition.toList := by
  rw [readAll] at hgroup
  cases hread : readAll? (Text.words condition) with
  | none =>
      rw [hread] at hgroup
      exact absurd hgroup List.not_mem_nil
  | some clauses =>
      rw [hread] at hgroup
      obtain ⟨clause, hclause, hgroup⟩ := List.mem_flatMap.1 hgroup
      rcases comesFrom_of_mem hread hclause with ⟨word, hword, hsearch⟩ | hlocal
      · rw [← Text.intercalate_words condition]
        exact (isInfix_of_mem_groups_readSearch? hsearch hgroup).trans (isInfix_intercalate hword)
      · rw [hlocal.1] at hgroup
        exact absurd hgroup List.not_mem_nil

/-- Clauses of another form are the condition as it stands. -/
theorem eq_of_mem_unknown_readAll {condition text : String}
    (h : text ∈ (readAll (Text.words condition)).flatMap unknown) : text = condition := by
  rw [readAll] at h
  cases hread : readAll? (Text.words condition) with
  | none =>
      rw [hread] at h
      rw [← Text.intercalate_words condition]
      exact List.mem_singleton.1 h
  | some clauses =>
      rw [hread] at h
      obtain ⟨clause, hclause, htext⟩ := List.mem_flatMap.1 h
      have hknown : clause.unknown = [] := by
        rcases comesFrom_of_mem hread hclause with ⟨_, _, hsearch⟩ | hlocal
        · exact unknown_of_readSearch? hsearch
        · exact hlocal.2
      rw [hknown] at htext
      exact absurd htext List.not_mem_nil

end Clause

end Spelled

end RigPack

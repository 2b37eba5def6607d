import RigPack.Proofs.Command.References
import RigPack.Proofs.Pack.Leaves
import RigPack.Proofs.Pack.Warning

/-!
# References between the files of a pack

The commands of a pack call functions by name, search lists of entity types and name functions in
messages.  This file goes through all functions of a pack and shows what their lines are read as,
and that what a line refers to is there.  The lines that a user writes for a frame are a function
of their own, and nothing is said about that one.  In front of a call a condition may stand as a
user wrote it; what is called behind it is the pack's own.

## Main statements

* `consistent_of_mem_layout`: all commands of a pack but those of users can be read, or are calls
  behind a condition of a user, and refer to what the blueprint has.
* `Admits.read?_text`: their lines are read back, and what is read refers to nothing else.
* `resolves_of_calls`, `isSome_rootType`: what the blueprint has is found in the pack by name.

## Strategy

What a function refers to is said in terms of the blueprint (`Calls`): a function of the pack, or
one of the lists.  The layout is gone through once for that, placement by placement, together with
the proof that the names in the commands can be read back.  That the references lead to files is
then a matter of the places of files alone.
-/

namespace RigPack

/-! ## References that lead to files -/

/-- Whether a call leads to files of the pack. -/
def Callee.Resolves (pack : Folder) : Callee → Prop
  | function location => (pack.resource? "functions" ".mcfunction" location.text).isSome = true
  | group location => (pack.resource? "tags/functions" ".json" location.text).isSome = true

/-- The conditions that a keyframe states, as written. -/
def Keyframe.conditions (frame : Keyframe) : List String :=
  (frame.commands.bind (·.condition)).toList ++ (frame.switch.bind (·.condition)).toList

/-! ## The functions of a timeline -/

namespace Timeline

variable {names : Naming} {animation : String}

/-- A function of a timeline is one of a leaf, or enters the children of a branch. -/
theorem mem_units {node : Timeline} {unit : FunctionUnit}
    (hunit : unit ∈ units names animation node) :
    (∃ index frame, node.HasLeaf index frame ∧ unit ∈ leafUnits names animation index frame ∧
      leafUnits names animation index frame ⊆ units names animation node) ∨
    ∃ children : List Timeline, unit.commands = children.map (dispatch names animation) ∧
      ∀ child ∈ children, units names animation child ⊆ units names animation node := by
  induction node using RangeTree.induction_children with
  | leaf index frame => exact .inl ⟨index, frame, .root, hunit, List.Subset.refl _⟩
  | branch min max children ih =>
      have hsubset : ∀ child ∈ children,
          units names animation child ⊆ units names animation (.branch min max children) := by
        intro child hchild other hother
        rw [units, unitsOf_eq_flatMap]
        exact List.mem_append_left _ (List.mem_flatMap.2 ⟨child, hchild, hother⟩)
      rw [units, unitsOf_eq_flatMap] at hunit
      rcases List.mem_append.1 hunit with hunit | hunit
      · obtain ⟨child, hchild, hunit⟩ := List.mem_flatMap.1 hunit
        rcases ih child hchild hunit with ⟨index, frame, hleaf, hmem, hleaf_subset⟩ | hbranch
        · exact .inl ⟨index, frame, .child hchild hleaf, hmem,
            List.Subset.trans hleaf_subset (hsubset child hchild)⟩
        · obtain ⟨nodes, hcommands, hnodes⟩ := hbranch
          exact .inr ⟨nodes, hcommands, fun other hother =>
            List.Subset.trans (hnodes other hother) (hsubset child hchild)⟩
      · rw [List.mem_singleton.1 hunit]
        exact .inr ⟨children, rfl, hsubset⟩

/-- What the functions of a leaf hold: lines of a user, what the root runs, and what bones run. -/
theorem mem_commands_leafUnits {index : Nat} {frame : Keyframe} {unit : FunctionUnit}
    (hunit : unit ∈ leafUnits names animation index frame) {command : Command}
    (hcommand : command ∈ unit.commands) :
    (∃ line, command = .written line) ∨ command ∈ rootCommands names animation index frame ∨
      ∃ tag data, command = .execute [.ifTagged tag] (.mergeData data) := by
  rw [leafUnits, List.mem_append, Option.mem_toList, Option.map_eq_some_iff] at hunit
  rcases hunit with ⟨commands, -, rfl⟩ | hunit
  · obtain ⟨line, -, rfl⟩ := List.mem_map.1 hcommand
    exact .inl ⟨line, rfl⟩
  · rcases List.mem_pair.1 hunit with rfl | rfl
    · exact .inr (.inl hcommand)
    · obtain ⟨pose, -, rfl⟩ := List.mem_map.1 hcommand
      exact .inr (.inr ⟨_, _, rfl⟩)

end Timeline

/-! ## Names that are read back -/

theorem isLabel_of_all_isNameChar {s : String} (h : s.toList.all isNameChar = true) : IsLabel s :=
  List.all_eq_true.2 fun c hc => by rw [List.all_eq_true.1 h c hc, Bool.true_or]

theorem isLabel_of_isResourceName {name : String} (h : isResourceName name = true) :
    IsLabel name :=
  isLabel_of_all_isNameChar (all_isNameChar_of_isResourceName h)

/-- A location of resource names is read back. -/
theorem Location.isLegible_of_isResourceName {location : Location} (hne : location.path ≠ [])
    (h : ∀ segment ∈ location.space :: location.path, isResourceName segment = true) :
    location.IsLegible :=
  ⟨hne, fun part hpart => all_isNameChar_of_isResourceName (h part hpart)⟩

section Tags

variable {names : Naming} (hspace : isResourceName names.space = true)

include hspace

theorem isLabel_rootTag : IsLabel names.rootTag :=
  (IsLabel.append (by decide) (isLabel_of_isResourceName hspace)).append (by decide)

theorem isLabel_boneTag {bone : String} (hbone : isResourceName bone = true) :
    IsLabel (names.boneTag bone) :=
  ((IsLabel.append (by decide) (isLabel_of_isResourceName hspace)).append (by decide)).append
    (isLabel_of_isResourceName hbone)

theorem isLabel_activeTag {animation : String} (hanimation : isResourceName animation = true) :
    IsLabel (names.activeTag animation) :=
  ((IsLabel.append (by decide) (isLabel_of_isResourceName hspace)).append (by decide)).append
    (isLabel_of_isResourceName hanimation)

theorem isLegible_group {name : String} (hname : isResourceName name = true) :
    (names.group name).IsLegible := by
  refine Location.isLegible_of_isResourceName (List.cons_ne_nil _ _) ?_
  simp [Naming.group, hspace, hname]

end Tags

/-! ## What all functions of a pack refer to -/

namespace Blueprint

open Placement

variable {blueprint : Blueprint}

theorem isLegible_lastId : lastId.IsLegible :=
  (by decide : IsLabel ".aj.last_id")

theorem isLegible_nextLook : nextLook.IsLegible :=
  (by decide : IsLabel ".aj.variant_id")

theorem isLegible_interpolationTicks : interpolationTicks.IsLegible :=
  (by decide : IsLabel "#aj.default_interpolation_duration")

theorem isLabel_freshTag : IsLabel freshTag := by
  decide

theorem isLegible_loopModeConstant (mode : LoopMode) : (loopModeConstant mode).IsLegible := by
  change IsLabel ("#aj.loop_mode." ++ mode.word)
  cases mode <;> decide

/-! ### Where functions stand in the list -/

theorem mem_functions_of_basic {location : Location}
    (h : location ∈ basicFunctions blueprint.names) : location ∈ blueprint.functions := by
  simp [functions, h]

theorem mem_functions_of_summon {location : Location} (h : location ∈ blueprint.summonFunctions) :
    location ∈ blueprint.functions := by
  simp [functions, h]

theorem mem_functions_of_removal {location : Location}
    (h : location ∈ removalFunctions blueprint.names) : location ∈ blueprint.functions := by
  simp [functions, h]

theorem mem_functions_of_look {look : Look} (hlook : look ∈ blueprint.looks) {location : Location}
    (h : location ∈ look.functions blueprint.names) : location ∈ blueprint.functions := by
  have hmem := List.mem_flatMap.2 ⟨look, hlook, h⟩
  simp only [functions, List.mem_append]
  exact .inl (.inl (.inr hmem))

theorem mem_functions_of_motion {motion : Motion} (hmotion : motion ∈ blueprint.motions)
    {location : Location} (h : location ∈ motion.functions blueprint.names) :
    location ∈ blueprint.functions := by
  have hmem := List.mem_flatMap.2 ⟨motion, hmotion, h⟩
  simp only [functions, List.mem_append]
  exact .inr hmem

theorem tick_mem_functions :
    blueprint.names.internalFunction ["animations", "tick"] ∈ blueprint.functions := by
  simp [functions]

/-! ### What a command may refer to -/

/-- Whether a call is one of a function of the blueprint, or of a list for users. -/
def Calls (blueprint : Blueprint) : Callee → Prop
  | .function location => location ∈ blueprint.functions
  | .group location => ∃ name ∈ ["on_summon", "on_tick", "on_remove"],
      location = blueprint.names.group name

/-- Whether a text is a condition of a user as it is put into commands. -/
def HasCondition (blueprint : Blueprint) (text : String) : Prop :=
  ∃ motion ∈ blueprint.motions, ∃ index frame, motion.timeline.HasLeaf index frame ∧
    ∃ condition ∈ frame.conditions, text = Text.trim condition

/-- What is claimed of a command that holds no text of a user: it can be read, refers to what there
is, and what it tells players names the function in which it stands. -/
structure Contained (blueprint : Blueprint) (here : Location) (command : Command) : Prop where
  legible : command.IsLegible
  callees : ∀ callee ∈ command.callees, blueprint.Calls callee
  groups : ∀ group ∈ command.groups, group = blueprint.names.rootType
  messages : ∀ message ∈ command.messages, message = rootOnlyWarning here

/-- The commands that may stand in a function. -/
inductive Admits (blueprint : Blueprint) (here : Location) : Command → Prop
  | contained {command : Command} (h : blueprint.Contained here command) :
    Admits blueprint here command
  /-- A call behind a condition as written by a user. -/
  | guarded {condition : String} {target : Location} (hcondition : blueprint.HasCondition condition)
    (htarget : target ∈ blueprint.functions) :
    Admits blueprint here (.execute [.written condition] (.run target))

/-- A placement that is in order: a function that is one of the pack's and holds commands that it
may hold, the lines of a user for a frame, or no function at all. -/
inductive Consistent (blueprint : Blueprint) : Placement → Prop
  | folder (path : List String) : Consistent blueprint (.folder path)
  | json (path : List String) (name : String) (value : Json) :
    Consistent blueprint (.file path name (.json value))
  | function {location : Location} {commands : List Command}
    (hlocation : location ∈ blueprint.functions)
    (hcommands : ∀ command ∈ commands, blueprint.Admits location command) :
    Consistent blueprint (function location commands)
  | frameCommands {motion : Motion} (hmotion : motion ∈ blueprint.motions) (index : Nat)
    (lines : List String) : Consistent blueprint
      (function (blueprint.names.timelineFunction motion.name (commandsUnit index))
        (lines.map .written))

section Layout

variable (hsound : blueprint.Sound) (hnamed : blueprint.Named)

include hsound hnamed

/-- The names of all functions are read back. -/
theorem isLegible_of_mem_functions {location : Location} (h : location ∈ blueprint.functions) :
    location.IsLegible :=
  Location.isLegible_of_isResourceName (regular_of_mem_functions hsound location h).ne_nil
    (hnamed.segments_function h)

/-- What may be called is read back. -/
theorem isLegible_of_calls {callee : Callee} (h : blueprint.Calls callee) : callee.IsLegible := by
  cases callee with
  | function location => exact isLegible_of_mem_functions hsound hnamed h
  | group location =>
      obtain ⟨name, hname, rfl⟩ := h
      exact isLegible_group hnamed.space ((by decide : ∀ name ∈ ["on_summon", "on_tick",
        "on_remove"], isResourceName name = true) name hname)

omit hsound in
theorem isLegible_rootType : blueprint.names.rootType.IsLegible :=
  isLegible_group hnamed.space (by decide)

/-! ### Commands, one by one -/

variable {here : Location}

theorem contained_call {callee : Callee} (h : blueprint.Calls callee) :
    blueprint.Contained here (.call callee) where
  legible := isLegible_of_calls hsound hnamed h
  callees := List.forall_mem_singleton.2 h
  groups _ hgroup := absurd hgroup List.not_mem_nil
  messages _ hmessage := absurd hmessage List.not_mem_nil

theorem contained_run {target : Location} (h : target ∈ blueprint.functions) :
    blueprint.Contained here (.run target) :=
  have hcalls : blueprint.Calls (.function target) := h
  contained_call hsound hnamed hcalls

omit hsound hnamed in
/-- A command that calls nothing, searches nothing and tells nobody. -/
theorem contained_quiet {command : Command} (hlegible : command.IsLegible)
    (hquiet : command.callees = [] ∧ command.groups = [] ∧ command.messages = []) :
    blueprint.Contained here command where
  legible := hlegible
  callees := by simp [hquiet.1]
  groups := by simp [hquiet.2.1]
  messages := by simp [hquiet.2.2]

omit hsound hnamed in
/-- A command behind clauses that search nothing but roots. -/
theorem contained_execute {clauses : List Clause} {command : Command} (hne : clauses ≠ [])
    (hclauses : ∀ clause ∈ clauses,
      clause.IsLegible ∧ ∀ group ∈ clause.groups, group = blueprint.names.rootType)
    (hrun : "run" ∉ Text.words command.text) (h : blueprint.Contained here command) :
    blueprint.Contained here (.execute clauses command) where
  legible := ⟨hne, fun clause hclause => (hclauses clause hclause).1, h.legible, hrun⟩
  callees := h.callees
  groups group hgroup := by
    rcases List.mem_append.1 hgroup with hgroup | hgroup
    · obtain ⟨clause, hclause, hgroup⟩ := List.mem_flatMap.1 hgroup
      exact (hclauses clause hclause).2 group hgroup
    · exact h.groups group hgroup
  messages := h.messages

/-- A call behind a clause that searches in no group. -/
theorem contained_clause_run {clause : Clause} {target : Location} (hlegible : clause.IsLegible)
    (hgroups : clause.groups = []) (h : target ∈ blueprint.functions) :
    blueprint.Contained here (.execute [clause] (.run target)) :=
  have hrun : blueprint.Contained here (.run target) := contained_run hsound hnamed h
  have hnone : ∀ group ∈ clause.groups, group = blueprint.names.rootType :=
    hgroups ▸ List.forall_mem_nil _
  contained_execute (List.cons_ne_nil _ _) (List.forall_mem_singleton.2 ⟨hlegible, hnone⟩)
    (Command.run_not_mem_words_call hrun.legible) hrun

/-! ### Functions without animations -/

omit hsound hnamed in
theorem admits_nil : ∀ command ∈ [], blueprint.Admits here command :=
  List.forall_mem_nil _

omit hsound hnamed in
theorem admits_cons {command : Command} {commands : List Command}
    (h : blueprint.Contained here command)
    (hrest : ∀ other ∈ commands, blueprint.Admits here other) :
    ∀ other ∈ command :: commands, blueprint.Admits here other :=
  List.forall_mem_cons.2 ⟨.contained h, hrest⟩

omit hsound hnamed in
theorem admits_load (settings : Settings) :
    ∀ command ∈ loadCommands settings, blueprint.Admits here command := by
  intro command hcommand
  simp only [loadCommands, List.mem_append, List.mem_map, List.mem_cons, List.not_mem_nil,
    or_false] at hcommand
  rcases hcommand with (⟨objective, -, rfl⟩ | rfl | rfl) | ⟨mode, -, rfl⟩
  · exact .contained (contained_quiet trivial ⟨rfl, rfl, rfl⟩)
  · exact .contained (contained_quiet isLegible_lastId ⟨rfl, rfl, rfl⟩)
  · exact .contained (contained_quiet isLegible_interpolationTicks ⟨rfl, rfl, rfl⟩)
  · exact .contained (contained_quiet (isLegible_loopModeConstant mode) ⟨rfl, rfl, rfl⟩)

/-- A call by every root. -/
theorem contained_everyRoot_run {target : Location} (h : target ∈ blueprint.functions) :
    blueprint.Contained here (.execute [.asEvery (.among blueprint.names.rootType)
      blueprint.names.rootTag] (.run target)) :=
  have hrun : blueprint.Contained here (.run target) := contained_run hsound hnamed h
  have hlegible := And.intro (isLegible_rootType hnamed) (isLabel_rootTag hnamed.space)
  contained_execute (List.cons_ne_nil _ _)
    (List.forall_mem_singleton.2 ⟨hlegible, fun _ hgroup => List.mem_singleton.1 hgroup⟩)
    (Command.run_not_mem_words_call hrun.legible) hrun

theorem contained_hook {name : String} (hname : name ∈ ["on_summon", "on_tick", "on_remove"]) :
    blueprint.Contained here (.call (.group (blueprint.names.group name))) :=
  contained_call hsound hnamed ⟨name, hname, rfl⟩

omit hsound hnamed in
theorem consistent_metadata (settings : Settings) :
    ∀ placement ∈ metadata blueprint.names settings, blueprint.Consistent placement := by
  intro placement hplacement
  simp only [metadata, List.mem_cons, List.not_mem_nil, or_false] at hplacement
  rcases hplacement with rfl | rfl | rfl | rfl
  · exact .json ..
  · exact .json ..
  · exact .folder _
  · exact .folder _

omit hsound hnamed in
theorem consistent_groups :
    ∀ placement ∈ groups blueprint.names, blueprint.Consistent placement := by
  intro placement hplacement
  simp only [groups_eq, List.mem_cons, List.not_mem_nil, or_false] at hplacement
  rcases hplacement with rfl | rfl | rfl | rfl | rfl | rfl | rfl <;> exact .json ..

theorem consistent_loadAndTick (settings : Settings) :
    ∀ placement ∈ loadAndTick blueprint.names settings, blueprint.Consistent placement := by
  have hload : blueprint.names.internalFunction ["load"] ∈ blueprint.functions :=
    mem_functions_of_basic (by simp [basicFunctions])
  have htick : blueprint.names.internalFunction ["tick"] ∈ blueprint.functions :=
    mem_functions_of_basic (by simp [basicFunctions])
  have htick_root : blueprint.names.internalFunction ["tick_as_root"] ∈ blueprint.functions :=
    mem_functions_of_basic (by simp [basicFunctions])
  intro placement hplacement
  simp only [loadAndTick_eq, List.mem_cons, List.not_mem_nil, or_false] at hplacement
  rcases hplacement with rfl | rfl | rfl
  · exact .function hload (admits_load settings)
  · exact .function htick
      (admits_cons (contained_everyRoot_run hsound hnamed htick_root) admits_nil)
  · exact .function htick_root (admits_cons (contained_quiet trivial ⟨rfl, rfl, rfl⟩)
      (admits_cons (contained_run hsound hnamed tick_mem_functions)
        (admits_cons (contained_hook hsound hnamed (by simp)) admits_nil)))

theorem admits_setUpRoot : ∀ command ∈ blueprint.setUpRoot, blueprint.Admits here command := by
  have hbone : blueprint.names.internalFunction ["summon", "as_bone"] ∈ blueprint.functions :=
    mem_functions_of_summon (by simp [summonFunctions])
  rw [setUpRoot, List.forall_mem_append, List.forall_mem_append]
  refine ⟨⟨?_, ?_⟩, ?_⟩
  · have hcount : blueprint.Contained here (.addScore lastId .id 1) :=
      contained_quiet isLegible_lastId ⟨rfl, rfl, rfl⟩
    exact admits_cons (contained_execute (List.cons_ne_nil _ _)
        (List.forall_mem_singleton.2 ⟨trivial, List.forall_mem_nil _⟩) (by decide) hcount)
      (admits_cons (contained_clause_run hsound hnamed trivial rfl hbone) admits_nil)
  · intro command hcommand
    obtain ⟨⟨look, position⟩, hlook, rfl⟩ := List.mem_map.1 hcommand
    have hmem := List.mem_of_getElem? (List.mk_mem_zipIdx_iff_getElem?.1 hlook)
    have hroot : blueprint.names.variantAsRoot look.name ∈ blueprint.functions :=
      mem_functions_of_look hmem (by simp [Look.functions])
    exact .contained (contained_clause_run hsound hnamed isLegible_nextLook rfl hroot)
  · exact admits_cons (contained_quiet isLabel_freshTag ⟨rfl, rfl, rfl⟩)
      (admits_cons (contained_hook hsound hnamed (by simp)) admits_nil)

theorem consistent_summoning (settings : Settings) :
    ∀ placement ∈ blueprint.summoning settings, blueprint.Consistent placement := by
  have hsummon : blueprint.names.internalFunction ["summon"] ∈ blueprint.functions :=
    mem_functions_of_summon (by simp [summonFunctions])
  have hroot : blueprint.names.internalFunction ["summon", "as_root"] ∈ blueprint.functions :=
    mem_functions_of_summon (by simp [summonFunctions])
  have hlook {here : Location} (position : Nat) :
      ∀ command ∈ summonLook blueprint.names position, blueprint.Admits here command :=
    admits_cons (contained_quiet isLegible_nextLook ⟨rfl, rfl, rfl⟩)
      (admits_cons (contained_run hsound hnamed hsummon) admits_nil)
  intro placement hplacement
  simp only [summoning_eq, List.mem_append, List.mem_cons, List.not_mem_nil, or_false] at hplacement
  rcases hplacement with ((rfl | rfl | rfl) | hother) | rfl | rfl | rfl
  · exact .function (mem_functions_of_summon (by simp [summonFunctions])) (hlook _)
  · exact .function (mem_functions_of_summon (by simp [summonFunctions]))
      (admits_cons (contained_run hsound hnamed hsummon) admits_nil)
  · exact .folder _
  · rw [summonOthers_eq] at hother
    obtain ⟨⟨look, position⟩, hmem, rfl⟩ := List.mem_map.1 hother
    refine .function (mem_functions_of_summon ?_) (hlook position)
    rw [summonFunctions]
    refine List.mem_append_left _ (List.mem_append_right _ ?_)
    exact List.mem_map.2 ⟨(look, position), hmem, rfl⟩
  · exact .function hsummon (admits_cons (contained_quiet trivial ⟨rfl, rfl, rfl⟩)
      (admits_cons (contained_clause_run hsound hnamed ⟨trivial, isLabel_freshTag⟩ rfl hroot)
        admits_nil))
  · exact .function hroot (admits_setUpRoot hsound hnamed)
  · exact .function (mem_functions_of_summon (by simp [summonFunctions]))
      (admits_cons (contained_quiet ⟨trivial, isLegible_lastId⟩ ⟨rfl, rfl, rfl⟩)
        (admits_cons (contained_quiet isLabel_freshTag ⟨rfl, rfl, rfl⟩) admits_nil))

/-- A function for the root warns in its own name. -/
theorem consistent_rootOnly {path : List String} {internal : Location}
    (hlocation : blueprint.names.publicFunction path ∈ blueprint.functions)
    (hinternal : internal ∈ blueprint.functions) :
    blueprint.Consistent (function (blueprint.names.publicFunction path)
      (rootOnly blueprint.names path internal)) := by
  have hroot := isLabel_rootTag hnamed.space
  have hwarning : blueprint.Contained (blueprint.names.publicFunction path)
      (.tell (rootOnlyWarning (blueprint.names.publicFunction path))) :=
    ⟨isMessage_rootOnlyWarning _, List.forall_mem_nil _, List.forall_mem_nil _,
      fun _ hmessage => List.mem_singleton.1 hmessage⟩
  have hrun := run_not_mem_words_tell_rootOnlyWarning
    (isLegible_of_mem_functions hsound hnamed hlocation)
  exact .function hlocation
    (admits_cons (contained_clause_run hsound hnamed hroot rfl hinternal)
      (admits_cons (contained_execute (List.cons_ne_nil _ _)
        (List.forall_mem_singleton.2 ⟨hroot, List.forall_mem_nil _⟩) hrun hwarning) admits_nil))

theorem consistent_removal :
    ∀ placement ∈ removal blueprint.names, blueprint.Consistent placement := by
  have hthis : blueprint.names.publicFunction ["remove", "this"] ∈ blueprint.functions :=
    mem_functions_of_removal (by simp [removalFunctions])
  have hall : blueprint.names.publicFunction ["remove", "all"] ∈ blueprint.functions :=
    mem_functions_of_removal (by simp [removalFunctions])
  have hroot : blueprint.names.internalFunction ["remove", "as_root"] ∈ blueprint.functions :=
    mem_functions_of_removal (by simp [removalFunctions])
  intro placement hplacement
  simp only [removal_eq, List.mem_cons, List.not_mem_nil, or_false] at hplacement
  rcases hplacement with rfl | rfl | rfl
  · exact consistent_rootOnly hsound hnamed hthis hroot
  · exact .function hall (admits_cons (contained_everyRoot_run hsound hnamed hroot) admits_nil)
  · have hhook : blueprint.Contained (blueprint.names.internalFunction ["remove", "as_root"])
        (.call (.group (blueprint.names.group "on_remove"))) :=
      contained_hook hsound hnamed (by simp)
    have hkill : blueprint.Contained (blueprint.names.internalFunction ["remove", "as_root"])
        .kill := contained_quiet trivial ⟨rfl, rfl, rfl⟩
    exact .function hroot
      (admits_cons (contained_execute (List.cons_ne_nil _ _)
          (List.forall_mem_singleton.2 ⟨trivial, List.forall_mem_nil _⟩)
          (Command.run_not_mem_words_call hhook.legible) hhook)
        (admits_cons (contained_execute (List.cons_ne_nil _ _)
            (List.forall_mem_singleton.2 ⟨trivial, List.forall_mem_nil _⟩) (by decide) hkill)
          (admits_cons hkill admits_nil)))

theorem consistent_look {look : Look} (hlook : look ∈ blueprint.looks) :
    ∀ placement ∈ look.layout blueprint.names, blueprint.Consistent placement := by
  have hpublic :
      blueprint.names.publicFunction ["apply_variant", look.name] ∈ blueprint.functions :=
    mem_functions_of_look hlook (by simp [Look.functions])
  have hroot : blueprint.names.variantAsRoot look.name ∈ blueprint.functions :=
    mem_functions_of_look hlook (by simp [Look.functions])
  have hbone : blueprint.names.variantAsBone look.name ∈ blueprint.functions :=
    mem_functions_of_look hlook (by simp [Look.functions])
  intro placement hplacement
  simp only [Look.layout_eq, List.mem_cons, List.not_mem_nil, or_false] at hplacement
  rcases hplacement with rfl | rfl | rfl
  · exact consistent_rootOnly hsound hnamed hpublic hroot
  · exact .function hroot
      (admits_cons (contained_clause_run hsound hnamed trivial rfl hbone) admits_nil)
  · refine .function hbone fun command hcommand => ?_
    obtain ⟨⟨bone, model⟩, hmodel, rfl⟩ := List.mem_map.1 hcommand
    have htag := isLabel_boneTag hnamed.space (hnamed.models look hlook _ hmodel)
    exact .contained (contained_execute (List.cons_ne_nil _ _)
      (List.forall_mem_singleton.2 ⟨htag, List.forall_mem_nil _⟩)
      (Command.run_not_mem_words_setModel model) (contained_quiet trivial ⟨rfl, rfl, rfl⟩))

theorem consistent_animationTick : blueprint.Consistent blueprint.animationTick := by
  refine .function tick_mem_functions fun command hcommand => ?_
  obtain ⟨motion, hmotion, rfl⟩ := List.mem_map.1 hcommand
  have htick : Motion.drive blueprint.names motion "tick" ∈ blueprint.functions :=
    mem_functions_of_motion hmotion (by simp [Motion.functions])
  exact .contained (contained_clause_run hsound hnamed
    (isLabel_activeTag hnamed.space (hnamed.motions motion hmotion)) rfl htick)

/-! ### Functions of an animation -/

/-- A call behind a condition, if there is one. -/
theorem admits_guarded {condition : Option String} {target : Location}
    (hcondition : ∀ text ∈ condition, blueprint.HasCondition (Text.trim text))
    (h : target ∈ blueprint.functions) :
    blueprint.Admits here (.guarded condition (.run target)) := by
  unfold Command.guarded
  cases condition with
  | none => exact .contained (contained_run hsound hnamed h)
  | some text =>
      simp only [Option.map_some]
      split
      · exact .contained (contained_run hsound hnamed h)
      · exact .guarded (hcondition text rfl) h

section Motion

variable {motion : Motion} (hmotion : motion ∈ blueprint.motions)

include hmotion

omit hsound hnamed in
theorem control_mem_functions {action : String}
    (haction : action ∈ ["play", "resume", "pause", "stop"]) :
    Motion.control blueprint.names motion action ∈ blueprint.functions :=
  mem_functions_of_motion hmotion
    (List.mem_append_left _ (List.mem_append_left _ (List.mem_map.2 ⟨action, haction, rfl⟩)))

omit hsound hnamed in
theorem drive_mem_functions {step : String} (hstep : step ∈ ["tick", "end", "apply_frame"]) :
    Motion.drive blueprint.names motion step ∈ blueprint.functions :=
  mem_functions_of_motion hmotion
    (List.mem_append_left _ (List.mem_append_right _ (List.mem_map.2 ⟨step, hstep, rfl⟩)))

omit hsound hnamed in
theorem unit_mem_functions {unit : FunctionUnit}
    (hunit : unit ∈ Timeline.units blueprint.names motion.name motion.timeline) :
    blueprint.names.timelineFunction motion.name unit.name ∈ blueprint.functions :=
  mem_functions_of_motion hmotion
    (List.mem_append_right _ (List.mem_map.2 ⟨unit, hunit, rfl⟩))

omit hsound in
theorem consistent_controls :
    ∀ placement ∈ motion.controls blueprint.names, blueprint.Consistent placement := by
  have htag := isLabel_activeTag hnamed.space (hnamed.motions motion hmotion)
  have hrewind {here : Location} : blueprint.Contained here Motion.rewind :=
    contained_quiet trivial ⟨rfl, rfl, rfl⟩
  have hactivate {here : Location} :
      blueprint.Contained here (Motion.activate blueprint.names motion) :=
    contained_quiet htag ⟨rfl, rfl, rfl⟩
  have hdeactivate {here : Location} :
      blueprint.Contained here (Motion.deactivate blueprint.names motion) :=
    contained_quiet htag ⟨rfl, rfl, rfl⟩
  have hprepare {here : Location} :
      ∀ command ∈ Motion.prepare motion ++ [Motion.activate blueprint.names motion],
        blueprint.Admits here command := by
    have hticks : blueprint.Contained here (.getScore interpolationTicks .scratch) :=
      contained_quiet isLegible_interpolationTicks ⟨rfl, rfl, rfl⟩
    have hpath : IsLabel "interpolation_duration" := by decide
    have hclauses : ∀ clause ∈ [Clause.onPassengers, .storeData "interpolation_duration"],
        clause.IsLegible ∧ ∀ group ∈ clause.groups, group = blueprint.names.rootType :=
      List.forall_mem_cons.2 ⟨⟨trivial, List.forall_mem_nil _⟩,
        List.forall_mem_singleton.2 ⟨hpath, List.forall_mem_nil _⟩⟩
    exact admits_cons (contained_quiet trivial ⟨rfl, rfl, rfl⟩)
      (admits_cons (contained_execute (List.cons_ne_nil _ _) hclauses (by decide) hticks)
        (admits_cons hactivate admits_nil))
  intro placement hplacement
  simp only [Motion.controls_eq, List.mem_cons, List.not_mem_nil, or_false] at hplacement
  rcases hplacement with rfl | rfl | rfl | rfl
  · exact .function (control_mem_functions hmotion (by simp)) (admits_cons hrewind hprepare)
  · exact .function (control_mem_functions hmotion (by simp)) hprepare
  · exact .function (control_mem_functions hmotion (by simp)) (admits_cons hdeactivate admits_nil)
  · exact .function (control_mem_functions hmotion (by simp))
      (admits_cons hrewind (admits_cons hdeactivate admits_nil))

theorem consistent_driving :
    ∀ placement ∈ motion.driving blueprint.names, blueprint.Consistent placement := by
  have htick := drive_mem_functions hmotion (by simp : "tick" ∈ _)
  have hend := drive_mem_functions hmotion (by simp : "end" ∈ _)
  have happly := drive_mem_functions hmotion (by simp : "apply_frame" ∈ _)
  have hstop := control_mem_functions hmotion (by simp : "stop" ∈ _)
  have hpause := control_mem_functions hmotion (by simp : "pause" ∈ _)
  intro placement hplacement
  simp only [Motion.driving_eq, List.mem_cons, List.not_mem_nil, or_false] at hplacement
  rcases hplacement with rfl | rfl | rfl
  · exact .function htick (admits_cons (contained_run hsound hnamed happly)
      (admits_cons (contained_quiet trivial ⟨rfl, rfl, rfl⟩)
        (admits_cons (contained_clause_run hsound hnamed trivial rfl hend) admits_nil)))
  · have hmode (mode : LoopMode) :
        (Clause.ifSameScore .self .loopMode (loopModeConstant mode) .scratch).IsLegible :=
      ⟨trivial, isLegible_loopModeConstant mode⟩
    have hrewind : blueprint.Contained (Motion.drive blueprint.names motion "end")
        Motion.rewind := contained_quiet trivial ⟨rfl, rfl, rfl⟩
    exact .function hend
      (admits_cons (contained_execute (List.cons_ne_nil _ _)
          (List.forall_mem_singleton.2 ⟨hmode _, List.forall_mem_nil _⟩) (by decide) hrewind)
        (admits_cons (contained_clause_run hsound hnamed (hmode _) rfl hstop)
          (admits_cons (contained_clause_run hsound hnamed (hmode _) rfl hpause) admits_nil)))
  · refine .function happly
      (admits_cons (contained_clause_run hsound hnamed trivial rfl ?_) admits_nil)
    rw [← Timeline.name_entry blueprint.names motion.name motion.timeline]
    exact unit_mem_functions hmotion (Timeline.entry_mem_units _ _ _)

/-- What the root runs for a frame calls functions of the timeline, and looks. -/
theorem admits_rootCommands {index : Nat} {frame : Keyframe}
    (hleaf : motion.timeline.HasLeaf index frame) :
    ∀ command ∈ Timeline.rootCommands blueprint.names motion.name index frame,
      blueprint.Admits here command := by
  have hunit {unit : FunctionUnit}
      (hunit : unit ∈ Timeline.leafUnits blueprint.names motion.name index frame) :
      blueprint.names.timelineFunction motion.name unit.name ∈ blueprint.functions :=
    unit_mem_functions hmotion (Timeline.leafUnits_subset_of_hasLeaf hleaf hunit)
  have hcondition {text : String} (h : text ∈ frame.conditions) :
      blueprint.HasCondition (Text.trim text) :=
    ⟨motion, hmotion, index, frame, hleaf, text, h, rfl⟩
  have hbones : ⟨boneUnit index, Timeline.boneCommands blueprint.names frame⟩ ∈
      Timeline.leafUnits blueprint.names motion.name index frame := by simp [Timeline.leafUnits]
  rw [Timeline.rootCommands, List.forall_mem_append, List.forall_mem_append,
    List.forall_mem_singleton]
  refine ⟨⟨.contained (contained_clause_run hsound hnamed trivial rfl (hunit hbones)), ?_⟩, ?_⟩
  · intro command hcommand
    obtain ⟨commands, hcommands, rfl⟩ := Option.map_eq_some_iff.1 (Option.mem_toList.1 hcommand)
    have hlines : ⟨commandsUnit index, (Text.lines commands.text).map .written⟩ ∈
        Timeline.leafUnits blueprint.names motion.name index frame := by
      simp [Timeline.leafUnits, hcommands]
    refine admits_guarded hsound hnamed (fun text htext => hcondition ?_) (hunit hlines)
    rw [Option.mem_def] at htext
    simp [Keyframe.conditions, hcommands, htext]
  · intro command hcommand
    obtain ⟨switch, hswitch, rfl⟩ := Option.map_eq_some_iff.1 (Option.mem_toList.1 hcommand)
    obtain ⟨look, hlook, hname⟩ := hsound.switches motion hmotion index frame hleaf switch hswitch
    refine admits_guarded hsound hnamed (fun text htext => hcondition ?_) ?_
    · rw [Option.mem_def] at htext
      simp [Keyframe.conditions, hswitch, htext]
    · rw [← hname]
      exact mem_functions_of_look hlook (by simp [Look.functions])

omit hsound in
theorem admits_boneCommands {index : Nat} {frame : Keyframe}
    (hleaf : motion.timeline.HasLeaf index frame) :
    ∀ command ∈ Timeline.boneCommands blueprint.names frame, blueprint.Admits here command := by
  intro command hcommand
  obtain ⟨⟨bone, transform⟩, hpose, rfl⟩ := List.mem_map.1 hcommand
  have htag := isLabel_boneTag hnamed.space (hnamed.poses motion hmotion index frame hleaf _ hpose)
  have hdata : ∀ s ∈ (Snbt.compound [("transformation", .ofTransform transform),
      ("start_interpolation", .int 0)]).texts, Text.IsOneWord s := by
    simp +decide
  exact .contained (contained_execute (List.cons_ne_nil _ _)
    (List.forall_mem_singleton.2 ⟨htag, List.forall_mem_nil _⟩)
    (Command.run_not_mem_words_mergeData hdata) (contained_quiet trivial ⟨rfl, rfl, rfl⟩))

theorem consistent_timelineLayout :
    ∀ placement ∈ motion.timelineLayout blueprint.names, blueprint.Consistent placement := by
  intro placement hplacement
  rw [Motion.timelineLayout_eq] at hplacement
  obtain ⟨unit, hunit, rfl⟩ := List.mem_map.1 hplacement
  rcases Timeline.mem_units hunit with
    ⟨index, frame, hleaf, hmem, -⟩ | ⟨children, hchildren, hsubset⟩
  · rw [Timeline.leafUnits, List.mem_append, Option.mem_toList, Option.map_eq_some_iff] at hmem
    -- the lines of a user, what the root runs, and what bones run
    rcases hmem with ⟨commands, -, rfl⟩ | hmem
    · exact .frameCommands hmotion index _
    · rcases List.mem_pair.1 hmem with rfl | rfl
      · exact .function (unit_mem_functions hmotion hunit)
          (admits_rootCommands hsound hnamed hmotion hleaf)
      · exact .function (unit_mem_functions hmotion hunit)
          (admits_boneCommands hnamed hmotion hleaf)
  · -- a branch calls the functions by which its children are entered
    refine .function (unit_mem_functions hmotion hunit) ?_
    rw [hchildren, List.forall_mem_map]
    intro child hchild
    have hentry := unit_mem_functions hmotion
      (hsubset child hchild (Timeline.entry_mem_units blueprint.names motion.name child))
    rw [Timeline.name_entry] at hentry
    exact .contained (contained_clause_run hsound hnamed trivial rfl hentry)

end Motion

/-- Every placement of a pack is in order. -/
theorem consistent_of_mem_layout (settings : Settings) :
    ∀ placement ∈ blueprint.layout settings, blueprint.Consistent placement := by
  intro placement hplacement
  simp only [layout, List.mem_append, List.mem_singleton, List.mem_flatMap] at hplacement
  rcases hplacement with ((((((hmetadata | hgroups) | hload) | hsummoning) | hremoval) |
    ⟨look, hlook, hplacement⟩) | rfl) | ⟨motion, hmotion, hplacement⟩
  · exact consistent_metadata settings placement hmetadata
  · exact consistent_groups placement hgroups
  · exact consistent_loadAndTick hsound hnamed settings placement hload
  · exact consistent_summoning hsound hnamed settings placement hsummoning
  · exact consistent_removal hsound hnamed placement hremoval
  · exact consistent_look hsound hnamed hlook placement hplacement
  · exact consistent_animationTick hsound hnamed
  · simp only [Motion.layout, List.mem_append] at hplacement
    rcases hplacement with (hcontrols | hdriving) | htimeline
    · exact consistent_controls hnamed hmotion placement hcontrols
    · exact consistent_driving hsound hnamed hmotion placement hdriving
    · exact consistent_timelineLayout hsound hnamed hmotion placement htimeline

end Layout

/-! ### What lines are read as -/

namespace Admits

variable {here : Location} {command : Command} (h : blueprint.Admits here command)

include h

/-- The line of a command that may stand in a function is read back. -/
theorem read?_text (hsound : blueprint.Sound) (hnamed : blueprint.Named) :
    Command.read? command.text = some command.asRead := by
  cases h with
  | contained h => exact Command.read?_text h.legible
  | @guarded condition target hcondition htarget =>
      have hlegible : (Command.run target).IsLegible :=
        isLegible_of_mem_functions hsound hnamed htarget
      exact Command.read?_execute_written condition hlegible
        (Command.run_not_mem_words_call hlegible)

/-- It calls what there is. -/
theorem calls_of_mem_callees : ∀ callee ∈ command.asRead.callees, blueprint.Calls callee := by
  rw [Command.callees_asRead]
  cases h with
  | contained h => exact h.callees
  | guarded hcondition htarget => exact List.forall_mem_singleton.2 htarget

/-- It searches the type of roots, or what a condition of a user in front of it spells. -/
theorem rootType_or_of_mem_groups : ∀ group ∈ command.asRead.groups,
    group = blueprint.names.rootType ∨
      ∃ condition, blueprint.HasCondition condition ∧
        ("execute " ++ condition ++ " run ").toList <+: command.text.toList ∧
        ("type=#" ++ group.text).toList <:+: condition.toList := by
  cases h with
  | contained h =>
      rw [Command.groups_asRead h.legible]
      exact fun group hgroup => .inl (h.groups group hgroup)
  | @guarded condition target hcondition htarget =>
      intro group hgroup
      have htext : (Command.execute [.written condition] (.run target)).text
          = "execute " ++ " ".intercalate [condition] ++ " run " ++ (Command.run target).text := rfl
      rw [Command.asRead, Command.groups, List.flatMap_singleton, List.mem_append] at hgroup
      refine .inr ⟨condition, hcondition, ⟨(Command.run target).text.toList, ?_⟩, ?_⟩
      · rw [htext, String.intercalate_singleton, ← String.toList_append]
      · exact Clause.isInfix_of_mem_groups_readAll (hgroup.resolve_right List.not_mem_nil)

/-- What is read as no clause of a known form is a condition of a user. -/
theorem hasCondition_of_mem_unknown :
    ∀ text ∈ command.asRead.unknown, blueprint.HasCondition text := by
  cases h with
  | contained h =>
      rw [Command.unknown_asRead h.legible]
      exact List.forall_mem_nil _
  | guarded hcondition htarget =>
      intro text htext
      rw [Command.asRead, Command.unknown, List.flatMap_singleton, List.mem_append] at htext
      rw [Clause.eq_of_mem_unknown_readAll (htext.resolve_right List.not_mem_nil)]
      exact hcondition

/-- What it tells players names the function in which it stands. -/
theorem eq_of_mem_messages : ∀ message ∈ command.asRead.messages,
    message = rootOnlyWarning here := by
  rw [Command.messages_asRead]
  cases h with
  | contained h => exact h.messages
  | guarded hcondition htarget => exact List.forall_mem_nil _

end Admits

/-- The lines of a function that holds no lines of a user are read back. -/
theorem read?_text_of_not_written (hsound : blueprint.Sound) (hnamed : blueprint.Named)
    {settings : Settings} {path : List String} {name : String} {list : List Command}
    (hmem : .file path name (.commands list) ∈ blueprint.layout settings)
    (hwritten : ∀ text, .written text ∉ list) :
    ∀ command ∈ list, Command.read? command.text = some command.asRead := by
  have hconsistent := consistent_of_mem_layout hsound hnamed settings _ hmem
  generalize hplacement : Placement.file path name (.commands list) = placement at hconsistent
  cases hconsistent with
  | folder path => contradiction
  | json path name value => simp at hplacement
  | frameCommands hmotion index lines =>
      obtain rfl := Content.commands.inj (Placement.file.inj hplacement).2.2
      intro command hcommand
      obtain ⟨text, -, rfl⟩ := List.mem_map.1 hcommand
      exact absurd hcommand (hwritten text)
  | @function location commands hlocation hcommands =>
      obtain rfl := Content.commands.inj (Placement.file.inj hplacement).2.2
      exact fun command hcommand => (hcommands command hcommand).read?_text hsound hnamed

/-! ## References lead to files -/

/-- A file that is laid out is found by the name of its location. -/
theorem isSome_resource? {settings : Settings} {category : List String} {location : Location}
    {extension : String} (hregular : location.Regular) (hcategory : category ≠ [])
    (hsegments : ∀ segment ∈ category, Path.IsSegment segment)
    (hextension : '/' ∉ extension.toList)
    (h : some (resourcePlace category extension location) ∈
      (blueprint.layout settings).map place?) :
    ((blueprint.pack settings).resource? ("/".intercalate category) extension
      location.text).isSome = true := by
  obtain ⟨placement, hplacement, hplace⟩ := List.mem_map.1 h
  cases placement with
  | folder path => contradiction
  | file path name content =>
      obtain ⟨rfl, rfl⟩ := Prod.mk.inj (Option.some.inj hplace)
      rw [(blueprint.pack settings).resource?_text category extension hregular hcategory hsegments
        hextension, Option.isSome_map]
      exact isSome_file?_foldl hplacement

theorem place_mem_of_functions {settings : Settings} {location : Location}
    (h : location ∈ blueprint.functions) :
    some (functionPlace location) ∈ (blueprint.layout settings).map place? := by
  have hmem : functionPlace location ∈ (blueprint.layout settings).filterMap place? := by
    rw [places_layout]
    exact List.mem_append_right _ (List.mem_map.2 ⟨location, h, rfl⟩)
  obtain ⟨placement, hplacement, hplace⟩ := List.mem_filterMap.1 hmem
  exact List.mem_map.2 ⟨placement, hplacement, hplace⟩

theorem place_mem_of_groups {settings : Settings} {placement : Placement}
    (h : placement ∈ groups blueprint.names) :
    placement.place? ∈ (blueprint.layout settings).map place? := by
  refine List.mem_map.2 ⟨placement, ?_, rfl⟩
  simp [layout, h]

theorem regular_group (hsound : blueprint.Sound) {name : String} (hname : IsPlain name) :
    (blueprint.names.group name).Regular :=
  ⟨hsound.space, by simp [Naming.group], by simp [Naming.group, hname]⟩

/-- What is called of a blueprint is in its pack. -/
theorem resolves_of_calls (hsound : blueprint.Sound) (settings : Settings) {callee : Callee}
    (h : blueprint.Calls callee) : callee.Resolves (blueprint.pack settings) := by
  cases callee with
  | function location =>
      have hlocation : location ∈ blueprint.functions := h
      have hcategory : "/".intercalate ["functions"] = "functions" := by decide
      rw [Callee.Resolves, ← hcategory]
      exact isSome_resource? (regular_of_mem_functions hsound location hlocation) (by simp)
        (by decide) (by decide) (place_mem_of_functions hlocation)
  | group location =>
      obtain ⟨name, hname, rfl⟩ := h
      have hplain : IsPlain name :=
        (by decide : ∀ name ∈ ["on_summon", "on_tick", "on_remove"], IsPlain name) name hname
      have hcategory : "/".intercalate ["tags", "functions"] = "tags/functions" := by decide
      rw [Callee.Resolves, ← hcategory]
      refine isSome_resource? (regular_group hsound hplain) (by simp) (by decide) (by decide) ?_
      have hmem : functionGroup (blueprint.names.group name) [] ∈ groups blueprint.names := by
        simp only [List.mem_cons, List.not_mem_nil, or_false] at hname
        rcases hname with rfl | rfl | rfl <;> simp [groups_eq]
      exact place_mem_of_groups hmem

/-- The type of roots is a list in the pack. -/
theorem isSome_rootType (hsound : blueprint.Sound) (settings : Settings) :
    ((blueprint.pack settings).resource? "tags/entity_types" ".json"
      blueprint.names.rootType.text).isSome = true := by
  have hcategory : "/".intercalate ["tags", "entity_types"] = "tags/entity_types" := by decide
  have hmem : entityGroup blueprint.names.rootType [.display] ∈ groups blueprint.names := by
    simp [groups_eq]
  rw [← hcategory]
  exact isSome_resource? (regular_group hsound (by decide)) (by simp) (by decide) (by decide)
    (place_mem_of_groups hmem)

theorem fileAt?_gameGroup (hsound : blueprint.Sound) (settings : Settings) {tag : String}
    (htag : tag ∈ ["load", "tick"]) :
    ((blueprint.pack settings).fileAt? ("data/minecraft/tags/functions/" ++ tag ++ ".json")).map
        (·.content)
      = some (listing [(blueprint.names.internalFunction [tag]).text]) := by
  have hplacement : functionGroup ⟨"minecraft", [tag]⟩ [blueprint.names.internalFunction [tag]] ∈
      blueprint.layout settings := by
    simp only [List.mem_cons, List.not_mem_nil, or_false] at htag
    rcases htag with rfl | rfl <;> simp [layout, groups_eq]
  have hfile : (blueprint.pack settings).file? ["data", "minecraft", "tags", "functions"]
      (tag ++ ".json") = some ⟨tag ++ ".json",
        listing [(blueprint.names.internalFunction [tag]).text]⟩ :=
    file?_foldl_of_nodup (places_nodup hsound settings) hplacement
  have hsplit : Path.splitLast ("data/minecraft/tags/functions/" ++ tag ++ ".json")
      = ("data/minecraft/tags/functions", tag ++ ".json") :=
    (by decide : ∀ tag ∈ ["load", "tick"],
      Path.splitLast ("data/minecraft/tags/functions/" ++ tag ++ ".json")
        = ("data/minecraft/tags/functions", tag ++ ".json")) tag htag
  have hsegments : Path.segments "data/minecraft/tags/functions"
      = ["data", "minecraft", "tags", "functions"] := by decide
  rw [Folder.fileAt?, hsplit]
  simp only
  rw [hsegments, hfile]
  rfl

end Blueprint

end RigPack

import RigPack.Proofs.Game.ScoreTest
import RigPack.Proofs.RangeTree.Balanced
import RigPack.Proofs.Timeline.Names

/-!
# Running the functions of a timeline

What the game sees of a timeline are lines of text and names of functions.
`Walk.step` runs them that way: it takes the next line, reads it as a score test,
looks the called name up among the functions and, if the score lies in the range,
puts the lines of that function in front of what is left to run.  It knows neither
the tree nor its keyframes.  A command that enters a node is the same test to the
reader of whole commands (`Timeline.read?_dispatch_agree`).

## Main statements

* `Walk.reaches_descent`: the line by which a node is entered runs the functions
  of exactly the nodes on the way down, in that order.
* `apply_frame_enters_leaf`: in a timeline that partitions its range, the run for
  a score ends, and the one leaf it enters is the one at which the score's frame
  is found.

## Strategy

The lines of a branch are tests, one for each child, and the lines of a leaf are
none that leads back into the timeline: they end in a letter, and the names of the
functions that are interpreted end in a digit.  So the run from a node follows the
recursion of `RangeTree.descent`.
-/

namespace RigPack

/-- Whether a function holds commands as written by a user, told by its name. -/
def FunctionUnit.isWritten (unit : FunctionUnit) : Bool :=
  "_commands".toList.isSuffixOf unit.name.toList

/-- The lines of a function. -/
def FunctionUnit.lines (unit : FunctionUnit) : List String :=
  unit.commands.map Command.text

/-- A run that stands between two lines. -/
structure Walk where
  /-- The lines that are left to run, the next one first. -/
  pending : List String
  /-- The functions that were entered, in order. -/
  entered : List FunctionUnit
  /-- How many lines tested the score for a function of the timeline. -/
  tests : Nat

namespace Walk

variable (names : Naming) (animation : String) (units : List FunctionUnit)

/-- The function of a timeline that a line calls by its name.  Functions with
commands of a user are not interpreted. -/
def callee? (target : String) : Option FunctionUnit :=
  units.find? fun unit =>
    !unit.isWritten && (names.timelineFunction animation unit.name).text == target

/-- What a line asks, if it tests the score for a function of the timeline: the
range, and the function. -/
def test? (line : String) : Option (ScoreRange × FunctionUnit) := do
  let test ← ScoreTest.read? line
  let unit ← callee? names animation units test.target
  return (test.range, unit)

/-- Runs the next line; a run without further lines has ended. -/
def step (t : Int) (walk : Walk) : Walk :=
  match walk.pending with
  | [] => walk
  | line :: pending =>
    match test? names animation units line with
    | none => ⟨pending, walk.entered, walk.tests⟩
    | some (range, unit) =>
      if range.Has t then
        ⟨unit.lines ++ pending, walk.entered ++ [unit], walk.tests + 1⟩
      else ⟨pending, walk.entered, walk.tests + 1⟩

/-- Whether one run is another after some more lines. -/
def Reaches (t : Int) (start later : Walk) : Prop :=
  ∃ count, (step names animation units t)^[count] start = later

/-- The run from the function that applies a frame. -/
def start (timeline : Timeline) : Walk :=
  ⟨[(Timeline.dispatch names animation timeline).text], [], 0⟩

variable {names animation units}

theorem Reaches.refl (t : Int) (walk : Walk) : Reaches names animation units t walk walk :=
  ⟨0, rfl⟩

theorem Reaches.trans {t : Int} {first second third : Walk}
    (hfirst : Reaches names animation units t first second)
    (hsecond : Reaches names animation units t second third) :
    Reaches names animation units t first third := by
  obtain ⟨count, rfl⟩ := hfirst
  obtain ⟨more, rfl⟩ := hsecond
  exact ⟨more + count, Function.iterate_add_apply ..⟩

theorem step_of_ended (t : Int) {walk : Walk} (hended : walk.pending = []) :
    step names animation units t walk = walk := by
  unfold step
  rw [hended]

/-- A run ends in one way only. -/
theorem Reaches.eq_of_ended {t : Int} {start first second : Walk}
    (hfirst : Reaches names animation units t start first)
    (hsecond : Reaches names animation units t start second) (hfirst_ended : first.pending = [])
    (hsecond_ended : second.pending = []) : first = second := by
  obtain ⟨count, rfl⟩ := hfirst
  obtain ⟨other, rfl⟩ := hsecond
  have hstay {walk : Walk} (hended : walk.pending = []) (more : Nat) :
      (step names animation units t)^[more] walk = walk :=
    Function.iterate_fixed (step_of_ended t hended) more
  rcases Nat.le_total count other with hle | hle
  · obtain ⟨more, rfl⟩ := Nat.exists_eq_add_of_le' hle
    rw [Function.iterate_add_apply, hstay hfirst_ended]
  · obtain ⟨more, rfl⟩ := Nat.exists_eq_add_of_le' hle
    rw [Function.iterate_add_apply, hstay hsecond_ended]

end Walk

/-! ## Names of functions, from their end -/

theorem Naming.exists_text_timelineFunction (names : Naming) (animation : String) :
    ∃ front : String, ∀ unit, (names.timelineFunction animation unit).text = front ++ unit := by
  refine ⟨names.internal
    ++ (":" ++ ("animations" ++ ("/" ++ (animation ++ ("/" ++ ("tree" ++ "/")))))),
    fun unit => ?_⟩
  simp only [timelineFunction, timelinePath, internalFunction, Location.text, List.cons_append,
    List.nil_append, String.intercalate_cons_cons, String.intercalate_singleton,
    String.append_assoc]

theorem Naming.timelineFunction_injective (names : Naming) (animation : String)
    {unit other : String}
    (h : (names.timelineFunction animation unit).text
      = (names.timelineFunction animation other).text) : unit = other := by
  obtain ⟨front, hfront⟩ := names.exists_text_timelineFunction animation
  rw [hfront, hfront] at h
  exact String.append_right_inj front |>.1 h

/-- The last character of a text is that of its last part. -/
theorem getLast?_append_of_eq_some {front back : String} {c : Char}
    (h : back.toList.getLast? = some c) : (front ++ back).toList.getLast? = some c := by
  rw [String.toList_append, List.getLast?_append, h]
  rfl

theorem getLast?_toString (n : Nat) :
    ∃ c, (toString n).toList.getLast? = some c ∧ c.isDigit = true := by
  have hne : Nat.toDigits 10 n ≠ [] := Nat.toDigits_ne_nil
  rw [Text.toList_toString]
  exact ⟨_, List.getLast?_eq_some_getLast hne, Text.isDigit_of_mem_toDigits (List.getLast_mem hne)⟩

theorem RangeTree.getLast?_unit {α : Type} (node : RangeTree α) :
    ∃ c, node.unit.toList.getLast? = some c ∧ c.isDigit = true := by
  cases node with
  | leaf index item =>
      obtain ⟨c, hlast, hdigit⟩ := getLast?_toString index
      exact ⟨c, getLast?_append_of_eq_some hlast, hdigit⟩
  | branch min max children =>
      obtain ⟨c, hlast, hdigit⟩ := getLast?_toString max
      exact ⟨c, getLast?_append_of_eq_some hlast, hdigit⟩

theorem FunctionUnit.getLast?_of_isWritten {unit : FunctionUnit} (h : unit.isWritten = true) :
    unit.name.toList.getLast? = some 's' := by
  obtain ⟨front, hname⟩ := List.isSuffixOf_iff_suffix.1 h
  rw [← hname, List.getLast?_append]
  rfl

theorem Timeline.isWritten_entry (names : Naming) (animation : String) (node : Timeline) :
    (entry names animation node).isWritten = false := by
  obtain ⟨c, hlast, hdigit⟩ := node.getLast?_unit
  rw [Bool.eq_false_iff]
  intro hwritten
  have hs := FunctionUnit.getLast?_of_isWritten hwritten
  rw [name_entry, hlast] at hs
  rw [Option.some.inj hs] at hdigit
  exact absurd hdigit (by decide)

/-- The name of a function that is interpreted ends neither like that of a
function with commands of a user nor like that of a variant. -/
theorem UnitKey.getLast?_name {key : UnitKey} {unit : FunctionUnit} (hname : unit.name = key.name)
    (hwritten : unit.isWritten = false) :
    ∃ c, unit.name.toList.getLast? = some c ∧ c ≠ 's' ∧ c ≠ 't' := by
  have hdigit {c : Char} (hc : c.isDigit = true) : c ≠ 's' ∧ c ≠ 't' := by
    constructor <;> rintro rfl <;> exact absurd hc (by decide)
  rw [hname]
  cases key with
  | branch min max =>
      obtain ⟨c, hlast, hc⟩ := getLast?_toString max
      exact ⟨c, getLast?_append_of_eq_some hlast, hdigit hc⟩
  | root index =>
      obtain ⟨c, hlast, hc⟩ := getLast?_toString index
      exact ⟨c, getLast?_append_of_eq_some hlast, hdigit hc⟩
  | bone index =>
      exact ⟨'e', getLast?_append_of_eq_some (by decide), by decide, by decide⟩
  | commands index =>
      have hsuffix : unit.isWritten = true := by
        refine List.isSuffixOf_iff_suffix.2 ⟨("leaf_" ++ toString index).toList, ?_⟩
        rw [hname, UnitKey.name, commandsUnit, String.toList_append (t := "_commands")]
      rw [hsuffix] at hwritten
      contradiction

/-! ## Lines that test no score for the timeline -/

theorem Command.getLast?_guarded {condition : Option String} {command : Command} {c : Char}
    (h : command.text.toList.getLast? = some c) :
    (guarded condition command).text.toList.getLast? = some c := by
  unfold guarded
  cases condition.map Text.trim with
  | none => exact h
  | some condition =>
      simp only
      split
      · exact h
      · exact getLast?_append_of_eq_some h

namespace Walk

variable {names : Naming} {animation : String} {units : List FunctionUnit}

theorem callee?_eq_some {target : String} {unit : FunctionUnit}
    (h : callee? names animation units target = some unit) :
    unit ∈ units ∧ unit.isWritten = false ∧
      (names.timelineFunction animation unit.name).text = target := by
  have hfound := List.find?_some h
  simp only [Bool.and_eq_true, Bool.not_eq_true', beq_iff_eq] at hfound
  exact ⟨List.mem_of_find?_eq_some h, hfound⟩

/-- A line that ends like a call of a user's commands, or of a variant, is not
interpreted. -/
theorem test?_eq_none_of_getLast? {line : String} {c : Char}
    (hkeys : ∀ unit ∈ units, ∃ key : UnitKey, unit.name = key.name)
    (hline : line.toList.getLast? = some c) (hc : c = 's' ∨ c = 't') :
    test? names animation units line = none := by
  by_contra hsome
  obtain ⟨⟨range, unit⟩, htest⟩ := Option.ne_none_iff_exists'.1 hsome
  simp only [test?, Option.bind_eq_bind, Option.bind_eq_some_iff] at htest
  obtain ⟨test, hread, callee, hcallee, -⟩ := htest
  obtain ⟨hmem, hwritten, htext⟩ := callee?_eq_some hcallee
  obtain ⟨key, hkey⟩ := hkeys callee hmem
  -- the name of the callee ends the line, and ends in another character than the line
  obtain ⟨d, hlast, hs, ht⟩ := UnitKey.getLast?_name hkey hwritten
  obtain ⟨front, hfront⟩ := names.exists_text_timelineFunction animation
  have htarget : test.target.toList.getLast? = some d := by
    rw [← htext, hfront]
    exact getLast?_append_of_eq_some hlast
  obtain ⟨before, hbefore⟩ := ScoreTest.target_suffix hread
  rw [← hbefore, List.getLast?_append, htarget] at hline
  obtain rfl : d = c := Option.some.inj hline
  exact hc.elim hs ht

theorem read?_onPassengers (location : Location) :
    ScoreTest.read? (Command.execute [.onPassengers] (.run location)).text = none := by
  have htext : (Command.execute [.onPassengers] (.run location)).text
      = "execute on passengers run function " ++ location.text := rfl
  have hopening : ("execute on passengers run function " ++ location.text).toList.dropPrefix?
      ScoreTest.opening.toList = none := by
    rw [Option.eq_none_iff_forall_ne_some]
    intro rest hrest
    obtain ⟨front, hfront, heq⟩ := List.dropPrefix?_eq_some_iff.1 hrest
    rw [LawfulBEq.eq_of_beq heq] at hfront
    simp [ScoreTest.opening] at hfront
  rw [htext, ScoreTest.read?, hopening]
  rfl

/-- No line of a leaf leads back into the timeline. -/
theorem test?_rootCommands (hkeys : ∀ unit ∈ units, ∃ key : UnitKey, unit.name = key.name)
    (index : Nat) (frame : Keyframe) :
    ∀ command ∈ Timeline.rootCommands names animation index frame,
      test? names animation units command.text = none := by
  intro command hcommand
  simp only [Timeline.rootCommands, List.mem_append, List.mem_singleton, Option.mem_toList,
    Option.map_eq_some_iff] at hcommand
  -- the call of the bones tests nothing; the other two calls end in a letter
  rcases hcommand with (rfl | ⟨commands, -, rfl⟩) | ⟨switch, -, rfl⟩
  · rw [test?, read?_onPassengers]
    rfl
  · have hlast : (Command.run (names.timelineFunction animation
        (commandsUnit index))).text.toList.getLast? = some 's' := by
      obtain ⟨front, hfront⟩ := names.exists_text_timelineFunction animation
      refine getLast?_append_of_eq_some ?_
      rw [Callee.text, hfront]
      exact getLast?_append_of_eq_some (getLast?_append_of_eq_some (by decide))
    exact test?_eq_none_of_getLast? hkeys (Command.getLast?_guarded hlast) (.inl rfl)
  · have hlast : (Command.run (names.variantAsRoot switch.variant)).text.toList.getLast?
        = some 't' := by
      refine getLast?_append_of_eq_some ?_
      rw [Callee.text, Naming.variantAsRoot, Naming.internalFunction, Location.text,
        String.intercalate_cons_cons, String.intercalate_singleton]
      exact getLast?_append_of_eq_some (getLast?_append_of_eq_some
        (getLast?_append_of_eq_some (by decide)))
    exact test?_eq_none_of_getLast? hkeys (Command.getLast?_guarded hlast) (.inr rfl)

/-! ## The run follows the way down -/

/-- Functions that can be told apart by their names. -/
structure Library (units : List FunctionUnit) : Prop where
  /-- Every name is that of a function of a timeline. -/
  keys : ∀ unit ∈ units, ∃ key : UnitKey, unit.name = key.name
  /-- No name is used twice. -/
  nodup : (units.map (·.name)).Nodup

/-- In a library a call finds the function of the name. -/
theorem Library.callee?_eq (hunits : Library units) {unit : FunctionUnit} (hmem : unit ∈ units)
    (hwritten : unit.isWritten = false) :
    callee? names animation units (names.timelineFunction animation unit.name).text
      = some unit := by
  have hsome : (callee? names animation units
      (names.timelineFunction animation unit.name).text).isSome = true := by
    refine List.find?_isSome.2 ⟨unit, hmem, ?_⟩
    simp [hwritten]
  obtain ⟨found, hfound⟩ := Option.isSome_iff_exists.1 hsome
  obtain ⟨hfound_mem, -, htext⟩ := callee?_eq_some hfound
  have hname : found.name = unit.name := names.timelineFunction_injective animation htext
  rw [hfound, List.inj_on_of_nodup_map hunits.nodup hfound_mem hmem hname]

/-- The line by which a node is entered asks for its range and calls its function. -/
theorem Library.test?_dispatch (hunits : Library units) {node : Timeline}
    (hmem : Timeline.entry names animation node ∈ units) :
    test? names animation units (Timeline.dispatch names animation node).text
      = some (node.scoreRange, Timeline.entry names animation node) := by
  have hcallee : callee? names animation units
      (names.timelineFunction animation (Timeline.entry names animation node).name).text = _ :=
    hunits.callee?_eq hmem (Timeline.isWritten_entry names animation node)
  rw [Timeline.name_entry] at hcallee
  rw [test?, Timeline.read?_dispatch, Option.bind_eq_bind, Option.bind_some, hcallee]
  rfl

theorem has_scoreRange {α : Type} (t : Int) (node : RangeTree α) :
    node.scoreRange.Has t ↔ node.Holds t := by
  cases node with
  | leaf index item =>
      simp only [RangeTree.scoreRange, ScoreRange.Has, RangeTree.Holds, RangeTree.min,
        RangeTree.max]
      omega
  | branch min max children => exact Iff.rfl

theorem Library.reaches_of_holds (hunits : Library units) {t : Int} {node : Timeline}
    (hmem : Timeline.entry names animation node ∈ units) (hholds : node.Holds t)
    (pending : List String) (entered : List FunctionUnit) (tests : Nat) :
    Reaches names animation units t
      ⟨(Timeline.dispatch names animation node).text :: pending, entered, tests⟩
      ⟨(Timeline.entry names animation node).lines ++ pending,
        entered ++ [Timeline.entry names animation node], tests + 1⟩ := by
  refine ⟨1, ?_⟩
  simp only [Function.iterate_one, step, hunits.test?_dispatch hmem,
    if_pos ((has_scoreRange t node).2 hholds)]

theorem Library.reaches_of_not_holds (hunits : Library units) {t : Int} {node : Timeline}
    (hmem : Timeline.entry names animation node ∈ units) (hholds : ¬ node.Holds t)
    (pending : List String) (entered : List FunctionUnit) (tests : Nat) :
    Reaches names animation units t
      ⟨(Timeline.dispatch names animation node).text :: pending, entered, tests⟩
      ⟨pending, entered, tests + 1⟩ := by
  refine ⟨1, ?_⟩
  simp only [Function.iterate_one, step, hunits.test?_dispatch hmem,
    if_neg (mt (has_scoreRange t node).1 hholds)]

theorem reaches_skip {t : Int} {lines : List String}
    (hlines : ∀ line ∈ lines, test? names animation units line = none) (pending : List String)
    (entered : List FunctionUnit) (tests : Nat) :
    Reaches names animation units t ⟨lines ++ pending, entered, tests⟩
      ⟨pending, entered, tests⟩ := by
  induction lines with
  | nil => exact .refl t _
  | cons line lines ih =>
      have hline : Reaches names animation units t ⟨line :: (lines ++ pending), entered, tests⟩
          ⟨lines ++ pending, entered, tests⟩ := by
        refine ⟨1, ?_⟩
        simp only [Function.iterate_one, step, hlines line (List.mem_cons_self ..)]
      exact hline.trans (ih fun other hother => hlines other (.tail _ hother))

/-- Nodes one after the other: if the line of each runs the functions on the way
down from it, so do their lines together. -/
theorem reaches_descents {t : Int} {nodes : List Timeline}
    (heach : ∀ node ∈ nodes, ∀ pending entered tests,
      Reaches names animation units t
        ⟨(Timeline.dispatch names animation node).text :: pending, entered, tests⟩
        ⟨pending, entered ++ (node.descent t).map (Timeline.entry names animation),
          tests + node.testCount t⟩)
    (pending : List String) (entered : List FunctionUnit) (tests : Nat) :
    Reaches names animation units t
      ⟨nodes.map (fun node => (Timeline.dispatch names animation node).text) ++ pending,
        entered, tests⟩
      ⟨pending, entered ++ (RangeTree.descents t nodes).map (Timeline.entry names animation),
        tests + RangeTree.testCounts t nodes⟩ := by
  induction nodes generalizing entered tests with
  | nil =>
      simp only [RangeTree.descents, List.map_nil, List.nil_append, List.append_nil,
        RangeTree.testCounts_nil, Nat.add_zero]
      exact .refl t _
  | cons node nodes ih =>
      rw [RangeTree.descents, RangeTree.testCounts_cons, List.map_append, ← List.append_assoc,
        ← Nat.add_assoc]
      exact (heach node (List.mem_cons_self ..) _ entered tests).trans
        (ih (fun other hother => heach other (.tail _ hother)) _ _)

/-- The line by which a node is entered runs the functions of the nodes on the way
down from it, and then the run goes on behind the line. -/
theorem Library.reaches_descent (hunits : Library units) (t : Int) (node : Timeline)
    (hmem : Timeline.units names animation node ⊆ units) :
    ∀ pending entered tests,
      Reaches names animation units t
        ⟨(Timeline.dispatch names animation node).text :: pending, entered, tests⟩
        ⟨pending, entered ++ (node.descent t).map (Timeline.entry names animation),
          tests + node.testCount t⟩ := by
  induction node using RangeTree.induction_children with
  | leaf index frame =>
      intro pending entered tests
      have hentry := hmem (Timeline.entry_mem_units names animation (.leaf index frame))
      by_cases hholds : (RangeTree.leaf index frame).Holds t
      · have henter := hunits.reaches_of_holds hentry hholds pending entered tests
        rw [RangeTree.descent_of_holds hholds, RangeTree.testCount_of_holds hholds,
          RangeTree.children, RangeTree.descents, RangeTree.testCounts_nil]
        refine henter.trans (reaches_skip ?_ _ _ _)
        intro line hline
        obtain ⟨command, hcommand, rfl⟩ := List.mem_map.1 hline
        exact test?_rootCommands hunits.keys index frame command hcommand
      · rw [RangeTree.descent_of_not_holds hholds, RangeTree.testCount_of_not_holds hholds,
          List.map_nil, List.append_nil]
        exact hunits.reaches_of_not_holds hentry hholds pending entered tests
  | branch min max children ih =>
      intro pending entered tests
      have hentry := hmem (Timeline.entry_mem_units names animation (.branch min max children))
      by_cases hholds : (RangeTree.branch min max children).Holds t
      · have henter := hunits.reaches_of_holds hentry hholds pending entered tests
        rw [RangeTree.descent_of_holds hholds, RangeTree.testCount_of_holds hholds,
          RangeTree.children, List.map_cons, List.append_cons, ← Nat.add_assoc]
        refine henter.trans ?_
        -- the lines of a branch are those by which its children are entered
        rw [FunctionUnit.lines, Timeline.entry, List.map_map]
        refine reaches_descents (fun child hchild => ih child hchild ?_) _ _ _
        intro unit hunit
        refine hmem ?_
        rw [Timeline.units, Timeline.unitsOf_eq_flatMap]
        exact List.mem_append_left _ (List.mem_flatMap.2 ⟨child, hchild, hunit⟩)
      · rw [RangeTree.descent_of_not_holds hholds, RangeTree.testCount_of_not_holds hholds,
          List.map_nil, List.append_nil]
        exact hunits.reaches_of_not_holds hentry hholds pending entered tests

end Walk

/-! ## The frame that is applied -/

namespace Timeline

variable {names : Naming} {animation : String}

theorem leafUnits_subset_of_findIn? {n : Nat} {frame : Keyframe} {nodes : List Timeline}
    (heach : ∀ node ∈ nodes, node.find? n = some frame →
      leafUnits names animation n frame ⊆ units names animation node)
    (hfind : RangeTree.findIn? n nodes = some frame) :
    leafUnits names animation n frame ⊆ unitsOf names animation nodes := by
  induction nodes with
  | nil => simp [RangeTree.findIn?] at hfind
  | cons node nodes ih =>
      rw [RangeTree.findIn?] at hfind
      rw [unitsOf]
      intro unit hunit
      split at hfind
      · exact List.mem_append_left _ (heach node (List.mem_cons_self ..) hfind hunit)
      · exact List.mem_append_right _
          (ih (fun other hother => heach other (.tail _ hother)) hfind hunit)

theorem leafUnits_subset_of_find? {n : Nat} {frame : Keyframe} {node : Timeline}
    (hfind : node.find? n = some frame) :
    leafUnits names animation n frame ⊆ units names animation node := by
  induction node using RangeTree.induction_children with
  | leaf index item =>
      rw [RangeTree.find?] at hfind
      split at hfind
      · rename_i hindex
        obtain rfl := hindex
        obtain rfl := Option.some.inj hfind
        exact fun unit hunit => hunit
      · contradiction
  | branch min max children ih =>
      rw [RangeTree.find?] at hfind
      intro unit hunit
      rw [units]
      exact List.mem_append_left _ (leafUnits_subset_of_findIn? ih hfind hunit)

theorem library_units (names : Naming) (animation : String) {node : Timeline}
    (hnode : node.IsPartition) : Walk.Library (units names animation node) where
  keys := by
    intro unit hunit
    have hname : unit.name ∈ (units names animation node).map (·.name) :=
      List.mem_map.2 ⟨unit, hunit, rfl⟩
    rw [names_units] at hname
    obtain ⟨key, -, hkey⟩ := List.mem_map.1 hname
    exact ⟨key, hkey.symm⟩
  nodup := units_names_nodup names animation hnode

theorem name_entry_ne_leafUnit {node : Timeline} (hnode : node.isLeaf = false) (index : Nat) :
    (entry names animation node).name ≠ leafUnit index := by
  rw [name_entry]
  cases node with
  | leaf number frame => simp [RangeTree.isLeaf] at hnode
  | branch min max children =>
      exact UnitKey.branchUnit_ne_name (rfl : (UnitKey.root index).isBranch = false)

/-- Of the functions on a way down that ends at a leaf, that leaf alone has the
name of a leaf. -/
theorem count_leafUnit {branches : List Timeline}
    (hbranches : ∀ node ∈ branches, node.isLeaf = false)
    (n : Nat) (frame : Keyframe) (index : Nat) :
    (((branches ++ [RangeTree.leaf n frame]).map (entry names animation)).map (·.name)).count
      (leafUnit index) = if n = index then 1 else 0 := by
  have hnone :
      ((branches.map (entry names animation)).map (·.name)).count (leafUnit index) = 0 := by
    refine List.count_eq_zero.2 fun hmem => ?_
    obtain ⟨unit, hunit, hname⟩ := List.mem_map.1 hmem
    obtain ⟨node, hnode, rfl⟩ := List.mem_map.1 hunit
    exact name_entry_ne_leafUnit (hbranches node hnode) index hname
  rw [List.map_append, List.map_append, List.count_append, hnone, Nat.zero_add]
  by_cases hindex : n = index
  · rw [if_pos hindex, hindex]
    simp [entry]
  · have hne : leafUnit n ≠ leafUnit index := fun heq =>
      hindex (UnitKey.root.inj (@UnitKey.name_injective (.root n) (.root index) heq))
    rw [if_neg hindex]
    simp [entry, hne]

end Timeline

/-- What it means that a run applies the frame that a tree of frames has under a
score: it ends, it enters the leaf of the score once and no other leaf, and the
functions of that leaf are made of the frame that is found. -/
structure Walk.Applies (names : Naming) (rig : Rig) (variants : VariantSet) (animation : String)
    (frames : RangeTree Frame) (units : List FunctionUnit) (t : Int) (walk : Walk) : Prop where
  /-- Nothing is left to run. -/
  ended : walk.pending = []
  /-- The leaf of the score is entered once, if the range holds the score. -/
  leaf : ∀ index : Nat, (walk.entered.map (·.name)).count (leafUnit index)
    = if frames.Holds t ∧ t = index then 1 else 0
  /-- The leaf that is entered applies the frame that is found. -/
  frame : ∀ n : Nat, t = n → frames.Holds t → ∃ frame keyframe,
    frames.find? n = some frame ∧ Keyframe.ofFrame rig variants animation n frame = .ok keyframe ∧
    ⟨leafUnit n, Timeline.rootCommands names animation n keyframe⟩ ∈ walk.entered ∧
    Timeline.leafUnits names animation n keyframe ⊆ units
  /-- Outside the range no frame is found. -/
  outside : ∀ n : Nat, t = n → ¬ frames.Holds t → frames.find? n = none

/-- The run from the function that applies a frame, for any score: it applies the
frame that the tree has under the score and no other.  In the tree that is built
over `N` frames that is the frame at the position of the score, and at most
`2 * ⌈log₂ N⌉ + 1` lines test the score. -/
theorem apply_frame_enters_leaf (names : Naming) (rig : Rig) (variants : VariantSet)
    (animation : String) {frames : RangeTree Frame} {timeline : Timeline}
    (hframes : frames.IsPartition)
    (htimeline : Timeline.ofFrames rig variants animation frames = .ok timeline) (t : Int) :
    ∃ walk,
      Walk.Reaches names animation (Timeline.units names animation timeline) t
        (Walk.start names animation timeline) walk ∧
      walk.Applies names rig variants animation frames
        (Timeline.units names animation timeline) t ∧
      ∀ items, RangeTree.ofTimeline items = .ok frames →
        (∀ n : Nat, frames.find? n = items[n]?) ∧
        walk.tests ≤ 2 * Nat.clog 2 items.length + 1 := by
  have hpartition := RangeTree.isPartition_of_traverse hframes htimeline
  obtain ⟨hmin, hmax⟩ := RangeTree.range_of_traverse htimeline
  have hholds : timeline.Holds t ↔ frames.Holds t := by
    rw [RangeTree.Holds, RangeTree.Holds, hmin, hmax]
  have hrun := (Timeline.library_units names animation hpartition).reaches_descent t timeline
    (List.Subset.refl _) [] [] 0
  rw [List.nil_append, Nat.zero_add] at hrun
  refine ⟨_, hrun, ?_, ?_⟩
  · by_cases h : frames.Holds t
    · -- a score in the range is a number, and the way down to it is a path
      obtain ⟨n, rfl⟩ : ∃ n : Nat, t = n := ⟨t.toNat, by have := h.1; omega⟩
      obtain ⟨branches, keyframe, hdescent, hbranches, hfound⟩ := hpartition.descent_eq
        (Int.ofNat_le.1 (hholds.2 h).1) (Int.ofNat_le.1 (hholds.2 h).2)
      obtain ⟨frame, hframe, hkeyframe⟩ := RangeTree.find?_traverse htimeline hfound
      refine ⟨rfl, fun index => ?_, fun m hm _ => ?_, fun m _ hnot => absurd h hnot⟩
      · rw [hdescent, Timeline.count_leafUnit hbranches n keyframe index]
        exact if_congr ⟨fun heq => ⟨h, congrArg Int.ofNat heq⟩, fun heq => Int.ofNat_inj.1 heq.2⟩
          rfl rfl
      · obtain rfl : n = m := Int.ofNat_inj.1 hm
        refine ⟨frame, keyframe, hframe, hkeyframe, ?_,
          Timeline.leafUnits_subset_of_find? hfound⟩
        rw [hdescent, List.map_append]
        exact List.mem_append_right _ (List.mem_singleton_self _)
    · rw [RangeTree.descent_of_not_holds (mt hholds.1 h)]
      refine ⟨rfl, fun index => ?_, fun m _ hm => absurd hm h, fun m hm _ => ?_⟩
      · rw [if_neg fun hindex => h hindex.1]
        rfl
      · refine hframes.find?_eq_none ?_
        rw [RangeTree.Holds, hm] at h
        omega
  · intro items hitems
    obtain ⟨hne, rfl⟩ := RangeTree.ofTimeline_eq_ok hitems
    refine ⟨RangeTree.find?_balanced items hne, ?_⟩
    exact (RangeTree.testCount_of_traverse t htimeline).trans_le
      (RangeTree.testCount_balanced_le t 0 items hne)

/-- Of two frames, the second one is applied at the score one. -/
theorem apply_frame_enters_second_leaf :
    ∃ (variants : VariantSet) (frames : RangeTree Frame) (timeline : Timeline) (walk : Walk),
      frames.IsPartition ∧ Timeline.ofFrames default variants "walk" frames = .ok timeline ∧
      Walk.Reaches ⟨"fox"⟩ "walk" (Timeline.units ⟨"fox"⟩ "walk" timeline) 1
        (Walk.start ⟨"fox"⟩ "walk" timeline) walk ∧
      (walk.entered.map (·.name)).count "leaf_0" = 0 ∧
      (walk.entered.map (·.name)).count "leaf_1" = 1 := by
  let frame (index : UInt32) : Frame := ⟨index, .empty, none, none⟩
  let variants : VariantSet := ⟨[⟨"plain", true, [], false⟩], 0, by decide, by decide⟩
  let frames : RangeTree Frame := .branch 0 1 [.leaf 0 (frame 0), .leaf 1 (frame 1)]
  have hframes : frames.IsPartition := by
    refine .branch (by decide) ⟨rfl, rfl, rfl⟩ fun child hchild => ?_
    rcases List.mem_pair.1 hchild with rfl | rfl
    · exact .leaf 0 _
    · exact .leaf 1 _
  let keyframe : Keyframe := ⟨[], none, none⟩
  have htimeline : Timeline.ofFrames default variants "walk" frames
      = .ok (.branch 0 1 [.leaf 0 keyframe, .leaf 1 keyframe]) := by
    rfl
  obtain ⟨walk, hrun, happlies, -⟩ :=
    apply_frame_enters_leaf ⟨"fox"⟩ default variants "walk" hframes htimeline 1
  refine ⟨variants, frames, _, walk, hframes, htimeline, hrun, ?_, ?_⟩
  · exact (happlies.leaf 0).trans (by decide)
  · exact (happlies.leaf 1).trans (by decide)

end RigPack

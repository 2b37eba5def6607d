import RigPack.Proofs.Game.View
import RigPack.Proofs.Pack.Places
import RigPack.Proofs.Timeline.Walk

/-!
# Applying a frame

The function that applies a frame enters the timeline of an animation with the
time score of the root.  A call of the function of a leaf is marked by the number
of its frame (`frameOf?`), so the marks of a run are the frames that it applies.
The way through the timeline follows `RangeTree.descent`, and what a leaf runs is
quiet: bones merge transforms and take models, lines written by users spare the
root, and a variant is put on.
-/

namespace RigPack

/-! ## The frames of functions -/

/-- The number of the frame that a function applies, if it is one of the `count` frames of the
animation. -/
def frameOf? (names : Naming) (animation : String) (count : Nat) (location : Location) :
    Option Nat :=
  (List.range count).find? fun index =>
    names.timelineFunction animation (leafUnit index) = location

section FrameOf

variable {names : Naming} {animation : String} {count : Nat}

theorem timelineFunction_eq_iff {unit other : String} :
    names.timelineFunction animation unit = names.timelineFunction animation other
      ↔ unit = other := by
  simp [Naming.timelineFunction, Naming.internalFunction, Naming.timelinePath]

theorem frameOf?_leaf {index : Nat} (hindex : index < count) :
    frameOf? names animation count (names.timelineFunction animation (leafUnit index))
      = some index := by
  have hsome : (frameOf? names animation count
      (names.timelineFunction animation (leafUnit index))).isSome = true :=
    List.find?_isSome.2 ⟨index, List.mem_range.2 hindex, by simp⟩
  obtain ⟨found, hfound⟩ := Option.isSome_iff_exists.1 hsome
  have hleaf : names.timelineFunction animation (leafUnit found)
      = names.timelineFunction animation (leafUnit index) := by
    simpa using List.find?_some (hfound : List.find? _ _ = some found)
  have hkey : UnitKey.root found = UnitKey.root index :=
    UnitKey.name_injective (timelineFunction_eq_iff.1 hleaf)
  rw [hfound, UnitKey.root.inj hkey]

theorem frameOf?_eq_none {location : Location}
    (h : ∀ index, names.timelineFunction animation (leafUnit index) ≠ location) :
    frameOf? names animation count location = none :=
  List.find?_eq_none.2 fun index _ => by simpa using h index

/-- The other functions of a timeline apply no frame. -/
theorem frameOf?_name {key : UnitKey} (hkey : ∀ index, key ≠ .root index) :
    frameOf? names animation count (names.timelineFunction animation key.name) = none := by
  refine frameOf?_eq_none fun index hindex => hkey index ?_
  exact (UnitKey.name_injective (timelineFunction_eq_iff.1 hindex)).symm

/-- Functions that do not lie as deep as those of a timeline apply no frame. -/
theorem frameOf?_of_length {location : Location} (h : location.path.length ≠ 4) :
    frameOf? names animation count location = none := by
  refine frameOf?_eq_none fun index hindex => h ?_
  rw [← hindex]
  rfl

end FrameOf

namespace Machine

variable {Entity Rest : Type} [DecidableEq Entity] {pack : Folder} {game : Game Entity Rest}
  {root : Entity} {mark : Location → Option Nat} {names : Naming} {animation : String}

/-! ## Quiet commands of a pack -/

theorem Quiet.guarded {command : Command} (h : ∀ self, Quiet pack game root mark self command)
    (condition : Option String) (self : Entity) :
    Quiet pack game root mark self (command.guarded condition) := by
  unfold Command.guarded
  split
  · exact h self
  · split
    · exact h self
    · exact .execute (by simp [Clause.isInterpreted]) h self

/-- What the timeline of an animation needs of a pack: the functions of its nodes, and quiet
functions that put on the variants to which its frames switch. -/
structure Carries (pack : Folder) (game : Game Entity Rest) (root : Entity)
    (mark : Location → Option Nat) (names : Naming) (animation : String) (node : Timeline) :
    Prop where
  units : ∀ unit ∈ Timeline.units names animation node,
    pack.function? (names.timelineFunction animation unit.name).text = some unit.commands
  switches : ∀ index frame, node.HasLeaf index frame → ∀ switch ∈ frame.switch, ∀ self,
    Quiet pack game root mark self (.run (names.variantAsRoot switch.variant))

theorem Carries.child {min max : Nat} {children : List Timeline}
    (h : Carries pack game root mark names animation (.branch min max children)) {child : Timeline}
    (hchild : child ∈ children) : Carries pack game root mark names animation child := by
  refine ⟨fun unit hunit => h.units unit ?_, fun index frame hleaf =>
    h.switches index frame (.child hchild hleaf)⟩
  rw [Timeline.units, Timeline.unitsOf_eq_flatMap]
  exact List.mem_append_left _ (List.mem_flatMap.2 ⟨child, hchild, hunit⟩)

section Run

variable (hgame : game.Spares root)
  (hmark : ∀ key : UnitKey, (∀ index, key ≠ .root index) →
    mark (names.timelineFunction animation key.name) = none)

include hgame hmark in
/-- What the root runs for a frame is quiet. -/
theorem Carries.quiet_root {index : Nat} {frame : Keyframe}
    (h : Carries pack game root mark names animation (.leaf index frame)) :
    ∀ command ∈ Timeline.rootCommands names animation index frame,
      Quiet pack game root mark root command := by
  have hbone (self : Entity) : Quiet pack game root mark self
      (.run (names.timelineFunction animation (boneUnit index))) := by
    have hfunction := h.units ⟨boneUnit index, Timeline.boneCommands names frame⟩
      (by simp [Timeline.units, Timeline.leafUnits])
    refine .call hfunction (hmark (.bone index) (by simp)) fun command hcommand => ?_
    obtain ⟨⟨bone, transform⟩, -, rfl⟩ := List.mem_map.1 hcommand
    exact .execute (by simp [Clause.isInterpreted]) (fun self => .of_after? fun world => rfl) self
  intro command hcommand
  simp only [Timeline.rootCommands, List.mem_append, List.mem_singleton, Option.mem_toList,
    Option.map_eq_some_iff] at hcommand
  -- the bones, the commands of the user, and the switch to another variant
  rcases hcommand with (rfl | ⟨commands, hcommands, rfl⟩) | ⟨switch, hswitch, rfl⟩
  · exact .execute (by simp [Clause.isInterpreted]) hbone root
  · refine .guarded (fun self => ?_) _ root
    have hfunction := h.units ⟨commandsUnit index, (Text.lines commands.text).map .written⟩
      (by simp [Timeline.units, Timeline.leafUnits, hcommands])
    refine .call hfunction (hmark (.commands index) (by simp)) fun command hcommand => ?_
    obtain ⟨line, -, rfl⟩ := List.mem_map.1 hcommand
    exact .written hgame line
  · exact .guarded (h.switches index frame .root switch hswitch) _ root

/-- The marks that calls of the functions of nodes leave. -/
def nodeMarks (root : Entity) (mark : Location → Option Nat) (names : Naming) (animation : String)
    (nodes : List Timeline) : List (Entity × Nat) :=
  nodes.flatMap fun node =>
    ((mark (names.timelineFunction animation node.unit)).map (root, ·)).toList

/-- A node is entered if its range holds the score. -/
theorem Carries.leads_node {node : Timeline} (h : Carries pack game root mark names animation node)
    {view : View Entity} {t : Int} (htime : view.scores (.entity root, .time) = some t)
    (hentry : Leads pack game root mark
      ((Timeline.entry names animation node).commands.map (root, ·)) view view
      (nodeMarks root mark names animation (RangeTree.descents t node.children))) :
    Leads pack game root mark [(root, Timeline.dispatch names animation node)] view view
      (nodeMarks root mark names animation (node.descent t)) := by
  by_cases hholds : node.Holds t
  · have hfunction := h.units _ (Timeline.entry_mem_units names animation node)
    rw [Timeline.name_entry] at hfunction
    have hcall := Leads.call hfunction hentry
    rw [RangeTree.descent_of_holds hholds]
    exact .ifScore htime ((Walk.has_scoreRange t node).2 hholds) hcall
  · rw [RangeTree.descent_of_not_holds hholds]
    exact .ifScore_skip htime (mt (Walk.has_scoreRange t node).1 hholds) _

/-- The children of a branch are entered from left to right. -/
theorem leads_children {view : View Entity} {t : Int} {nodes : List Timeline}
    (h : ∀ node ∈ nodes,
      Leads pack game root mark [(root, Timeline.dispatch names animation node)] view view
        (nodeMarks root mark names animation (node.descent t))) :
    Leads pack game root mark ((nodes.map (Timeline.dispatch names animation)).map (root, ·)) view
      view (nodeMarks root mark names animation (RangeTree.descents t nodes)) := by
  induction nodes with
  | nil => exact .nil view
  | cons node nodes ih =>
      have hrest := ih fun other hother => h other (.tail _ hother)
      have hall := Leads.cons (h node (List.mem_cons_self ..)) hrest
      rwa [nodeMarks, nodeMarks, ← List.flatMap_append] at hall

include hgame hmark in
/-- The command that enters a timeline leaves the marks of the nodes on the way down. -/
theorem Carries.leads_dispatch {node : Timeline}
    (h : Carries pack game root mark names animation node) {view : View Entity} {t : Int}
    (htime : view.scores (.entity root, .time) = some t) :
    Leads pack game root mark [(root, Timeline.dispatch names animation node)] view view
      (nodeMarks root mark names animation (node.descent t)) := by
  -- no command on the way changes the score, so every node asks for the same one
  induction node using RangeTree.induction_children with
  | leaf index frame =>
      refine h.leads_node htime (Quiet.leads view fun pair hpair => ?_)
      obtain ⟨command, hcommand, rfl⟩ := List.mem_map.1 hpair
      exact h.quiet_root hgame hmark command hcommand
  | branch min max children ih =>
      exact h.leads_node htime (leads_children fun child hchild => ih child hchild (h.child hchild))

end Run

omit [DecidableEq Entity] in
/-- Of the nodes on the way down only the leaf applies a frame. -/
theorem nodeMarks_descent {count : Nat} {node : Timeline} (hpartition : node.IsPartition)
    (hmin : node.min = 0) (hmax : node.max + 1 = count) (n : Nat) :
    nodeMarks root (frameOf? names animation count) names animation (node.descent n)
      = if n < count then [(root, n)] else [] := by
  by_cases hn : n < count
  · obtain ⟨branches, frame, hdescent, hbranches, -⟩ :=
      hpartition.descent_eq (n := n) (by omega) (by omega)
    have hnone : nodeMarks root (frameOf? names animation count) names animation branches = [] := by
      refine List.flatMap_eq_nil_iff.2 fun other hother => ?_
      cases other with
      | leaf index frame => exact absurd (hbranches _ hother) (by simp [RangeTree.isLeaf])
      | branch min max children =>
          have hmark : frameOf? names animation count
              (names.timelineFunction animation (UnitKey.branch min max).name) = none :=
            frameOf?_name (by simp)
          exact congrArg (fun mark : Option Nat => (mark.map (root, ·)).toList) hmark
    rw [hdescent, nodeMarks, List.flatMap_append, if_pos hn]
    rw [nodeMarks] at hnone
    rw [hnone, List.flatMap_singleton, RangeTree.unit, frameOf?_leaf hn]
    rfl
  · have hholds : ¬ node.Holds n := fun hholds => by
      have := hholds.2
      omega
    rw [RangeTree.descent_of_not_holds hholds, if_neg hn]
    rfl

/-- The timeline of an animation applies the frame of the time score, if there is one. -/
theorem Carries.leads_frame {count : Nat} {node : Timeline} (hgame : game.Spares root)
    (h : Carries pack game root (frameOf? names animation count) names animation node)
    (hpartition : node.IsPartition) (hmin : node.min = 0) (hmax : node.max + 1 = count)
    {view : View Entity} {n : Nat} (htime : view.scores (.entity root, .time) = some (n : Int)) :
    Leads pack game root (frameOf? names animation count)
      [(root, Timeline.dispatch names animation node)] view view
      (if n < count then [(root, n)] else []) := by
  rw [← nodeMarks_descent hpartition hmin hmax]
  exact h.leads_dispatch hgame (fun key hkey => frameOf?_name hkey) htime

end Machine

end RigPack

import RigPack.Proofs.Game.Machine

/-!
# Runs, as far as one entity is concerned

What drives an animation are the tags of one entity, the root, and the scores.
`Leads` says how commands change these, whatever else there is in the world, and
which marks they leave: calls of functions that stand for a number.  Commands that
change neither and leave no mark are quiet.
-/

namespace RigPack

variable {Entity Rest : Type}

/-- The tags of one entity, and all scores. -/
structure View (Entity : Type) where
  tags : String → Bool
  scores : Scores Entity

/-- What an entity sees of a world. -/
def World.view (world : World Entity Rest) (root : Entity) : View Entity :=
  ⟨world.tags root, world.scores⟩

/-- Lines written by users change no tag of an entity, and no score. -/
def Game.Spares (game : Game Entity Rest) (root : Entity) : Prop :=
  ∀ text world self, (game.effect text world self).view root = world.view root

namespace View

/-- The view with a tag put on the entity, or taken off. -/
def setTag (view : View Entity) (tag : String) (on : Bool) : View Entity :=
  { view with tags := Function.update view.tags tag on }

theorem tags_setTag (view : View Entity) (tag other : String) (on : Bool) :
    (view.setTag tag on).tags other = if other = tag then on else view.tags other :=
  Function.update_apply ..

variable [DecidableEq Entity]

/-- The view with a score set. -/
def setScore (view : View Entity) (score : ScoreHolder Entity × Objective) (value : Int) :
    View Entity :=
  { view with scores := Function.update view.scores score (some value) }

theorem scores_setScore (view : View Entity) (score other : ScoreHolder Entity × Objective)
    (value : Int) :
    (view.setScore score value).scores other
      = if other = score then some value else view.scores other :=
  Function.update_apply ..

end View

variable [DecidableEq Entity]

namespace Machine

variable (pack : Folder) (game : Game Entity Rest) (root : Entity) (mark : Location → Option Nat)

/-- The marks that calls leave. -/
def marks (calls : List (Entity × Location)) : List (Entity × Nat) :=
  calls.filterMap fun (self, location) => (mark location).map (self, ·)

/-- How commands change what the root sees, and which marks they leave. -/
def Leads (commands : List (Entity × Command)) (view view' : View Entity)
    (left : List (Entity × Nat)) : Prop :=
  ∀ world : World Entity Rest, world.view root = view →
    ∃ world' calls, Executes pack game commands world world' calls ∧ world'.view root = view' ∧
      marks mark calls = left

/-- A command that changes nothing for the root and leaves no mark. -/
def Quiet (self : Entity) (command : Command) : Prop :=
  ∀ view, Leads pack game root mark [(self, command)] view view []

variable {pack game root mark}

namespace Leads

variable {self : Entity} {view view' view'' : View Entity} {left left' : List (Entity × Nat)}

theorem nil (view : View Entity) : Leads pack game root mark [] view view [] :=
  fun world hworld => ⟨world, [], .nil world, hworld, rfl⟩

/-- Commands that are run one after the other. -/
theorem append {first second : List (Entity × Command)}
    (hfirst : Leads pack game root mark first view view' left)
    (hsecond : Leads pack game root mark second view' view'' left') :
    Leads pack game root mark (first ++ second) view view'' (left ++ left') := by
  intro world hworld
  obtain ⟨world', calls, hexecutes, hworld', rfl⟩ := hfirst world hworld
  obtain ⟨world'', calls', hexecutes', hworld'', rfl⟩ := hsecond world' hworld'
  exact ⟨world'', calls ++ calls', hexecutes.append hexecutes', hworld'', List.filterMap_append ..⟩

theorem cons {first : Entity × Command} {rest : List (Entity × Command)}
    (hfirst : Leads pack game root mark [first] view view' left)
    (hrest : Leads pack game root mark rest view' view'' left') :
    Leads pack game root mark (first :: rest) view view'' (left ++ left') :=
  append hfirst hrest

theorem of_forall {commands : List (Entity × Command)}
    (h : ∀ command ∈ commands, Leads pack game root mark [command] view view []) :
    Leads pack game root mark commands view view [] := by
  induction commands with
  | nil => exact nil view
  | cons command commands ih =>
      have hrest := ih fun other hother => h other (.tail _ hother)
      exact cons (h command (List.mem_cons_self ..)) hrest

/-! ## Single commands -/

theorem of_after? {command : Command}
    (h : ∀ world : World Entity Rest, world.view root = view →
      ∃ world', world.after? game self command = some world' ∧ world'.view root = view') :
    Leads pack game root mark [(self, command)] view view' [] := by
  intro world hworld
  obtain ⟨world', hafter, hworld'⟩ :=
    h { world with rest := game.remainder command world self } hworld
  exact ⟨world', [], .of_after? hafter, hworld', rfl⟩

theorem setScore (self : Entity) (view : View Entity) (holder : Holder) (objective : Objective)
    (value : Nat) :
    Leads pack game root mark [(self, .setScore holder objective value)] view
      (view.setScore (holder.resolve self, objective) value) [] := by
  refine of_after? fun world hworld => ⟨_, rfl, ?_⟩
  subst hworld
  rfl

theorem addScore (self : Entity) (view : View Entity) (holder : Holder) (objective : Objective)
    (value : Nat) :
    Leads pack game root mark [(self, .addScore holder objective value)] view
      (view.setScore (holder.resolve self, objective)
        ((view.scores (holder.resolve self, objective)).getD 0 + value)) [] := by
  refine of_after? fun world hworld => ⟨_, rfl, ?_⟩
  subst hworld
  rfl

theorem addTag (view : View Entity) (tag : String) :
    Leads pack game root mark [(root, .addTag tag)] view (view.setTag tag true) [] := by
  refine of_after? fun world hworld => ⟨_, rfl, ?_⟩
  subst hworld
  simp [World.view, World.setTag, View.setTag]

theorem removeTag (view : View Entity) (tag : String) :
    Leads pack game root mark [(root, .removeTag tag)] view (view.setTag tag false) [] := by
  refine of_after? fun world hworld => ⟨_, rfl, ?_⟩
  subst hworld
  simp [World.view, World.setTag, View.setTag]

/-! ## Calls and clauses -/

/-- A call leaves its own mark in front of those of the function. -/
theorem call {location : Location} {commands : List Command}
    (hfunction : pack.function? location.text = some commands)
    (h : Leads pack game root mark (commands.map (self, ·)) view view' left) :
    Leads pack game root mark [(self, .run location)] view view'
      (((mark location).map (self, ·)).toList ++ left) := by
  intro world hworld
  obtain ⟨world', calls, hexecutes, hworld', rfl⟩ :=
    h { world with rest := game.remainder (.run location) world self } hworld
  refine ⟨world', (self, location) :: calls, .call hfunction hexecutes, hworld', ?_⟩
  cases hmark : mark location <;> simp [marks, hmark]

theorem call_unmarked {location : Location} {commands : List Command}
    (hfunction : pack.function? location.text = some commands) (hmark : mark location = none)
    (h : Leads pack game root mark (commands.map (self, ·)) view view' left) :
    Leads pack game root mark [(self, .run location)] view view' left := by
  have hcall := call hfunction h
  rwa [hmark] at hcall

theorem passed {clause : Clause} {command : Command}
    (hclause : ∀ world : World Entity Rest, world.view root = view →
      clause.executors? game world root = some [root])
    (h : Leads pack game root mark [(root, command)] view view' left) :
    Leads pack game root mark [(root, .execute [clause] command)] view view' left := by
  intro world hworld
  obtain ⟨world', calls, hexecutes, hworld', hleft⟩ :=
    h { world with rest := game.remainder (.execute [clause] command) world root } hworld
  have hselves := (executors?_singleton game world clause root).trans (hclause world hworld)
  exact ⟨world', calls, .execute hselves hexecutes, hworld', hleft⟩

theorem refused {clause : Clause}
    (hclause : ∀ world : World Entity Rest, world.view root = view →
      clause.executors? game world root = some []) (command : Command) :
    Leads pack game root mark [(root, .execute [clause] command)] view view [] := by
  intro world hworld
  have hselves := (executors?_singleton game world clause root).trans (hclause world hworld)
  exact ⟨_, [], .execute hselves (.nil _), hworld, rfl⟩

theorem ifTagged {tag : String} {command : Command} (htag : view.tags tag = true)
    (h : Leads pack game root mark [(root, command)] view view' left) :
    Leads pack game root mark [(root, .execute [.ifTagged tag] command)] view view' left := by
  refine passed (fun world hworld => ?_) h
  subst hworld
  exact congrArg some (if_pos htag)

theorem ifTagged_skip {tag : String} (htag : view.tags tag = false) (command : Command) :
    Leads pack game root mark [(root, .execute [.ifTagged tag] command)] view view [] := by
  refine refused (fun world hworld => ?_) command
  subst hworld
  have huntagged : ¬ world.tags root tag = true := by simpa [World.view] using htag
  exact congrArg some (if_neg huntagged)

theorem ifScore {holder : Holder} {objective : Objective} {range : ScoreRange} {command : Command}
    {t : Int} (hscore : view.scores (holder.resolve root, objective) = some t)
    (hrange : range.Has t)
    (h : Leads pack game root mark [(root, command)] view view' left) :
    Leads pack game root mark [(root, .execute [.ifScore holder objective range] command)] view
      view' left := by
  refine passed (fun world hworld => ?_) h
  subst hworld
  simp only [World.view] at hscore
  simp [Clause.executors?, hscore, hrange]

theorem ifScore_skip {holder : Holder} {objective : Objective} {range : ScoreRange} {t : Int}
    (hscore : view.scores (holder.resolve root, objective) = some t) (hrange : ¬ range.Has t)
    (command : Command) :
    Leads pack game root mark [(root, .execute [.ifScore holder objective range] command)] view
      view [] := by
  refine refused (fun world hworld => ?_) command
  subst hworld
  simp only [World.view] at hscore
  simp [Clause.executors?, hscore, hrange]

theorem ifSameScore {holder other : Holder} {objective against : Objective} {command : Command}
    {t : Int} (hscore : view.scores (holder.resolve root, objective) = some t)
    (hother : view.scores (other.resolve root, against) = some t)
    (h : Leads pack game root mark [(root, command)] view view' left) :
    Leads pack game root mark
      [(root, .execute [.ifSameScore holder objective other against] command)] view view' left := by
  refine passed (fun world hworld => ?_) h
  subst hworld
  simp only [World.view] at hscore hother
  simp [Clause.executors?, hscore, hother]

theorem ifSameScore_skip {holder other : Holder} {objective against : Objective} {t u : Int}
    (hscore : view.scores (holder.resolve root, objective) = some t)
    (hother : view.scores (other.resolve root, against) = some u) (hne : t ≠ u)
    (command : Command) :
    Leads pack game root mark
      [(root, .execute [.ifSameScore holder objective other against] command)] view view [] := by
  refine refused (fun world hworld => ?_) command
  subst hworld
  simp only [World.view] at hscore hother
  simp [Clause.executors?, hscore, hother, hne]

end Leads

/-! ## Commands that change nothing for the root -/

namespace Quiet

variable {self : Entity}

theorem leads {commands : List (Entity × Command)} (view : View Entity)
    (h : ∀ command ∈ commands, Quiet pack game root mark command.1 command.2) :
    Leads pack game root mark commands view view [] :=
  .of_forall fun command hcommand => h command hcommand view

theorem of_after? {command : Command}
    (h : ∀ world : World Entity Rest, world.after? game self command = some world) :
    Quiet pack game root mark self command :=
  fun _ => .of_after? fun world hworld => ⟨world, h world, hworld⟩

/-- A line as written is quiet if such lines spare the root. -/
theorem written (hgame : game.Spares root) (text : String) :
    Quiet pack game root mark self (.written text) :=
  fun _ => .of_after? fun world hworld => ⟨_, rfl, (hgame text world self).trans hworld⟩

theorem call {location : Location} {commands : List Command}
    (hfunction : pack.function? location.text = some commands) (hmark : mark location = none)
    (h : ∀ command ∈ commands, Quiet pack game root mark self command) :
    Quiet pack game root mark self (.run location) := by
  refine fun view => .call_unmarked hfunction hmark (leads view fun pair hpair => ?_)
  obtain ⟨command, hcommand, rfl⟩ := List.mem_map.1 hpair
  exact h command hcommand

/-- A command that is quiet for everyone is so behind clauses that are interpreted. -/
theorem execute {clauses : List Clause} {command : Command}
    (hclauses : ∀ clause ∈ clauses, clause.isInterpreted = true)
    (h : ∀ self, Quiet pack game root mark self command) (self : Entity) :
    Quiet pack game root mark self (.execute clauses command) := by
  intro view world hworld
  obtain ⟨selves, hselves⟩ :=
    Option.isSome_iff_exists.1 (isSome_executors? game world hclauses self)
  have hleads : Leads pack game root mark (selves.map (·, command)) view view [] :=
    leads view fun pair hpair => by
      obtain ⟨other, -, rfl⟩ := List.mem_map.1 hpair
      exact h other
  obtain ⟨world', calls, hexecutes, hworld', hleft⟩ :=
    hleads { world with rest := game.remainder (.execute clauses command) world self } hworld
  exact ⟨world', calls, .execute hselves hexecutes, hworld', hleft⟩

end Quiet

end Machine

end RigPack

import Mathlib.Logic.Function.Basic
import Mathlib.Logic.Relation
import RigPack.Proofs.Game.Resources
import RigPack.Proofs.Game.ScoreTest

/-!
# Commands, run by the game

This file says what it means to run the functions of a pack.  A machine holds the
commands that are left to run, each with the entity that runs it, and a step takes
the next one.  A call looks its function up by name among the files of the pack
and puts the commands of that function in front of what is left, so a function
ends before the line behind its call is run.

Tags and scores are interpreted, and scores are integers without bounds.  What
else there is in a world, and what lines and conditions written by users do, is a
parameter (`Game`).  The machine stops at a command that it does not interpret:
those that search, summon or kill entities, those that keep a result as a score,
and the lists of functions that other packs add to.

The game itself reads lines.  That the lines of the functions run here are read as
these commands is said by `Playback.readsBack_of_build`.

## Main statements

* `Machine.Ends.unique`: a run ends in one way only.
* `Machine.Executes.append`: commands that are run one after the other.
-/

namespace RigPack

/-! ## Worlds -/

/-- Who holds a score in a world. -/
inductive ScoreHolder (Entity : Type)
  | entity (self : Entity)
  | name (label : String)
  deriving DecidableEq

/-- The holder that a command speaks of, for the entity that runs it. -/
def Holder.resolve {Entity : Type} (self : Entity) : Holder → ScoreHolder Entity
  | .self => .entity self
  | .name label => .name label

/-- The scores of a world; one that was never set is missing. -/
abbrev Scores (Entity : Type) :=
  ScoreHolder Entity × Objective → Option Int

/-- What commands read and change. -/
structure World (Entity Rest : Type) where
  tags : Entity → String → Bool
  scores : Scores Entity
  /-- The entities that ride on an entity. -/
  riders : Entity → List Entity
  /-- Everything that is neither a tag nor a score, nor rides on something. -/
  rest : Rest

/-- What the game makes of text by users, and of what is neither a tag nor a score. -/
structure Game (Entity Rest : Type) where
  /-- As whom a command runs behind a condition as written. -/
  executors : String → World Entity Rest → Entity → List Entity
  /-- The world behind a line as written. -/
  effect : String → World Entity Rest → Entity → World Entity Rest
  /-- The rest of the world behind a command. -/
  remainder : Command → World Entity Rest → Entity → Rest

variable {Entity Rest : Type}

/-- As whom a command runs behind a clause. -/
def Clause.executors? (game : Game Entity Rest) (world : World Entity Rest) (self : Entity) :
    Clause → Option (List Entity)
  | .asEvery .. | .asNearby .. | .storeScore .. => none
  | .atSelf | .storeData _ => some [self]
  | .onPassengers => some (world.riders self)
  | .ifTagged tag => some (if world.tags self tag then [self] else [])
  | .ifUntagged tag => some (if world.tags self tag then [] else [self])
  | .ifScore holder objective range =>
    some (if (world.scores (holder.resolve self, objective)).any (range.Has ·) then [self] else [])
  | .ifSameScore holder objective other against =>
    let score := world.scores (holder.resolve self, objective)
    some (if score.isSome ∧ score = world.scores (other.resolve self, against) then [self] else [])
  | .written text => some (game.executors text world self)

/-- As whom a command runs behind several clauses. -/
def executors? (game : Game Entity Rest) (world : World Entity Rest) :
    List Clause → Entity → Option (List Entity)
  | [], self => some [self]
  | clause :: clauses, self => do
    let selves ← clause.executors? game world self
    let lists ← selves.mapM (executors? game world clauses)
    return lists.flatten

theorem executors?_singleton (game : Game Entity Rest) (world : World Entity Rest)
    (clause : Clause) (self : Entity) :
    executors? game world [clause] self = clause.executors? game world self := by
  have hmap (selves : List Entity) :
      selves.mapM (executors? game world []) = some (selves.map fun self => [self]) := by
    induction selves with
    | nil => rfl
    | cons self selves ih => rw [List.mapM_cons, ih]; rfl
  rw [executors?]
  cases clause.executors? game world self with
  | none => rfl
  | some selves =>
      have hflatten : (selves.map fun self => [self]).flatten = selves := by
        rw [← List.flatMap_def, List.flatMap_singleton']
      simp [hmap, hflatten]

/-- Whether the machine interprets a clause. -/
def Clause.isInterpreted : Clause → Bool
  | .asEvery .. | .asNearby .. | .storeScore .. => false
  | _ => true

theorem Clause.isSome_executors? (game : Game Entity Rest) (world : World Entity Rest)
    {clause : Clause} (h : clause.isInterpreted = true) (self : Entity) :
    (clause.executors? game world self).isSome = true := by
  cases clause <;> first | contradiction | rfl

theorem isSome_executors? (game : Game Entity Rest) (world : World Entity Rest)
    {clauses : List Clause} (h : ∀ clause ∈ clauses, clause.isInterpreted = true) (self : Entity) :
    (executors? game world clauses self).isSome = true := by
  induction clauses generalizing self with
  | nil => rfl
  | cons clause clauses ih =>
      have hrest := ih fun other hother => h other (.tail _ hother)
      obtain ⟨selves, hselves⟩ := Option.isSome_iff_exists.1
        (clause.isSome_executors? game world (h clause (List.mem_cons_self ..)) self)
      have hlists : (selves.mapM (executors? game world clauses)).isSome = true := by
        clear hselves
        induction selves with
        | nil => rfl
        | cons self selves ihselves =>
            obtain ⟨list, hlist⟩ := Option.isSome_iff_exists.1 (hrest self)
            obtain ⟨lists, hlists⟩ := Option.isSome_iff_exists.1 ihselves
            rw [List.mapM_cons, hlist, hlists]
            rfl
      obtain ⟨lists, hlists⟩ := Option.isSome_iff_exists.1 hlists
      rw [executors?, hselves, Option.bind_eq_bind, Option.bind_some, hlists]
      rfl

variable [DecidableEq Entity]

namespace World

/-- The world with a score set. -/
def setScore (world : World Entity Rest) (score : ScoreHolder Entity × Objective) (value : Int) :
    World Entity Rest :=
  { world with scores := Function.update world.scores score (some value) }

/-- The world with a tag put on an entity, or taken off. -/
def setTag (world : World Entity Rest) (self : Entity) (tag : String) (on : Bool) :
    World Entity Rest :=
  { world with tags := Function.update world.tags self (Function.update (world.tags self) tag on) }

/-- The world behind a command that neither calls a function nor changes who runs; a score that is
not set counts as zero. -/
def after? (game : Game Entity Rest) (world : World Entity Rest) (self : Entity) :
    Command → Option (World Entity Rest)
  | .addObjective _ | .getScore .. | .tell _ | .mergeData _ | .setModel _ => some world
  | .setScore holder objective value => world.setScore (holder.resolve self, objective) value
  | .addScore holder objective value =>
    let score := (holder.resolve self, objective)
    world.setScore score ((world.scores score).getD 0 + value)
  | .copyScore holder objective source =>
    world.setScore (holder.resolve self, objective)
      ((world.scores (source.resolve self, objective)).getD 0)
  | .addTag tag => world.setTag self tag true
  | .removeTag tag => world.setTag self tag false
  | .written text => game.effect text world self
  | .call _ | .summon .. | .kill | .execute .. => none

end World

/-! ## Machines -/

/-- A run that stands between two commands. -/
structure Machine (Entity Rest : Type) where
  /-- The commands that are left to run, the next one first. -/
  pending : List (Entity × Command)
  world : World Entity Rest
  /-- The functions that were called, in order. -/
  calls : List (Entity × Location)

namespace Machine

variable (pack : Folder) (game : Game Entity Rest)

/-- Runs the next command, if there is one that is interpreted. -/
def step (machine : Machine Entity Rest) : Option (Machine Entity Rest) :=
  match machine.pending with
  | [] => none
  | (self, command) :: pending =>
    let world := machine.world
    let changed := { world with rest := game.remainder command world self }
    match command with
    | .call (.function location) =>
      (pack.function? location.text).map fun commands =>
        ⟨commands.map (self, ·) ++ pending, changed, machine.calls ++ [(self, location)]⟩
    | .execute clauses command =>
      (executors? game world clauses self).map fun selves =>
        ⟨selves.map (·, command) ++ pending, changed, machine.calls⟩
    | command => (changed.after? game self command).map fun world => ⟨pending, world, machine.calls⟩

/-- Whether one run is another after some more commands. -/
def Reaches : Machine Entity Rest → Machine Entity Rest → Prop :=
  Relation.ReflTransGen fun machine next => machine.step pack game = some next

/-- Whether a run comes to an end, with no command left. -/
def Ends (start final : Machine Entity Rest) : Prop :=
  Reaches pack game start final ∧ final.pending = []

/-- Whether commands lead from one world to another and call functions on the way, whatever is
left to run behind them. -/
def Executes (commands : List (Entity × Command)) (world world' : World Entity Rest)
    (calls : List (Entity × Location)) : Prop :=
  ∀ pending log, Reaches pack game ⟨commands ++ pending, world, log⟩ ⟨pending, world', log ++ calls⟩

variable {pack game}

/-- A run ends in one way only. -/
theorem Ends.unique {start first second : Machine Entity Rest} (hfirst : Ends pack game start first)
    (hsecond : Ends pack game start second) : first = second := by
  obtain ⟨hfirst, hfirst_ended⟩ := hfirst
  obtain ⟨hsecond, hsecond_ended⟩ := hsecond
  have hstay {machine later : Machine Entity Rest} (hended : machine.pending = [])
      (h : Reaches pack game machine later) : machine = later := by
    refine h.cases_head.resolve_right fun ⟨next, hnext, _⟩ => ?_
    rw [step, hended] at hnext
    contradiction
  have hunique : Relator.RightUnique fun machine next : Machine Entity Rest =>
      machine.step pack game = some next :=
    fun _ _ _ hnext hnext' => Option.some.inj (hnext.symm.trans hnext')
  -- one of the two runs goes on to the other, but no run goes on from its end
  rcases Relation.ReflTransGen.total_of_right_unique hunique hfirst hsecond with h | h
  · exact hstay hfirst_ended h
  · exact (hstay hsecond_ended h).symm

namespace Executes

theorem nil (world : World Entity Rest) : Executes pack game [] world world [] := by
  intro pending log
  rw [List.nil_append, List.append_nil]
  exact .refl

/-- Commands that are run one after the other. -/
theorem append {first second : List (Entity × Command)} {world world' world'' : World Entity Rest}
    {calls calls' : List (Entity × Location)} (hfirst : Executes pack game first world world' calls)
    (hsecond : Executes pack game second world' world'' calls') :
    Executes pack game (first ++ second) world world'' (calls ++ calls') := by
  intro pending log
  have hstart := hfirst (second ++ pending) log
  have hrest := hsecond pending (log ++ calls)
  rw [List.append_assoc, ← List.append_assoc log]
  exact hstart.trans hrest

/-- A command that neither calls a function nor changes who runs. -/
theorem of_after? {self : Entity} {command : Command} {world world' : World Entity Rest}
    (h : { world with rest := game.remainder command world self }.after? game self command
      = some world') : Executes pack game [(self, command)] world world' [] := by
  intro pending log
  refine .single ?_
  unfold step
  -- no command that has an effect of its own is a call or a clause
  cases command <;> first | contradiction | simp [h]

/-- A call runs the function that it names. -/
theorem call {self : Entity} {location : Location} {commands : List Command}
    {world world' : World Entity Rest} {calls : List (Entity × Location)}
    (hfunction : pack.function? location.text = some commands)
    (h : Executes pack game (commands.map (self, ·))
      { world with rest := game.remainder (.run location) world self } world' calls) :
    Executes pack game [(self, .run location)] world world' ((self, location) :: calls) := by
  intro pending log
  have hrest := h pending (log ++ [(self, location)])
  rw [← List.append_cons] at hrest
  refine .head ?_ hrest
  simp [step, Command.run, hfunction]

/-- Behind clauses a command runs once for every entity that they select. -/
theorem execute {self : Entity} {clauses : List Clause} {command : Command} {selves : List Entity}
    {world world' : World Entity Rest} {calls : List (Entity × Location)}
    (hselves : executors? game world clauses self = some selves)
    (h : Executes pack game (selves.map (·, command))
      { world with rest := game.remainder (.execute clauses command) world self } world' calls) :
    Executes pack game [(self, .execute clauses command)] world world' calls := by
  intro pending log
  refine .head ?_ (h pending log)
  simp [step, hselves]

end Executes

end Machine

end RigPack

import RigPack.Proofs.Playback.Frames
import RigPack.Proofs.Playback.Player

/-!
# The functions of an animation, as steps of a player

The root of a rig shows where the player of an animation stands (`Shows`): the tag
of the animation says whether it is active, and the time score is its time.  This
file shows that the functions by which an animation is controlled and driven move
the player as `Player.next` says (`Plays`).

## Strategy

The end of an animation asks for the loop mode by comparing scores, so one more
thing is kept: whether the score of the mode was noted.  It is noted before the
tag is put on, and nothing that the animation runs changes it later.
-/

namespace RigPack

namespace Blueprint

variable {Entity Rest : Type}

/-- How the view of the root shows where a player stands, and whether the loop mode was noted. -/
structure Shows (blueprint : Blueprint) (motion : Motion) (root : Entity) (view : View Entity)
    (player : Player) (noted : Bool) : Prop where
  active : view.tags (blueprint.names.activeTag motion.name) = player.active
  time : view.scores (.entity root, .time) = some (player.time : Int)
  /-- No other animation is played. -/
  others : ∀ other ∈ blueprint.motions, other.name ≠ motion.name →
    view.tags (blueprint.names.activeTag other.name) = false
  mode : noted = true → view.scores (.entity root, .loopMode) = some (motion.loopMode.score : Int)
  /-- A player that is active was started. -/
  started : player.active = true → noted = true
  /-- The scores of the modes are as loading the pack sets them. -/
  constants : ∀ mode, view.scores ((loopModeConstant mode).resolve root, .scratch)
    = some (mode.score : Int)

theorem activeTag_eq_iff {names : Naming} {animation other : String} :
    names.activeTag animation = names.activeTag other ↔ animation = other := by
  rw [Naming.activeTag, Naming.activeTag, String.append_right_inj]

namespace Shows

variable {blueprint : Blueprint} {motion : Motion} {root : Entity} {view : View Entity}
  {player : Player} {noted : Bool}

theorem setTag (h : blueprint.Shows motion root view player noted) {on : Bool}
    (hstarted : on = true → noted = true) :
    blueprint.Shows motion root (view.setTag (blueprint.names.activeTag motion.name) on)
      ⟨on, player.time⟩ noted := by
  refine ⟨?_, h.time, fun other hother hname => ?_, h.mode, hstarted, h.constants⟩
  · rw [View.tags_setTag, if_pos rfl]
  · rw [View.tags_setTag, if_neg (mt activeTag_eq_iff.1 hname)]
    exact h.others other hother hname

variable [DecidableEq Entity]

theorem setTime (h : blueprint.Shows motion root view player noted) (time : Nat) :
    blueprint.Shows motion root (view.setScore (.entity root, .time) time) ⟨player.active, time⟩
      noted := by
  refine ⟨h.active, ?_, h.others, fun hnoted => ?_, h.started, fun mode => ?_⟩
  · rw [View.scores_setScore, if_pos rfl]
  · rw [View.scores_setScore, if_neg (by simp)]
    exact h.mode hnoted
  · rw [View.scores_setScore, if_neg (by simp [loopModeConstant, Holder.resolve])]
    exact h.constants mode

theorem noteMode (h : blueprint.Shows motion root view player noted) :
    blueprint.Shows motion root
      (view.setScore (.entity root, .loopMode) motion.loopMode.score) player true := by
  refine ⟨h.active, ?_, h.others, fun _ => ?_, fun _ => rfl, fun mode => ?_⟩
  · rw [View.scores_setScore, if_neg (by simp)]
    exact h.time
  · rw [View.scores_setScore, if_pos rfl]
  · rw [View.scores_setScore, if_neg (by simp [loopModeConstant, Holder.resolve])]
    exact h.constants mode

end Shows

/-- The command by which a tick of the root reaches an animation. -/
def Motion.tickLine (names : Naming) (motion : Motion) : Command :=
  .execute [.ifTagged (names.activeTag motion.name)] (.run (motion.drive names "tick"))

/-! ## The files of a pack -/

section Layout

variable {blueprint : Blueprint} {settings : Settings}

theorem function?_of_motion (hsound : blueprint.Sound) {motion : Motion}
    (hmotion : motion ∈ blueprint.motions) {location : Location} {commands : List Command}
    (h : Placement.function location commands ∈ motion.layout blueprint.names) :
    (blueprint.pack settings).function? location.text = some commands := by
  refine hsound.function?_pack ?_
  have hmem := List.mem_flatMap.2 ⟨motion, hmotion, h⟩
  simp only [layout, List.mem_append]
  exact .inr hmem

theorem function?_of_look (hsound : blueprint.Sound) {look : Look}
    (hlook : look ∈ blueprint.looks) {location : Location} {commands : List Command}
    (h : Placement.function location commands ∈ look.layout blueprint.names) :
    (blueprint.pack settings).function? location.text = some commands := by
  refine hsound.function?_pack ?_
  have hmem := List.mem_flatMap.2 ⟨look, hlook, h⟩
  simp only [layout, List.mem_append]
  exact .inl (.inl (.inr hmem))

theorem function?_animationTick (hsound : blueprint.Sound) :
    (blueprint.pack settings).function?
        (blueprint.names.internalFunction ["animations", "tick"]).text
      = some (blueprint.motions.map (Motion.tickLine blueprint.names)) := by
  refine hsound.function?_pack ?_
  simp only [layout, List.mem_append]
  exact .inl (.inr (List.mem_singleton.2 rfl))

end Layout

end Blueprint

namespace Playback

open Blueprint Machine

variable {Entity Rest : Type} [DecidableEq Entity] {blueprint : Blueprint} {settings : Settings}
  {game : Game Entity Rest} {root : Entity} {motion : Motion}

/-- How commands move a player, and which frames they apply. -/
def Plays (blueprint : Blueprint) (settings : Settings) (game : Game Entity Rest) (root : Entity)
    (motion : Motion) (commands : List (Entity × Command)) (player : Player) (noted : Bool)
    (player' : Player) (noted' : Bool) (left : List (Entity × Nat)) : Prop :=
  ∀ view, blueprint.Shows motion root view player noted → ∃ view',
    Leads (blueprint.pack settings) game root
      (frameOf? blueprint.names motion.name motion.duration) commands view view' left ∧
    blueprint.Shows motion root view' player' noted'

namespace Plays

variable {player player' player'' : Player} {noted noted' noted'' : Bool}
  {left left' : List (Entity × Nat)}

theorem append {first second : List (Entity × Command)}
    (hfirst : Plays blueprint settings game root motion first player noted player' noted' left)
    (hsecond : Plays blueprint settings game root motion second player' noted' player'' noted''
      left') :
    Plays blueprint settings game root motion (first ++ second) player noted player'' noted''
      (left ++ left') := by
  intro view hview
  obtain ⟨view', hleads, hview'⟩ := hfirst view hview
  obtain ⟨view'', hleads', hview''⟩ := hsecond view' hview'
  exact ⟨view'', hleads.append hleads', hview''⟩

theorem cons {first : Entity × Command} {rest : List (Entity × Command)}
    (hfirst : Plays blueprint settings game root motion [first] player noted player' noted' left)
    (hrest : Plays blueprint settings game root motion rest player' noted' player'' noted'' left') :
    Plays blueprint settings game root motion (first :: rest) player noted player'' noted''
      (left ++ left') :=
  append hfirst hrest

/-- Commands that leave the view alone leave the player alone. -/
theorem of_still {commands : List (Entity × Command)}
    (h : ∀ view, blueprint.Shows motion root view player noted →
      Leads (blueprint.pack settings) game root
        (frameOf? blueprint.names motion.name motion.duration) commands view view left) :
    Plays blueprint settings game root motion commands player noted player noted left :=
  fun view hview => ⟨view, h view hview, hview⟩

/-- A function that is no frame moves the player as its commands do. -/
theorem call {location : Location} {commands : List Command}
    (hfunction : (blueprint.pack settings).function? location.text = some commands)
    (hlength : location.path.length ≠ 4)
    (h : Plays blueprint settings game root motion (commands.map (root, ·)) player noted player'
      noted' left) :
    Plays blueprint settings game root motion [(root, .run location)] player noted player' noted'
      left := by
  intro view hview
  obtain ⟨view', hleads, hview'⟩ := h view hview
  exact ⟨view', .call_unmarked hfunction (frameOf?_of_length hlength) hleads, hview'⟩

/-! ## Single commands -/

theorem rewind :
    Plays blueprint settings game root motion [(root, Motion.rewind)] player noted
      ⟨player.active, 0⟩ noted [] :=
  fun _ hview => ⟨_, .setScore root _ .self .time 0, hview.setTime 0⟩

/-- The time score counts the ticks. -/
theorem advance :
    Plays blueprint settings game root motion [(root, .addScore .self .time 1)] player noted
      ⟨player.active, player.time + 1⟩ noted [] := by
  intro view hview
  refine ⟨_, .addScore root view .self .time 1, ?_⟩
  have htime : (view.scores (Holder.self.resolve root, .time)).getD 0 + ((1 : Nat) : Int)
      = ((player.time + 1 : Nat) : Int) := by
    rw [Holder.resolve, hview.time, Option.getD_some, Int.natCast_add]
  rw [htime]
  exact hview.setTime (player.time + 1)

theorem activate :
    Plays blueprint settings game root motion [(root, motion.activate blueprint.names)] player true
      ⟨true, player.time⟩ true [] :=
  fun view hview => ⟨_, .addTag view _, hview.setTag fun _ => rfl⟩

theorem deactivate :
    Plays blueprint settings game root motion [(root, motion.deactivate blueprint.names)] player
      noted ⟨false, player.time⟩ noted [] :=
  fun view hview => ⟨_, .removeTag view _, hview.setTag (by simp)⟩

/-- The loop mode is noted; what else is prepared concerns the bones. -/
theorem prepare :
    Plays blueprint settings game root motion (motion.prepare.map (root, ·)) player noted player
      true [] := by
  intro view hview
  refine ⟨_, .cons (.setScore root view .self .loopMode motion.loopMode.score) ?_, hview.noteMode⟩
  exact Quiet.execute (by simp [Clause.isInterpreted]) (fun _ => .of_after? fun _ => rfl) root _

end Plays

/-! ## Controls -/

section Functions

variable (hsound : blueprint.Sound) (hmotion : motion ∈ blueprint.motions) {player : Player}
  {noted : Bool}

include hsound hmotion

/-- A function by which the animation is controlled moves the player as its commands do. -/
theorem Plays.control {action : String} {commands : List Command} {player' : Player}
    {noted' : Bool} {left : List (Entity × Nat)}
    (hmem : Placement.function (motion.control blueprint.names action) commands ∈
      motion.controls blueprint.names)
    (h : Plays blueprint settings game root motion (commands.map (root, ·)) player noted player'
      noted' left) :
    Plays blueprint settings game root motion
      [(root, .run (motion.control blueprint.names action))] player noted player' noted' left := by
  have hlayout := List.mem_append_left (motion.timelineLayout blueprint.names)
    (List.mem_append_left (motion.driving blueprint.names) hmem)
  refine .call (function?_of_motion hsound hmotion hlayout) ?_ h
  simp [Motion.control, Naming.publicFunction]

/-- So does one that drives it. -/
theorem Plays.drive {step : String} {commands : List Command} {player' : Player}
    {noted' : Bool} {left : List (Entity × Nat)}
    (hmem : Placement.function (motion.drive blueprint.names step) commands ∈
      motion.driving blueprint.names)
    (h : Plays blueprint settings game root motion (commands.map (root, ·)) player noted player'
      noted' left) :
    Plays blueprint settings game root motion
      [(root, .run (motion.drive blueprint.names step))] player noted player' noted' left := by
  have hlayout := List.mem_append_left (motion.timelineLayout blueprint.names)
    (List.mem_append_right (motion.controls blueprint.names) hmem)
  refine .call (function?_of_motion hsound hmotion hlayout) ?_ h
  simp [Motion.drive, Naming.internalFunction]

theorem plays_play :
    Plays blueprint settings game root motion
      [(root, .run (motion.control blueprint.names "play"))] player noted ⟨true, 0⟩ true [] := by
  have hmem : Placement.function (motion.control blueprint.names "play")
      ([Motion.rewind] ++ motion.prepare ++ [motion.activate blueprint.names]) ∈
        motion.controls blueprint.names := by simp [Motion.controls_eq]
  exact .control hsound hmotion hmem (.cons .rewind (.append .prepare .activate))

theorem plays_resume :
    Plays blueprint settings game root motion
      [(root, .run (motion.control blueprint.names "resume"))] player noted ⟨true, player.time⟩
      true [] := by
  have hmem : Placement.function (motion.control blueprint.names "resume")
      (motion.prepare ++ [motion.activate blueprint.names]) ∈
        motion.controls blueprint.names := by simp [Motion.controls_eq]
  exact .control hsound hmotion hmem (.append .prepare .activate)

theorem plays_pause :
    Plays blueprint settings game root motion
      [(root, .run (motion.control blueprint.names "pause"))] player noted ⟨false, player.time⟩
      noted [] := by
  have hmem : Placement.function (motion.control blueprint.names "pause")
      [motion.deactivate blueprint.names] ∈ motion.controls blueprint.names := by
    simp [Motion.controls_eq]
  exact .control hsound hmotion hmem .deactivate

theorem plays_stop :
    Plays blueprint settings game root motion
      [(root, .run (motion.control blueprint.names "stop"))] player noted ⟨false, 0⟩ noted [] := by
  have hmem : Placement.function (motion.control blueprint.names "stop")
      [Motion.rewind, motion.deactivate blueprint.names] ∈ motion.controls blueprint.names := by
    simp [Motion.controls_eq]
  exact .control hsound hmotion hmem (.cons .rewind .deactivate)

/-! ## The end of the animation -/

omit hsound hmotion in
theorem Plays.inMode {command : Command} {player' : Player} {left : List (Entity × Nat)}
    (h : Plays blueprint settings game root motion [(root, command)] player true player' true
      left) :
    Plays blueprint settings game root motion
      [(root, Motion.inMode motion.loopMode command)] player true player' true left := by
  intro view hview
  obtain ⟨view', hleads, hview'⟩ := h view hview
  exact ⟨view', .ifSameScore (hview.mode rfl) (hview.constants _) hleads, hview'⟩

omit hsound hmotion in
theorem Plays.inMode_skip {mode : LoopMode} (hmode : motion.loopMode ≠ mode) (command : Command) :
    Plays blueprint settings game root motion [(root, Motion.inMode mode command)] player true
      player true [] := by
  have hscore : (motion.loopMode.score : Int) ≠ mode.score := by
    revert hmode
    cases motion.loopMode <;> cases mode <;> simp [LoopMode.score]
  exact .of_still fun view hview =>
    .ifSameScore_skip (hview.mode rfl) (hview.constants mode) hscore command

/-- At the end an active player does what the loop mode says. -/
theorem plays_end {time : Nat} (htime : motion.duration ≤ time) :
    Plays blueprint settings game root motion
      [(root, .run (motion.drive blueprint.names "end"))] ⟨true, time⟩ true
      (Player.arrive motion.loopMode motion.duration time) true [] := by
  have hmem : Placement.function (motion.drive blueprint.names "end")
      (motion.endCommands blueprint.names) ∈ motion.driving blueprint.names := by
    simp [Motion.driving_eq]
  refine .drive hsound hmotion hmem ?_
  rw [Player.arrive.eq_def, if_neg (Nat.not_lt.2 htime)]
  have hinMode {command : Command} {player' : Player}
      (h : Plays blueprint settings game root motion [(root, command)] ⟨true, time⟩ true player'
        true []) := Plays.inMode h
  -- of the three commands the one of the mode is run, and leaves the scores of the modes alone
  cases hmode : motion.loopMode with
  | loop =>
      rw [hmode] at hinMode
      exact .cons (hinMode .rewind) (.cons (.inMode_skip (by simp [hmode]) _)
        (.inMode_skip (by simp [hmode]) _))
  | once =>
      rw [hmode] at hinMode
      exact .cons (.inMode_skip (by simp [hmode]) _) (.cons (hinMode (plays_stop hsound hmotion))
        (.inMode_skip (by simp [hmode]) _))
  | hold =>
      rw [hmode] at hinMode
      exact .cons (.inMode_skip (by simp [hmode]) _) (.cons (.inMode_skip (by simp [hmode]) _)
        (hinMode (plays_pause hsound hmotion)))

end Functions

/-! ## What the timeline needs -/

/-- A function that puts on a look is quiet. -/
theorem quiet_variant (hsound : blueprint.Sound) {look : Look} (hlook : look ∈ blueprint.looks)
    (animation : String) (count : Nat) (self : Entity) :
    Quiet (blueprint.pack settings) game root (frameOf? blueprint.names animation count) self
      (.run (blueprint.names.variantAsRoot look.name)) := by
  have hroot : (blueprint.pack settings).function? (blueprint.names.variantAsRoot look.name).text
      = some [.execute [.onPassengers] (.run (blueprint.names.variantAsBone look.name))] :=
    function?_of_look hsound hlook (by simp [Look.layout_eq])
  have hbone : (blueprint.pack settings).function? (blueprint.names.variantAsBone look.name).text
      = some (look.boneCommands blueprint.names) :=
    function?_of_look hsound hlook (by simp [Look.layout_eq])
  have hbone_quiet (self : Entity) : Quiet (blueprint.pack settings) game root
      (frameOf? blueprint.names animation count) self
      (.run (blueprint.names.variantAsBone look.name)) := by
    refine .call hbone (frameOf?_of_length (by simp [Naming.variantAsBone,
      Naming.internalFunction])) fun command hcommand => ?_
    obtain ⟨⟨bone, model⟩, -, rfl⟩ := List.mem_map.1 hcommand
    exact .execute (by simp [Clause.isInterpreted]) (fun self => .of_after? fun world => rfl) self
  refine .call hroot (frameOf?_of_length (by simp [Naming.variantAsRoot,
    Naming.internalFunction])) fun command hcommand => ?_
  obtain rfl := List.mem_singleton.1 hcommand
  exact .execute (by simp [Clause.isInterpreted]) hbone_quiet self

/-- A pack holds what the timeline of an animation needs. -/
theorem carries (hsound : blueprint.Sound) (hmotion : motion ∈ blueprint.motions) (count : Nat) :
    Carries (blueprint.pack settings) game root (frameOf? blueprint.names motion.name count)
      blueprint.names motion.name motion.timeline := by
  refine ⟨fun unit hunit => ?_, fun index frame hleaf switch hswitch self => ?_⟩
  · refine function?_of_motion hsound hmotion (List.mem_append_right _ ?_)
    exact List.mem_map.2 ⟨unit, hunit, rfl⟩
  · obtain ⟨look, hlook, hname⟩ := hsound.switches motion hmotion index frame hleaf switch hswitch
    rw [← hname]
    exact quiet_variant hsound hlook motion.name count self

/-! ## A tick of the animation -/

/-- Animations that are not played do not go on. -/
theorem plays_unplayed {group : List Motion} {player : Player} {noted : Bool}
    (h : ∀ other ∈ group, ∀ view, blueprint.Shows motion root view player noted →
      view.tags (blueprint.names.activeTag other.name) = false) :
    Plays blueprint settings game root motion
      ((group.map (Motion.tickLine blueprint.names)).map (root, ·)) player noted player noted
      [] := by
  refine .of_still fun view hview => .of_forall fun command hcommand => ?_
  rw [List.map_map] at hcommand
  obtain ⟨other, hother, rfl⟩ := List.mem_map.1 hcommand
  exact .ifTagged_skip (h other hother view hview) _

section Tick

variable (hsound : blueprint.Sound) (hmotion : motion ∈ blueprint.motions)
  (hgame : game.Spares root) (hmin : motion.timeline.min = 0)
  (hmax : motion.timeline.max + 1 = motion.duration) {player : Player} {noted : Bool}

include hsound hmotion hgame hmin hmax

/-- The frame at which the player stands is applied, if there is one. -/
theorem plays_applyFrame :
    Plays blueprint settings game root motion
      [(root, .run (motion.drive blueprint.names "apply_frame"))] player noted player noted
      (if player.time < motion.duration then [(root, player.time)] else []) := by
  have hmem : Placement.function (motion.drive blueprint.names "apply_frame")
      [Timeline.dispatch blueprint.names motion.name motion.timeline] ∈
        motion.driving blueprint.names := by simp [Motion.driving_eq]
  refine .drive hsound hmotion hmem (.of_still fun view hview => ?_)
  exact (carries hsound hmotion motion.duration).leads_frame hgame
    (hsound.partition motion hmotion) hmin hmax hview.time

/-- An active player applies a frame, and goes on to the next one or comes to its end. -/
theorem plays_drive {time : Nat} :
    Plays blueprint settings game root motion
      [(root, .run (motion.drive blueprint.names "tick"))] ⟨true, time⟩ true
      (Player.arrive motion.loopMode motion.duration (time + 1)) true
      (if time < motion.duration then [(root, time)] else []) := by
  have hmem : Placement.function (motion.drive blueprint.names "tick")
      (motion.tickCommands blueprint.names) ∈ motion.driving blueprint.names := by
    simp [Motion.driving_eq]
  have hend : Plays blueprint settings game root motion
      [(root, .execute [.ifScore .self .time (.atLeast motion.duration)]
        (.run (motion.drive blueprint.names "end")))] ⟨true, time + 1⟩ true
      (Player.arrive motion.loopMode motion.duration (time + 1)) true [] := by
    intro view hview
    -- the range of the test starts at the number of frames
    by_cases htime : motion.duration ≤ time + 1
    · obtain ⟨view', hleads, hview'⟩ := plays_end hsound hmotion htime view hview
      exact ⟨view', .ifScore hview.time (Int.ofNat_le.2 htime) hleads, hview'⟩
    · have harrive : Player.arrive motion.loopMode motion.duration (time + 1) = ⟨true, time + 1⟩ :=
        if_pos (Nat.lt_of_not_le htime)
      have hrange : ¬ (ScoreRange.atLeast motion.duration).Has ((time + 1 : Nat) : Int) :=
        fun hhas => htime (Int.ofNat_le.1 hhas)
      rw [harrive]
      exact ⟨view, .ifScore_skip hview.time hrange _, hview⟩
  refine .drive hsound hmotion hmem ?_
  have hadvance : Plays blueprint settings game root motion [(root, .addScore .self .time 1)]
      ⟨true, time⟩ true ⟨true, time + 1⟩ true [] := .advance
  have hall := Plays.cons (plays_applyFrame hsound hmotion hgame hmin hmax)
    (.cons hadvance hend)
  rwa [List.nil_append, List.append_nil] at hall

/-- Of an animation that is played the root runs the tick. -/
theorem plays_driven (hactive : player.active = true) :
    Plays blueprint settings game root motion
      [(root, motion.tickLine blueprint.names)] player noted
      (player.next motion.loopMode motion.duration .tick) noted
      ((player.applied motion.duration .tick).map (root, ·)) := by
  intro view hview
  -- a player that is active was started, so the loop mode is noted
  obtain rfl : noted = true := hview.started hactive
  obtain ⟨active, time⟩ := player
  obtain rfl : active = true := hactive
  obtain ⟨view', hleads, hview'⟩ := plays_drive hsound hmotion hgame hmin hmax view hview
  have happlied : (Player.applied motion.duration ⟨true, time⟩ .tick).map (root, ·)
      = if time < motion.duration then [(root, time)] else [] := by
    by_cases htime : time < motion.duration <;> simp [Player.applied, htime]
  rw [happlied]
  exact ⟨view', .ifTagged hview.active hleads, hview'⟩

/-- A tick of the root moves the player of the animation. -/
theorem plays_tick :
    Plays blueprint settings game root motion
      [(root, .run (blueprint.names.internalFunction ["animations", "tick"]))] player noted
      (player.next motion.loopMode motion.duration .tick) noted
      ((player.applied motion.duration .tick).map (root, ·)) := by
  refine .call (function?_animationTick hsound) (by simp [Naming.internalFunction]) ?_
  cases hactive : player.active with
  | false =>
      -- no animation is played, and no line of the tick is run
      have hnext : player.next motion.loopMode motion.duration .tick = player := by
        rw [Player.next, hactive, if_neg Bool.false_ne_true]
      have happlied : player.applied motion.duration .tick = [] :=
        if_neg fun h => Bool.false_ne_true (hactive.symm.trans h.1)
      rw [hnext, happlied]
      refine plays_unplayed fun other hother view hview => ?_
      by_cases hname : other.name = motion.name
      · rw [hname, hview.active, hactive]
      · exact hview.others other hother hname
  | true =>
      obtain ⟨before, after, hsplit⟩ := List.append_of_mem hmotion
      have hnodup := hsound.motions_nodup
      rw [hsplit, List.map_append, List.map_cons, List.nodup_middle, List.nodup_cons,
        ← List.map_append] at hnodup
      -- names differ, so every other line asks for a tag that is not there
      have hothers (group : List Motion) (hgroup : ∀ other ∈ group, other ∈ before ++ after)
          (player : Player) (noted : Bool) :
          Plays blueprint settings game root motion
            ((group.map (Motion.tickLine blueprint.names)).map (root, ·)) player noted player noted
            [] := by
        refine plays_unplayed fun other hother view hview => ?_
        have hmem := hgroup other hother
        refine hview.others other ?_ fun hname => ?_
        · rw [hsplit]
          simp only [List.mem_append, List.mem_cons] at hmem ⊢
          exact hmem.imp_right .inr
        · exact hnodup.1 (hname ▸ List.mem_map.2 ⟨other, hmem, rfl⟩)
      have hbefore := hothers before (fun other hother => List.mem_append_left _ hother) player
        noted
      have hafter := hothers after (fun other hother => List.mem_append_right _ hother)
        (player.next motion.loopMode motion.duration .tick) noted
      have hall := hbefore.append
        (.cons (plays_driven hsound hmotion hgame hmin hmax hactive) hafter)
      rw [List.nil_append, List.append_nil] at hall
      rw [hsplit, List.map_append, List.map_append]
      exact hall

end Tick

end Playback

end RigPack

import RigPack.Proofs.Playback.Controls

/-!
# Generated functions play an animation

Loading a pack sets the scores of the loop modes, and from then on the functions of
an animation do to the root what the `Player` does: after any sequence of controls
and ticks its tag and its time score show where the player stands, and the frames
that were applied are those of the player.  The lines of these functions are read as the
commands that are run here (`Playback.readsBack_of_build`).

## Main statements

* `playback_simulates`: the run ends, whatever the events are, where the player ends;
  by `Machine.Ends.unique` it is the only run.
-/

namespace RigPack

/-- The function that an event runs. -/
def PlaybackEvent.function (names : Naming) (animation : String) : PlaybackEvent → Location
  | .play => names.publicFunction ["animations", animation, "play"]
  | .resume => names.publicFunction ["animations", animation, "resume"]
  | .pause => names.publicFunction ["animations", animation, "pause"]
  | .stop => names.publicFunction ["animations", animation, "stop"]
  | .tick => names.internalFunction ["animations", "tick"]

/-- The names of what an export of the project generates. -/
def Project.names (project : Project) : Naming :=
  ⟨project.space⟩

namespace Playback

open Blueprint Machine

/-- The commands that load a pack and have the root run the functions of some events. -/
def session {Entity : Type} (names : Naming) (animation : String) (server root : Entity)
    (events : List PlaybackEvent) : List (Entity × Command) :=
  (server, .run (names.internalFunction ["load"]))
    :: events.map fun event => (root, .run (event.function names animation))

variable {Entity Rest : Type} [DecidableEq Entity] {blueprint : Blueprint} {settings : Settings}
  {game : Game Entity Rest} {root : Entity} {motion : Motion}

section Events

variable (settings) (hsound : blueprint.Sound) (hmotion : motion ∈ blueprint.motions)
  (hgame : game.Spares root) (hmin : motion.timeline.min = 0)
  (hmax : motion.timeline.max + 1 = motion.duration)

include hsound hmotion hgame hmin hmax

/-- Every event moves the player as it should. -/
theorem plays_event (event : PlaybackEvent) (player : Player) (noted : Bool) :
    ∃ noted', Plays blueprint settings game root motion
      [(root, .run (event.function blueprint.names motion.name))] player noted
      (player.next motion.loopMode motion.duration event) noted'
      ((player.applied motion.duration event).map (root, ·)) := by
  cases event with
  | play => exact ⟨true, plays_play hsound hmotion⟩
  | resume => exact ⟨true, plays_resume hsound hmotion⟩
  | pause => exact ⟨noted, plays_pause hsound hmotion⟩
  | stop => exact ⟨noted, plays_stop hsound hmotion⟩
  | tick => exact ⟨noted, plays_tick hsound hmotion hgame hmin hmax⟩

/-- So do several events, one after the other. -/
theorem plays_events (events : List PlaybackEvent) (player : Player) (noted : Bool) :
    ∃ noted', Plays blueprint settings game root motion
      (events.map fun event => (root, .run (event.function blueprint.names motion.name))) player
      noted (player.after motion.loopMode motion.duration events) noted'
      ((player.frames motion.loopMode motion.duration events).map (root, ·)) := by
  induction events generalizing player noted with
  | nil => exact ⟨noted, .of_still fun view _ => .nil view⟩
  | cons event events ih =>
      obtain ⟨noted', hevent⟩ :=
        plays_event settings hsound hmotion hgame hmin hmax event player noted
      obtain ⟨noted'', hevents⟩ := ih (player.next motion.loopMode motion.duration event) noted'
      refine ⟨noted'', ?_⟩
      rw [Player.frames, List.map_append]
      exact .cons hevent hevents

end Events

/-! ## Loading -/

/-- Once the pack is loaded, a root on which nothing was played shows a player at rest. -/
theorem leads_load (settings : Settings) (game : Game Entity Rest) (hsound : blueprint.Sound)
    (hmotion : motion ∈ blueprint.motions) (server : Entity) {view : View Entity}
    (htime : view.scores (.entity root, .time) = some 0)
    (htags : ∀ other ∈ blueprint.motions,
      view.tags (blueprint.names.activeTag other.name) = false) :
    ∃ view', Leads (blueprint.pack settings) game root
        (frameOf? blueprint.names motion.name motion.duration)
        [(server, .run (blueprint.names.internalFunction ["load"]))] view view' [] ∧
      blueprint.Shows motion root view' ⟨false, 0⟩ false := by
  have hfunction : (blueprint.pack settings).function?
      (blueprint.names.internalFunction ["load"]).text = some (loadCommands settings) := by
    refine hsound.function?_pack ?_
    simp [layout, loadAndTick_eq]
  have hobjectives : Leads (blueprint.pack settings) game root
      (frameOf? blueprint.names motion.name motion.duration)
      ((Objective.all.map Command.addObjective).map (server, ·)) view view [] := by
    refine Quiet.leads view fun pair hpair => ?_
    rw [List.map_map] at hpair
    obtain ⟨objective, -, rfl⟩ := List.mem_map.1 hpair
    exact .of_after? fun world => rfl
  have hload := hobjectives.append (.cons (.addScore server view lastId .id 0)
    (.cons (.setScore server _ interpolationTicks .scratch settings.interpolation.toNat)
      (.cons (.setScore server _ (loopModeConstant .loop) .scratch LoopMode.loop.score)
        (.cons (.setScore server _ (loopModeConstant .once) .scratch LoopMode.once.score)
          (.setScore server _ (loopModeConstant .hold) .scratch LoopMode.hold.score)))))
  have hmark : frameOf? blueprint.names motion.name motion.duration
      (blueprint.names.internalFunction ["load"]) = none :=
    frameOf?_of_length (by simp [Naming.internalFunction])
  refine ⟨_, .call_unmarked hfunction hmark hload, htags motion hmotion, ?_,
    fun other hother _ => htags other hother, by simp, by simp, fun mode => ?_⟩
  · -- only scores of fixed names are set, and the root is none of them
    simp [View.scores_setScore, htime, lastId, interpolationTicks, loopModeConstant,
      Holder.resolve]
  · cases mode <;> simp [View.scores_setScore, loopModeConstant, Holder.resolve, LoopMode.word]

/-! ## Playback -/

/-- The timeline of an animation that was accepted has a frame for each tick. -/
theorem range_of_ofAnimation {rig : Rig} {variants : VariantSet} {animation : Animation}
    {motion : Motion} (h : Motion.ofAnimation rig variants animation = .ok motion) :
    motion.timeline.min = 0 ∧ motion.timeline.max + 1 = animation.frames.length := by
  obtain ⟨frames, hframes, htimeline, -, -⟩ := ofAnimation_eq_ok h
  obtain ⟨hne, rfl⟩ := RangeTree.ofTimeline_eq_ok hframes
  have hpos : 0 < animation.frames.length := List.length_pos_iff.2 hne
  obtain ⟨hmin, hmax⟩ := RangeTree.range_of_traverse htimeline
  refine ⟨hmin.trans (RangeTree.balanced_min ..), ?_⟩
  rw [hmax, RangeTree.balanced_max]
  omega

end Playback

open Blueprint Playback

/-- The functions of an accepted project play its animations.  Started by loading the pack, on
a root whose time score is zero and on which no animation is played, the run of any controls of an
animation and ticks comes to an end.  There the tag of the animation and the time score show
the player at which the events arrive, and the frames that were applied, all by the root, are
those of the player in order. -/
theorem playback_simulates {settings : Settings} {project : Project} {pack : Folder}
    (hbuild : Export.build settings project = .ok pack) {animation : Animation}
    (hanimation : animation ∈ project.animations) {Entity Rest : Type} [DecidableEq Entity]
    {game : Game Entity Rest} {root : Entity} (hgame : game.Spares root) (server : Entity)
    {world : World Entity Rest} (htime : world.scores (.entity root, .time) = some 0)
    (htags : ∀ other ∈ project.animations,
      world.tags root (project.names.activeTag other.name) = false)
    (events : List PlaybackEvent) :
    ∃ final : Machine Entity Rest,
      Machine.Ends pack game
        ⟨session project.names animation.name server root events, world, []⟩ final ∧
      final.world.tags root (project.names.activeTag animation.name)
        = (Player.after animation.loopMode animation.frames.length ⟨false, 0⟩ events).active ∧
      final.world.scores (.entity root, .time)
        = some ((Player.after animation.loopMode animation.frames.length ⟨false, 0⟩
            events).time : Int) ∧
      Machine.marks (frameOf? project.names animation.name animation.frames.length) final.calls
        = (Player.frames animation.loopMode animation.frames.length ⟨false, 0⟩ events).map
            (root, ·) := by
  obtain ⟨blueprint, haccepted, hblueprint, rfl⟩ := Export.build_eq_ok hbuild
  have hsound := sound_of_build haccepted hblueprint
  obtain ⟨variants, -, hnames, -, hmotions⟩ := Export.ofProject_eq_ok hblueprint
  obtain ⟨motion, hmotion, hok⟩ := exists_right_of_forall₂ hmotions hanimation
  obtain ⟨-, -, -, hlength, hmade⟩ := ofAnimation_eq_ok hok
  have hname : motion.name = animation.name := congrArg Motion.name hmade
  have hmode : motion.loopMode = animation.loopMode := congrArg Motion.loopMode hmade
  have hduration : motion.duration = animation.frames.length :=
    (congrArg Motion.duration hmade).trans hlength.symm
  obtain ⟨hmin, hmax⟩ := range_of_ofAnimation hok
  rw [← hduration] at hmax
  have hproject : project.names = blueprint.names := hnames.symm
  have htags' : ∀ other ∈ blueprint.motions,
      (world.view root).tags (blueprint.names.activeTag other.name) = false := by
    intro other hother
    obtain ⟨animation', hanimation', hok'⟩ := exists_left_of_forall₂ hmotions hother
    obtain ⟨-, -, -, -, hmade'⟩ := ofAnimation_eq_ok hok'
    rw [congrArg Motion.name hmade', ← hproject]
    exact htags animation' hanimation'
  -- the run of the load function, and behind it that of the events
  obtain ⟨view, hload, hview⟩ :=
    leads_load settings game hsound hmotion server htime htags'
  obtain ⟨noted, hevents⟩ :=
    plays_events settings hsound hmotion hgame hmin hmax events ⟨false, 0⟩ false
  obtain ⟨view', hleads, hview'⟩ := hevents view hview
  obtain ⟨world', calls, hexecutes, hworld', hmarks⟩ := hload.append hleads world rfl
  subst hworld'
  have hreaches := hexecutes [] []
  rw [List.append_nil] at hreaches
  rw [hproject, ← hname, ← hmode, ← hduration]
  exact ⟨⟨[], world', calls⟩, ⟨hreaches, rfl⟩, hview'.active, hview'.time, hmarks⟩

/-- An animation of two frames that is played once applies both, and then stands at its start. -/
theorem playback_simulates_of_two_frames :
    ∃ (project : Project) (pack : Folder) (final : Machine Nat Unit) (world : World Nat Unit),
      Export.build ⟨"packs", 1, 12⟩ project = .ok pack ∧
      Machine.Ends pack ⟨fun _ _ self => [self], fun _ world _ => world, fun _ _ _ => ()⟩
        ⟨session project.names "walk" 7 0 [.play, .tick, .tick, .tick], world, []⟩ final ∧
      final.world.tags 0 (project.names.activeTag "walk") = false ∧
      final.world.scores (.entity 0, .time) = some 0 ∧
      Machine.marks (frameOf? project.names "walk" 2) final.calls = [(0, 0), (0, 1)] := by
  let walk : Animation :=
    ⟨"walk", 2, .once, [⟨0, .empty, some ⟨"say hi", none⟩, none⟩, ⟨1, .empty, none, none⟩]⟩
  let project : Project :=
    ⟨"fox", "stick", default, [⟨"plain", true, [], false⟩], [walk]⟩
  let world : World Nat Unit :=
    ⟨fun _ _ => false, fun score => if score = (.entity 0, .time) then some 0 else none,
      fun _ => [1], ()⟩
  have haccepted : (Export.build ⟨"packs", 1, 12⟩ project).toOption.isSome = true := by
    decide +kernel
  cases hbuild : Export.build ⟨"packs", 1, 12⟩ project with
  | error fault =>
      rw [hbuild] at haccepted
      contradiction
  | ok pack =>
      have hwalk : walk ∈ project.animations := List.mem_singleton.2 rfl
      have hgame : Game.Spares (⟨fun _ _ self => [self], fun _ world _ => world,
          fun _ _ _ => ()⟩ : Game Nat Unit) 0 := fun _ _ _ => rfl
      have hstart : world.scores (.entity 0, .time) = some 0 := rfl
      obtain ⟨final, hends, htag, htime, hframes⟩ := playback_simulates hbuild hwalk hgame 7 hstart
        (fun _ _ => rfl) [.play, .tick, .tick, .tick]
      exact ⟨project, pack, final, world, hbuild, hends, htag, htime, hframes⟩

end RigPack

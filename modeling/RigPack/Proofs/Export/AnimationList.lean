import RigPack.Proofs.Export.Validity
import RigPack.Proofs.Pack.OneLine

/-!
# Animations are exported one by one

Every animation brings functions of its own, and one line to the function that goes on with
all animations that a root plays.  What it brings does not depend on which animations there
are beside it, nor on where it stands among them.

## Strategy

A file of a pack is the function that goes on with the animations, or it is placed for one of
the animations, or it would be there without any (`mem_layout_iff`).  So with other animations
there are the files of those that both lists have (`file?_of_subset`), and a new file is one
of a new animation (`exists_motion_of_new`).  These lie in folders of its name
(`dir_of_mem_motion_functions`).

## Main statement

* `animations_independent`: what comes of a list of animations in another order, and of one
  with an animation more.
-/

namespace RigPack

open Placement

namespace Blueprint

/-! ## The files of animations -/

/-- The blueprint without its animations. -/
def still (blueprint : Blueprint) : Blueprint :=
  { blueprint with motions := [] }

/-- Where the function stands that goes on with all animations. -/
def tickPlace (names : Naming) : List String × String :=
  (["data", names.internal, "functions", "animations"], "tick.mcfunction")

/-- Any other file is placed for one of the animations, or would be there without any. -/
theorem mem_layout_iff {blueprint : Blueprint} {settings : Settings} {dir : List String}
    {name : String} {content : Content} (hplace : (dir, name) ≠ tickPlace blueprint.names) :
    .file dir name content ∈ blueprint.layout settings ↔
      .file dir name content ∈ blueprint.still.layout settings ∨
      ∃ motion ∈ blueprint.motions, .file dir name content ∈ motion.layout blueprint.names := by
  have htick {other : Blueprint} (hnames : other.names = blueprint.names) :
      .file dir name content ≠ other.animationTick := by
    intro h
    have hsame : some (dir, name) = some (tickPlace other.names) := congrArg place? h
    exact hplace (hnames ▸ Option.some.inj hsame)
  have hold := htick (rfl : blueprint.names = blueprint.names)
  have hstill := htick (rfl : blueprint.still.names = blueprint.names)
  change _ ↔ .file dir name content ∈ metadata blueprint.names settings ++ groups blueprint.names
      ++ loadAndTick blueprint.names settings ++ blueprint.summoning settings
      ++ removal blueprint.names ++ blueprint.looks.flatMap (Look.layout blueprint.names)
      ++ [blueprint.still.animationTick] ++ [] ∨ _
  simp only [layout, List.mem_append, List.mem_singleton, List.mem_flatMap, hold, hstill,
    List.not_mem_nil, or_false]

theorem eq_of_file? {blueprint : Blueprint} {settings : Settings} {dir : List String}
    {name : String} {file : PackFile} (h : (blueprint.pack settings).file? dir name = some file) :
    file = ⟨name, file.content⟩ := by
  rw [Folder.file?_eq] at h
  have hname := List.find?_some h
  rw [← of_decide_eq_true hname]

/-- The functions of an animation lie in folders of its name. -/
theorem dir_of_mem_motion_functions {names : Naming} {motion : Motion} {location : Location}
    (h : location ∈ motion.functions names) :
    ∃ space ∈ [names.space, names.internal],
      ["data", space, "functions", "animations", motion.name] <+: (functionPlace location).1 := by
  have hspace : location.space ∈ [names.space, names.internal] := by
    simp only [Motion.functions, List.mem_append, List.mem_map] at h
    rcases h with (⟨action, -, rfl⟩ | ⟨step, -, rfl⟩) | ⟨unit, -, rfl⟩
    · exact List.mem_cons_self ..
    · exact List.mem_cons_of_mem _ (List.mem_cons_self ..)
    · exact List.mem_cons_of_mem _ (List.mem_cons_self ..)
  obtain ⟨rest, hrest, hpath⟩ := path_of_mem_motion_functions h
  obtain ⟨front, last, rfl⟩ : ∃ front last, rest = front ++ [last] :=
    ⟨_, _, (List.dropLast_concat_getLast hrest).symm⟩
  refine ⟨location.space, hspace, front, ?_⟩
  have hdrop : location.path.dropLast = "animations" :: motion.name :: front := by
    rw [hpath, ← List.cons_append, ← List.cons_append, List.dropLast_concat]
  rw [functionPlace, resourcePlace, hdrop]
  rfl

section

variable {blueprint other : Blueprint} (hstill : other.still = blueprint.still)
  {settings : Settings} {dir : List String} {name : String}

include hstill

theorem names_of_still : other.names = blueprint.names :=
  congrArg (·.names) hstill

/-- Files stay as they were if all animations are still there. -/
theorem file?_of_subset (hother : other.Sound) (hsubset : blueprint.motions ⊆ other.motions)
    (hplace : (dir, name) ≠ tickPlace blueprint.names) {file : PackFile}
    (hfile : (blueprint.pack settings).file? dir name = some file) :
    (other.pack settings).file? dir name = some file := by
  have hnames := names_of_still hstill
  have hmem := (mem_layout_iff hplace).1 (mem_layout_of_file? hfile)
  rw [eq_of_file? hfile]
  refine hother.file?_pack ((mem_layout_iff (hnames ▸ hplace)).2 ?_)
  rw [hstill, hnames]
  rcases hmem with hfixed | ⟨motion, hmotion, hmem⟩
  · exact .inl hfixed
  · exact .inr ⟨motion, hsubset hmotion, hmem⟩

/-- A new file is a function of a new animation. -/
theorem exists_motion_of_new (hsound : blueprint.Sound)
    (hnew : ((other.pack settings).file? dir name).isSome = true)
    (hnone : (blueprint.pack settings).file? dir name = none) :
    ∃ motion ∈ other.motions, motion ∉ blueprint.motions ∧
      ∃ location ∈ motion.functions blueprint.names, functionPlace location = (dir, name) := by
  have hnames := names_of_still hstill
  have hnot {content : Content} : .file dir name content ∉ blueprint.layout settings := by
    intro hmem
    rw [hsound.file?_pack hmem] at hnone
    contradiction
  have hplace : (dir, name) ≠ tickPlace blueprint.names := by
    intro h
    obtain ⟨rfl, rfl⟩ := Prod.mk.inj h
    exact hnot (blueprint.animationTick_mem_layout settings)
  obtain ⟨file, hfile⟩ := Option.isSome_iff_exists.1 hnew
  have hmem := (mem_layout_iff (hnames ▸ hplace)).1 (mem_layout_of_file? hfile)
  rw [hstill, hnames] at hmem
  rcases hmem with hfixed | ⟨motion, hmotion, hmem⟩
  · exact absurd ((mem_layout_iff hplace).2 (.inl hfixed)) hnot
  · refine ⟨motion, hmotion, fun hold => ?_, ?_⟩
    · exact hnot ((mem_layout_iff hplace).2 (.inr ⟨motion, hold, hmem⟩))
    · have hfunction : (dir, name) ∈ (motion.layout blueprint.names).filterMap place? :=
        List.mem_filterMap.2 ⟨_, hmem, rfl⟩
      rw [places_motion] at hfunction
      exact List.mem_map.1 hfunction

end

/-! ## The animations of a project -/

/-- Two projects that differ in their animations only have blueprints that differ in theirs,
and an animation comes to the same in both. -/
theorem ofProject_animations {project : Project} {animations : List Animation}
    {blueprint other : Blueprint} (h : ofProject project = .ok blueprint)
    (h' : ofProject { project with animations } = .ok other) :
    other.still = blueprint.still ∧
    ∃ compile : Animation → Except Defect Motion,
      (∀ animation motion, compile animation = .ok motion → motion.name = animation.name) ∧
      project.animations.mapM compile = .ok blueprint.motions ∧
      animations.mapM compile = .ok other.motions := by
  simp only [ofProject, bind_eq_ok, pure_eq_ok] at h h'
  obtain ⟨set, hset, parts, hparts, looks, hlooks, motions, hmotions, rfl⟩ := h
  obtain ⟨set', hset', parts', hparts', looks', hlooks', motions', hmotions', rfl⟩ := h'
  obtain rfl := Except.ok.inj (hset.symm.trans hset')
  obtain rfl := Except.ok.inj (hparts.symm.trans hparts')
  obtain rfl := Except.ok.inj (hlooks.symm.trans hlooks')
  refine ⟨rfl, Motion.ofAnimation project.rig set, fun animation motion hok => ?_, hmotions,
    hmotions'⟩
  obtain ⟨-, -, -, -, hmotion⟩ := ofAnimation_eq_ok hok
  rw [hmotion]

end Blueprint

namespace Export

/-! ## Validity -/

/-- Nothing that is asked of a project depends on the order of its animations. -/
theorem Valid.perm {settings : Settings} {project : Project} {animations : List Animation}
    (h : Valid settings project) (hperm : animations.Perm project.animations) :
    Valid settings { project with animations } := by
  have hmem {animation : Animation} (hanimation : animation ∈ animations) :
      animation ∈ project.animations := hperm.mem_iff.1 hanimation
  exact {
    folder := h.folder
    space := h.space
    item := h.item
    interpolation := h.interpolation
    durations := fun animation hanimation => h.durations animation (hmem hanimation)
    animation_names := fun animation hanimation => h.animation_names animation (hmem hanimation)
    variant_names := h.variant_names
    bone_names := h.bone_names
    animations_nodup := (hperm.map (·.name)).nodup_iff.2 h.animations_nodup
    variants_nodup := h.variants_nodup
    one_default := h.one_default
    rest := h.rest
    models := h.models
    frame_counts := fun animation hanimation => h.frame_counts animation (hmem hanimation)
    frame_numbers := fun animation hanimation => h.frame_numbers animation (hmem hanimation)
    poses := fun animation hanimation => h.poses animation (hmem hanimation)
    switches := fun animation hanimation => h.switches animation (hmem hanimation) }

/-! ## Packs -/

/-- The line by which a root goes on with an animation that it plays. -/
def tickLine (names : Naming) (animation : Animation) : String :=
  (Command.execute [.ifTagged (names.activeTag animation.name)]
    (.run (names.internalFunction ["animations", animation.name, "tick"]))).text

/-- Whether the function that goes on with animations has a line for each of the given ones, in
their order, and no other line. -/
def Ticks (names : Naming) (pack : Folder) (animations : List Animation) : Prop :=
  ∃ file, pack.file? (Blueprint.tickPlace names).1 (Blueprint.tickPlace names).2 = some file ∧
    Text.closedLines file.content.text = animations.map (tickLine names)

theorem ticks_of_build {settings : Settings} {project : Project} {pack : Folder}
    (h : build settings project = .ok pack) : Ticks ⟨project.space⟩ pack project.animations := by
  obtain ⟨blueprint, haccepted, hblueprint, rfl⟩ := build_eq_ok h
  have hsound := Blueprint.sound_of_build haccepted hblueprint
  have hnamed := Blueprint.named_of_build haccepted hblueprint
  have hnames := names_ofProject hblueprint
  have hone := Blueprint.oneLined_animationTick hnamed
  rw [Blueprint.animationTick_eq, Blueprint.oneLined_function] at hone
  rw [← hnames]
  refine ⟨_, hsound.file?_pack (blueprint.animationTick_mem_layout settings), ?_⟩
  refine (Text.closedLines_unlines_iff.2 ?_).trans ?_
  · exact List.forall_mem_map.2 fun command hcommand =>
      (Command.isOneLine_text_iff command).2 (hone command hcommand)
  · -- a line shows nothing of an animation but its name
    have hlines := congrArg (List.map fun name => (Command.execute
      [.ifTagged (blueprint.names.activeTag name)]
      (.run (blueprint.names.internalFunction ["animations", name, "tick"]))).text)
      (Blueprint.names_motions hblueprint)
    rw [List.map_map, List.map_map] at hlines
    rw [List.map_map]
    exact hlines

section Other

variable {settings : Settings} {project : Project} {animations : List Animation}
  {pack pack' : Folder} (h : build settings project = .ok pack)
  (h' : build settings { project with animations } = .ok pack')

include h h'

/-- Files stay as they were if all animations are still there. -/
theorem file?_of_animations_subset (hsubset : project.animations ⊆ animations) {dir : List String}
    {name : String} (hplace : (dir, name) ≠ Blueprint.tickPlace ⟨project.space⟩) {file : PackFile}
    (hfile : pack.file? dir name = some file) : pack'.file? dir name = some file := by
  obtain ⟨blueprint, -, hblueprint, rfl⟩ := build_eq_ok h
  obtain ⟨other, haccepted, hother, rfl⟩ := build_eq_ok h'
  have hnames := names_ofProject hblueprint
  obtain ⟨hstill, compile, -, hmotions, hmotions'⟩ :=
    Blueprint.ofProject_animations hblueprint hother
  rw [← hnames] at hplace
  refine Blueprint.file?_of_subset hstill (Blueprint.sound_of_build haccepted hother)
    (fun motion hmotion => ?_) hplace hfile
  obtain ⟨animation, hanimation, hok⟩ := (mem_iff_of_mapM_eq_ok hmotions).1 hmotion
  exact (mem_iff_of_mapM_eq_ok hmotions').2 ⟨animation, hsubset hanimation, hok⟩

/-- A new file lies in a folder of a new animation. -/
theorem exists_animation_of_new {dir : List String} {name : String}
    (hnew : (pack'.file? dir name).isSome = true) (hnone : pack.file? dir name = none) :
    ∃ animation ∈ animations, animation ∉ project.animations ∧
      ∃ space ∈ [project.space, (⟨project.space⟩ : Naming).internal],
        ["data", space, "functions", "animations", animation.name] <+: dir := by
  obtain ⟨blueprint, haccepted, hblueprint, rfl⟩ := build_eq_ok h
  obtain ⟨other, -, hother, rfl⟩ := build_eq_ok h'
  have hnames := names_ofProject hblueprint
  obtain ⟨hstill, compile, hcompile, hmotions, hmotions'⟩ :=
    Blueprint.ofProject_animations hblueprint hother
  obtain ⟨motion, hmotion, hnot, location, hlocation, hplace⟩ :=
    Blueprint.exists_motion_of_new hstill (Blueprint.sound_of_build haccepted hblueprint) hnew
      hnone
  obtain ⟨animation, hanimation, hok⟩ := (mem_iff_of_mapM_eq_ok hmotions').1 hmotion
  refine ⟨animation, hanimation, fun hold => ?_, ?_⟩
  · exact hnot ((mem_iff_of_mapM_eq_ok hmotions).2 ⟨animation, hold, hok⟩)
  · have hdir := Blueprint.dir_of_mem_motion_functions hlocation
    rwa [hcompile animation motion hok, hplace, hnames] at hdir

end Other

/-- Animations are exported one by one.  An accepted project is accepted with its animations in
any order.  Then all files stay as they are, apart from the function that goes on with the
animations, whose lines come in the new order.  With an animation more, at any position and if the
project is still accepted, all files stay as they are and that function gets a line more, at that
position; what is new lies in the folders of the new animation. -/
theorem animations_independent {settings : Settings} {project : Project} {pack : Folder}
    (h : build settings project = .ok pack) :
    let names : Naming := ⟨project.space⟩
    Ticks names pack project.animations ∧
    (∀ animations, animations.Perm project.animations →
      ∃ pack', build settings { project with animations } = .ok pack' ∧
        Ticks names pack' animations ∧
        ∀ dir name, (dir, name) ≠ Blueprint.tickPlace names →
          pack'.file? dir name = pack.file? dir name) ∧
    ∀ before added after pack', project.animations = before ++ after →
      build settings { project with animations := before ++ added :: after } = .ok pack' →
      Ticks names pack' (before ++ added :: after) ∧
      (∀ dir name file, (dir, name) ≠ Blueprint.tickPlace names →
        pack.file? dir name = some file → pack'.file? dir name = some file) ∧
      ∀ dir name, (pack'.file? dir name).isSome = true → pack.file? dir name = none →
        ∃ space ∈ [names.space, names.internal],
          ["data", space, "functions", "animations", added.name] <+: dir := by
  intro names
  refine ⟨ticks_of_build h, ?_, ?_⟩
  · intro animations hperm
    have hvalid := valid_iff.2 ((reports_build settings project).exists_ok_iff.1 ⟨pack, h⟩)
    obtain ⟨pack', h'⟩ := (reports_build settings { project with animations }).exists_ok_iff.2
      (valid_iff.1 (hvalid.perm hperm))
    refine ⟨pack', h', ticks_of_build h', fun dir name hplace => ?_⟩
    refine Option.ext fun file => ⟨fun hfile => ?_, fun hfile => ?_⟩
    · have hback : build settings
          { ({ project with animations } : Project) with animations := project.animations }
            = .ok pack := h
      exact file?_of_animations_subset h' hback hperm.subset hplace hfile
    · exact file?_of_animations_subset h h' hperm.symm.subset hplace hfile
  · intro before added after pack' hlist h'
    have hsubset : project.animations ⊆ before ++ added :: after := by
      rw [hlist]
      exact List.append_subset.2 ⟨List.subset_append_left _ _,
        fun animation hmem => List.mem_append_right _ (.tail _ hmem)⟩
    refine ⟨ticks_of_build h', ?_, ?_⟩
    · intro dir name file hplace hfile
      exact file?_of_animations_subset h h' hsubset hplace hfile
    · intro dir name hnew hnone
      obtain ⟨animation, hanimation, hnot, hdir⟩ := exists_animation_of_new h h' hnew hnone
      rw [hlist] at hnot
      have hadded : animation = added := by
        rcases List.mem_cons.1 (List.perm_middle.mem_iff.1 hanimation) with hadded | hold
        · exact hadded
        · exact absurd hold hnot
      rwa [hadded] at hdir

/-- Two animations in the other order, and with a third one between them. -/
theorem animations_independent_of_two :
    let still (name : String) : Animation := ⟨name, 1, .loop, [⟨0, .empty, none, none⟩]⟩
    let fox (animations : List Animation) : Project := { oneFrame "walk" with animations }
    let dir := ["data", "fox", "functions", "animations", "walk"]
    ∃ pack swapped grown,
      build ⟨"packs", 1, 12⟩ (fox [still "walk", still "run"]) = .ok pack ∧
      build ⟨"packs", 1, 12⟩ (fox [still "run", still "walk"]) = .ok swapped ∧
      build ⟨"packs", 1, 12⟩ (fox [still "walk", still "hop", still "run"]) = .ok grown ∧
      swapped.file? dir "play.mcfunction" = pack.file? dir "play.mcfunction" ∧
      Ticks ⟨"fox"⟩ swapped [still "run", still "walk"] ∧
      Ticks ⟨"fox"⟩ grown [still "walk", still "hop", still "run"] := by
  intro still fox dir
  obtain ⟨pack, hpack⟩ : ∃ pack,
      build ⟨"packs", 1, 12⟩ (fox [still "walk", still "run"]) = .ok pack :=
    exists_ok_of_isSome (by decide +kernel)
  obtain ⟨grown, hgrown⟩ : ∃ pack,
      build ⟨"packs", 1, 12⟩ (fox [still "walk", still "hop", still "run"]) = .ok pack :=
    exists_ok_of_isSome (by decide +kernel)
  obtain ⟨-, hpermuted, hextended⟩ := animations_independent hpack
  obtain ⟨swapped, hswapped, hticks, hfiles⟩ := hpermuted [still "run", still "walk"] (.swap ..)
  obtain ⟨hticks', -⟩ := hextended [still "walk"] (still "hop") [still "run"] grown rfl hgrown
  exact ⟨pack, swapped, grown, hpack, hswapped, hgrown,
    hfiles dir "play.mcfunction" (by decide +kernel), hticks, hticks'⟩

end Export

end RigPack

import RigPack.Proofs.Playback.Simulation

/-!
# The variant that a rig is summoned in

A rig is summoned in a variant by its position: the function for the variant sets a score
to it, and the root that is set up asks that score once for each variant.  The position is
counted in three places of a pack, and the functions that put a variant on are reached by
names.  All of these agree: the score that is set for a variant leads to the functions of
that variant alone, and these hold a line for each bone that it affects.

## Strategy

The lines of the root are run on a machine.  What they run changes no tag and no score
(`Machine.CallsOnly`), so every line meets the score that was set, and the calls of one
line stand behind those of another.

## Main statements

* `summoning_selects_variant`: which functions run for a score, and what they hold.
-/

namespace RigPack

/-! ## Commands that only call functions -/

namespace Machine

variable {Entity Rest : Type} [DecidableEq Entity] {pack : Folder} {game : Game Entity Rest}

/-- Whether commands make some calls and leave the tags, the scores and who rides on what. -/
def CallsOnly (pack : Folder) (game : Game Entity Rest) (commands : List (Entity × Command))
    (world : World Entity Rest) (calls : List (Entity × Location)) : Prop :=
  ∃ rest, Executes pack game commands world { world with rest } calls

namespace CallsOnly

variable {world : World Entity Rest} {self : Entity}

/-- Several commands make their calls one after the other. -/
theorem map {α : Type} {as : List α} {command : α → Entity × Command}
    {calls : α → List (Entity × Location)}
    (h : ∀ a ∈ as, ∀ rest, CallsOnly pack game [command a] { world with rest } (calls a)) :
    CallsOnly pack game (as.map command) world (as.flatMap calls) := by
  induction as generalizing world with
  | nil => exact ⟨world.rest, .nil world⟩
  | cons a as ih =>
      obtain ⟨rest, hfirst⟩ := h a (List.mem_cons_self ..) world.rest
      have hrest : CallsOnly pack game (as.map command) { world with rest } (as.flatMap calls) :=
        ih fun other hother => h other (.tail _ hother)
      obtain ⟨rest', hothers⟩ := hrest
      exact ⟨rest', hfirst.append hothers⟩

theorem call {location : Location} {commands : List Command} {calls : List (Entity × Location)}
    (hfunction : pack.function? location.text = some commands)
    (h : ∀ rest, CallsOnly pack game (commands.map (self, ·)) { world with rest } calls) :
    CallsOnly pack game [(self, .run location)] world ((self, location) :: calls) := by
  obtain ⟨rest, hcommands⟩ := h (game.remainder (.run location) world self)
  exact ⟨rest, .call hfunction hcommands⟩

theorem execute {clause : Clause} {command : Command} {selves : List Entity}
    {calls : List (Entity × Location)}
    (hselves : clause.executors? game world self = some selves)
    (h : ∀ rest, CallsOnly pack game (selves.map (·, command)) { world with rest } calls) :
    CallsOnly pack game [(self, .execute [clause] command)] world calls := by
  obtain ⟨rest, hcommands⟩ := h (game.remainder (.execute [clause] command) world self)
  exact ⟨rest, .execute ((executors?_singleton game world clause self).trans hselves) hcommands⟩

/-- A bone takes a model, or leaves it if the line is for another one. -/
theorem setModel (self : Entity) (tag : String) (model : Int32) (world : World Entity Rest) :
    CallsOnly pack game [(self, .execute [.ifTagged tag] (.setModel model))] world [] := by
  refine execute rfl fun rest => ?_
  split
  · exact ⟨_, .of_after? rfl⟩
  · exact ⟨_, .nil _⟩

/-- What a bone runs for a look calls nothing. -/
theorem boneCommands (names : Naming) (look : Blueprint.Look) (bone : Entity)
    (world : World Entity Rest) :
    CallsOnly pack game ((look.boneCommands names).map (bone, ·)) world [] := by
  have hlines : CallsOnly pack game ((look.boneCommands names).map (bone, ·)) world
      (look.models.flatMap fun _ => []) := by
    rw [Blueprint.Look.boneCommands, List.map_map]
    exact map fun _ _ rest => setModel bone _ _ _
  rwa [List.flatMap_eq_nil_iff.2 fun _ _ => rfl] at hlines

end CallsOnly

end Machine

/-! ## Positions -/

/-- What stands at the position that a score names, if it names one. -/
def at? {α : Type} (as : List α) (score : Int) : Option α :=
  if score < 0 then none else as[score.toNat]?

theorem at?_cons {α : Type} (a : α) (as : List α) (score : Int) :
    at? (a :: as) score = if score = 0 then some a else at? as (score - 1) := by
  unfold at?
  rcases lt_trichotomy score 0 with hneg | rfl | hpos
  · rw [if_pos hneg, if_neg hneg.ne, if_pos (by omega)]
  · rfl
  · have hnext : score.toNat = (score - 1).toNat + 1 := by omega
    rw [if_neg (by omega), if_neg hpos.ne', if_neg (by omega), hnext, List.getElem?_cons_succ]

theorem at?_map {α β : Type} (f : α → β) (as : List α) (score : Int) :
    at? (as.map f) score = (at? as score).map f := by
  unfold at?
  split
  · rfl
  · exact List.getElem?_map

/-- Of entries that are numbered, one that is for a score alone is taken if there is one. -/
theorem flatMap_zipIdx {α β : Type} (as : List α) (first : Nat) (score : Int) (f : α → List β) :
    (as.zipIdx first).flatMap (fun entry => if score = (entry.2 : Int) then f entry.1 else [])
      = (at? as (score - first)).elim [] f := by
  induction as generalizing first with
  | nil => simp [at?]
  | cons a as ih =>
      have hnext : score - ((first + 1 : Nat) : Int) = score - first - 1 := by omega
      rw [List.zipIdx_cons, List.flatMap_cons, ih, at?_cons, hnext]
      by_cases hfirst : score = first
      · have hlater : at? as (score - first - 1) = none := if_pos (by omega)
        rw [if_pos hfirst, if_pos (by omega), hlater, Option.elim_none, Option.elim_some,
          List.append_nil]
      · rw [if_neg hfirst, if_neg (by omega), List.nil_append]

/-! ## Variants and what they affect -/

/-- A variant affects the bones that it lists, or those that it does not list. -/
theorem Variant.affects_eq (variant : Variant) (bone : String) :
    variant.affects bone
      = if variant.listIsAffected then decide (bone ∈ variant.listed)
        else decide (bone ∉ variant.listed) := by
  unfold affects
  cases variant.listIsAffected <;> simp

/-- What a bone shows in a variant: its own model in the default one, else what is listed. -/
theorem Rig.modelIn_eq_ok {rig : Rig} {variant : Variant} {bone : Bone} {model : Int32}
    (h : rig.modelIn variant bone = .ok model) :
    (if variant.isDefault then some bone.model else rig.model? variant.name bone) = some model := by
  unfold modelIn at h
  split at h
  · rename_i hdefault
    rw [if_pos hdefault, Except.ok.inj h]
  · rename_i hdefault
    rw [if_neg hdefault]
    split at h
    · rename_i hmodel
      rw [hmodel, Except.ok.inj h]
    · contradiction

/-! ## The functions of a look -/

namespace Blueprint

variable {blueprint : Blueprint} {settings : Settings}

/-- A look stands at the place of its variant, and lists the bones that the variant affects with
their models. -/
theorem look_of_variant {project : Project} (h : ofProject project = .ok blueprint)
    {position : Nat} {variant : Variant} (hvariant : project.variants[position]? = some variant) :
    ∃ look, blueprint.looks[position]? = some look ∧ look.name = variant.name ∧
      look.isDefault = variant.isDefault ∧
      List.Forall₂ (fun bone line => line.1 = bone.name ∧
          project.rig.modelIn variant bone = .ok line.2)
        (project.rig.bones.filter fun bone => variant.affects bone.id) look.models := by
  obtain ⟨set, hset, -, hlooks, -⟩ := Export.ofProject_eq_ok h
  rw [variants_ofList hset, List.forall₂_iff_get] at hlooks
  obtain ⟨hlength, hlooks⟩ := hlooks
  obtain ⟨hposition, rfl⟩ := List.getElem?_eq_some_iff.1 hvariant
  have hlook := hlooks position hposition (hlength ▸ hposition)
  simp only [Look.ofVariant, bind_eq_ok, pure_eq_ok, List.get_eq_getElem] at hlook
  obtain ⟨models, hmodels, hlook⟩ := hlook
  refine ⟨_, List.getElem?_eq_getElem (hlength ▸ hposition), ?_⟩
  rw [← hlook]
  refine ⟨rfl, rfl, (mapM_eq_ok.1 hmodels).imp fun bone line hline => ?_⟩
  obtain ⟨model, hmodel, hpair⟩ := bind_eq_ok.1 hline
  obtain rfl := pure_eq_ok.1 hpair
  exact ⟨rfl, hmodel⟩

/-- The default variant is the one that a rig is summoned in. -/
theorem defaultLook_eq {project : Project} (h : ofProject project = .ok blueprint)
    {position : Nat} {variant : Variant} (hvariant : project.variants[position]? = some variant)
    (hdefault : variant.isDefault = true) : blueprint.defaultLook = position := by
  simp only [Blueprint.ofProject, bind_eq_ok, pure_eq_ok] at h
  obtain ⟨set, hset, parts, -, looks, -, motions, -, rfl⟩ := h
  have hmem : position ∈ defaultPositions set.variants := by
    refine List.mem_map.2 ⟨(variant, position), List.mem_filter.2 ⟨?_, hdefault⟩, rfl⟩
    rw [variants_ofList hset]
    exact List.mk_mem_zipIdx_iff_getElem?.2 hvariant
  rw [set.defaultPositions_eq, List.mem_singleton] at hmem
  exact hmem.symm

/-- The function that summons the look at a position sets the score to the position. -/
theorem function?_summon (settings : Settings) (hsound : blueprint.Sound) {position : Nat}
    {look : Look}
    (hlook : blueprint.looks[position]? = some look)
    (hdefault : look.isDefault = true → blueprint.defaultLook = position) :
    (blueprint.pack settings).function? (blueprint.names.publicFunction
        (if look.isDefault then ["summon"] else ["summon", look.name])).text
      = some (summonLook blueprint.names position) := by
  refine hsound.function?_pack ?_
  by_cases h : look.isDefault = true
  · simp [layout, summoning_eq, h, hdefault h]
  · have hother : (look, position) ∈ blueprint.looks.zipIdx.filter (!·.1.isDefault) :=
      List.mem_filter.2 ⟨List.mk_mem_zipIdx_iff_getElem?.2 hlook, by simpa using h⟩
    have hmem : Placement.function (blueprint.names.publicFunction ["summon", look.name])
        (summonLook blueprint.names position) ∈ blueprint.summonOthers :=
      List.mem_map.2 ⟨_, hother, rfl⟩
    rw [if_neg h]
    simp [layout, summoning_eq, hmem]

/-- The lines by which a root puts on the look that a score names. -/
def lookLines (blueprint : Blueprint) : List Command :=
  blueprint.looks.zipIdx.map fun (look, position) =>
    .execute [.ifScore nextLook .scratch (.exactly position)]
      (.run (blueprint.names.variantAsRoot look.name))

/-- The calls by which a root and its bones put on a look. -/
def lookCalls {Entity : Type} (names : Naming) (root : Entity) (bones : List Entity)
    (name : String) : List (Entity × Location) :=
  (root, names.variantAsRoot name) :: bones.map (·, names.variantAsBone name)

section Run

open Machine

variable {Entity Rest : Type} [DecidableEq Entity] {game : Game Entity Rest}
  (hsound : blueprint.Sound)

include hsound

/-- A root puts on a look: it has all its bones take the models of the look. -/
theorem callsOnly_look {look : Look} (hlook : look ∈ blueprint.looks) (root : Entity)
    (world : World Entity Rest) :
    CallsOnly (blueprint.pack settings) game
      [(root, .run (blueprint.names.variantAsRoot look.name))] world
      (lookCalls blueprint.names root (world.riders root) look.name) := by
  refine .call (function?_of_look hsound hlook (.tail _ (.head _))) fun rest => ?_
  refine .execute rfl fun rest => ?_
  rw [List.map_eq_flatMap (f := (·, blueprint.names.variantAsBone look.name))]
  refine .map fun bone _ rest => ?_
  exact .call (function?_of_look hsound hlook (.tail _ (.tail _ (.head _))))
    fun rest => .boneCommands _ look bone _

/-- The lines of the root put on the look at the position that the score names. -/
theorem callsOnly_lookLines (settings : Settings) (game : Game Entity Rest) (root : Entity)
    {world : World Entity Rest} {score : Int}
    (hscore : world.scores (.name ".aj.variant_id", .scratch) = some score) :
    CallsOnly (blueprint.pack settings) game (blueprint.lookLines.map (root, ·)) world
      ((at? blueprint.looks score).elim [] fun look =>
        lookCalls blueprint.names root (world.riders root) look.name) := by
  have hcalls := flatMap_zipIdx blueprint.looks 0 score fun look =>
    lookCalls blueprint.names root (world.riders root) look.name
  rw [Int.natCast_zero, Int.sub_zero] at hcalls
  rw [lookLines, List.map_map, ← hcalls]
  refine .map fun (look, position) hentry rest => ?_
  have hlook : look ∈ blueprint.looks :=
    List.mem_of_getElem? (List.mk_mem_zipIdx_iff_getElem?.1 hentry)
  have hclause : Clause.executors? game { world with rest } root
      (.ifScore nextLook .scratch (.exactly position))
      = some (if score = position then [root] else []) := by
    simp only [Clause.executors?, nextLook, Holder.resolve, hscore, Option.any_some,
      decide_eq_true_eq]
    rfl
  refine .execute hclause fun rest => ?_
  by_cases hscore : score = position
  · rw [if_pos hscore, if_pos hscore]
    exact callsOnly_look hsound hlook root _
  · rw [if_neg hscore, if_neg hscore]
    exact ⟨rest, .nil _⟩

end Run

end Blueprint

/-- In an accepted project, the function that summons a variant sets the score to the position of
the variant.  For any score, the lines of the root that is set up have it put on the variant at
that position, and none if the score is no position.  Putting on a variant makes every bone run a
function that holds a line for each bone of the rig that the variant affects, in order, with the
bone's own model in the default variant and the model listed for it in any other. -/
theorem summoning_selects_variant {settings : Settings} {project : Project} {pack : Folder}
    (hbuild : Export.build settings project = .ok pack) {position : Nat} {variant : Variant}
    (hvariant : project.variants[position]? = some variant) {Entity Rest : Type}
    [DecidableEq Entity] (game : Game Entity Rest) (root : Entity) :
    let names := project.names
    let summon := names.publicFunction
      (if variant.isDefault then ["summon"] else ["summon", variant.name])
    pack.function? summon.text = some
      [.setScore (.name ".aj.variant_id") .scratch position,
        .run (names.internalFunction ["summon"])] ∧
    (∃ lines,
      pack.function? (names.internalFunction ["summon", "as_root"]).text = some
        ([.execute [.storeScore .self .id] (.addScore (.name ".aj.last_id") .id 1),
          .execute [.onPassengers] (.run (names.internalFunction ["summon", "as_bone"]))]
        ++ lines ++ [.removeTag freshTag, .call (.group (names.group "on_summon"))]) ∧
      ∀ (score : Int) (world : World Entity Rest),
        world.scores (.name ".aj.variant_id", .scratch) = some score →
        ∃ final : Machine Entity Rest,
          Machine.Ends pack game ⟨lines.map (root, ·), world, []⟩ final ∧
          final.calls = (at? project.variants score).elim [] fun chosen =>
            (root, names.variantAsRoot chosen.name)
              :: (world.riders root).map (·, names.variantAsBone chosen.name)) ∧
    pack.function? (names.variantAsRoot variant.name).text = some
      [.execute [.onPassengers] (.run (names.variantAsBone variant.name))] ∧
    ∃ lines, pack.function? (names.variantAsBone variant.name).text = some lines ∧
      List.Forall₂ (fun bone line => ∃ model,
          (if variant.isDefault then some bone.model
            else project.rig.model? variant.name bone) = some model ∧
          line = .execute [.ifTagged (names.boneTag bone.name)] (.setModel model))
        (project.rig.bones.filter fun bone =>
          if variant.listIsAffected then bone.id ∈ variant.listed else bone.id ∉ variant.listed)
        lines := by
  intro names summon
  obtain ⟨blueprint, haccepted, hblueprint, rfl⟩ := Export.build_eq_ok hbuild
  have hsound := Blueprint.sound_of_build haccepted hblueprint
  have hnames : names = blueprint.names := (Export.names_ofProject hblueprint).symm
  obtain ⟨look, hlook, hname, hdefault, hmodels⟩ := Blueprint.look_of_variant hblueprint hvariant
  have hmem : look ∈ blueprint.looks := List.mem_of_getElem? hlook
  rw [hnames, ← hname]
  refine ⟨?_, ⟨blueprint.lookLines, ?_, fun score world hscore => ?_⟩, ?_, ?_⟩
  · have hsummon := Blueprint.function?_summon settings hsound hlook fun h =>
      Blueprint.defaultLook_eq hblueprint hvariant (hdefault ▸ h)
    rw [hdefault, hname, ← hnames] at hsummon
    rw [← hnames]
    exact hsummon
  · exact hsound.function?_pack (by simp [Blueprint.layout, Blueprint.summoning_eq,
      Blueprint.setUpRoot, Blueprint.lookLines, Blueprint.lastId])
  · obtain ⟨rest, hexecutes⟩ := blueprint.callsOnly_lookLines hsound settings game root hscore
    have hreaches := hexecutes [] []
    rw [List.append_nil] at hreaches
    refine ⟨_, ⟨hreaches, rfl⟩, ?_⟩
    have hchosen : (at? blueprint.looks score).map (·.name)
        = (at? project.variants score).map (·.name) := by
      rw [← at?_map, ← at?_map, Blueprint.names_looks hblueprint]
    cases hvariants : at? project.variants score with
    | none =>
        rw [hvariants, Option.map_none, Option.map_eq_none_iff] at hchosen
        rw [hchosen]
        rfl
    | some chosen =>
        rw [hvariants, Option.map_some, Option.map_eq_some_iff] at hchosen
        obtain ⟨dressed, hdressed, hsame⟩ := hchosen
        rw [hdressed, Option.elim_some, Option.elim_some, ← hsame]
        rfl
  · exact Blueprint.function?_of_look hsound hmem (.tail _ (.head _))
  · refine ⟨_, Blueprint.function?_of_look hsound hmem (.tail _ (.tail _ (.head _))), ?_⟩
    rw [Blueprint.Look.boneCommands, List.forall₂_map_right_iff]
    have haffects : (project.rig.bones.filter fun bone => variant.affects bone.id)
        = project.rig.bones.filter fun bone =>
          if variant.listIsAffected then bone.id ∈ variant.listed
          else bone.id ∉ variant.listed := by
      refine List.filter_congr fun bone _ => ?_
      rw [variant.affects_eq]
    rw [← haffects, hname]
    refine hmodels.imp fun bone shown hshown => ?_
    obtain ⟨hbone, hmodel⟩ := hshown
    rw [← hbone]
    exact ⟨shown.2, Rig.modelIn_eq_ok hmodel, rfl⟩

/-- Of three variants the last one is summoned by its own name; it spares the one bone that it
lists, and the default one stands before it. -/
theorem summoning_selects_last_of_three :
    ∃ (project : Project) (pack : Folder) (final : Machine Nat Unit),
      Export.build ⟨"packs", 1, 12⟩ project = .ok pack ∧
      pack.function? "fox:summon/blue" = some
        [.setScore (.name ".aj.variant_id") .scratch 2, .run ⟨"zzz_fox_internal", ["summon"]⟩] ∧
      final.calls = [(0, ⟨"zzz_fox_internal", ["apply_variant", "blue_as_root"]⟩),
        (4, ⟨"zzz_fox_internal", ["apply_variant", "blue_as_bone"]⟩)] ∧
      pack.function? "zzz_fox_internal:apply_variant/blue_as_bone" = some
        [.execute [.ifTagged "aj.fox.bone.body"] (.setModel 9)] := by
  let blue : Variant := ⟨"blue", false, ["a", "a", "ghost"], false⟩
  let project : Project :=
    { space := "fox", item := "stick", animations := [],
      rig := {
        bones := [⟨"a", "head", 1⟩, ⟨"b", "body", 2⟩]
        restPose := .ofList [("a", default), ("b", default)]
        models := .ofList [("blue", .ofList [("b", 9)]), ("red", .ofList [("a", 7)])] },
      variants := [⟨"red", false, ["a"], true⟩, ⟨"plain", true, [], false⟩, blue] }
  let world : World Nat Unit :=
    ⟨fun _ _ => false,
      fun score => if score = (.name ".aj.variant_id", .scratch) then some 2 else none,
      fun _ => [4], ()⟩
  have haccepted : (Export.build ⟨"packs", 1, 12⟩ project).toOption.isSome = true := by
    decide +kernel
  obtain ⟨pack, hbuild⟩ := exists_ok_of_isSome haccepted
  have hblue : project.variants[2]? = some blue := rfl
  obtain ⟨hsummon, ⟨lines, -, hlines⟩, -, boneLines, hbones, hmodels⟩ :=
    summoning_selects_variant hbuild hblue
      (⟨fun _ _ self => [self], fun _ world _ => world, fun _ _ _ => ()⟩ : Game Nat Unit) 0
  obtain ⟨final, -, hcalls⟩ := hlines 2 world rfl
  have hbody : boneLines = [.execute [.ifTagged "aj.fox.bone.body"] (.setModel 9)] := by
    obtain ⟨line, _, ⟨model, hmodel, rfl⟩, hnil, rfl⟩ := List.forall₂_cons_left_iff.1 hmodels
    obtain rfl := List.forall₂_nil_left_iff.1 hnil
    obtain rfl : 9 = model := Option.some.inj hmodel
    rfl
  exact ⟨project, pack, final, hbuild, hsummon, hcalls, hbody ▸ hbones⟩

end RigPack

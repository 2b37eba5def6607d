import RigPack.Export.Basic
import RigPack.Proofs.Success
import RigPack.Proofs.Pack.Lookup

/-!
# Projects that are accepted

A project that an export accepts has passed every check, and all its references
were found.  This file collects what later proofs need of that: the names that
become parts of paths are resource names (`isResourceName`), those of one kind
differ, and the parts of the blueprint stand beside those of the project.
-/

namespace RigPack.Export

/-- What holds of settings and project that pass the checks. -/
structure Accepted (settings : Settings) (project : Project) : Prop where
  space : isResourceName project.space = true
  animations : ∀ animation ∈ project.animations, isResourceName animation.name = true
  variants : ∀ variant ∈ project.variants, isResourceName variant.name = true
  bones : ∀ bone ∈ project.rig.bones, isResourceName bone.name = true
  /-- No two animations share a name. -/
  animations_nodup : (project.animations.map (·.name)).Nodup

theorem checkNames_eq_ok {part : NamedPart} {names : List String}
    (h : checkNames part names = .ok ()) : ∀ name ∈ names, isResourceName name = true := by
  unfold checkNames at h
  split at h
  · contradiction
  · rename_i hnone
    intro name hname
    simpa using List.find?_eq_none.1 hnone name hname

theorem accepted_of_check {settings : Settings} {project : Project}
    (h : check settings project = .ok ()) : Accepted settings project := by
  simp only [check, test_eq_ok] at h
  obtain ⟨-, hspace, -, -, h⟩ := h
  split at h
  · exact absurd h throw_bind_ne_ok
  simp only [bind_eq_ok] at h
  obtain ⟨_, hanimations, _, hvariants, _, hbones, hrepeated⟩ := h
  split at hrepeated
  · contradiction
  rename_i hnone
  refine ⟨by simpa using hspace, ?_, ?_, ?_, (firstRepeated?_eq_none_iff.1 hnone).1⟩
  · exact List.forall_mem_map.1 (checkNames_eq_ok hanimations)
  · exact List.forall_mem_map.1 (checkNames_eq_ok hvariants)
  · exact List.forall_mem_map.1 (checkNames_eq_ok hbones)

/-- The pack of an accepted project is the one of its blueprint. -/
theorem build_eq_ok {settings : Settings} {project : Project} {pack : Folder}
    (h : build settings project = .ok pack) :
    ∃ blueprint, Accepted settings project ∧ Blueprint.ofProject project = .ok blueprint ∧
      pack = blueprint.pack settings := by
  obtain ⟨_, hcheck, h⟩ := bind_eq_ok.1 h
  split at h
  · rename_i blueprint hblueprint
    exact ⟨blueprint, accepted_of_check hcheck, hblueprint, (pure_eq_ok.1 h).symm⟩
  · contradiction

/-- The blueprint of a project, part by part. -/
theorem ofProject_eq_ok {project : Project} {blueprint : Blueprint}
    (h : Blueprint.ofProject project = .ok blueprint) :
    ∃ variants,
      VariantSet.ofList project.variants = .ok variants ∧
      blueprint.names = ⟨project.space⟩ ∧
      List.Forall₂ (fun variant look => Blueprint.Look.ofVariant project.rig variant = .ok look)
        variants.variants blueprint.looks ∧
      List.Forall₂ (fun animation motion =>
          Blueprint.Motion.ofAnimation project.rig variants animation = .ok motion)
        project.animations blueprint.motions := by
  simp only [Blueprint.ofProject, bind_eq_ok, pure_eq_ok] at h
  obtain ⟨variants, hvariants, parts, -, looks, hlooks, motions, hmotions, rfl⟩ := h
  exact ⟨variants, hvariants, rfl, mapM_eq_ok.1 hlooks, mapM_eq_ok.1 hmotions⟩

theorem names_ofProject {project : Project} {blueprint : Blueprint}
    (h : Blueprint.ofProject project = .ok blueprint) : blueprint.names = ⟨project.space⟩ := by
  obtain ⟨variants, -, hnames, -⟩ := ofProject_eq_ok h
  exact hnames

/-- A pack has the name of the project's namespace. -/
theorem name_of_build {settings : Settings} {project : Project} {pack : Folder}
    (h : build settings project = .ok pack) : pack.name = project.space := by
  obtain ⟨blueprint, -, hblueprint, rfl⟩ := build_eq_ok h
  rw [Blueprint.name_pack, names_ofProject hblueprint]

/-- An export of an accepted project clears the folder of the pack, and then writes it. -/
theorem run_of_build {m : Type → Type} [Monad m] [LawfulMonad m] [FileStore m]
    {settings : Settings} {project : Project} {pack : Folder}
    (h : build settings project = .ok pack) (onWritten : Nat → m Unit) :
    Export.run settings project onWritten = (do
      clear (Path.join settings.folder project.space) project.space
      let written ← step "write data pack" (Path.join settings.folder project.space)
        (pack.write onWritten settings.folder)
      return ⟨Path.join settings.folder project.space, project.animations.length, written⟩) := by
  unfold Export.run
  rw [h, ← name_of_build h]
  exact pure_bind pack _

/-- A project of one animation with one frame, which is accepted if the name is. -/
def oneFrame (animation : String) : Project :=
  ⟨"fox", "stick", default, [⟨"plain", true, [], false⟩],
    [⟨animation, 1, .loop, [⟨0, .empty, none, none⟩]⟩]⟩

end RigPack.Export

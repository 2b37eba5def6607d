import RigPack.Proofs.Pack.Clash
import RigPack.Proofs.Pack.Tags

/-!
# Packs of different namespaces in one game

All names of a pack derive from its namespace, and namespaces may consist of any name
characters.  So the internal namespace of a project can be the namespace of another one, and
a namespace can go on as the tags of another one do.  This file shows that there is nothing
else that packs of different namespaces have in common: no function and no tag but that of
fresh entities, unless one of the two is the case.

## Strategy

A function is found in the place that its name leads to, so two packs share it only if its
location is one of both (`Blueprint.exists_shared_location`).  Tags are compared as lists of
the pieces between their dots.  The pieces of the one namespace are then the first pieces of
the other, and the next one says whether the tag is that of a bone or of an animation
(`Project.shadows_of_mem_tags`).

## Main statements

* `Export.exists_shared_function_iff`: packs share functions exactly if one namespace is the
  internal namespace of the other project.
* `Export.shadows_of_marks`: a shared tag is one of a bone or an animation, and the other
  namespace goes on as such tags do.
* `Export.packs_apart`: both.
-/

namespace RigPack

/-! ## Shared functions -/

/-- The place of the file that the name of a function leads to. -/
def functionPlace? (name : String) : Option (List String × String) :=
  (resourceFile? "functions" ".mcfunction" name).map fun path =>
    (Path.segments (Path.splitLast path).1, (Path.splitLast path).2)

namespace Blueprint

open Placement

/-- A function that is found by its name is in the place that the name leads to. -/
theorem exists_function_of_function? {blueprint : Blueprint} {settings : Settings} {name : String}
    (h : ((blueprint.pack settings).function? name).isSome = true) :
    ∃ location ∈ blueprint.functions, functionPlace? name = some (functionPlace location) := by
  unfold Folder.function? at h
  split at h
  · rename_i commands hresource
    simp only [Folder.resource?, Option.bind_eq_bind, Option.bind_eq_some_iff] at hresource
    obtain ⟨path, hpath, file, hfile, hcontent⟩ := hresource
    have hmem := mem_layout_of_file? hfile
    rw [Option.some.inj hcontent] at hmem
    obtain ⟨location, hlocation, hplace⟩ := exists_function_of_commands hmem
    exact ⟨location, hlocation, by rw [functionPlace?, hpath, hplace]; rfl⟩
  · contradiction

/-- Every function lies in the namespace of the project or in the internal one. -/
theorem space_of_mem_functions {blueprint : Blueprint} {location : Location}
    (h : location ∈ blueprint.functions) :
    location.space = blueprint.names.space ∨ location.space = blueprint.names.internal := by
  simp only [functions, basicFunctions, summonFunctions, removalFunctions, Look.functions,
    Motion.functions, List.mem_append, List.mem_cons, List.not_mem_nil, or_false,
    List.mem_flatMap, List.mem_map] at h
  rcases h with ((((h | h) | h) | ⟨look, -, h⟩) | rfl) | ⟨motion, -, h⟩
  · rcases h with rfl | rfl | rfl <;> exact .inr rfl
  · rcases h with ((rfl | rfl) | ⟨look, -, rfl⟩) | rfl | rfl | rfl
    · exact .inl rfl
    · exact .inl rfl
    · exact .inl rfl
    all_goals exact .inr rfl
  · rcases h with rfl | rfl | rfl
    · exact .inl rfl
    · exact .inl rfl
    · exact .inr rfl
  · rcases h with rfl | rfl | rfl
    · exact .inl rfl
    · exact .inr rfl
    · exact .inr rfl
  · exact .inr rfl
  · rcases h with (⟨action, -, rfl⟩ | ⟨step, -, rfl⟩) | ⟨unit, -, rfl⟩
    · exact .inl rfl
    · exact .inr rfl
    · exact .inr rfl

/-- The functions of two packs that have one name have one location. -/
theorem exists_shared_location {first second : Blueprint} (hfirst : first.Sound)
    (hsecond : second.Sound) {settings settings' : Settings} {name : String}
    (h : ((first.pack settings).function? name).isSome = true)
    (h' : ((second.pack settings').function? name).isSome = true) :
    ∃ location ∈ first.functions, location ∈ second.functions := by
  obtain ⟨location, hlocation, hplace⟩ := exists_function_of_function? h
  obtain ⟨other, hother, hplace'⟩ := exists_function_of_function? h'
  have heq : location = other :=
    functionPlace_injective (regular_of_mem_functions hfirst location hlocation).ne_nil
      (regular_of_mem_functions hsecond other hother).ne_nil
      (Option.some.inj (hplace.symm.trans hplace'))
  exact ⟨location, hlocation, heq ▸ hother⟩

/-- If the internal namespace of one is the namespace of the other, both have a function to
summon in it. -/
theorem exists_shared_summon {first second : Blueprint} (hfirst : first.Sound)
    (hsecond : second.Sound) (settings settings' : Settings)
    (heq : first.names.internal = second.names.space) :
    ∃ name, ((first.pack settings).function? name).isSome = true ∧
      ((second.pack settings').function? name).isSome = true := by
  have hsame : first.names.internalFunction ["summon"]
      = second.names.publicFunction ["summon"] := by
    rw [Naming.internalFunction, heq]
    rfl
  have hpublic : function (second.names.publicFunction ["summon"])
      (summonLook second.names second.defaultLook) ∈ second.layout settings' := by
    simp [layout, summoning_eq]
  refine ⟨(first.names.internalFunction ["summon"]).text, ?_, ?_⟩
  · rw [hfirst.function?_pack (summon_mem_layout first settings)]
    rfl
  · rw [hsame, hsecond.function?_pack hpublic]
    rfl

end Blueprint

theorem Naming.internal_injective : Function.Injective Naming.internal := by
  rintro ⟨space⟩ ⟨space'⟩ h
  have hspace : space = space' := by simpa [internal] using h
  rw [hspace]

namespace Export

variable {settings settings' : Settings} {project project' : Project} {pack pack' : Folder}

/-- Packs of different namespaces share functions exactly if the internal namespace of one
project is the namespace of the other. -/
theorem exists_shared_function_iff (h : build settings project = .ok pack)
    (h' : build settings' project' = .ok pack') (hspace : project.space ≠ project'.space) :
    (∃ name, (pack.function? name).isSome = true ∧ (pack'.function? name).isSome = true) ↔
      Naming.internal ⟨project.space⟩ = project'.space ∨
      Naming.internal ⟨project'.space⟩ = project.space := by
  obtain ⟨blueprint, haccepted, hblueprint, rfl⟩ := build_eq_ok h
  obtain ⟨blueprint', haccepted', hblueprint', rfl⟩ := build_eq_ok h'
  have hsound := Blueprint.sound_of_build haccepted hblueprint
  have hsound' := Blueprint.sound_of_build haccepted' hblueprint'
  have hnames := names_ofProject hblueprint
  have hnames' := names_ofProject hblueprint'
  constructor
  · rintro ⟨name, hname, hname'⟩
    obtain ⟨location, hmem, hmem'⟩ := Blueprint.exists_shared_location hsound hsound' hname hname'
    have hcases := Blueprint.space_of_mem_functions hmem
    have hcases' := Blueprint.space_of_mem_functions hmem'
    rw [hnames] at hcases
    rw [hnames'] at hcases'
    rcases hcases with heq | heq <;> rcases hcases' with heq' | heq'
    · exact absurd (heq.symm.trans heq') hspace
    · exact .inr (heq'.symm.trans heq)
    · exact .inl (heq.symm.trans heq')
    · have hboth := Naming.internal_injective (heq.symm.trans heq')
      exact absurd (congrArg Naming.space hboth) hspace
  · rw [← hnames, ← hnames']
    rintro (heq | heq)
    · exact Blueprint.exists_shared_summon hsound hsound' settings settings' (by rw [heq, hnames'])
    · obtain ⟨name, hname', hname⟩ :=
        Blueprint.exists_shared_summon hsound' hsound settings' settings (by rw [heq, hnames])
      exact ⟨name, hname, hname'⟩

end Export

/-! ## Shared tags -/

/-- Whether a text is another one, or goes on behind it with a dot. -/
def Continues (front text : String) : Prop :=
  text = front ∨ ∃ rest, text = front ++ "." ++ rest

/-- The pieces between the dots of a text. -/
def dotted (text : String) : List String :=
  (Text.pieces '.' text.toList).map String.ofList

theorem dotted_ne_nil (text : String) : dotted text ≠ [] :=
  Text.cut_ne_nil '.' text

theorem dotted_append (front rest : String) :
    dotted (front ++ "." ++ rest) = dotted front ++ dotted rest :=
  Text.cut_append '.' front rest

theorem intercalate_dotted (text : String) : ".".intercalate (dotted text) = text :=
  Text.intercalate_cut '.' text

theorem dotted_injective : Function.Injective dotted :=
  Function.LeftInverse.injective intercalate_dotted

theorem dotted_word (word : String) (h : '.' ∉ word.toList) : dotted word = [word] :=
  Text.cut_eq_singleton h

theorem continues_of_dotted {front text : String} {rest : List String}
    (h : dotted text = dotted front ++ rest) : Continues front text := by
  by_cases hrest : rest = []
  · rw [hrest, List.append_nil] at h
    exact .inl (dotted_injective h)
  · refine .inr ⟨".".intercalate rest, ?_⟩
    rw [← intercalate_dotted text, h, String.intercalate_append_of_ne_nil (dotted_ne_nil front)
      hrest, intercalate_dotted]

/-- Behind the namespace of a project stands what a tag is for. -/
theorem dotted_tag (space rest : String) :
    dotted ("aj." ++ space ++ "." ++ rest) = "aj" :: (dotted space ++ dotted rest) := by
  have hfront : "aj." ++ space = "aj" ++ "." ++ space := rfl
  rw [dotted_append, hfront, dotted_append, dotted_word "aj" (by decide), List.append_assoc]
  rfl

theorem dotted_rootTag (names : Naming) :
    dotted names.rootTag = "aj" :: (dotted names.space ++ ["root"]) := by
  have hword : ".root" = "." ++ "root" := by decide
  have htag : names.rootTag = "aj." ++ names.space ++ "." ++ "root" := by
    rw [Naming.rootTag, hword, ← String.append_assoc]
  rw [htag, dotted_tag, dotted_word "root" (by decide)]

/-- The tag of a bone or an animation, with the word for which of the two it is. -/
inductive Project.PartTag (project : Project) : String → String → Prop
  | bone {bone : Bone} (h : bone ∈ project.rig.bones) :
    PartTag project "bone" (Naming.boneTag ⟨project.space⟩ bone.name)
  | animation {animation : Animation} (h : animation ∈ project.animations) :
    PartTag project "animations" (Naming.activeTag ⟨project.space⟩ animation.name)

theorem Project.cases_of_mem_tags {project : Project} {tag : String} (h : tag ∈ project.tags) :
    tag = Naming.rootTag ⟨project.space⟩ ∨ ∃ kind, project.PartTag kind tag := by
  rw [tags, List.mem_append, List.mem_cons, List.mem_map, List.mem_map] at h
  rcases h with (hroot | ⟨bone, hbone, rfl⟩) | ⟨animation, hanimation, rfl⟩
  · exact .inl hroot
  · exact .inr ⟨_, .bone hbone⟩
  · exact .inr ⟨_, .animation hanimation⟩

/-- Behind the word for what a tag is for stands the name of a bone or an animation. -/
theorem dotted_part (space kind name : String) (hkind : '.' ∉ kind.toList) :
    dotted ("aj." ++ space ++ ("." ++ kind ++ ".") ++ name)
      = "aj" :: (dotted space ++ kind :: dotted name) := by
  have htag : "aj." ++ space ++ ("." ++ kind ++ ".") ++ name
      = "aj." ++ space ++ "." ++ (kind ++ "." ++ name) := by
    simp only [String.append_assoc]
  rw [htag, dotted_tag, dotted_append, dotted_word kind hkind]
  rfl

theorem Project.PartTag.dotted_eq {project : Project} {kind tag : String}
    (h : project.PartTag kind tag) :
    ∃ name, dotted tag = "aj" :: (dotted project.space ++ kind :: dotted name) := by
  cases h with
  | bone h => exact ⟨_, dotted_part project.space "bone" _ (by decide)⟩
  | animation h => exact ⟨_, dotted_part project.space "animations" _ (by decide)⟩

theorem Project.PartTag.not_mem_kind {project : Project} {kind tag : String}
    (h : project.PartTag kind tag) : '.' ∉ kind.toList := by
  cases h <;> decide

/-- Whether a tag of a bone or an animation goes on from the namespace of its project as the
namespace of another project does. -/
def Project.Shadows (project other : Project) (tag : String) : Prop :=
  ∃ kind, project.PartTag kind tag ∧ Continues (project.space ++ "." ++ kind) other.space

/-- A tag that is longer than a namespace by which that of its project goes on belongs to a
bone or an animation. -/
theorem Project.shadows_of_dotted {project other : Project} {tag : String}
    (h : tag ∈ project.tags) {more rest : List String}
    (hspace : dotted other.space = dotted project.space ++ more) (hmore : more ≠ [])
    (htag : dotted tag = "aj" :: (dotted other.space ++ rest)) (hrest : rest ≠ []) :
    project.Shadows other tag := by
  obtain ⟨next, more, rfl⟩ := List.exists_cons_of_ne_nil hmore
  rw [hspace, List.append_assoc] at htag
  rcases cases_of_mem_tags h with rfl | ⟨kind, hpart⟩
  · -- behind the namespace in the tag of a root there is one piece only
    rw [dotted_rootTag, List.cons_inj_right, List.append_cancel_left_eq] at htag
    have hnone : more ++ rest = [] := (List.cons.inj htag).2.symm
    exact absurd (List.append_eq_nil_iff.1 hnone).2 hrest
  · obtain ⟨name, hname⟩ := hpart.dotted_eq
    rw [hname, List.cons_inj_right, List.append_cancel_left_eq] at htag
    obtain ⟨rfl, -⟩ := List.cons.inj htag
    have hcontinues : dotted other.space = dotted (project.space ++ "." ++ kind) ++ more := by
      rw [hspace, dotted_append, dotted_word kind hpart.not_mem_kind, List.append_assoc,
        List.singleton_append]
    exact ⟨kind, hpart, continues_of_dotted hcontinues⟩

theorem Project.exists_dotted_of_mem_tags {project : Project} {tag : String}
    (h : tag ∈ project.tags) :
    ∃ rest, rest ≠ [] ∧ dotted tag = "aj" :: (dotted project.space ++ rest) := by
  rcases cases_of_mem_tags h with rfl | ⟨kind, hpart⟩
  · exact ⟨["root"], List.cons_ne_nil _ _, dotted_rootTag _⟩
  · obtain ⟨name, hname⟩ := hpart.dotted_eq
    exact ⟨_, List.cons_ne_nil _ _, hname⟩

/-- A tag of two projects with different namespaces belongs to a bone or an animation of one,
and the namespace of the other goes on as such tags do. -/
theorem Project.shadows_of_mem_tags {project other : Project} (hspace : project.space ≠ other.space)
    {tag : String} (h : tag ∈ project.tags) (h' : tag ∈ other.tags) :
    project.Shadows other tag ∨ other.Shadows project tag := by
  obtain ⟨rest, hrest, htag⟩ := exists_dotted_of_mem_tags h
  obtain ⟨rest', hrest', htag'⟩ := exists_dotted_of_mem_tags h'
  have hboth := List.cons.inj (htag.symm.trans htag')
  rcases List.append_eq_append_iff.1 hboth.2 with ⟨more, hmore, -⟩ | ⟨more, hmore, -⟩
  · have hne : more ≠ [] := by
      rintro rfl
      exact hspace (dotted_injective (hmore.trans (List.append_nil _)).symm)
    exact .inl (shadows_of_dotted h hmore hne htag' hrest')
  · have hne : more ≠ [] := by
      rintro rfl
      exact hspace (dotted_injective (hmore.trans (List.append_nil _)))
    exact .inr (shadows_of_dotted h' hmore hne htag hrest)

namespace Export

variable {settings settings' : Settings} {project project' : Project} {pack pack' : Folder}

/-- The same of the packs: a tag that functions of both deal with is one of a bone or an
animation, and the other namespace goes on as such tags do. -/
theorem shadows_of_marks (h : build settings project = .ok pack)
    (h' : build settings' project' = .ok pack') (hspace : project.space ≠ project'.space)
    {tag : String} (hfresh : tag ≠ freshTag) (hmarks : pack.Marks tag) (hmarks' : pack'.Marks tag) :
    project.Shadows project' tag ∨ project'.Shadows project tag :=
  Project.shadows_of_mem_tags hspace (((marks_iff h).1 hmarks).resolve_left hfresh)
    (((marks_iff h').1 hmarks').resolve_left hfresh)

/-- Packs of different namespaces share no function, unless the internal namespace of one
project is the namespace of the other, and no tag but that of fresh entities, unless the
namespace of one project goes on from that of the other as the tags of bones or of animations
do. -/
theorem packs_apart (h : build settings project = .ok pack)
    (h' : build settings' project' = .ok pack') (hspace : project.space ≠ project'.space) :
    ((∃ name, (pack.function? name).isSome = true ∧ (pack'.function? name).isSome = true) ↔
      Naming.internal ⟨project.space⟩ = project'.space ∨
      Naming.internal ⟨project'.space⟩ = project.space) ∧
    ∀ tag ≠ freshTag, pack.Marks tag → pack'.Marks tag →
      project.Shadows project' tag ∨ project'.Shadows project tag := by
  refine ⟨exists_shared_function_iff h h' hspace, ?_⟩
  intro tag hfresh hmarks hmarks'
  exact shadows_of_marks h h' hspace hfresh hmarks hmarks'

/-- A project that has a bone of the name of roots. -/
def rootBone : Project :=
  { oneFrame "walk" with rig := ⟨[⟨"r", "root", 1⟩], .ofList [("r", default)], .ofList []⟩ }

/-- The packs of `fox` and `fox.bone` share no function, but the tag of a bone. -/
theorem packs_apart_of_fox_and_bone :
    let next : Project := { oneFrame "walk" with space := "fox.bone" }
    ∃ pack pack', build ⟨"packs", 1, 12⟩ rootBone = .ok pack ∧
      build ⟨"packs", 1, 12⟩ next = .ok pack' ∧ rootBone.space ≠ next.space ∧
      (¬∃ name, (pack.function? name).isSome = true ∧ (pack'.function? name).isSome = true) ∧
      (rootBone.Shadows next "aj.fox.bone.root" ∨ next.Shadows rootBone "aj.fox.bone.root") := by
  intro next
  obtain ⟨pack, h⟩ : ∃ pack, build ⟨"packs", 1, 12⟩ rootBone = .ok pack :=
    exists_ok_of_isSome (by decide +kernel)
  obtain ⟨pack', h'⟩ : ∃ pack, build ⟨"packs", 1, 12⟩ next = .ok pack :=
    exists_ok_of_isSome (by decide +kernel)
  have hspace : rootBone.space ≠ next.space := by decide
  have hmarks : pack.Marks "aj.fox.bone.root" := (marks_iff h).2 (.inr (by decide))
  have hmarks' : pack'.Marks "aj.fox.bone.root" := (marks_iff h').2 (.inr (by decide))
  obtain ⟨hfunctions, htags⟩ := packs_apart h h' hspace
  refine ⟨pack, pack', h, h', hspace, fun hshared => ?_, htags _ (by decide) hmarks hmarks'⟩
  exact absurd (hfunctions.1 hshared) (by decide)

/-- Packs of different namespaces can have a function, and a tag of a bone or a root, in
common. -/
theorem namespaces_overlap :
    ∃ fox inner bone, build ⟨"packs", 1, 12⟩ rootBone = .ok fox ∧
      build ⟨"packs", 1, 12⟩ { oneFrame "walk" with space := "zzz_fox_internal" } = .ok inner ∧
      build ⟨"packs", 1, 12⟩ { oneFrame "walk" with space := "fox.bone" } = .ok bone ∧
      (fox.function? "zzz_fox_internal:summon").isSome = true ∧
      (inner.function? "zzz_fox_internal:summon").isSome = true ∧
      fox.Marks "aj.fox.bone.root" ∧ bone.Marks "aj.fox.bone.root" := by
  obtain ⟨fox, hfox⟩ : ∃ pack, build ⟨"packs", 1, 12⟩ rootBone = .ok pack :=
    exists_ok_of_isSome (by decide +kernel)
  obtain ⟨inner, hinner⟩ : ∃ pack,
      build ⟨"packs", 1, 12⟩ { oneFrame "walk" with space := "zzz_fox_internal" } = .ok pack :=
    exists_ok_of_isSome (by decide +kernel)
  obtain ⟨bone, hbone⟩ : ∃ pack,
      build ⟨"packs", 1, 12⟩ { oneFrame "walk" with space := "fox.bone" } = .ok pack :=
    exists_ok_of_isSome (by decide +kernel)
  have hsummon : ∀ project ∈ [rootBone, { oneFrame "walk" with space := "zzz_fox_internal" }],
      ((build ⟨"packs", 1, 12⟩ project).toOption.any fun pack =>
        (pack.function? "zzz_fox_internal:summon").isSome) = true := by
    decide +kernel
  have hfirst := hsummon _ (List.mem_cons_self ..)
  have hsecond := hsummon _ (.tail _ (List.mem_cons_self ..))
  rw [hfox] at hfirst
  rw [hinner] at hsecond
  exact ⟨fox, inner, bone, hfox, hinner, hbone, hfirst, hsecond,
    (marks_iff hfox).2 (.inr (by decide)), (marks_iff hbone).2 (.inr (by decide))⟩

end Export

end RigPack

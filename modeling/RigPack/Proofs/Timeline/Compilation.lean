import RigPack.Proofs.RangeTree.Postorder
import RigPack.Proofs.RangeTree.SearchTree
import RigPack.Proofs.Timeline.Faults
import RigPack.Proofs.Timeline.Spelling
import RigPack.Proofs.Export.FileCount
import RigPack.Proofs.Pack.Leaves

/-!
# Compiling an animation

The frames of an animation are arranged in a search tree, their references are looked up
and every node becomes its functions.  `IsCompilation` says which functions there have to
be, frame by frame and branch by branch.

## Main statements

* `Timeline.map_written_units`: the functions are those of the nodes, in post-order.
* `Timeline.compiles_all_frames_or_refuses_first_faulty`: an animation either has a faulty
  frame and is refused for the first one, or it becomes exactly the functions it has to.
-/

namespace RigPack

namespace Timeline

/-- What the frames of an animation have to become, given their search tree. -/
structure IsCompilation (space animation : String) (rig : Rig) (frames : List Frame)
    (tree : RangeTree Frame) (functions : List (String × List String)) : Prop where
  /-- No two functions have the same name. -/
  nodup : (functions.map (·.1)).Nodup
  /-- There are the functions of the branches and those of the frames, and no others. -/
  mem_iff : ∀ function, function ∈ functions ↔
    (∃ min max children, .branch min max children ∈ tree.nodes ∧
      function = spelledBranch space animation min max children) ∨
    ∃ index frame, frames[index]? = some frame ∧
      function ∈ spelledFrame space animation rig index frame
  /-- There are two functions for each frame, one more for a frame with commands and one for
  each branch. -/
  length : functions.length + 1 = 3 * frames.length + frames.countP (·.commands.isSome)
  /-- The function of a branch comes behind all functions of the nodes below its children. -/
  behind : ∀ min max children, .branch min max children ∈ tree.nodes → ∃ before after,
    functions = before ++ spelledBranch space animation min max children :: after ∧
      ∀ child ∈ children, ∀ below ∈ child.nodes,
        spelledNode space animation rig below ⊆ before

variable (names : Naming) {rig : Rig} {variants : VariantSet} {animation : String}

/-- A line does not depend on what the frames have been made into. -/
theorem spelledEntry_of_traverse {α β ε : Type} {f : Nat → α → Except ε β} (space : String)
    {node : RangeTree α} {node' : RangeTree β} (h : node.traverse f = .ok node') :
    spelledEntry space animation node' = spelledEntry space animation node := by
  cases node with
  | leaf index item =>
      obtain ⟨item', -, rfl⟩ := RangeTree.traverse_leaf_eq_ok.1 h
      rfl
  | branch min max children =>
      obtain ⟨children', -, rfl⟩ := RangeTree.traverse_branch_eq_ok.1 h
      rfl

/-- The functions of a timeline are those of its nodes, in post-order. -/
theorem map_written_units {tree : RangeTree Frame} {timeline : Timeline}
    (h : ofFrames rig variants animation tree = .ok timeline) :
    (units names animation timeline).map FunctionUnit.written
      = tree.postorder.flatMap (spelledNode names.space animation rig) := by
  unfold ofFrames at h
  induction tree using RangeTree.induction_children generalizing timeline with
  | leaf index frame =>
      obtain ⟨keyframe, hkeyframe, rfl⟩ := RangeTree.traverse_leaf_eq_ok.1 h
      rw [units, map_written_leafUnits names animation hkeyframe, RangeTree.postorder,
        List.flatMap_singleton]
      rfl
  | branch min max children ih =>
      obtain ⟨children', hchildren, rfl⟩ := RangeTree.traverse_branch_eq_ok.1 h
      have hall := RangeTree.traverseAll_eq_ok.1 hchildren
      have hbelow : children'.map (fun child => (units names animation child).map
          FunctionUnit.written) = children.map fun child =>
            child.postorder.flatMap (spelledNode names.space animation rig) := by
        refine map_eq_map_of_forall₂ ((List.forall₂_and_left _ _).2 ⟨ih, hall⟩) fun hchild => ?_
        exact (hchild.1 hchild.2).symm
      have hentries : (children'.map (dispatch names animation)).map Command.text
          = children.map (spelledEntry names.space animation) := by
        rw [List.map_map]
        refine map_eq_map_of_forall₂ hall fun hchild => ?_
        rw [Function.comp_apply, text_dispatch_eq_spelledEntry, spelledEntry_of_traverse _ hchild]
      rw [units, unitsOf_eq_flatMap, List.map_append, List.map_flatMap, RangeTree.postorder_branch,
        List.flatMap_append, List.flatMap_assoc, List.flatMap_singleton]
      congr 1
      · rw [List.flatMap_def, hbelow, List.flatMap_def]
      · rw [List.map_singleton, FunctionUnit.written, FunctionUnit.lines, hentries]
        rfl

theorem isCompilation_of_ofFrames {frames : List Frame} {hframes : frames ≠ []}
    {timeline : Timeline}
    (h : ofFrames rig variants animation (RangeTree.balanced 0 frames hframes) = .ok timeline) :
    IsCompilation names.space animation rig frames (RangeTree.balanced 0 frames hframes)
      ((units names animation timeline).map FunctionUnit.written) where
  nodup := by
    have hpartition := RangeTree.isPartition_of_traverse
      (RangeTree.isPartition_balanced 0 frames hframes) h
    rw [List.map_map]
    exact units_names_nodup names animation hpartition
  mem_iff function := by
    have htree := RangeTree.isSearchTree_balanced frames hframes
    rw [map_written_units names h, List.mem_flatMap]
    constructor
    · rintro ⟨node, hnode, hmem⟩
      have hnode := (RangeTree.postorder_perm _).mem_iff.1 hnode
      cases node with
      | leaf index frame => exact .inr ⟨index, frame, htree.leaf_mem_nodes_iff.1 hnode, hmem⟩
      | branch min max children => exact .inl ⟨min, max, children, hnode, List.mem_singleton.1 hmem⟩
    · rintro (⟨min, max, children, hnode, rfl⟩ | ⟨index, frame, hframe, hmem⟩)
      · exact ⟨_, (RangeTree.postorder_perm _).mem_iff.2 hnode, List.mem_singleton_self _⟩
      · have hnode := htree.leaf_mem_nodes_iff.2 hframe
        exact ⟨_, (RangeTree.postorder_perm _).mem_iff.2 hnode, hmem⟩
  length := by
    rw [List.length_map]
    exact length_units_of_balanced names animation 0 frames hframes h
  behind min max children hnode := by
    obtain ⟨before, after, hsplit, hbelow⟩ := RangeTree.exists_postorder_of_branch hnode
    refine ⟨before.flatMap (spelledNode names.space animation rig),
      after.flatMap (spelledNode names.space animation rig), ?_, fun child hchild below hmem => ?_⟩
    · rw [map_written_units names h, hsplit, List.flatMap_append, List.flatMap_cons]
      rfl
    · exact fun function hfunction => List.mem_flatMap_of_mem (hbelow child hchild hmem) hfunction

end Timeline

/-- An animation whose frames are numbered as they should be is refused exactly if one of
them is faulty, and then for the first one.  Any other one becomes the functions that its
frames have to become, over their search tree. -/
theorem Timeline.compiles_all_frames_or_refuses_first_faulty (names : Naming) (rig : Rig)
    (variants : VariantSet) (animation : Animation) (hcheck : animation.checkFrames = .ok ())
    (hframes : animation.frames ≠ []) :
    ((∃ defect, ofAnimation rig variants animation = .error defect) ↔
      ∃ frame ∈ animation.frames, frame.IsFaulty rig variants) ∧
    (∀ defect, ofAnimation rig variants animation = .error defect ↔
      ∃ index frame, animation.frames[index]? = some frame ∧
        Frame.Refused frame rig variants animation.name index defect ∧
        ∀ earlier < index, ∀ other : Frame, animation.frames[earlier]? = some other →
          ¬ other.IsFaulty rig variants) ∧
    ∀ timeline, ofAnimation rig variants animation = .ok timeline →
      ∃ tree, RangeTree.ofTimeline animation.frames = .ok tree ∧
        tree.IsSearchTree animation.frames ∧
        IsCompilation names.space animation.name rig animation.frames tree
          ((units names animation.name timeline).map FunctionUnit.written) := by
  have hle : animation.frames.length ≤ RangeTree.maxFrames := by
    rw [Blueprint.length_of_checkFrames hcheck, RangeTree.maxFrames]
    exact animation.duration.toNat_lt_size.le
  have htree := RangeTree.ofTimeline_of_length_le hframes hle
  have hofAnimation : ofAnimation rig variants animation
      = ofFrames rig variants animation.name (RangeTree.balanced 0 animation.frames hframes) := by
    unfold ofAnimation
    rw [hcheck, htree]
    rfl
  have herror (defect : Defect) : ofAnimation rig variants animation = .error defect ↔
      ∃ index frame, animation.frames[index]? = some frame ∧
        Frame.Refused frame rig variants animation.name index defect ∧
        ∀ earlier < index, ∀ other : Frame, animation.frames[earlier]? = some other →
          ¬ other.IsFaulty rig variants := by
    rw [hofAnimation, ofFrames, RangeTree.traverse_balanced_eq_error_iff]
    simp only [Keyframe.ofFrame_eq_error_iff, Keyframe.exists_ofFrame_eq_ok_iff]
  refine ⟨⟨?_, ?_⟩, herror, fun timeline hok => ?_⟩
  · rintro ⟨defect, hdefect⟩
    obtain ⟨index, frame, hframe, hrefused, -⟩ := (herror defect).1 hdefect
    exact ⟨frame, List.mem_of_getElem? hframe, hrefused.isFaulty⟩
  · rintro ⟨frame, hframe, hfaulty⟩
    cases hresult : ofAnimation rig variants animation with
    | error defect => exact ⟨defect, rfl⟩
    | ok timeline =>
        -- every frame of a timeline was looked up
        obtain ⟨index, hindex⟩ := List.mem_iff_getElem?.1 hframe
        have hleaf := (RangeTree.hasLeaf_balanced_iff 0 _ hframes).2 ⟨index, rfl, hindex⟩
        rw [hofAnimation] at hresult
        obtain ⟨keyframe, hkeyframe, -⟩ := RangeTree.hasLeaf_traverse hresult hleaf
        exact absurd hfaulty (Keyframe.exists_ofFrame_eq_ok_iff.1 ⟨keyframe, hkeyframe⟩)
  · rw [hofAnimation] at hok
    exact ⟨_, htree, RangeTree.isSearchTree_balanced _ hframes, isCompilation_of_ofFrames names hok⟩

/-- Of two animations with a sound first frame, the one is compiled, and the other is
refused for the least of the two bones that its second frame should not move. -/
theorem Timeline.compiles_walk_and_refuses_stumble :
    let frame (index : UInt32) (ids : List String) (variant : String) : Frame :=
      ⟨index, .ofList (ids.map fun id => (id, default)), none, some ⟨variant, some " "⟩⟩
    let animation (ids : List String) (variant : String) : Animation :=
      ⟨"walk", 2, .loop, [frame 0 ["b2"] "plain", frame 1 ids variant]⟩
    let rig : Rig := ⟨[⟨"b2", "head", 1⟩, ⟨"b1", "body", 2⟩], .empty, .empty⟩
    let variants : VariantSet := ⟨[⟨"plain", true, [], false⟩], 0, by decide, by decide⟩
    (∃ timeline, ofAnimation rig variants (animation ["b1", "b2"] "plain") = .ok timeline ∧
      ("leaf_0", ["execute on passengers run "
          ++ "function zzz_fox_internal:animations/walk/tree/leaf_0_as_bone",
        "function zzz_fox_internal:apply_variant/plain_as_root"])
        ∈ (units ⟨"fox"⟩ "walk" timeline).map FunctionUnit.written) ∧
    ofAnimation rig variants (animation ["b2", "z", "b1", "arm"] "none")
      = .error (.unknownBone "walk" 1 "arm") := by
  intro frame animation rig variants
  have hsound : ¬ (frame 0 ["b2"] "plain").IsFaulty rig variants :=
    (@Keyframe.exists_ofFrame_eq_ok_iff rig variants "walk" 0 _).1 ⟨_, rfl⟩
  have hsound_later : ¬ (frame 1 ["b1", "b2"] "plain").IsFaulty rig variants :=
    (@Keyframe.exists_ofFrame_eq_ok_iff rig variants "walk" 1 _).1 ⟨_, rfl⟩
  constructor
  · obtain ⟨hfails, -, hcompiles⟩ := compiles_all_frames_or_refuses_first_faulty ⟨"fox"⟩ rig
      variants (animation ["b1", "b2"] "plain") rfl (List.cons_ne_nil _ _)
    cases hresult : ofAnimation rig variants (animation ["b1", "b2"] "plain") with
    | error defect =>
        obtain ⟨faulty, hmem, hfaulty⟩ := hfails.1 ⟨defect, hresult⟩
        rcases List.mem_pair.1 hmem with rfl | rfl
        · exact absurd hfaulty hsound
        · exact absurd hfaulty hsound_later
    | ok timeline =>
        obtain ⟨tree, -, -, hfunctions⟩ := hcompiles timeline hresult
        exact ⟨timeline, rfl, (hfunctions.mem_iff _).2 (.inr ⟨0, _, rfl, by decide +kernel⟩)⟩
  · obtain ⟨-, hrefused, -⟩ := compiles_all_frames_or_refuses_first_faulty ⟨"fox"⟩ rig variants
      (animation ["b2", "z", "b1", "arm"] "none") rfl (List.cons_ne_nil _ _)
    refine (hrefused _).2 ⟨1, _, rfl, Keyframe.ofFrame_eq_error_iff.1 rfl, ?_⟩
    intro earlier hearlier other hother
    obtain rfl : earlier = 0 := by omega
    rwa [← Option.some.inj hother]

end RigPack

import RigPack.Proofs.Pack.Named

/-!
# The leaves of a timeline

An animation lists frames, its timeline is a tree, and the functions of a pack come from
the leaves of that tree.  This file leads from one to the other: a timeline has a leaf for
each frame, under the number at which the frame stands, and no other leaf.

## Main statements

* `hasLeaf_ofAnimation_iff`: the leaves of an animation's timeline are its frames.
* `Timeline.leafUnits_subset_of_hasLeaf`: each leaf has its functions in the pack.
-/

namespace RigPack

namespace RangeTree

variable {α β ε : Type}

theorem hasLeaf_branch_pair_iff {min max index : Nat} {lower upper : RangeTree α} {item : α} :
    (branch min max [lower, upper]).HasLeaf index item ↔
      lower.HasLeaf index item ∨ upper.HasLeaf index item := by
  constructor
  · intro hleaf
    cases hleaf with
    | child hchild hleaf =>
        rcases List.mem_pair.1 hchild with rfl | rfl
        · exact .inl hleaf
        · exact .inr hleaf
  · rintro (hleaf | hleaf)
    · exact .child (List.mem_cons_self ..) hleaf
    · exact .child (.tail _ (List.mem_cons_self ..)) hleaf

/-- The leaf of a number in the balanced tree holds the item at that position. -/
theorem hasLeaf_balanced_iff (low : Nat) (items : List α) (hitems : items ≠ []) {index : Nat}
    {item : α} : (balanced low items hitems).HasLeaf index item ↔
      ∃ i, index = low + i ∧ items[i]? = some item := by
  fun_induction balanced low items hitems with
  | case1 low only =>
      constructor
      · intro hleaf
        cases hleaf
        exact ⟨0, rfl, rfl⟩
      · rintro ⟨i, rfl, hi⟩
        obtain ⟨rfl, rfl⟩ : 0 = i ∧ only = item := by
          simpa [List.getElem?_singleton, eq_comm] using hi
        exact .root
  | case2 low first second rest _ lower _ ihlower ihupper =>
      rw [hasLeaf_branch_pair_iff, ihlower, ihupper]
      simp only [List.getElem?_take, List.getElem?_drop]
      constructor
      · rintro (⟨i, hindex, hi⟩ | ⟨i, hindex, hi⟩)
        · split at hi
          · exact ⟨i, hindex, hi⟩
          · contradiction
        · exact ⟨lower + i, by omega, hi⟩
      · rintro ⟨i, hindex, hi⟩
        rcases Nat.lt_or_ge i lower with hlower | hupper
        · exact .inl ⟨i, hindex, by rwa [if_pos hlower]⟩
        · exact .inr ⟨i - lower, by omega, by rwa [Nat.add_sub_cancel' hupper]⟩

/-- Every item that was there is made into a new one. -/
theorem hasLeaf_traverse {f : Nat → α → Except ε β} {node : RangeTree α} {node' : RangeTree β}
    (h : node.traverse f = .ok node') {index : Nat} {item : α} (hleaf : node.HasLeaf index item) :
    ∃ item', f index item = .ok item' ∧ node'.HasLeaf index item' := by
  induction hleaf generalizing node' with
  | root =>
      obtain ⟨item', hitem', rfl⟩ := traverse_leaf_eq_ok.1 h
      exact ⟨item', hitem', .root⟩
  | child hchild _ ih =>
      obtain ⟨children', hchildren, rfl⟩ := traverse_branch_eq_ok.1 h
      obtain ⟨child', hchild', hok⟩ :=
        exists_right_of_forall₂ (traverseAll_eq_ok.1 hchildren) hchild
      obtain ⟨item', hitem', hleaf'⟩ := ih hok
      exact ⟨item', hitem', .child hchild' hleaf'⟩

end RangeTree

/-- A timeline has the functions of each of its leaves. -/
theorem Timeline.leafUnits_subset_of_hasLeaf {names : Naming} {animation : String}
    {node : Timeline} {index : Nat} {frame : Keyframe} (h : node.HasLeaf index frame) :
    leafUnits names animation index frame ⊆ units names animation node := by
  induction h with
  | root => exact List.Subset.refl _
  | @child min max children child hchild h ih =>
      intro unit hunit
      rw [units, unitsOf_eq_flatMap]
      exact List.mem_append_left _ (List.mem_flatMap.2 ⟨child, hchild, ih hunit⟩)

/-- The leaves of an animation's timeline are its frames, each with the poses that it gives to
bones of the rig. -/
theorem Blueprint.hasLeaf_ofAnimation_iff {rig : Rig} {variants : VariantSet}
    {animation : Animation} {motion : Motion}
    (h : Motion.ofAnimation rig variants animation = .ok motion) {index : Nat}
    {keyframe : Keyframe} :
    motion.timeline.HasLeaf index keyframe ↔ ∃ frame, animation.frames[index]? = some frame ∧
      keyframe = ⟨frame.posesIn rig, frame.commands, frame.switch⟩ := by
  obtain ⟨frames, hframes, htimeline, -, -⟩ := ofAnimation_eq_ok h
  obtain ⟨hne, rfl⟩ := RangeTree.ofTimeline_eq_ok hframes
  constructor
  · intro hleaf
    obtain ⟨frame, hframe, hkeyframe⟩ := RangeTree.hasLeaf_of_traverse htimeline hleaf
    obtain ⟨i, hindex, hi⟩ := (RangeTree.hasLeaf_balanced_iff 0 _ hne).1 hframe
    rw [Nat.zero_add] at hindex
    exact ⟨frame, hindex ▸ hi, ofFrame_eq_ok hkeyframe⟩
  · rintro ⟨frame, hframe, rfl⟩
    have hleaf := (RangeTree.hasLeaf_balanced_iff 0 _ hne).2 ⟨index, rfl, hframe⟩
    rw [Nat.zero_add] at hleaf
    obtain ⟨keyframe, hkeyframe, hleaf'⟩ := RangeTree.hasLeaf_traverse htimeline hleaf
    rwa [ofFrame_eq_ok hkeyframe] at hleaf'

end RigPack

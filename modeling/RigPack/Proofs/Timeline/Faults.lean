import RigPack.Timeline.Keyframe
import RigPack.Proofs.FirstFault
import RigPack.Proofs.Table
import RigPack.Proofs.Text.ByteOrder

/-!
# The first faulty frame

A frame is faulty if it moves a bone that the rig lacks or switches to a variant that
there is not.  It is refused for one defect (`Frame.Refused`): the least id in the order
of bytes that no bone has, or else the variant.  A timeline is refused for the defect of
its first faulty frame.

## Main statements

* `Keyframe.ofFrame_eq_error_iff`: what a single frame is refused for.
* `RangeTree.traverse_balanced_eq_error_iff`: a balanced tree fails where the first of its
  items does.
-/

namespace RigPack

namespace RangeTree

variable {α β ε : Type}

/-- A check of every leaf of a balanced tree fails where the first item fails that does not
pass it, and as that item does. -/
theorem traverse_balanced_eq_error_iff {f : Nat → α → Except ε β} {items : List α}
    {hitems : items ≠ []} {e : ε} :
    (balanced 0 items hitems).traverse f = .error e ↔
      ∃ index item, items[index]? = some item ∧ f index item = .error e ∧
        ∀ earlier < index, ∀ other, items[earlier]? = some other →
          ∃ b, f earlier other = .ok b := by
  let fault (entry : α × Nat) : List ε :=
    match f entry.2 entry.1 with
    | .ok _ => []
    | .error e => [e]
  have hfault (item : α) (number : Nat) : Reports (f number item) (fault (item, number)) := by
    simp only [fault]
    cases f number item with
    | ok b => exact .ok b
    | error e => exact .error e []
  have hreports := Reports.traverse_balanced hfault 0 items hitems
  rw [hreports.eq_error_iff, List.head?_flatMap, List.findSome?_eq_some_iff]
  simp only [← (hfault _ _).eq_error_iff, List.head?_eq_none_iff, ← (hfault _ _).exists_ok_iff]
  constructor
  · rintro ⟨before, ⟨item, index⟩, after, hsplit, herror, hpassed⟩
    have hget (i : Nat) : (before ++ (item, index) :: after)[i]? = items[i]?.map (·, i) := by
      rw [← hsplit, List.getElem?_zipIdx, Nat.zero_add]
    have hitem := hget before.length
    rw [List.getElem?_append_right (Nat.le_refl _), Nat.sub_self, List.getElem?_cons_zero,
      eq_comm, Option.map_eq_some_iff] at hitem
    obtain ⟨item', hitem, heq⟩ := hitem
    obtain ⟨rfl, rfl⟩ := Prod.mk.inj heq
    refine ⟨_, _, hitem, herror, fun earlier hearlier other hother => ?_⟩
    have hmem := hget earlier
    rw [List.getElem?_append_left hearlier, hother, Option.map_some] at hmem
    exact hpassed _ (List.mem_of_getElem? hmem)
  · rintro ⟨index, item, hitem, herror, hpassed⟩
    obtain ⟨hindex, hget⟩ := List.getElem?_eq_some_iff.1 hitem
    have hlength : index < items.zipIdx.length := by rwa [List.length_zipIdx]
    refine ⟨items.zipIdx.take index, (item, index), items.zipIdx.drop (index + 1), ?_, herror, ?_⟩
    · have hentry : items.zipIdx[index] = (item, index) := by
        rw [List.getElem_zipIdx, hget, Nat.zero_add]
      rw [← hentry, ← List.drop_eq_getElem_cons hlength, List.take_append_drop]
    · rintro ⟨other, earlier⟩ hother
      obtain ⟨position, hposition, heq⟩ := List.mem_take_iff_getElem.1 hother
      rw [List.getElem_zipIdx, Nat.zero_add] at heq
      obtain ⟨rfl, rfl⟩ := Prod.mk.inj heq
      exact hpassed position (by omega) _ (List.getElem?_eq_getElem _)

end RangeTree

/-! ## What a frame is refused for -/

namespace Frame

variable (frame : Frame) (rig : Rig) (variants : VariantSet)

/-- Whether a frame moves the bone of an id that no bone of the rig has. -/
def LacksBone (id : String) : Prop :=
  (frame.poses.get? id).isSome = true ∧ ∀ bone ∈ rig.bones, bone.id ≠ id

/-- Whether a frame switches to a variant under a name that no variant has. -/
def LacksVariant (name : String) : Prop :=
  (∃ switch, frame.switch = some switch ∧ switch.variant = name) ∧
    ∀ variant ∈ variants.variants, variant.name ≠ name

/-- Whether a frame refers to something that there is not. -/
def IsFaulty : Prop :=
  (∃ id, frame.LacksBone rig id) ∨ ∃ name, frame.LacksVariant variants name

/-- The defect for which a faulty frame is refused: its least id that no bone has, in the
order of bytes, or its variant if all bones are there. -/
inductive Refused (animation : String) (index : Nat) : Defect → Prop
  | bone {id : String} (hlacks : frame.LacksBone rig id)
      (hleast : ∀ other, frame.LacksBone rig other → ¬ Text.bytes other < Text.bytes id) :
      Refused animation index (.unknownBone animation index id)
  | variant {name : String} (hbones : ∀ id, ¬ frame.LacksBone rig id)
      (hlacks : frame.LacksVariant variants name) :
      Refused animation index (.unknownVariant animation index name)

variable {frame rig variants}

theorem Refused.isFaulty {animation : String} {index : Nat} {defect : Defect}
    (h : frame.Refused rig variants animation index defect) : frame.IsFaulty rig variants := by
  rcases h with ⟨hlacks, -⟩ | ⟨-, hlacks⟩
  · exact .inl ⟨_, hlacks⟩
  · exact .inr ⟨_, hlacks⟩

theorem lacksBone_iff {id : String} :
    frame.LacksBone rig id ↔ id ∈ frame.poses.keys ∧ (rig.bone? id).isNone = true := by
  unfold LacksBone Rig.bone?
  rw [Table.mem_keys_iff, Option.isNone_iff_eq_none, List.find?_eq_none]
  simp only [decide_eq_true_eq, ne_eq]

/-- What is found first is the least of the ids that no bone has. -/
theorem lacksBone_of_unknownBone? {id : String} (h : frame.unknownBone? rig = some id) :
    frame.LacksBone rig id ∧ ∀ other, frame.LacksBone rig other → ¬ other < id := by
  obtain ⟨hnone, before, after, hkeys, hbefore⟩ := List.find?_eq_some_iff_append.1 h
  have hsorted : frame.poses.keys.Pairwise (· < ·) := List.pairwise_map.2 frame.poses.sorted
  have hmem : id ∈ frame.poses.keys := by
    rw [hkeys]
    exact List.mem_append_right _ (List.mem_cons_self ..)
  refine ⟨lacksBone_iff.2 ⟨hmem, hnone⟩, fun other hother hless => ?_⟩
  obtain ⟨hkey, hnone_other⟩ := lacksBone_iff.1 hother
  rw [hkeys] at hkey hsorted
  rcases List.mem_append.1 hkey with hkey | hkey
  · have hfound := hbefore other hkey
    rw [hnone_other] at hfound
    contradiction
  · rcases List.mem_cons.1 hkey with rfl | hkey
    · exact String.lt_irrefl _ hless
    · have hgreater := (List.pairwise_cons.1 (List.pairwise_append.1 hsorted).2.1).1 other hkey
      exact String.lt_asymm hless hgreater

theorem unknownBone?_eq_none_iff :
    frame.unknownBone? rig = none ↔ ∀ id, ¬ frame.LacksBone rig id := by
  unfold unknownBone?
  rw [List.find?_eq_none]
  simp only [lacksBone_iff, not_and]

theorem unknownBone?_eq_some_iff {id : String} : frame.unknownBone? rig = some id ↔
    frame.LacksBone rig id ∧
      ∀ other, frame.LacksBone rig other → ¬ Text.bytes other < Text.bytes id := by
  simp only [Text.bytes_lt_bytes_iff]
  refine ⟨lacksBone_of_unknownBone?, fun ⟨hlacks, hleast⟩ => ?_⟩
  cases hfound : frame.unknownBone? rig with
  | none => exact absurd hlacks (unknownBone?_eq_none_iff.1 hfound id)
  | some other =>
      -- of two least ids neither is less
      obtain ⟨hother, hother_least⟩ := lacksBone_of_unknownBone? hfound
      have hle := String.not_lt.1 (hleast other hother)
      have hge := String.not_lt.1 (hother_least id hlacks)
      rw [String.le_antisymm hge hle]

theorem unknownVariant?_eq_some_iff {name : String} :
    frame.unknownVariant? variants = some name ↔ frame.LacksVariant variants name := by
  have hget (name : String) : (variants.get? name).isNone = true ↔
      ∀ variant ∈ variants.variants, variant.name ≠ name := by
    rw [Option.isNone_iff_eq_none, VariantSet.get?, List.find?_eq_none]
    simp only [decide_eq_true_eq, ne_eq]
  unfold unknownVariant? LacksVariant
  cases hswitch : frame.switch with
  | none => simp
  | some switch =>
      simp only [Option.ite_none_right_eq_some, Option.some.injEq, hget, exists_eq_left']
      constructor
      · rintro ⟨hall, rfl⟩
        exact ⟨rfl, hall⟩
      · rintro ⟨rfl, hall⟩
        exact ⟨hall, rfl⟩

end Frame

/-- A single frame is refused if it is faulty, for the defect that comes first. -/
theorem Keyframe.ofFrame_eq_error_iff {rig : Rig} {variants : VariantSet} {animation : String}
    {index : Nat} {frame : Frame} {defect : Defect} :
    ofFrame rig variants animation index frame = .error defect ↔
      frame.Refused rig variants animation index defect := by
  unfold ofFrame
  cases hbone : frame.unknownBone? rig with
  | some id =>
      obtain ⟨hlacks, hleast⟩ := Frame.unknownBone?_eq_some_iff.1 hbone
      constructor
      · rintro ⟨⟩
        exact .bone hlacks hleast
      · rintro (⟨hother, hother_least⟩ | ⟨hnone, -⟩)
        · have hfound := Frame.unknownBone?_eq_some_iff.2 ⟨hother, hother_least⟩
          rw [hbone, Option.some.injEq] at hfound
          rw [hfound]
        · exact absurd hlacks (hnone id)
  | none =>
      have hbones := Frame.unknownBone?_eq_none_iff.1 hbone
      cases hvariant : frame.unknownVariant? variants with
      | some name =>
          have hlacks := Frame.unknownVariant?_eq_some_iff.1 hvariant
          constructor
          · rintro ⟨⟩
            exact .variant hbones hlacks
          · rintro (⟨hother, -⟩ | ⟨-, hother⟩)
            · exact absurd hother (hbones _)
            · have hfound := Frame.unknownVariant?_eq_some_iff.2 hother
              rw [hvariant, Option.some.injEq] at hfound
              rw [hfound]
      | none =>
          refine ⟨nofun, ?_⟩
          rintro (⟨hother, -⟩ | ⟨-, hother⟩)
          · exact absurd hother (hbones _)
          · have hfound := Frame.unknownVariant?_eq_some_iff.2 hother
            rw [hvariant] at hfound
            contradiction

/-- A frame that is not faulty is not refused. -/
theorem Keyframe.exists_ofFrame_eq_ok_iff {rig : Rig} {variants : VariantSet}
    {animation : String} {index : Nat} {frame : Frame} :
    (∃ keyframe, ofFrame rig variants animation index frame = .ok keyframe) ↔
      ¬ frame.IsFaulty rig variants := by
  constructor
  · rintro ⟨keyframe, hok⟩ hfaulty
    unfold ofFrame at hok
    split at hok
    · contradiction
    · rename_i hbone
      split at hok
      · contradiction
      · rename_i hvariant
        rcases hfaulty with ⟨id, hlacks⟩ | ⟨name, hlacks⟩
        · exact Frame.unknownBone?_eq_none_iff.1 hbone id hlacks
        · rw [Frame.unknownVariant?_eq_some_iff.2 hlacks] at hvariant
          contradiction
  · intro hsound
    cases hresult : ofFrame rig variants animation index frame with
    | ok keyframe => exact ⟨keyframe, rfl⟩
    | error defect => exact absurd (ofFrame_eq_error_iff.1 hresult).isFaulty hsound

end RigPack

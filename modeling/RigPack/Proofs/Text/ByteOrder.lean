import Mathlib.Tactic.ByContra
import Mathlib.Tactic.SplitIfs
import RigPack.Table

/-!
# The order of bytes

Tables list their entries in the order of code points.  Outside they are compared as they
are stored, byte by byte.  Both orders are the same (`bytes_lt_bytes_iff`): the encoding
of the greater of two characters is longer, and then its first byte is greater, or the two
are equally long and spell their numbers in groups of six bits, the highest one first.
-/

namespace RigPack.Text

/-- The bytes in which a text is stored. -/
def bytes (s : String) : List UInt8 :=
  s.toUTF8.data.toList

theorem bytes_eq_flatMap (s : String) : bytes s = s.toList.flatMap String.utf8EncodeChar := by
  calc bytes s
      = (String.ofList s.toList).toByteArray.data.toList := by rw [String.ofList_toList]; rfl
    _ = s.toList.utf8Encode.data.toList := by rw [String.toByteArray_ofList]
    _ = s.toList.flatMap String.utf8EncodeChar := List.toList_data_toByteArray

theorem codePoint_lt (c : Char) : c.val.toNat < 1114112 := by
  have hvalid := c.valid
  unfold UInt32.isValidChar Nat.isValidChar at hvalid
  omega

/-- The bytes of the lesser of two characters come first, whatever follows them. -/
theorem utf8EncodeChar_append_lt {c d : Char} (hlt : c < d) (rest other : List UInt8) :
    String.utf8EncodeChar c ++ rest < String.utf8EncodeChar d ++ other := by
  have hlt : c.val.toNat < d.val.toNat := hlt
  have hc := codePoint_lt c
  have hd := codePoint_lt d
  -- each group of six bits is what the next lower one leaves
  have hgroups (n : Nat) : n / 4096 = n / 64 / 64 ∧ n / 262144 = n / 64 / 64 / 64 := by omega
  unfold String.utf8EncodeChar
  generalize c.val.toNat = m at *
  generalize d.val.toNat = n at *
  simp only [hgroups]
  -- a byte for each of the two lengths, or one length and the same groups
  split_ifs
  all_goals first
    | omega
    | simp (disch := omega) only [List.cons_append, List.nil_append, List.cons_lt_cons_iff,
        UInt8.lt_iff_toNat_lt, ← UInt8.toNat_inj, UInt8.toNat_ofNat', Nat.mod_eq_of_lt]
      omega

theorem utf8EncodeChar_append_pos (c : Char) (rest : List UInt8) :
    [] < String.utf8EncodeChar c ++ rest := by
  cases hbytes : String.utf8EncodeChar c ++ rest with
  | nil =>
      have hnil := (List.append_eq_nil_iff.1 hbytes).1
      have hlength := String.length_utf8EncodeChar c
      have hpos := c.utf8Size_pos
      rw [hnil, List.length_nil] at hlength
      omega
  | cons byte bytes => exact List.nil_lt_cons byte bytes

theorem flatMap_utf8EncodeChar_lt {first second : List Char} (h : first < second) :
    first.flatMap String.utf8EncodeChar < second.flatMap String.utf8EncodeChar := by
  induction h with
  | nil =>
      rw [List.flatMap_nil, List.flatMap_cons]
      exact utf8EncodeChar_append_pos _ _
  | cons hrest ih =>
      rw [List.flatMap_cons, List.flatMap_cons]
      exact List.append_left_lt ih
  | rel hlt =>
      rw [List.flatMap_cons, List.flatMap_cons]
      exact utf8EncodeChar_append_lt hlt _ _

theorem bytes_lt_bytes {first second : String} (h : first < second) :
    bytes first < bytes second := by
  rw [bytes_eq_flatMap, bytes_eq_flatMap]
  exact flatMap_utf8EncodeChar_lt (String.lt_iff.1 h)

theorem bytes_lt_bytes_iff {first second : String} :
    bytes first < bytes second ↔ first < second := by
  refine ⟨fun h => ?_, bytes_lt_bytes⟩
  by_contra hnot
  by_cases hgreater : second < first
  · exact List.lt_asymm h (bytes_lt_bytes hgreater)
  · have heq := String.le_antisymm (String.not_lt.1 hgreater) (String.not_lt.1 hnot)
    rw [heq] at h
    exact List.lt_irrefl _ h

end RigPack.Text

import RigPack.Proofs.Path
import RigPack.Proofs.Store.Growing
import RigPack.Proofs.Table

/-!
# What lies outside of a folder

A path that `LiesIn` a folder is that of the folder with names behind it that lead down.  This
file shows what comes of calls about such paths on a disk: files and folders outside stay as they
were, but for folders that are made because the folder itself lies in them (`KeepsOutside`).

## Main statements

* `Path.segments_isPrefix_of_parent?`: the way to the folder above is the beginning of the way.
* `Disk.keepsOutside_writeBytes`, `Disk.keepsOutside_makeFolders`, `Disk.keepsOutside_removeTree`:
  the calls that change a disk, about paths in a folder.

## Strategy

Where a path leads is known from its segments, be there anything on the way or not
(`Disk.target`).  So a path that lies in a folder leads to what the folder `Covers`, and a path
above one of these leads there, too, or to a folder on the way (`Disk.Passes`).
-/

namespace RigPack

/-! ## Paths in a folder -/

namespace Path

/-- A segment that leads down: into a folder, or to a file. -/
def IsComponent (s : String) : Prop :=
  IsSegment s ∧ s ≠ "." ∧ s ≠ ".."

/-- Whether a path is that of a folder, or the folder's with components behind it. -/
def LiesIn (root path : String) : Prop :=
  ∃ components, (∀ component ∈ components, IsComponent component) ∧
    path = "/".intercalate (root :: components)

theorem liesIn_self (root : String) : LiesIn root root :=
  ⟨[], by simp, (String.intercalate_singleton).symm⟩

theorem segments_intercalate_cons (root : String) {components : List String}
    (hcomponents : ∀ component ∈ components, IsComponent component) :
    segments ("/".intercalate (root :: components)) = segments root ++ components := by
  cases components with
  | nil => rw [String.intercalate_singleton, List.append_nil]
  | cons component components =>
      rw [String.intercalate_cons_of_ne_nil (List.cons_ne_nil _ _), segments_append,
        segments_intercalate fun part hpart => (hcomponents part hpart).1]

theorem isAbsolute_eq_of_isPrefix {front path : String} (h : front.toList <+: path.toList)
    (hne : front ≠ "") : isAbsolute front = isAbsolute path := by
  obtain ⟨rest, hrest⟩ := h
  have hne : front.toList ≠ [] := by simpa using hne
  rw [isAbsolute, isAbsolute, ← hrest, List.head?_append_of_ne_nil _ hne]

/-! ## The folder above a path -/

theorem dropEmptyEnd_isSuffix (cs : List Char) : dropEmptyEnd cs <:+ cs := by
  fun_induction dropEmptyEnd cs with
  | case1 => exact List.suffix_rfl
  | case2 cs _ ih => exact ih.trans (List.suffix_cons _ _)
  | case3 => exact List.suffix_cons _ _
  | case4 cs _ ih => exact ih.trans ((List.suffix_cons _ _).trans (List.suffix_cons _ _))
  | case5 => exact List.suffix_rfl

theorem segments_isPrefix_of_append (front rest : List Char) :
    segments (String.ofList front) <+: segments (String.ofList (front ++ '/' :: rest)) := by
  have htext : String.ofList (front ++ '/' :: rest)
      = String.ofList front ++ "/" ++ String.ofList rest := by
    rw [← String.toList_inj]
    simp
  rw [htext, segments_append]
  exact List.prefix_append _ _

/-- What is dropped of the end of a path are whole segments. -/
theorem segments_isPrefix_of_dropEmptyEnd (cs : List Char) :
    segments (String.ofList (dropEmptyEnd cs).reverse) <+: segments (String.ofList cs.reverse) := by
  fun_induction dropEmptyEnd cs with
  | case1 => exact List.prefix_rfl
  | case2 cs _ ih =>
      rw [List.reverse_cons]
      exact ih.trans (segments_isPrefix_of_append _ [])
  | case3 => exact List.nil_prefix
  | case4 cs _ ih =>
      rw [List.reverse_cons, List.reverse_cons, List.append_assoc]
      exact ih.trans (segments_isPrefix_of_append _ _)
  | case5 => exact List.prefix_rfl

/-- A path without its last name has the segments in front of it. -/
theorem segments_isPrefix_of_dropWhile (cs : List Char) :
    segments (String.ofList (cs.dropWhile (· ≠ '/')).reverse)
      <+: segments (String.ofList cs.reverse) := by
  have hsplit : cs.reverse
      = (cs.dropWhile (· ≠ '/')).reverse ++ (cs.takeWhile (· ≠ '/')).reverse := by
    rw [← List.reverse_append, List.takeWhile_append_dropWhile]
  cases hrest : cs.dropWhile (· ≠ '/') with
  | nil => exact List.nil_prefix
  | cons c rest =>
      obtain rfl : c = '/' := by
        have hhead := List.head?_dropWhile_not (fun c : Char => decide (c ≠ '/')) cs
        rw [hrest] at hhead
        simpa using hhead
      rw [hsplit, hrest, List.reverse_cons, List.append_assoc]
      refine .trans ?_ (segments_isPrefix_of_append _ _)
      have htext : String.ofList (rest.reverse ++ ['/'])
          = String.ofList rest.reverse ++ "/" ++ "" := by
        rw [← String.toList_inj]
        simp
      rw [htext, segments_append]
      exact (List.append_nil _).symm ▸ List.prefix_rfl

section Parent

variable {path above : String} (h : parent? path = some above)

include h

theorem toList_isPrefix_of_parent? : above.toList <+: path.toList := by
  unfold parent? at h
  dsimp only at h
  split at h
  · contradiction
  · rw [← Option.some.inj h, String.toList_ofList, ← List.reverse_suffix, List.reverse_reverse]
    exact (dropEmptyEnd_isSuffix _).trans
      ((List.dropWhile_suffix _).trans (dropEmptyEnd_isSuffix _))

/-- The way to the folder above is the beginning of the way. -/
theorem segments_isPrefix_of_parent? : segments above <+: segments path := by
  unfold parent? at h
  dsimp only at h
  split at h
  · contradiction
  · have hpath := segments_isPrefix_of_dropEmptyEnd path.toList.reverse
    rw [List.reverse_reverse, String.ofList_toList] at hpath
    rw [← Option.some.inj h]
    exact (segments_isPrefix_of_dropEmptyEnd _).trans
      ((segments_isPrefix_of_dropWhile _).trans hpath)

end Parent

end Path

/-! ## Places -/

namespace Place

/-- The place that a segment leads to by itself, be there anything or not. -/
def follow (place : Place) (segment : String) : Place :=
  if segment = "." then place
  else if segment = ".." then place.parent
  else place.child segment

/-- Whether a place is that of a folder or lies below it, as their keys tell. -/
def Covers (folder place : Place) : Prop :=
  (folder.key ++ "\x00").toList <+: (place.key ++ "\x00").toList

theorem Covers.trans {outer inner place : Place} (h : outer.Covers inner)
    (h' : inner.Covers place) : outer.Covers place :=
  List.IsPrefix.trans h h'

theorem Covers.of_key_eq {folder place other : Place} (h : folder.Covers place)
    (hkey : other.key = place.key) : folder.Covers other := by
  unfold Covers at h ⊢
  rwa [hkey]

theorem toList_key (place : Place) :
    place.key.toList = place.segments.flatMap fun segment => '\x00' :: segment.toList := by
  rw [key, String.toList_join, List.flatMap_map]
  simp

theorem covers_append (folder : Place) (segments : List String) :
    folder.Covers ⟨folder.segments ++ segments⟩ := by
  unfold Covers
  simp only [String.toList_append, toList_key, List.flatMap_append, List.append_assoc]
  rw [List.prefix_append_right_inj]
  cases segments with
  | nil => exact List.prefix_rfl
  | cons segment segments => exact ⟨_, rfl⟩

/-- Segments that lead down lead to what a folder covers. -/
theorem foldl_follow_of_isComponent (place : Place) {segments : List String}
    (hsegments : ∀ segment ∈ segments, Path.IsComponent segment) :
    segments.foldl follow place = ⟨place.segments ++ segments⟩ := by
  induction segments generalizing place with
  | nil => rw [List.append_nil]; rfl
  | cons segment segments ih =>
      obtain ⟨hsegment, hsegments⟩ := List.forall_mem_cons.1 hsegments
      have hchild : place.follow segment = place.child segment := by
        rw [follow, if_neg hsegment.2.1, if_neg hsegment.2.2]
      rw [List.foldl_cons, hchild, ih _ hsegments, child, List.append_assoc]
      rfl

/-- A key is that of the place which is read off it. -/
theorem key_ofKey_key (place : Place) : (ofKey place.key).key = place.key := by
  rw [← String.toList_inj, toList_key, ofKey, List.flatMap_map]
  simp only [String.toList_ofList]
  rw [toList_key]
  cases place.segments with
  | nil => rfl
  | cons segment segments =>
      rw [List.flatMap_cons, List.cons_append, Text.pieces, if_pos rfl, List.drop_one,
        List.tail_cons, Text.flatMap_cons_pieces]

theorem covers_of_isWithin_ofKey {folder place : Place}
    (h : folder.isWithin (ofKey place.key) = true) : folder.Covers place := by
  obtain ⟨rest, hrest⟩ := List.isPrefixOf_iff_prefix.1 h
  have hcovers := covers_append folder rest
  rw [hrest] at hcovers
  exact hcovers.of_key_eq (key_ofKey_key place).symm

end Place

/-! ## Disks -/

namespace Disk

variable {root path : String} {disk later : Disk}

/-- The place where a path starts. -/
def start (disk : Disk) (path : String) : Place :=
  if Path.isAbsolute path then .root else disk.here

/-- The place that a path leads to, if it leads anywhere. -/
def target (disk : Disk) (path : String) : Place :=
  (Path.segments path).foldl Place.follow (disk.start path)

/-- Whether a place is on the way of a path. -/
def Passes (disk : Disk) (path : String) (place : Place) : Prop :=
  ∃ segments, segments <+: Path.segments path ∧
    place.key = (segments.foldl Place.follow (disk.start path)).key

theorem step_eq_ok {place next : Place} {segment : String}
    (h : disk.step place segment = .ok next) : next = place.follow segment := by
  unfold step at h
  split at h
  · contradiction
  · contradiction
  · unfold Place.follow
    split_ifs at h ⊢
    · exact (Except.ok.inj h).symm
    · exact (Except.ok.inj h).symm
    · exact (Except.ok.inj h).symm

theorem placeOf_eq_ok {place : Place} (h : disk.placeOf path = .ok place) :
    path ≠ "" ∧ place = disk.target path := by
  have hsteps (segments : List String) (start : Place)
      (hstart : segments.foldlM disk.step start = .ok place) :
      place = segments.foldl Place.follow start := by
    induction segments generalizing start with
    | nil => exact (Except.ok.inj hstart).symm
    | cons segment segments ih =>
        rw [List.foldlM_cons] at hstart
        obtain ⟨next, hnext, hstart⟩ := bind_eq_ok.1 hstart
        rw [List.foldl_cons, ← step_eq_ok hnext]
        exact ih next hstart
  unfold placeOf at h
  split at h
  · contradiction
  rename_i hempty
  split at h
  · contradiction
  split at h
  · contradiction
  exact ⟨by simpa using hempty, hsteps _ _ h⟩

theorem placeOf_of_find {place : Place} {kind : EntryKind}
    (h : disk.find path = .ok (place, kind)) : disk.placeOf path = .ok place := by
  obtain ⟨found, hfound, h⟩ := bind_eq_ok.1 h
  rw [hfound]
  split at h
  · contradiction
  · split at h
    · contradiction
    · exact congrArg _ (Prod.mk.inj (pure_eq_ok.1 h)).1
  · exact congrArg _ (Prod.mk.inj (pure_eq_ok.1 h)).1

/-! ## Paths that lie in a folder -/

/-- A path starts where the folder starts that it lies in. -/
theorem start_eq_of_liesIn (hroot : root ≠ "") (h : Path.LiesIn root path) (disk : Disk) :
    disk.start path = disk.start root := by
  have hprefix : root.toList <+: path.toList := by
    obtain ⟨components, -, rfl⟩ := h
    cases components with
    | nil => exact (String.intercalate_singleton (s := "/")).symm ▸ List.prefix_rfl
    | cons component components =>
        rw [String.intercalate_cons_of_ne_nil (List.cons_ne_nil _ _), String.append_assoc,
          String.toList_append]
        exact List.prefix_append _ _
  rw [start, start, Path.isAbsolute_eq_of_isPrefix hprefix hroot]

/-- What lies in a folder leads to what the folder covers. -/
theorem covers_target_of_liesIn (hroot : root ≠ "") (h : Path.LiesIn root path) (disk : Disk) :
    (disk.target root).Covers (disk.target path) := by
  have hstart := start_eq_of_liesIn hroot h disk
  obtain ⟨components, hcomponents, rfl⟩ := h
  have htarget : disk.target ("/".intercalate (root :: components))
      = components.foldl Place.follow (disk.target root) := by
    rw [target, hstart, Path.segments_intercalate_cons root hcomponents, List.foldl_append]
    rfl
  rw [htarget, Place.foldl_follow_of_isComponent _ hcomponents]
  exact Place.covers_append _ _

/-- Whether a path is empty or above one that lies in a folder. -/
def IsAbove (root path : String) : Prop :=
  path = "" ∨ ∃ inside, Path.LiesIn root inside ∧ path.toList <+: inside.toList ∧
    Path.segments path <+: Path.segments inside

theorem IsAbove.parent? {above : String} (h : IsAbove root path)
    (hparent : Path.parent? path = some above) : IsAbove root above := by
  obtain rfl | ⟨inside, hinside, htext, hsegments⟩ := h
  · contradiction
  · exact .inr ⟨inside, hinside, (Path.toList_isPrefix_of_parent? hparent).trans htext,
      (Path.segments_isPrefix_of_parent? hparent).trans hsegments⟩

/-- A path above one that lies in a folder leads to what the folder covers, or to a folder on the
way to it. -/
theorem IsAbove.covers_or_passes (hroot : root ≠ "") (h : IsAbove root path) (hne : path ≠ "")
    (disk : Disk) :
    (disk.target root).Covers (disk.target path) ∨ disk.Passes root (disk.target path) := by
  obtain rfl | ⟨inside, hinside, htext, hsegments⟩ := h
  · exact absurd rfl hne
  have hstart : disk.start path = disk.start root := by
    rw [← start_eq_of_liesIn hroot hinside, start, start,
      Path.isAbsolute_eq_of_isPrefix htext hne]
  obtain ⟨components, hcomponents, rfl⟩ := hinside
  rw [Path.segments_intercalate_cons root hcomponents] at hsegments
  rcases List.prefix_or_prefix_of_prefix hsegments (List.prefix_append _ _) with hway | hbelow
  · exact .inr ⟨_, hway, by rw [target, hstart]⟩
  · obtain ⟨rest, hrest⟩ := hbelow
    rw [← hrest, List.prefix_append_right_inj] at hsegments
    have htarget : disk.target path = rest.foldl Place.follow (disk.target root) := by
      rw [target, hstart, ← hrest, List.foldl_append]
      rfl
    rw [htarget, Place.foldl_follow_of_isComponent _ fun component hcomponent =>
      hcomponents component (hsegments.subset hcomponent)]
    exact .inl (Place.covers_append _ _)

/-! ## Disks that keep what is outside -/

/-- Whether a later state of a disk differs only at the place of a folder and below, and by
folders on the way to it that were not there. -/
structure KeepsOutside (root : String) (disk later : Disk) : Prop where
  here : later.here = disk.here
  files : ∀ place, ¬ (disk.target root).Covers place →
    later.files.get? place.key = disk.files.get? place.key
  folders : ∀ place, ¬ (disk.target root).Covers place →
    later.folders.get? place.key = disk.folders.get? place.key ∨
      disk.folders.get? place.key = none ∧ disk.Passes root place

namespace KeepsOutside

theorem refl (disk : Disk) : KeepsOutside root disk disk :=
  ⟨rfl, fun _ _ => rfl, fun _ _ => .inl rfl⟩

theorem trans {last : Disk} (h : KeepsOutside root disk later)
    (h' : KeepsOutside root later last) : KeepsOutside root disk last := by
  have hstart : later.start root = disk.start root := by rw [start, start, h.here]
  have htarget : later.target root = disk.target root := by rw [target, target, hstart]
  refine ⟨h'.here.trans h.here, fun place hplace => ?_, fun place hplace => ?_⟩
  · exact (h'.files place (htarget ▸ hplace)).trans (h.files place hplace)
  · rcases h.folders place hplace with hsame | hnew
    · rcases h'.folders place (htarget ▸ hplace) with hsame' | ⟨hnone, hpasses⟩
      · exact .inl (hsame'.trans hsame)
      · rw [Passes, hstart] at hpasses
        exact .inr ⟨hsame ▸ hnone, hpasses⟩
    · exact .inr hnew

end KeepsOutside

theorem keepsOutside_without {place : Place} (hplace : (disk.target root).Covers place)
    (isDropped : Place → Bool) (hdropped : ∀ other, isDropped other → place.isWithin other) :
    KeepsOutside root disk (disk.without isDropped) := by
  have hkeep {other : Place} (hother : ¬ (disk.target root).Covers other) :
      (!isDropped (.ofKey other.key)) = true := by
    rw [Bool.not_eq_true', Bool.eq_false_iff]
    intro h
    exact hother (hplace.trans (Place.covers_of_isWithin_ofKey (hdropped _ h)))
  refine ⟨rfl, fun other hother => ?_, fun other hother => .inl ?_⟩
  · exact (Table.get?_filter _ _ _).trans (if_pos (hkeep hother))
  · exact (Table.get?_filter _ _ _).trans (if_pos (hkeep hother))

section Calls

variable (hroot : root ≠ "")

include hroot

theorem keepsOutside_writeBytes {bytes : ByteArray} (hpath : Path.LiesIn root path)
    (h : disk.writeBytes path bytes = .ok later) : KeepsOutside root disk later := by
  obtain ⟨place, hplace, -, rfl⟩ := writeBytes_eq_ok h
  obtain ⟨-, rfl⟩ := placeOf_eq_ok hplace
  refine ⟨rfl, fun other hother => ?_, fun _ _ => .inl rfl⟩
  have hcovers := covers_target_of_liesIn hroot hpath disk
  rw [Table.get?_insert, if_neg fun hkey => hother (hcovers.of_key_eq hkey)]

theorem keepsOutside_makeFolder (hpath : IsAbove root path)
    (h : disk.makeFolder path = .ok later) : KeepsOutside root disk later := by
  obtain ⟨place, hplace, hnone, rfl⟩ := makeFolder_eq_ok h
  obtain ⟨hne, rfl⟩ := placeOf_eq_ok hplace
  refine ⟨rfl, fun _ _ => rfl, fun other hother => ?_⟩
  by_cases hkey : other.key = (disk.target path).key
  · -- the new folder is on the way
    rcases hpath.covers_or_passes hroot hne disk with hcovers | ⟨segments, hway, hwalk⟩
    · exact absurd (hcovers.of_key_eq hkey) hother
    · refine .inr ⟨?_, segments, hway, hkey.trans hwalk⟩
      rw [hkey]
      exact (kindAt?_ne_folder (hnone ▸ nofun)).2
  · rw [Table.get?_insert, if_neg hkey]
    exact .inl rfl

theorem keepsOutside_makeFolders (hpath : Path.LiesIn root path) (disk : Disk) :
    KeepsOutside root disk (disk.makeFolders path).2 :=
  of_makeFoldersIn .refl .trans (IsAbove root) .parent? (keepsOutside_makeFolder hroot) _ disk
    (.inr ⟨path, hpath, List.prefix_rfl, List.prefix_rfl⟩)

theorem keepsOutside_removeTree (hpath : Path.LiesIn root path) (disk : Disk) :
    KeepsOutside root disk (disk.removeTree path).2 := by
  unfold removeTree
  cases hfind : disk.find path with
  | error e => exact .refl disk
  | ok found =>
      obtain ⟨place, kind⟩ := found
      obtain ⟨-, rfl⟩ := placeOf_eq_ok (placeOf_of_find hfind)
      have hcovers := covers_target_of_liesIn hroot hpath disk
      cases kind with
      | file => exact .refl disk
      | folder =>
          have hemptied := keepsOutside_without hcovers
            (fun entry => (disk.target path).isWithin entry && entry ≠ disk.target path)
            fun other h => (Bool.and_eq_true_iff.1 h).1
          dsimp only
          split
          · exact keepsOutside_without hcovers _ fun _ h => h
          · split
            · exact hemptied
            · exact hemptied

end Calls

end Disk

end RigPack

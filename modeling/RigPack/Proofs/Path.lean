import RigPack.Path

/-!
# Paths taken apart

A path that was put together from segments gives them back, if the segments are
not empty and hold no slash themselves (`segments_intercalate`).  So a file that
is put somewhere by a list of segments is found by the text that joins them.
-/

namespace RigPack

namespace Text

theorem pieces_of_not_mem {mark : Char} {cs : List Char} (h : mark ∉ cs) :
    pieces mark cs = [cs] := by
  induction cs with
  | nil => rfl
  | cons c cs ih =>
      have hc : c ≠ mark := fun heq => h (heq ▸ List.mem_cons_self ..)
      rw [pieces, if_neg hc, ih fun hmem => h (.tail _ hmem)]

/-- Every mark parts the pieces in front of it from those behind. -/
theorem pieces_append (mark : Char) (front rest : List Char) :
    pieces mark (front ++ mark :: rest) = pieces mark front ++ pieces mark rest := by
  induction front with
  | nil => simp [pieces]
  | cons c cs ih =>
      rw [List.cons_append, pieces, pieces, ih]
      cases hpieces : pieces mark cs with
      | nil => exact absurd hpieces (pieces_ne_nil mark cs)
      | cons piece pieces => split <;> rfl

/-- Up to the first mark there is one piece. -/
theorem pieces_append_mark {mark : Char} {cs : List Char} (h : mark ∉ cs) (rest : List Char) :
    pieces mark (cs ++ mark :: rest) = cs :: pieces mark rest := by
  rw [pieces_append, pieces_of_not_mem h, List.singleton_append]

/-- The pieces of a text with a mark in front of each are the text with a mark in front. -/
theorem flatMap_cons_pieces (mark : Char) (cs : List Char) :
    (pieces mark cs).flatMap (mark :: ·) = mark :: cs := by
  induction cs with
  | nil => rfl
  | cons c cs ih =>
      rw [pieces]
      split
      · rename_i hmark
        rw [List.flatMap_cons, ih, hmark]
        rfl
      · split
        · rename_i hnone
          exact absurd hnone (pieces_ne_nil mark cs)
        · rename_i piece rest hpieces
          rw [hpieces, List.flatMap_cons, List.cons_append, List.cons.injEq] at ih
          rw [List.flatMap_cons, List.cons_append, List.cons_append, ih.2]

end Text

namespace Path

/-- A text that can stand between two slashes of a path. -/
def IsSegment (s : String) : Prop :=
  s ≠ "" ∧ '/' ∉ s.toList

instance (s : String) : Decidable (IsSegment s) :=
  inferInstanceAs (Decidable (_ ∧ _))

theorem pieces_intercalate {segments : List String} (hne : segments ≠ [])
    (hsegments : ∀ segment ∈ segments, IsSegment segment) :
    Text.pieces '/' ("/".intercalate segments).toList = segments.map String.toList := by
  induction segments with
  | nil => exact absurd rfl hne
  | cons segment rest ih =>
      have hsegment := (hsegments segment (List.mem_cons_self ..)).2
      cases rest with
      | nil => rw [String.intercalate_singleton, Text.pieces_of_not_mem hsegment]; rfl
      | cons next rest =>
          have htext : ("/".intercalate (segment :: next :: rest)).toList
              = segment.toList ++ '/' :: ("/".intercalate (next :: rest)).toList := by
            rw [String.intercalate_cons_cons, String.toList_append, String.toList_append]
            simp
          rw [htext, Text.pieces_append_mark hsegment,
            ih (by simp) fun other hother => hsegments other (.tail _ hother)]
          rfl

/-- A path gives back the segments that it was put together from. -/
theorem segments_intercalate {parts : List String} (hparts : ∀ part ∈ parts, IsSegment part) :
    segments ("/".intercalate parts) = parts := by
  cases parts with
  | nil => rfl
  | cons part rest =>
      unfold segments
      rw [pieces_intercalate (List.cons_ne_nil part rest) hparts]
      have hkeep : ((part :: rest).map String.toList).filter (!·.isEmpty)
          = (part :: rest).map String.toList := by
        refine List.filter_eq_self.2 fun cs hcs => ?_
        obtain ⟨segment, hsegment, rfl⟩ := List.mem_map.1 hcs
        simpa using (hparts segment hsegment).1
      rw [hkeep, List.map_map]
      exact (List.map_congr_left fun segment _ => String.ofList_toList).trans (List.map_id _)

theorem isSegment_of_mem_segments {path segment : String} (h : segment ∈ segments path) :
    IsSegment segment := by
  obtain ⟨piece, hpiece, rfl⟩ := List.mem_map.1 h
  obtain ⟨hpiece, hne⟩ := List.mem_filter.1 hpiece
  refine ⟨fun hempty => ?_, ?_⟩
  · rw [String.ofList_eq_empty_iff] at hempty
    rw [hempty] at hne
    contradiction
  · rw [String.toList_ofList]
    exact Text.not_mem_of_mem_pieces hpiece

/-- The segments of two paths with a slash between them are those of both. -/
theorem segments_append (path rest : String) :
    segments (path ++ "/" ++ rest) = segments path ++ segments rest := by
  have htext : (path ++ "/" ++ rest).toList = path.toList ++ '/' :: rest.toList := by simp
  unfold segments
  rw [htext, Text.pieces_append, List.filter_append, List.map_append]

/-- The way back to the last slash passes a whole name. -/
theorem takeWhile_reverse_append {name : String} (hname : '/' ∉ name.toList) (rest : List Char) :
    (name.toList.reverse ++ rest).takeWhile (· ≠ '/')
      = name.toList.reverse ++ rest.takeWhile (· ≠ '/') := by
  refine List.takeWhile_append_of_pos fun c hc => ?_
  have hne : c ≠ '/' := fun heq => hname (heq ▸ List.mem_reverse.1 hc)
  simpa using hne

/-- Whether a path is a name alone, or the path of a folder with a slash and a name behind it. -/
inductive Splits : String → String → String → Prop
  | alone {name : String} (hname : '/' ∉ name.toList) : Splits name "" name
  | below (dir : String) {name : String} (hname : '/' ∉ name.toList) :
    Splits (dir ++ "/" ++ name) dir name

/-- A text without a slash is a name. -/
theorem splitLast_of_not_mem {name : String} (hname : '/' ∉ name.toList) :
    splitLast name = ("", name) := by
  have htake : name.toList.reverse.takeWhile (· ≠ '/') = name.toList.reverse := by
    simpa using takeWhile_reverse_append hname []
  unfold splitLast
  simp only [htake]
  rw [List.drop_of_length_le (Nat.le_succ _), List.reverse_reverse, String.ofList_toList]
  rfl

/-- The last segment of a path is the name behind its last slash. -/
theorem splitLast_append {name : String} (hname : '/' ∉ name.toList) (folder : String) :
    splitLast (folder ++ "/" ++ name) = (folder, name) := by
  have hreverse : (folder ++ "/" ++ name).toList.reverse
      = name.toList.reverse ++ '/' :: folder.toList.reverse := by simp
  have htake : (name.toList.reverse ++ '/' :: folder.toList.reverse).takeWhile (· ≠ '/')
      = name.toList.reverse := by
    rw [takeWhile_reverse_append hname]
    simp
  unfold splitLast
  simp only [hreverse, htake]
  have hdrop : (name.toList.reverse ++ '/' :: folder.toList.reverse).drop
      (name.toList.reverse.length + 1) = folder.toList.reverse := by
    rw [List.drop_length_add_append, List.drop_one, List.tail_cons]
  rw [hdrop, List.reverse_reverse, List.reverse_reverse, String.ofList_toList,
    String.ofList_toList]

theorem Splits.splitLast_eq {path dir name : String} (h : Splits path dir name) :
    splitLast path = (dir, name) := by
  cases h with
  | alone hname => exact splitLast_of_not_mem hname
  | below dir hname => exact splitLast_append hname dir

/-- Every path can be taken apart at its last slash. -/
theorem exists_splits (path : String) : ∃ dir name, Splits path dir name := by
  by_cases hslash : '/' ∈ path.toList
  · obtain ⟨name, dir, hsplit, hname⟩ :=
      List.eq_append_cons_of_mem (List.mem_reverse.2 hslash)
    have hpath : path = String.ofList dir.reverse ++ "/" ++ String.ofList name.reverse := by
      rw [← String.toList_inj, ← List.reverse_inj, hsplit]
      simp
    rw [hpath]
    exact ⟨_, _, .below _ (by simpa using hname)⟩
  · exact ⟨"", path, .alone hslash⟩

/-- The parts of a path that has at least two segments. -/
theorem splitLast_intercalate {parts : List String} (hne : parts ≠ []) {name : String}
    (hname : '/' ∉ name.toList) :
    splitLast ("/".intercalate (parts ++ [name])) = ("/".intercalate parts, name) := by
  rw [String.intercalate_append_of_ne_nil hne (List.cons_ne_nil name []),
    String.intercalate_singleton, splitLast_append hname]

/-! ## Joining segments -/

/-- The path that a list of segments leads to from `root`. -/
def joinAll (root : String) (segments : List String) : String :=
  segments.foldl join root

/-- A path to which segments can be joined with a slash. -/
def IsBase (path : String) : Prop :=
  path ≠ "" ∧ endsInSlash path = false

theorem join_segment {base segment : String} (hbase : IsBase base) (hsegment : IsSegment segment) :
    join base segment = base ++ "/" ++ segment := by
  have habsolute : isAbsolute segment = false := by
    rw [isAbsolute, decide_eq_false_iff_not]
    intro hhead
    exact hsegment.2 (List.mem_of_mem_head? hhead)
  have hempty : base.isEmpty = false := by simpa using hbase.1
  simp [join, habsolute, hempty, hbase.2]

theorem isBase_append (front : String) {segment : String} (h : IsSegment segment) :
    IsBase (front ++ segment) := by
  refine ⟨fun hempty => h.1 (String.append_eq_empty_iff.1 hempty).2, ?_⟩
  obtain ⟨c, cs, hcs⟩ : ∃ c cs, segment.toList = cs ++ [c] := by
    have hne : segment.toList ≠ [] := by simpa using h.1
    exact ⟨_, _, (List.dropLast_concat_getLast hne).symm⟩
  have hslash : c ≠ '/' := by
    rintro rfl
    exact h.2 (by simp [hcs])
  rw [endsInSlash, String.toList_append, hcs, ← List.append_assoc, List.getLast?_concat]
  simpa using hslash

/-- A path that ends in a segment is a base, whatever stands in front of it. -/
theorem isBase_join (front : String) {segment : String} (h : IsSegment segment) :
    IsBase (join front segment) := by
  unfold join
  split
  · simpa using isBase_append "" h
  · split
    · exact isBase_append front h
    · exact isBase_append (front ++ "/") h

theorem joinAll_eq {root : String} (hroot : IsBase root) {segments : List String}
    (hsegments : ∀ segment ∈ segments, IsSegment segment) :
    joinAll root segments = "/".intercalate (root :: segments) := by
  induction segments generalizing root with
  | nil => exact (String.intercalate_singleton).symm
  | cons segment segments ih =>
      have hsegment := hsegments segment (List.mem_cons_self ..)
      have hjoin : joinAll root (segment :: segments) = joinAll (join root segment) segments := rfl
      rw [hjoin, ih (isBase_join root hsegment) fun other hother =>
        hsegments other (.tail _ hother), join_segment hroot hsegment]
      cases segments with
      | nil => simp [String.intercalate_cons_cons]
      | cons next rest => simp [String.intercalate_cons_cons, String.append_assoc]

theorem joinAll_concat (root : String) (segments : List String) (segment : String) :
    joinAll root (segments ++ [segment]) = join (joinAll root segments) segment := by
  rw [joinAll, List.foldl_append]
  rfl

theorem joinAll_ne_root {root : String} (hroot : IsBase root) {segments : List String}
    (hsegments : ∀ segment ∈ segments, IsSegment segment) (hne : segments ≠ []) :
    joinAll root segments ≠ root := by
  intro h
  rw [joinAll_eq hroot hsegments, String.intercalate_cons_of_ne_nil hne, String.append_assoc] at h
  have hlength := congrArg String.length h
  simp only [String.length_append] at hlength
  have hslash : "/".length = 1 := rfl
  omega

/-- Different lists of segments lead to different paths. -/
theorem joinAll_injective {root : String} (hroot : IsBase root) {first second : List String}
    (hfirst : ∀ segment ∈ first, IsSegment segment)
    (hsecond : ∀ segment ∈ second, IsSegment segment)
    (h : joinAll root first = joinAll root second) : first = second := by
  by_cases hfirst_ne : first = []
  · subst hfirst_ne
    cases second with
    | nil => rfl
    | cons segment rest =>
        exact absurd h.symm (joinAll_ne_root hroot hsecond (List.cons_ne_nil _ _))
  by_cases hsecond_ne : second = []
  · subst hsecond_ne
    exact absurd h (joinAll_ne_root hroot hfirst hfirst_ne)
  rw [joinAll_eq hroot hfirst, joinAll_eq hroot hsecond,
    String.intercalate_cons_of_ne_nil hfirst_ne, String.intercalate_cons_of_ne_nil hsecond_ne,
    String.append_right_inj] at h
  rw [← segments_intercalate hfirst, h, segments_intercalate hsecond]

/-! ## The end of a path -/

/-- Whatever a name is joined to, the path ends as the name does. -/
theorem getLast?_join (front : String) {name : String} {c : Char}
    (h : name.toList.getLast? = some c) : (join front name).toList.getLast? = some c := by
  have happend (front : String) : (front ++ name).toList.getLast? = some c := by simp [h]
  unfold join
  split
  · exact h
  · split
    · exact happend front
    · exact happend (front ++ "/")

/-- A path that ends in the name of an entry lies in a folder. -/
theorem isSome_parent? {path : String} {c : Char} (h : path.toList.getLast? = some c)
    (hslash : c ≠ '/') (hpoint : c ≠ '.') : (parent? path).isSome = true := by
  obtain ⟨front, hfront⟩ := List.getLast?_eq_some_iff.1 h
  have hreverse : path.toList.reverse = c :: front.reverse := by simp [hfront]
  have hend : dropEmptyEnd (c :: front.reverse) = c :: front.reverse := by
    unfold dropEmptyEnd
    split <;> simp_all
  simp [parent?, hreverse, hend, hslash]

end Path

end RigPack

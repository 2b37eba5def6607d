import RigPack.Proofs.Pack.Clash

/-!
# A change in one place

`changeAt` follows a path, changes the folder there and makes what is missing on the way.
Going on from there is the same as one longer way (`changeAt_append`), two changes in one
place are one change (`changeAt_changeAt`), and where nothing is missing a change that
changes nothing leaves all as it is (`changeAt_eq_self`).  What does not lie on the way is
left alone (`folder?_changeAt_of_not_prefix`).
-/

namespace RigPack

namespace Folder

theorem changeAt_append (path rest : List String) (change : Folder → Folder) (folder : Folder) :
    folder.changeAt (path ++ rest) change
      = folder.changeAt path fun target => target.changeAt rest change := by
  induction path generalizing folder with
  | nil => rfl
  | cons segment path ih =>
      have hbelow : changeAt (path ++ rest) change
          = changeAt path fun target => target.changeAt rest change := funext ih
      rw [List.cons_append, changeAt, changeAt, hbelow]

/-! ## Two changes in one place -/

section Composition

variable {first second : Folder → Folder}

theorem changeIn_changeIn (hname : ∀ folder, (first folder).name = folder.name) (segment : String)
    (folders : List Folder) :
    changeIn segment second (changeIn segment first folders)
      = changeIn segment (fun folder => second (first folder)) folders := by
  induction folders with
  | nil =>
      have hempty : (first (empty segment)).name = segment := hname _
      rw [changeIn, changeIn, changeIn, if_pos hempty]
  | cons folder folders ih =>
      rw [changeIn, changeIn]
      by_cases hsegment : folder.name = segment
      · rw [if_pos hsegment, if_pos hsegment, changeIn, if_pos ((hname folder).trans hsegment)]
      · rw [if_neg hsegment, if_neg hsegment, changeIn, if_neg hsegment, ih]

theorem changeAt_changeAt (hname : ∀ folder, (first folder).name = folder.name)
    (path : List String) (folder : Folder) :
    (folder.changeAt path first).changeAt path second
      = folder.changeAt path fun target => second (first target) := by
  induction path generalizing folder with
  | nil => rfl
  | cons segment path ih =>
      have hbelow : (fun folder => changeAt path second (changeAt path first folder))
          = changeAt path fun target => second (first target) := funext ih
      have hin : changeIn segment (changeAt path second)
            (changeIn segment (changeAt path first) folder.folders)
          = changeIn segment (changeAt path fun target => second (first target))
            folder.folders := by
        rw [changeIn_changeIn (name_changeAt hname path), hbelow]
      exact congrArg (mk folder.name folder.files) hin

end Composition

/-! ## Where nothing is missing -/

section Present

variable {change : Folder → Folder}

theorem changeIn_eq_self {segment : String} {folders : List Folder} {target : Folder}
    (hfound : folders.find? (·.name = segment) = some target) (hchange : change target = target) :
    changeIn segment change folders = folders := by
  induction folders with
  | nil => contradiction
  | cons folder folders ih =>
      rw [changeIn]
      by_cases hsegment : folder.name = segment
      · rw [List.find?_cons_of_pos (by simpa using hsegment), Option.some.injEq] at hfound
        rw [if_pos hsegment, hfound, hchange]
      · rw [List.find?_cons_of_neg (by simpa using hsegment)] at hfound
        rw [if_neg hsegment, ih hfound]

/-- A change that changes nothing in a place that is there changes nothing at all. -/
theorem changeAt_eq_self {path : List String} {folder target : Folder}
    (hfound : folder.folder? path = some target) (hchange : change target = target) :
    folder.changeAt path change = folder := by
  induction path generalizing folder with
  | nil =>
      rw [folder?, Option.some.injEq] at hfound
      rw [changeAt, hfound, hchange]
  | cons segment path ih =>
      obtain ⟨sub, hsub, htarget⟩ := Option.bind_eq_some_iff.1 hfound
      obtain ⟨name, files, folders⟩ := folder
      exact congrArg (mk name files) (changeIn_eq_self hsub (ih htarget))

theorem makeFolder_eq_self {path : List String} {folder : Folder}
    (h : (folder.folder? path).isSome = true) : folder.makeFolder path = folder := by
  obtain ⟨target, htarget⟩ := Option.isSome_iff_exists.1 h
  exact changeAt_eq_self htarget rfl

/-- A folder that is made below another is made on the way that leads through it. -/
theorem makeFolder_makeFolder (path rest : List String) (folder : Folder) :
    (folder.makeFolder path).makeFolder (path ++ rest) = folder.makeFolder (path ++ rest) := by
  unfold makeFolder
  rw [changeAt_append, changeAt_append]
  exact changeAt_changeAt (fun _ => rfl) path folder

end Present

/-! ## What does not lie on the way -/

/-- A change of files in one place leaves the folders that do not lie on the way there. -/
theorem folder?_changeAt_of_not_prefix (change : List PackFile → List PackFile)
    {path other : List String} (hother : ¬ other <+: path) (folder : Folder) :
    (folder.changeAt path (mapFiles change)).folder? other = folder.folder? other := by
  induction path generalizing folder other with
  | nil =>
      cases other with
      | nil => exact absurd List.nil_prefix hother
      | cons segment other => rfl
  | cons segment path ih =>
      cases other with
      | nil => exact absurd List.nil_prefix hother
      | cons otherSegment other =>
          rw [changeAt, folder?, folder?, folders,
            find?_changeIn (name_changeAt (name_mapFiles change) path)]
          by_cases hsegment : otherSegment = segment
          · subst hsegment
            have hrest : ¬ other <+: path := fun h => hother (List.cons_prefix_cons.2 ⟨rfl, h⟩)
            rw [if_pos rfl, Option.bind_some, ih hrest]
            cases folder.folders.find? (·.name = otherSegment) with
            | some sub => rfl
            | none =>
                -- a folder that is made on the way has nothing else below it
                cases other with
                | nil => exact absurd List.nil_prefix hrest
                | cons segment other => rfl
          · rw [if_neg hsegment]

end Folder

namespace Placement

open Folder

theorem folder?_into_of_not_prefix {placement : Placement} {path : List String}
    (h : ¬ path <+: placement.dir) (pack : Folder) :
    (placement.into pack).folder? path = pack.folder? path := by
  cases placement with
  | folder made =>
      rw [into, changeAt_id_eq]
      exact folder?_changeAt_of_not_prefix id h pack
  | file made name content => exact folder?_changeAt_of_not_prefix (setFile name content) h pack

theorem folder?_foldl_of_not_prefix {placements : List Placement} {path : List String}
    (h : ∀ placement ∈ placements, ¬ path <+: placement.dir) (pack : Folder) :
    (placements.foldl into pack).folder? path = pack.folder? path := by
  induction placements generalizing pack with
  | nil => rfl
  | cons placement placements ih =>
      rw [List.foldl_cons, ih fun other hother => h other (.tail _ hother),
        folder?_into_of_not_prefix (h placement (List.mem_cons_self ..))]

end Placement

end RigPack

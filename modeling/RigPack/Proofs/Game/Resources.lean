import RigPack.Proofs.Pack.Lookup
import RigPack.Proofs.Text.Words

/-!
# Resources, found by name

A command refers to a function, or to a list, by a name of the form `space:path`.
The game turns the name into the path of a file below `data` and opens that file.
`Folder.resource?` does the same with the text of a name, and knows nothing of how
a pack was put together.  For names whose parts are plain it finds what a placement
put there (`resource?_text`).
-/

namespace RigPack

/-- The path of the file that a name refers to. -/
def resourceFile? (category extension name : String) : Option String :=
  match Text.pieces ':' name.toList with
  | [space, path] =>
    some ("data/" ++ String.ofList space ++ "/" ++ category ++ "/" ++ String.ofList path
      ++ extension)
  | _ => none

namespace Folder

/-- The content of the file that a name refers to, if it is in the pack. -/
def resource? (pack : Folder) (category extension name : String) : Option Content := do
  let path ← resourceFile? category extension name
  let file ← pack.fileAt? path
  return file.content

/-- The commands of a function, found by its name. -/
def function? (pack : Folder) (name : String) : Option (List Command) :=
  match pack.resource? "functions" ".mcfunction" name with
  | some (.commands list) => some list
  | _ => none

end Folder

/-- A text that can be a part of a name: it separates nothing. -/
def IsPlain (s : String) : Prop :=
  Path.IsSegment s ∧ ':' ∉ s.toList

instance (s : String) : Decidable (IsPlain s) :=
  inferInstanceAs (Decidable (_ ∧ _))

theorem IsPlain.append {s t : String} (hs : IsPlain s) (ht : '/' ∉ t.toList)
    (ht' : ':' ∉ t.toList) : IsPlain (s ++ t) := by
  obtain ⟨⟨hne, hslash⟩, hcolon⟩ := hs
  refine ⟨⟨fun h => hne (String.append_eq_empty_iff.1 h).1, ?_⟩, ?_⟩
  · rw [String.toList_append, List.mem_append]
    exact not_or_intro hslash ht
  · rw [String.toList_append, List.mem_append]
    exact not_or_intro hcolon ht'

namespace Location

/-- A location that is read back from its text. -/
structure Regular (location : Location) : Prop where
  space : IsPlain location.space
  ne_nil : location.path ≠ []
  path : ∀ segment ∈ location.path, IsPlain segment

theorem Regular.pieces_text {location : Location} (hlocation : location.Regular) :
    Text.pieces ':' location.text.toList
      = [location.space.toList, ("/".intercalate location.path).toList] := by
  have hpath : ':' ∉ ("/".intercalate location.path).toList :=
    (Text.not_mem_intercalate_iff (by decide)).2 fun part hpart => (hlocation.path part hpart).2
  have htext : location.text.toList
      = location.space.toList ++ ':' :: ("/".intercalate location.path).toList := by
    simp [text]
  rw [htext, Text.pieces_append_mark hlocation.space.2, Text.pieces_of_not_mem hpath]

theorem intercalate_append_ending (parts : List String) (name ending : String) :
    "/".intercalate (parts ++ [name ++ ending]) = "/".intercalate (parts ++ [name]) ++ ending := by
  cases parts with
  | nil => simp
  | cons part rest =>
      rw [String.intercalate_append_of_ne_nil (by simp) (by simp),
        String.intercalate_append_of_ne_nil (by simp) (by simp), String.intercalate_singleton,
        String.intercalate_singleton, String.append_assoc]
      simp only [String.append_assoc]

/-- The path of a file that belongs to a location, as the text of a list of segments. -/
theorem Regular.resourceFile?_text {location : Location} (hlocation : location.Regular)
    {category : List String} (hcategory : category ≠ []) (extension : String) :
    resourceFile? ("/".intercalate category) extension location.text
      = some ("/".intercalate ((["data", location.space] ++ category ++ location.path.dropLast)
        ++ [location.path.getLast?.getD "" ++ extension])) := by
  obtain ⟨space, path⟩ := location
  obtain ⟨front, last, rfl⟩ : ∃ front last, path = front ++ [last] :=
    ⟨_, _, (List.dropLast_concat_getLast hlocation.ne_nil).symm⟩
  have hjoin : "/".intercalate ((["data", space] ++ category ++ front) ++ [last])
      = "data/" ++ space ++ "/" ++ "/".intercalate category ++ "/"
        ++ "/".intercalate (front ++ [last]) := by
    rw [List.append_assoc, String.intercalate_append_of_ne_nil (by simp) (by simp),
      List.cons_append, String.intercalate_cons_of_ne_nil (by simp), List.cons_append,
      String.intercalate_cons_of_ne_nil (by simpa using hcategory), List.nil_append]
    simp only [← String.append_assoc]
    rfl
  rw [resourceFile?, hlocation.pieces_text, List.dropLast_concat, List.getLast?_concat,
    Option.getD_some, intercalate_append_ending, hjoin]
  simp only [String.ofList_toList]

end Location

/-- The name of a location leads to the file that belongs to it. -/
theorem Folder.resource?_text (pack : Folder) (category : List String) (extension : String)
    {location : Location} (hlocation : location.Regular) (hcategory : category ≠ [])
    (hsegments : ∀ segment ∈ category, Path.IsSegment segment)
    (hextension : '/' ∉ extension.toList) :
    pack.resource? ("/".intercalate category) extension location.text
      = (pack.file? (["data", location.space] ++ category ++ location.path.dropLast)
          (location.path.getLast?.getD "" ++ extension)).map (·.content) := by
  have hlast : '/' ∉ (location.path.getLast?.getD "" ++ extension).toList := by
    rw [String.toList_append, List.mem_append, List.getLast?_eq_some_getLast hlocation.ne_nil,
      Option.getD_some]
    exact not_or_intro (hlocation.path _ (List.getLast_mem hlocation.ne_nil)).1.2 hextension
  have hparts : ∀ part ∈ ["data", location.space] ++ category ++ location.path.dropLast,
      Path.IsSegment part := by
    intro part hpart
    simp only [List.mem_append, List.mem_cons, List.not_mem_nil, or_false] at hpart
    rcases hpart with ((rfl | rfl) | hpart) | hpart
    · exact ⟨by decide, by decide⟩
    · exact hlocation.space.1
    · exact hsegments part hpart
    · exact (hlocation.path part (List.dropLast_subset _ hpart)).1
  rw [resource?, hlocation.resourceFile?_text hcategory, Option.bind_eq_bind, Option.bind_some,
    fileAt?, Path.splitLast_intercalate (by simp) hlast]
  simp only
  rw [Path.segments_intercalate hparts]
  cases pack.file? _ (location.path.getLast?.getD "" ++ extension) <;> rfl

end RigPack

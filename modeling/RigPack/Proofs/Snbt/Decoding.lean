import RigPack.Proofs.Binary.Literal
import RigPack.Proofs.Game.Displays
import RigPack.Proofs.Snbt.Reader

/-!
# What the text of a tag value determines

Whoever reads the text of a tag value takes it for some value of that text.  This file says
what any two such values have in common: what stands under a path of keys in one stands
there in the other, integers and strings are the same, and floating point numbers are, but
for those that are no numbers.

A key counts only if it is the only one of its compound (`Snbt.only?`), so it does not
matter which of several entries a reader prefers.

## Main statements

* `Snbt.at?_of_shown`: values that show the same, as those with one text do
  (`Snbt.shown_eq_of_text_eq`), do so under every path.
* `Snbt.eq_floats_of_shown`: a list of numbers is read as these numbers.
-/

namespace RigPack.Snbt

open Binary

/-! ## Paths into values -/

/-- The value of the one entry of a key. -/
def only? {α : Type} (entries : List (String × α)) (key : String) : Option α :=
  match entries.filter (·.1 = key) with
  | [entry] => some entry.2
  | _ => none

/-- The value to which a path of keys leads, through compounds that hold each of them once. -/
def at? (data : Snbt) : List String → Option Snbt
  | [] => some data
  | key :: path => (only? data.entries key).bind (at? · path)

/-- The entries of a compound, as far as its text can tell. -/
def Shown.entries : Shown → List (String × Shown)
  | .compound entries => entries
  | _ => []

/-- Where a path of keys leads, as far as the text can tell. -/
def Shown.at? (data : Shown) : List String → Option Shown
  | [] => some data
  | key :: path => (only? data.entries key).bind (Shown.at? · path)

theorem shownItems_eq_map (items : List Snbt) : shownItems items = items.map shown := by
  induction items with
  | nil => rfl
  | cons item items ih => rw [shownItems, ih, List.map_cons]

theorem shownEntries_eq_map (entries : List (String × Snbt)) :
    shownEntries entries = entries.map fun entry => (entry.1, entry.2.shown) := by
  induction entries with
  | nil => rfl
  | cons entry entries ih => rw [shownEntries, ih, List.map_cons]

theorem entries_shown (data : Snbt) :
    data.shown.entries = data.entries.map fun entry => (entry.1, entry.2.shown) := by
  cases data with
  | compound entries => exact shownEntries_eq_map entries
  | _ => rfl

theorem only?_map {α β : Type} (f : α → β) (entries : List (String × α)) (key : String) :
    only? (entries.map fun entry => (entry.1, f entry.2)) key = (only? entries key).map f := by
  have hfilter : (entries.map fun entry => (entry.1, f entry.2)).filter (·.1 = key)
      = (entries.filter (·.1 = key)).map fun entry => (entry.1, f entry.2) :=
    List.filter_map
  unfold only?
  rw [hfilter]
  generalize entries.filter (·.1 = key) = found
  rcases found with _ | ⟨entry, _ | ⟨other, rest⟩⟩ <;> rfl

/-- What stands under a path shows what is shown there. -/
theorem at?_shown (data : Snbt) (path : List String) :
    data.shown.at? path = (data.at? path).map shown := by
  induction path generalizing data with
  | nil => rfl
  | cons key path ih =>
      rw [Shown.at?, at?, entries_shown, only?_map, Option.bind_map, Option.map_bind]
      exact congrArg _ (funext ih)

/-! ## Values that show the same -/

section Alike

variable {value other : Snbt}

/-- Values that show the same do so under every path. -/
theorem at?_of_shown (hshown : value.shown = other.shown) (path : List String) {target : Snbt}
    (htarget : other.at? path = some target) :
    ∃ found, value.at? path = some found ∧ found.shown = target.shown := by
  have hpath := congrArg (·.at? path) hshown
  simp only [at?_shown, htarget, Option.map_some] at hpath
  exact Option.map_eq_some_iff.1 hpath

theorem eq_int_of_shown {n : Int32} (h : value.shown = (Snbt.int n).shown) : value = .int n := by
  cases value with
  | int m => exact congrArg Snbt.int (Shown.int.inj h)
  | _ => contradiction

theorem eq_string_of_shown {s : String} (h : value.shown = (Snbt.string s).shown) :
    value = .string s := by
  cases value with
  | string t => exact congrArg Snbt.string (Shown.string.inj h)
  | _ => contradiction

theorem eq_float_of_shown {x : Single} (h : value.shown = (Snbt.float x).shown) :
    ∃ y : Single, value = .float y ∧ y.Alike x := by
  cases value with
  | float y =>
      exact ⟨y, rfl, Number.alike_of_chars_eq Format.reached_single (Shown.float.inj h)⟩
  | _ => contradiction

/-- A list is read as a list of as many items. -/
theorem eq_list_of_shown {items : List Snbt} (h : value.shown = (Snbt.list items).shown) :
    ∃ found, value = .list found ∧
      List.Forall₂ (fun item found => found.shown = item.shown) items found := by
  cases value with
  | list found =>
      have hitems := Shown.list.inj h
      rw [shownItems_eq_map, shownItems_eq_map] at hitems
      refine ⟨found, rfl, ?_⟩
      have hall : List.Forall₂ (· = ·) (items.map shown) (found.map shown) :=
        List.forall₂_eq_eq_eq ▸ hitems.symm
      rw [List.forall₂_map_left_iff, List.forall₂_map_right_iff] at hall
      exact hall.imp fun _ _ heq => heq.symm
  | _ => contradiction

/-- Strings are read as these strings. -/
theorem eq_strings_of_shown (strings : List String)
    (h : value.shown = (Snbt.list (strings.map .string)).shown) :
    value = .list (strings.map .string) := by
  obtain ⟨found, rfl, hall⟩ := eq_list_of_shown h
  rw [List.forall₂_map_left_iff] at hall
  refine congrArg Snbt.list ?_
  clear h
  induction hall with
  | nil => rfl
  | cons hstring _ ih =>
      rw [eq_string_of_shown hstring, ih, List.map_cons]

/-- Numbers are read as these numbers. -/
theorem eq_floats_of_shown {numbers : List Single}
    (h : value.shown = (Snbt.list (numbers.map .float)).shown) :
    ∃ found : List Single, value = .list (found.map .float) ∧
      List.Forall₂ Number.Alike found numbers := by
  obtain ⟨items, rfl, hall⟩ := eq_list_of_shown h
  rw [List.forall₂_map_left_iff] at hall
  suffices hfloats : ∃ found : List Single, items = found.map .float ∧
      List.Forall₂ Number.Alike found numbers by
    obtain ⟨found, hfound, halike⟩ := hfloats
    exact ⟨found, congrArg Snbt.list hfound, halike⟩
  clear h
  induction hall with
  | nil => exact ⟨[], rfl, .nil⟩
  | cons hfloat _ ih =>
      obtain ⟨y, rfl, hy⟩ := eq_float_of_shown hfloat
      obtain ⟨found, rfl, hfound⟩ := ih
      exact ⟨y :: found, rfl, .cons hy hfound⟩

end Alike

end RigPack.Snbt

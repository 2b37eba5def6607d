import RigPack.Proofs.Binary.Nearest
import RigPack.Proofs.Snbt.Reader

/-!
# Tag values, read back

What the text of a value shows are its numbers as they are spelled.  With those read, too, a
text gives the value back that it was written from (`Snbt.read?_text`), but for the marks of
failed computations, of which a text tells only that they are there (`Snbt.asRead`).
-/

namespace RigPack.Snbt

open Binary (Number)

mutual

/-- The value that a text shows, if the numbers in it are numbers. -/
def Shown.value? : Shown → Option Snbt
  | .int n => some (.int n)
  | .float text => (Number.read? text).map .float
  | .string s => some (.string s)
  | .list items => (Shown.values? items).map .list
  | .compound entries => (Shown.entries? entries).map .compound

/-- The items that a text shows in a list. -/
def Shown.values? : List Shown → Option (List Snbt)
  | [] => some []
  | item :: items => do
    let value ← item.value?
    let values ← Shown.values? items
    return value :: values

/-- The entries that a text shows in a compound. -/
def Shown.entries? : List (String × Shown) → Option (List (String × Snbt))
  | [] => some []
  | (key, shown) :: rest => do
    let value ← shown.value?
    let entries ← Shown.entries? rest
    return (key, value) :: entries

end

/-- The value of a text. -/
def read? (s : String) : Option Snbt :=
  match read s.toList with
  | some (shown, []) => shown.value?
  | _ => none

mutual

/-- The value that the text of a value is read as. -/
def asRead : Snbt → Snbt
  | .int n => .int n
  | .float x => .float x.asRead
  | .string s => .string s
  | .list items => .list (asReadItems items)
  | .compound entries => .compound (asReadEntries entries)

/-- What the items of a list are read as. -/
def asReadItems : List Snbt → List Snbt
  | [] => []
  | item :: items => item.asRead :: asReadItems items

/-- What the entries of a compound are read as. -/
def asReadEntries : List (String × Snbt) → List (String × Snbt)
  | [] => []
  | (key, value) :: entries => (key, value.asRead) :: asReadEntries entries

end

mutual

theorem value?_shown : ∀ value : Snbt, value.shown.value? = some value.asRead
  | .int _ => rfl
  | .float x => by
    rw [shown, Shown.value?, Number.read?_chars]
    rfl
  | .string _ => rfl
  | .list items => by
    rw [shown, Shown.value?, values?_shownItems items]
    rfl
  | .compound entries => by
    rw [shown, Shown.value?, entries?_shownEntries entries]
    rfl

theorem values?_shownItems :
    ∀ items : List Snbt, Shown.values? (shownItems items) = some (asReadItems items)
  | [] => rfl
  | item :: items => by
    rw [shownItems, Shown.values?, value?_shown item, values?_shownItems items]
    rfl

theorem entries?_shownEntries :
    ∀ entries : List (String × Snbt),
      Shown.entries? (shownEntries entries) = some (asReadEntries entries)
  | [] => rfl
  | (key, value) :: entries => by
    rw [shownEntries, Shown.entries?, value?_shown value, entries?_shownEntries entries]
    rfl

end

/-- A value is read back from its text. -/
theorem read?_text (value : Snbt) : read? value.text = some value.asRead := by
  have hread := read_text value ends_nil
  rw [List.append_nil] at hread
  rw [read?, hread]
  exact value?_shown value

end RigPack.Snbt

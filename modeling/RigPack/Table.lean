/-!
# Tables

A `Table` maps texts to values and lists them in the order of their keys, which is the order of
code points.  The order is part of the type, so two ways of filling a table that agree on every key
list the same entries.

## Main statements

* `get?_insert`: an insertion changes the value of its own key and no other.
* `mem_entries_iff`: the listed entries are exactly the pairs that can be looked up.
-/

namespace RigPack

/-- A map from texts to values, listed by key. -/
structure Table (α : Type) where
  entries : List (String × α)
  sorted : entries.Pairwise fun a b => a.1 < b.1

namespace Table

variable {α β : Type}

/-- The table without entries. -/
def empty : Table α :=
  ⟨[], List.Pairwise.nil⟩

instance : Inhabited (Table α) := ⟨empty⟩

/-- The first value that a list of entries holds under `key`. -/
def find? (key : String) : List (String × α) → Option α
  | [] => none
  | (k, v) :: rest => if k = key then some v else find? key rest

/-- The value stored under `key`. -/
def get? (table : Table α) (key : String) : Option α :=
  find? key table.entries

/-- The keys, in order. -/
def keys (table : Table α) : List String :=
  table.entries.map (·.1)

/-- An ordered list of entries with `value` under `key`; an entry of the same key is replaced. -/
def place (key : String) (value : α) : List (String × α) → List (String × α)
  | [] => [(key, value)]
  | (k, v) :: rest =>
    if key < k then (key, value) :: (k, v) :: rest
    else if k < key then (k, v) :: place key value rest
    else (key, value) :: rest

private theorem mem_place {key : String} {value : α} {entries : List (String × α)}
    {entry : String × α} (h : entry ∈ place key value entries) :
    entry = (key, value) ∨ entry ∈ entries := by
  fun_induction place key value entries <;> grind

private theorem eq_of_not_lt {a b : String} (h : ¬ a < b) (h' : ¬ b < a) : a = b :=
  String.le_antisymm (String.not_lt.1 h') (String.not_lt.1 h)

theorem pairwise_place {key : String} {value : α} {entries : List (String × α)}
    (sorted : entries.Pairwise fun a b => a.1 < b.1) :
    (place key value entries).Pairwise fun a b => a.1 < b.1 := by
  fun_induction place key value entries with
  | case1 => simp
  | case2 k v rest lower =>
    obtain ⟨below, _⟩ := List.pairwise_cons.1 sorted
    refine List.pairwise_cons.2 ⟨fun entry mem => ?_, sorted⟩
    rcases List.mem_cons.1 mem with rfl | mem
    · exact lower
    · exact String.lt_trans lower (below entry mem)
  | case3 k v rest _ higher ih =>
    obtain ⟨below, sorted⟩ := List.pairwise_cons.1 sorted
    refine List.pairwise_cons.2 ⟨fun entry mem => ?_, ih sorted⟩
    rcases mem_place mem with rfl | mem
    · exact higher
    · exact below entry mem
  | case4 k v rest notLower notHigher =>
    obtain ⟨below, sorted⟩ := List.pairwise_cons.1 sorted
    have same : key = k := eq_of_not_lt notLower notHigher
    exact List.pairwise_cons.2 ⟨fun entry mem => same ▸ below entry mem, sorted⟩

/-- The table with `value` under `key`, in place of what was there. -/
def insert (table : Table α) (key : String) (value : α) : Table α :=
  ⟨place key value table.entries, pairwise_place table.sorted⟩

/-- The table without the entries whose key fails a test. -/
def filter (table : Table α) (keep : String → Bool) : Table α :=
  ⟨table.entries.filter (keep ·.1), table.sorted.filter _⟩

/-- The table of a list of entries; of two with one key the later stays. -/
def ofList (entries : List (String × α)) : Table α :=
  entries.foldl (fun table entry => table.insert entry.1 entry.2) empty

private theorem find?_place {key other : String} {value : α} {entries : List (String × α)} :
    find? other (place key value entries)
      = if other = key then some value else find? other entries := by
  fun_induction place key value entries with
  | case1 => grind [find?]
  | case2 => grind [find?]
  | case3 k v rest _ higher ih =>
    have differs : k ≠ key := fun same => String.lt_irrefl _ (same ▸ higher)
    grind [find?]
  | case4 k v rest notLower notHigher =>
    have same : key = k := eq_of_not_lt notLower notHigher
    grind [find?]

@[simp] theorem get?_empty (key : String) : (empty : Table α).get? key = none := rfl

theorem get?_insert (table : Table α) (key other : String) (value : α) :
    (table.insert key value).get? other = if other = key then some value else table.get? other :=
  find?_place

theorem mem_entries_iff (table : Table α) {key : String} {value : α} :
    (key, value) ∈ table.entries ↔ table.get? key = some value := by
  obtain ⟨entries, sorted⟩ := table
  change (key, value) ∈ entries ↔ find? key entries = some value
  induction entries with
  | nil => simp [find?]
  | cons head rest ih =>
    obtain ⟨k, v⟩ := head
    obtain ⟨below, sorted⟩ := List.pairwise_cons.1 sorted
    have absent : k = key → (key, value) ∉ rest := fun same mem =>
      String.lt_irrefl _ (same ▸ below _ mem)
    have ih := ih sorted
    grind [find?]

end Table

end RigPack

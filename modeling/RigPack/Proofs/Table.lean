import Mathlib.Data.List.Nodup
import Mathlib.Data.Set.Function
import RigPack.Table

/-!
# Tables by their values

A table is known once every key has been looked up in it (`Table.ext_get?`).  So that
two ways of changing a table come to the same is shown key by key.

## Main statements

* `get?_filter`, `filter_insert`: what stays of a table that was changed where it does
  not stay.
* `get?_insertAll`: the table after a list of insertions with different keys.
* `get?_mapKeys`: a table whose values stand under other keys.
-/

namespace RigPack.Table

variable {α : Type}

theorem entries_nodup (table : Table α) : table.entries.Nodup := by
  refine table.sorted.imp fun {a b} h => ?_
  rintro rfl
  exact String.lt_irrefl _ h

/-- Tables that have the same values are the same. -/
theorem ext_get? {first second : Table α} (h : ∀ key, first.get? key = second.get? key) :
    first = second := by
  have hmem (entry : String × α) : entry ∈ first.entries ↔ entry ∈ second.entries := by
    rw [first.mem_entries_iff, second.mem_entries_iff, h]
  have hperm : first.entries.Perm second.entries :=
    (List.perm_ext_iff_of_nodup first.entries_nodup second.entries_nodup).2 hmem
  have hentries : first.entries = second.entries := by
    refine hperm.eq_of_pairwise (fun a b _ _ hab hba => ?_) first.sorted second.sorted
    exact absurd (String.lt_trans hab hba) (String.lt_irrefl _)
  obtain ⟨entries, sorted⟩ := first
  obtain ⟨entries', sorted'⟩ := second
  cases hentries
  rfl

theorem get?_filter (table : Table α) (keep : String → Bool) (key : String) :
    (table.filter keep).get? key = if keep key then table.get? key else none := by
  refine Option.ext fun value => ?_
  rw [← mem_entries_iff, filter, List.mem_filter]
  split
  · rename_i hkeep
    rw [mem_entries_iff, and_iff_left hkeep]
  · rename_i hkeep
    simp [hkeep]

/-- What is inserted where nothing stays makes no difference. -/
theorem filter_insert (table : Table α) {keep : String → Bool} {key : String}
    (hkey : keep key = false) (value : α) :
    (table.insert key value).filter keep = table.filter keep := by
  refine ext_get? fun other => ?_
  rw [get?_filter, get?_filter, get?_insert]
  split
  · rename_i hother
    rw [if_neg fun heq => by simp [heq, hkey] at hother]
  · rfl

theorem filter_eq_self {table : Table α} {keep : String → Bool}
    (h : ∀ key, keep key = false → table.get? key = none) : table.filter keep = table := by
  refine ext_get? fun key => ?_
  rw [get?_filter]
  split
  · rfl
  · rename_i hkeep
    exact (h key (by simpa using hkeep)).symm

theorem filter_filter (table : Table α) (keep : String → Bool) :
    (table.filter keep).filter keep = table.filter keep := by
  refine ext_get? fun key => ?_
  simp only [get?_filter]
  split <;> rfl

/-! ## Several insertions -/

/-- The table with the given entries, each in place of what was under its key. -/
def insertAll (table : Table α) (entries : List (String × α)) : Table α :=
  entries.foldl (fun table entry => table.insert entry.1 entry.2) table

theorem find?_eq_none {entries : List (String × α)} {key : String}
    (h : key ∉ entries.map (·.1)) : find? key entries = none := by
  induction entries with
  | nil => rfl
  | cons entry entries ih =>
      rw [List.map_cons, List.mem_cons, not_or] at h
      obtain ⟨hne, hrest⟩ := h
      rw [find?, if_neg (Ne.symm hne), ih hrest]

theorem find?_eq_some {entries : List (String × α)} (hkeys : (entries.map (·.1)).Nodup)
    {key : String} {value : α} (h : (key, value) ∈ entries) : find? key entries = some value := by
  induction entries with
  | nil => exact absurd h List.not_mem_nil
  | cons entry entries ih =>
      obtain ⟨hnot, hkeys⟩ := List.nodup_cons.1 hkeys
      rcases List.mem_cons.1 h with rfl | h
      · exact if_pos rfl
      · have hne : entry.1 ≠ key := by
          rintro rfl
          exact hnot (List.mem_map_of_mem (f := (·.1)) h)
        rw [find?, if_neg hne, ih hkeys h]

theorem get?_insertAll (table : Table α) {entries : List (String × α)}
    (hkeys : (entries.map (·.1)).Nodup) (key : String) :
    (table.insertAll entries).get? key
      = (find? key entries).or (table.get? key) := by
  induction entries generalizing table with
  | nil => rfl
  | cons entry entries ih =>
      obtain ⟨hnot, hkeys⟩ := List.nodup_cons.1 hkeys
      have hinsert : table.insertAll (entry :: entries)
          = (table.insert entry.1 entry.2).insertAll entries := rfl
      rw [hinsert, ih _ hkeys, get?_insert, find?]
      by_cases hkey : key = entry.1
      · rw [if_pos hkey, if_pos hkey.symm, hkey, find?_eq_none hnot]
        rfl
      · rw [if_neg hkey, if_neg (Ne.symm hkey)]

/-- What is under a key was inserted there, or was there before. -/
theorem mem_or_of_get?_insertAll {table : Table α} {entries : List (String × α)} {key : String}
    {value : α} (h : (table.insertAll entries).get? key = some value) :
    (key, value) ∈ entries ∨ table.get? key = some value := by
  induction entries generalizing table with
  | nil => exact .inr h
  | cons entry entries ih =>
      have hinserted : ((table.insert entry.1 entry.2).insertAll entries).get? key = some value := h
      rcases ih hinserted with hmem | hget
      · exact .inl (.tail _ hmem)
      · rw [get?_insert] at hget
        split at hget
        · rename_i hkey
          obtain rfl := Option.some.inj hget
          rw [hkey]
          exact .inl (List.mem_cons_self ..)
        · exact .inr hget

theorem mem_of_get?_ofList {entries : List (String × α)} {key : String} {value : α}
    (h : (ofList entries).get? key = some value) : (key, value) ∈ entries := by
  have hinserted : (empty.insertAll entries).get? key = some value := h
  refine (mem_or_of_get?_insertAll hinserted).resolve_right ?_
  rw [get?_empty]
  nofun

/-- Entries in the order of their keys are listed as they are. -/
theorem entries_ofList {entries : List (String × α)}
    (h : entries.Pairwise fun a b => a.1 < b.1) : (ofList entries).entries = entries := by
  have hnodup : (entries.map (·.1)).Nodup := by
    refine List.pairwise_map.2 (h.imp fun {a b} hlt heq => ?_)
    rw [heq] at hlt
    exact String.lt_irrefl _ hlt
  have htable : ofList entries = ⟨entries, h⟩ := by
    refine ext_get? fun key => ?_
    have hget := get?_insertAll .empty hnodup key
    rw [get?_empty, Option.or_none] at hget
    exact hget
  rw [htable]

theorem filter_insertAll (table : Table α) {keep : String → Bool} {entries : List (String × α)}
    (h : ∀ entry ∈ entries, keep entry.1 = false) :
    (table.insertAll entries).filter keep = table.filter keep := by
  induction entries generalizing table with
  | nil => rfl
  | cons entry entries ih =>
      have hinsert : table.insertAll (entry :: entries)
          = (table.insert entry.1 entry.2).insertAll entries := rfl
      rw [hinsert, ih _ fun other hother => h other (.tail _ hother),
        filter_insert _ (h entry (List.mem_cons_self ..))]

/-! ## Tables under other keys -/

variable {β : Type}

/-- The table with other values. -/
def mapValues (f : α → β) (table : Table α) : Table β :=
  ⟨table.entries.map fun entry => (entry.1, f entry.2), List.pairwise_map.2 table.sorted⟩

/-- The table with every value under another key. -/
def mapKeys (rename : String → String) (table : Table α) : Table α :=
  ofList (table.entries.map fun entry => (rename entry.1, entry.2))

theorem get?_mapValues (f : α → β) (table : Table α) (key : String) :
    (table.mapValues f).get? key = (table.get? key).map f := by
  change find? key (table.entries.map fun entry => (entry.1, f entry.2))
    = (find? key table.entries).map f
  induction table.entries with
  | nil => rfl
  | cons entry entries ih =>
      rw [List.map_cons, find?, find?]
      split
      · rfl
      · exact ih

theorem keys_nodup (table : Table α) : table.keys.Nodup := by
  refine List.pairwise_map.2 (table.sorted.imp fun {a b} hlt heq => ?_)
  rw [heq] at hlt
  exact String.lt_irrefl _ hlt

theorem mem_keys_iff {table : Table α} {key : String} :
    key ∈ table.keys ↔ (table.get? key).isSome = true := by
  rw [keys, List.mem_map, Option.isSome_iff_exists]
  constructor
  · rintro ⟨⟨_, value⟩, hentry, rfl⟩
    exact ⟨value, table.mem_entries_iff.1 hentry⟩
  · rintro ⟨value, hvalue⟩
    exact ⟨(key, value), table.mem_entries_iff.2 hvalue, rfl⟩

variable {ids : Set String} {rename : String → String}

theorem find?_map_key (hinj : Set.InjOn rename ids) {key : String} (hkey : key ∈ ids)
    {entries : List (String × α)} (hentries : ∀ entry ∈ entries, entry.1 ∈ ids) :
    find? (rename key) (entries.map fun entry => (rename entry.1, entry.2))
      = find? key entries := by
  induction entries with
  | nil => rfl
  | cons entry entries ih =>
      have hentry := hentries entry (List.mem_cons_self ..)
      have hrest := ih fun other hother => hentries other (.tail _ hother)
      rw [List.map_cons, find?, find?, hrest]
      exact if_congr (hinj.eq_iff hentry hkey) rfl rfl

section

variable (hinj : Set.InjOn rename ids) {table : Table α} (hkeys : ∀ key ∈ table.keys, key ∈ ids)

include hinj hkeys

theorem get?_ofList_map_key (key : String) :
    (table.mapKeys rename).get? key
      = find? key (table.entries.map fun entry => (rename entry.1, entry.2)) := by
  have hnodup : ((table.entries.map fun entry => (rename entry.1, entry.2)).map (·.1)).Nodup := by
    have hmap : (table.entries.map fun entry => (rename entry.1, entry.2)).map (·.1)
        = table.keys.map rename := by
      rw [keys, List.map_map, List.map_map]
      rfl
    rw [hmap]
    exact table.keys_nodup.map_on fun a ha b hb heq => hinj (hkeys a ha) (hkeys b hb) heq
  have hall := get?_insertAll empty hnodup key
  rwa [get?_empty, Option.or_none] at hall

/-- Under the new key stands what stood under the old one. -/
theorem get?_mapKeys {key : String} (hkey : key ∈ ids) :
    (table.mapKeys rename).get? (rename key) = table.get? key := by
  rw [get?_ofList_map_key hinj hkeys]
  exact find?_map_key hinj hkey fun entry hentry => hkeys _ (List.mem_map_of_mem hentry)

theorem mem_keys_mapKeys {key : String} :
    key ∈ (table.mapKeys rename).keys ↔ ∃ old ∈ table.keys, rename old = key := by
  rw [mem_keys_iff]
  constructor
  · intro h
    rw [get?_ofList_map_key hinj hkeys] at h
    by_contra hnot
    rw [find?_eq_none] at h
    · contradiction
    · rw [List.map_map, List.mem_map]
      rintro ⟨entry, hentry, hsame⟩
      exact hnot ⟨entry.1, List.mem_map_of_mem hentry, hsame⟩
  · rintro ⟨old, hold, rfl⟩
    rw [get?_mapKeys hinj hkeys (hkeys old hold)]
    exact mem_keys_iff.1 hold

end

end RigPack.Table

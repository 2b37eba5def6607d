import RigPack.Proofs.Toml.Lines
import RigPack.Toml.Printer

/-!
# Documents of one table

A table of strings and natural numbers is written as a document with a header and one line for each
of its entries.  This file shows that such a document is read as the table that it was written for
(`read?_write?`), also if empty lines follow.

## Strategy

The reader takes a line for one change of the draft, so the draft after some lines holds the entries
of these lines in their order (`readLines_writePair?`).  No key stands twice, so no line is refused.
-/

namespace RigPack.Toml

/-- Whether a value is a string, or a natural number that fits 64 bits. -/
def IsScalar : Toml → Prop
  | .string _ => True
  | .integer n => 0 ≤ n ∧ n ≤ Int64.maxValue.toInt
  | _ => False

/-- A name and a table below it that make a document without quoted keys and nested values. -/
structure IsSection (name : String) (entries : Table) : Prop where
  name : IsName name.toList
  keys : ∀ entry ∈ entries, IsName entry.1.toList
  nodup : (entries.map (·.1)).Nodup
  values : ∀ entry ∈ entries, IsScalar entry.2

/-! ## Writing -/

theorem bareKey?_of_isName {key : String} (hkey : IsName key.toList) : bareKey? key = some key := by
  rw [bareKey?, if_pos ⟨hkey.ne_nil, List.all_eq_true.2 hkey.isKeyChar⟩]

/-- A line with a scalar starts with its key, and the value is read up to the end of the line. -/
theorem exists_writePair? {key : String} {v : Toml} (hkey : IsName key.toList) (hv : IsScalar v) :
    ∃ line value, writePair? (key, v) = some line ∧
      line.toList = key.toList ++ ' ' :: '=' :: ' ' :: (value ++ ['\n']) ∧
      ∀ rest, StartsScalar (value ++ rest) ∧
        readScalar (value ++ '\n' :: rest) = some (v, '\n' :: rest) := by
  have hequals : " = ".toList = [' ', '=', ' '] := by decide
  have hbreak : "\n".toList = ['\n'] := by decide
  cases v with
  | string s =>
      refine ⟨key ++ " = " ++ quoted s ++ "\n", quotedChars s.toList, ?_, ?_, fun rest => ⟨?_, ?_⟩⟩
      · rw [writePair?, bareKey?_of_isName hkey]
        rfl
      · have hquoted : (quoted s).toList = quotedChars s.toList := String.toList_ofList
        simp only [String.toList_append, hequals, hbreak, hquoted, List.append_assoc,
          List.cons_append, List.nil_append]
      · exact startsScalar_quotedChars ..
      · rw [readScalar_quotedChars, String.ofList_toList]
  | integer n =>
      obtain ⟨n, rfl⟩ := Int.eq_ofNat_of_zero_le hv.1
      refine ⟨key ++ " = " ++ toString n ++ "\n", Nat.toDigits 10 n, ?_, ?_, fun rest => ⟨?_, ?_⟩⟩
      · rw [writePair?, bareKey?_of_isName hkey]
        rfl
      · simp only [String.toList_append, hequals, hbreak, Text.toList_toString, List.append_assoc,
          List.cons_append, List.nil_append]
      · exact startsScalar_toDigits ..
      · exact readScalar_toDigits _ _ hv.2
  | _ => exact hv.elim

theorem toList_join_cons (line : String) (lines : List String) :
    (String.join (line :: lines)).toList = line.toList ++ (String.join lines).toList := by
  rw [String.join_cons, String.toList_append]

/-! ## Reading -/

/-- The entries of a draft that hold values. -/
def valueEntries (entries : Table) : Entries :=
  entries.map fun entry => (entry.1, .value entry.2)

theorem entriesToToml_valueEntries (entries : Table) :
    entriesToToml (valueEntries entries) = entries := by
  induction entries with
  | nil => rfl
  | cons entry entries ih => exact congrArg (entry :: ·) ih

theorem get?_valueEntries {key : String} {entries : Table} (h : key ∉ entries.map (·.1)) :
    get? key (valueEntries entries) = none := by
  rw [get?, Option.map_eq_none_iff, List.find?_eq_none]
  intro entry hentry heq
  obtain ⟨original, horiginal, rfl⟩ := List.mem_map.1 hentry
  exact h (List.mem_map.2 ⟨original, horiginal, of_decide_eq_true heq⟩)

/-- The lines of a table add its entries behind those that the draft has. -/
theorem readLines_writePair? (opened : Table) {entries : Table}
    (hkeys : ∀ entry ∈ entries, IsName entry.1.toList)
    (hvalues : ∀ entry ∈ entries, IsScalar entry.2)
    (hnodup : ((opened ++ entries).map (·.1)).Nodup)
    (root : Entries) (path : List String) :
    ∃ lines, entries.mapM writePair? = some lines ∧
      entries.length ≤ (String.join lines).toList.length ∧
      ∀ steps rest, readLines (steps + entries.length) ⟨root, path, false, valueEntries opened⟩
          ((String.join lines).toList ++ rest)
        = readLines steps ⟨root, path, false, valueEntries (opened ++ entries)⟩ rest := by
  induction entries generalizing opened with
  | nil =>
      refine ⟨[], rfl, Nat.zero_le _, fun steps rest => ?_⟩
      rw [List.append_nil, List.length_nil, Nat.add_zero, String.join_nil, String.toList_empty,
        List.nil_append]
  | cons entry entries ih =>
      obtain ⟨key, v⟩ := entry
      have hkey : IsName key.toList := hkeys _ (List.mem_cons_self ..)
      obtain ⟨line, value, hline, htext, hread⟩ :=
        exists_writePair? hkey (hvalues _ (List.mem_cons_self ..))
      -- the entry counts as one of the draft for the lines behind it
      rw [List.append_cons] at hnodup
      obtain ⟨lines, hlines, hlength, hbehind⟩ := ih _
        (fun entry hentry => hkeys entry (List.mem_cons_of_mem _ hentry))
        (fun entry hentry => hvalues entry (List.mem_cons_of_mem _ hentry)) hnodup
      have hnew : key ∉ opened.map (·.1) := by
        rw [List.map_append, List.map_append, List.append_assoc, List.nodup_append] at hnodup
        exact fun hmem => hnodup.2.2 key hmem key (by simp) rfl
      have hopened : valueEntries opened ++ [(key, .value v)]
          = valueEntries (opened ++ [(key, v)]) := by simp [valueEntries]
      refine ⟨line :: lines, by rw [List.mapM_cons, hline, hlines]; rfl, ?_, fun steps rest => ?_⟩
      · rw [toList_join_cons, htext]
        simp only [List.length_append, List.length_cons]
        omega
      rw [toList_join_cons, htext, List.length_cons, ← Nat.add_assoc]
      simp only [List.append_assoc, List.cons_append, List.nil_append]
      rw [readLines_new_pair hkey _ (get?_valueEntries hnew) (hread _).1 (hread _).2, hopened,
        hbehind, ← List.append_cons]

/-- **Documents are read back.**  A document of one table gives this table, whatever strings and
numbers it holds, and empty lines behind it do not count. -/
theorem read?_write? {name : String} {entries : Table} (h : IsSection name entries) :
    ∃ document, write? [(name, .table entries)] = some document ∧ ∀ breaks,
      read? (document ++ String.ofList (List.replicate breaks '\n'))
        = some [(name, .table entries)] := by
  obtain ⟨lines, hlines, hlength, hread⟩ :=
    readLines_writePair? [] h.keys h.values h.nodup [] [name]
  refine ⟨"[" ++ name ++ "]\n" ++ String.join lines, ?_, fun breaks => ?_⟩
  · simp [write?, writeSection?, bareKey?_of_isName h.name, hlines]
  -- the document is a header, then the lines of the table
  have htext : ("[" ++ name ++ "]\n" ++ String.join lines
      ++ String.ofList (List.replicate breaks '\n')).toList
      = '[' :: (name.toList ++ ']' :: '\n' ::
        ((String.join lines).toList ++ List.replicate breaks '\n')) := by
    have hopen : "[".toList = ['['] := by decide
    have hclose : "]\n".toList = [']', '\n'] := by decide
    simp only [String.toList_append, String.toList_ofList, hopen, hclose, List.append_assoc,
      List.cons_append, List.nil_append]
  have hopened : Draft.start.openTable [name] = some ⟨[], [name], false, valueEntries []⟩ := rfl
  -- no line is shorter than one character, so the steps suffice
  have hlong : breaks + entries.length + 1 ≤ ("[" ++ name ++ "]\n" ++ String.join lines
      ++ String.ofList (List.replicate breaks '\n')).toList.length := by
    rw [htext]
    simp only [List.length_cons, List.length_append, List.length_replicate]
    omega
  obtain ⟨steps, hsteps⟩ := Nat.exists_eq_add_of_le' hlong
  rw [read?_eq (by rw [htext]; simp), hsteps, ← Nat.add_assoc,
    ← Nat.add_assoc, htext, readLines_header h.name, String.ofList_toList,
    hopened, Option.bind_some, hread, readLines_breaks (Nat.le_add_left ..)]
  exact congrArg (fun entries => some [(name, Toml.table entries)])
    (entriesToToml_valueEntries entries)

end RigPack.Toml

import RigPack.CommandLine.Run
import RigPack.Proofs.Toml.Document

/-!
# Shown settings are kept

The program shows its settings as a document.  This file shows that the document is a file of
settings that gives exactly these settings, whatever characters the folder holds: laid over any
other settings it leaves nothing of them (`shown_settings_are_kept`).

Settings are shown as a record of one type and read as one of another, in which each field may be
missing.  How documents are spelled, and how fields become entries of a table, is left to a
`Library`; what is relied on there has a name of its own, and speaks of fields of any name.

## What is relied on

* `ReadsWhatItWrites`: a document of one table is read as that table.
* `EncodesFields`: a record is written with an entry for each field, under its name.
* `DecodesFields`: a field is read from the entry of its name, and is missing without one.

The program's own library does all three.
-/

namespace RigPack

/-! ## What is relied on -/

namespace Library

variable [Library]

/-- A document that is written for one table of strings and numbers is read as this table, whether
empty lines follow it or not. -/
def ReadsWhatItWrites : Prop :=
  ∀ name entries, Toml.IsSection name entries →
    ∃ document, writeDocument [(name, .table entries)] = .ok document ∧ ∀ breaks,
      readDocument? (document ++ String.ofList (List.replicate breaks '\n'))
        = some [(name, .table entries)]

/-- A record is written as a table below its name, with an entry for each of its fields. -/
def EncodesFields : Prop :=
  ∀ name fields, encode name fields
    = [(name, .table (fields.map fun field => (field.1, field.2.toToml)))]

/-- A field of a record is read from the entry of its name, and is missing if there is none. -/
structure DecodesFields : Prop where
  text : ∀ (table entries : Toml.Table) (path : FieldPath) (value : Option String),
    table.lookup path.record = some (.table entries) →
    entries.lookup path.name = value.map (fun s => (FieldValue.text s).toToml) →
    text? table path = some value
  word : ∀ (table entries : Toml.Table) (path : FieldPath) (value : Option UInt32),
    table.lookup path.record = some (.table entries) →
    entries.lookup path.name = value.map (fun n => (FieldValue.word n).toToml) →
    word? table path = some value

end Library

namespace Settings

/-! ## Keeping settings -/

theorem toNat_le_maxValue (n : UInt32) : (n.toNat : Int) ≤ Int64.maxValue.toInt := by
  have hmax : (2 ^ 32 : Int) ≤ Int64.maxValue.toInt := by decide
  have hn := n.toNat_lt
  omega

/-- The entries that settings are written as. -/
def entries (settings : Settings) : Toml.Table :=
  settings.fields.map fun field => (field.1, field.2.toToml)

/-- The table of settings can be written as a document. -/
theorem isSection (settings : Settings) : Toml.IsSection "exporter" settings.entries where
  name := .of_all (by decide) (by decide)
  keys := by
    simp only [entries, fields, List.map_cons, List.map_nil, List.forall_mem_cons]
    exact ⟨.of_all (by decide) (by decide), .of_all (by decide) (by decide),
      .of_all (by decide) (by decide), List.forall_mem_nil _⟩
  nodup := by simp [entries, fields]
  values := by
    have hword (n : UInt32) : Toml.IsScalar (FieldValue.word n).toToml :=
      ⟨Int.natCast_nonneg _, toNat_le_maxValue n⟩
    simp only [entries, fields, List.map_cons, List.map_nil, List.forall_mem_cons]
    exact ⟨trivial, hword _, hword _, List.forall_mem_nil _⟩

/-- The table of settings gives each of them. -/
theorem ofTable?_entries [Library] (hdecode : Library.DecodesFields) (settings : Settings) :
    Layer.ofTable? [("exporter", .table settings.entries)]
      = some ⟨some settings.folder, some settings.interpolation, some settings.packFormat⟩ := by
  have hfolder := hdecode.text [("exporter", .table settings.entries)] settings.entries
    ⟨"exporter", 0, "datapack_folder"⟩ (some settings.folder) rfl rfl
  have hinterpolation := hdecode.word [("exporter", .table settings.entries)] settings.entries
    ⟨"exporter", 1, "interpolation_duration"⟩ (some settings.interpolation) rfl rfl
  have hpackFormat := hdecode.word [("exporter", .table settings.entries)] settings.entries
    ⟨"exporter", 2, "pack_format"⟩ (some settings.packFormat) rfl rfl
  rw [Layer.ofTable?, hfolder, hinterpolation, hpackFormat]
  rfl

/-- **Shown settings are kept.**  If documents are read as they are written, and fields go by their
names, then settings can be shown, and the document that shows them is a file of settings, with the
line break behind it that ends what the program prints or without.  It gives each of the settings,
so nothing is left of other settings under it. -/
theorem shown_settings_are_kept [Library] (hdocuments : Library.ReadsWhatItWrites)
    (hencode : Library.EncodesFields) (hdecode : Library.DecodesFields) (settings : Settings) :
    ∃ document layer, settings.document = .ok document ∧
      Layer.ofFile? document = some layer ∧
      Layer.ofFile? (CommandLine.Printed.answer [document]).text = some layer ∧
      ∀ other : Settings, other.overlay layer = settings := by
  obtain ⟨document, hwrite, hread⟩ := hdocuments _ _ (isSection settings)
  have hlayer (breaks : Nat) :
      Layer.ofFile? (document ++ String.ofList (List.replicate breaks '\n'))
        = some ⟨some settings.folder, some settings.interpolation, some settings.packFormat⟩ := by
    rw [Layer.ofFile?, hread breaks, Option.bind_some, ofTable?_entries hdecode]
  have hprinted : (CommandLine.Printed.answer [document]).text
      = document ++ String.ofList (List.replicate 1 '\n') := by
    simp [CommandLine.Printed.answer, CommandLine.Printed.text, Text.unlines]
  refine ⟨document, ⟨some settings.folder, some settings.interpolation, some settings.packFormat⟩,
    ?_, ?_, ?_, fun other => rfl⟩
  · rw [Settings.document, hencode]
    exact congrArg (Except.mapError ConfigFault.unwritable) hwrite
  · simpa using hlayer 0
  · rw [hprinted]
    exact hlayer 1

/-! ## The library of the program -/

theorem readsWhatItWrites : Library.ReadsWhatItWrites := by
  intro name entries hsection
  obtain ⟨document, hwrite, hread⟩ := Toml.read?_write? hsection
  refine ⟨document, ?_, hread⟩
  simp only [Library.writeDocument, hwrite]

theorem encodesFields : Library.EncodesFields :=
  fun _ _ => rfl

/-- The program shows settings as a header and a line for each of them. -/
theorem document_eq_ok (settings : Settings) : settings.document = .ok settings.toToml := by
  have hkey (key : String) (hne : key.toList ≠ []) (h : key.toList.all Toml.isKeyChar = true) :
      Toml.bareKey? key = some key := Toml.bareKey?_of_isName (.of_all hne h)
  -- the parts of the header and of the keys, as they are put together
  have hparts {front behind whole : String} (h : front.toList ++ behind.toList = whole.toList) :
      front ++ behind = whole := String.toList_inj.1 (String.toList_append.trans h)
  have hheader : "[" ++ "exporter" ++ "]\n" = "[exporter]\n" := hparts (by decide)
  have hfolder : "datapack_folder" ++ " = " = "datapack_folder = " := hparts (by decide)
  have hinterpolation : "interpolation_duration" ++ " = " = "interpolation_duration = " :=
    hparts (by decide)
  have hpackFormat : "pack_format" ++ " = " = "pack_format = " := hparts (by decide)
  have hwritten : Toml.write? [("exporter", .table settings.entries)] = some settings.toToml := by
    simp only [Toml.write?, entries, fields, FieldValue.toToml, List.map_cons, List.map_nil,
      List.mapM_cons, List.mapM_nil, Toml.writeSection?,
      Toml.writePair?, hkey "exporter" (by decide) (by decide),
      hkey "datapack_folder" (by decide) (by decide),
      hkey "interpolation_duration" (by decide) (by decide),
      hkey "pack_format" (by decide) (by decide), Option.bind_eq_bind, Option.bind_some,
      Option.pure_def]
    refine congrArg some ?_
    rw [hheader, hfolder, hinterpolation, hpackFormat, String.intercalate_singleton,
      String.join_cons, String.join_cons, String.join_cons, String.join_nil, String.append_empty]
    unfold toToml
    simp only [← String.append_assoc]
  have hdocument : Library.writeDocument [("exporter", .table settings.entries)]
      = .ok settings.toToml := by
    simp only [Library.writeDocument, hwritten]
  rw [Settings.document, encodesFields]
  exact congrArg (Except.mapError ConfigFault.unwritable) hdocument

theorem word?_toToml (n : UInt32) : (FieldValue.word n).toToml.word? = some n := by
  have hrange : (0 : Int) ≤ n.toNat ∧ (n.toNat : Int) < UInt32.size := by
    have hn := n.toNat_lt
    have hsize : (UInt32.size : Int) = 2 ^ 32 := rfl
    omega
  rw [FieldValue.toToml, Toml.word?, if_pos hrange, Int.toNat_natCast, UInt32.ofNat_toNat]

/-- A field that is read as it is written is read from its entry, and is missing without one. -/
theorem read?_of_lookup {α : Type} {read : Toml → Option α} {written : α → Toml}
    (h : ∀ a, read (written a) = some a) {table entries : Toml.Table} {path : FieldPath}
    {value : Option α} (hrecord : table.lookup path.record = some (.table entries))
    (hvalue : entries.lookup path.name = value.map written) :
    FieldPath.read? read table path = some value := by
  have hfound : path.find? table = some (value.map written) := by
    rw [FieldPath.find?, hrecord, ← hvalue]
  rw [FieldPath.read?, hfound]
  cases value with
  | none => rfl
  | some a =>
      have hread : read (written a) = some a := h a
      simp [hread]

theorem text?_toToml (s : String) : (FieldValue.text s).toToml.text? = some s :=
  rfl

theorem decodesFields : Library.DecodesFields where
  text _ _ _ _ := read?_of_lookup text?_toToml
  word _ _ _ _ := read?_of_lookup word?_toToml

/-- A folder with quotes of both kinds, a backslash, a line break and a control character. -/
def awkwardSettings : Settings :=
  ⟨"it's \"both\"\\\n\x07", 4294967295, 12⟩

/-- The program keeps settings with an awkward folder and the greatest number of ticks. -/
theorem shown_settings_are_kept_of_awkward_folder :
    Library.ReadsWhatItWrites ∧ Library.EncodesFields ∧ Library.DecodesFields ∧
      ∃ document layer, awkwardSettings.document = .ok document ∧
        Layer.ofFile? document = some layer ∧
        Layer.ofFile? (CommandLine.Printed.answer [document]).text = some layer ∧
        ∀ other : Settings, other.overlay layer = awkwardSettings :=
  ⟨readsWhatItWrites, encodesFields, decodesFields,
    shown_settings_are_kept readsWhatItWrites encodesFields decodesFields awkwardSettings⟩

end Settings

end RigPack

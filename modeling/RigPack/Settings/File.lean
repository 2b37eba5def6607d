import RigPack.Settings.Basic
import RigPack.Settings.Fault
import RigPack.Settings.Library

/-!
# Files of settings

A file of settings is a document that gives one layer of settings: what it leaves out stays open,
and what it says beyond the settings does not count.
-/

namespace RigPack.Settings

variable [Library]

/-- The layer that a table gives, unless a field is of a wrong type. -/
def Layer.ofTable? (table : Toml.Table) : Option Layer := do
  let folder ← Library.text? table ⟨"exporter", 0, "datapack_folder"⟩
  let interpolation ← Library.word? table ⟨"exporter", 1, "interpolation_duration"⟩
  let packFormat ← Library.word? table ⟨"exporter", 2, "pack_format"⟩
  return ⟨folder, interpolation, packFormat⟩

/-- The layer that a file gives, unless the file is malformed or has values of wrong types. -/
def Layer.ofFile? (file : String) : Option Layer :=
  (Library.readDocument? file).bind ofTable?

/-- The fields of settings. -/
def fields (settings : Settings) : List (String × FieldValue) := [
  ("datapack_folder", .text settings.folder),
  ("interpolation_duration", .word settings.interpolation),
  ("pack_format", .word settings.packFormat)]

/-- The document that gives exactly these settings. -/
def document (settings : Settings) : Except ConfigFault String :=
  (Library.writeDocument (Library.encode "exporter" settings.fields)).mapError .unwritable

/-- A file to start from, in which every setting is left open. -/
def template : String :=
  "# animpack configuration
#
# Locations (by precedence, lowest to highest):
#   Global: ~/.config/animpack/animpack.toml
#   Local:  <project_dir>/.animpack.toml
#   Env:    ANIMPACK_* environment variables, e.g. ANIMPACK_EXPORTER__DATAPACK_FOLDER
#   Flags:  animpack export -o DIR --interpolation-duration N

[exporter]
# Folder receiving the data pack; the pack is written to <datapack_folder>/<namespace>
# datapack_folder = \"~/.minecraft/saves/world/datapacks\"

# Ticks a display interpolates between two frames
# interpolation_duration = 1

# pack_format written to pack.mcmeta
# pack_format = 12
"

end RigPack.Settings

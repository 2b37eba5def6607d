import RigPack.CommandLine.Run
import RigPack.Proofs.FirstFault
import RigPack.Proofs.Settings.Word
import RigPack.Store.Disk

/-!
# Layers of settings

The settings of an export come from two files, from the environment and from the command line,
above what holds if nothing is configured.  This file shows that the layers are independent of
each other setting by setting: each setting is that of the highest layer that gives it, whatever
else the layers give (`highest`).  A folder is the only setting that is worked on afterwards; that
of the command line is left alone (`located`).

A layer that cannot be read spoils the settings even if a higher layer gives all that it could
have given.  Of several such layers the lowest one is reported, so the faults are a list in the
order of the layers (`faults`).

Where the user's own file lies, what variables and references mean and how a file spells its
layer is left to a `Library`, of which nothing is assumed.

## Strategy

Loading only reads, so on a disk it has an answer and leaves the disk as it is
(`Answers`).  The answer is a computation in `Except`, of which `Reports` says which fault it
reports.

## Main statements

* `reports_loaded`: loading reports the faults of the layers in their order.
* `overlay_overlay_overlay`: the layers laid over each other, setting by setting.
* `export_settings_are_layered`: the settings of an export, or why there are none.
-/

namespace RigPack.Settings

variable {ε ε' α β : Type}

/-- The value of the first layer that gives one; the first layer is the highest. -/
def highest (layers : List (Option α)) (initial : α) : α :=
  (layers.findSome? id).getD initial

@[simp] theorem highest_nil (initial : α) : highest [] initial = initial :=
  rfl

@[simp] theorem highest_cons (layer : Option α) (layers : List (Option α)) (initial : α) :
    highest (layer :: layers) initial = layer.getD (highest layers initial) := by
  cases layer <;> rfl

/-- The fault that a computation reports, if it does. -/
def faultOf : Except ε α → List ε
  | .ok _ => []
  | .error fault => [fault]

theorem reports_faultOf (x : Except ε α) : Reports x (faultOf x) := by
  cases x <;> rfl

theorem faultOf_eq_nil {x : Except ε α} : faultOf x = [] ↔ ∃ a, x = .ok a := by
  cases x <;> simp [faultOf]

/-! ## Programs that only read -/

/-- Whether a program run on a disk gives an answer and leaves the disk as it is. -/
def Answers (disk : Disk) (program : ExceptT ε (StateM Disk) α) (answer : Except ε α) : Prop :=
  program.run.run disk = (answer, disk)

namespace Answers

variable {disk : Disk}

theorem bind {program : ExceptT ε (StateM Disk) α} {next : α → ExceptT ε (StateM Disk) β}
    {answer : Except ε α} {nextAnswer : α → Except ε β} (hprogram : Answers disk program answer)
    (hnext : ∀ a, Answers disk (next a) (nextAnswer a)) :
    Answers disk (program >>= next) (answer >>= nextAnswer) := by
  have hrun : (program >>= next).run.run disk
      = (ExceptT.bindCont next (program.run.run disk).1).run (program.run.run disk).2 := rfl
  rw [Answers, hrun, hprogram]
  cases answer with
  | ok a => exact hnext a
  | error e => rfl

theorem adapt {program : ExceptT ε (StateM Disk) α} {answer : Except ε α} (rename : ε → ε')
    (hprogram : Answers disk program answer) :
    Answers disk (program.adapt rename) (answer.mapError rename) := by
  have hrun : (program.adapt rename).run.run disk
      = ((program.run.run disk).1.mapError rename, (program.run.run disk).2) := rfl
  rw [Answers, hrun, hprogram]

theorem congr {program : ExceptT ε (StateM Disk) α} {a b : α}
    (hprogram : Answers disk program (.ok a)) (h : a = b) : Answers disk program (.ok b) :=
  h ▸ hprogram

end Answers

/-! ## Numbers in variables -/

theorem number_eq_ok_iff {variableName value : String} {n : UInt32} :
    Environment.number variableName value = .ok n ↔ SpellsWord (Text.trim value).toList n := by
  rw [← Environment.parseWord_eq_ok_iff, Environment.number]
  split <;> simp [*]

/-- A value that is there is worked on. -/
theorem mapM_some_eq_map (f : α → Except ε β) (a : α) : (some a).mapM f = (f a).map some :=
  rfl

/-- Whether a variable, if it is set, spells the number that a layer gives. -/
def GivesNumber (found : Option String) (given : Option UInt32) : Prop :=
  Option.Rel (fun value n => SpellsWord (Text.trim value).toList n) found given

theorem number?_eq_ok_iff {values : String → Option String} {key variableName : String}
    {given : Option UInt32} :
    Environment.number? values key variableName = .ok given ↔
      GivesNumber (values key) given := by
  unfold Environment.number? GivesNumber
  cases values key with
  | none => cases given <;> simp
  | some value =>
      rw [mapM_some_eq_map, map_eq_ok]
      cases given <;> simp [number_eq_ok_iff]

/-! ## Layers laid over each other -/

/-- Each setting is that of the highest layer that gives it. -/
theorem overlay_overlay_overlay (settings : Settings) (own project environment : Layer) :
    ((settings.overlay own).overlay project).overlay environment = {
      folder := highest [environment.folder, project.folder, own.folder] settings.folder
      interpolation := highest
        [environment.interpolation, project.interpolation, own.interpolation]
        settings.interpolation
      packFormat := highest
        [environment.packFormat, project.packFormat, own.packFormat] settings.packFormat } := by
  simp only [overlay, highest_cons, highest_nil]

theorem join_of_isAbsolute {base path : String} (h : Path.isAbsolute path = true) :
    Path.join base path = path := by
  simp [Path.join, h]

section

variable [Library]

/-! ## What the layers give -/

/-- A configured folder with its references written out; a relative one is seen from `base`, and
an empty one says that there is none, before its references are written out or after. -/
def located (env : Environment) (base configured : String) : String :=
  let folder := if configured.isEmpty then "" else env.expand configured
  if folder.isEmpty then ""
  else if Path.isAbsolute folder then folder
  else Path.join base folder

/-- A layer that leaves all open. -/
def openLayer : Layer :=
  ⟨none, none, none⟩

/-- What the file at a path gives, which has to be there and has to be well formed. -/
def heldLayer (disk : Disk) (path : String) : Except ConfigFault Layer := do
  let text ← (disk.readText path).mapError (.unreadable path)
  match Layer.ofFile? text with
  | some layer => .ok layer
  | none => .error (.unparsable path)

/-- What the file at a path gives, or nothing if no file is there. -/
def fileLayer (disk : Disk) (path : String) : Except ConfigFault Layer :=
  if (disk.kind? path).isSome then heldLayer disk path else .ok openLayer

/-- What the user's own file gives, if the place of such a file is known. -/
def ownLayer (disk : Disk) (env : Environment) : Except ConfigFault Layer :=
  (globalFile? env).elim (.ok openLayer) (fileLayer disk)

/-- What the two files and the environment give, none of which is malformed; `values` are those
that variables of the environment give by the keys of settings. -/
structure Gives (disk : Disk) (env : Environment) (projectFolder : String)
    (values : String → Option String) (own project environment : Layer) : Prop where
  own : ownLayer disk env = .ok own
  project : fileLayer disk (localFile projectFolder) = .ok project
  assigned : Library.assigned env = .ok values
  folder : environment.folder = values "exporter.datapack_folder"
  interpolation : GivesNumber (values "exporter.interpolation_duration") environment.interpolation
  packFormat : GivesNumber (values "exporter.pack_format") environment.packFormat

/-- What is wrong with the variables of the environment, from the interpolation on. -/
def environmentFaults (env : Environment) : List ConfigFault :=
  match Library.assigned env with
  | .error cause => [.unusableVariables cause]
  | .ok values =>
    faultOf (Environment.number? values "exporter.interpolation_duration"
      "ANIMPACK_EXPORTER__INTERPOLATION_DURATION")
    ++ faultOf (Environment.number? values "exporter.pack_format"
      "ANIMPACK_EXPORTER__PACK_FORMAT")

/-- What is wrong with the layers, from the lowest one on. -/
def faults (disk : Disk) (env : Environment) (projectFolder : String) : List ConfigFault :=
  faultOf (ownLayer disk env)
  ++ faultOf (fileLayer disk (localFile projectFolder))
  ++ environmentFaults env

/-! ## Loading -/

namespace Answers

variable {disk : Disk}

theorem readLayer (path : String) :
    Answers disk (Settings.readLayer path) (heldLayer disk path) := by
  have hread : Answers disk (FileStore.readText path : ExceptT IoError (StateM Disk) String)
      (disk.readText path) := rfl
  refine (hread.adapt _).bind fun text => ?_
  cases Layer.ofFile? text <;> rfl

theorem readLayerIfPresent (path : String) :
    Answers disk (Settings.readLayerIfPresent path) (fileLayer disk path) := by
  have hpresence : Answers disk
      (ExceptT.lift (FileStore.isPresent path) : ExceptT ConfigFault (StateM Disk) Bool)
      (.ok (disk.kind? path).isSome) := rfl
  have hlayer (isPresent : Bool) : Answers disk
      (if isPresent then Settings.readLayer path else return default)
      (if isPresent then heldLayer disk path else .ok openLayer) := by
    cases isPresent with
    | false => rfl
    | true => exact readLayer path
  exact hpresence.bind hlayer

end Answers

/-- The settings without those of the command line, or why there are none.  The user's own layer,
the project's and that of the environment are read in this order. -/
def loaded (disk : Disk) (env : Environment) (projectFolder : String) :
    Except ConfigFault Settings := do
  let own ← ownLayer disk env
  let project ← fileLayer disk (localFile projectFolder)
  let environment ← env.layer
  return (((initial.overlay own).overlay project).overlay environment).expandFolder env

theorem answers_load (disk : Disk) (env : Environment) (projectFolder : String) :
    Answers disk (load env (some projectFolder)) (loaded disk env projectFolder) := by
  have hown : Answers disk
      ((globalFile? env).elim (pure default) (readLayerIfPresent (m := StateM Disk)))
      (ownLayer disk env) := by
    rw [ownLayer]
    cases globalFile? env with
    | none => rfl
    | some path => exact .readLayerIfPresent path
  refine hown.bind fun own => .bind (.readLayerIfPresent _) fun project => ?_
  exact .bind rfl fun environment => rfl

theorem answers_exportSettings_of_ok {disk : Disk} {env : Environment} {projectFolder : String}
    {settings : Settings} (h : loaded disk env projectFolder = .ok settings)
    (output : Option String) (interpolation : Option UInt32) :
    Answers disk (CommandLine.exportSettings env projectFolder output interpolation)
      (.ok (settings.override projectFolder output interpolation)) := by
  have hload := answers_load disk env projectFolder
  rw [h] at hload
  exact (hload.adapt _).bind fun _ => rfl

theorem answers_exportSettings_of_error {disk : Disk} {env : Environment} {projectFolder : String}
    {fault : ConfigFault} (h : loaded disk env projectFolder = .error fault)
    (output : Option String) (interpolation : Option UInt32) :
    Answers disk (CommandLine.exportSettings env projectFolder output interpolation)
      (.error (.export (.config fault))) := by
  have hload := answers_load disk env projectFolder
  rw [h] at hload
  exact (hload.adapt _).bind fun _ => rfl

/-! ## Faults -/

/-- Of two wrong numbers the environment reports the interpolation. -/
theorem layer_of_assigned {env : Environment} {values : String → Option String}
    (hassigned : Library.assigned env = .ok values) :
    env.layer = (do
      let interpolation ← Environment.number? values "exporter.interpolation_duration"
        "ANIMPACK_EXPORTER__INTERPOLATION_DURATION"
      let packFormat ← Environment.number? values "exporter.pack_format"
        "ANIMPACK_EXPORTER__PACK_FORMAT"
      return ⟨values "exporter.datapack_folder", interpolation, packFormat⟩) := by
  rw [Environment.layer, hassigned]
  rfl

theorem reports_layer (env : Environment) : Reports env.layer (environmentFaults env) := by
  cases hassigned : Library.assigned env with
  | error cause =>
      rw [Environment.layer, environmentFaults, hassigned]
      rfl
  | ok values =>
      rw [layer_of_assigned hassigned, environmentFaults, hassigned]
      exact (reports_faultOf _).bind fun interpolation _ => (reports_faultOf _).map _

/-- Loading reports the faults of the layers, from the lowest one on. -/
theorem reports_loaded (disk : Disk) (env : Environment) (projectFolder : String) :
    Reports (loaded disk env projectFolder) (faults disk env projectFolder) := by
  rw [faults, List.append_assoc]
  refine (reports_faultOf _).bind fun own _ => (reports_faultOf _).bind fun project _ => ?_
  exact (reports_layer env).map _

/-- The environment has no fault exactly if its variables can be read and give numbers. -/
theorem environmentFaults_eq_nil_iff {env : Environment} :
    environmentFaults env = [] ↔ ∃ values, Library.assigned env = .ok values ∧
      (∃ n, GivesNumber (values "exporter.interpolation_duration") n) ∧
      ∃ n, GivesNumber (values "exporter.pack_format") n := by
  unfold environmentFaults
  cases Library.assigned env with
  | error cause => simp
  | ok values =>
      simp [List.append_eq_nil_iff, faultOf_eq_nil, number?_eq_ok_iff]

/-- There is no fault exactly if all layers that are there can be read. -/
theorem faults_eq_nil_iff {disk : Disk} {env : Environment} {projectFolder : String} :
    faults disk env projectFolder = [] ↔ ∃ values own project environment,
      Gives disk env projectFolder values own project environment := by
  rw [faults, List.append_eq_nil_iff, List.append_eq_nil_iff, environmentFaults_eq_nil_iff,
    faultOf_eq_nil, faultOf_eq_nil]
  constructor
  · rintro ⟨⟨⟨own, hown⟩, project, hproject⟩, values, hvariables,
      ⟨interpolation, hinterpolation⟩, packFormat, hpackFormat⟩
    exact ⟨values, own, project,
      ⟨values "exporter.datapack_folder", interpolation, packFormat⟩,
      ⟨hown, hproject, hvariables, rfl, hinterpolation, hpackFormat⟩⟩
  · rintro ⟨values, own, project, environment, hgives⟩
    exact ⟨⟨⟨own, hgives.own⟩, project, hgives.project⟩, values, hgives.assigned,
      ⟨_, hgives.interpolation⟩, _, hgives.packFormat⟩

/-! ## Settings -/

variable {disk : Disk} {env : Environment} {projectFolder : String}
  {values : String → Option String} {own project environment : Layer}

theorem loaded_of_gives
    (hgives : Gives disk env projectFolder values own project environment) :
    loaded disk env projectFolder
      = .ok ((((initial.overlay own).overlay project).overlay environment).expandFolder env) := by
  have henvironment : env.layer = .ok environment := by
    rw [layer_of_assigned hgives.assigned, number?_eq_ok_iff.2 hgives.interpolation,
      number?_eq_ok_iff.2 hgives.packFormat, ← hgives.folder]
    rfl
  rw [loaded, hgives.own, hgives.project, henvironment]
  rfl

theorem folder_expandFolder (settings : Settings) (env : Environment) :
    (settings.expandFolder env).folder
      = if settings.folder.isEmpty then "" else env.expand settings.folder := by
  rw [expandFolder]
  split
  · rename_i hempty
    exact String.isEmpty_iff.1 hempty
  · rfl

/-- A folder that the command line does not give is written out and seen from the project's. -/
theorem folder_override_expandFolder (settings : Settings) (env : Environment)
    (projectFolder : String) (output : Option String) (interpolation : Option UInt32) :
    ((settings.expandFolder env).override projectFolder output interpolation).folder
      = output.getD (located env projectFolder settings.folder) := by
  cases output with
  | some folder => rfl
  | none =>
      dsimp only [override, located, Option.getD_none]
      rw [← folder_expandFolder]
      generalize (settings.expandFolder env).folder = folder
      split
      · rename_i hempty
        exact String.isEmpty_iff.1 hempty
      · split
        · rename_i habsolute
          exact join_of_isAbsolute habsolute
        · rfl

theorem override_expandFolder (settings : Settings) (env : Environment)
    (projectFolder : String) (output : Option String) (interpolation : Option UInt32) :
    (settings.expandFolder env).override projectFolder output interpolation = {
      folder := output.getD (located env projectFolder settings.folder)
      interpolation := interpolation.getD settings.interpolation
      packFormat := settings.packFormat } := by
  have hkept : (settings.expandFolder env).interpolation = settings.interpolation ∧
      (settings.expandFolder env).packFormat = settings.packFormat := by
    rw [expandFolder]
    split <;> exact ⟨rfl, rfl⟩
  rw [← folder_override_expandFolder settings env projectFolder output interpolation, ← hkept.1,
    ← hkept.2]
  rfl

/-- **The layers of settings.**  If no layer is malformed, an export has each setting from the
highest layer that gives it, where the command line gives no pack format; its folder is taken
from the command line as it is, and from elsewhere after its references are written out, as seen
from the project's folder.  Otherwise it fails with the fault of the lowest malformed layer, even
where a higher layer gives the same settings. -/
theorem export_settings_are_layered (disk : Disk) (env : Environment) (projectFolder : String)
    (output : Option String) (interpolation : Option UInt32) :
    (∀ values own project environment,
      Gives disk env projectFolder values own project environment →
      Answers disk (CommandLine.exportSettings env projectFolder output interpolation) (.ok {
        folder := output.getD (located env projectFolder
          (highest [environment.folder, project.folder, own.folder] ""))
        interpolation := highest [interpolation, environment.interpolation,
          project.interpolation, own.interpolation] 1
        packFormat := highest
          [environment.packFormat, project.packFormat, own.packFormat] 12 })) ∧
    (∀ fault, (faults disk env projectFolder).head? = some fault →
      Answers disk (CommandLine.exportSettings env projectFolder output interpolation)
        (.error (.export (.config fault)))) ∧
    (faults disk env projectFolder = [] ↔ ∃ values own project environment,
      Gives disk env projectFolder values own project environment) := by
  refine ⟨fun values own project environment hgives => ?_, fun fault hfault => ?_,
    faults_eq_nil_iff⟩
  · have hrun := answers_exportSettings_of_ok (loaded_of_gives hgives) output interpolation
    rw [overlay_overlay_overlay, override_expandFolder] at hrun
    rw [highest_cons interpolation]
    exact hrun
  · have hloaded := ((reports_loaded disk env projectFolder).eq_error_iff fault).2 hfault
    exact answers_exportSettings_of_error hloaded output interpolation

end

/-! ### An example -/

/-- A disk with a file of settings for the user and one for the project in `/p`. -/
def layeredDisk : Disk where
  files := .ofList [
    (Place.key ⟨["h", ".config", "animpack", "animpack.toml"]⟩,
      "[exporter]\ndatapack_folder = 'own'\npack_format = 9".toUTF8),
    (Place.key ⟨["p", ".animpack.toml"]⟩, "exporter.datapack_folder = \"$PACKS\"\n".toUTF8)]
  folders := .ofList [
    (Place.key ⟨["h"]⟩, ()), (Place.key ⟨["h", ".config"]⟩, ()),
    (Place.key ⟨["h", ".config", "animpack"]⟩, ()), (Place.key ⟨["p"]⟩, ())]
  here := .root

/-- An environment that gives the interpolation. -/
def layeredEnvironment (interpolation : String) : Environment :=
  ⟨[("HOME", "/h"), ("PACKS", "out"),
    ("ANIMPACK_EXPORTER__INTERPOLATION_DURATION", interpolation)]⟩

/-- The folder of the project's file hides that of the user's, and the command line hides the
interpolation of the environment, but not that it is no number. -/
theorem export_settings_are_layered_on_disk :
    Gives layeredDisk (layeredEnvironment " +3 ") "/p" (layeredEnvironment " +3 ").setting?
        ⟨some "own", none, some 9⟩ ⟨some "$PACKS", none, none⟩ ⟨none, some 3, none⟩ ∧
      Answers layeredDisk
        (CommandLine.exportSettings (layeredEnvironment " +3 ") "/p" none (some 7))
        (.ok ⟨"/p/out", 7, 9⟩) ∧
      Answers layeredDisk
        (CommandLine.exportSettings (layeredEnvironment "3t") "/p" none (some 7))
        (.error (.export (.config (.notANumber "ANIMPACK_EXPORTER__INTERPOLATION_DURATION" "3t"
          .invalidDigit)))) := by
  have hinterpolation : Environment.number? (layeredEnvironment " +3 ").setting?
      "exporter.interpolation_duration" "ANIMPACK_EXPORTER__INTERPOLATION_DURATION"
      = .ok (some 3) := by decide +kernel
  have hpackFormat : Environment.number? (layeredEnvironment " +3 ").setting?
      "exporter.pack_format" "ANIMPACK_EXPORTER__PACK_FORMAT" = .ok none := by decide +kernel
  have hgives : Gives layeredDisk (layeredEnvironment " +3 ") "/p"
      (layeredEnvironment " +3 ").setting? ⟨some "own", none, some 9⟩
      ⟨some "$PACKS", none, none⟩ ⟨none, some 3, none⟩ := {
    own := by decide +kernel
    project := by decide +kernel
    assigned := rfl
    folder := by decide +kernel
    interpolation := number?_eq_ok_iff.1 hinterpolation
    packFormat := number?_eq_ok_iff.1 hpackFormat }
  have hfault : (faults layeredDisk (layeredEnvironment "3t") "/p").head?
      = some (.notANumber "ANIMPACK_EXPORTER__INTERPOLATION_DURATION" "3t" .invalidDigit) := by
    decide +kernel
  have hrun := (export_settings_are_layered layeredDisk (layeredEnvironment " +3 ") "/p" none
    (some 7)).1 _ _ _ _ hgives
  have hfailed := (export_settings_are_layered layeredDisk (layeredEnvironment "3t") "/p" none
    (some 7)).2.1 _ hfault
  exact ⟨hgives, hrun.congr (by decide +kernel), hfailed⟩

end RigPack.Settings

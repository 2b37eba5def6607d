import RigPack.Project.Basic
import RigPack.Json.Decode

/-!
# Project documents

A project is read from a JSON document.  Each section says which fields a record has, in the order
in which they stand in a record that is written as a list, and which of them may be left out.
-/

namespace RigPack

open Json (Decoder)
open Json.Decoder (Field)

variable [Json.Grammar]

/-- A transform is the list of its entries. -/
def Transform.decoder : Decoder Transform :=
  fun draft => (Json.Decoder.vector 16 .single draft).map .mk

/-- A loop mode is its word. -/
def LoopMode.decoder : Decoder LoopMode :=
  .choice (LoopMode.all.map fun mode => (mode.word, mode))

/-! ## The rig -/

/-- A bone of the rig. -/
def Bone.decoder : Decoder Bone :=
  .record "struct Bone" [
    .need "id" .string fun id bone => { bone with id },
    .need "name" .string fun name bone => { bone with name },
    .need "custom_model_data" .integer fun model bone => { bone with model }] default

/-- The model of a bone in a variant, a record of its own. -/
def modelDecoder : Decoder Int32 :=
  .record "struct VariantBoneModel" [
    .need "custom_model_data" .integer fun model _ => model] 0

/-- The rig. -/
def Rig.decoder : Decoder Rig :=
  .record "struct Rig" [
    .need "bones" (.list Bone.decoder) fun bones rig => { rig with bones },
    .need "default_pose" (.table Transform.decoder) fun restPose rig => { rig with restPose },
    .may "variant_models" (.table (.table modelDecoder)) fun models rig => { rig with models }]
    default

/-- A variant. -/
def Variant.decoder : Decoder Variant :=
  .record "struct Variant" [
    .need "name" .string fun name variant => { variant with name },
    .may "default" .bool fun isDefault variant => { variant with isDefault },
    .may "affected_bones" (.list .string) fun listed variant => { variant with listed },
    .may "affected_bones_is_a_whitelist" .bool
      fun listIsAffected variant => { variant with listIsAffected }]
    default

/-! ## Animations -/

/-- The commands of a frame. -/
def FrameCommands.decoder : Decoder FrameCommands :=
  .record "struct FrameCommands" [
    .need "commands" .string fun text commands => { commands with text },
    .may "execute_condition" (.option .string)
      fun condition commands => { commands with condition }]
    default

/-- The variant switch of a frame. -/
def VariantSwitch.decoder : Decoder VariantSwitch :=
  .record "struct FrameVariantSwitch" [
    .need "variant" .string fun variant switch => { switch with variant },
    .may "execute_condition" (.option .string)
      fun condition switch => { switch with condition }]
    default

/-- A frame. -/
def Frame.decoder : Decoder Frame :=
  .record "struct Frame" [
    .need "index" .word fun index frame => { frame with index },
    .may "bones" (.table Transform.decoder) fun poses frame => { frame with poses },
    .may "commands" (.option FrameCommands.decoder)
      fun commands frame => { frame with commands },
    .may "variant" (.option VariantSwitch.decoder) fun switch frame => { frame with switch }]
    default

/-- An animation. -/
def Animation.decoder : Decoder Animation :=
  .record "struct Animation" [
    .need "name" .string fun name animation => { animation with name },
    .need "duration" .word fun duration animation => { animation with duration },
    .may "loop_mode" LoopMode.decoder fun loopMode animation => { animation with loopMode },
    .need "frames" (.list Frame.decoder) fun frames animation => { animation with frames }]
    default

/-! ## The document -/

/-- What a project says of itself: its namespace and its item. -/
def headingDecoder : Decoder (String × String) :=
  .record "struct ProjectSettings" [
    .need "namespace" .string fun space heading => (space, heading.2),
    .need "rig_item" .string fun item heading => (heading.1, item)] ("", "")

/-- A project. -/
def Project.decoder : Decoder Project :=
  .record "struct ExportInput" [
    .need "project" headingDecoder
      fun heading project => { project with space := heading.1, item := heading.2 },
    .need "rig" Rig.decoder fun rig project => { project with rig },
    .need "variants" (.list Variant.decoder) fun variants project => { project with variants },
    .may "animations" (.list Animation.decoder)
      fun animations project => { project with animations }]
    default

/-- The project of a document. -/
def Project.parse (document : String) : Except Json.ReadError Project :=
  Json.decode Project.decoder document

end RigPack

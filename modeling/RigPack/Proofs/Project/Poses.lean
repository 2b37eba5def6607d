import RigPack.Project.Document
import RigPack.Proofs.Json.Literal

/-!
# The poses of a document

A document holds poses in two places, in the table of how bones stand at rest and in the
tables of frames.  Each is an array of sixteen numbers.  This file follows them through the
decoders of a project.

## Main statements

* `Project.standsIn_of_shows`: every pose that a project shows stands in its document.
-/

namespace RigPack

open Json (Decoder Draft Literal)
open Json.Decoder (Field Yields)

variable [Json.Grammar] {whole : Draft}

/-- Whether a transform stands in a document, as an array of the numbers of its entries. -/
def Transform.StandsIn (whole : Draft) (pose : Transform) : Prop :=
  ∃ literals : List Literal, (Draft.array (literals.map .number) .closed).Occurs whole ∧
    List.Forall₂ Literal.Names literals pose.toList

/-- Whether all transforms in a table stand in a document. -/
def Table.StandsIn (whole : Draft) (poses : Table Transform) : Prop :=
  ∀ id pose, poses.get? id = some pose → pose.StandsIn whole

/-- Items that are all made of numbers are the numbers of literals. -/
theorem Json.Literal.exists_of_mapM_single {items : List Draft} {numbers : List Binary.Single}
    (h : items.mapM Decoder.single = .ok numbers) :
    ∃ literals : List Literal, items = literals.map .number ∧
      List.Forall₂ Literal.Names literals numbers := by
  have hall := mapM_eq_ok.1 h
  clear h
  induction hall with
  | nil => exact ⟨[], rfl, .nil⟩
  | cons hitem _ ih =>
      obtain ⟨literal, rfl, hliteral⟩ := names_of_single hitem
      obtain ⟨literals, rfl, hliterals⟩ := ih
      exact ⟨literal :: literals, rfl, .cons hliteral hliterals⟩

theorem Transform.yields_decoder :
    Yields whole Transform.decoder (Transform.StandsIn whole) := by
  intro draft pose hoccurs hok
  obtain ⟨entries, hentries, rfl⟩ := map_eq_ok.1 hok
  unfold Decoder.vector at hentries
  split at hentries
  · rename_i items ending
    obtain ⟨numbers, hnumbers, hentries⟩ := bind_eq_ok.1 hentries
    split at hentries
    · rename_i hcomplete
      split at hentries
      · contradiction
      · rename_i hlength
        obtain ⟨_, hending, hentries⟩ := bind_eq_ok.1 hentries
        obtain rfl := pure_eq_ok.1 hentries
        -- there are no more items than were taken
        rw [List.take_of_length_le (Nat.le_of_not_lt hlength)] at hnumbers
        obtain ⟨literals, rfl, hliterals⟩ := Literal.exists_of_mapM_single hnumbers
        rw [Draft.Ending.eq_closed_of_check (Json.ofFault_eq_ok.1 hending)] at hoccurs
        exact ⟨literals, hoccurs, hliterals⟩
    · obtain ⟨_, -, hentries⟩ := bind_eq_ok.1 hentries
      contradiction
  · exact absurd hentries Json.wrongType_ne_ok

/-! ## The records of a project -/

theorem Table.standsIn_empty : Table.StandsIn whole .empty :=
  fun _ _ h => absurd h nofun

/-- The poses of a rig at rest stand in the document. -/
theorem Rig.yields_decoder :
    Yields whole Rig.decoder fun rig => rig.restPose.StandsIn whole := by
  refine Decoder.yields_record (List.forall_mem_cons.2 ⟨?_, List.forall_mem_cons.2 ⟨?_,
    List.forall_mem_singleton.2 ?_⟩⟩) _ Table.standsIn_empty
  · exact Field.keeps_need _ _ fun _ _ hrig => hrig
  · exact Yields.need Transform.yields_decoder.table (fun _ _ hposes _ => hposes) _
  · exact Field.keeps_may _ _ fun _ _ hrig => hrig

/-- The poses of a frame stand in the document. -/
theorem Frame.yields_decoder :
    Yields whole Frame.decoder fun frame => frame.poses.StandsIn whole := by
  refine Decoder.yields_record (List.forall_mem_cons.2 ⟨?_, List.forall_mem_cons.2 ⟨?_,
    List.forall_mem_cons.2 ⟨?_, List.forall_mem_singleton.2 ?_⟩⟩⟩) _ Table.standsIn_empty
  · exact Field.keeps_need _ _ fun _ _ hframe => hframe
  · exact Yields.may Transform.yields_decoder.table (fun _ _ hposes _ => hposes) _
  · exact Field.keeps_may _ _ fun _ _ hframe => hframe
  · exact Field.keeps_may _ _ fun _ _ hframe => hframe

theorem Animation.yields_decoder :
    Yields whole Animation.decoder
      fun animation => ∀ frame ∈ animation.frames, frame.poses.StandsIn whole := by
  refine Decoder.yields_record (List.forall_mem_cons.2 ⟨?_, List.forall_mem_cons.2 ⟨?_,
    List.forall_mem_cons.2 ⟨?_, List.forall_mem_singleton.2 ?_⟩⟩⟩) _ nofun
  · exact Field.keeps_need _ _ fun _ _ hframes => hframes
  · exact Field.keeps_need _ _ fun _ _ hframes => hframes
  · exact Field.keeps_may _ _ fun _ _ hframes => hframes
  · exact Yields.need Frame.yields_decoder.list (fun _ _ hframes _ => hframes) _

namespace Project

/-- Whether a project shows a pose: a bone of the rig stands in it at rest or in a frame. -/
def Shows (project : Project) (pose : Transform) : Prop :=
  ∃ bone ∈ project.rig.bones, project.rig.restPose.get? bone.id = some pose ∨
    ∃ animation ∈ project.animations, ∃ frame ∈ animation.frames,
      frame.poses.get? bone.id = some pose

/-- All poses of a project stand in the document. -/
structure StandsIn (whole : Draft) (project : Project) : Prop where
  rest : project.rig.restPose.StandsIn whole
  frames : ∀ animation ∈ project.animations, ∀ frame ∈ animation.frames,
    frame.poses.StandsIn whole

theorem yields_decoder : Yields whole Project.decoder (Project.StandsIn whole) := by
  refine Decoder.yields_record (List.forall_mem_cons.2 ⟨?_, List.forall_mem_cons.2 ⟨?_,
    List.forall_mem_cons.2 ⟨?_, List.forall_mem_singleton.2 ?_⟩⟩⟩) _
      ⟨Table.standsIn_empty, nofun⟩
  · exact Field.keeps_need _ _ fun _ _ hproject => ⟨hproject.rest, hproject.frames⟩
  · exact Yields.need Rig.yields_decoder (fun _ _ hrest hproject => ⟨hrest, hproject.frames⟩) _
  · exact Field.keeps_need _ _ fun _ _ hproject => ⟨hproject.rest, hproject.frames⟩
  · exact Yields.may Animation.yields_decoder.list
      (fun _ _ hframes hproject => ⟨hproject.rest, hframes⟩) _

/-- Every pose that a project shows stands in its document. -/
theorem standsIn_of_shows {document : String} {project : Project}
    (hparse : Project.parse document = .ok project) {pose : Transform}
    (hpose : project.Shows pose) : pose.StandsIn (Json.Grammar.read document).1 := by
  have hstands := yields_decoder.decode hparse
  obtain ⟨bone, -, hrest | ⟨animation, hanimation, frame, hframe, hpose⟩⟩ := hpose
  · exact hstands.rest _ _ hrest
  · exact hstands.frames animation hanimation frame hframe _ _ hpose

end Project

end RigPack

import RigPack.Failure
import RigPack.Proofs.Export.Accepted
import RigPack.Proofs.Store.Watched

/-!
# What an export does to the folder of another pack

An export removes what lies in its way, so it must not remove what is not its own.
The run of an export on a watched store is followed here call by call.  It asks for
the metadata, reads it, and only if the metadata records the project's namespace
does it remove the folder; all calls that put something into the store come later
(`Cleared`, `adds_write`).

## Main statements

* `exec_clear`: the six ways in which the clearing of the folder ends.
* `export_spares_other_packs`: what is refused leaves the store as it was, and what
  is removed is the project's own earlier pack.
-/

namespace RigPack

/-! ## Writing a pack only adds to the store -/

namespace Folder

open Watched

variable {σ τ : Type} [FileStore (StateM σ)] (note : Nat → τ → τ)

theorem adds_writeFiles (path : String) (files : List PackFile) :
    Adds StoreEvent.IsAddition
      (writeFiles (m := StateT τ (StateM (Watched σ))) (fun n => modify (note n)) path files) := by
  induction files with
  | nil => exact .pure 0
  | cons file files ih =>
      exact (adds_writeText _ _).bind fun _ => (Adds.modify _).bind fun _ =>
        ih.bind fun written => .pure (1 + written)

mutual

/-- Writing a folder makes folders and writes files, and does nothing else. -/
theorem adds_write (parent : String) : ∀ folder : Folder,
    Adds StoreEvent.IsAddition
      (folder.write (m := StateT τ (StateM (Watched σ))) (fun n => modify (note n)) parent)
  | mk name files folders => by
    rw [write]
    exact (adds_makeFolders _).bind fun _ => (adds_writeFiles note _ files).bind fun here =>
      (adds_writeAll _ folders).bind fun below => .pure (here + below)

theorem adds_writeAll (parent : String) : ∀ folders : List Folder,
    Adds StoreEvent.IsAddition
      (writeAll (m := StateT τ (StateM (Watched σ))) (fun n => modify (note n)) parent folders)
  | [] => by
    rw [writeAll]
    exact .pure 0
  | folder :: folders => by
    rw [writeAll]
    exact (adds_write parent folder).bind fun below => (Adds.modify _).bind fun _ =>
      (adds_writeAll parent folders).bind fun others => .pure (below + 1 + others)

end

end Folder

namespace Export

/-! ## Clearing the folder -/

/-- Whether the content of a metadata file says that the pack beside it belongs to a
namespace: it is the JSON text of an object in which that field is that text. -/
def Permits (space content : String) : Prop :=
  ∃ fields, Json.parse content = .ok (.object fields) ∧
    (Json.object fields).field? "project_namespace" = some (.string space)

/-- A namespace is recorded only by an object with that text in the field. -/
theorem permits_of_recordedSpace {space content : String} (hspace : space ≠ "")
    (h : recordedSpace content = .ok space) : Permits space content := by
  obtain ⟨value, hparse, hvalue⟩ := bind_eq_ok.1 h
  rw [pure_eq_ok] at hvalue
  cases hfield : value.field? "project_namespace" with
  | none =>
      rw [hfield] at hvalue
      exact absurd hvalue.symm hspace
  | some field =>
      rw [hfield] at hvalue
      cases field with
      | string text =>
          obtain rfl : text = space := hvalue
          cases value with
          | object fields => exact ⟨fields, hparse, hfield⟩
          | _ => simp [Json.field?] at hfield
      | _ => exact absurd hvalue.symm hspace

theorem recordedSpace_of_permits {space content : String} (h : Permits space content) :
    recordedSpace content = .ok space := by
  obtain ⟨fields, hparse, hfield⟩ := h
  rw [recordedSpace, hparse]
  exact congrArg (fun field : Option Json => Except.ok ((field.bind Json.string?).getD "")) hfield

/-- The ways in which the clearing of a folder ends, with the calls that it makes. -/
inductive Cleared (path space : String) : Except ExportFault Unit → List StoreEvent → Prop
  /-- There is no metadata, so nothing is removed. -/
  | absent : Cleared path space (.ok ()) [.presence (Path.join path metadataFile) false]
  | unreadable (e : IoError) :
    Cleared path space
      (.error (.failed "read export metadata" (Path.join path metadataFile) (.io e)))
      [.presence (Path.join path metadataFile) true,
        .read (Path.join path metadataFile) (.error e)]
  | malformed (content : String) (fault : Json.Fault) (h : recordedSpace content = .error fault) :
    Cleared path space
      (.error (.failed "parse export metadata" (Path.join path metadataFile) (.json fault)))
      [.presence (Path.join path metadataFile) true,
        .read (Path.join path metadataFile) (.ok content)]
  | foreign (content found : String) (h : recordedSpace content = .ok found)
    (hfound : found ≠ space) :
    Cleared path space (.error (.foreignPack path found space))
      [.presence (Path.join path metadataFile) true,
        .read (Path.join path metadataFile) (.ok content)]
  /-- The metadata records the namespace, so the folder is removed. -/
  | own (content : String) (answer : Except IoError Unit) (h : recordedSpace content = .ok space) :
    Cleared path space
      (answer.mapError fun e => .failed "remove previous export" path (.io e))
      [.presence (Path.join path metadataFile) true,
        .read (Path.join path metadataFile) (.ok content), .removeTree path answer]

open Watched

variable {σ τ ν : Type} [FileStore (StateM σ)]

omit [FileStore (StateM σ)] in
theorem exec_step {α : Type} (action path : String)
    (call : ExceptT IoError (StateT τ (StateM (Watched σ))) α) (tally : τ) (watched : Watched σ) :
    exec (step action path call) tally watched =
      match exec call tally watched with
      | ((.ok a, tally), watched) => ((.ok a, tally), watched)
      | ((.error e, tally), watched) =>
        ((.error (.failed action path (.io e)), tally), watched) := by
  rw [step, exec_adapt]
  rcases exec call tally watched with ⟨⟨_ | a, tally'⟩, watched'⟩ <;> rfl

/-- The run that clears a folder is one of the six; it leaves what a view shows
unless it comes to the removal. -/
theorem exec_clear {view : σ → ν} (hview : Quiet view) (path space : String) (tally : τ)
    (watched : Watched σ) :
    ∃ outcome added later,
      exec (clear (m := StateT τ (StateM (Watched σ))) path space) tally watched
        = ((outcome, tally), later) ∧
      later.events = watched.events ++ added ∧ Cleared path space outcome added ∧
      added.head? = some (.presence (Path.join path metadataFile)
        ((FileStore.isPresent (Path.join path metadataFile) : StateM σ Bool).run
          watched.store).1) ∧
      ((∀ event ∈ added, ¬ event.IsRemoval) → view later.store = view watched.store) := by
  obtain ⟨asked, hasked, hview_asked⟩ :=
    exec_isPresent (ε := ExportFault) (Path.join path metadataFile) tally watched hview
  unfold clear
  simp only
  rw [exec_bind, hasked]
  simp only
  -- the run is followed answer by answer; up to the removal the store is only asked
  cases hpresent : ((FileStore.isPresent (Path.join path metadataFile) : StateM σ Bool).run
    watched.store).1 with
  | false =>
      exact ⟨_, _, _, rfl, rfl, .absent, rfl, fun _ => hview_asked⟩
  | true =>
      let now : Watched σ := ⟨asked, watched.fault?,
        watched.events ++ [.presence (Path.join path metadataFile) true]⟩
      obtain ⟨answer, read, hread, hview_read⟩ :=
        exec_readText (Path.join path metadataFile) tally now hview
      rw [if_pos rfl, exec_bind, exec_step, hread]
      cases answer with
      | error e =>
          refine ⟨_, _, _, rfl, ?_, .unreadable e, rfl, fun _ => hview_read.trans hview_asked⟩
          simp [now]
      | ok content =>
          simp only
          cases hrecorded : recordedSpace content with
          | error fault =>
              refine ⟨_, _, _, rfl, ?_, .malformed content fault hrecorded, rfl,
                fun _ => hview_read.trans hview_asked⟩
              simp [now]
          | ok found =>
              simp only
              by_cases hfound : found = space
              · obtain ⟨answer, removed, hremoved⟩ := exec_removeTree path tally
                  (⟨read, now.fault?, now.events
                    ++ [.read (Path.join path metadataFile) (.ok content)]⟩ : Watched σ)
                obtain rfl := hfound
                rw [if_neg fun h => h rfl, exec_step, hremoved]
                cases answer with
                | error e =>
                    refine ⟨_, _, _, rfl, ?_, .own content (.error e) hrecorded, rfl, ?_⟩
                    · simp [now]
                    · intro hnone
                      exact absurd trivial (hnone (.removeTree path (.error e)) (by simp))
                | ok _ =>
                    refine ⟨_, _, _, rfl, ?_, .own content (.ok ()) hrecorded, rfl, ?_⟩
                    · simp [now]
                    · intro hnone
                      exact absurd trivial (hnone (.removeTree path (.ok ())) (by simp))
              · rw [if_pos hfound]
                refine ⟨_, _, _, rfl, ?_, .foreign content found hrecorded hfound, rfl,
                  fun _ => hview_read.trans hview_asked⟩
                simp [now]

/-! ## The whole export -/

/-- The run of an export on a store of which nothing was asked yet, beside a value
that is told of each entry written. -/
def watch (settings : Settings) (project : Project) (note : Nat → τ → τ) (tally : τ) (store : σ)
    (fault? : List StoreEvent → Call → Option IoError) :
    (Except ExportFault Report × τ) × Watched σ :=
  exec (Export.run (m := StateT τ (StateM (Watched σ))) settings project
    fun n => modify (note n)) tally (.fresh store fault?)

variable {settings : Settings} {project : Project} {note : Nat → τ → τ} {tally : τ} {store : σ}
  {fault? : List StoreEvent → Call → Option IoError}

/-- A project without a pack is refused before the store is asked anything. -/
theorem watch_of_build_error {fault : ExportFault} (h : build settings project = .error fault) :
    watch settings project note tally store fault?
      = ((.error fault, tally), .fresh store fault?) := by
  unfold watch Export.run
  rw [h]
  rfl

/-- An export of an accepted project clears its folder, and then writes the pack. -/
theorem watch_of_build {pack : Folder} (h : build settings project = .ok pack)
    (note : Nat → τ → τ) (tally : τ) (store : σ) (fault? : List StoreEvent → Call → Option IoError)
    {path : String} (hpath : path = Path.join settings.folder project.space) :
    watch settings project note tally store fault?
      = exec (do
          clear (m := StateT τ (StateM (Watched σ))) path project.space
          let written ← step "write data pack" path
            (pack.write (fun n => modify (note n)) settings.folder)
          return ⟨path, project.animations.length, written⟩) tally (.fresh store fault?) := by
  subst hpath
  rw [watch, run_of_build h]

/-- An export that comes to clear its folder ends there with a failure, or it goes on
to write, which only adds to the store. -/
theorem watch_of_build_ok {view : σ → ν} (hview : Quiet view) {pack : Folder}
    (h : build settings project = .ok pack) (note : Nat → τ → τ) (tally : τ) (store : σ)
    (fault? : List StoreEvent → Call → Option IoError) {path : String}
    (hpath : path = Path.join settings.folder project.space) :
    ∃ outcome cleared added,
      Cleared path project.space outcome cleared ∧
      cleared.head? = some (.presence (Path.join path metadataFile)
        ((FileStore.isPresent (Path.join path metadataFile) : StateM σ Bool).run store).1) ∧
      (watch settings project note tally store fault?).2.events = cleared ++ added ∧
      ((∃ fault, outcome = .error fault ∧ added = [] ∧
          (watch settings project note tally store fault?).1.1 = .error fault ∧
          ((∀ event ∈ cleared, ¬ event.IsRemoval) →
            view (watch settings project note tally store fault?).2.store = view store)) ∨
        (outcome = .ok () ∧ (∀ event ∈ added, event.IsAddition) ∧
          ∀ fault, (watch settings project note tally store fault?).1.1 = .error fault →
            ∃ e, fault = .failed "write data pack" path (.io e))) := by
  obtain ⟨outcome, cleared, later, hclear, hevents, hcleared, hanswer, hstore⟩ :=
    exec_clear hview path project.space tally (.fresh store fault?)
  rw [watch_of_build h note tally store fault? hpath, exec_bind, hclear]
  cases outcome with
  | error fault =>
      refine ⟨_, cleared, [], hcleared, hanswer, ?_, .inl ⟨fault, rfl, rfl, rfl, hstore⟩⟩
      rw [List.append_nil]
      exact hevents
  | ok _ =>
      -- behind the clearing there is nothing but the writing of the pack
      obtain ⟨added, hadded, hkind⟩ :=
        Folder.adds_write note settings.folder pack tally later
      simp only
      rw [exec_bind, exec_step]
      rcases hwrite : exec (pack.write (fun n => modify (note n)) settings.folder) tally later with
        ⟨⟨e | written, tally'⟩, watched⟩
      · rw [hwrite] at hadded
        refine ⟨_, cleared, added, hcleared, hanswer, ?_, .inr ⟨rfl, hkind, ?_⟩⟩
        · exact hadded.trans (congrArg (· ++ added) hevents)
        · intro fault hfault
          exact ⟨e, (Except.error.inj hfault).symm⟩
      · rw [hwrite] at hadded
        refine ⟨_, cleared, added, hcleared, hanswer, ?_, .inr ⟨rfl, hkind, ?_⟩⟩
        · exact hadded.trans (congrArg (· ++ added) hevents)
        · intro fault hfault
          contradiction

/-- Whether a failure is a refusal: not one of the store, or one met while the
metadata is read. -/
def IsRefusal (fault : ExportFault) : Prop :=
  fault.exitCode ≠ .ioError ∨
    ∃ at_ cause, fault = .failed "read export metadata" at_ cause ∨
      fault = .failed "parse export metadata" at_ cause

/-- An export that ends in clearing its folder was refused, unless the removal failed. -/
theorem Cleared.not_isRemoval {path space : String} {fault : ExportFault}
    {events : List StoreEvent} (h : Cleared path space (.error fault) events)
    (hfault : IsRefusal fault) : ∀ event ∈ events, ¬ event.IsRemoval := by
  generalize houtcome : (Except.error fault : Except ExportFault Unit) = outcome at h
  cases h with
  | absent => contradiction
  | unreadable e => simp [StoreEvent.IsRemoval]
  | malformed content cause h => simp [StoreEvent.IsRemoval]
  | foreign content found h hfound => simp [StoreEvent.IsRemoval]
  | own content answer h =>
      cases answer with
      | ok _ => contradiction
      | error e =>
          obtain rfl := Except.error.inj houtcome
          rcases hfault with hcode | ⟨at_, cause, hread | hparse⟩
          · exact absurd rfl hcode
          · simp at hread
          · simp at hparse

/-- A removal while a folder is cleared: it is the folder, and its metadata was read
just before and permits it. -/
theorem Cleared.of_removal {path space : String} (hspace : space ≠ "")
    {outcome : Except ExportFault Unit} {before after : List StoreEvent} {target : String}
    {answer : Except IoError Unit}
    (h : Cleared path space outcome (before ++ .removeTree target answer :: after)) :
    target = path ∧ after = [] ∧ ∃ content,
      before = [.presence (Path.join path metadataFile) true,
        .read (Path.join path metadataFile) (.ok content)] ∧ Permits space content := by
  generalize hevents : before ++ .removeTree target answer :: after = events at h
  have hmem : StoreEvent.removeTree target answer ∈ events := by
    rw [← hevents]
    simp
  cases h with
  | absent => simp at hmem
  | unreadable e => simp at hmem
  | malformed content cause h => simp at hmem
  | foreign content found h hfound => simp at hmem
  | own content answer' h =>
      match before, hevents with
      | [first, second], hevents =>
          simp only [List.cons_append, List.nil_append, List.cons.injEq,
            StoreEvent.removeTree.injEq] at hevents
          obtain ⟨rfl, rfl, ⟨rfl, rfl⟩, rfl⟩ := hevents
          exact ⟨rfl, rfl, content, rfl, permits_of_recordedSpace hspace h⟩
      | [], hevents => simp at hevents
      | [first], hevents => simp at hevents
      | first :: second :: third :: before, hevents => simp at hevents

/-- If there is metadata that permits no removal, the folder is not cleared. -/
theorem Cleared.error_of_not_permits {path space : String} {outcome : Except ExportFault Unit}
    {events : List StoreEvent} (hspace : space ≠ "") (h : Cleared path space outcome events)
    (hpresent : events.head? = some (.presence (Path.join path metadataFile) true))
    (hpermits : ∀ content, .read (Path.join path metadataFile) (.ok content) ∈ events →
      ¬ Permits space content) :
    (∃ fault, outcome = .error fault) ∧ ∀ event ∈ events, ¬ event.IsChange := by
  cases h with
  | absent => simp at hpresent
  | unreadable e => simp [StoreEvent.IsChange, StoreEvent.IsRemoval, StoreEvent.IsAddition]
  | malformed content cause h =>
      simp [StoreEvent.IsChange, StoreEvent.IsRemoval, StoreEvent.IsAddition]
  | foreign content found h hfound =>
      simp [StoreEvent.IsChange, StoreEvent.IsRemoval, StoreEvent.IsAddition]
  | own content answer h =>
      exact absurd (permits_of_recordedSpace hspace h) (hpermits content (by simp))

/-- What an export does to a store, whatever is in it and whichever calls fail.  A
project without a pack makes no call.  A refusal leaves the store as it was.  Only
the project's own folder is removed, once, before anything is added, and only after
its metadata was found, read and seen to record the namespace.  If the metadata is
there but permits nothing, nothing is changed. -/
theorem export_spares_other_packs {view : σ → ν} (hview : Quiet view) (settings : Settings)
    (project : Project) (note : Nat → τ → τ) (tally : τ) (store : σ)
    (fault? : List StoreEvent → Call → Option IoError) :
    let result := watch settings project note tally store fault?
    let path := Path.join settings.folder project.space
    let metadata := Path.join path metadataFile
    (∀ fault, build settings project = .error fault →
      result.1.1 = .error fault ∧ result.2.events = [] ∧ result.2.store = store) ∧
    (∀ fault, result.1.1 = .error fault → IsRefusal fault →
      view result.2.store = view store) ∧
    (∀ before target answer after,
      result.2.events = before ++ .removeTree target answer :: after →
      target = path ∧ (∀ event ∈ after, event.IsAddition) ∧
      ∃ content, before = [.presence metadata true, .read metadata (.ok content)] ∧
        Permits project.space content) ∧
    (((FileStore.isPresent metadata : StateM σ Bool).run store).1 = true →
      (∀ content, .read metadata (.ok content) ∈ result.2.events →
        ¬ Permits project.space content) →
      ∀ event ∈ result.2.events, ¬ event.IsChange) := by
  intro result path metadata
  cases hbuild : build settings project with
  | error fault =>
      have hresult : result = ((.error fault, tally), .fresh store fault?) :=
        watch_of_build_error hbuild
      rw [hresult]
      refine ⟨?_, fun _ _ _ => rfl, ?_, fun _ _ => by simp [fresh]⟩
      · intro fault' hfault'
        obtain rfl := Except.error.inj hfault'
        exact ⟨rfl, rfl, rfl⟩
      · intro before target answer after hevents
        simp [fresh] at hevents
  | ok pack =>
      have hspace : project.space ≠ "" := by
        obtain ⟨blueprint, haccepted, -⟩ := build_eq_ok hbuild
        rintro hempty
        have hname := haccepted.space
        rw [hempty] at hname
        exact absurd hname (by decide)
      obtain ⟨outcome, cleared, added, hcleared, hanswer, hevents, hend⟩ :=
        watch_of_build_ok hview hbuild note tally store fault? (rfl : path = _)
      have hevents : result.2.events = cleared ++ added := hevents
      refine ⟨fun _ h => by contradiction, ?_, ?_, ?_⟩
      · intro fault hfault hrefusal
        rcases hend with ⟨fault', rfl, -, hresult, hstore⟩ | ⟨-, -, hwrite⟩
        · obtain rfl : fault' = fault := Except.error.inj (hresult.symm.trans hfault)
          exact hstore (hcleared.not_isRemoval hrefusal)
        · -- a failure to write is none of the refusals
          obtain ⟨e, rfl⟩ := hwrite fault hfault
          rcases hrefusal with hcode | ⟨at_, cause, hread | hparse⟩
          · exact absurd rfl hcode
          · simp at hread
          · simp at hparse
      · intro before target answer after hsplit
        have hkind : ∀ event ∈ added, event.IsAddition := by
          rcases hend with ⟨-, -, rfl, -⟩ | ⟨-, hkind, -⟩
          · simp
          · exact hkind
        -- a removal is no addition, so it can only be the one of the clearing
        have hlater : ∀ rest, added ≠ rest ++ .removeTree target answer :: after := by
          intro rest hadded
          exact hkind (.removeTree target answer) (by rw [hadded]; simp)
        rw [hevents] at hsplit
        rcases List.append_eq_append_iff.1 hsplit with ⟨rest, -, hadded⟩ | ⟨rest, hcut, hrest⟩
        · exact absurd hadded (hlater rest)
        · cases rest with
          | nil => exact absurd hrest.symm (hlater [])
          | cons event rest =>
              obtain ⟨rfl, rfl⟩ := List.cons.inj hrest
              rw [hcut] at hcleared
              obtain ⟨htarget, rfl, hmetadata⟩ := hcleared.of_removal hspace
              exact ⟨htarget, hkind, hmetadata⟩
      · intro hpresent hpermits
        rw [hpresent] at hanswer
        obtain ⟨⟨fault, rfl⟩, hchange⟩ := hcleared.error_of_not_permits hspace hanswer
          fun content hcontent =>
            hpermits content (hevents ▸ List.mem_append_left _ hcontent)
        rcases hend with ⟨fault', -, rfl, -⟩ | ⟨hok, -⟩
        · rw [hevents, List.append_nil]
          exact hchange
        · contradiction

/-- A folder whose metadata is no object is left alone. -/
theorem export_spares_pack_without_record :
    ∃ (project : Project) (shelf : Shelf),
      (watch ⟨"packs", 1, 12⟩ project (fun n t => n + t) 0 shelf fun _ _ => none).1.1
        = .error (.foreignPack "packs/fox" "" "fox") ∧
      (watch ⟨"packs", 1, 12⟩ project (fun n t => n + t) 0 shelf fun _ _ => none).2.store.files
        = shelf.files ∧
      ∀ event ∈ (watch ⟨"packs", 1, 12⟩ project (fun n t => n + t) 0 shelf
        fun _ _ => none).2.events, ¬ event.IsChange := by
  let project : Project := ⟨"fox", "stick", default, [⟨"plain", true, [], false⟩], []⟩
  let shelf : Shelf :=
    { Shelf.empty with files := .ofList [("packs/fox/animated_java.mcmeta", "7")] }
  obtain ⟨-, hrefused, -, hforeign⟩ := export_spares_other_packs quiet_shelf ⟨"packs", 1, 12⟩
    project (fun n t => n + t) 0 shelf fun _ _ => none
  have hfault : (watch ⟨"packs", 1, 12⟩ project (fun n t => n + t) 0 shelf fun _ _ => none).1.1
      = .error (.foreignPack "packs/fox" "" "fox") := by decide +kernel
  have hevents : (watch ⟨"packs", 1, 12⟩ project (fun n t => n + t) 0 shelf
      fun _ _ => none).2.events = [.presence "packs/fox/animated_java.mcmeta" true,
        .read "packs/fox/animated_java.mcmeta" (.ok "7")] := by decide +kernel
  have hstore := hrefused _ hfault (.inl (by decide))
  refine ⟨project, shelf, hfault, (Prod.mk.inj hstore).1, hforeign (by decide +kernel) ?_⟩
  intro content hcontent hpermits
  rw [hevents] at hcontent
  obtain ⟨-, rfl⟩ : _ ∧ content = "7" := by simpa using hcontent
  exact absurd (recordedSpace_of_permits hpermits) (by decide +kernel)

end Export

end RigPack

import RigPack.Proofs.Pack.Writing
import RigPack.Proofs.Store.Watched

/-!
# The trace of a writing

The calls that write a folder are known before any of them is made: the folder, its
files, and then the same for each folder in it (`Folder.calls`).  On a store that may fail
at any call they are made in this order up to the first that fails, and what is told of by
then are the files that were written and the folders that are complete.

## Strategy

A folder is told of only when all that lies in it is written, so how much was told of when
a call fails depends on where the subtrees end among the calls.  The *sites* of a writing
list the folders, each with the number of calls in front of its own (`Folder.sites`).  The
steps of a writing, which tell of entries between the calls, are followed up to the first
failure (`exec_steps_of_failing`), and what they tell of before that call is counted along
the tree (`toldBefore_steps`).

## Main statements

* `write_follows_calls`: the calls that are made, the answer, and the number of entries
  told of, whether a call fails or not.
-/

namespace RigPack

/-! ## Calls and their failures -/

/-- Why a computation failed, if it did. -/
def cause? {ε α : Type} : Except ε α → Option ε
  | .ok _ => none
  | .error e => some e

/-- A call as a program of which only counts whether it fails. -/
def Call.make {m : Type → Type} [Monad m] [FileStore m] : Call → ExceptT IoError m Unit
  | read path => discard (FileStore.readText path)
  | write path content => FileStore.writeText path content
  | makeFolders path => FileStore.makeFolders path
  | removeTree path => FileStore.removeTree path

/-- The first call that fails if calls are made one after the other: how many are made
before it, and why it fails. -/
def firstFailure? {σ : Type} [FileStore (StateM σ)] : List Call → σ → Option (Nat × IoError)
  | [], _ => none
  | call :: calls, store =>
    match (call.make (m := StateM σ)).run.run store with
    | (.error e, _) => some (0, e)
    | (.ok _, store) => (firstFailure? calls store).map fun (count, e) => (count + 1, e)

/-- The call that an event notes, and why it failed if it did; asking whether something is
there cannot fail and is none. -/
def StoreEvent.call? : StoreEvent → Option (Call × Option IoError)
  | presence .. => none
  | read path answer => some (.read path, cause? answer)
  | write path content answer => some (.write path content, cause? answer)
  | makeFolders path answer => some (.makeFolders path, cause? answer)
  | removeTree path answer => some (.removeTree path, cause? answer)

/-- What is noted of a call that does not fail. -/
def Call.passed (call : Call) : Option (Call × Option IoError) :=
  some (call, none)

/-- What is noted of a call that fails. -/
def Call.failed (call : Call) (e : IoError) : Option (Call × Option IoError) :=
  some (call, some e)

/-! ## The calls of a writing -/

namespace Folder

/-- The calls that write the files of a folder at `path`. -/
def fileCalls (path : String) (files : List PackFile) : List Call :=
  files.map fun file => .write (Path.join path file.name) file.content.text

mutual

/-- The calls that write a folder below `parent`: it is made, its files are written, and
then its folders. -/
def calls (parent : String) : Folder → List Call
  | mk name files folders =>
    .makeFolders (Path.join parent name) :: (fileCalls (Path.join parent name) files
      ++ callsIn (Path.join parent name) folders)

/-- The calls that write several folders below `parent`. -/
def callsIn (parent : String) : List Folder → List Call
  | [] => []
  | folder :: folders => folder.calls parent ++ callsIn parent folders

end

/-- A folder in the course of a writing. -/
structure Site where
  /-- How many calls are made before those of the folder. -/
  start : Nat
  /-- The path that the folder is written below. -/
  parent : String
  folder : Folder

namespace Site

/-- The path of the folder. -/
def path (site : Site) : String :=
  Path.join site.parent site.folder.name

/-- The calls that write the folder with all that lies in it. -/
def calls (site : Site) : List Call :=
  site.folder.calls site.parent

/-- Whether the first `count` calls of the writing write the whole folder. -/
def isDone (count : Nat) (site : Site) : Bool :=
  site.start + site.calls.length ≤ count

/-- Whether a call puts something into the folder: one of its files, or one of its folders. -/
def Receives (site : Site) (call : Call) : Prop :=
  (∃ file ∈ site.folder.files,
    call = .write (Path.join site.path file.name) file.content.text) ∨
  ∃ sub ∈ site.folder.folders, call = .makeFolders (Path.join site.path sub.name)

end Site

mutual

/-- The sites of a folder that is written below `parent` behind `start` calls: itself, and
those of all folders below it. -/
def sites (start : Nat) (parent : String) : Folder → List Site
  | mk name files folders =>
    ⟨start, parent, mk name files folders⟩
      :: sitesIn (start + 1 + files.length) (Path.join parent name) folders

/-- The sites of several folders that are written below `parent` behind `start` calls. -/
def sitesIn (start : Nat) (parent : String) : List Folder → List Site
  | [] => []
  | folder :: folders =>
    folder.sites start parent ++ sitesIn (start + (folder.calls parent).length) parent folders

end

theorem sites_eq_cons (start : Nat) (parent : String) (folder : Folder) :
    ∃ below, folder.sites start parent = ⟨start, parent, folder⟩ :: below := by
  obtain ⟨name, files, folders⟩ := folder
  exact ⟨_, rfl⟩

@[simp] theorem length_fileCalls (path : String) (files : List PackFile) :
    (fileCalls path files).length = files.length :=
  List.length_map _

mutual

/-- A writing makes one call for each entry, and one for the folder itself. -/
theorem length_calls (parent : String) : ∀ folder : Folder,
    (folder.calls parent).length = folder.entryCount + 1
  | mk name files folders => by
    simp [calls, entryCount, length_callsIn]

theorem length_callsIn (parent : String) : ∀ folders : List Folder,
    (callsIn parent folders).length = entryCounts folders
  | [] => rfl
  | folder :: folders => by
    rw [callsIn, List.length_append, length_calls parent folder, length_callsIn parent folders,
      entryCounts]
    omega

end

mutual

/-- The calls of a site stand at its place among the calls of the writing. -/
theorem calls_site {parent : String} {start : Nat} {site : Site} : ∀ {folder : Folder},
    site ∈ folder.sites start parent → ∃ before after,
      folder.calls parent = before ++ site.calls ++ after ∧ site.start = start + before.length
  | mk name files folders, h => by
    rw [sites] at h
    rcases List.mem_cons.1 h with rfl | h
    · exact ⟨[], [], by simp [Site.calls], rfl⟩
    · obtain ⟨before, after, hcalls, hstart⟩ := calls_siteIn h
      refine ⟨.makeFolders (Path.join parent name) :: fileCalls (Path.join parent name) files
        ++ before, after, ?_, ?_⟩
      · simp [calls, hcalls]
      · rw [hstart, List.length_append, List.length_cons, length_fileCalls]
        omega

theorem calls_siteIn {parent : String} {start : Nat} {site : Site} : ∀ {folders : List Folder},
    site ∈ sitesIn start parent folders → ∃ before after,
      callsIn parent folders = before ++ site.calls ++ after ∧ site.start = start + before.length
  | [], h => absurd h List.not_mem_nil
  | folder :: folders, h => by
    rw [sitesIn] at h
    rcases List.mem_append.1 h with h | h
    · obtain ⟨before, after, hcalls, hstart⟩ := calls_site h
      exact ⟨before, after ++ callsIn parent folders, by simp [callsIn, hcalls], hstart⟩
    · obtain ⟨before, after, hcalls, hstart⟩ := calls_siteIn h
      refine ⟨folder.calls parent ++ before, after, by simp [callsIn, hcalls], ?_⟩
      rw [hstart, List.length_append]
      omega

end

/-- An element of two lists, one behind the other, stands in the first or in the second. -/
theorem append_eq_append_cons {α : Type} {as bs before after : List α} {a : α}
    (h : as ++ bs = before ++ a :: after) :
    (∃ rest, as = before ++ a :: rest) ∨
      ∃ front, before = as ++ front ∧ bs = front ++ a :: after := by
  rcases List.append_eq_append_iff.1 h with ⟨front, hbefore, hbs⟩ | ⟨rest, has, hrest⟩
  · exact .inr ⟨front, hbefore, hbs⟩
  · cases rest with
    | nil => exact .inr ⟨[], by simp [has], hrest.symm⟩
    | cons first rest =>
        obtain ⟨rfl, -⟩ := List.cons.inj hrest
        exact .inl ⟨rest, has⟩

mutual

/-- A folder is made before anything is put into it. -/
theorem made_before {parent : String} (start : Nat) {before after : List Call} {call : Call} :
    ∀ {folder : Folder}, folder.calls parent = before ++ call :: after →
      before = [] ∧ call = .makeFolders (Path.join parent folder.name) ∨
      ∃ site ∈ folder.sites start parent, .makeFolders site.path ∈ before ∧ site.Receives call
  | mk name files folders, h => by
    rw [calls] at h
    cases before with
    | nil => exact .inl ⟨rfl, (List.cons.inj h).1.symm⟩
    | cons first before =>
        obtain ⟨rfl, hrest⟩ := List.cons.inj h
        have hmade : Call.makeFolders (Path.join parent name)
            ∈ Call.makeFolders (Path.join parent name) :: before := List.mem_cons_self ..
        rw [sites]
        refine .inr ?_
        rcases append_eq_append_cons hrest with ⟨rest, hfiles⟩ | ⟨front, rfl, hbelow⟩
        · have hcall : call ∈ fileCalls (Path.join parent name) files := by simp [hfiles]
          obtain ⟨file, hfile, rfl⟩ := List.mem_map.1 hcall
          exact ⟨_, List.mem_cons_self .., hmade, .inl ⟨file, hfile, rfl⟩⟩
        · rcases made_beforeIn (start + 1 + files.length) hbelow with
            ⟨sub, hsub, rfl⟩ | ⟨site, hsite, hmem, hreceives⟩
          · exact ⟨_, List.mem_cons_self .., hmade, .inr ⟨sub, hsub, rfl⟩⟩
          · exact ⟨site, .tail _ hsite, .tail _ (List.mem_append_right _ hmem), hreceives⟩

theorem made_beforeIn {parent : String} (start : Nat) {before after : List Call} {call : Call} :
    ∀ {folders : List Folder}, callsIn parent folders = before ++ call :: after →
      (∃ folder ∈ folders, call = .makeFolders (Path.join parent folder.name)) ∨
      ∃ site ∈ sitesIn start parent folders, .makeFolders site.path ∈ before ∧ site.Receives call
  | [], h => by simp [callsIn] at h
  | folder :: folders, h => by
    rw [callsIn] at h
    rw [sitesIn]
    rcases append_eq_append_cons h with ⟨rest, hcalls⟩ | ⟨front, rfl, hbelow⟩
    · rcases made_before start hcalls with ⟨-, rfl⟩ | ⟨site, hsite, hmem, hreceives⟩
      · exact .inl ⟨folder, List.mem_cons_self .., rfl⟩
      · exact .inr ⟨site, List.mem_append_left _ hsite, hmem, hreceives⟩
    · rcases made_beforeIn (start + (folder.calls parent).length) hbelow with
        ⟨sub, hsub, rfl⟩ | ⟨site, hsite, hmem, hreceives⟩
      · exact .inl ⟨sub, .tail _ hsub, rfl⟩
      · exact .inr ⟨site, List.mem_append_right _ hsite, List.mem_append_right _ hmem, hreceives⟩

end

end Folder

/-! ## Steps between the calls -/

namespace WriteStep

/-- The call that a step makes. -/
def call? : WriteStep → Option Call
  | makeFolders path => some (.makeFolders path)
  | writeText path content => some (.write path content)
  | tell => none

/-- How many entries steps tell of before the call that `count` others come before. -/
def toldBefore : Nat → List WriteStep → Nat
  | _, [] => 0
  | count, tell :: steps => 1 + toldBefore count steps
  | 0, _ :: _ => 0
  | count + 1, _ :: steps => toldBefore count steps

theorem told_eq_zero {step : WriteStep} {call : Call} (h : step.call? = some call) :
    step.told = 0 := by
  cases step <;> first | rfl | contradiction

theorem toldBefore_zero {step : WriteStep} {call : Call} {steps : List WriteStep}
    (h : step.call? = some call) : toldBefore 0 (step :: steps) = 0 := by
  cases step <;> first | rfl | contradiction

theorem toldBefore_succ {step : WriteStep} {call : Call} {count : Nat} {steps : List WriteStep}
    (h : step.call? = some call) :
    toldBefore (count + 1) (step :: steps) = toldBefore count steps := by
  cases step <;> first | rfl | contradiction

theorem toldBefore_append_of_lt {count : Nat} {steps : List WriteStep} (more : List WriteStep)
    (h : count < (steps.filterMap call?).length) :
    toldBefore count (steps ++ more) = toldBefore count steps := by
  induction steps generalizing count with
  | nil => simp at h
  | cons step steps ih =>
      cases step with
      | tell => exact congrArg (1 + ·) (ih h)
      | _ =>
          cases count with
          | zero => rfl
          | succ count => exact ih (Nat.lt_of_succ_lt_succ h)

theorem toldBefore_append_of_le {count : Nat} {steps : List WriteStep} (more : List WriteStep)
    (h : (steps.filterMap call?).length ≤ count) :
    toldBefore count (steps ++ more)
      = toldBefore count steps + toldBefore (count - (steps.filterMap call?).length) more := by
  induction steps generalizing count with
  | nil => simp [toldBefore]
  | cons step steps ih =>
      cases step with
      | tell =>
          rw [List.cons_append, toldBefore, ih h, toldBefore, Nat.add_assoc]
          rfl
      | _ =>
          cases count with
          | zero => exact absurd h (Nat.not_succ_le_zero _)
          | succ count =>
              refine (ih (Nat.le_of_succ_le_succ h)).trans ?_
              simp [toldBefore, call?]

end WriteStep

namespace Folder

theorem calls_fileSteps (path : String) (files : List PackFile) :
    (fileSteps path files).filterMap WriteStep.call? = fileCalls path files := by
  rw [fileSteps, List.filterMap_flatMap, fileCalls, List.map_eq_flatMap]
  rfl

mutual

/-- The steps of a writing make its calls. -/
theorem calls_steps (parent : String) : ∀ folder : Folder,
    (folder.steps parent).filterMap WriteStep.call? = folder.calls parent
  | mk name files folders => by
    rw [steps, List.filterMap_cons, List.filterMap_append, calls_fileSteps, calls_stepsIn, calls]
    rfl

theorem calls_stepsIn (parent : String) : ∀ folders : List Folder,
    (stepsIn parent folders).filterMap WriteStep.call? = callsIn parent folders
  | [] => rfl
  | folder :: folders => by
    rw [stepsIn, List.filterMap_append, calls_steps parent folder, List.filterMap_cons,
      calls_stepsIn parent folders, callsIn]
    rfl

end

theorem toldBefore_fileSteps {path : String} {files : List PackFile} {count : Nat} :
    WriteStep.toldBefore count (fileSteps path files) = min count files.length := by
  induction files generalizing count with
  | nil => simp [fileSteps, WriteStep.toldBefore]
  | cons file files ih =>
      cases count with
      | zero => simp [fileSteps, WriteStep.toldBefore]
      | succ count =>
          have hrest : WriteStep.toldBefore (count + 1) (fileSteps path (file :: files))
              = 1 + WriteStep.toldBefore count (fileSteps path files) := rfl
          rw [hrest, ih, List.length_cons]
          omega

theorem countP_take_fileCalls (path : String) (files : List PackFile) (count : Nat) :
    ((fileCalls path files).take count).countP (·.kind = .write) = min count files.length := by
  have hwrites : ∀ call ∈ (fileCalls path files).take count, call.kind = .write := by
    intro call hcall
    obtain ⟨file, -, rfl⟩ := List.mem_map.1 (List.mem_of_mem_take hcall)
    rfl
  rw [List.countP_eq_length.2 (by simpa using hwrites), List.length_take, length_fileCalls]

theorem start_le_of_mem_sitesIn {parent : String} {start : Nat} {folders : List Folder}
    {site : Site} (h : site ∈ sitesIn start parent folders) : start ≤ site.start := by
  obtain ⟨before, after, -, hstart⟩ := calls_siteIn h
  omega

/-- A folder that is written later is not done. -/
theorem countP_isDone_sitesIn {count start : Nat} (parent : String) (folders : List Folder)
    (h : count ≤ start) : (sitesIn start parent folders).countP (Site.isDone count) = 0 := by
  refine List.countP_eq_zero.2 fun site hsite => ?_
  have hstart := start_le_of_mem_sitesIn hsite
  have hlength : site.calls.length = site.folder.entryCount + 1 := length_calls _ _
  rw [Site.isDone, decide_eq_true_eq]
  omega

mutual

/-- The steps of a writing tell, before any of its calls, of the files and folders that
the earlier calls complete. -/
theorem toldBefore_steps (parent : String) (start count : Nat) : ∀ folder : Folder,
    WriteStep.toldBefore count (folder.steps parent)
      = ((folder.calls parent).take count).countP (·.kind = .write)
        + (folder.sites start parent).tail.countP (Site.isDone (start + count))
  | mk name files folders => by
    rw [steps, calls, sites, List.tail_cons]
    cases count with
    | zero =>
        rw [countP_isDone_sitesIn _ _ (by omega)]
        rfl
    | succ count =>
        have hmade : WriteStep.toldBefore (count + 1)
            (.makeFolders (Path.join parent name) :: (fileSteps (Path.join parent name) files
              ++ stepsIn (Path.join parent name) folders))
            = WriteStep.toldBefore count (fileSteps (Path.join parent name) files
              ++ stepsIn (Path.join parent name) folders) := rfl
        rw [hmade, List.take_succ_cons, List.countP_cons_of_neg (by simp [Call.kind]),
          List.take_append, List.countP_append, countP_take_fileCalls, length_fileCalls]
        rcases Nat.lt_or_ge count files.length with hlt | hle
        · -- all folders come behind the files
          rw [WriteStep.toldBefore_append_of_lt _ (by simpa [calls_fileSteps] using hlt),
            toldBefore_fileSteps, Nat.sub_eq_zero_of_le hlt.le, List.take_zero, List.countP_nil,
            countP_isDone_sitesIn _ _ (by omega)]
          rfl
        · have hdone : start + (count + 1)
              = start + 1 + files.length + (count - files.length) := by omega
          rw [WriteStep.toldBefore_append_of_le _ (by simpa [calls_fileSteps] using hle),
            toldBefore_fileSteps, calls_fileSteps, length_fileCalls, hdone,
            toldBefore_stepsIn _ (start + 1 + files.length)]
          exact (Nat.add_assoc _ _ _).symm

theorem toldBefore_stepsIn (parent : String) (start count : Nat) : ∀ folders : List Folder,
    WriteStep.toldBefore count (stepsIn parent folders)
      = ((callsIn parent folders).take count).countP (·.kind = .write)
        + (sitesIn start parent folders).countP (Site.isDone (start + count))
  | [] => by simp [stepsIn, callsIn, sitesIn, WriteStep.toldBefore]
  | folder :: folders => by
    have hbelow := toldBefore_steps parent start count folder
    obtain ⟨below, hsites⟩ := sites_eq_cons start parent folder
    rw [hsites, List.tail_cons] at hbelow
    rw [stepsIn, callsIn, sitesIn, List.take_append, List.countP_append, List.countP_append, hsites]
    rcases Nat.lt_or_ge count (folder.calls parent).length with hlt | hle
    · -- the folder is not complete, and what comes behind it is not begun
      rw [WriteStep.toldBefore_append_of_lt _ (by rwa [calls_steps]), hbelow,
        Nat.sub_eq_zero_of_le hlt.le, List.take_zero, List.countP_nil,
        List.countP_cons_of_neg (by simpa [Site.isDone, Site.calls] using hlt),
        countP_isDone_sitesIn _ _ (by omega), Nat.add_zero, Nat.add_zero]
    · have hdone : start + count
          = start + (folder.calls parent).length + (count - (folder.calls parent).length) := by
        omega
      have hothers := toldBefore_stepsIn parent (start + (folder.calls parent).length)
        (count - (folder.calls parent).length) folders
      rw [WriteStep.toldBefore_append_of_le _ (by rwa [calls_steps]), calls_steps,
        WriteStep.toldBefore, hbelow, hothers, ← hdone,
        List.countP_cons_of_pos (by simpa [Site.isDone, Site.calls] using hle)]
      omega

end

end Folder

/-! ## The run of a writing -/

namespace Watched

variable {σ : Type} [FileStore (StateM σ)]

/-- A step that makes a call notes it, and fails if the call does. -/
theorem exec_perform {step : WriteStep} {call : Call} (h : step.call? = some call) (tally : Nat)
    (watched : Watched σ) :
    ∃ answer later event,
      (call.make (m := StateM (Watched σ))).run.run watched = (answer, later) ∧
      exec (step.perform (m := StateT Nat (StateM (Watched σ))) fun n => modify (· + n))
        tally watched = ((answer, tally), later) ∧
      later.events = watched.events ++ [event] ∧ event.call? = some (call, cause? answer) := by
  cases step with
  | makeFolders path =>
      obtain rfl := Option.some.inj h
      obtain ⟨answer, store, hrun, -⟩ := exec_attempt (.makeFolders path) (.makeFolders path)
        (FileStore.makeFolders path : ExceptT IoError (StateM σ) Unit) tally watched
      exact ⟨answer, _, .makeFolders path answer,
        Prod.ext (congrArg (·.1.1) hrun) (congrArg (·.2) hrun), hrun, rfl, rfl⟩
  | writeText path content =>
      obtain rfl := Option.some.inj h
      obtain ⟨answer, store, hrun, -⟩ := exec_attempt (.write path content) (.write path content)
        (FileStore.writeText path content : ExceptT IoError (StateM σ) Unit) tally watched
      exact ⟨answer, _, .write path content answer,
        Prod.ext (congrArg (·.1.1) hrun) (congrArg (·.2) hrun), hrun, rfl, rfl⟩
  | tell => contradiction

/-- Behind a call that passes the other steps follow, and a call that fails ends the run. -/
theorem exec_steps_cons {step : WriteStep} {call : Call} (h : step.call? = some call)
    (steps : List WriteStep) (tally : Nat) (watched : Watched σ) :
    ∃ answer later,
      (call.make (m := StateM (Watched σ))).run.run watched = (answer, later) ∧
      later.events.map StoreEvent.call?
        = watched.events.map StoreEvent.call? ++ [some (call, cause? answer)] ∧
      exec (forM (step :: steps) (WriteStep.perform (m := StateT Nat (StateM (Watched σ)))
          fun n => modify (· + n))) tally watched
        = match answer with
          | .ok _ => exec (forM steps (WriteStep.perform fun n => modify (· + n))) tally later
          | .error e => ((.error e, tally), later) := by
  obtain ⟨answer, later, event, hmake, hstep, hlater, hevent⟩ := exec_perform h tally watched
  refine ⟨answer, later, hmake, ?_, ?_⟩
  · rw [hlater, List.map_append, List.map_singleton, hevent]
  · rw [List.forM_cons, exec_bind, hstep]
    cases answer <;> rfl

/-- If no call fails, steps make all of them and tell of all entries. -/
theorem exec_steps_of_passing (steps : List WriteStep) (tally : Nat) (watched : Watched σ)
    (h : firstFailure? (steps.filterMap WriteStep.call?) watched = none) :
    let run := exec (forM steps (WriteStep.perform (m := StateT Nat (StateM (Watched σ)))
      fun n => modify (· + n))) tally watched
    run.1 = (.ok (), tally + (steps.map WriteStep.told).sum) ∧
    run.2.events.map StoreEvent.call?
      = watched.events.map StoreEvent.call?
        ++ (steps.filterMap WriteStep.call?).map Call.passed := by
  induction steps generalizing tally watched with
  | nil => exact ⟨rfl, (List.append_nil _).symm⟩
  | cons step steps ih =>
      cases hcall : step.call? with
      | none =>
          -- a step that makes no call tells of an entry
          obtain rfl : step = .tell := by cases step <;> first | rfl | contradiction
          obtain ⟨hresult, hnoted⟩ := ih (tally + 1) watched h
          refine ⟨hresult.trans ?_, hnoted⟩
          rw [List.map_cons, List.sum_cons, ← Nat.add_assoc]
          rfl
      | some call =>
          obtain ⟨answer, later, hmake, hlater, hrun⟩ :=
            exec_steps_cons hcall steps tally watched
          rw [List.filterMap_cons_some hcall, firstFailure?, hmake] at h
          rw [hrun, List.filterMap_cons_some hcall]
          cases answer with
          | error e => contradiction
          | ok _ =>
              obtain ⟨hresult, hnoted⟩ := ih tally later (Option.map_eq_none_iff.1 h)
              rw [hlater] at hnoted
              refine ⟨hresult.trans ?_, hnoted.trans ?_⟩
              · rw [List.map_cons, List.sum_cons, WriteStep.told_eq_zero hcall, Nat.zero_add]
              · rw [List.map_cons, List.append_assoc]
                rfl

/-- If a call fails, steps make those up to it and tell of what stands before it. -/
theorem exec_steps_of_failing (steps : List WriteStep) (tally : Nat) (watched : Watched σ)
    (count : Nat) (e : IoError)
    (h : firstFailure? (steps.filterMap WriteStep.call?) watched = some (count, e)) :
    let run := exec (forM steps (WriteStep.perform (m := StateT Nat (StateM (Watched σ)))
      fun n => modify (· + n))) tally watched
    ∃ call, (steps.filterMap WriteStep.call?)[count]? = some call ∧
      run.1 = (.error e, tally + WriteStep.toldBefore count steps) ∧
      run.2.events.map StoreEvent.call?
        = watched.events.map StoreEvent.call?
          ++ ((steps.filterMap WriteStep.call?).take count).map Call.passed ++ [call.failed e] := by
  induction steps generalizing tally watched count with
  | nil => contradiction
  | cons step steps ih =>
      cases hcall : step.call? with
      | none =>
          obtain rfl : step = .tell := by cases step <;> first | rfl | contradiction
          obtain ⟨call, hget, hresult, hnoted⟩ := ih (tally + 1) watched count h
          refine ⟨call, hget, hresult.trans ?_, hnoted⟩
          rw [WriteStep.toldBefore, ← Nat.add_assoc]
      | some call =>
          obtain ⟨answer, later, hmake, hlater, hrun⟩ :=
            exec_steps_cons hcall steps tally watched
          rw [List.filterMap_cons_some hcall, firstFailure?, hmake] at h
          rw [hrun, List.filterMap_cons_some hcall]
          cases answer with
          | error e' =>
              obtain ⟨rfl, rfl⟩ := Prod.mk.inj (Option.some.inj h)
              refine ⟨call, rfl, ?_, ?_⟩
              · rw [WriteStep.toldBefore_zero hcall, Nat.add_zero]
              · rw [List.take_zero, List.map_nil, List.append_nil]
                exact hlater
          | ok _ =>
              obtain ⟨⟨before, e'⟩, hbefore, heq⟩ := Option.map_eq_some_iff.1 h
              obtain ⟨rfl, rfl⟩ := Prod.mk.inj heq
              obtain ⟨failing, hget, hresult, hnoted⟩ := ih tally later before hbefore
              rw [hlater] at hnoted
              refine ⟨failing, hget, hresult.trans ?_, hnoted.trans ?_⟩
              · rw [WriteStep.toldBefore_succ hcall]
              · rw [List.take_succ_cons, List.map_cons,
                  List.append_assoc (watched.events.map StoreEvent.call?)]
                rfl

end Watched

namespace Folder

open Watched

/-- What a writing asks of a store, and what it tells of.  Without failures it makes all
calls of the folder, one for each entry and one for the folder itself, and tells of every
entry.  If a call fails it is the last one made and its error is the answer; by then the
writing has told of the files written and of the folders below that are complete.  Each
folder is made before something is put into it, and its calls, of which this speaks, are
those at its place. -/
theorem write_follows_calls {σ : Type} [FileStore (StateM σ)] (folder : Folder) (parent : String)
    (store : σ) (fault? : List StoreEvent → Call → Option IoError) :
    let calls := folder.calls parent
    let sites := folder.sites 0 parent
    let watched := Watched.fresh store fault?
    let run := exec (folder.write (m := StateT Nat (StateM (Watched σ)))
      (fun n => modify (· + n)) parent) 0 watched
    let noted := run.2.events.map StoreEvent.call?
    calls.length = folder.entryCount + 1 ∧
    (∀ site ∈ sites, site.calls <+: calls.drop site.start) ∧
    (∀ before call after, calls = before ++ call :: after →
      before = [] ∧ call = .makeFolders (Path.join parent folder.name) ∨
      ∃ site ∈ sites, .makeFolders site.path ∈ before ∧ site.Receives call) ∧
    (firstFailure? calls watched = none →
      run.1 = (.ok folder.entryCount, folder.entryCount) ∧ noted = calls.map Call.passed) ∧
    ∀ count e, firstFailure? calls watched = some (count, e) →
      ∃ call, calls[count]? = some call ∧
        run.1 = (.error e, (calls.take count).countP (·.kind = .write)
          + sites.tail.countP (Site.isDone count)) ∧
        noted = (calls.take count).map Call.passed ++ [call.failed e] := by
  intro calls sites watched run noted
  have hcalls : (folder.steps parent).filterMap WriteStep.call? = calls := calls_steps parent folder
  have hnone := exec_steps_of_passing (folder.steps parent) 0 watched
  have hsome := exec_steps_of_failing (folder.steps parent) 0 watched
  rw [hcalls] at hnone hsome
  -- behind the steps a writing only counts what lies in the folder
  have hrun : run = exec (do
      forM (folder.steps parent) (WriteStep.perform (m := StateT Nat (StateM (Watched σ)))
        fun n => modify (· + n))
      return folder.entryCount) 0 watched :=
    congrArg (exec · 0 watched) (write_eq _ parent folder)
  rw [exec_bind] at hrun
  generalize exec (forM (folder.steps parent) (WriteStep.perform
    (m := StateT Nat (StateM (Watched σ))) fun n => modify (· + n))) 0 watched = made
    at hnone hsome hrun
  obtain ⟨⟨answer, tally⟩, later⟩ := made
  refine ⟨length_calls parent folder, fun site hsite => ?_, fun _ _ _ => made_before 0,
    fun h => ?_, fun count e h => ?_⟩
  · obtain ⟨before, after, hbefore, hstart⟩ := calls_site hsite
    have hsplit : calls = before ++ (site.calls ++ after) := by
      rw [← List.append_assoc]
      exact hbefore
    rw [hstart, Nat.zero_add, hsplit, List.drop_left]
    exact List.prefix_append _ _
  · obtain ⟨hresult, hnoted⟩ := hnone h
    obtain ⟨rfl, rfl⟩ := Prod.mk.inj hresult
    refine ⟨?_, (congrArg (·.2.events.map StoreEvent.call?) hrun).trans hnoted⟩
    rw [hrun, told_steps, Nat.zero_add]
    rfl
  · obtain ⟨call, hget, hresult, hnoted⟩ := hsome count e h
    obtain ⟨rfl, rfl⟩ := Prod.mk.inj hresult
    refine ⟨call, hget, ?_, (congrArg (·.2.events.map StoreEvent.call?) hrun).trans hnoted⟩
    rw [hrun, toldBefore_steps parent 0, Nat.zero_add, Nat.zero_add]

/-- A writing that breaks off in the last of three folders has told of the two before it,
one in the other, and of the two files that were written; left alone it tells of all. -/
theorem write_follows_calls_of_last_file :
    ∃ folder : Folder, ∃ fault? : List StoreEvent → Call → Option IoError,
      (exec (folder.write (m := StateT Nat (StateM (Watched Shelf))) (fun n => modify (· + n))
        "out") 0 (.fresh .empty fun _ _ => none)).1 = (.ok 6, 6) ∧
      (exec (folder.write (m := StateT Nat (StateM (Watched Shelf))) (fun n => modify (· + n))
        "out") 0 (.fresh .empty fault?)).1 = (.error .other, 4) := by
  let file (name : String) : PackFile := ⟨name, .commands []⟩
  let folder : Folder := .mk "fox" [file "a"]
    [.mk "in" [file "b"] [.mk "side" [] []], .mk "last" [file "c"] []]
  let fault? : List StoreEvent → Call → Option IoError := fun _ call =>
    if call = .write "out/fox/last/c" "" then some .other else none
  obtain ⟨-, -, -, hnone, -⟩ :=
    write_follows_calls folder "out" Shelf.empty fun _ _ => none
  obtain ⟨-, -, -, -, hsome⟩ := write_follows_calls folder "out" Shelf.empty fault?
  obtain ⟨call, -, hresult, -⟩ := hsome 6 .other (by decide +kernel)
  exact ⟨folder, fault?, (hnone (by decide +kernel)).1, hresult⟩

end Folder

end RigPack

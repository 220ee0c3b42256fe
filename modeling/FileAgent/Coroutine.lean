import FileAgent.JobFilePreparation
import FileAgent.StateManager
import FileAgent.StorageMonitor

set_option relaxedAutoImplicit false
set_option autoImplicit false

/-!
# Suspended coroutines

The services are coroutines of one event loop. Between two awaits a coroutine runs alone, so it is
modelled by the awaits it can be suspended at, its points. Two functions belong to each kind of
point: the operation it awaits, and the code from the answer to the next point. The operations are
the sections of the state manager, taking a job from the queue, and everything else, which the
world outside answers.

## Main definitions

* `Op`, `Answer`, `Env` — operations, the answers of the modelled ones, and what the world outside
  answers.
* `View` — what the code between two awaits can read.
* `StateManager.perform` — a section of the state manager with its answer.
* `Op.writes` — the status an operation writes to a record.
* `StateManager.RecordChange` — what an operation may make of a record.

## Main results

* `StateManager.recordChange_perform` — what an operation does to a record.
* `StateManager.status_perform`, `StateManager.status_perform_cases` — what an operation does to the
  statuses.
-/

namespace FileAgent

open StateManager

/-- An operation a coroutine awaits. -/
inductive Op
  /-- The file system, a sleep, or the network. -/
  | io
  | call (c : ServiceCall)
  | getFileById (id : FileId)
  | getFileByPath (path : FilePath)
  | getActiveFileByPath (path : FilePath)
  | shouldSkipFileProcessing (path : FilePath)
  | getFilesByStatus (status : FileStatus)
  | getAllFiles
  | getNextJob

/-- The answer to an operation. -/
inductive Answer
  /-- The answer is part of the environment, `Env`. -/
  | io
  /-- A call has run; `increment_retry_count` returns its count. -/
  | done (count : ℕ)
  | file (id : Option FileId)
  | files (ids : List FileId)
  | skip (b : Bool)
  | job (job : Option QueueJob)

/-- What the world outside answers at a step; a point reads the fields it asked for. -/
structure Env where
  /-- The answer to an operation of `copy_file`. -/
  copyAnswer : CopyAnswer := .done
  /-- The space check of a job. -/
  spaceCheck : SpaceCheckResult :=
    { hasSpace := true, availableBytes := 0, requiredBytes := 0, fileSizeBytes := 0,
      safetyMarginBytes := 0, reason := "" }
  /-- The destination path of a job, or the exception its preparation raises. -/
  prepared : Except PyError DestPath := .ok ⟨[], ""⟩
  /-- Whether the source exists when a copy error is classified. -/
  sourceExists : Bool := true
  /-- The reason text of a classified copy error. -/
  reason : String := ""
  /-- `aiofiles.os.path.exists` of a growth check; `none` if it raises. -/
  fileExists : Option Bool := some true
  /-- `aiofiles.os.path.getsize` of a growth check; `none` if it raises. -/
  size : Option ℕ := none
  /-- `get_file_metadata`: size and time of the last write. -/
  metadata : Option (ℕ × Option ℕ) := none
  /-- The files a scan discovers. -/
  paths : List FilePath := []
  /-- The result of a check of the destination. -/
  newInfo : StorageInfo :=
    { path := "", isAccessible := true, hasWriteAccess := true, freeSpaceGb := 0, totalSpaceGb := 0
      usedSpaceGb := 0, status := .ok, warningThresholdGb := 0, criticalThresholdGb := 0
      lastChecked := 0 }

/-- What the code between two awaits can read. -/
structure View where
  heap : FileId → TrackedFile
  destinationInfo : Option StorageInfo
  /-- The job queue was created. -/
  queueCreated : Bool
  /-- The job queue service has subscribed to `FileReadyEvent`. -/
  readySubscribed : Bool
  now : ℕ
  env : Env

/-- `get_file_by_id`, as a reference. -/
def StateManager.getFileById (m : StateManager) (id : FileId) : Option FileId :=
  if id ∈ m.files then some id else none

/-- A section of the state manager with its answer. -/
def StateManager.perform (cfg : Settings) (m : StateManager) (now : ℕ) : Op → Section × Answer
  | .io => ({ manager := m }, .io)
  | .call (.incrementRetryCount id) =>
    ((m.incrementRetryCount id).2, .done (m.incrementRetryCount id).1)
  | .call c => (m.call now c, .done 0)
  | .getFileById id => ({ manager := m }, .file (m.getFileById id))
  | .getFileByPath path => ({ manager := m }, .file (m.getFileByPath path))
  | .getActiveFileByPath path => ({ manager := m }, .file (m.getActiveFileByPath path))
  | .shouldSkipFileProcessing path =>
    ({ manager := m }, .skip (m.shouldSkipFileProcessing now cfg.spaceErrorCooldownMinutes path))
  | .getFilesByStatus status => ({ manager := m }, .files (m.getFilesByStatus status))
  | .getAllFiles => ({ manager := m }, .files m.files)
  | .getNextJob => ({ manager := m }, .job none)

/-- The status an update writes to the record `id`. -/
def Op.writes (id : FileId) : Op → Option FileStatus
  | .call (.updateFileStatusById i status _) => if i = id then some status else none
  | _ => none

/-- The operations that write no status, or the one of `Op.writes`: all but adding files, cleaning
up, and the retry of a file. -/
def Op.isTargeted : Op → Bool
  | .call (.addFile ..) | .call (.cleanupMissingFiles _) | .call (.cleanupOldFiles _)
  | .call (.executeRetryTask _) => false
  | _ => true

namespace StateManager

variable {cfg : Settings} {m : StateManager} {now : ℕ} {o : Op} {id : FileId}

/-- What an operation makes of the record `id`. -/
inductive RecordChange (m : StateManager) (now : ℕ) (id : FileId) : Op → TrackedFile → Prop
  | same {o : Op} (hupdate : ∀ status kwargs,
      o = .call (.updateFileStatusById id status kwargs) → id ∉ m.files) :
      RecordChange m now id o (m.heap id)
  | updated {status : FileStatus} {kwargs : List Attr} (hid : id ∈ m.files) :
      RecordChange m now id (.call (.updateFileStatusById id status kwargs))
        ((m.heap id).applyUpdate now status kwargs)
  | found {path : FilePath} {size : ℕ} {lastWriteTime : Option ℕ} (hid : id = m.repo.nextId) :
      RecordChange m now id (.call (.addFile path size lastWriteTime))
        (.found path size lastWriteTime now)
  | removed {existingPaths : List FilePath} (hid : id ∈ m.missingFiles existingPaths) :
      RecordChange m now id (.call (.cleanupMissingFiles existingPaths)) (m.heap id).remove
  | scheduled {delaySeconds : ℕ} {reason : String} (hid : id ∈ m.files) :
      RecordChange m now id (.call (.scheduleRetry id delaySeconds reason))
        ((m.heap id).clearRetry.setRetry now delaySeconds reason)
  | retried (hid : id ∈ m.files) (hst : (m.heap id).status = .waitingForSpace)
      (hretry : (m.heap id).retryInfo ≠ none) :
      RecordChange m now id (.call (.executeRetryTask id)) (m.heap id).retried
  | counted (hid : id ∈ m.files) :
      RecordChange m now id (.call (.incrementRetryCount id)) (m.heap id).countRetry

/-- **What an operation does to a record.**

**Proof sketch.** By cases on the operation. One on a record that is not stored changes nothing;
one on a stored record changes this record as its constructor of `RecordChange` says, and every
other record is kept by the update of the heap. -/
theorem recordChange_perform (cfg : Settings) (m : StateManager) (now : ℕ) (o : Op) (id : FileId) :
    RecordChange m now id o ((m.perform cfg now o).1.manager.heap id) := by
  cases o with
  | call c =>
    cases c with
    | updateFileStatusById i status kwargs =>
      simp only [perform, call]
      by_cases hi : i ∈ m.files
      · rw [heap_updateFileStatusById hi]
        by_cases hid : id = i
        · subst hid
          rw [Function.update_self]
          exact .updated hi
        · rw [Function.update_of_ne hid]
          exact .same fun _ _ h => absurd (by cases h; rfl) hid
      · rw [updateFileStatusById_of_not_mem hi]
        exact .same fun _ _ h => by cases h; exact hi
    | addFile path size lastWriteTime =>
      simp only [perform, call]
      rcases addFile_cases m now path size lastWriteTime with ⟨-, hadd⟩ | ⟨-, hadd⟩ <;> rw [hadd]
      · exact .same fun _ _ h => by cases h
      · rw [heap_withRepo]
        by_cases hid : id = m.repo.nextId
        · rw [hid, FileRepository.insert_heap_self]
          exact .found rfl
        · rw [FileRepository.insert_heap_of_ne _ hid]
          exact .same fun _ _ h => by cases h
    | cleanupMissingFiles existingPaths =>
      simp only [perform, call]
      rw [heap_cleanupMissingFiles]
      split_ifs with hid
      · exact .removed hid
      · exact .same fun _ _ h => by cases h
    | cleanupOldFiles hours =>
      simp only [perform, call]
      rw [heap_cleanupOldFiles]
      exact .same fun _ _ h => by cases h
    | scheduleRetry i delay reason =>
      simp only [perform, call]
      by_cases hi : i ∈ m.files
      · rw [heap_scheduleRetry hi]
        by_cases hid : id = i
        · subst hid
          rw [Function.update_self]
          exact .scheduled hi
        · rw [Function.update_of_ne hid]
          exact .same fun _ _ h => by cases h
      · rw [scheduleRetry, FileRepository.getById_of_not_mem _ hi]
        exact .same fun _ _ h => by cases h
    | executeRetryTask i =>
      simp only [perform, call]
      rcases executeRetryTask_cases m i with hsame | ⟨hi, hst, hretry, hheap, -, -, -⟩
      · rw [hsame]
        exact .same fun _ _ h => by cases h
      · rw [hheap]
        by_cases hid : id = i
        · subst hid
          rw [Function.update_self]
          exact .retried hi hst hretry
        · rw [Function.update_of_ne hid]
          exact .same fun _ _ h => by cases h
    | incrementRetryCount i =>
      simp only [perform]
      by_cases hi : i ∈ m.files
      · rw [incrementRetryCount, FileRepository.getById_of_mem _ hi]
        dsimp only
        rw [heap_modify]
        by_cases hid : id = i
        · subst hid
          rw [Function.update_self]
          exact .counted hi
        · rw [Function.update_of_ne hid]
          exact .same fun _ _ h => by cases h
      · rw [incrementRetryCount, FileRepository.getById_of_not_mem _ hi]
        exact .same fun _ _ h => by cases h
  | _ => exact .same fun _ _ h => by cases h

/-- Operations on one record store and remove nothing. -/
lemma files_perform (h : o.isTargeted = true) :
    (m.perform cfg now o).1.manager.files = m.files := by
  cases o with
  | call c =>
    cases c with
    | updateFileStatusById i status kwargs => exact files_updateFileStatusById
    | scheduleRetry i delay reason => exact files_scheduleRetry delay reason
    | incrementRetryCount i => exact files_incrementRetryCount
    | _ => cases h
  | _ => rfl

/-- An operation writes to one record. -/
lemma eq_of_writes {j : FileId} {st st' : FileStatus} (hi : o.writes id = some st)
    (hj : o.writes j = some st') : id = j := by
  cases o with
  | call c =>
    cases c with
    | updateFileStatusById i status kwargs =>
      simp only [Op.writes] at hi hj
      split_ifs at hi hj with hii hij
      exact hii.symm.trans hij
    | _ => cases hi
  | _ => cases hi

/-- An operation that writes a status is one on one record. -/
lemma isTargeted_of_writes {st : FileStatus} (h : o.writes id = some st) : o.isTargeted = true := by
  cases o with
  | call c =>
    cases c with
    | updateFileStatusById i status kwargs => rfl
    | _ => cases h
  | _ => cases h

/-- An operation that writes a status is a status update. -/
lemma eq_update_of_writes {st : FileStatus} (h : o.writes id = some st) :
    ∃ kwargs, o = .call (.updateFileStatusById id st kwargs) := by
  cases o with
  | call c =>
    cases c with
    | updateFileStatusById i status kwargs =>
      simp only [Op.writes] at h
      split_ifs at h with hi
      exact ⟨kwargs, by rw [hi, Option.some.inj h]⟩
    | _ => cases h
  | _ => cases h

/-- **What a targeted operation does to the statuses**: a stored record gets the status the
operation writes to it. -/
lemma status_perform (h : o.isTargeted = true) (hid : id ∈ m.files) :
    ((m.perform cfg now o).1.manager.heap id).status = (o.writes id).getD (m.heap id).status := by
  have hchange := recordChange_perform cfg m now o id
  generalize (m.perform cfg now o).1.manager.heap id = f at hchange ⊢
  cases hchange with
  | same hupdate =>
    cases hw : o.writes id with
    | none => rfl
    | some st =>
      obtain ⟨kwargs, hop⟩ := eq_update_of_writes hw
      exact absurd hid (hupdate st kwargs hop)
  | updated => simp [Op.writes]
  | found => cases h
  | removed => cases h
  | retried => cases h
  | _ => rfl

/-- What an operation publishes is the status it wrote.

**Proof sketch.** By cases on the operation: only a status update publishes an event, and it
carries the status written. -/
lemma published_perform {e : FileStatusChangedEvent}
    (h : (m.perform cfg now o).1.published = some e) :
    o.isTargeted = true ∧ o.writes e.fileId = some e.newStatus := by
  cases o with
  | call c =>
    cases c with
    | updateFileStatusById i status kwargs =>
      simp only [perform, call, published_updateFileStatusById] at h
      split_ifs at h
      cases h
      exact ⟨rfl, if_pos rfl⟩
    | addFile path size lw =>
      simp only [perform, call, addFile] at h
      split at h <;> cases h
    | executeRetryTask i =>
      rcases executeRetryTask_cases m i with hc | ⟨-, -, -, -, -, hp, -⟩
      · simp only [perform, call, hc] at h; cases h
      · simp only [perform, call, hp] at h; cases h
    | incrementRetryCount i =>
      simp only [perform, incrementRetryCount] at h
      split at h <;> cases h
    | scheduleRetry i delay reason =>
      simp only [perform, call, scheduleRetry] at h
      split at h <;> cases h
    | cleanupMissingFiles paths => cases h
    | cleanupOldFiles hours => cases h
  | _ => cases h

/-- The change an operation makes to the status of the stored record `id`: it is a status update of
the record, or marks it as missing, or retries it. -/
def ChangesStatus (m m' : StateManager) (o : Op) (id : FileId) : Prop :=
  o.writes id = some (m'.heap id).status ∨
    (∃ paths, o = .call (.cleanupMissingFiles paths) ∧ id ∈ m.missingFiles paths ∧
      (m'.heap id).status = .removed) ∨
    (o = .call (.executeRetryTask id) ∧ (m.heap id).status = .waitingForSpace ∧
      (m.heap id).retryInfo ≠ none ∧ (m'.heap id).status = .ready)

/-- **What an operation does to the status of a record**: nothing, or one of the changes of a stored
record, or the record is new and `DISCOVERED`. -/
theorem status_perform_cases (cfg : Settings) (m : StateManager) (now : ℕ) (o : Op) (id : FileId) :
    ((m.perform cfg now o).1.manager.heap id).status = (m.heap id).status ∨
      (id ∈ m.files ∧ ChangesStatus m (m.perform cfg now o).1.manager o id) ∨
      (id = m.repo.nextId ∧ ((m.perform cfg now o).1.manager.heap id).status = .discovered) := by
  have hchange := recordChange_perform cfg m now o id
  unfold ChangesStatus
  generalize (m.perform cfg now o).1.manager.heap id = f at hchange ⊢
  cases hchange with
  | updated hid => exact .inr (.inl ⟨hid, .inl (by simp [Op.writes])⟩)
  | found hid => exact .inr (.inr ⟨hid, rfl⟩)
  | removed hid =>
    exact .inr (.inl ⟨(mem_missingFiles hid).1, .inr (.inl ⟨_, rfl, hid, rfl⟩)⟩)
  | retried hid hst hretry => exact .inr (.inl ⟨hid, .inr (.inr ⟨rfl, hst, hretry, rfl⟩)⟩)
  | _ => exact .inl rfl

/-- **A new record** is one that `add_file` stores, with the next id, as it found the path free.

**Proof sketch.** An operation on one record keeps the stored ids. Of the others the clean-ups and
the retries store no record, and `add_file` stores the one it has found. -/
lemma addFile_of_new (hid : id ∈ (m.perform cfg now o).1.manager.files) (hnew : id ∉ m.files) :
    ∃ path size lw, o = .call (.addFile path size lw) ∧ m.getActiveFileByPath path = none ∧
      id = m.repo.nextId ∧
      (m.perform cfg now o).1.manager.heap id = TrackedFile.found path size lw now := by
  by_cases htarget : o.isTargeted = true
  · rw [files_perform htarget] at hid
    exact absurd hid hnew
  · cases o with
    | call c =>
      cases c with
      | addFile path size lw =>
        simp only [perform, call] at hid ⊢
        rcases addFile_cases m now path size lw with ⟨-, hadd⟩ | ⟨hfree, hadd⟩ <;>
          rw [hadd] at hid ⊢
        · exact absurd hid hnew
        · simp only [files_withRepo, FileRepository.insert_files, List.mem_append,
            List.mem_singleton] at hid
          obtain rfl := hid.resolve_left hnew
          exact ⟨path, size, lw, rfl, hfree, rfl, FileRepository.insert_heap_self _ _⟩
      | cleanupMissingFiles paths =>
        simp only [perform, call, files_cleanupMissingFiles] at hid
        exact absurd hid hnew
      | cleanupOldFiles hours =>
        simp only [perform, call] at hid
        exact absurd (mem_files_cleanupOldFiles.mp hid).1 hnew
      | executeRetryTask j =>
        simp only [perform, call] at hid
        rcases executeRetryTask_cases m j with hc | ⟨-, -, -, -, hfiles, -, -⟩
        · rw [hc] at hid
          exact absurd hid hnew
        · rw [hfiles] at hid
          exact absurd hid hnew
      | _ => exact absurd rfl htarget
    | _ => exact absurd rfl htarget

/-- The records stored after an operation: those from before, without the ones a cleanup drops, and
a new one. -/
lemma mem_files_perform (hid : id ∈ (m.perform cfg now o).1.manager.files) :
    id ∈ m.files ∧ (∀ hours, o = .call (.cleanupOldFiles hours) → id ∉ m.oldFiles now hours) ∨
      id = m.repo.nextId ∧ ((m.perform cfg now o).1.manager.heap id).status = .discovered := by
  by_cases hold : id ∈ m.files
  · refine .inl ⟨hold, ?_⟩
    rintro hours rfl
    exact (mem_files_cleanupOldFiles.mp hid).2
  · obtain ⟨path, size, lw, -, -, hnext, hfound⟩ := addFile_of_new hid hold
    exact .inr ⟨hnext, by rw [hfound]; rfl⟩

/-- A stored record stays stored, unless a cleanup drops it. -/
lemma mem_files_perform_of_mem (hid : id ∈ m.files)
    (h : ∀ hours, o = .call (.cleanupOldFiles hours) → id ∉ m.oldFiles now hours) :
    id ∈ (m.perform cfg now o).1.manager.files := by
  by_cases htarget : o.isTargeted = true
  · rwa [files_perform htarget]
  · cases o with
    | call c =>
      cases c with
      | addFile path size lw =>
        simp only [perform, call]
        rcases addFile_cases m now path size lw with ⟨-, hadd⟩ | ⟨-, hadd⟩ <;> rw [hadd]
        · exact hid
        · simp [hid]
      | cleanupMissingFiles paths => simpa [perform, call] using hid
      | cleanupOldFiles hours =>
        simp only [perform, call]
        exact mem_files_cleanupOldFiles.mpr ⟨hid, h hours rfl⟩
      | executeRetryTask j =>
        simp only [perform, call]
        rcases executeRetryTask_cases m j with hc | ⟨-, -, -, -, hfiles, -, -⟩
        · rwa [hc]
        · rwa [hfiles]
      | _ => exact absurd rfl htarget
    | _ => exact absurd rfl htarget

/-- No operation changes the path of a record that has been created. -/
lemma filePath_perform_of_ne (hid : id ≠ m.repo.nextId) :
    ((m.perform cfg now o).1.manager.heap id).filePath = (m.heap id).filePath := by
  have hchange := recordChange_perform cfg m now o id
  generalize (m.perform cfg now o).1.manager.heap id = f at hchange ⊢
  cases hchange with
  | updated => simp
  | found hnew => exact absurd hnew hid
  | _ => rfl

/-- No operation changes the path of a stored record. -/
lemma filePath_perform (hid : id ∈ m.files) :
    ((m.perform cfg now o).1.manager.heap id).filePath = (m.heap id).filePath :=
  filePath_perform_of_ne (m.repo.ne_nextId hid)

/-- Ids are not given twice. -/
lemma nextId_le_perform : m.repo.nextId ≤ (m.perform cfg now o).1.manager.repo.nextId := by
  cases o with
  | call c =>
    cases c with
    | addFile path size lw =>
      simp only [perform, call]
      rcases addFile_cases m now path size lw with ⟨-, hadd⟩ | ⟨-, hadd⟩ <;> rw [hadd]
      exact Nat.le_succ _
    | _ => simp [perform, call]
  | _ => exact le_rfl

/-- A change of status to `READY` by an update is announced. -/
lemma spawned_perform (hid : id ∈ m.files) (hw : o.writes id = some .ready)
    (hst : (m.heap id).status ≠ .ready) :
    .fileReady ⟨id, (m.heap id).filePath⟩ ∈ (m.perform cfg now o).1.spawned := by
  cases o with
  | call c =>
    cases c with
    | updateFileStatusById i status kwargs =>
      simp only [Op.writes] at hw
      split_ifs at hw with hi
      cases hw
      subst hi
      simp [perform, call, spawned_updateFileStatusById, hid, hst]
    | _ => cases hw
  | _ => cases hw

/-- **The events of an operation**: a record that becomes `READY`, or a new record.

**Proof sketch.** By cases on the operation: a status update creates the event of a record that
becomes READY, `add_file` that of a new record, and no other operation creates one. -/
lemma spawned_perform_cases {ev : DomainEvent} (h : ev ∈ (m.perform cfg now o).1.spawned) :
    (∃ i ∈ m.files, o.writes i = some .ready ∧ (m.heap i).status ≠ .ready ∧
        ev = .fileReady ⟨i, (m.heap i).filePath⟩) ∨
      ∃ path, ev = .fileStatusChanged ⟨m.repo.nextId, path, none, .discovered⟩ := by
  cases o with
  | call c =>
    cases c with
    | updateFileStatusById i status kwargs =>
      simp only [perform, call, spawned_updateFileStatusById] at h
      split_ifs at h with hi
      · obtain ⟨hi, hst, rfl⟩ := hi
        exact .inl ⟨i, hi, by simp [Op.writes], hst, List.mem_singleton.mp h⟩
      · cases h
    | addFile path size lw =>
      simp only [perform, call] at h
      rcases addFile_cases m now path size lw with ⟨-, hadd⟩ | ⟨-, hadd⟩ <;> rw [hadd] at h
      · cases h
      · exact .inr ⟨path, List.mem_singleton.mp h⟩
    | executeRetryTask i =>
      simp only [perform, call] at h
      rcases executeRetryTask_cases m i with hc | ⟨-, -, -, -, -, -, hsp⟩
      · rw [hc] at h; cases h
      · rw [hsp] at h; cases h
    | incrementRetryCount i =>
      simp only [perform, incrementRetryCount] at h
      split at h <;> cases h
    | scheduleRetry i delay reason =>
      simp only [perform, call, scheduleRetry] at h
      split at h <;> cases h
    | cleanupMissingFiles paths => cases h
    | cleanupOldFiles hours => cases h
  | _ => cases h

end StateManager

end FileAgent

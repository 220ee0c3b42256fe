import FileAgent.FileRepository

set_option relaxedAutoImplicit false
set_option autoImplicit false

/-!
# The state manager

The lock-protected sections of `app/services/state_manager.py`. Each section runs to its end before
another one starts, so each is a function on the state; what it leaves for later (the event that is
published after the lock is released, the events published by a task of their own, the retry tasks
it cancels) is part of its result, `Section`.

## Main definitions

* `StateManager` — the repository and `_retry_tasks`.
* `updateFileStatusById`, `addFile`, `getFilesByStatus`, `cleanupMissingFiles`, … — the sections,
  under the names of the source.

## Main results

* `StateManager.status_updateFileStatusById`, `StateManager.published_updateFileStatusById` — what
  a status update writes and publishes.
* `StateManager.addFile_cases` — what `add_file` does.
* `StateManager.mem_getFilesByStatus` — the files listed have the status asked for.
-/

namespace FileAgent

/-- `FileStatusChangedEvent`. -/
structure FileStatusChangedEvent where
  fileId : FileId
  filePath : FilePath
  oldStatus : Option FileStatus
  newStatus : FileStatus
  deriving DecidableEq

/-- `FileReadyEvent`. -/
structure FileReadyEvent where
  fileId : FileId
  filePath : FilePath
  deriving DecidableEq

/-- The events whose handlers touch the modelled state. -/
inductive DomainEvent
  | fileStatusChanged (e : FileStatusChangedEvent)
  | fileReady (e : FileReadyEvent)
  deriving DecidableEq

/-- `StateManager`: the repository, and `_retry_tasks`, which maps a file to the handle of its
retry task. -/
structure StateManager where
  repo : FileRepository
  retryTasks : List (FileId × ℕ) := []
  /-- The handle of the next retry task. -/
  nextTask : ℕ := 0

/-- What a lock-protected section leaves behind. -/
structure Section where
  manager : StateManager
  /-- The event published, and awaited, after the lock is released. -/
  published : Option FileStatusChangedEvent := none
  /-- The events whose publication is a task of its own (`asyncio.create_task`). -/
  spawned : List DomainEvent := []
  /-- The handles of the retry tasks that were cancelled. -/
  cancelled : List ℕ := []

/-! ## Choosing among the records of a path -/

/-- The priorities of `_get_current_file_for_path`. -/
def currentPriority : FileStatus → ℕ
  | .copying => 1
  | .inQueue => 2
  | .growingCopy => 3
  | .readyToStartGrowing => 4
  | .ready => 5
  | .growing => 6
  | .discovered => 7
  | .waitingForSpace => 8
  | .waitingForNetwork => 9
  | .completed => 10
  | .failed => 11
  | .removed => 12
  | .spaceError => 13

/-- The priorities of `_get_active_file_for_path_internal` and `get_active_file_by_path`; `99` is
the default of `active_priority.get`. -/
def activePriority : FileStatus → ℕ
  | .copying => 1
  | .inQueue => 2
  | .growingCopy => 3
  | .readyToStartGrowing => 4
  | .ready => 5
  | .growing => 6
  | .discovered => 7
  | .waitingForSpace => 8
  | .waitingForNetwork => 8
  | .spaceError => 9
  | .completed => 99
  | .failed => 99
  | .removed => 99

/-- The priorities of `_is_more_current`. -/
def moreCurrentPriority : FileStatus → ℕ
  | .copying => 1
  | .inQueue => 2
  | .growingCopy => 3
  | .readyToStartGrowing => 4
  | .ready => 5
  | .growing => 6
  | .discovered => 7
  | .waitingForSpace => 8
  | .waitingForNetwork => 8
  | .completed => 9
  | .failed => 10
  | .removed => 11
  | .spaceError => 12

/-- The set `active_statuses` of `_get_active_file_for_path_internal`. -/
def FileStatus.isActive : FileStatus → Bool
  | .completed | .failed | .removed => false
  | _ => true

/-- The set `terminal_statuses` of `update_file_status_by_id`. -/
def FileStatus.isTerminal : FileStatus → Bool
  | .failed | .completed | .removed => true
  | _ => false

/-- The order of the sort keys `(priority, -discovered_at)`. -/
def keyLt (priority : FileStatus → ℕ) (f g : TrackedFile) : Bool :=
  priority f.status < priority g.status ||
    (priority f.status = priority g.status && g.discoveredAt < f.discoveredAt)

/-- `min(candidates, key=sort_key)`: the first candidate whose key is least. -/
def minByKey (heap : FileId → TrackedFile) (priority : FileStatus → ℕ) :
    List FileId → Option FileId
  | [] => none
  | id :: rest =>
    some (rest.foldl (fun m j => if keyLt priority (heap j) (heap m) then j else m) id)

/-- `_is_more_current`. -/
def isMoreCurrent (f g : TrackedFile) : Bool :=
  if moreCurrentPriority f.status ≠ moreCurrentPriority g.status then
    moreCurrentPriority f.status < moreCurrentPriority g.status
  else g.discoveredAt < f.discoveredAt

/-- One round of the loop that fills the dictionary `current_files` from paths to records; the
dictionary is the list of its values, in insertion order. -/
def insertCurrent (heap : FileId → TrackedFile) (id : FileId) : List FileId → List FileId
  | [] => [id]
  | c :: rest =>
    if (heap c).filePath = (heap id).filePath then
      (if isMoreCurrent (heap id) (heap c) then id else c) :: rest
    else c :: insertCurrent heap id rest

/-- The values of `current_files` after the loop over `ids`. -/
def currentFiles (heap : FileId → TrackedFile) (ids : List FileId) : List FileId :=
  ids.foldl (fun cur id => insertCurrent heap id cur) []

/-! ## The record of one file -/

/-- The record `add_file` creates. -/
def TrackedFile.found (path : FilePath) (size : ℕ) (lastWriteTime : Option ℕ) (now : ℕ) :
    TrackedFile :=
  { filePath := path, fileSize := size, lastWriteTime := lastWriteTime, discoveredAt := now }

/-- `tracked_file.retry_info = None`. -/
def TrackedFile.clearRetry (f : TrackedFile) : TrackedFile := { f with retryInfo := none }

/-- The `retry_info` that `schedule_retry` sets. -/
def TrackedFile.setRetry (now delaySeconds : ℕ) (reason : String) (f : TrackedFile) :
    TrackedFile :=
  { f with retryInfo := some ⟨now, now + seconds delaySeconds, reason, "space"⟩ }

/-- What `_execute_retry_task` assigns to a file that still waits for space. -/
def TrackedFile.retried (f : TrackedFile) : TrackedFile :=
  { f with status := .ready, errorMessage := none, retryInfo := none }

/-- `tracked_file.retry_count += 1`. -/
def TrackedFile.countRetry (f : TrackedFile) : TrackedFile :=
  { f with retryCount := f.retryCount + 1 }

/-- `tracked_file.status = FileStatus.REMOVED`, without a time stamp or an event. -/
def TrackedFile.remove (f : TrackedFile) : TrackedFile := { f with status := .removed }

/-- The assignments of `update_file_status_by_id` to the record: the status, `retry_info` for a
terminal status, the keyword arguments, and the time stamps. -/
def TrackedFile.applyUpdate (now : ℕ) (status : FileStatus) (kwargs : List Attr)
    (f : TrackedFile) : TrackedFile :=
  let f := { f with status := status }
  let f := if status.isTerminal then { f with retryInfo := none } else f
  let f := f.setattrs kwargs
  if status = .copying ∧ f.startedCopyingAt = none then { f with startedCopyingAt := some now }
  else if status = .completed ∧ f.completedAt = none then { f with completedAt := some now }
  else if status = .failed ∧ f.failedAt = none then { f with failedAt := some now }
  else f

/-- The status after an update is the one the update gives. -/
@[simp] lemma TrackedFile.applyUpdate_status (now : ℕ) (status : FileStatus) (kwargs : List Attr)
    (f : TrackedFile) : (f.applyUpdate now status kwargs).status = status := by
  simp only [TrackedFile.applyUpdate]
  split_ifs <;> simp

/-- An update keeps the path. -/
@[simp] lemma TrackedFile.applyUpdate_filePath (now : ℕ) (status : FileStatus)
    (kwargs : List Attr) (f : TrackedFile) :
    (f.applyUpdate now status kwargs).filePath = f.filePath := by
  simp only [TrackedFile.applyUpdate]
  split_ifs <;> simp

namespace StateManager

variable (m : StateManager) (now : ℕ) (id : FileId)

/-- The object behind a reference. -/
abbrev heap : FileId → TrackedFile := m.repo.heap

/-- The keys of the repository. -/
abbrev files : List FileId := m.repo.files

/-- The manager with another repository. -/
def withRepo (r : FileRepository) : StateManager := { m with repo := r }

/-- The manager after assignments to the record `id`. -/
def modify (g : TrackedFile → TrackedFile) : StateManager := m.withRepo (m.repo.modify id g)

/-! ## The lock-protected sections -/

/-- `_cancel_existing_retry_unlocked`: drops the retry task and the `retry_info` of a file. The
cancelled task is waiting for the lock or asleep, and ends without touching a record. -/
def cancelExistingRetry : Section where
  manager :=
    { (if id ∈ m.files then m.modify id TrackedFile.clearRetry else m) with
      retryTasks := m.retryTasks.filter (·.1 ≠ id) }
  cancelled := (m.retryTasks.filter (·.1 = id)).map Prod.snd

/-- `_get_current_file_for_path`. -/
def getCurrentFileForPath (path : FilePath) : Option FileId :=
  minByKey m.heap currentPriority (m.files.filter fun id => (m.heap id).filePath = path)

/-- `_get_active_file_for_path_internal`, and `get_active_file_by_path`, which repeats it. -/
def getActiveFileByPath (path : FilePath) : Option FileId :=
  minByKey m.heap activePriority
    (m.files.filter fun id => (m.heap id).filePath = path ∧ (m.heap id).status.isActive)

/-- `get_file_by_path`. -/
def getFileByPath (path : FilePath) : Option FileId :=
  (m.getCurrentFileForPath path).filter fun id => (m.heap id).status ≠ .removed

/-- `add_file`. The file it returns comes first. -/
def addFile (path : FilePath) (size : ℕ) (lastWriteTime : Option ℕ) : FileId × Section :=
  match m.getActiveFileByPath path with
  | some existing => (existing, { manager := m })
  | none =>
    (m.repo.nextId,
      { manager := m.withRepo (m.repo.insert (TrackedFile.found path size lastWriteTime now))
        spawned := [.fileStatusChanged ⟨m.repo.nextId, path, none, .discovered⟩] })

/-- `_is_space_error_in_cooldown`. -/
def isSpaceErrorInCooldown (cooldownMinutes : ℕ) (f : TrackedFile) : Bool :=
  f.status = .spaceError &&
    match f.spaceErrorAt with
    | none => false
    | some t => now < t + seconds (cooldownMinutes * 60)

/-- `should_skip_file_processing`. -/
def shouldSkipFileProcessing (cooldownMinutes : ℕ) (path : FilePath) : Bool :=
  match m.getCurrentFileForPath path with
  | none => false
  | some id => isSpaceErrorInCooldown now cooldownMinutes (m.heap id)

/-- `get_files_by_status`. -/
def getFilesByStatus (status : FileStatus) : List FileId :=
  currentFiles m.heap (m.files.filter fun id => (m.heap id).status = status)

/-- The statuses `cleanup_missing_files` leaves alone. -/
def FileStatus.keptWhenMissing : FileStatus → Bool
  | .completed | .copying | .inQueue | .growingCopy | .removed => true
  | _ => false

/-- The files `cleanup_missing_files` marks `REMOVED`. -/
def missingFiles (existingPaths : List FilePath) : List FileId :=
  (currentFiles m.heap m.files).filter fun id =>
    (m.heap id).filePath ∉ existingPaths ∧ ¬ FileStatus.keptWhenMissing (m.heap id).status

/-- `cleanup_missing_files`. -/
def cleanupMissingFiles (existingPaths : List FilePath) : Section where
  manager := (m.missingFiles existingPaths).foldl (fun m id => m.modify id TrackedFile.remove) m

/-- `completed_at or failed_at or discovered_at`. -/
def fileAgeTimestamp (f : TrackedFile) : ℕ :=
  (f.completedAt.or f.failedAt).getD f.discoveredAt

/-- The files `cleanup_old_files` drops: those older than `max_age_hours`. -/
def oldFiles (maxAgeHours : ℕ) : List FileId :=
  m.files.filter fun id => fileAgeTimestamp (m.heap id) + seconds (maxAgeHours * 3600) < now

/-- `cleanup_old_files`, with `now` read before the lock is taken. -/
def cleanupOldFiles (maxAgeHours : ℕ) : Section where
  manager := m.withRepo ((m.oldFiles now maxAgeHours).foldl FileRepository.remove m.repo)

/-- `update_file_status_by_id`. An unknown file is left alone; otherwise the status and the keyword
arguments are written, and a change of status is published. A change to `READY` also publishes a
`FileReadyEvent` in a task of its own. -/
def updateFileStatusById (status : FileStatus) (kwargs : List Attr) : Section :=
  match m.repo.getById id with
  | none => { manager := m }
  | some f =>
    let cancel : Section := if status.isTerminal then m.cancelExistingRetry id else { manager := m }
    { manager := cancel.manager.modify id (TrackedFile.applyUpdate now status kwargs)
      published :=
        if f.status ≠ status then some ⟨id, f.filePath, some f.status, status⟩ else none
      spawned :=
        if f.status ≠ status ∧ status = .ready then [.fileReady ⟨id, f.filePath⟩] else []
      cancelled := cancel.cancelled }

/-- `handle_file_status_changed`: the manager's own reaction to the event it published. -/
abbrev handleFileStatusChanged (e : FileStatusChangedEvent) : Section :=
  m.updateFileStatusById now e.fileId e.newStatus []

/-- A status update whose publication is awaited with nobody in between: the section of
`update_file_status_by_id`, and then the one of the handler. -/
def updateAndPublish (status : FileStatus) (kwargs : List Attr) : StateManager :=
  let sec := m.updateFileStatusById now id status kwargs
  match sec.published with
  | none => sec.manager
  | some e => (sec.manager.handleFileStatusChanged now e).manager

/-- `schedule_retry`. The new task has the handle `nextTask`. -/
def scheduleRetry (delaySeconds : ℕ) (reason : String) : Bool × Section :=
  match m.repo.getById id with
  | none => (false, { manager := m })
  | some _ =>
    let cancel := m.cancelExistingRetry id
    (true,
      { manager :=
          { cancel.manager.modify id (TrackedFile.setRetry now delaySeconds reason) with
            retryTasks := cancel.manager.retryTasks ++ [(id, m.nextTask)]
            nextTask := m.nextTask + 1 }
        cancelled := cancel.cancelled })

/-- The section of `_execute_retry_task` that runs when the delay is over. -/
def executeRetryTask : Section :=
  match m.repo.getById id with
  | none => { manager := m }
  | some f =>
    if f.retryInfo = none ∨ f.status ≠ .waitingForSpace then { manager := m }
    else
      { manager :=
          { m.modify id TrackedFile.retried with
            retryTasks := m.retryTasks.filter (·.1 ≠ id) } }

/-- `increment_retry_count`. The count it returns comes first. -/
def incrementRetryCount : ℕ × Section :=
  match m.repo.getById id with
  | none => (0, { manager := m })
  | some f =>
    (f.retryCount + 1,
      { manager := m.modify id TrackedFile.countRetry })

/-- A call of one of the sections above. -/
inductive ServiceCall
  | addFile (path : FilePath) (size : ℕ) (lastWriteTime : Option ℕ)
  | updateFileStatusById (id : FileId) (status : FileStatus) (kwargs : List Attr)
  | cleanupMissingFiles (existingPaths : List FilePath)
  | cleanupOldFiles (maxAgeHours : ℕ)
  | scheduleRetry (id : FileId) (delaySeconds : ℕ) (reason : String)
  | executeRetryTask (id : FileId)
  | incrementRetryCount (id : FileId)

/-- The section that a call runs. -/
def call : ServiceCall → Section
  | .addFile path size lw => (m.addFile now path size lw).2
  | .updateFileStatusById id status kwargs => m.updateFileStatusById now id status kwargs
  | .cleanupMissingFiles existingPaths => m.cleanupMissingFiles existingPaths
  | .cleanupOldFiles maxAgeHours => m.cleanupOldFiles now maxAgeHours
  | .scheduleRetry id delaySeconds reason => (m.scheduleRetry now id delaySeconds reason).2
  | .executeRetryTask id => m.executeRetryTask id
  | .incrementRetryCount id => (m.incrementRetryCount id).2

/-! ## What the sections do -/

section Lemmas

variable {m now id} {j : FileId} {path : FilePath} {status : FileStatus} {kwargs : List Attr}

/-- `withRepo` puts the repository in place. -/
@[simp] lemma withRepo_repo (r : FileRepository) : (m.withRepo r).repo = r := rfl

/-- The records after `withRepo` are those of the new repository. -/
@[simp] lemma heap_withRepo (r : FileRepository) : (m.withRepo r).heap = r.heap := rfl

/-- The stored ids after `withRepo` are those of the new repository. -/
@[simp] lemma files_withRepo (r : FileRepository) : (m.withRepo r).files = r.files := rfl

/-- `withRepo` leaves the table of retries alone. -/
@[simp] lemma withRepo_retryTasks (r : FileRepository) :
    (m.withRepo r).retryTasks = m.retryTasks := rfl

/-- `modify` changes the repository only. -/
@[simp] lemma modify_repo (g : TrackedFile → TrackedFile) :
    (m.modify id g).repo = m.repo.modify id g := rfl

/-- `modify` changes one record and no other. -/
@[simp] lemma heap_modify (g : TrackedFile → TrackedFile) :
    (m.modify id g).heap = Function.update m.heap id (g (m.heap id)) := rfl

/-- `modify` stores and removes nothing. -/
@[simp] lemma files_modify (g : TrackedFile → TrackedFile) : (m.modify id g).files = m.files := rfl

/-- Cancelling a retry stores and removes nothing. -/
@[simp] lemma files_cancelExistingRetry : (m.cancelExistingRetry id).manager.files = m.files := by
  simp only [cancelExistingRetry, files]
  split_ifs <;> rfl

/-- Cancelling a retry clears the `retry_info` of its file and touches no other record. -/
lemma heap_cancelExistingRetry :
    (m.cancelExistingRetry id).manager.heap =
      if id ∈ m.files then Function.update m.heap id (m.heap id).clearRetry else m.heap := by
  simp only [cancelExistingRetry, files, heap]
  split_ifs <;> rfl

/-- Cancelling a retry keeps what `clearRetry` keeps. -/
lemma heap_cancelExistingRetry_proj {α : Sort*} (π : TrackedFile → α)
    (hπ : ∀ f : TrackedFile, π f.clearRetry = π f) (j : FileId) :
    π ((m.cancelExistingRetry id).manager.heap j) = π (m.heap j) := by
  rw [heap_cancelExistingRetry]
  split_ifs
  · by_cases hj : j = id
    · rw [hj, Function.update_self, hπ]
    · rw [Function.update_of_ne hj]
  · rfl

/-- A status update of an unknown file changes nothing. -/
lemma updateFileStatusById_of_not_mem (h : id ∉ m.files) :
    m.updateFileStatusById now id status kwargs = { manager := m } := by
  simp only [updateFileStatusById, FileRepository.getById_of_not_mem _ h]

/-- What an update of a stored record does: the retry is cancelled first when the status is a
terminal one, and the event is published when the status changes. -/
lemma updateFileStatusById_of_mem (h : id ∈ m.files) :
    m.updateFileStatusById now id status kwargs =
      let cancel : Section :=
        if status.isTerminal then m.cancelExistingRetry id else { manager := m }
      { manager := cancel.manager.modify id (TrackedFile.applyUpdate now status kwargs)
        published :=
          if (m.heap id).status ≠ status then
            some ⟨id, (m.heap id).filePath, some (m.heap id).status, status⟩ else none
        spawned :=
          if (m.heap id).status ≠ status ∧ status = .ready then
            [.fileReady ⟨id, (m.heap id).filePath⟩] else []
        cancelled := cancel.cancelled } := by
  simp only [updateFileStatusById, FileRepository.getById_of_mem _ h]

/-- An update stores and removes nothing. -/
@[simp] lemma files_updateFileStatusById :
    (m.updateFileStatusById now id status kwargs).manager.files = m.files := by
  by_cases h : id ∈ m.files
  · rw [updateFileStatusById_of_mem h]
    by_cases ht : status.isTerminal = true <;> simp [ht]
  · rw [updateFileStatusById_of_not_mem h]

/-- Cancelling a retry uses up no id. -/
@[simp] lemma nextId_cancelExistingRetry :
    (m.cancelExistingRetry id).manager.repo.nextId = m.repo.nextId := by
  simp only [cancelExistingRetry]
  split_ifs <;> rfl

/-- An update uses up no id. -/
@[simp] lemma nextId_updateFileStatusById :
    (m.updateFileStatusById now id status kwargs).manager.repo.nextId = m.repo.nextId := by
  by_cases h : id ∈ m.files
  · rw [updateFileStatusById_of_mem h]
    by_cases ht : status.isTerminal = true <;> simp [ht]
  · rw [updateFileStatusById_of_not_mem h]

/-- Clearing the retry first makes no difference to an update to a terminal status. -/
lemma applyUpdate_clearRetry (ht : status.isTerminal = true) (f : TrackedFile) :
    f.clearRetry.applyUpdate now status kwargs = f.applyUpdate now status kwargs := by
  simp only [TrackedFile.applyUpdate, TrackedFile.clearRetry, ht, if_true]

/-- **The record of a status update**: the assignments of the section, and nothing else. -/
lemma heap_updateFileStatusById (h : id ∈ m.files) :
    (m.updateFileStatusById now id status kwargs).manager.heap =
      Function.update m.heap id ((m.heap id).applyUpdate now status kwargs) := by
  rw [updateFileStatusById_of_mem h]
  by_cases ht : status.isTerminal = true
  · simp only [ht, if_true, heap, modify_repo, FileRepository.modify]
    have hc : (m.cancelExistingRetry id).manager.heap =
        Function.update m.heap id (m.heap id).clearRetry := by
      rw [heap_cancelExistingRetry, if_pos h]
    simp only [heap] at hc
    rw [hc, Function.update_idem, Function.update_self, applyUpdate_clearRetry ht]
  · simp only [ht, Bool.false_eq_true, if_false, heap, modify_repo, FileRepository.modify]

/-- A status update writes its status to its own record and leaves every other status. -/
lemma status_updateFileStatusById :
    ((m.updateFileStatusById now id status kwargs).manager.heap j).status =
      if j = id ∧ id ∈ m.files then status else (m.heap j).status := by
  by_cases h : id ∈ m.files
  · rw [heap_updateFileStatusById h]
    by_cases hj : j = id
    · subst hj; simp [h]
    · simp [hj]
  · rw [updateFileStatusById_of_not_mem h]
    simp [h]

/-- An update keeps the path of every record. -/
@[simp] lemma filePath_updateFileStatusById :
    ((m.updateFileStatusById now id status kwargs).manager.heap j).filePath =
      (m.heap j).filePath := by
  by_cases h : id ∈ m.files
  · rw [heap_updateFileStatusById h]
    by_cases hj : j = id
    · subst hj; simp
    · simp [hj]
  · rw [updateFileStatusById_of_not_mem h]

/-- A status update publishes exactly the changes of status. -/
lemma published_updateFileStatusById :
    (m.updateFileStatusById now id status kwargs).published =
      if id ∈ m.files ∧ (m.heap id).status ≠ status then
        some ⟨id, (m.heap id).filePath, some (m.heap id).status, status⟩ else none := by
  by_cases h : id ∈ m.files
  · rw [updateFileStatusById_of_mem h]
    simp [h]
  · rw [updateFileStatusById_of_not_mem h]
    simp [h]

/-- A status update announces a file as ready exactly when it changes its status to `READY`. -/
lemma spawned_updateFileStatusById :
    (m.updateFileStatusById now id status kwargs).spawned =
      if id ∈ m.files ∧ (m.heap id).status ≠ status ∧ status = .ready then
        [.fileReady ⟨id, (m.heap id).filePath⟩] else [] := by
  by_cases h : id ∈ m.files
  · rw [updateFileStatusById_of_mem h]
    simp [h]
  · rw [updateFileStatusById_of_not_mem h]
    simp [h]

/-- The handler of a published update repeats the update. -/
lemma updateAndPublish_cases (m : StateManager) (now : ℕ) (id : FileId) (status : FileStatus)
    (kwargs : List Attr) :
    let m₁ := (m.updateFileStatusById now id status kwargs).manager
    m.updateAndPublish now id status kwargs = m₁ ∨
      m.updateAndPublish now id status kwargs =
        (m₁.updateFileStatusById now id status []).manager := by
  simp only [updateAndPublish, published_updateFileStatusById]
  split_ifs
  · exact .inr rfl
  · exact .inl rfl

/-- An update stores and removes nothing, with the event published too. -/
@[simp] lemma files_updateAndPublish :
    (m.updateAndPublish now id status kwargs).files = m.files := by
  rcases updateAndPublish_cases m now id status kwargs with h | h <;> simp [h]

/-- The handler finds the status it is to write already there. -/
lemma status_updateAndPublish :
    ((m.updateAndPublish now id status kwargs).heap j).status =
      if j = id ∧ id ∈ m.files then status else (m.heap j).status := by
  rcases updateAndPublish_cases m now id status kwargs with h | h
  · rw [h, status_updateFileStatusById]
  · rw [h, status_updateFileStatusById, status_updateFileStatusById, files_updateFileStatusById]
    split_ifs <;> rfl

/-- An update keeps the path of every record, with the event published too. -/
@[simp] lemma filePath_updateAndPublish :
    ((m.updateAndPublish now id status kwargs).heap j).filePath = (m.heap j).filePath := by
  rcases updateAndPublish_cases m now id status kwargs with h | h <;> simp [h]

/-- The first least candidate is one of the candidates. -/
lemma minByKey_mem {heap : FileId → TrackedFile} {priority : FileStatus → ℕ} {ids : List FileId}
    (h : minByKey heap priority ids = some id) : id ∈ ids := by
  have hfold : ∀ (rest : List FileId) (i : FileId),
      rest.foldl (fun m j => if keyLt priority (heap j) (heap m) then j else m) i ∈ i :: rest := by
    intro rest
    induction rest with
    | nil => simp
    | cons a rest ih =>
      intro i
      have := ih (if keyLt priority (heap a) (heap i) then a else i)
      rw [List.foldl_cons]
      split_ifs at this ⊢ with hk <;> grind
  cases ids with
  | nil => simp [minByKey] at h
  | cons a rest =>
    simp only [minByKey, Option.some.injEq] at h
    exact h ▸ hfold rest a

/-- Only an empty list has no least entry. -/
lemma minByKey_eq_none {heap : FileId → TrackedFile} {priority : FileStatus → ℕ}
    {ids : List FileId} : minByKey heap priority ids = none ↔ ids = [] := by
  cases ids <;> simp [minByKey]

/-- `get_active_file_by_path` finds an active record of the path. -/
lemma getActiveFileByPath_some (h : m.getActiveFileByPath path = some id) :
    id ∈ m.files ∧ (m.heap id).filePath = path ∧ (m.heap id).status.isActive = true := by
  have := minByKey_mem h
  rw [List.mem_filter] at this
  simpa using this

/-- `get_active_file_by_path` finds nothing exactly when the path has no active record. -/
lemma getActiveFileByPath_eq_none :
    m.getActiveFileByPath path = none ↔
      ∀ j ∈ m.files, (m.heap j).filePath = path → (m.heap j).status.isActive = false := by
  rw [getActiveFileByPath, minByKey_eq_none, List.filter_eq_nil_iff]
  simp

/-- `get_file_by_path` finds a record of the path that is not `REMOVED`. -/
lemma getFileByPath_some (h : m.getFileByPath path = some id) :
    id ∈ m.files ∧ (m.heap id).filePath = path ∧ (m.heap id).status ≠ .removed := by
  rw [getFileByPath, Option.filter_eq_some_iff] at h
  have := minByKey_mem h.1
  rw [List.mem_filter] at this
  exact ⟨this.1, by simpa using this.2, by simpa using h.2⟩

/-- **What `add_file` does**: nothing if the path has an active record, and otherwise it adds a
`DISCOVERED` record under a fresh uuid and announces it. -/
lemma addFile_cases (m : StateManager) (now : ℕ) (path : FilePath) (size : ℕ) (lw : Option ℕ) :
    ((∃ e, m.getActiveFileByPath path = some e) ∧
        (m.addFile now path size lw).2 = { manager := m }) ∨
      (m.getActiveFileByPath path = none ∧
        (m.addFile now path size lw).2 =
          { manager := m.withRepo (m.repo.insert (TrackedFile.found path size lw now))
            spawned := [.fileStatusChanged ⟨m.repo.nextId, path, none, .discovered⟩] }) := by
  unfold addFile
  cases h : m.getActiveFileByPath path with
  | none => exact .inr ⟨rfl, rfl⟩
  | some e => exact .inl ⟨⟨e, rfl⟩, rfl⟩

/-- A list with one id inserted holds that id and ids it held before. -/
lemma mem_insertCurrent {heap : FileId → TrackedFile} {cur : List FileId}
    (h : j ∈ insertCurrent heap id cur) : j = id ∨ j ∈ cur := by
  induction cur with
  | nil => simpa [insertCurrent] using h
  | cons c rest ih =>
    simp only [insertCurrent] at h
    split_ifs at h <;> simp only [List.mem_cons] at h ⊢
    · tauto
    · tauto
    · rcases h with h | h
      · exact .inr (.inl h)
      · exact (ih h).imp_right .inr

/-- The current records are among the records looked at. -/
lemma mem_currentFiles {heap : FileId → TrackedFile} {ids : List FileId}
    (h : j ∈ currentFiles heap ids) : j ∈ ids := by
  have hfold : ∀ (ids cur : List FileId),
      j ∈ ids.foldl (fun cur id => insertCurrent heap id cur) cur → j ∈ ids ∨ j ∈ cur := by
    intro ids
    induction ids with
    | nil => exact fun cur h => .inr h
    | cons a ids ih =>
      intro cur h
      rw [List.foldl_cons] at h
      rcases ih _ h with h | h
      · exact .inl (List.mem_cons_of_mem _ h)
      · rcases mem_insertCurrent h with rfl | h
        · exact .inl List.mem_cons_self
        · exact .inr h
  simpa using hfold ids [] h

/-- The paths of `current_files` after one round of its loop. -/
lemma map_insertCurrent (heap : FileId → TrackedFile) (id : FileId) (cur : List FileId) :
    (insertCurrent heap id cur).map (fun c => (heap c).filePath) =
      if (heap id).filePath ∈ cur.map (fun c => (heap c).filePath) then
        cur.map fun c => (heap c).filePath
      else cur.map (fun c => (heap c).filePath) ++ [(heap id).filePath] := by
  induction cur with
  | nil => simp [insertCurrent]
  | cons c rest ih =>
    simp only [insertCurrent]
    by_cases hc : (heap c).filePath = (heap id).filePath
    · rw [if_pos hc, List.map_cons]
      split_ifs <;> simp_all
    · rw [if_neg hc, List.map_cons, List.map_cons, ih]
      simp only [List.mem_cons, Ne.symm hc, false_or]
      split_ifs <;> rfl

/-- The current records: one for each path of the records looked at.

**Proof sketch.** By induction on the ids, for any list so far: `insertCurrent` replaces the
record of the same path or adds one at the end (`map_insertCurrent`). So the paths stay distinct,
those listed stay listed, and the path of the record inserted is among them. -/
lemma map_currentFiles (heap : FileId → TrackedFile) (ids : List FileId) :
    ((currentFiles heap ids).map fun c => (heap c).filePath).Nodup ∧
      ∀ id ∈ ids, ∃ c ∈ currentFiles heap ids, (heap c).filePath = (heap id).filePath := by
  have hfold : ∀ (ids cur : List FileId), (cur.map fun c => (heap c).filePath).Nodup →
      ((ids.foldl (fun cur id => insertCurrent heap id cur) cur).map
          fun c => (heap c).filePath).Nodup ∧
        ∀ p, p ∈ (ids ++ cur).map (fun c => (heap c).filePath) →
          p ∈ (ids.foldl (fun cur id => insertCurrent heap id cur) cur).map
            fun c => (heap c).filePath := by
    intro ids
    induction ids with
    | nil => exact fun cur h => ⟨h, fun p hp => hp⟩
    | cons a ids ih =>
      intro cur h
      have hins := map_insertCurrent heap a cur
      obtain ⟨hnd, hmem⟩ := ih (insertCurrent heap a cur) (by
        rw [hins]
        split_ifs with ha
        · exact h
        · exact List.nodup_append.mpr ⟨h, List.nodup_singleton _, by
            rintro x hx y hy rfl
            exact ha (List.mem_singleton.mp hy ▸ hx)⟩)
      refine ⟨hnd, fun p hp => hmem p ?_⟩
      rw [List.map_append, hins]
      rw [List.cons_append, List.map_cons, List.mem_cons, List.map_append] at hp
      split_ifs with ha <;> simp only [List.mem_append, List.mem_singleton] at hp ⊢
      · rcases hp with rfl | hp
        · exact .inr ha
        · exact hp
      · tauto
  obtain ⟨hnd, hmem⟩ := hfold ids [] List.nodup_nil
  refine ⟨hnd, fun id hid => ?_⟩
  exact List.mem_map.mp (hmem _ (by simpa using List.mem_map_of_mem hid))

/-- The files listed have the status asked for. -/
lemma mem_getFilesByStatus (h : j ∈ m.getFilesByStatus status) :
    j ∈ m.files ∧ (m.heap j).status = status := by
  have := mem_currentFiles h
  rw [List.mem_filter] at this
  simpa using this

/-- A file marked as missing had a status that `cleanup_missing_files` does not keep. -/
lemma mem_missingFiles {existingPaths : List FilePath} (h : j ∈ m.missingFiles existingPaths) :
    j ∈ m.files ∧ ¬ FileStatus.keptWhenMissing (m.heap j).status := by
  rw [missingFiles, List.mem_filter] at h
  simp only [decide_eq_true_eq] at h
  exact ⟨mem_currentFiles h.1, h.2.2⟩

/-- Repeating an idempotent assignment over a list of records assigns it once to each of them. -/
lemma foldl_modify (g : TrackedFile → TrackedFile) (hg : ∀ f, g (g f) = g f)
    (ids : List FileId) :
    (ids.foldl (fun m id => m.modify id g) m).heap =
        (fun j => if j ∈ ids then g (m.heap j) else m.heap j) ∧
      (ids.foldl (fun m id => m.modify id g) m).files = m.files := by
  induction ids generalizing m with
  | nil => simp
  | cons a ids ih =>
    obtain ⟨hh, hf⟩ := ih (m := m.modify a g)
    rw [List.foldl_cons]
    refine ⟨?_, hf⟩
    rw [hh]
    funext j
    rw [heap_modify]
    by_cases ha : j = a
    · subst ha
      by_cases hj : j ∈ ids <;> simp [hj, hg]
    · by_cases hj : j ∈ ids <;> simp [hj, ha]

/-- The records after `cleanup_missing_files`. -/
lemma heap_cleanupMissingFiles (existingPaths : List FilePath) :
    (m.cleanupMissingFiles existingPaths).manager.heap j =
      if j ∈ m.missingFiles existingPaths then (m.heap j).remove else m.heap j := by
  have h := (foldl_modify (m := m) TrackedFile.remove (fun _ => rfl)
    (m.missingFiles existingPaths)).1
  exact congrFun h j

/-- `cleanup_missing_files` marks records and removes none. -/
@[simp] lemma files_cleanupMissingFiles (existingPaths : List FilePath) :
    (m.cleanupMissingFiles existingPaths).manager.files = m.files :=
  (foldl_modify TrackedFile.remove (fun _ => rfl) _).2

/-- Removing ids one after the other leaves the other ids, and all records and the next id as they
were. -/
lemma foldl_remove (r : FileRepository) (ids : List FileId) :
    (ids.foldl FileRepository.remove r).heap = r.heap ∧
      (∀ j, j ∈ (ids.foldl FileRepository.remove r).files ↔ j ∈ r.files ∧ j ∉ ids) ∧
      (ids.foldl FileRepository.remove r).nextId = r.nextId := by
  induction ids generalizing r with
  | nil => simp
  | cons a ids ih =>
    obtain ⟨hh, hf, hn⟩ := ih (r.remove a)
    refine ⟨hh, fun j => ?_, hn⟩
    rw [List.foldl_cons, hf, FileRepository.mem_remove_files, List.mem_cons]
    tauto

/-- `cleanup_old_files` changes no record. -/
@[simp] lemma heap_cleanupOldFiles (maxAgeHours : ℕ) :
    (m.cleanupOldFiles now maxAgeHours).manager.heap = m.heap :=
  (foldl_remove _ _).1

/-- `cleanup_old_files` drops the old files and keeps the others. -/
lemma mem_files_cleanupOldFiles {maxAgeHours : ℕ} :
    j ∈ (m.cleanupOldFiles now maxAgeHours).manager.files ↔
      j ∈ m.files ∧ j ∉ m.oldFiles now maxAgeHours :=
  (foldl_remove _ _).2.1 j

/-- Scheduling a retry sets the `retry_info` of its file. -/
lemma heap_scheduleRetry (hid : id ∈ m.files) (delay : ℕ) (reason : String) :
    (m.scheduleRetry now id delay reason).2.manager.heap =
      Function.update m.heap id ((m.heap id).clearRetry.setRetry now delay reason) := by
  have hheap : (m.scheduleRetry now id delay reason).2.manager.heap =
      Function.update (m.cancelExistingRetry id).manager.heap id
        (TrackedFile.setRetry now delay reason ((m.cancelExistingRetry id).manager.heap id)) := by
    simp only [scheduleRetry, FileRepository.getById_of_mem _ hid]
    rfl
  rw [hheap, heap_cancelExistingRetry, if_pos hid, Function.update_self, Function.update_idem]

/-- `schedule_retry` writes no status. -/
lemma status_scheduleRetry (delay : ℕ) (reason : String) :
    ((m.scheduleRetry now id delay reason).2.manager.heap j).status = (m.heap j).status := by
  unfold scheduleRetry
  cases h : m.repo.getById id with
  | none => rfl
  | some f =>
    have hset := FileRepository.modify_heap_proj (m.cancelExistingRetry id).manager.repo
      TrackedFile.status id j (TrackedFile.setRetry now delay reason) fun _ => rfl
    exact hset.trans (heap_cancelExistingRetry_proj TrackedFile.status (fun _ => rfl) j)

/-- Scheduling a retry stores and removes nothing. -/
@[simp] lemma files_scheduleRetry (delay : ℕ) (reason : String) :
    (m.scheduleRetry now id delay reason).2.manager.files = m.files := by
  unfold scheduleRetry
  cases h : m.repo.getById id with
  | none => rfl
  | some f => exact files_cancelExistingRetry

/-- A retry that fires. -/
lemma executeRetryTask_of_waiting (hid : id ∈ m.files)
    (hst : (m.heap id).status = .waitingForSpace) (hinfo : (m.heap id).retryInfo ≠ none) :
    m.executeRetryTask id = { manager :=
      { m.modify id TrackedFile.retried with
        retryTasks := m.retryTasks.filter (·.1 ≠ id) } } := by
  simp [executeRetryTask, FileRepository.getById_of_mem _ hid, hst, hinfo]

/-- **What a retry does**: it fires for a stored file that waits for space with a retry scheduled,
and otherwise changes nothing. -/
lemma executeRetryTask_cases (m : StateManager) (id : FileId) :
    m.executeRetryTask id = { manager := m } ∨
      (id ∈ m.files ∧ (m.heap id).status = .waitingForSpace ∧ (m.heap id).retryInfo ≠ none ∧
        (m.executeRetryTask id).manager.heap =
          Function.update m.heap id (m.heap id).retried ∧
        (m.executeRetryTask id).manager.files = m.files ∧
        (m.executeRetryTask id).published = none ∧ (m.executeRetryTask id).spawned = []) := by
  unfold executeRetryTask
  by_cases h : id ∈ m.files
  · rw [FileRepository.getById_of_mem _ h]
    by_cases hr : (m.heap id).retryInfo = none ∨ (m.heap id).status ≠ .waitingForSpace
    · exact .inl (if_pos hr)
    · right
      dsimp only
      rw [if_neg hr]
      push Not at hr
      exact ⟨h, hr.2, hr.1, rfl, rfl, rfl, rfl⟩
  · left
    rw [FileRepository.getById_of_not_mem _ h]

/-- Counting a retry writes no status. -/
lemma status_incrementRetryCount :
    ((m.incrementRetryCount id).2.manager.heap j).status = (m.heap j).status := by
  unfold incrementRetryCount
  cases h : m.repo.getById id with
  | none => rfl
  | some f => exact FileRepository.modify_heap_proj _ TrackedFile.status _ _ _ fun _ => rfl

/-- Counting a retry stores and removes nothing. -/
@[simp] lemma files_incrementRetryCount :
    (m.incrementRetryCount id).2.manager.files = m.files := by
  unfold incrementRetryCount
  cases h : m.repo.getById id <;> rfl

/-! ## The ids given -/

/-- `cleanup_missing_files` uses up no id. -/
@[simp] lemma nextId_cleanupMissingFiles (existingPaths : List FilePath) :
    (m.cleanupMissingFiles existingPaths).manager.repo.nextId = m.repo.nextId := by
  simp only [cleanupMissingFiles]
  generalize m.missingFiles existingPaths = ids
  induction ids generalizing m with
  | nil => rfl
  | cons a ids ih => exact ih (m := m.modify a TrackedFile.remove)

/-- `cleanup_old_files` uses up no id. -/
@[simp] lemma nextId_cleanupOldFiles (maxAgeHours : ℕ) :
    (m.cleanupOldFiles now maxAgeHours).manager.repo.nextId = m.repo.nextId :=
  (foldl_remove _ _).2.2

/-- Scheduling a retry uses up no id. -/
@[simp] lemma nextId_scheduleRetry (delay : ℕ) (reason : String) :
    (m.scheduleRetry now id delay reason).2.manager.repo.nextId = m.repo.nextId := by
  unfold scheduleRetry
  cases h : m.repo.getById id with
  | none => rfl
  | some f => exact nextId_cancelExistingRetry

/-- A retry that becomes due uses up no id. -/
@[simp] lemma nextId_executeRetryTask :
    (m.executeRetryTask id).manager.repo.nextId = m.repo.nextId := by
  unfold executeRetryTask
  split
  · rfl
  · split_ifs <;> rfl

/-- Counting a retry uses up no id. -/
@[simp] lemma nextId_incrementRetryCount :
    (m.incrementRetryCount id).2.manager.repo.nextId = m.repo.nextId := by
  unfold incrementRetryCount
  cases h : m.repo.getById id <;> rfl

end Lemmas

end StateManager

end FileAgent

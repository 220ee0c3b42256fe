import FileAgent.Library.Run
import FileAgent.StateManager

set_option relaxedAutoImplicit false
set_option autoImplicit false

/-!
# The bookkeeping of the retries

A scheduled retry is recorded twice: `_retry_tasks` maps the file to its task, and `retry_info` is
set in its record. The operations keep the two in step by hand. The state here is the one between
operations: the manager, and the retry tasks that have not finished.

A task that is cancelled by the manager ends without touching a record, since the manager holds the
lock. One that is cancelled from outside fails in its handler, which looks for the record in an
attribute that the manager does not have, so it ends without touching a record too.

## Main definitions

* `RetryState`, `RetryAction`, `retryStep` — the operations, and the ends of the tasks.
* `Bookkept` — the map, the tasks and the records agree.
* `RetriesKept` — the condition on the steps.

## Main results

* `bookkept_step_iff` — an operation keeps the bookkeeping exactly under the condition.
* `bookkept_iff` — so does a run.
* `missing_file_keeps_retry` — a record marked as missing that keeps its retry.
-/

namespace FileAgent

open Transition StateManager

/-! ## The operations -/

/-- `cancel_all_retries`. -/
def StateManager.cancelAllRetries (m : StateManager) : Section :=
  (m.files.filter fun id => (m.heap id).retryInfo ≠ none).foldl
    (fun sec id =>
      let cancel := sec.manager.cancelExistingRetry id
      { manager := cancel.manager, cancelled := sec.cancelled ++ cancel.cancelled })
    { manager := m }

/-- A task that runs `_execute_retry_task`. -/
structure RetryTask where
  handle : ℕ
  file : FileId
  deriving DecidableEq

/-- The manager between two operations, and the retry tasks that are not finished. -/
structure RetryState where
  manager : StateManager
  tasks : List RetryTask := []

/-- The operations, and what ends a retry task: its delay is over and it fires, or it is cancelled
from outside the manager. -/
inductive RetryAction
  | call (now : ℕ) (c : ServiceCall)
  | cancelRetry (id : FileId)
  | cancelAllRetries
  | fire (handle : ℕ)
  | cancelTask (handle : ℕ)

namespace RetryState

/-- The state after an operation: the tasks it cancels are finished. -/
def afterSection (s : RetryState) (sec : Section) (new : List RetryTask) : RetryState where
  manager := sec.manager
  tasks := s.tasks.filter (·.handle ∉ sec.cancelled) ++ new

/-- The state after the end of a task. -/
def afterEnd (s : RetryState) (m : StateManager) (handle : ℕ) : RetryState where
  manager := m
  tasks := s.tasks.filter (·.handle ≠ handle)

end RetryState

/-- The task that an operation creates. -/
def scheduledTask (m : StateManager) : ServiceCall → List RetryTask
  | .scheduleRetry id _ _ => if id ∈ m.files then [⟨m.nextTask, id⟩] else []
  | _ => []

/-- One step. The section of a retry is run by its task only. -/
def retryStep (s : RetryState) : RetryAction → Option RetryState
  | .call _ (.executeRetryTask _) => none
  | .call now c => some (s.afterSection (s.manager.call now c) (scheduledTask s.manager c))
  | .cancelRetry id => some (s.afterSection (s.manager.cancelExistingRetry id) [])
  | .cancelAllRetries => some (s.afterSection s.manager.cancelAllRetries [])
  | .fire handle =>
    (s.tasks.find? (·.handle = handle)).map fun t =>
      s.afterEnd (s.manager.executeRetryTask t.file).manager handle
  | .cancelTask handle =>
    (s.tasks.find? (·.handle = handle)).map fun _ => s.afterEnd s.manager handle

/-! ## The property -/

/-- The record `id` is stored and has a retry. -/
def StateManager.HasRetry (m : StateManager) (id : FileId) : Prop :=
  id ∈ m.files ∧ (m.heap id).retryInfo ≠ none

/-- The map, the tasks and the records agree: a file has an unfinished task in `_retry_tasks`
exactly if it is stored with a `retry_info`, no finished task is in the map, and a record with a
terminal status has neither a `retry_info` nor a task. -/
structure Bookkept (s : RetryState) : Prop where
  mapped : ∀ id, (∃ t ∈ s.tasks, (id, t.handle) ∈ s.manager.retryTasks) ↔ s.manager.HasRetry id
  unfinished : ∀ e ∈ s.manager.retryTasks, ∃ t ∈ s.tasks, t.handle = e.2
  terminal : ∀ id ∈ s.manager.files, (s.manager.heap id).status.isTerminal = true →
    (s.manager.heap id).retryInfo = none ∧ ∀ t ∈ s.tasks, t.file ≠ id

/-! ## The condition -/

/-- The condition on a step. A retry is scheduled for a record that is not terminal, a cleanup
concerns no record with a retry, a retry fires for a record that still waits for space, and no task
is cancelled from outside. -/
def RetriesKept (s : RetryState) : RetryAction → Prop
  | .call _ (.scheduleRetry id _ _) =>
    id ∈ s.manager.files → (s.manager.heap id).status.isTerminal = false
  | .call _ (.cleanupMissingFiles paths) =>
    ∀ id ∈ s.manager.missingFiles paths, (s.manager.heap id).retryInfo = none
  | .call now (.cleanupOldFiles hours) =>
    ∀ id ∈ s.manager.oldFiles now hours, (s.manager.heap id).retryInfo = none
  | .fire handle =>
    ∀ t ∈ s.tasks, t.handle = handle → (s.manager.heap t.file).status = .waitingForSpace
  | .cancelTask _ => False
  | _ => True

instance (s : RetryState) : (a : RetryAction) → Decidable (RetriesKept s a)
  | .call _ (.scheduleRetry id _ _) => inferInstanceAs (Decidable
      (id ∈ s.manager.files → (s.manager.heap id).status.isTerminal = false))
  | .call _ (.cleanupMissingFiles paths) => inferInstanceAs (Decidable
      (∀ id ∈ s.manager.missingFiles paths, (s.manager.heap id).retryInfo = none))
  | .call now (.cleanupOldFiles hours) => inferInstanceAs (Decidable
      (∀ id ∈ s.manager.oldFiles now hours, (s.manager.heap id).retryInfo = none))
  | .call _ (.addFile ..) | .call _ (.updateFileStatusById ..) | .call _ (.executeRetryTask _)
  | .call _ (.incrementRetryCount _) | .cancelRetry _ | .cancelAllRetries => .isTrue trivial
  | .fire handle => inferInstanceAs (Decidable
      (∀ t ∈ s.tasks, t.handle = handle → (s.manager.heap t.file).status = .waitingForSpace))
  | .cancelTask _ => .isFalse id

/-! ## The map and the tasks -/

/-- The record `id` is stored with a terminal status. -/
def StateManager.IsTerminal (m : StateManager) (id : FileId) : Prop :=
  id ∈ m.files ∧ (m.heap id).status.isTerminal = true

/-- What holds of the map and the tasks in every state: the map has one task for a file, and one
file for a task, and a task that is not finished is in the map. -/
structure Registered (s : RetryState) : Prop where
  keys : (s.manager.retryTasks.map Prod.fst).Nodup
  handles : (s.manager.retryTasks.map Prod.snd).Nodup
  given : ∀ e ∈ s.manager.retryTasks, e.2 < s.manager.nextTask
  registered : ∀ t ∈ s.tasks, (t.file, t.handle) ∈ s.manager.retryTasks

/-- Every task in the map is unfinished. -/
def AllLive (s : RetryState) : Prop := ∀ e ∈ s.manager.retryTasks, ⟨e.2, e.1⟩ ∈ s.tasks

/-- What an operation does to the map: the files `dropped` lose their tasks, which are cancelled,
and the tasks `new` are entered. -/
structure Section.Remaps (m : StateManager) (sec : Section) (dropped : FileId → Prop)
    [DecidablePred dropped] (new : List RetryTask) : Prop where
  map : sec.manager.retryTasks =
    m.retryTasks.filter (¬ dropped ·.1) ++ new.map fun t => (t.file, t.handle)
  cancelled : ∀ h, h ∈ sec.cancelled ↔ ∃ id, dropped id ∧ (id, h) ∈ m.retryTasks
  fresh : new = [] ∧ m.nextTask ≤ sec.manager.nextTask ∨
    ∃ id, dropped id ∧ new = [⟨m.nextTask, id⟩] ∧ sec.manager.nextTask = m.nextTask + 1

section Tasks

variable {s : RetryState} {m : StateManager} {sec : Section} {id : FileId}
  {dropped : FileId → Prop} [DecidablePred dropped] {new : List RetryTask}

/-- A file has one task. -/
lemma eq_of_mem_retryTasks (h : Registered s) {i j : FileId} {a b : ℕ}
    (hi : (i, a) ∈ s.manager.retryTasks) (hj : (j, b) ∈ s.manager.retryTasks) :
    (i = j → a = b) ∧ (a = b → i = j) := by
  constructor
  · intro hij
    exact congrArg Prod.snd (List.inj_on_of_nodup_map h.keys hi hj hij)
  · intro hab
    exact congrArg Prod.fst (List.inj_on_of_nodup_map h.handles hi hj hab)

/-- **The property on the two structures**: the tasks are those of the map, whose files are those
with a retry, and no terminal record has one.

**Proof sketch.** The tasks are registered, so an entry of the map names the task of its file
(`eq_of_mem_retryTasks`). If the entries are unfinished tasks, the files of the map are those of
the tasks, and both forms of the property say the same, part by part. -/
lemma bookkept_iff_agree (h : Registered s) :
    Bookkept s ↔ AllLive s ∧
      (∀ id, id ∈ s.manager.retryTasks.map Prod.fst ↔ s.manager.HasRetry id) ∧
      ∀ id, s.manager.IsTerminal id → ¬ s.manager.HasRetry id := by
  constructor
  · intro hb
    have hlive : AllLive s := by
      rintro ⟨id, k⟩ he
      obtain ⟨⟨handle, file⟩, ht, rfl⟩ := hb.unfinished (id, k) he
      obtain rfl := (eq_of_mem_retryTasks h (h.registered _ ht) he).2 rfl
      exact ht
    refine ⟨hlive, fun id => ?_, fun id hterm hretry => hretry.2 (hb.terminal id hterm.1 hterm.2).1⟩
    rw [← hb.mapped id, List.mem_map]
    constructor
    · rintro ⟨⟨i, k⟩, he, rfl⟩
      exact ⟨_, hlive _ he, he⟩
    · rintro ⟨t, -, he⟩
      exact ⟨_, he, rfl⟩
  · rintro ⟨hlive, hmap, hterm⟩
    refine ⟨fun id => ?_, fun e he => ⟨_, hlive e he, rfl⟩, fun id hid hst => ⟨?_, ?_⟩⟩
    · rw [← hmap id, List.mem_map]
      constructor
      · rintro ⟨t, -, he⟩
        exact ⟨_, he, rfl⟩
      · rintro ⟨⟨i, k⟩, he, rfl⟩
        exact ⟨_, hlive _ he, he⟩
    · by_contra hretry
      exact hterm id ⟨hid, hst⟩ ⟨hid, hretry⟩
    · rintro t ht rfl
      exact hterm t.file ⟨hid, hst⟩
        ((hmap t.file).mp (List.mem_map_of_mem (h.registered t ht)))

/-- The entries of the map after an operation. -/
lemma mem_retryTasks_of_remaps (h : sec.Remaps m dropped new) {e : FileId × ℕ} :
    e ∈ sec.manager.retryTasks ↔
      e ∈ m.retryTasks ∧ ¬ dropped e.1 ∨ ∃ t ∈ new, e = (t.file, t.handle) := by
  rw [h.map, List.mem_append, List.mem_filter, List.mem_map, decide_eq_true_eq]
  exact or_congr_right (exists_congr fun t => and_congr_right fun _ => eq_comm)

/-- The tasks after an operation. -/
lemma mem_tasks_of_remaps (hreg : Registered s) (h : sec.Remaps s.manager dropped new)
    {t : RetryTask} :
    t ∈ (s.afterSection sec new).tasks ↔ t ∈ s.tasks ∧ ¬ dropped t.file ∨ t ∈ new := by
  simp only [RetryState.afterSection, List.mem_append, List.mem_filter, decide_eq_true_eq,
    h.cancelled]
  constructor
  · rintro (⟨ht, hnot⟩ | hnew)
    · exact .inl ⟨ht, fun hd => hnot ⟨t.file, hd, hreg.registered t ht⟩⟩
    · exact .inr hnew
  · rintro (⟨ht, hnot⟩ | hnew)
    · refine .inl ⟨ht, ?_⟩
      rintro ⟨i, hd, he⟩
      obtain rfl := (eq_of_mem_retryTasks hreg (hreg.registered t ht) he).2 rfl
      exact hnot hd
    · exact .inr hnew

/-- **An operation keeps the map and the tasks in step.**

**Proof sketch.** The keys and the handles are those kept of the old table and the new entry,
which has a key that was dropped and a handle that was not given before. A timer of the state was
there and not cancelled, so its entry was not dropped, or it is the new one. -/
lemma registered_afterSection (hreg : Registered s) (h : sec.Remaps s.manager dropped new) :
    Registered (s.afterSection sec new) where
  keys := by
    have hkeys := hreg.keys.sublist (List.Sublist.map Prod.fst
      (List.filter_sublist (p := fun e => decide (¬ dropped e.1)) (l := s.manager.retryTasks)))
    simp only [RetryState.afterSection, h.map, List.map_append]
    rcases h.fresh with ⟨rfl, -⟩ | ⟨i, hi, rfl, -⟩
    · simpa using hkeys
    · refine List.nodup_append.mpr ⟨hkeys, by simp, ?_⟩
      rintro a ha b hb rfl
      obtain ⟨e, he, rfl⟩ := List.mem_map.mp ha
      have hnot := (List.mem_filter.mp he).2
      simp only [List.map_cons, List.map_nil, List.mem_singleton] at hb
      rw [hb] at hnot
      exact (of_decide_eq_true hnot) hi
  handles := by
    have hhandles := hreg.handles.sublist (List.Sublist.map Prod.snd
      (List.filter_sublist (p := fun e => decide (¬ dropped e.1)) (l := s.manager.retryTasks)))
    simp only [RetryState.afterSection, h.map, List.map_append]
    rcases h.fresh with ⟨rfl, -⟩ | ⟨i, -, rfl, -⟩
    · simpa using hhandles
    · refine List.nodup_append.mpr ⟨hhandles, by simp, ?_⟩
      rintro a ha b hb rfl
      obtain ⟨e, he, rfl⟩ := List.mem_map.mp ha
      have hlt := hreg.given e (List.mem_of_mem_filter he)
      simp only [List.map_cons, List.map_nil, List.mem_singleton] at hb
      omega
  given := by
    intro e he
    simp only [RetryState.afterSection] at he ⊢
    rcases (mem_retryTasks_of_remaps h).mp he with ⟨he, -⟩ | ⟨t, ht, rfl⟩
    · have hlt := hreg.given e he
      rcases h.fresh with ⟨-, hle⟩ | ⟨i, -, -, hle⟩ <;> omega
    · rcases h.fresh with ⟨rfl, -⟩ | ⟨i, -, rfl, hle⟩
      · cases ht
      · rw [List.mem_singleton.mp ht, hle]
        exact Nat.lt_succ_self _
  registered := by
    intro t ht
    refine (mem_retryTasks_of_remaps h).mpr ?_
    rcases (mem_tasks_of_remaps hreg h).mp ht with ⟨ht, hnot⟩ | hnew
    · exact .inl ⟨hreg.registered t ht, hnot⟩
    · exact .inr ⟨t, hnew, rfl⟩

/-- An operation leaves no finished task in the map. -/
lemma allLive_afterSection (hreg : Registered s) (h : sec.Remaps s.manager dropped new)
    (hlive : AllLive s) : AllLive (s.afterSection sec new) := by
  intro e he
  refine (mem_tasks_of_remaps hreg h).mpr ?_
  rcases (mem_retryTasks_of_remaps h).mp he with ⟨he, hnot⟩ | ⟨t, ht, rfl⟩
  · exact .inl ⟨hlive e he, hnot⟩
  · exact .inr ht

/-- The files in the map after an operation. -/
lemma mem_keys_of_remaps (h : sec.Remaps m dropped new) :
    id ∈ sec.manager.retryTasks.map Prod.fst ↔
      id ∈ m.retryTasks.map Prod.fst ∧ ¬ dropped id ∨ ∃ t ∈ new, t.file = id := by
  simp only [List.mem_map]
  constructor
  · rintro ⟨e, he, rfl⟩
    rcases (mem_retryTasks_of_remaps h).mp he with ⟨he, hnot⟩ | ⟨t, ht, rfl⟩
    · exact .inl ⟨⟨e, he, rfl⟩, hnot⟩
    · exact .inr ⟨t, ht, rfl⟩
  · rintro (⟨⟨e, he, rfl⟩, hnot⟩ | ⟨t, ht, rfl⟩)
    · exact ⟨e, (mem_retryTasks_of_remaps h).mpr (.inl ⟨he, hnot⟩), rfl⟩
    · exact ⟨_, (mem_retryTasks_of_remaps h).mpr (.inr ⟨t, ht, rfl⟩), rfl⟩

end Tasks

/-! ## The operations one by one -/

section Operations

variable {m : StateManager} {now : ℕ} {id j : FileId} {status : FileStatus} {kwargs : List Attr}

/-- Cancelling a retry creates no timer. -/
lemma nextTask_cancelExistingRetry : (m.cancelExistingRetry id).manager.nextTask = m.nextTask := by
  simp only [cancelExistingRetry]
  split_ifs <;> rfl

/-- The timers cancelled are those the table names for the record. -/
lemma mem_cancelled_cancelExistingRetry {h : ℕ} :
    h ∈ (m.cancelExistingRetry id).cancelled ↔ (id, h) ∈ m.retryTasks := by
  simp [cancelExistingRetry]

/-- After the cancellation every record but this one has the retry it had. -/
lemma hasRetry_cancelExistingRetry :
    (m.cancelExistingRetry id).manager.HasRetry j ↔ m.HasRetry j ∧ j ≠ id := by
  simp only [HasRetry, files_cancelExistingRetry, heap_cancelExistingRetry]
  by_cases hid : id ∈ m.files
  · by_cases hj : j = id
    · subst hj; simp [hid, TrackedFile.clearRetry]
    · simp [hid, hj]
  · simp only [hid, if_false]
    constructor
    · rintro ⟨hj, hretry⟩
      exact ⟨⟨hj, hretry⟩, fun h => hid (h ▸ hj)⟩
    · exact And.left

/-- Cancelling a retry changes no status. -/
lemma isTerminal_cancelExistingRetry :
    (m.cancelExistingRetry id).manager.IsTerminal j ↔ m.IsTerminal j := by
  simp only [IsTerminal, files_cancelExistingRetry,
    heap_cancelExistingRetry_proj TrackedFile.status fun _ => rfl]

/-- `cancel_retry`. -/
lemma remaps_cancelExistingRetry : (m.cancelExistingRetry id).Remaps m (· = id) [] where
  map := by simp [cancelExistingRetry]
  cancelled := by simp [mem_cancelled_cancelExistingRetry]
  fresh := .inl ⟨rfl, nextTask_cancelExistingRetry.ge⟩

/-- `update_file_status_by_id` drops the task of a file that becomes terminal. -/
lemma remaps_updateFileStatusById :
    (m.updateFileStatusById now id status kwargs).Remaps m
      (fun j => j = id ∧ id ∈ m.files ∧ status.isTerminal = true) [] := by
  by_cases hid : id ∈ m.files
  · rw [updateFileStatusById_of_mem hid]
    by_cases hterm : status.isTerminal = true
    · constructor
      · simp [hid, hterm, StateManager.modify, withRepo, cancelExistingRetry]
      · simp [hid, hterm, mem_cancelled_cancelExistingRetry]
      · exact .inl ⟨rfl, by
          simp only [hterm, if_true]
          exact nextTask_cancelExistingRetry.ge⟩
    · exact ⟨by simp [hterm, StateManager.modify, withRepo], by simp [hterm],
        .inl ⟨rfl, by simp [hterm, StateManager.modify, withRepo]⟩⟩
  · rw [updateFileStatusById_of_not_mem hid]
    exact ⟨by simp [hid], by simp [hid], .inl ⟨rfl, le_rfl⟩⟩

/-- An update takes the `retry_info` away exactly when it writes a terminal status. -/
lemma retryInfo_applyUpdate (f : TrackedFile) :
    (f.applyUpdate now status kwargs).retryInfo =
      if status.isTerminal = true then none else f.retryInfo := by
  simp only [TrackedFile.applyUpdate]
  split_ifs <;> simp

/-- After an update every record has the retry it had, but for one that is given a terminal
status. -/
lemma hasRetry_updateFileStatusById :
    (m.updateFileStatusById now id status kwargs).manager.HasRetry j ↔
      m.HasRetry j ∧ ¬ (j = id ∧ id ∈ m.files ∧ status.isTerminal = true) := by
  simp only [HasRetry, files_updateFileStatusById]
  by_cases hid : id ∈ m.files
  · rw [heap_updateFileStatusById hid]
    by_cases hj : j = id
    · subst hj
      rw [Function.update_self, retryInfo_applyUpdate]
      by_cases hterm : status.isTerminal = true <;> simp [hterm, hid]
    · simp [hj]
  · rw [updateFileStatusById_of_not_mem hid]
    simp [hid]

/-- A record that is terminal after an update was so before, or has just been made so. -/
lemma isTerminal_updateFileStatusById
    (h : (m.updateFileStatusById now id status kwargs).manager.IsTerminal j) :
    j = id ∧ id ∈ m.files ∧ status.isTerminal = true ∨ m.IsTerminal j := by
  simp only [IsTerminal, files_updateFileStatusById, status_updateFileStatusById] at h ⊢
  obtain ⟨hj, hst⟩ := h
  split_ifs at hst with hid
  · exact .inl ⟨hid.1, hid.2, hst⟩
  · exact .inr ⟨hj, hst⟩

/-- An operation that leaves the map alone drops no task. -/
lemma remaps_of_retryTasks_eq {sec : Section} (hmap : sec.manager.retryTasks = m.retryTasks)
    (hcancelled : sec.cancelled = []) (hnext : sec.manager.nextTask = m.nextTask) :
    sec.Remaps m (fun _ => False) [] where
  map := by simp [hmap]
  cancelled := by simp [hcancelled]
  fresh := .inl ⟨rfl, hnext.ge⟩

/-- A record added has no retry, and no timer is created for it. -/
lemma remaps_addFile (path : FilePath) (size : ℕ) (lw : Option ℕ) :
    (m.addFile now path size lw).2.Remaps m (fun _ => False) [] := by
  rcases addFile_cases m now path size lw with ⟨-, hadd⟩ | ⟨-, hadd⟩ <;> rw [hadd] <;>
    exact remaps_of_retryTasks_eq rfl rfl rfl

/-- A new record has no retry and is not terminal. -/
lemma hasRetry_addFile (path : FilePath) (size : ℕ) (lw : Option ℕ) :
    ((m.addFile now path size lw).2.manager.HasRetry j ↔ m.HasRetry j) ∧
      ((m.addFile now path size lw).2.manager.IsTerminal j → m.IsTerminal j) := by
  rcases addFile_cases m now path size lw with ⟨-, hadd⟩ | ⟨-, hadd⟩ <;> rw [hadd]
  · exact ⟨Iff.rfl, id⟩
  · simp only [HasRetry, IsTerminal, files_withRepo, heap_withRepo, FileRepository.insert_files,
      List.mem_append, List.mem_singleton]
    by_cases hj : j = m.repo.nextId
    · subst hj
      have hnot : m.repo.nextId ∉ m.files := fun h => m.repo.ne_nextId h rfl
      rw [FileRepository.insert_heap_self]
      simp [hnot, TrackedFile.found, FileStatus.isTerminal]
    · simp [FileRepository.insert_heap_of_ne _ hj, hj]

/-- `cleanup_missing_files` keeps retries and timers. -/
lemma remaps_cleanupMissingFiles (paths : List FilePath) :
    (m.cleanupMissingFiles paths).Remaps m (fun _ => False) [] := by
  have hkeep : ∀ (ids : List FileId) (m : StateManager),
      (ids.foldl (fun m id => m.modify id TrackedFile.remove) m).retryTasks = m.retryTasks ∧
        (ids.foldl (fun m id => m.modify id TrackedFile.remove) m).nextTask = m.nextTask := by
    intro ids
    induction ids with
    | nil => exact fun m => ⟨rfl, rfl⟩
    | cons a ids ih => exact fun m => ih (m.modify a TrackedFile.remove)
  exact remaps_of_retryTasks_eq (hkeep _ _).1 rfl (hkeep _ _).2

/-- A record marked as missing keeps its retry, and is terminal. -/
lemma hasRetry_cleanupMissingFiles (paths : List FilePath) :
    ((m.cleanupMissingFiles paths).manager.HasRetry j ↔ m.HasRetry j) ∧
      ((m.cleanupMissingFiles paths).manager.IsTerminal j ↔
        m.IsTerminal j ∨ j ∈ m.missingFiles paths) := by
  simp only [HasRetry, IsTerminal, files_cleanupMissingFiles]
  rw [heap_cleanupMissingFiles]
  split_ifs with hj
  · have hfile := (mem_missingFiles hj).1
    simp [TrackedFile.remove, FileStatus.isTerminal, hj, hfile]
  · simp [hj]

/-- `cleanup_old_files` keeps retries and timers. -/
lemma remaps_cleanupOldFiles (hours : ℕ) :
    (m.cleanupOldFiles now hours).Remaps m (fun _ => False) [] :=
  remaps_of_retryTasks_eq rfl rfl rfl

/-- A record that is dropped has no retry, but its task stays in the map. -/
lemma hasRetry_cleanupOldFiles (hours : ℕ) :
    ((m.cleanupOldFiles now hours).manager.HasRetry j ↔
        m.HasRetry j ∧ j ∉ m.oldFiles now hours) ∧
      ((m.cleanupOldFiles now hours).manager.IsTerminal j → m.IsTerminal j) := by
  simp only [HasRetry, IsTerminal, mem_files_cleanupOldFiles, heap_cleanupOldFiles]
  tauto

/-- `schedule_retry` replaces the task of a stored file. -/
lemma remaps_scheduleRetry (delay : ℕ) (reason : String) :
    (m.scheduleRetry now id delay reason).2.Remaps m (fun j => j = id ∧ id ∈ m.files)
      (scheduledTask m (.scheduleRetry id delay reason)) := by
  by_cases hid : id ∈ m.files
  · simp only [scheduleRetry, FileRepository.getById_of_mem _ hid, scheduledTask, hid, if_true]
    exact ⟨by simp [cancelExistingRetry], by simp [mem_cancelled_cancelExistingRetry],
      .inr ⟨id, ⟨rfl, trivial⟩, rfl, rfl⟩⟩
  · simp only [scheduleRetry, FileRepository.getById_of_not_mem _ hid, scheduledTask, hid, if_false]
    exact ⟨by simp, by simp, .inl ⟨rfl, le_rfl⟩⟩

/-- Scheduling a retry gives one to the record, if it is stored, and changes no status. -/
lemma hasRetry_scheduleRetry (delay : ℕ) (reason : String) :
    ((m.scheduleRetry now id delay reason).2.manager.HasRetry j ↔
        m.HasRetry j ∨ j = id ∧ id ∈ m.files) ∧
      ((m.scheduleRetry now id delay reason).2.manager.IsTerminal j ↔ m.IsTerminal j) := by
  refine ⟨?_, by simp only [IsTerminal, files_scheduleRetry, status_scheduleRetry]⟩
  simp only [HasRetry, files_scheduleRetry]
  by_cases hid : id ∈ m.files
  · rw [heap_scheduleRetry hid]
    by_cases hj : j = id
    · subst hj
      simp [TrackedFile.setRetry, hid]
    · simp [hj]
  · simp [scheduleRetry, FileRepository.getById_of_not_mem _ hid, hid]

/-- Counting a retry keeps retries and timers. -/
lemma remaps_incrementRetryCount :
    (m.incrementRetryCount id).2.Remaps m (fun _ => False) [] := by
  unfold incrementRetryCount
  split <;> exact remaps_of_retryTasks_eq rfl rfl rfl

/-- Counting a retry gives none and takes none away. -/
lemma hasRetry_incrementRetryCount :
    ((m.incrementRetryCount id).2.manager.HasRetry j ↔ m.HasRetry j) ∧
      ((m.incrementRetryCount id).2.manager.IsTerminal j ↔ m.IsTerminal j) := by
  refine ⟨?_, by simp only [IsTerminal, files_incrementRetryCount, status_incrementRetryCount]⟩
  simp only [HasRetry, files_incrementRetryCount]
  have hinfo : ((m.incrementRetryCount id).2.manager.heap j).retryInfo = (m.heap j).retryInfo := by
    unfold incrementRetryCount
    split
    · rfl
    · exact FileRepository.modify_heap_proj _ TrackedFile.retryInfo _ _ _ fun _ => rfl
  rw [hinfo]

/-- Cancelling the retries of a list of files.

**Proof sketch.** By induction on the files, with any section so far. The first cancellation
removes its entry from the map and the retry from its record; the induction hypothesis removes
those of the others. -/
lemma foldl_cancelExistingRetry (ids : List FileId) (sec : Section) :
    let all := ids.foldl (fun sec id =>
      let cancel := sec.manager.cancelExistingRetry id
      ({ manager := cancel.manager, cancelled := sec.cancelled ++ cancel.cancelled } : Section)) sec
    all.manager.retryTasks = sec.manager.retryTasks.filter (·.1 ∉ ids) ∧
      (∀ h, h ∈ all.cancelled ↔ h ∈ sec.cancelled ∨ ∃ id ∈ ids, (id, h) ∈ sec.manager.retryTasks) ∧
      all.manager.nextTask = sec.manager.nextTask ∧
      ∀ j, (all.manager.HasRetry j ↔ sec.manager.HasRetry j ∧ j ∉ ids) ∧
        (all.manager.IsTerminal j ↔ sec.manager.IsTerminal j) := by
  induction ids generalizing sec with
  | nil => simp
  | cons a ids ih =>
    obtain ⟨hmap, hcancelled, hnext, hj⟩ := ih
      { manager := (sec.manager.cancelExistingRetry a).manager
        cancelled := sec.cancelled ++ (sec.manager.cancelExistingRetry a).cancelled }
    refine ⟨?_, fun h => ?_, hnext.trans nextTask_cancelExistingRetry, fun j => ?_⟩
    · rw [List.foldl_cons, hmap]
      simp only [cancelExistingRetry, List.filter_filter, List.mem_cons, not_or, Bool.decide_and]
      exact List.filter_congr fun e _ => Bool.and_comm _ _
    · rw [List.foldl_cons, hcancelled]
      simp only [List.mem_append, mem_cancelled_cancelExistingRetry]
      simp only [cancelExistingRetry, List.mem_filter, List.mem_cons]
      grind
    · rw [List.foldl_cons, (hj j).1, (hj j).2, hasRetry_cancelExistingRetry,
        isTerminal_cancelExistingRetry, List.mem_cons]
      exact ⟨by tauto, Iff.rfl⟩

/-- `cancel_all_retries` drops the tasks of all files with a retry. -/
lemma remaps_cancelAllRetries [DecidablePred m.HasRetry] :
    m.cancelAllRetries.Remaps m m.HasRetry [] := by
  obtain ⟨hmap, hcancelled, hnext, -⟩ := foldl_cancelExistingRetry
    (m.files.filter fun id => (m.heap id).retryInfo ≠ none) { manager := m }
  refine ⟨?_, fun h => ?_, .inl ⟨rfl, hnext.ge⟩⟩
  · simp only [cancelAllRetries, hmap, List.map_nil, List.append_nil]
    exact List.filter_congr fun e _ => by simp [HasRetry]
  · rw [cancelAllRetries, hcancelled]
    simp [HasRetry]

/-- Cancelling all retries leaves none and changes no status. -/
lemma hasRetry_cancelAllRetries :
    ¬ m.cancelAllRetries.manager.HasRetry j ∧
      (m.cancelAllRetries.manager.IsTerminal j ↔ m.IsTerminal j) := by
  obtain ⟨-, -, -, hj⟩ := foldl_cancelExistingRetry
    (m.files.filter fun id => (m.heap id).retryInfo ≠ none) { manager := m }
  refine ⟨?_, (hj j).2⟩
  rw [cancelAllRetries, (hj j).1]
  simp [HasRetry]

/-- A retry that fires drops its own task. -/
lemma remaps_executeRetryTask (hid : id ∈ m.files) (hst : (m.heap id).status = .waitingForSpace)
    (hretry : (m.heap id).retryInfo ≠ none) :
    (m.executeRetryTask id).manager.retryTasks = m.retryTasks.filter (·.1 ≠ id) ∧
      (m.executeRetryTask id).manager.nextTask = m.nextTask ∧
      ∀ j, ((m.executeRetryTask id).manager.HasRetry j ↔ m.HasRetry j ∧ j ≠ id) ∧
        ((m.executeRetryTask id).manager.IsTerminal j ↔ m.IsTerminal j) := by
  have hsec := executeRetryTask_of_waiting hid hst hretry
  have hfiles : (m.executeRetryTask id).manager.files = m.files := by
    rw [hsec]
    rfl
  have hheap : (m.executeRetryTask id).manager.heap =
      Function.update m.heap id (m.heap id).retried := by
    rw [hsec]
    rfl
  refine ⟨by rw [hsec], by rw [hsec]; rfl, fun j => ?_⟩
  simp only [HasRetry, IsTerminal, hfiles, hheap]
  by_cases hj : j = id
  · subst hj
    simp [TrackedFile.retried, hst, FileStatus.isTerminal]
  · simp [hj]

end Operations

/-! ## One step -/

section Steps

variable {s s' : RetryState} {sec : Section} {dropped : FileId → Prop} [DecidablePred dropped]
  {new : List RetryTask} {handle : ℕ}

/-- An operation keeps the bookkeeping if it changes the files with a retry as it changes the map,
and leaves no retry at a terminal record. -/
lemma bookkept_afterSection_iff (hreg : Registered s) (h : sec.Remaps s.manager dropped new)
    (hb : Bookkept s) :
    Bookkept (s.afterSection sec new) ↔
      (∀ id, sec.manager.HasRetry id ↔
        s.manager.HasRetry id ∧ ¬ dropped id ∨ ∃ t ∈ new, t.file = id) ∧
      ∀ id, sec.manager.IsTerminal id → ¬ sec.manager.HasRetry id := by
  obtain ⟨hlive, hmap, -⟩ := (bookkept_iff_agree hreg).mp hb
  rw [bookkept_iff_agree (registered_afterSection hreg h)]
  have hkeys : ∀ id, id ∈ (s.afterSection sec new).manager.retryTasks.map Prod.fst ↔
      s.manager.HasRetry id ∧ ¬ dropped id ∨ ∃ t ∈ new, t.file = id := by
    intro id
    rw [← hmap id]
    exact mem_keys_of_remaps h
  simp only [hkeys, allLive_afterSection hreg h hlive, true_and]
  exact and_congr_left fun _ => forall_congr' fun id => Iff.comm

/-- A timer found by its handle is one of the timers and has that handle. -/
lemma mem_tasks_of_find {t : RetryTask} (h : s.tasks.find? (·.handle = handle) = some t) :
    t ∈ s.tasks ∧ t.handle = handle :=
  ⟨List.mem_of_find?_eq_some h, by simpa using List.find?_some h⟩

/-- A task that ends without leaving the map breaks the bookkeeping. -/
lemma not_bookkept_of_end {t : RetryTask} (hreg : Registered s) (ht : t ∈ s.tasks)
    (hhandle : t.handle = handle) : ¬ Bookkept (s.afterEnd s.manager handle) := by
  intro hb
  obtain ⟨u, hu, hsame⟩ := hb.unfinished _ (hreg.registered t ht)
  have hne := (List.mem_filter.mp hu).2
  simp [hsame, hhandle] at hne

/-- The timers stay registered when one of them ends without an operation. -/
lemma registered_afterEnd (hreg : Registered s) :
    Registered (s.afterEnd s.manager handle) where
  keys := hreg.keys
  handles := hreg.handles
  given := hreg.given
  registered := fun t ht => hreg.registered t (List.mem_of_mem_filter ht)

/-- A retry that fires keeps the map and the tasks in step: both lose its task. -/
lemma registered_fired {t : RetryTask} {m : StateManager} (hreg : Registered s) (ht : t ∈ s.tasks)
    (hhandle : t.handle = handle)
    (hmap : m.retryTasks = s.manager.retryTasks.filter (·.1 ≠ t.file))
    (hnext : m.nextTask = s.manager.nextTask) : Registered (s.afterEnd m handle) where
  keys := by
    simp only [RetryState.afterEnd, hmap]
    exact hreg.keys.sublist (List.filter_sublist.map _)
  handles := by
    simp only [RetryState.afterEnd, hmap]
    exact hreg.handles.sublist (List.filter_sublist.map _)
  given := by
    intro e he
    simp only [RetryState.afterEnd, hmap, hnext] at he ⊢
    exact hreg.given e (List.mem_of_mem_filter he)
  registered := by
    intro u hu
    obtain ⟨hu, hne⟩ := List.mem_filter.mp hu
    simp only [RetryState.afterEnd, hmap, List.mem_filter]
    refine ⟨hreg.registered u hu, ?_⟩
    have hfile : u.file ≠ t.file := by
      intro hsame
      have := (eq_of_mem_retryTasks hreg (hreg.registered u hu) (hreg.registered t ht)).1 hsame
      simp [this, hhandle] at hne
    simpa using hfile

/-- What the calls do to the map. -/
lemma exists_remaps_call (m : StateManager) (now : ℕ) (c : ServiceCall)
    (hc : ∀ id, c ≠ .executeRetryTask id) :
    ∃ (dropped : FileId → Prop) (_ : DecidablePred dropped),
      (m.call now c).Remaps m dropped (scheduledTask m c) := by
  cases c with
  | addFile path size lw => exact ⟨_, inferInstance, remaps_addFile path size lw⟩
  | updateFileStatusById id status kwargs => exact ⟨_, inferInstance, remaps_updateFileStatusById⟩
  | cleanupMissingFiles paths => exact ⟨_, inferInstance, remaps_cleanupMissingFiles paths⟩
  | cleanupOldFiles hours => exact ⟨_, inferInstance, remaps_cleanupOldFiles hours⟩
  | scheduleRetry id delay reason => exact ⟨_, inferInstance, remaps_scheduleRetry delay reason⟩
  | executeRetryTask id => exact absurd rfl (hc id)
  | incrementRetryCount id => exact ⟨_, inferInstance, remaps_incrementRetryCount⟩

/-- A call is a step, unless it is the section of a retry. -/
lemma retryStep_call {now : ℕ} {c : ServiceCall} (hs : retryStep s (.call now c) = some s') :
    (∀ id, c ≠ .executeRetryTask id) ∧
      s' = s.afterSection (s.manager.call now c) (scheduledTask s.manager c) := by
  cases c <;> simp_all [retryStep]

/-- A task that fires: its record waits for space and leaves the map with the task, or nothing but
the end of the task happens. -/
lemma retryStep_fire (hs : retryStep s (.fire handle) = some s') :
    ∃ t ∈ s.tasks, t.handle = handle ∧
      (s' = s.afterEnd (s.manager.executeRetryTask t.file).manager handle ∧
          t.file ∈ s.manager.files ∧ (s.manager.heap t.file).status = .waitingForSpace ∧
          (s.manager.heap t.file).retryInfo ≠ none ∨
        s' = s.afterEnd s.manager handle ∧
          (s.manager.HasRetry t.file → (s.manager.heap t.file).status ≠ .waitingForSpace)) := by
  obtain ⟨t, hfind, rfl⟩ := Option.map_eq_some_iff.mp hs
  obtain ⟨ht, hhandle⟩ := mem_tasks_of_find hfind
  refine ⟨t, ht, hhandle, ?_⟩
  by_cases hfire : t.file ∈ s.manager.files ∧
      (s.manager.heap t.file).status = .waitingForSpace ∧
      (s.manager.heap t.file).retryInfo ≠ none
  · exact .inl ⟨rfl, hfire⟩
  · right
    have hsame : s.manager.executeRetryTask t.file = { manager := s.manager } := by
      rcases executeRetryTask_cases s.manager t.file with h | ⟨hid, hst, hinfo, -⟩
      · exact h
      · exact absurd ⟨hid, hst, hinfo⟩ hfire
    rw [hsame]
    exact ⟨rfl, fun hretry hst => hfire ⟨hretry.1, hst, hretry.2⟩⟩

/-- **The step lemma for the map.** -/
lemma registered_step {a : RetryAction} (hreg : Registered s) (hs : retryStep s a = some s') :
    Registered s' := by
  cases a with
  | call now c =>
    obtain ⟨hc, rfl⟩ := retryStep_call hs
    obtain ⟨dropped, _, hmap⟩ := exists_remaps_call s.manager now c hc
    exact registered_afterSection hreg hmap
  | cancelRetry id =>
    cases hs
    exact registered_afterSection hreg remaps_cancelExistingRetry
  | cancelAllRetries =>
    cases hs
    classical exact registered_afterSection hreg remaps_cancelAllRetries
  | fire handle =>
    obtain ⟨t, ht, hhandle, ⟨rfl, hid, hst, hinfo⟩ | ⟨rfl, -⟩⟩ := retryStep_fire hs
    · obtain ⟨hmap, hnext, -⟩ := remaps_executeRetryTask hid hst hinfo
      exact registered_fired hreg ht hhandle hmap hnext
    · exact registered_afterEnd hreg
  | cancelTask handle =>
    obtain ⟨t, -, rfl⟩ := Option.map_eq_some_iff.mp hs
    exact registered_afterEnd hreg

/-- An operation that keeps the map, the retries and the set of terminal records keeps the
bookkeeping. -/
lemma bookkept_of_same (hreg : Registered s) (h : sec.Remaps s.manager (fun _ => False) [])
    (hb : Bookkept s)
    (hsame : ∀ id, (sec.manager.HasRetry id ↔ s.manager.HasRetry id) ∧
      (sec.manager.IsTerminal id → s.manager.IsTerminal id)) :
    Bookkept (s.afterSection sec []) := by
  rw [bookkept_afterSection_iff hreg h hb]
  obtain ⟨-, -, hterm⟩ := (bookkept_iff_agree hreg).mp hb
  refine ⟨fun id => by simpa using (hsame id).1, fun id hst hretry => ?_⟩
  exact hterm id ((hsame id).2 hst) ((hsame id).1.mp hretry)

/-- A retry that fires keeps the bookkeeping: its record loses the retry as its task ends.

**Proof sketch.** By `bookkept_iff_agree` on both sides. The entry of the file is gone, so is the
retry of its record, and every other entry names another task (`eq_of_mem_retryTasks`), which the
end of this one leaves. -/
lemma bookkept_fired {t : RetryTask} {m : StateManager} (hreg : Registered s) (hb : Bookkept s)
    (ht : t ∈ s.tasks) (hhandle : t.handle = handle)
    (hmap : m.retryTasks = s.manager.retryTasks.filter (·.1 ≠ t.file))
    (hnext : m.nextTask = s.manager.nextTask)
    (hretries : ∀ j, (m.HasRetry j ↔ s.manager.HasRetry j ∧ j ≠ t.file) ∧
      (m.IsTerminal j ↔ s.manager.IsTerminal j)) : Bookkept (s.afterEnd m handle) := by
  obtain ⟨hlive, hmapped, hterm⟩ := (bookkept_iff_agree hreg).mp hb
  rw [bookkept_iff_agree (registered_fired hreg ht hhandle hmap hnext)]
  simp only [AllLive, RetryState.afterEnd, hmap]
  refine ⟨fun e he => ?_, fun id => ?_, fun id hst hretry => ?_⟩
  · obtain ⟨he, hne⟩ := List.mem_filter.mp he
    refine List.mem_filter.mpr ⟨hlive e he, ?_⟩
    have hother : e.2 ≠ handle := by
      intro hsame
      have := (eq_of_mem_retryTasks hreg he (hreg.registered t ht)).2 (hsame.trans hhandle.symm)
      simp [this] at hne
    simpa using hother
  · rw [(hretries id).1, ← hmapped id]
    simp only [List.mem_map, List.mem_filter, decide_eq_true_eq]
    constructor
    · rintro ⟨e, ⟨he, hne⟩, rfl⟩
      exact ⟨⟨e, he, rfl⟩, hne⟩
    · rintro ⟨⟨e, he, rfl⟩, hne⟩
      exact ⟨e, ⟨he, hne⟩, rfl⟩
  · exact hterm id ((hretries id).2.mp hst) ((hretries id).1.mp hretry).1

/-- **The calls**: a call keeps the bookkeeping exactly under the condition.

**Proof sketch.** By cases on the operation, each of which `Remaps` the table and is described by
its `hasRetry` lemma. Most drop the entry and the retry together. The clean-ups keep the entry of
a record that they make terminal or drop, so they break the books exactly where such a record has
a retry; a schedule breaks them exactly for a record that is terminal. -/
lemma bookkept_call_iff {now : ℕ} {c : ServiceCall} (hreg : Registered s) (hb : Bookkept s)
    (hc : ∀ id, c ≠ .executeRetryTask id) :
    Bookkept (s.afterSection (s.manager.call now c) (scheduledTask s.manager c)) ↔
      RetriesKept s (.call now c) := by
  obtain ⟨-, -, hterm⟩ := (bookkept_iff_agree hreg).mp hb
  cases c with
  | addFile path size lw =>
    exact iff_of_true (bookkept_of_same hreg (remaps_addFile path size lw) hb
      fun id => hasRetry_addFile path size lw) trivial
  | updateFileStatusById id status kwargs =>
    refine iff_of_true ((bookkept_afterSection_iff hreg remaps_updateFileStatusById hb).mpr
      ⟨fun j => by simpa using hasRetry_updateFileStatusById, fun j hst hretry => ?_⟩) trivial
    obtain ⟨hretry, hnot⟩ := hasRetry_updateFileStatusById.mp hretry
    rcases isTerminal_updateFileStatusById hst with hdrop | hst
    · exact hnot hdrop
    · exact hterm j hst hretry
  | cleanupMissingFiles paths =>
    -- the files marked are terminal now, and keep their `retry_info`
    refine (bookkept_afterSection_iff hreg (remaps_cleanupMissingFiles paths) hb).trans ?_
    constructor
    · rintro ⟨-, hnone⟩ id hid
      by_contra hinfo
      refine hnone id ((hasRetry_cleanupMissingFiles paths).2.mpr (.inr hid)) ?_
      exact (hasRetry_cleanupMissingFiles paths).1.mpr ⟨(mem_missingFiles hid).1, hinfo⟩
    · intro hnone
      refine ⟨fun j => by simpa using (hasRetry_cleanupMissingFiles paths).1,
        fun j hst hretry => ?_⟩
      have hretry := (hasRetry_cleanupMissingFiles paths).1.mp hretry
      rcases (hasRetry_cleanupMissingFiles paths).2.mp hst with hst | hmissing
      · exact hterm j hst hretry
      · exact hretry.2 (hnone j hmissing)
  | cleanupOldFiles hours =>
    -- the files dropped leave their tasks in the map
    refine (bookkept_afterSection_iff hreg (remaps_cleanupOldFiles hours) hb).trans ?_
    have hdropped : ∀ j, (s.manager.cleanupOldFiles now hours).manager.HasRetry j ↔
        s.manager.HasRetry j ∧ j ∉ s.manager.oldFiles now hours :=
      fun j => (hasRetry_cleanupOldFiles hours).1
    constructor
    · rintro ⟨hkept, -⟩ id hid
      by_contra hinfo
      have hretry : s.manager.HasRetry id := ⟨List.mem_of_mem_filter hid, hinfo⟩
      exact ((hdropped id).mp ((hkept id).mpr (.inl ⟨hretry, not_false⟩))).2 hid
    · intro hnone
      refine ⟨fun j => ?_, fun j hst hretry => ?_⟩
      · have hold : s.manager.HasRetry j → j ∉ s.manager.oldFiles now hours :=
          fun hretry hj => hretry.2 (hnone j hj)
        simpa using (hdropped j).trans ⟨And.left, fun hretry => ⟨hretry, hold hretry⟩⟩
      · exact hterm j ((hasRetry_cleanupOldFiles hours).2 hst) ((hdropped j).mp hretry).1
  | scheduleRetry id delay reason =>
    refine (bookkept_afterSection_iff hreg (remaps_scheduleRetry delay reason) hb).trans ?_
    have hretries : ∀ j, (s.manager.scheduleRetry now id delay reason).2.manager.HasRetry j ↔
        s.manager.HasRetry j ∨ j = id ∧ id ∈ s.manager.files :=
      fun j => (hasRetry_scheduleRetry delay reason).1
    constructor
    · rintro ⟨-, hnone⟩ hid
      by_contra hst
      rw [Bool.not_eq_false] at hst
      exact hnone id ((hasRetry_scheduleRetry delay reason).2.mpr ⟨hid, hst⟩)
        ((hretries id).mpr (.inr ⟨rfl, hid⟩))
    · intro hst
      refine ⟨fun j => (hretries j).trans ?_, fun j hterminal hretry => ?_⟩
      · by_cases hid : id ∈ s.manager.files
        · simp only [scheduledTask, hid, if_true, and_true, List.mem_singleton, exists_eq_left]
          by_cases hj : j = id
          · simp [hj]
          · simp [hj, Ne.symm hj]
        · simp [scheduledTask, hid]
      · have hbefore : s.manager.IsTerminal j :=
          (hasRetry_scheduleRetry delay reason).2.mp hterminal
        rcases (hretries j).mp hretry with hretry | ⟨rfl, hid⟩
        · exact hterm j hbefore hretry
        · exact Bool.noConfusion ((hst hid).symm.trans hbefore.2)
  | executeRetryTask id => exact absurd rfl (hc id)
  | incrementRetryCount id =>
    exact iff_of_true (bookkept_of_same hreg remaps_incrementRetryCount hb
      fun j => ⟨hasRetry_incrementRetryCount.1, hasRetry_incrementRetryCount.2.mp⟩) trivial

/-- **The step lemma**: a step keeps the bookkeeping exactly under the condition.

**Proof sketch.** By cases on the step. A call is `bookkept_call_iff`. Cancellations remove the
retries with the entries, so they keep the bookkeeping. A timer that fires keeps it if the record
waits for space (`bookkept_fired`), and otherwise ends while its retry stays; so does a task that
is cancelled from outside. -/
theorem bookkept_step_iff {a : RetryAction} (hreg : Registered s) (hb : Bookkept s)
    (hs : retryStep s a = some s') : Bookkept s' ↔ RetriesKept s a := by
  obtain ⟨hlive, hmap, hterm⟩ := (bookkept_iff_agree hreg).mp hb
  cases a with
  | call now c =>
    obtain ⟨hc, rfl⟩ := retryStep_call hs
    exact bookkept_call_iff hreg hb hc
  | cancelRetry id =>
    cases hs
    refine iff_of_true ((bookkept_afterSection_iff hreg remaps_cancelExistingRetry hb).mpr
      ⟨fun j => by simpa using hasRetry_cancelExistingRetry, fun j hst hretry => ?_⟩) trivial
    exact hterm j (isTerminal_cancelExistingRetry.mp hst) (hasRetry_cancelExistingRetry.mp hretry).1
  | cancelAllRetries =>
    cases hs
    classical
    refine iff_of_true ((bookkept_afterSection_iff hreg remaps_cancelAllRetries hb).mpr
      ⟨fun j => ?_, fun j _ hretry => hasRetry_cancelAllRetries.1 hretry⟩) trivial
    simpa using hasRetry_cancelAllRetries.1
  | fire handle =>
    obtain ⟨t, ht, hhandle, hfired⟩ := retryStep_fire hs
    have hretry : s.manager.HasRetry t.file :=
      (hmap t.file).mp (List.mem_map_of_mem (hreg.registered t ht))
    rcases hfired with ⟨rfl, hid, hst, hinfo⟩ | ⟨rfl, hnot⟩
    · obtain ⟨hmapped, hnext, hretries⟩ := remaps_executeRetryTask hid hst hinfo
      refine iff_of_true (bookkept_fired hreg hb ht hhandle hmapped hnext hretries) ?_
      intro u hu hsame
      have hfile := (eq_of_mem_retryTasks hreg (hreg.registered u hu) (hreg.registered t ht)).2
        (hsame.trans hhandle.symm)
      rw [hfile]
      exact hst
    · refine iff_of_false (not_bookkept_of_end hreg ht hhandle) fun hwait => ?_
      exact hnot hretry (hwait t ht hhandle)
  | cancelTask handle =>
    obtain ⟨t, hfind, rfl⟩ := Option.map_eq_some_iff.mp hs
    obtain ⟨ht, hhandle⟩ := mem_tasks_of_find hfind
    exact iff_of_false (not_bookkept_of_end hreg ht hhandle) id

end Steps

/-! ## The runs -/

/-- The start: an empty repository and no retries. -/
def RetryState.initial : RetryState := { manager := { repo := .empty } }

/-- At the start no timer is registered and none is there. -/
lemma registered_initial : Registered .initial := by
  constructor <;> simp [RetryState.initial]

/-- At the start no record is stored, so the books are in order. -/
lemma bookkept_initial : Bookkept .initial := by
  constructor <;> simp [RetryState.initial, StateManager.HasRetry, FileRepository.empty]

section Runs

variable {s : RetryState} {tr : List (RetryState × RetryAction)}

/-- **The bookkeeping over runs**: the map, the tasks and the records agree in every state of a run
exactly if every step of the run meets the condition.

**Proof sketch.** `Registered` is kept by every step (`registered_step`), and a step from a state in
which they agree keeps the agreement exactly under the condition (`bookkept_step_iff`). -/
theorem bookkept_iff (hr : Run retryStep .initial tr s) :
    ((∀ p ∈ tr, Bookkept p.1) ∧ Bookkept s) ↔ Meets RetriesKept tr :=
  hr.forall_states_iff registered_initial bookkept_initial
    (fun _ _ _ hreg hs => registered_step hreg hs)
    (fun _ _ _ hreg hb hs => bookkept_step_iff hreg hb hs)

/-- A file that waits for space, whose retry fires. -/
def spaceRetry : List RetryAction :=
  [.call 0 (.addFile "/src/a.mxf" 1 none), .call 0 (.updateFileStatusById 0 .waitingForSpace []),
    .call 0 (.scheduleRetry 0 5 "Space shortage"), .fire 0]

/-- A retry that is scheduled and fires. -/
theorem bookkept_spaceRetry :
    ∃ s, ((∀ p ∈ traceOf retryStep .initial spaceRetry, Bookkept p.1) ∧ Bookkept s) ∧
      s.tasks = [] ∧ (s.manager.heap 0).status = .ready := by
  obtain ⟨s, hr, hp⟩ := exists_run_of_replay retryStep .initial
    spaceRetry (fun (s : RetryState) =>
      decide (s.tasks = [] ∧ (s.manager.heap 0).status = .ready)) (by decide +kernel)
  exact ⟨s, (bookkept_iff hr).mpr (by decide +kernel), by simpa using hp⟩

/-- A file that waits for space, whose path is gone when the source is scanned. -/
def missingFile : List RetryAction :=
  [.call 0 (.addFile "/src/a.mxf" 1 none), .call 0 (.updateFileStatusById 0 .waitingForSpace []),
    .call 0 (.scheduleRetry 0 5 "Space shortage"), .call 0 (.cleanupMissingFiles [])]

/-- The file is marked `REMOVED` and keeps its `retry_info` and its task. -/
theorem missing_file_keeps_retry :
    ¬ ∀ (tr : List (RetryState × RetryAction)) (s : RetryState),
      Run retryStep .initial tr s → Bookkept s := by
  intro hall
  obtain ⟨s, hr, hp⟩ := exists_run_of_replay retryStep .initial
    missingFile (fun (s : RetryState) =>
      decide (0 ∈ s.manager.files ∧ (s.manager.heap 0).status = .removed ∧
        (s.manager.heap 0).retryInfo ≠ none)) (by decide +kernel)
  obtain ⟨hid, hst, hinfo⟩ : 0 ∈ s.manager.files ∧ (s.manager.heap 0).status = .removed ∧
    (s.manager.heap 0).retryInfo ≠ none := by simpa using hp
  exact hinfo ((hall _ _ hr).terminal 0 hid (by rw [hst]; rfl)).1

end Runs

end FileAgent

import FileAgent.EventEcho

set_option relaxedAutoImplicit false
set_option autoImplicit false

/-!
# The event log and the repository

The operations of the state manager one after another, each with the whole publication of its events
before the next one. A publication appends the event to the log, runs the manager's own handler, and
runs the one of `WebSocketManager`, which sends a `file_update` to the clients if the record is
still stored. A client keeps the records it was sent by their ids, as `fileStore.js` does.

## Main definitions

* `BusState`, `BusAction`, `busStep` — the operations and the publications.
* `Announced` — between two operations the log and the clients have the statuses of the records.
* `ChangesPublished` — the condition on the steps.

## Main results

* `announced_iff` — the statuses are announced exactly in the runs that meet the condition.
* `missing_file_not_announced` — a record marked as missing, without an event.
-/

namespace FileAgent

open Transition StateManager

/-! ## The system -/

/-- The data of a `file_update` message. -/
structure FileUpdate where
  filePath : FilePath
  oldStatus : Option FileStatus
  newStatus : FileStatus
  /-- The id of the serialized record. -/
  fileId : FileId
  file : TrackedFile

/-- `handle_file_status_changed_event` of `WebSocketManager`: the message for an event, if its
record is stored. -/
def StateManager.fileUpdate (m : StateManager) (e : FileStatusChangedEvent) : Option FileUpdate :=
  (m.repo.getById e.fileId).map fun file => ⟨e.filePath, e.oldStatus, e.newStatus, e.fileId, file⟩

/-- The manager, the events of the last operation that are yet to be published, the log, and the
messages sent to the clients. -/
structure BusState where
  manager : StateManager
  pending : List FileStatusChangedEvent := []
  published : List FileStatusChangedEvent := []
  forwarded : List FileUpdate := []

/-- An operation, or the publication of the next event. The two handlers of an event run in either
order. -/
inductive BusAction
  | call (now : ℕ) (c : ServiceCall)
  | publish (now : ℕ) (forwardFirst : Bool)

/-- One step. An operation starts when all events are published. -/
def busStep (s : BusState) : BusAction → Option BusState
  | .call now c =>
    match s.pending with
    | [] =>
      let sec := s.manager.call now c
      some { s with manager := sec.manager, pending := sec.statusEvents }
    | _ :: _ => none
  | .publish now forwardFirst =>
    match s.pending with
    | [] => none
    | e :: rest =>
      let sec := s.manager.handleFileStatusChanged now e
      let seen := if forwardFirst then s.manager else sec.manager
      some
        { manager := sec.manager
          pending := sec.statusEvents ++ rest
          published := s.published ++ [e]
          forwarded := s.forwarded ++ (seen.fileUpdate e).toList }

/-! ## The property -/

/-- The status in the last entry of a log that is about the record `id`. -/
def lastStatus {β : Type*} (key : β → FileId) (status : β → FileStatus) (id : FileId)
    (log : List β) :
    Option FileStatus :=
  log.foldl (fun last b => if key b = id then some (status b) else last) none

namespace BusState

/-- The `new_status` of the last event published for `id`. -/
abbrev lastPublished (s : BusState) (id : FileId) : Option FileStatus :=
  lastStatus FileStatusChangedEvent.fileId FileStatusChangedEvent.newStatus id s.published

/-- The status of `id` in the map of a client. -/
abbrev clientStatus (s : BusState) (id : FileId) : Option FileStatus :=
  lastStatus FileUpdate.fileId (fun u => u.file.status) id s.forwarded

end BusState

/-- Between two operations, every stored record has the status of the last event published for it,
and the clients have that status too. -/
def Announced (s : BusState) : Prop :=
  s.pending = [] → ∀ id ∈ s.manager.files,
    s.lastPublished id = some (s.manager.heap id).status ∧
      s.clientStatus id = some (s.manager.heap id).status

/-- A retry that finds its record waiting for space. -/
def StateManager.RetryFires (m : StateManager) (id : FileId) : Prop :=
  id ∈ m.files ∧ (m.heap id).status = .waitingForSpace ∧ (m.heap id).retryInfo ≠ none

/-- The condition on a step. No file is marked as missing, and no retry fires. -/
def ChangesPublished (s : BusState) : BusAction → Prop
  | .call _ (.cleanupMissingFiles paths) => s.manager.missingFiles paths = []
  | .call _ (.executeRetryTask id) => ¬ s.manager.RetryFires id
  | _ => True

instance (s : BusState) : (a : BusAction) → Decidable (ChangesPublished s a)
  | .call _ (.cleanupMissingFiles paths) =>
    inferInstanceAs (Decidable (s.manager.missingFiles paths = []))
  | .call _ (.executeRetryTask id) => inferInstanceAs (Decidable
      (¬ (id ∈ s.manager.files ∧ (s.manager.heap id).status = .waitingForSpace ∧
        (s.manager.heap id).retryInfo ≠ none)))
  | .call _ (.addFile ..) | .call _ (.updateFileStatusById ..) | .call _ (.cleanupOldFiles _)
  | .call _ (.scheduleRetry ..) | .call _ (.incrementRetryCount _) | .publish .. => .isTrue trivial

/-! ## Logs -/

section Logs

variable {β : Type*} {key : β → FileId} {status : β → FileStatus} {id : FileId} {log new : List β}

/-- The last status after one more entry. -/
lemma lastStatus_concat (b : β) :
    lastStatus key status id (log ++ [b]) =
      if key b = id then some (status b) else lastStatus key status id log := by
  simp [lastStatus, List.foldl_append]

/-- Entries about other records do not matter. -/
lemma lastStatus_append_of_forall_ne (h : ∀ b ∈ new, key b ≠ id) :
    lastStatus key status id (log ++ new) = lastStatus key status id log := by
  induction new using List.reverseRecOn with
  | nil => rw [List.append_nil]
  | append_singleton new b ih =>
    rw [← List.append_assoc, lastStatus_concat, if_neg (h b (by simp))]
    exact ih fun c hc => h c (List.mem_append_left _ hc)

/-- The last of several entries with one status. -/
lemma lastStatus_append_of_forall_eq {x : FileStatus} (h : ∀ b ∈ new, key b = id → status b = x)
    (hmem : ∃ b ∈ new, key b = id) : lastStatus key status id (log ++ new) = some x := by
  induction new using List.reverseRecOn with
  | nil => simp at hmem
  | append_singleton new b ih =>
    rw [← List.append_assoc, lastStatus_concat]
    split_ifs with hb
    · rw [h b (by simp) hb]
    · refine ih (fun c hc => h c (List.mem_append_left _ hc)) ?_
      obtain ⟨c, hc, hkey⟩ := hmem
      rcases List.mem_append.mp hc with hc | hc
      · exact ⟨c, hc, hkey⟩
      · rw [List.mem_singleton.mp hc] at hkey
        exact absurd hkey hb

end Logs

/-! ## What the operations announce -/

/-- An operation announces its changes: its events have the statuses of the records, and a record
without an event keeps its status. -/
structure Section.Announces (m : StateManager) (sec : Section) : Prop where
  events : ∀ e ∈ sec.statusEvents,
    e.fileId ∈ sec.manager.files ∧ (sec.manager.heap e.fileId).status = e.newStatus
  others : ∀ id ∈ sec.manager.files, (∀ e ∈ sec.statusEvents, e.fileId ≠ id) →
    id ∈ m.files ∧ (sec.manager.heap id).status = (m.heap id).status

section Sections

variable {m : StateManager} {sec : Section} {now : ℕ} {id : FileId} {status : FileStatus}
  {kwargs : List Attr}

/-- An operation that writes no status has nothing to announce. -/
lemma announces_of_status_eq (hevents : sec.statusEvents = [])
    (hfiles : ∀ id ∈ sec.manager.files, id ∈ m.files)
    (hstatus : ∀ id, (sec.manager.heap id).status = (m.heap id).status) : sec.Announces m where
  events := by simp [hevents]
  others := fun id hid _ => ⟨hfiles id hid, hstatus id⟩

/-- An update announces every status it changes. -/
lemma announces_updateFileStatusById :
    (m.updateFileStatusById now id status kwargs).Announces m where
  events := by
    intro e he
    rw [statusEvents_updateFileStatusById] at he
    split_ifs at he with hchange
    · rw [List.mem_singleton.mp he]
      simp [hchange.1, status_updateFileStatusById]
    · cases he
  others := by
    intro j hj hnone
    rw [files_updateFileStatusById] at hj
    refine ⟨hj, ?_⟩
    rw [statusEvents_updateFileStatusById] at hnone
    rw [status_updateFileStatusById]
    split_ifs with hid
    · obtain ⟨rfl, hid⟩ := hid
      -- without an event the record had the status already
      by_contra hchange
      rw [if_pos ⟨hid, Ne.symm hchange⟩] at hnone
      exact hnone _ (List.mem_singleton_self _) rfl
    · rfl

/-- A record that is added is announced. -/
lemma announces_addFile (path : FilePath) (size : ℕ) (lw : Option ℕ) :
    (m.addFile now path size lw).2.Announces m := by
  rcases addFile_cases m now path size lw with ⟨-, hadd⟩ | ⟨-, hadd⟩ <;> rw [hadd]
  · exact announces_of_status_eq rfl (fun _ h => h) fun _ => rfl
  · constructor
    · simp [Section.statusEvents, TrackedFile.found]
    · intro id hid hnone
      have hne : id ≠ m.repo.nextId := by
        rintro rfl
        exact hnone ⟨_, path, none, .discovered⟩ (by simp [Section.statusEvents]) rfl
      simp only [files_withRepo, FileRepository.insert_files, List.mem_append,
        List.mem_singleton, hne, or_false] at hid
      exact ⟨hid, by rw [heap_withRepo, FileRepository.insert_heap_of_ne _ hne]⟩

/-- `cleanup_missing_files` announces what it does if nothing is missing. -/
lemma announces_cleanupMissingFiles {paths : List FilePath} (h : m.missingFiles paths = []) :
    (m.cleanupMissingFiles paths).Announces m := by
  have hsame : m.cleanupMissingFiles paths = { manager := m } := by
    simp [cleanupMissingFiles, h]
  rw [hsame]
  exact announces_of_status_eq rfl (fun _ h => h) fun _ => rfl

/-- A retry announces what it does if it makes no record READY. -/
lemma announces_executeRetryTask (h : ¬ m.RetryFires id) : (m.executeRetryTask id).Announces m := by
  rcases executeRetryTask_cases m id with hsame | ⟨hid, hst, hinfo, -⟩
  · rw [hsame]
    exact announces_of_status_eq rfl (fun _ h => h) fun _ => rfl
  · exact absurd ⟨hid, hst, hinfo⟩ h

/-- Scheduling a retry announces nothing. -/
lemma statusEvents_scheduleRetry (delay : ℕ) (reason : String) :
    (m.scheduleRetry now id delay reason).2.statusEvents = [] := by
  unfold scheduleRetry
  split <;> rfl

/-- Counting a retry announces nothing. -/
lemma statusEvents_incrementRetryCount : (m.incrementRetryCount id).2.statusEvents = [] := by
  unfold incrementRetryCount
  split <;> rfl

/-- **The operations**: under the condition an operation announces its changes. -/
lemma announces_call {s : BusState} {c : ServiceCall} (h : ChangesPublished s (.call now c)) :
    (s.manager.call now c).Announces s.manager := by
  cases c with
  | addFile path size lw => exact announces_addFile path size lw
  | updateFileStatusById id status kwargs => exact announces_updateFileStatusById
  | cleanupMissingFiles paths => exact announces_cleanupMissingFiles h
  | cleanupOldFiles hours =>
    refine announces_of_status_eq rfl (fun id hid => ?_) fun id => ?_
    · exact (mem_files_cleanupOldFiles.mp hid).1
    · simp [call]
  | scheduleRetry id delay reason =>
    refine announces_of_status_eq (statusEvents_scheduleRetry delay reason) ?_ fun id =>
      status_scheduleRetry delay reason
    simp [call]
  | executeRetryTask id => exact announces_executeRetryTask h
  | incrementRetryCount id =>
    refine announces_of_status_eq statusEvents_incrementRetryCount ?_ fun id =>
      status_incrementRetryCount
    simp [call]

end Sections

/-! ## The invariant -/

/-- The events that are yet to be published carry the statuses of their records, the log with them
has the statuses of all records, and the clients have what the log has. -/
structure Logged (s : BusState) : Prop where
  pending : ∀ e ∈ s.pending,
    e.fileId ∈ s.manager.files ∧ (s.manager.heap e.fileId).status = e.newStatus
  logged : ∀ id ∈ s.manager.files,
    lastStatus FileStatusChangedEvent.fileId FileStatusChangedEvent.newStatus id
      (s.published ++ s.pending) = some (s.manager.heap id).status
  clients : ∀ id, s.clientStatus id = s.lastPublished id

section Steps

variable {s s' : BusState} {now : ℕ} {c : ServiceCall}

/-- Records that agree with the whole log are announced once the bus is empty. -/
lemma announced_of_logged (h : Logged s) : Announced s := by
  intro hquiet id hid
  have hlog := h.logged id hid
  rw [hquiet, List.append_nil] at hlog
  exact ⟨hlog, (h.clients id).trans hlog⟩

/-- An operation runs when nothing is pending. -/
lemma busStep_call (hs : busStep s (.call now c) = some s') :
    s.pending = [] ∧ s' = { s with
      manager := (s.manager.call now c).manager
      pending := (s.manager.call now c).statusEvents } := by
  simp only [busStep] at hs
  split at hs
  · rename_i hquiet
    exact ⟨hquiet, (Option.some.inj hs).symm⟩
  · cases hs

/-- An operation that announces its changes keeps the invariant. -/
lemma logged_call (h : Logged s) (hann : (s.manager.call now c).Announces s.manager)
    (hs : busStep s (.call now c) = some s') : Logged s' := by
  obtain ⟨hquiet, rfl⟩ := busStep_call hs
  refine ⟨hann.events, fun id hid => ?_, h.clients⟩
  by_cases habout : ∃ e ∈ (s.manager.call now c).statusEvents, e.fileId = id
  · refine lastStatus_append_of_forall_eq (fun e he hkey => ?_) habout
    rw [← hkey]
    exact (hann.events e he).2.symm
  · have hnone : ∀ e ∈ (s.manager.call now c).statusEvents, e.fileId ≠ id :=
      fun e he hkey => habout ⟨e, he, hkey⟩
    obtain ⟨hbefore, hsame⟩ := hann.others id hid hnone
    have hlog := h.logged id hbefore
    rw [hquiet, List.append_nil] at hlog
    exact (lastStatus_append_of_forall_ne hnone).trans (hlog.trans (congrArg some hsame.symm))

/-- Publishing an event that carries the status of its record changes no status and causes no
further event.

**Proof sketch.** The StateManager handles the event by writing its status to the record, which
has it already: so nothing changes and no event is created. What is forwarded is read before or
after this write, and both times the record has the status of the event. -/
lemma busStep_publish (h : Logged s) {forwardFirst : Bool}
    (hs : busStep s (.publish now forwardFirst) = some s') :
    ∃ e rest, s.pending = e :: rest ∧ s'.pending = rest ∧ s'.published = s.published ++ [e] ∧
      (∃ u : FileUpdate, s'.forwarded = s.forwarded ++ [u] ∧ u.fileId = e.fileId ∧
        u.file.status = e.newStatus) ∧
      s'.manager.files = s.manager.files ∧
      ∀ id, (s'.manager.heap id).status = (s.manager.heap id).status := by
  simp only [busStep] at hs
  split at hs
  · cases hs
  · rename_i e rest hpending
    obtain ⟨hid, hst⟩ := h.pending e (by rw [hpending]; exact List.mem_cons_self)
    have hstatus : ∀ id, ((s.manager.handleFileStatusChanged now e).manager.heap id).status =
        (s.manager.heap id).status := by
      intro id
      rw [status_updateFileStatusById]
      split_ifs with hsame
      · rw [hsame.1, hst]
      · rfl
    obtain rfl := (Option.some.inj hs).symm
    refine ⟨e, rest, hpending, ?_, rfl, ?_, files_updateFileStatusById, hstatus⟩
    · simp [statusEvents_updateFileStatusById, hst]
    · refine ⟨⟨e.filePath, e.oldStatus, e.newStatus, e.fileId, (if forwardFirst then s.manager else
        (s.manager.handleFileStatusChanged now e).manager).heap e.fileId⟩, ?_, rfl, ?_⟩
      · cases forwardFirst <;> simp [fileUpdate, FileRepository.getById, hid]
      · cases forwardFirst
        · exact (hstatus e.fileId).trans hst
        · exact hst

/-- Publishing keeps the agreement with the log. -/
lemma logged_publish (h : Logged s) {forwardFirst : Bool}
    (hs : busStep s (.publish now forwardFirst) = some s') : Logged s' := by
  obtain ⟨e, rest, hpending, hrest, hpublished, ⟨u, hforwarded, huid, hust⟩, hfiles, hstatus⟩ :=
    busStep_publish h hs
  constructor
  · intro e' he'
    rw [hrest] at he'
    rw [hfiles, hstatus]
    exact h.pending e' (by rw [hpending]; exact List.mem_cons_of_mem _ he')
  · intro id hid
    rw [hfiles] at hid
    have hlog := h.logged id hid
    rw [hpending] at hlog
    rw [hpublished, hrest, hstatus, List.append_assoc]
    exact hlog
  · intro id
    have hclient := h.clients id
    simp only [BusState.clientStatus, BusState.lastPublished] at hclient ⊢
    rw [hforwarded, hpublished, lastStatus_concat, lastStatus_concat, huid, hust, hclient]

/-- A step that meets the condition keeps the invariant. -/
lemma logged_step {a : BusAction} (h : Logged s) (hok : ChangesPublished s a)
    (hs : busStep s a = some s') : Logged s' := by
  cases a with
  | call now c => exact logged_call h (announces_call hok) hs
  | publish now forwardFirst => exact logged_publish h hs

/-- A change of status without an event. -/
lemma not_announced_of_silent (h : Logged s) (hs : busStep s (.call now c) = some s')
    (hsilent : (s.manager.call now c).statusEvents = []) {id : FileId} (hid : id ∈ s.manager.files)
    (hkept : id ∈ (s.manager.call now c).manager.files)
    (hchange : ((s.manager.call now c).manager.heap id).status ≠ (s.manager.heap id).status) :
    ¬ Announced s' := by
  obtain ⟨hquiet, rfl⟩ := busStep_call hs
  intro hann
  have hlog := h.logged id hid
  rw [hquiet, List.append_nil] at hlog
  exact hchange (Option.some.inj ((hann hsilent id hkept).1.symm.trans hlog))

/-- A step that does not meet the condition loses a change.

**Proof sketch.** Only two calls violate the condition. `cleanup_missing_files` makes a record
REMOVED that was not, and `_execute_retry_task` makes a waiting one READY; neither creates an
event, so the last one about the record is out of date (`not_announced_of_silent`). -/
lemma not_announced_step {a : BusAction} (h : Logged s) (hnot : ¬ ChangesPublished s a)
    (hs : busStep s a = some s') : ¬ Announced s' := by
  cases a with
  | call now c =>
    cases c with
    | cleanupMissingFiles paths =>
      obtain ⟨id, hid⟩ := List.exists_mem_of_ne_nil _ hnot
      obtain ⟨hfile, hkept⟩ := mem_missingFiles hid
      refine not_announced_of_silent h hs rfl hfile (by simpa [call] using hfile) ?_
      simp only [call, heap_cleanupMissingFiles, hid, if_true, TrackedFile.remove]
      intro hsame
      rw [← hsame] at hkept
      exact absurd hkept (by decide)
    | executeRetryTask id =>
      obtain ⟨hid, hst, hinfo⟩ := not_not.mp hnot
      have hsec := executeRetryTask_of_waiting hid hst hinfo
      have hheap : (s.manager.executeRetryTask id).manager.heap =
          Function.update s.manager.heap id (s.manager.heap id).retried := by
        rw [hsec]
        rfl
      refine not_announced_of_silent h hs ?_ hid ?_ ?_
      · simp only [call, hsec]
        rfl
      · simp only [call, hsec]
        exact hid
      · simp only [call, hheap, Function.update_self, hst, TrackedFile.retried]
        decide
    | addFile | updateFileStatusById | cleanupOldFiles | scheduleRetry | incrementRetryCount =>
      exact absurd trivial hnot
  | publish now forwardFirst => exact absurd trivial hnot

end Steps

/-! ## The runs -/

/-- The start: an empty repository and an empty log. -/
def BusState.initial : BusState := { manager := { repo := .empty } }

/-- At the start there are no records and no log. -/
lemma logged_initial : Logged .initial where
  pending := fun _ he => absurd he List.not_mem_nil
  logged := fun _ hid => absurd hid List.not_mem_nil
  clients := fun _ => rfl

section Runs

variable {s : BusState} {tr : List (BusState × BusAction)}

/-- **The log over runs**: the statuses are announced between all operations of a run exactly if no
step of it marks a file as missing or fires a retry.

**Proof sketch.** `Logged` is kept by the steps that meet the condition (`logged_step`), and any
other step changes a status without an event (`not_announced_step`). -/
theorem announced_iff (hr : Run busStep .initial tr s) :
    ((∀ p ∈ tr, Announced p.1) ∧ Announced s) ↔ Meets ChangesPublished tr :=
  hr.forall_states_iff_of logged_initial (fun _ h => announced_of_logged h)
    (fun _ _ _ h hok hs => logged_step h hok hs)
    (fun _ _ _ h hnot hs => not_announced_step h hnot hs)

/-- A file that is found and becomes `READY`. -/
def foundAndReady : List BusAction :=
  [.call 0 (.addFile "/src/a.mxf" 1 none), .publish 0 true,
    .call 1 (.updateFileStatusById 0 .ready []), .publish 1 false]

/-- Its last status is that of the log. -/
theorem announced_foundAndReady :
    ∃ s, ((∀ p ∈ traceOf busStep .initial foundAndReady, Announced p.1) ∧ Announced s) ∧
      s.pending = [] ∧ s.manager.files = [0] ∧ s.lastPublished 0 = some .ready := by
  obtain ⟨s, hr, hp⟩ := exists_run_of_replay busStep .initial
    foundAndReady (fun (s : BusState) =>
      decide (s.pending = [] ∧ s.manager.files = [0] ∧ s.lastPublished 0 = some .ready))
    (by decide +kernel)
  exact ⟨s, (announced_iff hr).mpr (by decide +kernel), by simpa using hp⟩

/-- A file that is found, and whose path is gone when the source is scanned again. -/
def foundAndMissing : List BusAction :=
  [.call 0 (.addFile "/src/a.mxf" 1 none), .publish 0 true, .call 1 (.cleanupMissingFiles [])]

/-- The file is `REMOVED`, and the log says `DISCOVERED`. -/
theorem missing_file_not_announced :
    ¬ ∀ (tr : List (BusState × BusAction)) (s : BusState), Run busStep .initial tr s →
      Announced s := by
  intro hall
  obtain ⟨s, hr, hp⟩ := exists_run_of_replay busStep .initial
    foundAndMissing (fun (s : BusState) =>
      decide (s.pending = [] ∧ 0 ∈ s.manager.files ∧ (s.manager.heap 0).status = .removed ∧
        s.lastPublished 0 = some .discovered)) (by decide +kernel)
  obtain ⟨hquiet, hid, hst, hlast⟩ : s.pending = [] ∧ 0 ∈ s.manager.files ∧
    (s.manager.heap 0).status = .removed ∧ s.lastPublished 0 = some .discovered := by simpa using hp
  have hann := (hall _ _ hr hquiet 0 hid).1
  rw [hlast, hst] at hann
  exact absurd hann (by decide)

end Runs

end FileAgent

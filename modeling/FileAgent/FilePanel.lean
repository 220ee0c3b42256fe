import FileAgent.Announcements
import FileAgent.BrowserStatistics
import FileAgent.Library.PastTime
import FileAgent.System

set_option relaxedAutoImplicit false
set_option autoImplicit false

/-!
# The file list of the browser

`app/static/js/stores/fileStore.js` shows the records of the server, by their ids. A client that
connects is sent all records, and from then on the handler of `WebSocketManager` for each
`FileStatusChangedEvent` sends the record of the event as it finds it. Meanwhile the whole program
goes on, and the connection may be lost and made again.

One client is connected at a time, so that a handler sends the record in the step in which it reads
it. The initial state lists the records in one step and takes the statistics in a later one, in
which it is sent; the lock of the state manager serves its waiters in turn, so that a handler that
starts in between waits until it is sent. The progress of a copy is sent on its own and touches no
status; it is left out.

## Main definitions

* `FileStore.updateFile` — what the store does with a record.
* `FilePanel`, `filePanelStep` — the program, the events, the messages and the store.
* `ChangesSilently`, `Refreshes` — the changes that are not published, and the steps after which
  the client is up to date.

## Main results

* `status_perform_announced` — the operations that change a status without an event.
* `filePanelInv_step` — the step lemma.
* `file_list_converges` — what the client has of each record.
-/

namespace FileAgent

open Transition StateManager

/-! ## The store -/

namespace FileStore

/-- `addFile`. -/
def addFile (store : FileStore) (file : SerializedFile) : FileStore :=
  updateStatisticsFromFiles { store with items := setItem file store.items }

/-- `updateFile` with all fields of a record: `Object.assign` overwrites those of the old one. -/
def updateFile (store : FileStore) (fileId : FileId) (partialFile : SerializedFile) : FileStore :=
  if fileId ∈ store.items.map SerializedFile.id then
    updateStatisticsFromFiles
      { store with items := store.items.map fun f => if f.id = fileId then partialFile else f }
  else store.addFile partialFile

/-- The status that is shown for an id. -/
def shownStatus (store : FileStore) (id : FileId) : Option String :=
  (store.items.find? fun f => f.id = id).map SerializedFile.status

end FileStore

/-- A message to the client, as far as the store reads it. -/
inductive FileMessage
  | initialState (data : InitialState)
  | fileUpdate (file : SerializedFile)

/-- `handleMessage`. -/
def FileStore.handleMessage (store : FileStore) : FileMessage → FileStore
  | .initialState data => store.handleInitialState data
  | .fileUpdate file => store.updateFile file.id file

/-! ## The panel -/

/-- The connection of the client. `_send_initial_state` has listed the files `ids`, and waits for
the statistics. -/
inductive FileConnection
  | closed
  | connected
  | listed (ids : List FileId)
  | initialStateSent
  deriving DecidableEq

/-- The program, the events whose handlers have not read their records, the messages that are on
their way, and the store. -/
structure FilePanel where
  system : System
  events : List FileStatusChangedEvent := []
  connection : FileConnection := .closed
  inFlight : List FileMessage := []
  store : FileStore := {}

/-- The steps: one of the program, the handler of an event, those of the connection, and the receipt
of a message. -/
inductive FilePanelAction
  | system (a : SystemAction)
  | handleFileStatusChangedEvent (k : ℕ)
  | connect
  | getAllFiles
  | sendInitialState
  | receive
  | disconnect

/-- The event that a task is publishing. -/
def Task.publishing? (t : Task) : Option FileStatusChangedEvent :=
  match t.phase with
  | .publishing e _ => some e
  | _ => none

/-- The status events of a step: those of the operation, and one that the task publishes itself. -/
def System.statusEvents (cfg : Settings) (s : System) : SystemAction → List FileStatusChangedEvent
  | .createQueue | .subscribe => []
  | .run i now env =>
    match s.tasks[i]? with
    | none => []
    | some t =>
      let (sec, answer) := s.perform cfg now (t.nextOp cfg)
      let published :=
        if sec.published.isSome then none
        else (t.goOn cfg (s.view sec now env) sec.published answer).bind Task.publishing?
      sec.statusEvents ++ published.toList

/-- `_serialize_tracked_file`, as far as the store reads it. -/
def StateManager.serialized (m : StateManager) (id : FileId) : SerializedFile :=
  ⟨id, (m.heap id).status.value⟩

/-- The message of `_send_initial_state` for the files that it has listed. -/
def StateManager.initialMessage (m : StateManager) (ids : List FileId) : FileMessage :=
  .initialState { (initialState m 0) with files := ids.map m.serialized }

/-- The message for an event, if its record is stored. -/
def StateManager.updateMessage? (m : StateManager) (e : FileStatusChangedEvent) :
    Option FileMessage :=
  if e.fileId ∈ m.files then some (.fileUpdate (m.serialized e.fileId)) else none

/-- `get_file_by_id` waits behind `get_statistics` for the lock, if the record was stored after the
files were listed. -/
def FilePanel.waits (p : FilePanel) (id : FileId) : Bool :=
  match p.connection with
  | .listed ids => id ∉ ids ∧ id ∈ p.system.manager.files
  | _ => false

/-- There is a client in the list of connections. -/
def FileConnection.isOpen : FileConnection → Bool
  | .closed => false
  | _ => true

/-- One step. -/
def filePanelStep (cfg : Settings) (p : FilePanel) : FilePanelAction → Option FilePanel
  | .system a =>
    (systemStep cfg p.system a).map fun s =>
      { p with system := s, events := p.events ++ p.system.statusEvents cfg a }
  | .handleFileStatusChangedEvent k =>
    p.events[k]?.bind fun e =>
      if p.waits e.fileId then none
      else
        some
          { p with
            events := p.events.eraseIdx k
            inFlight := if p.connection.isOpen then
                p.inFlight ++ (p.system.manager.updateMessage? e).toList
              else p.inFlight }
  | .connect => if p.connection.isOpen then none else some { p with connection := .connected }
  | .getAllFiles =>
    match p.connection with
    | .connected => some { p with connection := .listed p.system.manager.files }
    | _ => none
  | .sendInitialState =>
    match p.connection with
    | .listed ids =>
      some
        { p with
          connection := .initialStateSent
          inFlight := p.inFlight ++ [p.system.manager.initialMessage ids] }
    | _ => none
  | .receive =>
    match p.inFlight with
    | [] => none
    | message :: rest => some { p with inFlight := rest, store := p.store.handleMessage message }
  | .disconnect => some { p with connection := .closed, inFlight := [] }

namespace FilePanel

/-- The start, with the page just loaded. -/
def start (maxConcurrentCopies : ℕ) : FilePanel where
  system := .start maxConcurrentCopies

/-- The store when the messages in flight have come. -/
def delivered (p : FilePanel) : FileStore := p.inFlight.foldl FileStore.handleMessage p.store

end FilePanel

/-! ## Changes and messages -/

/-- The operation writes the status of a record without an event. -/
def Op.Silences (m : StateManager) (id : FileId) : Op → Prop
  | .call (.cleanupMissingFiles paths) => id ∈ m.missingFiles paths
  | .call (.executeRetryTask i) => i = id ∧ m.RetryFires id
  | _ => False

/-- In the step `cleanup_missing_files` marks the record, or its retry fires. -/
def ChangesSilently (cfg : Settings) (id : FileId) (x : FilePanel × FilePanelAction) : Prop :=
  ∃ i now env t, x.2 = .system (.run i now env) ∧ x.1.system.tasks[i]? = some t ∧
    (t.nextOp cfg).Silences x.1.system.manager id

/-- In the step an event about the record is published, or the record is sent. -/
def Refreshes (cfg : Settings) (id : FileId) : FilePanel × FilePanelAction → Prop
  | (p, .system a) => ∃ e ∈ p.system.statusEvents cfg a, e.fileId = id
  | (p, .handleFileStatusChangedEvent k) => ∃ e, p.events[k]? = some e ∧ e.fileId = id
  | (_, .sendInitialState) => True
  | _ => False

/-! ## What the store shows -/

section Store

variable {store : FileStore} {file : SerializedFile} {files items : List SerializedFile}
  {id : FileId}

/-- Counting the statistics anew keeps the statuses shown. -/
@[simp] lemma shownStatus_updateStatisticsFromFiles :
    (store.updateStatisticsFromFiles).shownStatus id = store.shownStatus id := rfl

/-- The item found after one is put into the list. -/
lemma find?_setItem : (setItem file items).find? (fun f => f.id = id) =
    if file.id = id then some file else items.find? fun f => f.id = id := by
  induction items with
  | nil => by_cases h : file.id = id <;> simp [setItem, h]
  | cons f rest ih =>
    rw [setItem]
    by_cases hsame : f.id = file.id
    · rw [if_pos hsame, List.find?_cons, List.find?_cons, hsame]
      by_cases h : file.id = id <;> simp [h]
    · rw [if_neg hsame, List.find?_cons, List.find?_cons, ih]
      by_cases hf : f.id = id
      · have h : ¬ file.id = id := fun h => hsame (hf.trans h.symm)
        simp [hf, h]
      · simp [hf]

/-- The item found after one of the list is replaced.

**Proof sketch.** By induction on the list. The first entry with the id of the file becomes the
file, and if no later one has this id, the rest is kept as it is. -/
lemma find?_assign (h : file.id ∈ items.map SerializedFile.id) :
    (items.map fun f => if f.id = file.id then file else f).find? (fun f => f.id = id) =
      if file.id = id then some file else items.find? fun f => f.id = id := by
  induction items with
  | nil => cases h
  | cons f rest ih =>
    rw [List.map_cons, List.find?_cons, List.find?_cons]
    by_cases hsame : f.id = file.id
    · rw [if_pos hsame, hsame]
      by_cases hid : file.id = id
      · simp [hid]
      · by_cases hrest : file.id ∈ rest.map SerializedFile.id
        · simpa [hid] using ih hrest
        · have hkeep : (rest.map fun f => if f.id = file.id then file else f) = rest := by
            refine (List.map_congr_left fun g hg => if_neg fun hgid => hrest ?_).trans
              (List.map_id rest)
            exact List.mem_map.mpr ⟨g, hg, hgid⟩
          simp [hid, hkeep]
    · have hrest : file.id ∈ rest.map SerializedFile.id := by
        rw [List.map_cons, List.mem_cons] at h
        exact h.resolve_left (Ne.symm hsame)
      rw [if_neg hsame, ih hrest]
      by_cases hf : f.id = id
      · have hid : ¬ file.id = id := fun hid => hsame (hf.trans hid.symm)
        simp [hf, hid]
      · simp [hf]

/-- **A record that is sent is shown**, and the others as they were. -/
lemma shownStatus_updateFile : (store.updateFile file.id file).shownStatus id =
    if file.id = id then some file.status else store.shownStatus id := by
  have hfound : (store.updateFile file.id file).items.find? (fun f => f.id = id) =
      if file.id = id then some file else store.items.find? fun f => f.id = id := by
    unfold FileStore.updateFile
    split_ifs with h
    · exact (find?_assign h).trans (if_pos ‹_›)
    · exact (find?_assign h).trans (if_neg ‹_›)
    · exact find?_setItem.trans (if_pos ‹_›)
    · exact find?_setItem.trans (if_neg ‹_›)
  rw [FileStore.shownStatus, hfound]
  split_ifs <;> rfl

/-- After the first message the status of each record in it is shown. -/
lemma shownStatus_handleInitialState (data : InitialState)
    (h : (data.files.map SerializedFile.id).Nodup) (hfile : file ∈ data.files) :
    (store.handleInitialState data).shownStatus file.id = some file.status := by
  have hitems : (store.handleInitialState data).items = data.files := foldl_setItem h
  rw [FileStore.shownStatus, hitems, BestPerKey.find?_key_of_mem SerializedFile.id h hfile,
    Option.map_some]

end Store

/-! ## What the operations announce -/

section Operations

variable {cfg : Settings} {m : StateManager} {now : ℕ} {c : ServiceCall} {o : Op} {id : FileId}

/-- A call that neither publishes nor silences a record has kept its status. -/
lemma status_call_announced (hid : id ∈ (m.call now c).manager.files)
    (hevents : ∀ e ∈ (m.call now c).statusEvents, e.fileId ≠ id)
    (hsilent : ¬ (Op.call c).Silences m id) :
    id ∈ m.files ∧ ((m.call now c).manager.heap id).status = (m.heap id).status := by
  have hothers : ChangesPublished { manager := m } (.call now c) →
      id ∈ m.files ∧ ((m.call now c).manager.heap id).status = (m.heap id).status :=
    fun hpublished => (announces_call hpublished).others id hid hevents
  cases c with
  | cleanupMissingFiles paths =>
    have hmissing : id ∉ m.missingFiles paths := hsilent
    rw [call, files_cleanupMissingFiles] at hid
    rw [call, heap_cleanupMissingFiles, if_neg hmissing]
    exact ⟨hid, rfl⟩
  | executeRetryTask i =>
    by_cases hi : i = id
    · exact hothers fun hfires => hsilent ⟨hi, hi ▸ hfires⟩
    · rcases executeRetryTask_cases m i with hsame | ⟨-, -, -, hheap, hfiles, -⟩
      · rw [call, hsame] at hid ⊢
        exact ⟨hid, rfl⟩
      · rw [call, hfiles] at hid
        rw [call, hheap, Function.update_of_ne (Ne.symm hi)]
        exact ⟨hid, rfl⟩
  | _ => exact hothers trivial

/-- **What is not announced**: a record that is stored after an operation without an event about it
was stored before, with its status, unless it has been marked as missing or its retry has fired.

**Proof sketch.** The other operations announce what they do (`announces_call`). -/
lemma status_perform_announced (hid : id ∈ (m.perform cfg now o).1.manager.files)
    (hevents : ∀ e ∈ (m.perform cfg now o).1.statusEvents, e.fileId ≠ id)
    (hsilent : ¬ o.Silences m id) :
    id ∈ m.files ∧ ((m.perform cfg now o).1.manager.heap id).status = (m.heap id).status := by
  cases o with
  | call c =>
    have hcall : (m.perform cfg now (.call c)).1 = m.call now c := by cases c <;> rfl
    rw [hcall] at hid hevents ⊢
    exact status_call_announced hid hevents hsilent
  | _ => exact ⟨hid, rfl⟩

/-- A record that is silenced is stored. -/
lemma mem_files_of_silences (h : o.Silences m id) : id ∈ m.files := by
  cases o with
  | call c =>
    cases c with
    | cleanupMissingFiles paths => exact (mem_missingFiles h).1
    | executeRetryTask i => exact h.2.1
    | _ => cases h
  | _ => cases h

end Operations

section Steps

variable {cfg : Settings} {s s' : System} {p p' : FilePanel} {a : SystemAction} {id : FileId}
  {tr : List (FilePanel × FilePanelAction)}

/-- **A record after a step of the program**: an event about it is published, or it was stored
before, and its status is the same or has been changed silently.

**Proof sketch.** A step of a task publishes an event about the record or silences it, or
`status_perform_announced` says that the record was stored with this status. No other action
changes a record. -/
lemma stored_systemStep (hs : systemStep cfg s a = some s') (hid : id ∈ s'.manager.files) :
    (∃ e ∈ s.statusEvents cfg a, e.fileId = id) ∨
      id ∈ s.manager.files ∧ ((s'.manager.heap id).status = (s.manager.heap id).status ∨
        ∃ i now env t, a = .run i now env ∧ s.tasks[i]? = some t ∧
          (t.nextOp cfg).Silences s.manager id) := by
  cases a with
  | run i now env =>
    obtain ⟨t, t', ht, -, -, rfl⟩ := systemStep_run hs
    by_cases hevents : ∃ e ∈ s.statusEvents cfg (.run i now env), e.fileId = id
    · exact Or.inl hevents
    right
    by_cases hsilent : (t.nextOp cfg).Silences s.manager id
    · exact ⟨mem_files_of_silences hsilent, Or.inr ⟨i, now, env, t, rfl, ht, hsilent⟩⟩
    have hnone : ∀ e ∈ (s.perform cfg now (t.nextOp cfg)).1.statusEvents, e.fileId ≠ id := by
      intro e he hfile
      refine hevents ⟨e, ?_, hfile⟩
      simp only [System.statusEvents, ht]
      exact List.mem_append_left _ he
    rw [perform_fst] at hnone
    have hsame := status_perform_announced (perform_fst (s := s) _ ▸ hid) hnone hsilent
    exact ⟨hsame.1, Or.inl (by simp only [perform_fst]; exact hsame.2)⟩
  | _ =>
    have hmanager := (systemStep_of_ne_run hs fun _ _ _ h => by cases h).1
    rw [hmanager] at hid ⊢
    exact Or.inr ⟨hid, Or.inl rfl⟩

end Steps

/-! ## The invariant -/

/-- An event about the record waits for its handler, or the client has been sent its status. -/
def FilePanel.UpToDate (p : FilePanel) (id : FileId) : Prop :=
  (∃ e ∈ p.events, e.fileId = id) ∨
    p.delivered.shownStatus id = some (p.system.manager.heap id).status.value

/-- What holds for the client while the initial state is prepared, and once it is sent. -/
structure FilePanelInv (cfg : Settings) (tr : List (FilePanel × FilePanelAction)) (p : FilePanel) :
    Prop where
  listed : ∀ ids, p.connection = .listed ids → ids.Nodup ∧
    ∀ id ∈ p.system.manager.files, id ∈ ids ∨ ∃ e ∈ p.events, e.fileId = id
  shown : p.connection = .initialStateSent → ∀ id ∈ p.system.manager.files, p.UpToDate id ∨
    Since (fun x => ¬ Refreshes cfg id x) (ChangesSilently cfg id) tr

section Invariant

variable {cfg : Settings} {p p' : FilePanel} {id : FileId} {k : ℕ} {e : FileStatusChangedEvent}
  {tr : List (FilePanel × FilePanelAction)}

/-- Before the files are listed there is nothing to hold. -/
lemma filePanelInv_of_ne (hlisted : ∀ ids, p.connection ≠ .listed ids)
    (hsent : p.connection ≠ .initialStateSent) : FilePanelInv cfg tr p :=
  ⟨fun ids hids => absurd hids (hlisted ids), fun h => absurd h hsent⟩

/-- A step of the program keeps the invariant. -/
lemma filePanelInv_system {a : SystemAction} {s : System} (h : FilePanelInv cfg tr p)
    (hs : systemStep cfg p.system a = some s) :
    FilePanelInv cfg (tr ++ [(p, .system a)])
      { p with system := s, events := p.events ++ p.system.statusEvents cfg a } where
  listed := by
    intro ids hids
    refine ⟨(h.listed ids hids).1, fun id hid => ?_⟩
    rcases stored_systemStep hs hid with ⟨e, he, hfile⟩ | ⟨hold, -⟩
    · exact Or.inr ⟨e, List.mem_append_right _ he, hfile⟩
    · refine ((h.listed ids hids).2 id hold).imp_right ?_
      rintro ⟨e, he, hfile⟩
      exact ⟨e, List.mem_append_left _ he, hfile⟩
  shown := by
    intro hsent id hid
    by_cases hpublished : ∃ e ∈ p.system.statusEvents cfg a, e.fileId = id
    · obtain ⟨e, he, hfile⟩ := hpublished
      exact Or.inl (Or.inl ⟨e, List.mem_append_right _ he, hfile⟩)
    rcases (stored_systemStep hs hid).resolve_left hpublished with
      ⟨hold, hsame | ⟨i, now, env, t, rfl, ht, hsilent⟩⟩
    · rcases h.shown hsent id hold with (⟨e, he, hfile⟩ | hshown) | hsince
      · exact Or.inl (Or.inl ⟨e, List.mem_append_left _ he, hfile⟩)
      · exact Or.inl (Or.inr (hshown.trans (by rw [hsame])))
      · exact Or.inr (hsince.snoc hpublished)
    · exact Or.inr (since_now ⟨i, now, env, t, rfl, ht, hsilent⟩)

/-- The events about other records wait on. -/
lemma mem_eraseIdx_of_ne (hk : p.events[k]? = some e) (hne : e.fileId ≠ id)
    (h : ∃ e' ∈ p.events, e'.fileId = id) : ∃ e' ∈ p.events.eraseIdx k, e'.fileId = id := by
  obtain ⟨e', he', hfile⟩ := h
  obtain ⟨j, hj⟩ := List.mem_iff_getElem?.mp he'
  refine ⟨e', List.mem_eraseIdx_iff_getElem?.mpr ⟨j, ?_, hj⟩, hfile⟩
  rintro rfl
  rw [hk] at hj
  exact hne (Option.some.inj hj ▸ hfile)

/-- The message for an event leads the store to the status that the record has. -/
lemma shownStatus_updateMessage (m : StateManager) (store : FileStore) (hid : id ∈ m.files) :
    ((m.updateMessage? e).toList.foldl FileStore.handleMessage store).shownStatus id =
      if e.fileId = id then some (m.heap id).status.value else store.shownStatus id := by
  unfold StateManager.updateMessage?
  by_cases hstored : e.fileId ∈ m.files
  · rw [if_pos hstored]
    refine shownStatus_updateFile.trans ?_
    by_cases he : e.fileId = id
    · rw [if_pos he, ← he]
      exact if_pos rfl
    · rw [if_neg he]
      exact if_neg he
  · have he : e.fileId ≠ id := fun he => hstored (he ▸ hid)
    rw [if_neg hstored, if_neg he]
    rfl

/-- The handler of an event keeps the invariant.

**Proof sketch.** The handler sends the status the record has now. So the record of the event is
shown as it is once the messages on their way are delivered, while the event and the message of
every other record are where they were. Where the client is being connected, the handler has not
waited, so the record was not in the list it is about to be sent. -/
lemma filePanelInv_handle (h : FilePanelInv cfg tr p) (hk : p.events[k]? = some e)
    (hwaits : p.waits e.fileId = false) :
    FilePanelInv cfg (tr ++ [(p, .handleFileStatusChangedEvent k)])
      { p with
        events := p.events.eraseIdx k
        inFlight := if p.connection.isOpen then
            p.inFlight ++ (p.system.manager.updateMessage? e).toList
          else p.inFlight } where
  listed := by
    intro ids hids
    have hconnection : p.connection = .listed ids := hids
    refine ⟨(h.listed ids hids).1, fun id hid => ?_⟩
    by_cases he : e.fileId = id
    · -- the handler has not waited
      left
      by_contra hnot
      rw [FilePanel.waits, hconnection, he] at hwaits
      simp [hnot, show id ∈ p.system.manager.files from hid] at hwaits
    · exact ((h.listed ids hids).2 id hid).imp_right (mem_eraseIdx_of_ne hk he)
  shown := by
    intro hsent id hid
    have hopen : p.connection.isOpen = true := by
      rw [show p.connection = .initialStateSent from hsent]
      rfl
    have hshown := shownStatus_updateMessage (e := e) p.system.manager p.delivered hid
    rw [FilePanel.delivered, ← List.foldl_append] at hshown
    by_cases he : e.fileId = id
    · rw [if_pos he] at hshown
      left
      right
      simpa only [FilePanel.delivered, hopen, if_true] using hshown
    · rw [if_neg he] at hshown
      rcases h.shown hsent id hid with (hwaiting | hold) | hsince
      · exact Or.inl (Or.inl (mem_eraseIdx_of_ne hk he hwaiting))
      · left
        right
        simp only [FilePanel.delivered, hopen, if_true]
        exact hshown.trans hold
      · refine Or.inr (hsince.snoc ?_)
        rintro ⟨e', he', hfile⟩
        rw [hk] at he'
        exact he (Option.some.inj he' ▸ hfile)

/-- The initial state leads the store to the statuses of the files that were listed. -/
lemma shownStatus_initialMessage {ids : List FileId} (m : StateManager) (store : FileStore)
    (hnodup : ids.Nodup) (hid : id ∈ ids) :
    (store.handleMessage (m.initialMessage ids)).shownStatus id =
      some (m.heap id).status.value := by
  have hids : ((ids.map m.serialized).map SerializedFile.id).Nodup := by
    rw [List.map_map]
    exact (List.map_id ids).symm ▸ hnodup
  have hfile : m.serialized id ∈ ids.map m.serialized := List.mem_map_of_mem hid
  exact shownStatus_handleInitialState
    { (initialState m 0) with files := ids.map m.serialized } hids hfile

/-- Sending the initial state establishes what holds from then on. -/
lemma filePanelInv_sendInitialState {ids : List FileId} (h : FilePanelInv cfg tr p)
    (hids : p.connection = .listed ids) :
    FilePanelInv cfg (tr ++ [(p, .sendInitialState)])
      { p with
        connection := .initialStateSent
        inFlight := p.inFlight ++ [p.system.manager.initialMessage ids] } where
  listed := fun _ h => by cases h
  shown := by
    intro _ id hid
    obtain ⟨hnodup, hlisted⟩ := h.listed ids hids
    left
    refine (hlisted id hid).symm.imp_right fun hmem => ?_
    rw [FilePanel.delivered, List.foldl_append]
    exact shownStatus_initialMessage _ _ hnodup hmem

/-- **The step lemma.**

**Proof sketch.** By cases on the action. A step of the system is `filePanelInv_system`, the
handler of an event `filePanelInv_handle` and the first message `filePanelInv_sendInitialState`. A
message that is received moves from those on their way to those delivered, and a connection that
begins or ends makes no promise. -/
lemma filePanelInv_step {a : FilePanelAction} (h : FilePanelInv cfg tr p)
    (hs : filePanelStep cfg p a = some p') : FilePanelInv cfg (tr ++ [(p, a)]) p' := by
  cases a with
  | system a =>
    obtain ⟨s, hstep, rfl⟩ := Option.map_eq_some_iff.mp hs
    exact filePanelInv_system h hstep
  | handleFileStatusChangedEvent k =>
    obtain ⟨e, hk, hs⟩ := Option.bind_eq_some_iff.mp hs
    by_cases hwaits : p.waits e.fileId = true
    · rw [if_pos hwaits] at hs
      cases hs
    · rw [if_neg hwaits] at hs
      obtain rfl := Option.some.inj hs
      exact filePanelInv_handle h hk (Bool.eq_false_of_not_eq_true hwaits)
  | connect =>
    simp only [filePanelStep] at hs
    split_ifs at hs
    obtain rfl := Option.some.inj hs
    exact filePanelInv_of_ne (fun _ h => by cases h) fun h => by cases h
  | getAllFiles =>
    simp only [filePanelStep] at hs
    split at hs
    · obtain rfl := Option.some.inj hs
      refine ⟨fun ids hids => ?_, fun h => (by cases h)⟩
      obtain rfl : p.system.manager.files = ids := by injection hids
      exact ⟨p.system.manager.repo.files_nodup, fun id hid => Or.inl hid⟩
    · cases hs
  | sendInitialState =>
    simp only [filePanelStep] at hs
    split at hs
    · obtain rfl := Option.some.inj hs
      exact filePanelInv_sendInitialState h ‹_›
    · cases hs
  | receive =>
    simp only [filePanelStep] at hs
    split at hs
    · cases hs
    · obtain rfl := Option.some.inj hs
      rename_i message rest hinFlight
      have hdelivered : p.delivered =
          rest.foldl FileStore.handleMessage (p.store.handleMessage message) := by
        rw [FilePanel.delivered, hinFlight, List.foldl_cons]
      refine ⟨h.listed, fun hsent id hid => ?_⟩
      rcases h.shown hsent id hid with (hwaiting | hshown) | hsince
      · exact Or.inl (Or.inl hwaiting)
      · rw [hdelivered] at hshown
        exact Or.inl (Or.inr hshown)
      · exact Or.inr (hsince.snoc fun h => h)
  | disconnect =>
    obtain rfl := Option.some.inj hs
    exact filePanelInv_of_ne (fun _ h => by cases h) fun h => by cases h

end Invariant

/-! ## Runs -/

section Runs

variable {cfg : Settings} {p : FilePanel} {n : ℕ} {tr : List (FilePanel × FilePanelAction)}

/-- **The file list converges**: however the services interleave, in whatever order the handlers of
the events run, and however often the connection is lost and made again, once a client has been sent
its initial state, for every stored record an event waits for its handler, or the messages in flight
lead the client to the status of the record; unless the record has been marked as missing, or its
retry has fired, and since then no event about it was published and it has not been sent.

**Proof sketch.** Whatever writes a status publishes an event, up to these two
(`status_perform_announced`), and the handler of an event reads the record when it sends it. The
initial state has the records that are stored when the files are listed; one that comes later has an
event, whose handler is served after the initial state. -/
theorem file_list_converges (hrun : Run (filePanelStep cfg) (.start n) tr p)
    (hsent : p.connection = .initialStateSent) :
    ∀ id ∈ p.system.manager.files, p.UpToDate id ∨
      Since (fun x => ¬ Refreshes cfg id x) (ChangesSilently cfg id) tr := by
  have hok : Meets (fun _ _ => True) tr := fun _ _ => trivial
  have hinv : FilePanelInv cfg tr p := by
    refine hrun.invariant_trace hok ?_ fun _ _ _ _ h _ hs => filePanelInv_step h hs
    exact filePanelInv_of_ne (fun _ h => by cases h) fun h => by cases h
  exact hinv.shown hsent

/-- A client connects; a file is found between the listing of the files and the initial state, and
the handler of its event comes after it. -/
def foundMeanwhile : List FilePanelAction :=
  startUp.map .system ++ [.connect, .getAllFiles] ++ (discoverFile 10).map .system ++
    [.sendInitialState, .handleFileStatusChangedEvent 0, .receive, .receive]

/-- The list for a file that is found while the client connects. -/
theorem file_list_converges_foundMeanwhile :
    ∃ tr p, Run (filePanelStep {}) (.start 1) tr p ∧ p.store.shownStatus 0 = some "Discovered" ∧
      ∀ id ∈ p.system.manager.files, p.UpToDate id ∨
        Since (fun x => ¬ Refreshes {} id x) (ChangesSilently {} id) tr := by
  obtain ⟨p, hrun, hp⟩ := exists_run_of_replay (filePanelStep {}) (.start 1) foundMeanwhile
    (fun p => p.connection = .initialStateSent ∧ p.store.shownStatus 0 = some "Discovered")
    (by decide +kernel)
  obtain ⟨hsent, hshown⟩ := of_decide_eq_true hp
  exact ⟨_, p, hrun, hshown, file_list_converges hrun hsent⟩

end Runs

end FileAgent

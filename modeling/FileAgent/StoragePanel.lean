import FileAgent.Library.LastWrite
import FileAgent.SpaceChecker
import FileAgent.StorageChecks

set_option relaxedAutoImplicit false
set_option autoImplicit false

/-!
# The storage panel of the browser

`app/static/js/stores/storageStore.js` shows the results of the storage monitor. A client that
connects is sent the stored results, and from then on each change, by the handler of
`WebSocketManager` for the event of the change. The handlers start in the order in which the events
are published, and one client is connected at a time, so that a handler sends its message in the
step in which it starts; meanwhile checks go on, and the connection may be lost and made again. A
result is sent with all its fields, the sizes in hundredths of a gigabyte. The handler of
`MountStatusChangedEvent` reads the fields of the event in place of those of its update, which
raises, so that no client is sent a mount status.

## Main definitions

* `StorageState.getOverallStatus`, `StorageStore.updateOverallStatus` — the overall status, in the
  server and in the browser.
* `StoragePanel`, `panelStep` — the monitor, the events, the messages and the store.
* `StorageStore.Shows` — the store has the results of the server.

## Main results

* `panelInv_step` — the step lemma.
* `panel_converges` — the messages that are on their way lead to what the server has.
-/

namespace FileAgent

open Transition LastWrite

/-! ## The overall status -/

/-- The values of `StorageStatus`. -/
def StorageStatus.value : StorageStatus → String
  | .ok => "OK"
  | .warning => "WARNING"
  | .error => "ERROR"
  | .critical => "CRITICAL"

/-- `get_overall_status`. -/
def StorageState.getOverallStatus (st : StorageState) : StorageStatus :=
  let statuses :=
    (st.sourceInfo.map (·.status)).toList ++ (st.destinationInfo.map (·.status)).toList
  let priorityOrder : List StorageStatus := [.critical, .error, .warning, .ok]
  (priorityOrder.find? (· ∈ statuses)).getD .ok

/-- `round(x, 2)` of a size, which is not negative. -/
def roundHundredths (x : ℚ) : ℚ := roundHalfEven (100 * x).num.toNat (100 * x).den / 100

/-- The result of `_serialize_storage_info`. The time is kept as it is, in place of its text. -/
structure SerializedStorageInfo where
  path : FilePath
  isAccessible : Bool
  hasWriteAccess : Bool
  freeSpaceGb : ℚ
  totalSpaceGb : ℚ
  usedSpaceGb : ℚ
  status : String
  warningThresholdGb : ℚ
  criticalThresholdGb : ℚ
  lastChecked : ℕ
  errorMessage : Option String
  deriving DecidableEq

/-- `_serialize_storage_info`. -/
def StorageInfo.serialize (info : StorageInfo) : SerializedStorageInfo where
  path := info.path
  isAccessible := info.isAccessible
  hasWriteAccess := info.hasWriteAccess
  freeSpaceGb := roundHundredths info.freeSpaceGb
  totalSpaceGb := roundHundredths info.totalSpaceGb
  usedSpaceGb := roundHundredths info.usedSpaceGb
  status := info.status.value
  warningThresholdGb := info.warningThresholdGb
  criticalThresholdGb := info.criticalThresholdGb
  lastChecked := info.lastChecked
  errorMessage := info.errorMessage

/-- The storage store. -/
structure StorageStore where
  source : Option SerializedStorageInfo := none
  destination : Option SerializedStorageInfo := none
  overallStatus : String := "Unknown"
  deriving DecidableEq

namespace StorageStore

/-- `priorities[status] || 0`. -/
def priority (status : Option String) : ℕ :=
  (status.bind fun s => [("CRITICAL", 4), ("ERROR", 3), ("WARNING", 2), ("OK", 1)].lookup s).getD 0

/-- `updateOverallStatus`. -/
def updateOverallStatus (store : StorageStore) : StorageStore :=
  let sourceStatus := store.source.map (·.status)
  let destStatus := store.destination.map (·.status)
  { store with
    overallStatus :=
      if priority sourceStatus ≥ priority destStatus then sourceStatus.getD "Unknown"
      else destStatus.getD "Unknown" }

/-- `updateSource`. -/
def updateSource (store : StorageStore) (data : SerializedStorageInfo) : StorageStore :=
  ({ store with source := some data } : StorageStore).updateOverallStatus

/-- `updateDestination`. -/
def updateDestination (store : StorageStore) (data : SerializedStorageInfo) : StorageStore :=
  ({ store with destination := some data } : StorageStore).updateOverallStatus

/-- `handleStorageUpdate`. -/
def handleStorageUpdate (store : StorageStore) (storageType : StorageType)
    (storageInfo : SerializedStorageInfo) : StorageStore :=
  match storageType with
  | .source => store.updateSource storageInfo
  | .destination => store.updateDestination storageInfo

/-- The part of `handleInitialState` for `data.storage`. -/
def handleInitialState (store : StorageStore) (source destination : Option SerializedStorageInfo)
    (overallStatus : String) : StorageStore :=
  let store := (source.map store.updateSource).getD store
  let store := (destination.map store.updateDestination).getD store
  if overallStatus ≠ "" then { store with overallStatus := overallStatus } else store

/-- What the store has for a location. -/
def info (store : StorageStore) : StorageType → Option SerializedStorageInfo
  | .source => store.source
  | .destination => store.destination

/-- The store has the results of the server, and its overall status. -/
structure Shows (store : StorageStore) (st : StorageState) : Prop where
  infos : ∀ storageType, store.info storageType =
    (st.currentInfo storageType).map StorageInfo.serialize
  overall : store.overallStatus = st.getOverallStatus.value

end StorageStore

/-! ## The panel -/

/-- A message to the client. -/
inductive StorageMessage
  | initialState (source destination : Option SerializedStorageInfo) (overallStatus : String)
  | storageUpdate (storageType : StorageType) (storageInfo : SerializedStorageInfo)
  deriving DecidableEq

/-- `handleMessage`. -/
def StorageStore.handleMessage (store : StorageStore) : StorageMessage → StorageStore
  | .initialState source destination overallStatus =>
    store.handleInitialState source destination overallStatus
  | .storageUpdate storageType storageInfo => store.handleStorageUpdate storageType storageInfo

/-- The connection of the client: `connect` has it in the list of connections before the initial
state is sent. -/
inductive PanelConnection
  | closed
  | connected
  | initialStateSent
  deriving DecidableEq

/-- The monitor, the events whose handlers have not started, the messages that are on their way, and
the store. -/
structure StoragePanel where
  monitor : Monitor := {}
  events : List (StorageType × StorageInfo) := []
  connection : PanelConnection := .closed
  inFlight : List StorageMessage := []
  store : StorageStore := {}

/-- The steps: one of the monitor, the handler of the oldest event, those of the connection, and the
receipt of a message. -/
inductive PanelAction
  | monitor (a : MonitorAction)
  | handleStorageStatusEvent
  | connect
  | sendInitialState
  | receive
  | disconnect

/-- The change of a location that an entry of the log has published. -/
def LogEntry.event? (e : LogEntry) : Option (StorageType × StorageInfo) :=
  e.output.change?.map fun change => (e.storageType, change.2)

/-- The message for an event. -/
def updateMessage (e : StorageType × StorageInfo) : StorageMessage :=
  .storageUpdate e.1 e.2.serialize

/-- The part of `_send_initial_state` for the storage. -/
def StorageState.initialMessage (st : StorageState) : StorageMessage :=
  .initialState (st.sourceInfo.map StorageInfo.serialize)
    (st.destinationInfo.map StorageInfo.serialize) st.getOverallStatus.value

/-- One step. -/
def panelStep (cfg : Settings) (p : StoragePanel) : PanelAction → Option StoragePanel
  | .monitor a =>
    (monitorStep cfg p.monitor a).map fun m =>
      { p with
        monitor := m
        events := p.events ++ (m.log.drop p.monitor.log.length).filterMap LogEntry.event? }
  | .handleStorageStatusEvent =>
    match p.events with
    | [] => none
    | e :: rest =>
      some
        { p with
          events := rest
          inFlight := if p.connection = .closed then p.inFlight
            else p.inFlight ++ [updateMessage e] }
  | .connect => if p.connection = .closed then some { p with connection := .connected } else none
  | .sendInitialState =>
    if p.connection = .connected then
      some
        { p with
          connection := .initialStateSent
          inFlight := p.inFlight ++ [p.monitor.state.initialMessage] }
    else none
  | .receive =>
    match p.inFlight with
    | [] => none
    | message :: rest => some { p with inFlight := rest, store := p.store.handleMessage message }
  | .disconnect => some { p with connection := .closed, inFlight := [] }

/-- What is on its way to the store: the messages, and those for the events. -/
def StoragePanel.messages (p : StoragePanel) : List StorageMessage :=
  p.inFlight ++ p.events.map updateMessage

/-- The store when all these have come. -/
def StoragePanel.settled (p : StoragePanel) : StorageStore :=
  p.messages.foldl StorageStore.handleMessage p.store

/-! ## The store -/

/-- What a message says about a location. -/
def StorageMessage.info : StorageMessage → StorageType → Option SerializedStorageInfo
  | .initialState source _ _, .source => source
  | .initialState _ destination _, .destination => destination
  | .storageUpdate storageType storageInfo, t => if t = storageType then some storageInfo else none

section Store

variable {store : StorageStore} {st : StorageState} {storageType : StorageType}
  {info : StorageInfo} {message : StorageMessage} {messages : List StorageMessage}

/-- The store has what the message says, and else what it had. -/
lemma info_handleMessage (store : StorageStore) (message : StorageMessage) (t : StorageType) :
    (store.handleMessage message).info t = (message.info t).or (store.info t) := by
  cases message with
  | initialState source destination overallStatus =>
    have hkeep : ∀ (s : StorageStore) (overall : String),
        (if overall ≠ "" then { s with overallStatus := overall } else s : StorageStore).info t =
          s.info t := by
      intro s overall
      split_ifs <;> cases t <;> rfl
    rw [StorageStore.handleMessage, StorageStore.handleInitialState, hkeep]
    cases source <;> cases destination <;> cases t <;> rfl
  | storageUpdate storageType storageInfo =>
    cases storageType <;> cases t <;> rfl

/-- What a store knows after messages it knew before, or was told by one of them. -/
lemma info_foldl {t : StorageType}
    (h : ((messages.foldl StorageStore.handleMessage store).info t).isSome) :
    (store.info t).isSome ∨ ∃ message ∈ messages, (message.info t).isSome := by
  induction messages generalizing store with
  | nil => exact Or.inl h
  | cons message messages ih =>
    rcases ih h with hstore | ⟨m, hm, hinfo⟩
    · rw [info_handleMessage, Option.isSome_or, Bool.or_eq_true] at hstore
      rcases hstore with hmessage | hstore
      · exact Or.inr ⟨message, List.mem_cons_self, hmessage⟩
      · exact Or.inl hstore
    · exact Or.inr ⟨m, List.mem_cons_of_mem _ hm, hinfo⟩

/-- **The two ways to find the overall status agree**, once a location is known. -/
lemma overall_eq (source destination : Option StorageStatus)
    (h : source.isSome ∨ destination.isSome) :
    (if StorageStore.priority (source.map StorageStatus.value) ≥
        StorageStore.priority (destination.map StorageStatus.value) then
      (source.map StorageStatus.value).getD "Unknown"
    else (destination.map StorageStatus.value).getD "Unknown") =
      ((([.critical, .error, .warning, .ok] : List StorageStatus).find?
        (· ∈ source.toList ++ destination.toList)).getD .ok).value := by
  cases source with
  | none =>
    cases destination with
    | none => simp at h
    | some d => cases d <;> decide
  | some s =>
    cases destination with
    | none => cases s <;> decide
    | some d => cases s <;> cases d <;> decide

/-- A store that shows the monitor's information computes the monitor's overall status. -/
lemma overall_updateOverallStatus
    (h : ∀ t, store.info t = (st.currentInfo t).map StorageInfo.serialize)
    (hknown : ∃ t, (st.currentInfo t).isSome) :
    store.updateOverallStatus.overallStatus = st.getOverallStatus.value := by
  have hsource : store.source.map (·.status) =
      (st.sourceInfo.map (·.status)).map StorageStatus.value := by
    rw [show store.source = _ from h .source, Option.map_map, Option.map_map]
    rfl
  have hdestination : store.destination.map (·.status) =
      (st.destinationInfo.map (·.status)).map StorageStatus.value := by
    rw [show store.destination = _ from h .destination, Option.map_map, Option.map_map]
    rfl
  have hsome : (st.sourceInfo.map (·.status)).isSome ∨
      (st.destinationInfo.map (·.status)).isSome := by
    obtain ⟨t, ht⟩ := hknown
    cases t with
    | source => exact Or.inl (by rw [Option.isSome_map]; exact ht)
    | destination => exact Or.inr (by rw [Option.isSome_map]; exact ht)
  simp only [StorageStore.updateOverallStatus, hsource, hdestination]
  exact overall_eq _ _ hsome

/-- An update computes the overall status anew. -/
lemma overall_storageUpdate {storageInfo : SerializedStorageInfo}
    (h : ∀ t, (store.handleMessage (.storageUpdate storageType storageInfo)).info t =
      (st.currentInfo t).map StorageInfo.serialize)
    (hknown : ∃ t, (st.currentInfo t).isSome) :
    (store.handleMessage (.storageUpdate storageType storageInfo)).overallStatus =
      st.getOverallStatus.value := by
  have hagain : (store.handleMessage (.storageUpdate storageType storageInfo)).overallStatus =
      (store.handleMessage
        (.storageUpdate storageType storageInfo)).updateOverallStatus.overallStatus := by
    cases storageType <;> rfl
  rw [hagain]
  exact overall_updateOverallStatus h hknown

/-- An update changes the information of one kind of storage. -/
lemma currentInfo_eq_update (st : StorageState) (info : StorageInfo) (storageType : StorageType) :
    (st.update info storageType).currentInfo =
      Function.update st.currentInfo storageType (some info) := by
  funext t
  cases storageType <;> cases t <;> rfl

/-- A `storage_update` message changes the information of one kind of storage. -/
lemma info_storageUpdate (store : StorageStore) (e : StorageType × StorageInfo) :
    (store.handleMessage (updateMessage e)).info =
      Function.update store.info e.1 (some e.2.serialize) := by
  obtain ⟨storageType, info⟩ := e
  funext t
  rw [info_handleMessage]
  cases storageType <;> cases t <;> rfl

/-- A change reaches the store. -/
lemma StorageStore.Shows.update (h : store.Shows st) (e : StorageType × StorageInfo) :
    (store.handleMessage (updateMessage e)).Shows (st.update e.2 e.1) := by
  have hinfos : ∀ t, (store.handleMessage (updateMessage e)).info t =
      ((st.update e.2 e.1).currentInfo t).map StorageInfo.serialize := by
    intro t
    rw [info_storageUpdate, currentInfo_eq_update]
    by_cases ht : t = e.1
    · rw [ht, Function.update_self, Function.update_self, Option.map_some]
    · rw [Function.update_of_ne ht, Function.update_of_ne ht, h.infos]
  refine ⟨hinfos, overall_storageUpdate hinfos ⟨e.1, ?_⟩⟩
  rw [currentInfo_eq_update, Function.update_self, Option.isSome_some]

/-- **The initial state reaches the store**, if it knows no location that the server does not. -/
lemma shows_initialMessage
    (h : ∀ t, (store.info t).isSome → (st.currentInfo t).isSome) :
    (store.handleMessage st.initialMessage).Shows st := by
  refine ⟨fun t => ?_, ?_⟩
  · rw [info_handleMessage]
    have hmessage : st.initialMessage.info t = (st.currentInfo t).map StorageInfo.serialize := by
      cases t <;> rfl
    rw [hmessage]
    cases hcurrent : st.currentInfo t with
    | some info => rfl
    | none =>
      cases hstore : store.info t with
      | none => rfl
      | some data =>
        have hknown := h t (by rw [hstore]; rfl)
        rw [hcurrent] at hknown
        cases hknown
  · have hne : st.getOverallStatus.value ≠ "" := by
      cases st.getOverallStatus <;> decide
    simp only [StorageState.initialMessage, StorageStore.handleMessage,
      StorageStore.handleInitialState]
    rw [if_pos hne]

/-- **Changes that the server has had** lead a store that shows the server's results back to
them.

**Proof sketch.** The messages write the results into the store in their order. The last write of
each storage is what the server has by `hwritten`, so the store shows it again; the overall status
is computed from both after the last message. -/
lemma StorageStore.Shows.replay {events : List (StorageType × StorageInfo)} (h : store.Shows st)
    (hwritten : Written events st.currentInfo) :
    ((events.map updateMessage).foldl StorageStore.handleMessage store).Shows st := by
  have hfold : ∀ (es : List (StorageType × StorageInfo)) (s : StorageStore),
      ((es.map updateMessage).foldl StorageStore.handleMessage s).info =
        writes s.info (es.map fun e => (e.1, e.2.serialize)) := by
    intro es
    induction es with
    | nil => exact fun _ => rfl
    | cons e es ih =>
      intro s
      rw [List.map_cons, List.foldl_cons, ih, info_storageUpdate]
      rfl
  have hinfos : ∀ t, ((events.map updateMessage).foldl StorageStore.handleMessage store).info t =
      (st.currentInfo t).map StorageInfo.serialize := by
    intro t
    have hsame : store.info = fun t => (st.currentInfo t).map StorageInfo.serialize :=
      funext h.infos
    rw [hfold, hsame, writes_of_written (hwritten.map StorageInfo.serialize)]
  refine ⟨hinfos, ?_⟩
  cases events using List.reverseRecOn with
  | nil => exact h.overall
  | append_singleton es e =>
    rw [List.map_append, List.map_singleton, List.foldl_append] at hinfos ⊢
    refine overall_storageUpdate hinfos ⟨e.1, ?_⟩
    rw [hwritten e.1 e.2 (by rw [lastWrite_snoc, if_pos rfl]), Option.isSome_some]

end Store

/-! ## The invariant -/

/-- The server has had all events, the store and the messages know no location that the server does
not, and once the initial state is sent they lead to what the server has. -/
structure PanelInv (p : StoragePanel) : Prop where
  written : Written p.events p.monitor.state.currentInfo
  known : ∀ t, ((p.store.info t).isSome ∨ ∃ m ∈ p.messages, (m.info t).isSome) →
    (p.monitor.state.currentInfo t).isSome
  shows : p.connection = .initialStateSent → p.settled.Shows p.monitor.state

section Steps

variable {cfg : Settings} {m m' : Monitor} {p p' : StoragePanel}

/-- A step of the monitor stores and publishes a result, or does neither.

**Proof sketch.** By cases on the action. Only a check that reports stores a result, and it
publishes that one; every other step leaves the state and logs no event. -/
lemma monitor_changes {a : MonitorAction} (hs : monitorStep cfg m a = some m') :
    (m'.state = m.state ∧ (m'.log.drop m.log.length).filterMap LogEntry.event? = []) ∨
      ∃ e : StorageType × StorageInfo, m'.state = m.state.update e.2 e.1 ∧
        (m'.log.drop m.log.length).filterMap LogEntry.event? = [e] := by
  cases a with
  | start storageType answers =>
    obtain rfl := Option.some.inj hs
    exact Or.inl ⟨rfl, by rw [List.drop_length]; rfl⟩
  | run i =>
    obtain ⟨c, -, hs⟩ := Option.bind_eq_some_iff.mp hs
    obtain ⟨s, hresume, rfl⟩ := Option.map_eq_some_iff.mp hs
    rw [List.drop_left]
    cases StorageCheck.next_of_resume hresume with
    | goesOn q now later info hbefore hafter =>
      refine Or.inl ⟨rfl, ?_⟩
      rw [List.filterMap_map, List.filterMap_map, List.filterMap_eq_nil_iff]
      exact fun _ _ => rfl
    | reports info hbefore => exact Or.inr ⟨(c.storageType, info), rfl, rfl⟩
    | reacts oldInfo info hp =>
      left
      unfold StorageCheck.react
      split_ifs <;> exact ⟨rfl, rfl⟩
    | returns hp => exact Or.inl ⟨rfl, rfl⟩
  | fail i =>
    obtain ⟨c, -, hs⟩ := Option.bind_eq_some_iff.mp hs
    split_ifs at hs
    obtain rfl := Option.some.inj hs
    exact Or.inl ⟨rfl, by rw [List.drop_length]; rfl⟩

/-- **The step lemma.**

**Proof sketch.** By cases on the action. A change of the monitor is one more event at the end, so
the settled store shows it as well. A handler turns the first event into the last message, which
leaves the messages as they are together; a message received moves into the store. The first
message after a connect shows the state of the monitor, and the events still to be handled were
written into that state, so replaying them changes nothing, by `Written`. -/
theorem panelInv_step {a : PanelAction} (h : PanelInv p) (hs : panelStep cfg p a = some p') :
    PanelInv p' := by
  cases a with
  | monitor a =>
    obtain ⟨m, hm, rfl⟩ := Option.map_eq_some_iff.mp hs
    rcases monitor_changes hm with ⟨hstate, hevents⟩ | ⟨e, hstate, hevents⟩
    · simp only [hevents, List.append_nil]
      exact ⟨by rw [hstate]; exact h.written, fun t ht => by rw [hstate]; exact h.known t ht,
        fun hsent => by rw [hstate]; exact h.shows hsent⟩
    · simp only [hevents]
      refine ⟨?_, ?_, ?_⟩
      · rw [hstate, currentInfo_eq_update]
        exact h.written.snoc
      · intro t ht
        rw [hstate, currentInfo_eq_update]
        by_cases hte : t = e.1
        · rw [hte, Function.update_self, Option.isSome_some]
        · rw [Function.update_of_ne hte]
          refine h.known t (ht.imp_right ?_)
          rintro ⟨message, hmessage, hinfo⟩
          simp only [StoragePanel.messages, List.map_append, List.map_singleton,
            ← List.append_assoc, List.mem_append, List.mem_singleton] at hmessage
          rcases hmessage with hmessage | rfl
          · exact ⟨message, List.mem_append.mpr hmessage, hinfo⟩
          · simp [updateMessage, StorageMessage.info, hte] at hinfo
      · intro hsent
        simp only [StoragePanel.settled, StoragePanel.messages, List.map_append, List.map_singleton,
          ← List.append_assoc, List.foldl_append, List.foldl_cons, List.foldl_nil]
        rw [hstate]
        have hsettled := h.shows hsent
        simp only [StoragePanel.settled, StoragePanel.messages, List.foldl_append] at hsettled
        exact hsettled.update e
  | handleStorageStatusEvent =>
    simp only [panelStep] at hs
    cases hevents : p.events with
    | nil =>
      rw [hevents] at hs
      cases hs
    | cons e rest =>
      rw [hevents] at hs
      obtain rfl := Option.some.inj hs
      have hwritten : Written rest p.monitor.state.currentInfo := (hevents ▸ h.written).tail
      have hmessages : p.messages = p.inFlight ++ updateMessage e :: rest.map updateMessage := by
        rw [StoragePanel.messages, hevents, List.map_cons]
      refine ⟨hwritten, fun t ht => h.known t (ht.imp_right ?_), fun hsent => ?_⟩
      · rintro ⟨message, hmessage, hinfo⟩
        refine ⟨message, ?_, hinfo⟩
        rw [hmessages]
        simp only [StoragePanel.messages] at hmessage
        split_ifs at hmessage <;> simp only [List.mem_append, List.mem_cons,
          List.not_mem_nil, or_false] at hmessage ⊢ <;> tauto
      · have hsame : p.settled.Shows p.monitor.state := h.shows hsent
        have hopen : ¬ p.connection = .closed := by
          rw [show p.connection = .initialStateSent from hsent]
          decide
        have hsettled : p.settled =
            (p.inFlight ++ updateMessage e :: rest.map updateMessage).foldl
              StorageStore.handleMessage p.store := by
          rw [StoragePanel.settled, hmessages]
        simp only [StoragePanel.settled, StoragePanel.messages, if_neg hopen, List.append_assoc,
          List.singleton_append]
        rw [← hsettled]
        exact hsame
  | connect =>
    simp only [panelStep] at hs
    split_ifs at hs
    obtain rfl := Option.some.inj hs
    exact ⟨h.written, h.known, fun hsent => by cases hsent⟩
  | sendInitialState =>
    simp only [panelStep] at hs
    split_ifs at hs
    obtain rfl := Option.some.inj hs
    refine ⟨h.written, ?_, fun _ => ?_⟩
    · rintro t (ht | ⟨message, hmessage, hinfo⟩)
      · exact h.known t (Or.inl ht)
      · simp only [StoragePanel.messages, List.mem_append, List.mem_singleton] at hmessage
        rcases hmessage with (hmessage | rfl) | hmessage
        · exact h.known t (Or.inr ⟨message, List.mem_append_left _ hmessage, hinfo⟩)
        · cases t <;> simpa [StorageState.initialMessage, StorageMessage.info,
            StorageState.currentInfo] using hinfo
        · exact h.known t (Or.inr ⟨message, List.mem_append_right _ hmessage, hinfo⟩)
    · simp only [StoragePanel.settled, StoragePanel.messages, List.foldl_append, List.foldl_cons,
        List.foldl_nil]
      refine (shows_initialMessage fun t ht => h.known t ?_).replay h.written
      refine (info_foldl ht).imp_right ?_
      rintro ⟨message, hmessage, hinfo⟩
      exact ⟨message, List.mem_append_left _ hmessage, hinfo⟩
  | receive =>
    simp only [panelStep] at hs
    cases hinFlight : p.inFlight with
    | nil =>
      rw [hinFlight] at hs
      cases hs
    | cons message rest =>
      rw [hinFlight] at hs
      obtain rfl := Option.some.inj hs
      have hmessages : p.messages = message :: (rest ++ p.events.map updateMessage) := by
        rw [StoragePanel.messages, hinFlight, List.cons_append]
      refine ⟨h.written, ?_, fun hsent => ?_⟩
      · rintro t (ht | ⟨m, hm, hinfo⟩)
        · rw [info_handleMessage, Option.isSome_or, Bool.or_eq_true] at ht
          refine h.known t ?_
          rcases ht with ht | ht
          · exact Or.inr ⟨message, hmessages ▸ List.mem_cons_self, ht⟩
          · exact Or.inl ht
        · exact h.known t (Or.inr ⟨m, hmessages ▸ List.mem_cons_of_mem _ hm, hinfo⟩)
      · have hsame : p.settled.Shows p.monitor.state := h.shows hsent
        have hsettled : p.settled = (rest ++ p.events.map updateMessage).foldl
            StorageStore.handleMessage (p.store.handleMessage message) := by
          rw [StoragePanel.settled, hmessages]
          rfl
        rw [hsettled] at hsame
        exact hsame
  | disconnect =>
    obtain rfl := Option.some.inj hs
    refine ⟨h.written, ?_, fun hsent => by cases hsent⟩
    rintro t (ht | ⟨message, hmessage, hinfo⟩)
    · exact h.known t (Or.inl ht)
    · exact h.known t (Or.inr ⟨message, List.mem_append_right _ hmessage, hinfo⟩)

end Steps

/-! ## Runs -/

section Runs

variable {cfg : Settings} {p : StoragePanel} {tr : List (StoragePanel × PanelAction)}

/-- **The panel converges**: however checks overlap, and however often the connection is lost and
made again, once a connection has been sent its initial state, the messages on their way and those
for the events that are still to be handled lead the store to the results that the server has
stored, and to its overall status. With nothing on its way, the panel shows just these.

**Proof sketch.** The initial state may overtake events that it contains already. Of several events
of a location the last one has the stored result, so that they lead back to it
(`LastWrite.writes_of_written`). -/
theorem panel_converges (hrun : Run (panelStep cfg) {} tr p)
    (hsent : p.connection = .initialStateSent) :
    p.settled.Shows p.monitor.state ∧
      (p.inFlight = [] → p.events = [] → p.store.Shows p.monitor.state) := by
  have hok : Meets (fun _ _ => True) tr := fun _ _ => trivial
  have hinv : PanelInv p := by
    refine hrun.invariant hok ⟨written_nil, ?_, fun h => by cases h⟩
      fun _ _ _ h _ hs => panelInv_step h hs
    rintro t (ht | ⟨message, hmessage, -⟩)
    · cases t <;> cases ht
    · cases hmessage
  have hshows := hinv.shows hsent
  refine ⟨hshows, fun hinFlight hevents => ?_⟩
  rw [StoragePanel.settled, StoragePanel.messages, hinFlight, hevents] at hshows
  exact hshows

/-- A destination that is lost and mounted again, and a client that is sent the initial state after
both changes and before the handlers of their events. -/
def overtakingInitialState : List PanelAction :=
  [.connect] ++ overlappingChecks.map .monitor ++ [.sendInitialState, .handleStorageStatusEvent,
    .receive, .handleStorageStatusEvent, .receive, .receive]

/-- The panel after messages of which one overtook another. -/
theorem panel_converges_overtaking :
    ∃ tr p, Run (panelStep {}) {} tr p ∧ p.store.overallStatus = "OK" ∧
      p.settled.Shows p.monitor.state ∧
        (p.inFlight = [] → p.events = [] → p.store.Shows p.monitor.state) := by
  obtain ⟨p, hrun, hp⟩ := exists_run_of_replay (panelStep {}) {} overtakingInitialState
    (fun p => p.connection = .initialStateSent ∧ p.store.overallStatus = "OK") (by decide +kernel)
  obtain ⟨hsent, hstatus⟩ := of_decide_eq_true hp
  exact ⟨_, p, hrun, hstatus, panel_converges hrun hsent⟩

end Runs

end FileAgent

import FileAgent.Broadcast

set_option relaxedAutoImplicit false
set_option autoImplicit false

/-!
# The scanner status for late joiners

`WebSocketManager` keeps the last scanner status and sends it to a new client with the initial
state. `handle_scanner_status_event` returns before it keeps the status when no client is connected.
A client is connected from `accept` on; its initial state is put together some awaits later.

## Main definitions

* `ScannerFeed`, `feedStep` — the manager with the scanner status.
* `latestStatus`, `heardStatus` — what the scanner said last, and last to a client.
* `JoinersCurrent` — every initial state tells what the scanner said last.
* `RepeatsUnheard` — the condition on a single event.

## Main results

* `joinersCurrent_iff` — when every initial state does.
* `statusCurrent_iff` — when the status that is kept is the latest one all along.
-/

namespace FileAgent

open Transition Cursor

/-- `_scanner_status`. -/
structure ScannerStatus where
  scanning : Bool
  paused : Bool
  deriving DecidableEq

/-- The connections, the scanner status, and the clients whose `connect` is not done yet. -/
structure ScannerFeed where
  manager : WebSocketManager := {}
  scannerStatus : ScannerStatus := { scanning := true, paused := false }
  joining : List Client := []

/-- The steps: one of the connections and broadcasts, the delivery of a `ScannerStatusChangedEvent`,
or the end of a `connect`, which sends the initial state or logs an exception. -/
inductive FeedAction
  | socket (a : WebSocketAction)
  | scannerStatusChanged (event : ScannerStatus)
  | sendInitialState (client : Client)
  | logException (client : Client)

/-- The clients that have joined, but have no initial state yet. -/
def joiningAfter (s : ScannerFeed) : WebSocketAction → List Client
  | .connect => s.joining ++ [s.manager.clients]
  | _ => s.joining

/-- `handle_scanner_status_event` up to its first await. -/
def handleScannerStatusEvent (s : ScannerFeed) (event : ScannerStatus) : Option ScannerFeed :=
  if s.manager.connections = [] then some s
  else (webSocketStep s.manager .broadcast).map fun m =>
    { s with scannerStatus := event, manager := m }

/-- One step. -/
def feedStep (s : ScannerFeed) : FeedAction → Option ScannerFeed
  | .socket a => (webSocketStep s.manager a).map fun m =>
    { s with manager := m, joining := joiningAfter s a }
  | .scannerStatusChanged event => handleScannerStatusEvent s event
  | .sendInitialState client | .logException client =>
    if client ∈ s.joining then some { s with joining := s.joining.erase client } else none

/-- The scanner field of the initial state that a step sends. -/
def initialStateScanner (e : ScannerFeed × FeedAction) : Option ScannerStatus :=
  match e.2 with
  | .sendInitialState _ => some e.1.scannerStatus
  | _ => none

/-! ## What the scanner said -/

/-- The status of an event. -/
def eventStatus (e : ScannerFeed × FeedAction) : Option ScannerStatus :=
  match e.2 with
  | .scannerStatusChanged event => some event
  | _ => none

/-- The status of an event that comes while a client is connected. -/
def heardEvent (e : ScannerFeed × FeedAction) : Option ScannerStatus :=
  if e.1.manager.connections = [] then none else eventStatus e

/-- What the scanner said last. -/
def latestStatus (tr : List (ScannerFeed × FeedAction)) : ScannerStatus :=
  (tr.filterMap eventStatus).getLastD { scanning := true, paused := false }

/-- What the scanner said last while a client was connected. -/
def heardStatus (tr : List (ScannerFeed × FeedAction)) : ScannerStatus :=
  (tr.filterMap heardEvent).getLastD { scanning := true, paused := false }

/-- Every initial state tells what the scanner said last before it. -/
def JoinersCurrent (tr : List (ScannerFeed × FeedAction)) : Prop :=
  ∀ i, ∀ e ∈ tr[i]?, ∀ status ∈ initialStateScanner e, status = latestStatus (tr.take i)

/-- The condition: when an initial state is sent, the last event came while a client was connected,
or says the same as the last one that did. -/
def JoinersHeard (tr : List (ScannerFeed × FeedAction)) : Prop :=
  ∀ i < tr.length, ∀ e ∈ tr[i]?, (initialStateScanner e).isSome = true →
    heardStatus (tr.take i) = latestStatus (tr.take i)

instance (tr : List (ScannerFeed × FeedAction)) : Decidable (JoinersHeard tr) :=
  inferInstanceAs (Decidable (∀ i < tr.length, ∀ e ∈ tr[i]?, (initialStateScanner e).isSome = true →
    heardStatus (tr.take i) = latestStatus (tr.take i)))

/-- An event that no client hears repeats the one before it. -/
def RepeatsUnheard (tr : List (ScannerFeed × FeedAction)) : Prop :=
  ∀ i, ∀ e ∈ tr[i]?, e.1.manager.connections = [] → ∀ event ∈ eventStatus e,
    event = latestStatus (tr.take i)

section Lemmas

variable {s s' : ScannerFeed} {a : FeedAction} {tr : List (ScannerFeed × FeedAction)}

/-- The latest status after one more step. -/
lemma latestStatus_append (tr : List (ScannerFeed × FeedAction)) (e : ScannerFeed × FeedAction) :
    latestStatus (tr ++ [e]) = (eventStatus e).getD (latestStatus tr) := by
  rw [latestStatus, List.filterMap_append]
  cases he : eventStatus e with
  | none => rw [List.filterMap_cons_none he, List.filterMap_nil, List.append_nil]; rfl
  | some status => rw [List.filterMap_cons_some he, List.filterMap_nil, List.getLastD_concat]; rfl

/-- The status last heard after one more step. -/
lemma heardStatus_append (tr : List (ScannerFeed × FeedAction)) (e : ScannerFeed × FeedAction) :
    heardStatus (tr ++ [e]) = (heardEvent e).getD (heardStatus tr) := by
  rw [heardStatus, List.filterMap_append]
  cases he : heardEvent e with
  | none => rw [List.filterMap_cons_none he, List.filterMap_nil, List.append_nil]; rfl
  | some status => rw [List.filterMap_cons_some he, List.filterMap_nil, List.getLastD_concat]; rfl

/-- **The step lemma**: the status that is kept is replaced by the events that a client hears. -/
lemma scannerStatus_step (hs : feedStep s a = some s') :
    s'.scannerStatus = (heardEvent (s, a)).getD s.scannerStatus := by
  cases a with
  | socket b =>
    obtain ⟨m, -, rfl⟩ := Option.map_eq_some_iff.mp hs
    simp [heardEvent, eventStatus]
  | scannerStatusChanged event =>
    rw [feedStep, handleScannerStatusEvent] at hs
    rw [heardEvent]
    split_ifs at hs ⊢ with hnobody
    · obtain rfl := Option.some.inj hs
      rfl
    · obtain ⟨m, -, rfl⟩ := Option.map_eq_some_iff.mp hs
      rfl
  | sendInitialState client =>
    rw [feedStep] at hs
    split_ifs at hs
    obtain rfl := Option.some.inj hs
    simp [heardEvent, eventStatus]
  | logException client =>
    rw [feedStep] at hs
    split_ifs at hs
    obtain rfl := Option.some.inj hs
    simp [heardEvent, eventStatus]

end Lemmas

/-! ## Whole runs -/

section Runs

variable {s : ScannerFeed} {tr : List (ScannerFeed × FeedAction)}

/-- The status that is kept is the last one heard. -/
theorem scannerStatus_eq_heardStatus (h : Run feedStep {} tr s) :
    s.scannerStatus = heardStatus tr := by
  induction h with
  | start => rfl
  | snoc _ hs ih => rw [heardStatus_append, scannerStatus_step hs, ih]

/-- The part of the trace before a step leads to its state. -/
lemma run_take {i : ℕ} {e : ScannerFeed × FeedAction} (h : Run feedStep {} tr s)
    (he : tr[i]? = some e) :
    Run feedStep {} (tr.take i) e.1 ∧ ∃ s', feedStep e.1 e.2 = some s' := by
  have hsplit : tr = tr.take i ++ e :: tr.drop (i + 1) := by
    rw [← drop_eq_cons_of_getElem? he, List.take_append_drop]
  rw [hsplit] at h
  exact h.split

/-- **When late joiners see the current status**: when, at each initial state, the last event was
heard by a client, or says what the last one heard does.

**Proof sketch.** The status that is kept is the last one heard (`scannerStatus_eq_heardStatus`), at
every step of the run (`run_take`). -/
theorem joinersCurrent_iff (h : Run feedStep {} tr s) : JoinersCurrent tr ↔ JoinersHeard tr := by
  have hscanner : ∀ i, ∀ e ∈ tr[i]?, ∀ status ∈ initialStateScanner e,
      status = heardStatus (tr.take i) := by
    rintro i ⟨s₁, a⟩ he status hstatus
    cases a with
    | sendInitialState client =>
      obtain rfl := Option.some.inj hstatus
      exact scannerStatus_eq_heardStatus (run_take h he).1
    | _ => cases hstatus
  constructor
  · intro hcurrent i _ e he hsome
    obtain ⟨status, hstatus⟩ := Option.isSome_iff_exists.mp hsome
    exact (hscanner i e he status hstatus).symm.trans (hcurrent i e he status hstatus)
  · intro hheard i e he status hstatus
    have hlt : i < tr.length := (List.getElem?_eq_some_iff.mp he).1
    rw [hscanner i e he status hstatus]
    exact hheard i hlt e he (Option.isSome_iff_exists.mpr ⟨status, hstatus⟩)

/-- **When the status is the latest one all along**: when every event that no client hears repeats
the one before it.

**Proof sketch.** An event that a client hears is kept, and one that no client hears is not
(`scannerStatus_step`). -/
theorem statusCurrent_iff (h : Run feedStep {} tr s) :
    (∀ tr₁ s₁, tr₁ <+: tr → Run feedStep {} tr₁ s₁ → s₁.scannerStatus = latestStatus tr₁) ↔
      RepeatsUnheard tr := by
  constructor
  · intro hcurrent i e he hnobody event hevent
    obtain ⟨hrun, s', hs⟩ := run_take h he
    have hnext : tr.take i ++ [e] = tr.take (i + 1) := (take_succ_of_getElem? he).symm
    have hbefore := hcurrent _ e.1 (List.take_prefix i tr) hrun
    have hafter := hcurrent _ s' (hnext ▸ List.take_prefix (i + 1) tr) (hrun.snoc hs)
    rw [scannerStatus_step hs, heardEvent, if_pos hnobody, latestStatus_append, hevent] at hafter
    exact hafter.symm.trans hbefore
  · intro hrepeats tr₁ s₁ hprefix hrun
    induction hrun with
    | start => rfl
    | @snoc tr₁ s₁ s₂ a hrun hs ih =>
      have hbefore := ih ((List.prefix_append _ _).trans hprefix)
      obtain ⟨tr₂, rfl⟩ := hprefix
      have hat : (tr₁ ++ [(s₁, a)] ++ tr₂)[tr₁.length]? = some (s₁, a) := by simp
      have htake : (tr₁ ++ [(s₁, a)] ++ tr₂).take tr₁.length = tr₁ := by simp
      rw [scannerStatus_step hs, latestStatus_append, heardEvent]
      cases hevent : eventStatus (s₁, a) with
      | none => simpa using hbefore
      | some event =>
        split_ifs with hnobody
        · have hsame := hrepeats tr₁.length _ hat hnobody event hevent
          rw [htake] at hsame
          exact hbefore.trans hsame.symm
        · rfl

/-- A client connects before the scanner is paused, and another one after it. -/
def pausedBetween : List FeedAction :=
  [.socket .connect, .sendInitialState 0, .scannerStatusChanged ⟨false, true⟩, .socket .connect,
    .sendInitialState 1]

/-- The second client is told that the scanner is paused. -/
theorem joinersCurrent_pausedBetween :
    ∃ s, Run feedStep {} (traceOf feedStep {} pausedBetween) s ∧
      s.scannerStatus = ⟨false, true⟩ ∧ JoinersCurrent (traceOf feedStep {} pausedBetween) := by
  obtain ⟨s, hrun, hs⟩ := exists_run_of_replay feedStep {} pausedBetween
    (fun s => decide (s.scannerStatus = ⟨false, true⟩)) (by decide +kernel)
  exact ⟨s, hrun, of_decide_eq_true hs, (joinersCurrent_iff hrun).mpr (by decide +kernel)⟩

/-- The scanner is paused before the first client connects. -/
def pausedBefore : List FeedAction :=
  [.scannerStatusChanged ⟨false, true⟩, .socket .connect, .sendInitialState 0]

/-- **A late joiner is told that a paused scanner runs.** -/
theorem late_joiner_misled :
    ¬ ∀ (tr : List (ScannerFeed × FeedAction)) (s : ScannerFeed),
      Run feedStep {} tr s → JoinersCurrent tr := by
  intro hall
  obtain ⟨s, hrun, -⟩ := exists_run_of_replay feedStep {} pausedBefore (fun _ => true)
    (by decide +kernel)
  have hstatus := hall _ s hrun 2 _ rfl _ rfl
  exact absurd hstatus (by decide +kernel)

end Runs

end FileAgent

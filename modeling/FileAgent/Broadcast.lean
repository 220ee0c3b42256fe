import FileAgent.Library.Cursor
import FileAgent.Library.Run

set_option relaxedAutoImplicit false
set_option autoImplicit false

/-!
# Broadcasts

`WebSocketManager` of `app/services/websocket_manager.py`. `_broadcast_message` iterates over the
live list of connections and awaits every send, and meanwhile clients connect and disconnect and
other broadcasts go on. A client is a `WebSocket` object; each one is accepted once.

## Main definitions

* `Broadcast`, `WebSocketManager`, `webSocketStep` — the broadcasts and the connections.
* `Broadcast.Complete` — every client that stays is sent the message once.
* `Broadcast.PassesOverNoMember` — the condition.
* `Broadcast.Tracks`, `Broadcast.Settled` — the invariant of a broadcast.

## Main results

* `sound_step` — the step lemma.
* `broadcastComplete_iff` — the exact condition for the broadcasts of a run to be complete.
* `departed_client_hides_the_next` — a client that misses a message.
-/

namespace FileAgent

open Transition Cursor

/-! ## The manager -/

/-- A `WebSocket` object, by the order of the connections. -/
abbrev Client := ℕ

/-- A call of `_broadcast_message`: it awaits a send, or it has returned. What it left in the list
of connections is recorded. -/
inductive BroadcastPhase
  | sending (client : Client)
  | returned (connections : List Client)
  deriving DecidableEq

/-- The locals of a call of `_broadcast_message`, and its history: the connections at its start, the
clients it has sent the message to, and those that were next in its loop when an entry before them
was removed. -/
structure Broadcast where
  /-- The position of the iterator. -/
  index : ℕ := 0
  phase : BroadcastPhase
  disconnectedClients : List Client := []
  members : List Client
  sent : List Client := []
  passedOver : List Client := []

namespace Broadcast

/-- The loop goes on: it sends to the client at its position, or it ends. -/
def next (connections : List Client) (b : Broadcast) : Broadcast :=
  match connections[b.index]? with
  | some client =>
    { b with index := b.index + 1, phase := .sending client, sent := b.sent ++ [client] }
  | none => { b with phase := .returned connections }

/-- A call up to its first await. With no connection it returns at once. -/
def start (connections : List Client) : Broadcast :=
  next connections { phase := .returned [], members := connections }

/-- The send to a client has returned, or raised an exception. -/
def sendDone (client : Client) (success : Bool) (b : Broadcast) : Broadcast :=
  if success then b else { b with disconnectedClients := b.disconnectedClients ++ [client] }

/-- What the history of a broadcast notes when a client is removed: if it is behind the position,
the client at the position is passed over. -/
def noteRemoval (connections : List Client) (client : Client) (b : Broadcast) : Broadcast :=
  match b.phase with
  | .sending _ =>
    if client ∈ connections.take b.index then
      { b with passedOver := b.passedOver ++ connections[b.index]?.toList }
    else b
  | .returned _ => b

end Broadcast

/-- The connections, and all calls of `_broadcast_message`. -/
structure WebSocketManager where
  connections : List Client := []
  /-- The number of clients that have connected. -/
  clients : ℕ := 0
  broadcasts : List Broadcast := []

namespace WebSocketManager

/-- `connect`, after `accept`. -/
def connect (m : WebSocketManager) : WebSocketManager :=
  { m with connections := m.connections ++ [m.clients], clients := m.clients + 1 }

/-- `disconnect`. -/
def disconnect (m : WebSocketManager) (client : Client) : WebSocketManager :=
  { m with
    connections := m.connections.erase client
    broadcasts := m.broadcasts.map (Broadcast.noteRemoval m.connections client) }

/-- The broadcast `k` goes on from its send. After its loop it disconnects the clients whose sends
failed. -/
def goOn (m : WebSocketManager) (k : ℕ) (b : Broadcast) : WebSocketManager :=
  let b' := b.next m.connections
  match b'.phase with
  | .sending _ => { m with broadcasts := m.broadcasts.set k b' }
  | .returned _ =>
    let m' := b'.disconnectedClients.foldl disconnect { m with broadcasts := m.broadcasts.set k b' }
    { m' with broadcasts := m'.broadcasts.set k { b' with phase := .returned m'.connections } }

end WebSocketManager

/-- The steps: a client connects or disconnects, a broadcast begins, or a send of the broadcast `k`
returns or raises. -/
inductive WebSocketAction
  | connect
  | disconnect (client : Client)
  | broadcast
  | sendDone (k : ℕ) (success : Bool)

/-- One step. -/
def webSocketStep (m : WebSocketManager) : WebSocketAction → Option WebSocketManager
  | .connect => some m.connect
  | .disconnect client => some (m.disconnect client)
  | .broadcast => some { m with broadcasts := m.broadcasts ++ [.start m.connections] }
  | .sendDone k success =>
    m.broadcasts[k]?.bind fun b =>
      match b.phase with
      | .sending client => some (m.goOn k (b.sendDone client success))
      | .returned _ => none

/-! ## Complete broadcasts -/

namespace Broadcast

/-- When the broadcast returns, every client that was connected at its start and still is, and whose
send did not fail, has been sent the message exactly once. -/
def Complete (b : Broadcast) : Prop :=
  ∀ connections, b.phase = .returned connections → ∀ client ∈ b.members, client ∈ connections →
    client ∉ b.disconnectedClients → b.sent.count client = 1

/-- The condition: no such client was next in the loop when an entry before it was removed. -/
def PassesOverNoMember (b : Broadcast) : Prop :=
  ∀ connections, b.phase = .returned connections → ∀ client ∈ b.members, client ∈ connections →
    client ∉ b.disconnectedClients → client ∉ b.passedOver

/-- A client of the start has been sent the message, or it was passed over. -/
def Visited (b : Broadcast) (client : Client) : Prop :=
  client ∈ b.sent ∧ client ∉ b.passedOver ∨ client ∉ b.sent ∧ client ∈ b.passedOver

/-- The invariant of a loop at its await: the clients of the start behind its position have been
visited, and those ahead of it have not. -/
structure Tracks (connections : List Client) (b : Broadcast) : Prop where
  ahead : ∀ client ∈ connections.drop b.index, client ∉ b.sent ∧ client ∉ b.passedOver
  behind : ∀ client ∈ b.members, client ∈ connections.take b.index → b.Visited client

/-- The invariant of a call that has returned. -/
def Settled (connections : List Client) (b : Broadcast) : Prop :=
  ∀ client ∈ b.members, client ∈ connections → b.Visited client

/-- The invariant of a call. No client is sent the message twice, and it knows no client that is yet
to connect. -/
structure Sound (connections : List Client) (clients : ℕ) (b : Broadcast) : Prop where
  once : b.sent.Nodup
  known : ∀ client, client ∈ b.members ∨ client ∈ b.sent ∨ client ∈ b.passedOver → client < clients
  tracks : ∀ client, b.phase = .sending client → b.Tracks connections
  settled : ∀ left, b.phase = .returned left → b.Settled left

end Broadcast

/-- The invariant. -/
structure WebSocketManager.Sound (m : WebSocketManager) : Prop where
  nodup : m.connections.Nodup
  known : ∀ client ∈ m.connections, client < m.clients
  broadcasts : ∀ b ∈ m.broadcasts, b.Sound m.connections m.clients

/-! ## One broadcast -/

namespace Broadcast

section Lemmas

variable {b : Broadcast} {connections : List Client} {clients client : ℕ} {success : Bool}

/-- The answer to a send changes nothing that the invariant reads. -/
lemma tracks_sendDone (h : b.Tracks connections) :
    (b.sendDone client success).Tracks connections := by
  unfold sendDone
  cases success
  · exact ⟨h.ahead, h.behind⟩
  · exact h

/-- **The loop goes on**: the client at the position is sent the message, or all clients of the
start have been visited.

**Proof sketch.** If no client is at the position, all have been visited, and those behind the
position are the whole list. If one is, it is still ahead, so it has not been sent the message,
and the position moves past it: what is ahead afterwards was ahead before, and what is behind was
behind or is this client, which has now been sent it. -/
lemma sound_next (hnodup : connections.Nodup) (hknown : ∀ c ∈ connections, c < clients)
    (h : b.Tracks connections) (honce : b.sent.Nodup)
    (hb : ∀ c, c ∈ b.members ∨ c ∈ b.sent ∨ c ∈ b.passedOver → c < clients) :
    (b.next connections).Sound connections clients := by
  unfold next
  cases hc : connections[b.index]? with
  | none =>
    refine ⟨honce, hb, (fun _ h => by cases h), fun left hleft c hmember hin => ?_⟩
    obtain rfl : connections = left := BroadcastPhase.returned.inj hleft
    apply h.behind c hmember
    rw [take_eq_self_of_getElem? hc]
    exact hin
  | some client =>
    have hmem : client ∈ connections.drop b.index := by
      rw [drop_eq_cons_of_getElem? hc]
      exact List.mem_cons_self
    obtain ⟨hnew, hkept⟩ := h.ahead client hmem
    refine ⟨?_, ?_, fun _ _ => ⟨?_, ?_⟩, fun _ h => by cases h⟩
    · rw [List.nodup_append]
      refine ⟨honce, List.nodup_singleton client, ?_⟩
      rintro c hsent d hd rfl
      exact hnew (List.mem_singleton.mp hd ▸ hsent)
    · intro c hcases
      rw [List.mem_append, List.mem_singleton] at hcases
      rcases hcases with hmember | (hsent | rfl) | hpassed
      · exact hb c (.inl hmember)
      · exact hb c (.inr (.inl hsent))
      · exact hknown c (List.mem_of_mem_drop hmem)
      · exact hb c (.inr (.inr hpassed))
    · intro c hahead
      have hne : c ≠ client := by
        rintro rfl
        exact not_mem_drop_succ hnodup hc hahead
      have hdrop : c ∈ connections.drop b.index := by
        rw [drop_eq_cons_of_getElem? hc]
        exact List.mem_cons_of_mem _ hahead
      obtain ⟨hsent, hpassed⟩ := h.ahead c hdrop
      refine ⟨?_, hpassed⟩
      rw [List.mem_append, List.mem_singleton]
      exact fun hor => hor.elim hsent hne
    · intro c hmember hbehind
      rw [take_succ_of_getElem? hc, List.mem_append, List.mem_singleton] at hbehind
      rcases hbehind with hbehind | rfl
      · have hne : c ≠ client := by
          rintro rfl
          exact not_mem_drop_of_mem_take hnodup hbehind hmem
        rcases h.behind c hmember hbehind with ⟨hsent, hpassed⟩ | ⟨hsent, hpassed⟩
        · exact .inl ⟨List.mem_append_left _ hsent, hpassed⟩
        · refine .inr ⟨?_, hpassed⟩
          rw [List.mem_append, List.mem_singleton]
          exact fun hor => hor.elim hsent hne
      · exact .inl ⟨List.mem_append_right _ (List.mem_singleton_self c), hkept⟩

/-- The first stretch of a call. -/
lemma sound_start (hnodup : connections.Nodup) (hknown : ∀ c ∈ connections, c < clients) :
    (start connections).Sound connections clients := by
  apply sound_next hnodup hknown
  · exact ⟨fun _ _ => ⟨List.not_mem_nil, List.not_mem_nil⟩, fun c _ hc => by simp at hc⟩
  · exact List.nodup_nil
  · rintro c (hc | hc | hc)
    · exact hknown c hc
    · cases hc
    · cases hc

/-- A new client is behind no position. -/
lemma sound_connect (h : b.Sound connections clients) :
    b.Sound (connections ++ [clients]) (clients + 1) := by
  have hfresh : ¬ (clients ∈ b.members ∨ clients ∈ b.sent ∨ clients ∈ b.passedOver) :=
    fun hc => absurd (h.known clients hc) (lt_irrefl _)
  push Not at hfresh
  refine ⟨h.once, fun c hc => (h.known c hc).trans (Nat.lt_succ_self _), fun client hphase => ?_,
    h.settled⟩
  have htracks := h.tracks client hphase
  constructor
  · intro c hc
    rw [List.drop_append, List.mem_append] at hc
    rcases hc with hc | hc
    · exact htracks.ahead c hc
    · obtain rfl : c = clients := List.mem_singleton.mp (List.mem_of_mem_drop hc)
      exact hfresh.2
  · intro c hmember hc
    rw [List.take_append, List.mem_append] at hc
    rcases hc with hc | hc
    · exact htracks.behind c hmember hc
    · obtain rfl : c = clients := List.mem_singleton.mp (List.mem_of_mem_take hc)
      exact absurd hmember hfresh.1

/-- **A client is removed**: if it is behind the position, the one at the position is passed over.

**Proof sketch.** Erasing a client behind the position moves the clients from the position on one
place down, so the one at the position falls behind it without a visit and is counted as passed
over. Erasing any other client keeps both sides of the position, less that client. -/
lemma sound_noteRemoval (hnodup : connections.Nodup) (hknown : ∀ c ∈ connections, c < clients)
    (h : b.Sound connections clients) :
    (b.noteRemoval connections client).Sound (connections.erase client) clients := by
  unfold noteRemoval
  cases hphase : b.phase with
  | returned left =>
    refine ⟨h.once, h.known, fun c hc => ?_, h.settled⟩
    rw [hphase] at hc
    cases hc
  | sending awaited =>
    have htracks := h.tracks awaited hphase
    by_cases hmem : client ∈ connections.take b.index
    · simp only [hmem, if_true]
      -- the client at the position, if there is one, has not been visited
      have hnext : ∀ c ∈ connections[b.index]?.toList, c ∈ connections.drop b.index := by
        intro c hc
        rw [Option.mem_toList] at hc
        rw [drop_eq_cons_of_getElem? hc]
        exact List.mem_cons_self
      refine ⟨h.once, ?_, fun _ _ => ⟨?_, ?_⟩, fun _ h => by cases h⟩
      · intro c hcases
        rw [List.mem_append] at hcases
        rcases hcases with hmember | hsent | hpassed | hat
        · exact h.known c (.inl hmember)
        · exact h.known c (.inr (.inl hsent))
        · exact h.known c (.inr (.inr hpassed))
        · exact hknown c (List.mem_of_mem_drop (hnext c hat))
      · intro c hc
        rw [drop_erase_of_mem hmem] at hc
        have hdrop : c ∈ connections.drop b.index := by
          rw [← List.drop_drop] at hc
          exact List.mem_of_mem_drop hc
        obtain ⟨hsent, hpassed⟩ := htracks.ahead c hdrop
        refine ⟨hsent, fun hor => ?_⟩
        rcases List.mem_append.mp hor with hor | hat
        · exact hpassed hor
        · exact not_mem_drop_succ hnodup (Option.mem_toList.mp hat) hc
      · intro c hmember hc
        rw [take_erase_of_mem hmem, List.mem_append] at hc
        rcases hc with hc | hat
        · have hbehind : c ∈ connections.take b.index := List.mem_of_mem_erase hc
          have hnot : c ∉ connections[b.index]?.toList :=
            fun hat => not_mem_drop_of_mem_take hnodup hbehind (hnext c hat)
          rcases htracks.behind c hmember hbehind with ⟨hsent, hpassed⟩ | ⟨hsent, hpassed⟩
          · exact .inl ⟨hsent, fun hor => (List.mem_append.mp hor).elim hpassed hnot⟩
          · exact .inr ⟨hsent, List.mem_append_left _ hpassed⟩
        · obtain ⟨hsent, -⟩ := htracks.ahead c (hnext c hat)
          exact .inr ⟨hsent, List.mem_append_right _ hat⟩
    · simp only [hmem, if_false]
      refine ⟨h.once, h.known, fun _ _ => ⟨fun c hc => ?_, fun c hmember hc => ?_⟩, h.settled⟩
      · rw [drop_erase_of_not_mem hmem] at hc
        exact htracks.ahead c (List.mem_of_mem_erase hc)
      · rw [take_erase_of_not_mem hmem] at hc
        exact htracks.behind c hmember hc

/-- **What a broadcast has done when it returns**: a client of the start that is still there was
sent the message once exactly if it was not passed over. -/
lemma complete_iff (h : b.Sound connections clients) : b.Complete ↔ b.PassesOverNoMember := by
  have hcount : ∀ left, b.phase = .returned left → ∀ c ∈ b.members, c ∈ left →
      (b.sent.count c = 1 ↔ c ∉ b.passedOver) := by
    intro left hphase c hmember hc
    rcases h.settled left hphase c hmember hc with ⟨hsent, hpassed⟩ | ⟨hsent, hpassed⟩
    · exact iff_of_true (List.count_eq_one_of_mem h.once hsent) hpassed
    · have hzero : b.sent.count c = 0 := List.count_eq_zero_of_not_mem hsent
      exact iff_of_false (by omega) (not_not_intro hpassed)
  constructor
  · intro hcomplete left hphase c hmember hc hfine
    exact (hcount left hphase c hmember hc).mp (hcomplete left hphase c hmember hc hfine)
  · intro hkept left hphase c hmember hc hfine
    exact (hcount left hphase c hmember hc).mpr (hkept left hphase c hmember hc hfine)

end Lemmas

end Broadcast

/-! ## All broadcasts -/

section Steps

variable {m m' : WebSocketManager} {a : WebSocketAction} {client : Client}

/-- Removing a client keeps every broadcast sound. -/
lemma sound_disconnect (h : m.Sound) (client : Client) : (m.disconnect client).Sound := by
  refine ⟨h.nodup.erase client, fun c hc => h.known c (List.mem_of_mem_erase hc), fun b hb => ?_⟩
  obtain ⟨b', hb', rfl⟩ := List.mem_map.mp hb
  exact Broadcast.sound_noteRemoval h.nodup h.known (h.broadcasts b' hb')

/-- The clients whose sends failed are disconnected one by one. -/
lemma sound_foldl_disconnect (h : m.Sound) (left : List Client) :
    (left.foldl WebSocketManager.disconnect m).Sound ∧
      (left.foldl WebSocketManager.disconnect m).clients = m.clients ∧
      (left.foldl WebSocketManager.disconnect m).connections ⊆ m.connections := by
  induction left generalizing m with
  | nil => exact ⟨h, rfl, List.Subset.refl _⟩
  | cons client left ih =>
    obtain ⟨hsound, hclients, hsub⟩ := ih (sound_disconnect h client)
    exact ⟨hsound, hclients, fun c hc => List.mem_of_mem_erase (hsub hc)⟩

/-- A broadcast is put in the place of another. -/
lemma sound_set {k : ℕ} {b : Broadcast} (h : m.Sound) (hb : b.Sound m.connections m.clients) :
    WebSocketManager.Sound { m with broadcasts := m.broadcasts.set k b } := by
  refine ⟨h.nodup, h.known, fun b' hb' => ?_⟩
  rcases List.mem_or_eq_of_mem_set hb' with hold | rfl
  · exact h.broadcasts b' hold
  · exact hb

/-- **A broadcast goes on from its send**, and disconnects the clients whose sends failed when its
loop has ended. -/
lemma sound_goOn {k : ℕ} {b : Broadcast} (h : m.Sound)
    (hb : (b.next m.connections).Sound m.connections m.clients) : (m.goOn k b).Sound := by
  have hset := sound_set (k := k) h hb
  cases hphase : (b.next m.connections).phase with
  | sending client =>
    simp only [WebSocketManager.goOn, hphase]
    exact hset
  | returned left =>
    have hleft : left = m.connections := by
      unfold Broadcast.next at hphase
      split at hphase
      · cases hphase
      · exact (BroadcastPhase.returned.inj hphase).symm
    obtain ⟨hsound, hclients, hsub⟩ :=
      sound_foldl_disconnect hset (b.next m.connections).disconnectedClients
    simp only [WebSocketManager.goOn, hphase]
    apply sound_set hsound
    refine ⟨hb.once, fun c hc => ?_, (fun _ h => by cases h), fun left' hleft' c hmember hc => ?_⟩
    · rw [hclients]
      exact hb.known c hc
    · rw [← BroadcastPhase.returned.inj hleft'] at hc
      exact hb.settled left hphase c hmember (hleft ▸ hsub hc)

/-- **The step lemma.**

**Proof sketch.** By cases on the action. A new client has a new number, a removal is
`sound_disconnect`, and a broadcast begins with the clients there are. A send that is done moves
the loop of its broadcast on, by `sound_next`, and a failed one removes its client if that ends
the loop, by `sound_goOn`. -/
lemma sound_step (h : m.Sound) (hs : webSocketStep m a = some m') : m'.Sound := by
  cases a with
  | connect =>
    cases hs
    refine ⟨?_, fun c hc => ?_, fun b hb => Broadcast.sound_connect (h.broadcasts b hb)⟩
    · apply List.Nodup.append h.nodup (List.nodup_singleton _)
      intro c hc hnew
      rw [List.mem_singleton.mp hnew] at hc
      exact absurd (h.known _ hc) (lt_irrefl _)
    · rcases List.mem_append.mp hc with hc | hc
      · exact (h.known c hc).trans (Nat.lt_succ_self _)
      · rw [List.mem_singleton.mp hc]
        exact Nat.lt_succ_self _
  | disconnect client =>
    cases hs
    exact sound_disconnect h client
  | broadcast =>
    cases hs
    refine ⟨h.nodup, h.known, fun b hb => ?_⟩
    rcases List.mem_append.mp hb with hb | hb
    · exact h.broadcasts b hb
    · rw [List.mem_singleton.mp hb]
      exact Broadcast.sound_start h.nodup h.known
  | sendDone k success =>
    obtain ⟨b, hk, hs⟩ := Option.bind_eq_some_iff.mp hs
    have hb := h.broadcasts b (List.mem_of_getElem? hk)
    cases hphase : b.phase with
    | returned left =>
      rw [hphase] at hs
      cases hs
    | sending client =>
      rw [hphase] at hs
      cases hs
      apply sound_goOn h
      apply Broadcast.sound_next h.nodup h.known (Broadcast.tracks_sendDone (hb.tracks _ hphase))
      · unfold Broadcast.sendDone
        cases success <;> exact hb.once
      · unfold Broadcast.sendDone
        cases success <;> exact hb.known

end Steps

/-! ## Every interleaving -/

/-- **When broadcasts are complete.** In a run of any number of broadcasts, with clients connecting,
disconnecting and failing at any time, every broadcast that has returned has sent its message
exactly once to each client that was connected from its start to its end and did not fail, if and
only if no such client was next in its loop when an entry before it was removed.

**Proof sketch.** Induction on the run. The clients of the start that are behind the position of a
loop have been sent the message or were passed over, and the others have not (`Broadcast.Tracks`);
when the loop ends, all clients are behind its position. -/
theorem broadcastComplete_iff {m : WebSocketManager}
    {tr : List (WebSocketManager × WebSocketAction)} (hrun : Run webSocketStep {} tr m) :
    (∀ b ∈ m.broadcasts, b.Complete) ↔ ∀ b ∈ m.broadcasts, b.PassesOverNoMember := by
  have hsound : m.Sound := by
    induction hrun with
    | start => exact ⟨List.nodup_nil, (fun _ h => by cases h), fun _ h => by cases h⟩
    | snoc _ hs ih => exact sound_step ih hs
  constructor
  · intro h b hb
    exact (Broadcast.complete_iff (hsound.broadcasts b hb)).mp (h b hb)
  · intro h b hb
    exact (Broadcast.complete_iff (hsound.broadcasts b hb)).mpr (h b hb)

/-- Two clients connect, and the first leaves when the broadcast has reached the second. -/
def leavesBehind : List WebSocketAction :=
  [.connect, .connect, .broadcast, .sendDone 0 true, .disconnect 0, .sendDone 0 true]

/-- A client that leaves after the last send hides nobody. -/
theorem broadcastComplete_leavesBehind :
    ∃ m, Run webSocketStep {} (traceOf webSocketStep {} leavesBehind) m ∧
      m.broadcasts.map Broadcast.sent = [[0, 1]] ∧ ∀ b ∈ m.broadcasts, b.Complete := by
  obtain ⟨m, hrun, hm⟩ := exists_run_of_replay webSocketStep {} leavesBehind
    (fun m => decide (m.broadcasts.map Broadcast.sent = [[0, 1]] ∧
      m.broadcasts.map Broadcast.passedOver = [[]])) (by decide)
  obtain ⟨hsent, hpassed⟩ := of_decide_eq_true hm
  refine ⟨m, hrun, hsent, (broadcastComplete_iff hrun).mpr fun b hb left _ c _ _ _ => ?_⟩
  have hnil : b.passedOver ∈ m.broadcasts.map Broadcast.passedOver := List.mem_map_of_mem hb
  rw [hpassed, List.mem_singleton] at hnil
  rw [hnil]
  exact List.not_mem_nil

/-- **A client that leaves hides the next one**: three clients are connected, and the first leaves
while the broadcast awaits its send. The loop goes on with the third, and the second, which is
connected all the time, is never sent the message. -/
theorem departed_client_hides_the_next :
    ∃ tr m, Run webSocketStep {} tr m ∧ ∃ b ∈ m.broadcasts, b.members = [0, 1, 2] ∧
      b.phase = .returned [1, 2] ∧ b.disconnectedClients = [] ∧ b.sent = [0, 2] ∧
      ¬ b.Complete := by
  obtain ⟨m, hrun, hm⟩ := exists_run_of_replay webSocketStep {}
    [.connect, .connect, .connect, .broadcast, .disconnect 0, .sendDone 0 true, .sendDone 0 true]
    (fun m => m.broadcasts.any fun b => decide (b.members = [0, 1, 2] ∧
      b.phase = .returned [1, 2] ∧ b.disconnectedClients = [] ∧ b.sent = [0, 2])) (by decide)
  obtain ⟨b, hb, h⟩ := List.any_eq_true.mp hm
  obtain ⟨hmembers, hphase, hfine, hsent⟩ := of_decide_eq_true h
  refine ⟨_, m, hrun, b, hb, hmembers, hphase, hfine, hsent, fun hcomplete => ?_⟩
  have hone := hcomplete [1, 2] hphase 1 (by rw [hmembers]; decide) (by decide)
    (by rw [hfine]; decide)
  rw [hsent] at hone
  exact absurd hone (by decide)

end FileAgent

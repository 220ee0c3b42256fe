import FileAgent.Library.Run
import FileAgent.StateManager

set_option relaxedAutoImplicit false
set_option autoImplicit false

/-!
# The state manager hears its own events

`StateManager` subscribes `handle_file_status_changed` to `FileStatusChangedEvent`, the event its
own `add_file` and `update_file_status_by_id` publish. The handler calls `update_file_status_by_id`
again with the status of the event, so every published change of status comes back as a second
write of that status, its echo, at whatever later moment the event is delivered.

The system of this module is the state manager together with the events it published and that have
not been delivered yet. Its steps are the calls of the other services, each a lock-protected
section, and the deliveries, in any order.

## Main definitions

* `EchoState`, `EchoAction`, `echoStep` — the system.
* `EchoesKeepStatuses`, `LastCallWins`, `CascadeFinite` — what one would expect of the echoes.
* `CallAgrees` — a call writes no status that an undelivered event of the same record contradicts.

## Main results

* `echo_overwrites_status` — the expectations fail: a late echo undoes a newer status, and two
  events of one record can echo each other forever.
* `echo_harmless_of_callAgrees` — they hold in every run whose calls all agree with the events
  still undelivered.
* `echo_changes_status_of_not_callAgrees` — after any other call, some delivery undoes it.
-/

namespace FileAgent

open Transition StateManager

/-- The state manager and its undelivered events. -/
structure EchoState where
  manager : StateManager
  undelivered : List FileStatusChangedEvent

/-- The start: an empty repository and nothing published. -/
def EchoState.initial : EchoState := ⟨⟨FileRepository.empty, [], 0⟩, []⟩

/-- A call by another service, or the delivery of an event; `now` is the time of the section. -/
inductive EchoAction
  | addFile (now : ℕ) (path : FilePath) (size : ℕ) (lastWriteTime : Option ℕ)
  | updateFileStatusById (now : ℕ) (id : FileId) (status : FileStatus) (kwargs : List Attr)
  /-- `handle_file_status_changed` on the `k`-th undelivered event. -/
  | deliver (now : ℕ) (k : ℕ)

/-- The status events of a section, published directly or in a task. -/
def Section.statusEvents (sec : Section) : List FileStatusChangedEvent :=
  sec.published.toList ++ sec.spawned.filterMap fun
    | .fileStatusChanged e => some e
    | .fileReady _ => none

/-- The state after a section: its events join the undelivered ones. -/
def EchoState.after (rest : List FileStatusChangedEvent) (sec : Section) : EchoState :=
  ⟨sec.manager, rest ++ sec.statusEvents⟩

/-- One step. -/
def echoStep (s : EchoState) : EchoAction → Option EchoState
  | .addFile now path size lw => some (.after s.undelivered (s.manager.addFile now path size lw).2)
  | .updateFileStatusById now id status kwargs =>
    some (.after s.undelivered (s.manager.updateFileStatusById now id status kwargs))
  | .deliver now k =>
    match s.undelivered[k]? with
    | none => none
    | some e =>
      some (.after (s.undelivered.eraseIdx k)
        (s.manager.handleFileStatusChanged now e))

/-- The status of a record. -/
abbrev EchoState.status (s : EchoState) (id : FileId) : FileStatus := (s.manager.heap id).status

/-- The record and the status that a call, not an echo, writes. -/
def written (s : EchoState) : EchoAction → Option (FileId × FileStatus)
  | .addFile _ path _ _ =>
    if s.manager.getActiveFileByPath path = none then some (s.manager.repo.nextId, .discovered)
    else none
  | .updateFileStatusById _ id status _ => if id ∈ s.manager.files then some (id, status) else none
  | .deliver _ _ => none

/-- The status that the last call of a trace wrote to a record. -/
def lastCall (id : FileId) (tr : List (EchoState × EchoAction)) : Option FileStatus :=
  tr.foldl (fun acc p => match written p.1 p.2 with
    | some (j, status) => if j = id then some status else acc
    | none => acc) none

/-! ## The expectations -/

/-- Handling a self-published event changes no status. -/
def EchoesKeepStatuses (tr : List (EchoState × EchoAction)) : Prop :=
  ∀ s now k s', (s, EchoAction.deliver now k) ∈ tr → echoStep s (.deliver now k) = some s' →
    ∀ id, s'.status id = s.status id

/-- Once every event is delivered, each record has the status of the last call. -/
def LastCallWins (tr : List (EchoState × EchoAction)) (s : EchoState) : Prop :=
  s.undelivered = [] → ∀ id ∈ s.manager.files, lastCall id tr = some (s.status id)

/-- No endless sequence of deliveries starts in the state. -/
def CascadeFinite (s : EchoState) : Prop :=
  ¬ ∃ f : ℕ → EchoState, f 0 = s ∧
    ∀ n, ∃ now k, echoStep (f n) (.deliver now k) = some (f (n + 1))

/-- The three expectations, for a run with the trace `tr` that ends in `s`. -/
def EchoHarmless (tr : List (EchoState × EchoAction)) (s : EchoState) : Prop :=
  EchoesKeepStatuses tr ∧ LastCallWins tr s ∧ CascadeFinite s

/-- A call writes no status that an undelivered event of the same record contradicts. -/
def CallAgrees (s : EchoState) : EchoAction → Prop
  | .updateFileStatusById _ id status _ =>
    ∀ e ∈ s.undelivered, e.fileId = id → e.newStatus = status
  | _ => True

instance (s : EchoState) : (a : EchoAction) → Decidable (CallAgrees s a)
  | .addFile .. => .isTrue trivial
  | .updateFileStatusById _ id status _ =>
    inferInstanceAs (Decidable (∀ e ∈ s.undelivered, e.fileId = id → e.newStatus = status))
  | .deliver .. => .isTrue trivial

/-! ## The invariant -/

/-- Every undelivered event is about a stored record and carries the status the record has. -/
def Agrees (s : EchoState) : Prop :=
  ∀ e ∈ s.undelivered, e.fileId ∈ s.manager.files ∧ s.status e.fileId = e.newStatus

section Steps

variable {s s' : EchoState} {now : ℕ} {id : FileId} {status : FileStatus} {kwargs : List Attr}

/-- An update publishes its event exactly when it changes the status of a stored record. -/
lemma statusEvents_updateFileStatusById (m : StateManager) :
    (m.updateFileStatusById now id status kwargs).statusEvents =
      if id ∈ m.files ∧ (m.heap id).status ≠ status then
        [⟨id, (m.heap id).filePath, some (m.heap id).status, status⟩] else [] := by
  simp only [Section.statusEvents, published_updateFileStatusById, spawned_updateFileStatusById]
  split_ifs <;> simp

/-- An update keeps the agreement if the events left agree with the status it writes. -/
lemma agrees_after_update {rest : List FileStatusChangedEvent}
    (hrest : ∀ e ∈ rest, e.fileId ∈ s.manager.files ∧ s.status e.fileId = e.newStatus)
    (hid : ∀ e ∈ rest, e.fileId = id → e.newStatus = status) :
    Agrees (.after rest (s.manager.updateFileStatusById now id status kwargs)) := by
  intro e he
  simp only [EchoState.after, statusEvents_updateFileStatusById, List.mem_append] at he
  simp only [EchoState.after, EchoState.status, files_updateFileStatusById,
    status_updateFileStatusById]
  rcases he with he | he
  · refine ⟨(hrest e he).1, ?_⟩
    split_ifs with hj
    · exact (hid e he hj.1).symm
    · exact (hrest e he).2
  · split_ifs at he with hc
    · rw [List.mem_singleton] at he
      subst he
      simp [hc.1]
    · simp at he

/-- Adding a file keeps the agreement: the new record is `DISCOVERED`, as its event says. -/
lemma agrees_after_addFile (h : Agrees s) (path : FilePath) (size : ℕ) (lw : Option ℕ) :
    Agrees (.after s.undelivered (s.manager.addFile now path size lw).2) := by
  rcases addFile_cases s.manager now path size lw with ⟨_, hadd⟩ | ⟨_, hadd⟩ <;> rw [hadd]
  · simpa [EchoState.after, Section.statusEvents, Agrees] using h
  · intro e he
    simp only [EchoState.after, Section.statusEvents, Option.toList_none, List.nil_append,
      List.filterMap_cons, List.filterMap_nil, List.mem_append, List.mem_singleton] at he
    simp only [EchoState.after, EchoState.status, files_withRepo, heap_withRepo,
      FileRepository.insert_files, List.mem_append, List.mem_singleton]
    rcases he with he | rfl
    · obtain ⟨hmem, hst⟩ := h e he
      rw [FileRepository.insert_heap_of_ne _ (s.manager.repo.ne_nextId hmem)]
      exact ⟨.inl hmem, hst⟩
    · simp [TrackedFile.found]

/-- Delivering an event that agrees with its record changes no record's status and publishes
nothing. -/
lemma deliver_of_agrees (h : Agrees s) {k : ℕ} (hs : echoStep s (.deliver now k) = some s') :
    k < s.undelivered.length ∧ s'.undelivered = s.undelivered.eraseIdx k ∧
      s'.manager.files = s.manager.files ∧ ∀ j, s'.status j = s.status j := by
  simp only [echoStep] at hs
  split at hs
  · cases hs
  · rename_i e hk
    obtain ⟨hlt, hget⟩ := List.getElem?_eq_some_iff.mp hk
    obtain ⟨hmem, hst⟩ := h e (hget ▸ List.getElem_mem hlt)
    cases hs
    refine ⟨hlt, ?_, by simp [EchoState.after], fun j => ?_⟩
    · simp only [EchoState.after, statusEvents_updateFileStatusById]
      rw [if_neg (by simpa using fun _ => hst)]
      simp
    · simp only [EchoState.after, EchoState.status, status_updateFileStatusById]
      split_ifs with hj
      · rw [hj.1]; exact hst.symm
      · rfl

/-- Every step that agrees with the undelivered events keeps the agreement. -/
lemma agrees_step (h : Agrees s) {a : EchoAction} (ha : CallAgrees s a)
    (hs : echoStep s a = some s') : Agrees s' := by
  cases a with
  | addFile now path size lw =>
    cases hs
    exact agrees_after_addFile h path size lw
  | updateFileStatusById now id status kwargs =>
    cases hs
    exact agrees_after_update h ha
  | deliver now k =>
    obtain ⟨_, hu, hf, hst⟩ := deliver_of_agrees h hs
    intro e he
    rw [hu] at he
    rw [hf, hst]
    exact h e (List.mem_of_mem_eraseIdx he)

end Steps

/-! ## The runs that agree -/

section Runs

variable {s : EchoState} {tr : List (EchoState × EchoAction)}

/-- The last call after one more step. -/
lemma lastCall_snoc (id : FileId) (p : EchoState × EchoAction) :
    lastCall id (tr ++ [p]) =
      match written p.1 p.2 with
      | some (j, status) => if j = id then some status else lastCall id tr
      | none => lastCall id tr := by
  simp only [lastCall, List.foldl_append, List.foldl_cons, List.foldl_nil]

/-- In a run that agrees, every record has at every moment the status of the last call.

**Proof sketch.** Induction on the run. A call writes the status that becomes the last one, and a
delivery writes none, because the events agree with their records. -/
lemma lastCall_eq_status (hr : Run echoStep EchoState.initial tr s) (hok : Meets CallAgrees tr) :
    ∀ id ∈ s.manager.files, lastCall id tr = some (s.status id) := by
  induction hr with
  | start => intro id hid; cases hid
  | @snoc tr s s' a hr hs ih =>
    rw [meets_append, meets_singleton] at hok
    have hag : Agrees s := hr.invariant hok.1 (by simp [Agrees, EchoState.initial])
      fun _ _ _ h ha hs => agrees_step h ha hs
    intro id hid
    rw [lastCall_snoc]
    cases a with
    | addFile now path size lw =>
      cases hs
      rcases addFile_cases s.manager now path size lw with ⟨⟨e, he⟩, hadd⟩ | ⟨hnone, hadd⟩
      · simp only [EchoState.after, hadd] at hid ⊢
        simpa [written, he] using ih hok.1 id hid
      · simp only [EchoState.after, hadd, files_withRepo, FileRepository.insert_files,
          List.mem_append, List.mem_singleton] at hid
        simp only [written, hnone, if_true, EchoState.after, hadd, EchoState.status, heap_withRepo]
        rcases hid with hid | rfl
        · have hne := s.manager.repo.ne_nextId hid
          rw [if_neg (Ne.symm hne), FileRepository.insert_heap_of_ne _ hne]
          exact ih hok.1 id hid
        · simp [TrackedFile.found]
    | updateFileStatusById now i status kwargs =>
      cases hs
      simp only [EchoState.after, files_updateFileStatusById] at hid
      simp only [written, EchoState.after, EchoState.status, status_updateFileStatusById]
      by_cases hi : i ∈ s.manager.files
      · by_cases hid' : id = i
        · simp [hi, hid']
        · simpa [hi, hid', Ne.symm hid'] using ih hok.1 id hid
      · simpa [hi] using ih hok.1 id hid
    | deliver now k =>
      obtain ⟨_, _, hf, hst⟩ := deliver_of_agrees hag hs
      rw [hf] at hid
      rw [hst]
      exact ih hok.1 id hid

/-- From a state whose events agree with their records, no endless cascade starts: each delivery
consumes an event and publishes none. -/
lemma cascadeFinite_of_agrees (h : Agrees s) : CascadeFinite s := by
  rintro ⟨f, h0, hstep⟩
  have hall : ∀ n, Agrees (f n) ∧ (f n).undelivered.length + n = s.undelivered.length := by
    intro n
    induction n with
    | zero => rw [h0]; exact ⟨h, rfl⟩
    | succ n ih =>
      obtain ⟨now, k, hs⟩ := hstep n
      obtain ⟨hlt, hu, _, _⟩ := deliver_of_agrees ih.1 hs
      refine ⟨agrees_step (a := .deliver now k) ih.1 trivial hs, ?_⟩
      have hlen := List.length_eraseIdx_of_lt hlt
      rw [hu, hlen]
      omega
  have := (hall (s.undelivered.length + 1)).2
  omega

/-- **Echoes are harmless in the runs that agree**: if no call writes a status that an undelivered
event of the same record contradicts, no echo changes a status, every record ends with the status
of the last call, and the cascade of echoes is finite.

**Proof sketch.** The agreement of the undelivered events with their records is an invariant of
such runs (`agrees_step`). A delivered event then finds its own status in the record
(`deliver_of_agrees`). -/
theorem echo_harmless_of_callAgrees (hr : Run echoStep EchoState.initial tr s)
    (hok : Meets CallAgrees tr) : EchoHarmless tr s := by
  have h₀ : Agrees EchoState.initial := by simp [Agrees, EchoState.initial]
  have hkeep : ∀ s a s', Agrees s → CallAgrees s a → echoStep s a = some s' → Agrees s' :=
    fun _ _ _ h ha hs => agrees_step h ha hs
  refine ⟨?_, fun _ => lastCall_eq_status hr hok,
    cascadeFinite_of_agrees (hr.invariant hok h₀ hkeep)⟩
  intro s₁ now k s₂ hmem hs
  exact hr.forall_steps
    (P := fun s₁ a s₂ => ∀ now k, a = .deliver now k → ∀ id, s₂.status id = s₁.status id)
    hok h₀ hkeep
    (fun s₁ a s₂ h _ hs now k ha id => by
      subst ha
      exact (deliver_of_agrees h hs).2.2.2 id)
    s₁ _ s₂ hmem hs now k rfl

/-- A file that becomes `READY` after its discovery was delivered keeps that status. -/
theorem echo_harmless_after_delivery :
    ∃ s, EchoHarmless (traceOf echoStep .initial
        [.addFile 0 "/src/a.mxf" 1 none, .deliver 0 0, .updateFileStatusById 0 0 .ready [],
          .deliver 0 0]) s ∧ s.undelivered = [] ∧ s.status 0 = .ready := by
  obtain ⟨s, hr, hp⟩ := exists_run_of_replay echoStep .initial
    ([.addFile 0 "/src/a.mxf" 1 none, .deliver 0 0, .updateFileStatusById 0 0 .ready [],
      .deliver 0 0]) (fun s => s.undelivered = [] ∧ s.status 0 = .ready) (by decide +kernel)
  exact ⟨s, echo_harmless_of_callAgrees hr (by decide +kernel), by simpa using hp⟩

/-- Every undelivered event is about a stored record.

**Proof sketch.** By induction on the run. An event is created by an update of a stored record or
by the record stored, and no action removes one. -/
lemma mem_files_of_undelivered (hr : Run echoStep EchoState.initial tr s) :
    ∀ e ∈ s.undelivered, e.fileId ∈ s.manager.files := by
  have hok : Meets (fun _ _ => True) tr := fun _ _ => trivial
  refine hr.invariant (I := fun s => ∀ e ∈ s.undelivered, e.fileId ∈ s.manager.files) hok
    (by simp [EchoState.initial]) fun s a s' h _ hs => ?_
  have hupd : ∀ (rest : List FileStatusChangedEvent) now id status kwargs,
      (∀ e ∈ rest, e.fileId ∈ s.manager.files) →
      ∀ e ∈ (EchoState.after rest
          (s.manager.updateFileStatusById now id status kwargs)).undelivered,
        e.fileId ∈ s.manager.files := by
    intro rest now id status kwargs hrest e he
    simp only [EchoState.after, statusEvents_updateFileStatusById, List.mem_append] at he
    rcases he with he | he
    · exact hrest e he
    · split_ifs at he with hc
      · exact List.mem_singleton.mp he ▸ hc.1
      · simp at he
  cases a with
  | addFile now path size lw =>
    cases hs
    rcases addFile_cases s.manager now path size lw with ⟨_, hadd⟩ | ⟨_, hadd⟩
    · simpa [EchoState.after, hadd, Section.statusEvents] using h
    · intro e he
      simp only [EchoState.after, hadd, Section.statusEvents, Option.toList_none,
        List.nil_append, List.filterMap_cons, List.filterMap_nil, List.mem_append,
        List.mem_singleton, files_withRepo, FileRepository.insert_files] at he ⊢
      exact he.imp (h e) (fun he => by rw [he])
  | updateFileStatusById now id status kwargs =>
    cases hs
    simpa [EchoState.after] using hupd s.undelivered now id status kwargs h
  | deliver now k =>
    simp only [echoStep] at hs
    split at hs
    · cases hs
    · cases hs
      simpa [EchoState.after] using hupd _ now _ _ []
        fun e he => h e (List.mem_of_mem_eraseIdx he)

/-- The condition is exact: after a call that an undelivered event contradicts, delivering that
event changes the status the call wrote. -/
theorem echo_changes_status_of_not_callAgrees (hr : Run echoStep EchoState.initial tr s)
    {now : ℕ} {id : FileId} {status : FileStatus} {kwargs : List Attr} {s' : EchoState}
    (hcall : ¬ CallAgrees s (.updateFileStatusById now id status kwargs))
    (hs : echoStep s (.updateFileStatusById now id status kwargs) = some s') :
    s'.status id = status ∧
      ∃ k s'', echoStep s' (.deliver now k) = some s'' ∧ s''.status id ≠ status := by
  simp only [CallAgrees] at hcall
  push Not at hcall
  obtain ⟨e, he, rfl, hne⟩ := hcall
  have hmem := mem_files_of_undelivered hr e he
  cases hs
  obtain ⟨k, hk⟩ := List.mem_iff_getElem?.mp he
  have hlt := (List.getElem?_eq_some_iff.mp hk).1
  refine ⟨by simp [EchoState.after, EchoState.status, status_updateFileStatusById, hmem], k, ?_⟩
  simp only [echoStep, EchoState.after, List.getElem?_append_left hlt, hk, Option.some.injEq,
    exists_eq_left', EchoState.status, status_updateFileStatusById, files_updateFileStatusById]
  simpa [hmem] using hne

end Runs

/-! ## Runs that disagree -/

/-- Two undelivered events of one record with different statuses, the second of which the record
has. -/
def PingPong (s : EchoState) : Prop :=
  ∃ e₁ e₂ : FileStatusChangedEvent, s.undelivered = [e₁, e₂] ∧ e₁.fileId = e₂.fileId ∧
    e₂.fileId ∈ s.manager.files ∧ e₁.newStatus ≠ e₂.newStatus ∧ s.status e₂.fileId = e₂.newStatus

/-- Delivering the first of two such events leads to two such events again. -/
lemma pingPong_step {s : EchoState} (h : PingPong s) :
    ∃ s', echoStep s (.deliver 0 0) = some s' ∧ PingPong s' := by
  obtain ⟨e₁, e₂, hu, hid, hmem, hne, hst⟩ := h
  have hchange : e₁.fileId ∈ s.manager.files ∧ (s.manager.heap e₁.fileId).status ≠ e₁.newStatus :=
    ⟨hid ▸ hmem, by rw [hid]; exact fun h => hne (h ▸ hst)⟩
  refine ⟨.after [e₂] (s.manager.updateFileStatusById 0 e₁.fileId e₁.newStatus []),
    by simp [echoStep, hu], e₂,
    ⟨e₁.fileId, (s.manager.heap e₁.fileId).filePath, some (s.manager.heap e₁.fileId).status,
      e₁.newStatus⟩, ?_, hid.symm, ?_, hne.symm, ?_⟩
  · simp only [EchoState.after, statusEvents_updateFileStatusById]
    rw [if_pos hchange]
    rfl
  · simpa [EchoState.after] using hchange.1
  · simp [EchoState.after, EchoState.status, status_updateFileStatusById, hchange.1]

/-- Two such events echo each other forever. -/
lemma not_cascadeFinite_of_pingPong {s : EchoState} (h : PingPong s) : ¬ CascadeFinite s := by
  let next : EchoState → EchoState := fun t => (echoStep t (.deliver 0 0)).getD t
  have hnext : ∀ t, PingPong t → echoStep t (.deliver 0 0) = some (next t) ∧ PingPong (next t) := by
    intro t ht
    obtain ⟨t', hs, ht'⟩ := pingPong_step ht
    simp only [next, hs, Option.getD_some]
    exact ⟨trivial, ht'⟩
  have hall : ∀ n, PingPong (next^[n] s) := by
    intro n
    induction n with
    | zero => exact h
    | succ n ih => rw [Function.iterate_succ_apply']; exact (hnext _ ih).2
  refine not_not.mpr ⟨fun n => next^[n] s, rfl, fun n => ⟨0, 0, ?_⟩⟩
  simp only [Function.iterate_succ_apply']
  exact (hnext _ (hall n)).1

/-- A file is added and then set to `READY` while the event of its discovery is undelivered. -/
def readyBeforeEcho : List EchoAction :=
  [.addFile 0 "/src/a.mxf" 1 none, .updateFileStatusById 0 0 .ready []]

/-- **The expectations fail.** With the event of the discovery still undelivered when the file
becomes `READY`, its delivery sets the file back to `DISCOVERED`. Delivered after the echo of
`READY`, it is the last write; delivered before it, the two events echo each other forever.

**Proof sketch.** Each part is a run from the start, found by evaluation. After `readyBeforeEcho`
the first event still undelivered sets the status back. With both events delivered after the echo
of READY, the last status is DISCOVERED though the last call wrote READY. With the two events in
this order, each delivery creates the event that the other needs
(`not_cascadeFinite_of_pingPong`). -/
theorem echo_overwrites_status :
    (¬ ∀ tr s, Run echoStep .initial tr s → EchoesKeepStatuses tr) ∧
      (¬ ∀ tr s, Run echoStep .initial tr s → LastCallWins tr s) ∧
      ¬ ∀ tr s, Run echoStep .initial tr s → CascadeFinite s := by
  refine ⟨fun h => ?_, fun h => ?_, fun h => ?_⟩
  · obtain ⟨s, hr, hp⟩ := exists_run_of_replay echoStep .initial
      readyBeforeEcho
      (fun s => (echoStep s (.deliver 0 0)).any fun s' => s'.status 0 ≠ s.status 0)
      (by decide +kernel)
    obtain ⟨s', hs, hne⟩ := (Option.any_eq_true _ _).mp hp
    exact absurd (h _ _ (hr.snoc hs) s 0 0 s' (by simp) hs 0) (by simpa using hne)
  · obtain ⟨s, hr, hp⟩ := exists_run_of_replay echoStep .initial
      (readyBeforeEcho ++ [.deliver 0 1, .deliver 0 0, .deliver 0 0])
      (fun s => s.undelivered = [] ∧ s.manager.files = [0] ∧ s.status 0 = .discovered)
      (by decide +kernel)
    simp only [decide_eq_true_eq] at hp
    have hlast : lastCall 0 (traceOf echoStep .initial
        (readyBeforeEcho ++ [.deliver 0 1, .deliver 0 0, .deliver 0 0])) = some .ready := by
      decide +kernel
    have := h _ _ hr hp.1 0 (by simp [hp.2.1])
    rw [hlast, hp.2.2] at this
    cases this
  · obtain ⟨s, hr, hp⟩ := exists_run_of_replay echoStep .initial
      readyBeforeEcho
      (fun s => s.manager.files = [0] ∧ s.status 0 = .ready ∧ s.undelivered =
        [⟨0, "/src/a.mxf", none, .discovered⟩, ⟨0, "/src/a.mxf", some .discovered, .ready⟩])
      (by decide +kernel)
    simp only [decide_eq_true_eq] at hp
    refine not_cascadeFinite_of_pingPong ?_ (h _ _ hr)
    exact ⟨_, _, hp.2.2, rfl, by simp [hp.1], by decide, hp.2.1⟩

end FileAgent

import FileAgent.System

set_option relaxedAutoImplicit false
set_option autoImplicit false

/-!
# No ready file is lost

A record that becomes `READY` is to be put into the queue by `handle_file_ready`, which is told by
a `FileReadyEvent`. Several places write the statuses `READY` and `READY_TO_START_GROWING`, and only
one of them, `update_file_status_by_id` with `READY`, publishes the event.

## Main definitions

* `System.Quiet`, `WasReady`, `Moved` — no event is undelivered; a record was ready; it has been
  moved to `IN_QUEUE`, with a job.
* `ReadyHandled` — the condition on the steps.
* `Task.Announces`, `Accounted` — the invariant: each `READY` record has a task that will handle it.

## Main results

* `accounted_step`, `neverToStartGrowing_step` — the step lemmas.
* `ready_files_queued` — no ready file is lost in the runs that meet the condition.
* `growing_file_is_lost` — a file in `READY_TO_START_GROWING` that nobody handles.
-/

namespace FileAgent

open Transition StateManager

/-! ## The property -/

/-- The two statuses of a file that is to be queued. -/
def FileStatus.isReady : FileStatus → Bool
  | .ready | .readyToStartGrowing => true
  | _ => false

/-- The stored record `id` has the status `status`. -/
def System.Has (s : System) (id : FileId) (status : FileStatus) : Prop :=
  id ∈ s.manager.files ∧ (s.manager.heap id).status = status

instance (s : System) (id : FileId) (status : FileStatus) : Decidable (s.Has id status) :=
  inferInstanceAs (Decidable (_ ∧ _))

/-- A task that has an event to deliver, or runs its handler. -/
def Task.delivers (t : Task) : Bool :=
  match t.phase with
  | .publishing _ _ => true
  | _ =>
    match t.point with
    | .fileReady _ => true
    | p => p.handles.any fun h => h.2 ≠ .returned

/-- No published event is undelivered. -/
def System.Quiet (s : System) : Prop := ∀ t ∈ s.tasks, t.delivers = false

/-- The record was ready in some state of the run. -/
def WasReady (tr : List (System × SystemAction)) (id : FileId) : Prop :=
  ∃ p ∈ tr, id ∈ p.1.manager.files ∧ (p.1.manager.heap id).status.isReady = true

instance (tr : List (System × SystemAction)) (id : FileId) : Decidable (WasReady tr id) :=
  inferInstanceAs (Decidable (∃ p ∈ tr, _ ∧ _))

/-- A job of the record has been put into the queue. -/
def JobPut (cfg : Settings) (tr : List (System × SystemAction)) (id : FileId) : Prop :=
  ∃ p ∈ tr, ∃ s', systemStep cfg p.1 p.2 = some s' ∧ ∃ job ∈ s'.jobs, job.file = id

/-- The record has been moved from `READY` to `IN_QUEUE`, and a job of it was put into the queue. -/
def Moved (cfg : Settings) (tr : List (System × SystemAction)) (id : FileId) : Prop :=
  JobPut cfg tr id ∧
    ∃ p ∈ tr, p.1.Has id .ready ∧ ∃ s', systemStep cfg p.1 p.2 = some s' ∧ s'.Has id .inQueue

/-- A step in which `handle_file_ready` looks at the destination finds it available. -/
def FoundAvailable (s : System) : SystemAction → Prop
  | .run i _ _ => ∀ t ∈ s.tasks[i]?, ∀ h ∈ t.point.handles, h.2 = .getFileById →
      isNetworkAvailable s.destinationInfo = true
  | _ => True

/-- Whenever `handle_file_ready` looks, the destination is available. -/
def AvailableThroughout (tr : List (System × SystemAction)) : Prop := Meets FoundAvailable tr

instance (s : System) : Decidable s.Quiet :=
  inferInstanceAs (Decidable (∀ t ∈ s.tasks, t.delivers = false))

instance (s : System) : (a : SystemAction) → Decidable (FoundAvailable s a)
  | .run i _ _ => inferInstanceAs (Decidable (∀ t ∈ s.tasks[i]?, ∀ h ∈ t.point.handles,
      h.2 = .getFileById → isNetworkAvailable s.destinationInfo = true))
  | .createQueue => .isTrue trivial
  | .subscribe => .isTrue trivial

instance (tr : List (System × SystemAction)) : Decidable (AvailableThroughout tr) :=
  inferInstanceAs (Decidable (Meets FoundAvailable tr))

/-! ## The condition -/

/-- The growth check that a task is about to decide. -/
def CheckPoint.decides : CheckPoint → Option GrowthCheck
  | .decide c => some c
  | _ => none

@[inherit_doc CheckPoint.decides]
def TaskPoint.decides : TaskPoint → Option GrowthCheck
  | .scanner (.check _ p _) | .monitor (.check _ p _) => p.decides
  | _ => none

/-- A retry that turns `WAITING_FOR_SPACE` into `READY`. -/
def Op.fires (m : StateManager) : Op → Bool
  | .call (.executeRetryTask id) =>
    id ∈ m.files && (m.heap id).status = .waitingForSpace && (m.heap id).retryInfo.isSome
  | _ => false

/-- A cleanup that marks the record as missing, or drops it. -/
def Op.cleansUp (m : StateManager) (now : ℕ) (id : FileId) : Op → Bool
  | .call (.cleanupMissingFiles paths) => id ∈ m.missingFiles paths
  | .call (.cleanupOldFiles hours) => id ∈ m.oldFiles now hours
  | _ => false

/-- The condition on a step of the task `t`: no growth check recommends `READY_TO_START_GROWING`, no
retry turns a record `READY`, a `FileReadyEvent` finds its handler subscribed, and the status of a
`READY` record is changed only by a handler that has put its job into the queue. -/
def TaskHandled (cfg : Settings) (s : System) (now : ℕ) (t : Task) : Prop :=
  (∀ c ∈ t.point.decides, c.recommend cfg ≠ .readyToStartGrowing) ∧
    (t.nextOp cfg).fires s.manager = false ∧
    (match t.point with
      | .fileReady _ => s.readySubscribed
      | _ => true) = true ∧
    ∀ id ∈ s.manager.files, (s.manager.heap id).status = .ready →
      (t.nextOp cfg).cleansUp s.manager now id = false ∧
        (t.addsJob id = true ∨ ∀ st ∈ (t.nextOp cfg).writes id, st = .ready)

instance (cfg : Settings) (s : System) (now : ℕ) (t : Task) : Decidable (TaskHandled cfg s now t) :=
  inferInstanceAs (Decidable (_ ∧ _ ∧ _ ∧ _))

/-- The condition on a step. -/
def ReadyHandled (cfg : Settings) (s : System) : SystemAction → Prop
  | .run i now _ => ∀ t ∈ s.tasks[i]?, TaskHandled cfg s now t
  | _ => True

instance (cfg : Settings) (s : System) : (a : SystemAction) → Decidable (ReadyHandled cfg s a)
  | .run i now _ => inferInstanceAs (Decidable (∀ t ∈ s.tasks[i]?, TaskHandled cfg s now t))
  | .createQueue => .isTrue trivial
  | .subscribe => .isTrue trivial

/-! ## `READY_TO_START_GROWING` -/

/-- The status a suspended task is going to write. -/
def CheckPoint.held : CheckPoint → Option FileStatus
  | .startTracking st _ _ | .keepStatus st _ => some st
  | _ => none

@[inherit_doc CheckPoint.held]
def TaskPoint.held : TaskPoint → Option FileStatus
  | .scanner (.sizeChange _ st _ _ _) | .scanner (.growthUpdate _ st _ _)
  | .scanner (.published _ st _) | .monitor (.update _ st _)
  | .worker (.initializeCopyStatus _ st _ _) | .worker (.handleFailure _ _ st _) => some st
  | .scanner (.check _ p _) | .monitor (.check _ p _) => p.held
  | _ => none

/-- A task does not hold the status `READY_TO_START_GROWING`. -/
def Task.Fine (t : Task) : Prop :=
  t.point.held ≠ some .readyToStartGrowing ∧
    ∀ e a, t.phase = .publishing e a → e.newStatus ≠ .readyToStartGrowing

/-- No record has the status `READY_TO_START_GROWING`, and no task holds it. -/
def NeverToStartGrowing (s : System) : Prop :=
  (∀ id, (s.manager.heap id).status ≠ .readyToStartGrowing) ∧ ∀ t ∈ s.tasks, t.Fine

section ToStartGrowing

variable {cfg : Settings} {view : View} {s s' : System} {now : ℕ}

/-- A growth check takes the status it writes from the record. -/
lemma check_held {f : FileId} {p p' : CheckPoint} {a : Answer}
    (hheap : ∀ id, (view.heap id).status ≠ .readyToStartGrowing)
    (h : p.after cfg view f a = some (.goesOn p')) : p'.held ≠ some .readyToStartGrowing := by
  cases CheckPoint.next_of_after h with
  | sized n =>
    unfold CheckPoint.sized
    split
    · simpa [CheckPoint.held] using hheap f
    · intro h
      cases h
  | present c => simpa [CheckPoint.held] using hheap f
  | _ =>
    intro h
    cases h

/-- A growth check recommends `READY_TO_START_GROWING` only by its decision. -/
lemma check_recommends {f : FileId} {p : CheckPoint} {a : Answer} {st : FileStatus}
    (hdec : ∀ c ∈ p.decides, c.recommend cfg ≠ .readyToStartGrowing)
    (h : p.after cfg view f a = some (.recommends st)) : st ≠ .readyToStartGrowing := by
  cases CheckPoint.next_of_after h with
  | tracked => decide
  | decides c => exact hdec c rfl
  | lost p a hst => rcases hst with rfl | rfl <;> decide

/-- A monitor between two records holds no status. -/
@[simp] lemma held_monitorNext (heap : FileId → TrackedFile) (ids : List FileId) :
    (TaskPoint.monitor (.next heap ids)).held = none := by
  rcases MonitorPoint.next_cases heap ids with h | ⟨f, rest, -, h⟩ <;> rw [h] <;> rfl

/-- A scan between two paths holds no status. -/
@[simp] lemma held_nextPath (paths : List FilePath) :
    (TaskPoint.scanner (.nextPath paths)).held = none := by
  cases paths <;> rfl

/-- A scan between two records holds no status. -/
@[simp] lemma held_nextFile (ids : List FileId) :
    (TaskPoint.scanner (.nextFile ids)).held = none := by
  cases ids <;> rfl

/-- A scan that has stored its reading holds no status. -/
@[simp] lemma held_afterGrowthInfo (heap : FileId → TrackedFile) (f : FileId) (rest : List FileId) :
    (TaskPoint.scanner (.afterGrowthInfo heap f rest)).held = none := by
  rcases ScannerPoint.afterGrowthInfo_cases heap f rest with h | h <;> rw [h]
  · rfl
  · exact held_nextFile rest

/-- The scanner takes the statuses it writes from the records and from the growth checks. -/
lemma scanner_held {p p' : ScannerPoint} {a : Answer}
    (hheap : ∀ id, (view.heap id).status ≠ .readyToStartGrowing)
    (hdec : ∀ c ∈ (TaskPoint.scanner p).decides, c.recommend cfg ≠ .readyToStartGrowing)
    (h : p.after cfg view a = some p') :
    (TaskPoint.scanner p').held ≠ some .readyToStartGrowing := by
  cases ScannerPoint.next_of_after h with
  | checks f q q' rest hcheck => exact check_held hheap hcheck
  | publishes f q st rest hcheck =>
    simpa [TaskPoint.held] using check_recommends hdec hcheck
  | resizes f rest => simpa [TaskPoint.held] using hheap f
  | growthRead f i info rest => simpa [TaskPoint.held] using hheap f
  | _ => first | simp; done | simp [TaskPoint.held]

/-- A worker holds only the statuses of a copy that begins or fails. -/
lemma worker_held {p p' : WorkerPoint} {a : Answer} (h : p.after cfg view a = some p') :
    (TaskPoint.worker p').held ≠ some .readyToStartGrowing := by
  cases WorkerPoint.next_of_after h with
  | prepared job dest =>
    rcases determineInitialStatus_cases (view.heap job.file) with hst | hst <;>
      simp [TaskPoint.held, hst]
  | copies job dest q q' =>
    rcases WorkerPoint.afterCopy_cases view job dest q' with
      hp | hp | hp | ⟨st, reason, rfl | rfl, hp⟩ <;> simp [hp, TaskPoint.held]
  | _ => simp [TaskPoint.held]

/-- No task comes to hold `READY_TO_START_GROWING`. -/
lemma point_held {p p' : TaskPoint} {a : Answer}
    (hheap : ∀ id, (view.heap id).status ≠ .readyToStartGrowing)
    (hdec : ∀ c ∈ p.decides, c.recommend cfg ≠ .readyToStartGrowing)
    (h : p.after cfg view a = some p') : p'.held ≠ some .readyToStartGrowing := by
  cases TaskPoint.next_of_after h with
  | scanner p q hq => exact scanner_held hheap hdec hq
  | worker p q hq => exact worker_held hq
  | monitor p q hq =>
    cases MonitorPoint.next_of_after hq with
    | checks f c c' rest hcheck => exact check_held hheap hcheck
    | updates f c st rest hcheck => simpa [TaskPoint.held] using check_recommends hdec hcheck
    | slept => simp [TaskPoint.held]
    | _ => simp
  | _ => simp [TaskPoint.held]

/-- The status a growth check writes is the one it holds. -/
lemma held_of_check_writes {f id : FileId} {p : CheckPoint} {st : FileStatus}
    (h : (p.op f).writes id = some st) : p.held = some st := by
  cases p <;> simp only [CheckPoint.op, Op.writes] at h <;> try cases h
  all_goals
    split_ifs at h
    exact h

/-- A task holds the status `READY_TO_START_GROWING` if it writes it.

**Proof sketch.** By cases on the point. The operations that write a status given to them write
the one the point holds; all others write a fixed status, and none of these is
`READY_TO_START_GROWING`. -/
lemma held_of_writes {p : TaskPoint} {id : FileId}
    (h : (p.op cfg).writes id = some .readyToStartGrowing) :
    p.held = some .readyToStartGrowing := by
  cases p with
  | scanner p =>
    cases p with
    | check f q rest => exact held_of_check_writes h
    | sizeChange f st size lw rest =>
      simp only [TaskPoint.op, ScannerPoint.op, Op.writes] at h
      split_ifs at h
      exact h
    | growthUpdate f st attrs rest =>
      simp only [TaskPoint.op, ScannerPoint.op, Op.writes] at h
      split_ifs at h
      exact h
    | ready f q rest =>
      cases q <;> simp [TaskPoint.op, ScannerPoint.op, HandlerPoint.op, Op.writes] at h
    | _ => cases h
  | monitor p =>
    cases p with
    | check f q rest => exact held_of_check_writes h
    | update f st rest =>
      simp only [TaskPoint.op, MonitorPoint.op, Op.writes] at h
      split_ifs at h
      exact h
    | _ => cases h
  | worker p =>
    cases p with
    | copy job dest q =>
      rcases WorkerPoint.copyOp_writes h with hst | hst | ⟨hst, -⟩ <;> cases hst
    | initializeCopyStatus job st dest startedAt =>
      simp only [TaskPoint.op, WorkerPoint.op, Op.writes] at h
      split_ifs at h
      exact h
    | handleFailure job dest st reason =>
      simp only [TaskPoint.op, WorkerPoint.op, Op.writes] at h
      split_ifs at h
      exact h
    | _ => simp [TaskPoint.op, WorkerPoint.op, Op.writes] at h
  | storage p => cases p <;> simp [TaskPoint.op, StoragePoint.op, Op.writes] at h
  | retry handle f p => cases p <;> cases h
  | handleFileReady f p => cases p <;> simp [TaskPoint.op, HandlerPoint.op, Op.writes] at h
  | _ => cases h

/-- A task without the status `READY_TO_START_GROWING` does not write it. -/
lemma nextOp_writes_ne (cfg : Settings) {t : Task} (ht : t.Fine) (id : FileId) :
    (t.nextOp cfg).writes id ≠ some .readyToStartGrowing := by
  intro h
  unfold Task.nextOp at h
  split at h
  · exact ht.1 (held_of_writes h)
  · rename_i e a hphase
    simp only [Op.writes] at h
    split_ifs at h
    exact ht.2 e a hphase (Option.some.inj h)
  · cases h

/-- The status of the event a task publishes is the one it holds. -/
lemma held_of_publishes {heap : FileId → TrackedFile} {p : TaskPoint} {e : FileStatusChangedEvent}
    (h : p.publishes heap = some e) : p.held = some e.newStatus := by
  cases p with
  | scanner p =>
    cases p with
    | published f st rest =>
      cases h
      rfl
    | _ => cases h
  | _ => cases h

/-- A task that goes on is fine.

**Proof sketch.** The status a task holds after its step it held before, has read, or was
recommended by a growth check; none of these is `READY_TO_START_GROWING`, by the hypotheses. The
event it publishes carries the status it holds, or the one it has written. -/
lemma fine_goOn {t t' : Task} {published : Option FileStatusChangedEvent} {a : Answer}
    (ht : t.Fine) (hheap : ∀ id, (view.heap id).status ≠ .readyToStartGrowing)
    (hdec : ∀ c ∈ t.point.decides, c.recommend cfg ≠ .readyToStartGrowing)
    (hpub : ∀ e ∈ published, e.newStatus ≠ .readyToStartGrowing)
    (h : t.goOn cfg view published a = some t') : t'.Fine := by
  have harrive : ∀ {b : Answer}, (t.point.after cfg view b).map (Task.arrive view.heap) = some t' →
      t'.Fine := by
    intro b hb
    obtain ⟨p', hp', rfl⟩ := Option.map_eq_some_iff.mp hb
    have hheld := point_held hheap hdec hp'
    refine ⟨hheld, fun e c he => ?_⟩
    simp only [Task.arrive] at he
    split at he
    · rename_i e' hpub'
      cases he
      rw [held_of_publishes hpub'] at hheld
      exact fun hst => hheld (congrArg some hst)
    · cases he
  unfold Task.goOn at h
  split at h
  · exact harrive h
  · rename_i e _
    cases h
    refine ⟨ht.1, ?_⟩
    rintro e' c ⟨⟩
    exact hpub _ rfl
  · cases h
    exact ⟨ht.1, by simp⟩
  · cases h
    refine ⟨ht.1, ?_⟩
    rintro e' c ⟨⟩
    exact hpub _ rfl
  · exact harrive h

/-- A task that holds no status is fine. -/
lemma fine_of_held_eq_none {p : TaskPoint} (h : p.held = none) : Task.Fine { point := p } := by
  simp [Task.Fine, h]

/-- The tasks an operation creates do not hold `READY_TO_START_GROWING`. -/
lemma fine_created {m : StateManager} {o : Op} {t : Task}
    (h : t ∈ System.created m o (m.perform cfg now o).1) : t.Fine := by
  rcases created_perform_cases h with ⟨e, rfl⟩ | ⟨path, rfl⟩ | ⟨f, rfl⟩
  · exact fine_of_held_eq_none rfl
  · refine ⟨(fun h => by cases h), ?_⟩
    rintro e a ⟨⟩
    intro h
    cases h
  · exact fine_of_held_eq_none rfl

/-- **The step lemma for `READY_TO_START_GROWING`**: it is never written.

**Proof sketch.** No task holds the status, so none writes it (`nextOp_writes_ne`), and the other
operations write REMOVED, READY and DISCOVERED. The growth checks do not recommend it by the
condition, so the tasks stay fine by `fine_goOn`. -/
lemma neverToStartGrowing_step {a : SystemAction} (h : NeverToStartGrowing s)
    (hok : ReadyHandled cfg s a) (hs : systemStep cfg s a = some s') : NeverToStartGrowing s' := by
  by_cases ha : ∀ i now env, a ≠ .run i now env
  · obtain ⟨hmanager, htasks, -⟩ := systemStep_of_ne_run hs ha
    rwa [NeverToStartGrowing, hmanager, htasks]
  · push Not at ha
    obtain ⟨i, now, env, rfl⟩ := ha
    obtain ⟨t, t', ht, -, hgo, rfl⟩ := systemStep_run hs
    obtain ⟨hdec, -, -, -⟩ := hok t ht
    have hfine := h.2 t (List.mem_of_getElem? ht)
    have hwrites := nextOp_writes_ne cfg hfine
    have hheap : ∀ id, ((s.perform cfg now (t.nextOp cfg)).1.manager.heap id).status ≠
        .readyToStartGrowing := by
      intro id
      rw [perform_fst]
      rcases status_perform_cases cfg s.manager now (t.nextOp cfg) id with
        hst | ⟨-, hst | ⟨-, -, -, hst⟩ | ⟨-, -, -, hst⟩⟩ | ⟨-, hst⟩
      · rw [hst]
        exact h.1 id
      · exact fun hrtsg => hwrites id (hst.trans (congrArg some hrtsg))
      all_goals
        rw [hst]
        decide
    refine ⟨hheap, fun u hu => ?_⟩
    rcases mem_tasks_step hu with rfl | rfl | hnew | ⟨j, -, hj⟩
    · refine fine_goOn hfine hheap hdec (fun e he => ?_) hgo
      rw [perform_fst] at he
      exact fun hst => hwrites e.fileId ((published_perform he).2.trans (congrArg some hst))
    · exact fine_of_held_eq_none rfl
    · rw [perform_fst] at hnew
      exact fine_created hnew
    · exact h.2 u (List.mem_of_getElem? hj)

end ToStartGrowing

/-! ## `READY` -/

/-- The task will handle the record `id` if it is `READY`: it is to publish its event, or runs its
handler, which has not written `IN_QUEUE` yet. -/
def Task.Announces (id : FileId) (t : Task) : Prop :=
  t.phase = .awaiting ∧
    ((∃ path, t.point = .fileReady ⟨id, path⟩) ∨ t.point = .handleFileReady id .getFileById ∨
      t.point = .handleFileReady id .added)

/-- Each `READY` record is accounted for by a task. -/
def Accounted (s : System) : Prop := ∀ id, s.Has id .ready → ∃ t ∈ s.tasks, t.Announces id

/-- Handlers only run once the queue is subscribed, and so has been created. -/
def QueueReady (s : System) : Prop :=
  (s.readySubscribed = true → s.queueCreated = true) ∧
    ∀ t ∈ s.tasks, ∀ f p, t.point = .handleFileReady f p → s.readySubscribed = true

section Ready

variable {cfg : Settings} {s s' : System} {i now : ℕ} {env : Env} {id : FileId}

/-- **A task that announces a record** still does after its step, as long as the record stays
`READY`.

**Proof sketch.** By cases on the three points. The event goes to its handler, which looks the
record up; it is READY and the network is available, so the handler puts the job and goes on to
write IN_QUEUE. That write ends READY, so it cannot be the step. -/
lemma announces_goOn {t t' : Task} {f : FileId} (ht : t.Announces f)
    (hsub : ∀ e, t.point = .fileReady e → s.readySubscribed = true)
    (hqueue : ∀ f p, t.point = .handleFileReady f p → s.queueCreated = true)
    (hav : t.point.handles = some (f, .getFileById) → isNetworkAvailable s.destinationInfo = true)
    (hfile : f ∈ s.manager.files)
    (hready : ((s.perform cfg now (t.nextOp cfg)).1.manager.heap f).status = .ready)
    (hgo : t.goOn cfg (s.view (s.perform cfg now (t.nextOp cfg)).1 now env)
        (s.perform cfg now (t.nextOp cfg)).1.published (s.perform cfg now (t.nextOp cfg)).2 =
        some t') : t'.Announces f := by
  obtain ⟨point, phase⟩ := t
  obtain ⟨hphase, ⟨path, hpoint⟩ | hpoint | hpoint⟩ := ht <;>
    obtain rfl : phase = .awaiting := hphase <;> obtain rfl : point = _ := hpoint
  · have hsub := hsub _ rfl
    simp only [Task.nextOp, TaskPoint.op, System.perform, perform, Task.goOn, TaskPoint.after,
      System.view, hsub, if_true, Option.map_some, Option.some.injEq] at hgo
    subst hgo
    exact ⟨rfl, .inr (.inl rfl)⟩
  · have hqueue := hqueue _ _ rfl
    have hav := hav rfl
    simp only [Task.nextOp, TaskPoint.op, HandlerPoint.op, System.perform, perform,
      StateManager.getFileById, hfile, if_true] at hgo hready
    simp only [Task.goOn, TaskPoint.after, HandlerPoint.after, System.view, hready, hqueue, hav,
      ne_eq, not_true, if_false, if_true, Option.map_some, Option.some.injEq] at hgo
    subst hgo
    exact ⟨rfl, .inr (.inr rfl)⟩
  · simp only [Task.nextOp, TaskPoint.op, HandlerPoint.op, System.perform, perform, call,
      status_updateFileStatusById, hfile, and_self, if_true] at hready
    cases hready

/-- A handler has its own task from the delivery of its event on. -/
lemma handler_goOn {view : View} {t t' : Task} {published : Option FileStatusChangedEvent}
    {a : Answer} {f : FileId} {p : HandlerPoint} (h : t.goOn cfg view published a = some t')
    (hp : t'.point = .handleFileReady f p) :
    (∃ q, t.point = .handleFileReady f q) ∨ view.readySubscribed = true := by
  rcases point_goOn h with hsame | ⟨b, hafter, -⟩
  · exact .inl ⟨p, hsame ▸ hp⟩
  · generalize t.point = r, t'.point = r' at hafter hp ⊢
    cases TaskPoint.next_of_after hafter with
    | delivered e a hsubscribed => exact .inr hsubscribed
    | handles g q q' =>
      cases hp
      exact .inl ⟨q, rfl⟩
    | _ => cases hp

/-- The step lemma for the subscription. -/
lemma queueReady_step {a : SystemAction} (h : QueueReady s) (hs : systemStep cfg s a = some s') :
    QueueReady s' := by
  cases a with
  | createQueue => cases hs; exact ⟨fun _ => rfl, h.2⟩
  | subscribe =>
    simp only [systemStep] at hs
    split_ifs at hs with hc
    cases hs
    exact ⟨fun _ => hc, fun _ _ _ _ _ => rfl⟩
  | run i now env =>
    obtain ⟨t, t', ht, -, hgo, rfl⟩ := systemStep_run hs
    refine ⟨h.1, fun u hu f p hp => ?_⟩
    rcases mem_tasks_step hu with rfl | rfl | hnew | ⟨j, -, hj⟩
    · rcases handler_goOn hgo hp with ⟨q, hq⟩ | hsub
      · exact h.2 t (List.mem_of_getElem? ht) f q hq
      · exact hsub
    · cases hp
    · rcases created_cases hnew with ⟨ev, -, rfl⟩ | ⟨g, rfl⟩
      · cases ev <;> cases hp
      · cases hp
    · exact h.2 u (List.mem_of_getElem? hj) f p hp

/-- A task that announces a record is no timer of a retry. -/
lemma not_retry_of_announces {t : Task} (h : t.Announces id) :
    ∀ handle f p, t.point ≠ .retry handle f p := by
  rintro handle f p hp
  obtain ⟨-, ⟨path, hpt⟩ | hpt | hpt⟩ := h <;> rw [hp] at hpt <;> cases hpt

/-- **The step lemma for `READY`**: a record that becomes `READY` is announced, and one that stays
`READY` is still accounted for.

**Proof sketch.** A record is READY after the step because it was READY before, or because the
step wrote READY. In the first case the task that announces it is still there, or it is the one
that ran and announces it further. In the second the StateManager has published the event, and the
task created for it announces the record. A retry that fires is excluded by the condition. -/
lemma accounted_step {t : Task} (h : Accounted s) (hq : QueueReady s) (ht : s.tasks[i]? = some t)
    (hok : TaskHandled cfg s now t)
    (hav : ∀ f, t.point.handles = some (f, .getFileById) →
      isNetworkAvailable s.destinationInfo = true)
    (hs : systemStep cfg s (.run i now env) = some s') : Accounted s' := by
  obtain ⟨-, hfires, hsub, -⟩ := hok
  obtain ⟨t₀, t', ht₀, -, hgo, rfl⟩ := systemStep_run hs
  obtain rfl : t = t₀ := Option.some.inj (ht.symm.trans ht₀)
  have hmem := List.mem_of_getElem? ht
  rintro id ⟨hid, hst⟩
  dsimp only at hid hst ⊢
  have hmgr : (s.perform cfg now (t.nextOp cfg)).1 = (s.manager.perform cfg now (t.nextOp cfg)).1 :=
    perform_fst _
  have hfile : id ∈ s.manager.files := by
    rw [hmgr] at hid hst
    rcases mem_files_perform hid with hfile | ⟨-, hdisc⟩
    · exact hfile.1
    · rw [hst] at hdisc; cases hdisc
  -- a record that stays `READY`
  have hstays : (s.manager.heap id).status = .ready →
      ∃ u ∈ (s.tasks.set i t').map
          (Task.cancel (s.perform cfg now (t.nextOp cfg)).1.cancelled) ++
        System.created s.manager (t.nextOp cfg) (s.perform cfg now (t.nextOp cfg)).1,
        u.Announces id := by
    intro hbefore
    obtain ⟨u, hu, hann⟩ := h id ⟨hfile, hbefore⟩
    obtain ⟨j, hj⟩ := List.mem_iff_getElem?.mp hu
    by_cases hji : j = i
    · subst hji
      obtain rfl : t = u := Option.some.inj (ht.symm.trans hj)
      have hann' : t'.Announces id := announces_goOn hann
        (fun e he => by simpa [he] using hsub)
        (fun f p hp => hq.1 (hq.2 t hmem f p hp)) (hav id) hfile hst hgo
      exact ⟨t', self_mem_tasks_step ht (not_retry_of_announces hann'), hann'⟩
    · exact ⟨u, exists_tasks_step hji hj (not_retry_of_announces hann), hann⟩
  rw [hmgr] at hst
  rcases status_perform_cases cfg s.manager now (t.nextOp cfg) id with
    hsame | ⟨-, hwr | ⟨-, -, -, hrem⟩ | ⟨ho, hwfs, hretry, -⟩⟩ | ⟨-, hdisc⟩
  · exact hstays (hsame.symm.trans hst)
  · by_cases hbefore : (s.manager.heap id).status = .ready
    · exact hstays hbefore
    · rw [hst] at hwr
      have hspawn : .fileReady ⟨id, (s.manager.heap id).filePath⟩ ∈
          (s.manager.perform cfg now (t.nextOp cfg)).1.spawned := spawned_perform hfile hwr hbefore
      rw [← hmgr] at hspawn
      refine ⟨Task.ofEvent _, List.mem_append_right _ (List.mem_append_left _
        (List.mem_map_of_mem hspawn)), rfl, .inl ⟨_, rfl⟩⟩
  · rw [hst] at hrem; cases hrem
  · rw [ho] at hfires
    simp [Op.fires, hfile, hwfs, hretry] at hfires
  · rw [hst] at hdisc; cases hdisc

end Ready

/-! ## Runs -/

section Runs

variable {cfg : Settings} {s s' : System} {i now : ℕ} {env : Env} {id : FileId} {a : SystemAction}
  {tr : List (System × SystemAction)}

/-- A job once put stays put. -/
lemma JobPut.append (h : JobPut cfg tr id) (p : System × SystemAction) :
    JobPut cfg (tr ++ [p]) id := by
  obtain ⟨q, hq, hs⟩ := h
  exact ⟨q, List.mem_append_left _ hq, hs⟩

/-- A record once moved stays moved. -/
lemma Moved.append (h : Moved cfg tr id) (p : System × SystemAction) :
    Moved cfg (tr ++ [p]) id := by
  obtain ⟨hput, q, hq, hs⟩ := h
  exact ⟨hput.append p, q, List.mem_append_left _ hq, hs⟩

/-- The invariant of the runs that meet the condition. -/
structure ReadyInv (cfg : Settings) (tr : List (System × SystemAction)) (s : System) : Prop where
  growing : NeverToStartGrowing s
  queue : QueueReady s
  accounted : Accounted s
  /-- A handler that is about to write `IN_QUEUE` has put a job into the queue. -/
  jobs : ∀ t ∈ s.tasks, ∀ f, t.point.handles = some (f, .added) → JobPut cfg tr f
  /-- A record that was ready still is, or has been moved. -/
  moved : ∀ id, WasReady tr id → s.Has id .ready ∨ Moved cfg tr id

/-- A step keeps a `READY` record, or it is the handler's that has put its job. -/
lemma ready_step {t : Task} (ht : s.tasks[i]? = some t) (hok : TaskHandled cfg s now t)
    (hready : s.Has id .ready) (hs : systemStep cfg s (.run i now env) = some s') :
    s'.Has id .ready ∨ t.addsJob id = true ∧ s'.Has id .inQueue := by
  obtain ⟨-, -, -, hkeep⟩ := hok
  obtain ⟨hclean, hwrites⟩ := hkeep id hready.1 hready.2
  obtain ⟨t₀, t', ht₀, -, -, rfl⟩ := systemStep_run hs
  obtain rfl : t = t₀ := Option.some.inj (ht.symm.trans ht₀)
  simp only [System.Has]
  rw [perform_fst]
  have hfile : id ∈ (s.manager.perform cfg now (t.nextOp cfg)).1.manager.files := by
    refine mem_files_perform_of_mem hready.1 fun hours ho => ?_
    simpa [ho, Op.cleansUp] using hclean
  rcases status_perform_cases cfg s.manager now (t.nextOp cfg) id with
    hsame | ⟨-, hwr | ⟨paths, ho, hmiss, -⟩ | ⟨-, hwfs, -, -⟩⟩ | ⟨hid, -⟩
  · exact .inl ⟨hfile, hsame.trans hready.2⟩
  · rcases hwrites with hadds | hwrites
    · obtain ⟨ho, -⟩ := nextOp_of_addsJob cfg hadds
      refine .inr ⟨hadds, hfile, ?_⟩
      rw [ho] at hwr ⊢
      simpa [Op.writes] using hwr.symm
    · exact .inl ⟨hfile, hwrites _ hwr⟩
  · simp [ho, Op.cleansUp, hmiss] at hclean
  · rw [hready.2] at hwfs; cases hwfs
  · exact absurd hid (s.manager.repo.ne_nextId hready.1)

/-- The step lemma for the jobs that handlers put. -/
lemma jobs_step (h : ∀ t ∈ s.tasks, ∀ f, t.point.handles = some (f, .added) → JobPut cfg tr f)
    (hs : systemStep cfg s a = some s') :
    ∀ t ∈ s'.tasks, ∀ f, t.point.handles = some (f, .added) →
      JobPut cfg (tr ++ [(s, a)]) f := by
  intro u hu f hf
  by_cases ha : ∀ i now env, a ≠ .run i now env
  · rw [(systemStep_of_ne_run hs ha).2.1] at hu
    exact (h u hu f hf).append _
  · push Not at ha
    obtain ⟨i, now, env, rfl⟩ := ha
    obtain ⟨t, t', ht, -, hgo, rfl⟩ := systemStep_run hs
    rcases mem_tasks_step hu with rfl | rfl | hnew | ⟨j, -, hj⟩
    · rcases added_goOn hgo hf with ⟨hf', -⟩ | ⟨-, -, hput⟩
      · exact (h t (List.mem_of_getElem? ht) f hf').append _
      · exact ⟨(s, .run i now env), by simp, _, hs, _, mem_jobs_of_put hput _, rfl⟩
    · cases hf
    · rw [handles_created hnew] at hf; cases hf
    · exact (h u (List.mem_of_getElem? hj) f hf).append _

/-- A step keeps a `READY` record, or moves it to `IN_QUEUE`. -/
lemma ready_step_moved (h : ReadyInv cfg tr s) (hok : ReadyHandled cfg s a)
    (hs : systemStep cfg s a = some s') (hready : s.Has id .ready) :
    s'.Has id .ready ∨ Moved cfg (tr ++ [(s, a)]) id := by
  by_cases ha : ∀ i now env, a ≠ .run i now env
  · exact .inl (by rwa [System.Has, (systemStep_of_ne_run hs ha).1])
  · push Not at ha
    obtain ⟨i, now, env, rfl⟩ := ha
    obtain ⟨t, -, ht, -, -, -⟩ := systemStep_run hs
    rcases ready_step ht (hok t ht) hready hs with hready' | ⟨hadds, hqueued⟩
    · exact .inl hready'
    · have hput := h.jobs t (List.mem_of_getElem? ht) id (nextOp_of_addsJob cfg hadds).2
      exact .inr ⟨hput.append _, (s, .run i now env), by simp, hready, s', hs, hqueued⟩

/-- A record that was ready up to now still is, or has been moved. -/
lemma ready_or_moved (h : ReadyInv cfg tr s) (hid : WasReady (tr ++ [(s, a)]) id) :
    s.Has id .ready ∨ Moved cfg tr id := by
  obtain ⟨p, hp, hfile, hst⟩ := hid
  rcases List.mem_append.mp hp with hp | hp
  · exact h.moved id ⟨p, hp, hfile, hst⟩
  · obtain rfl := List.mem_singleton.mp hp
    refine .inl ⟨hfile, ?_⟩
    have hne := h.growing.1 id
    revert hst hne
    cases (s.manager.heap id).status <;> simp [FileStatus.isReady]

/-- **The step lemma.** -/
lemma readyInv_step (h : ReadyInv cfg tr s) (hok : ReadyHandled cfg s a)
    (hav : AvailableThroughout (tr ++ [(s, a)])) (hs : systemStep cfg s a = some s') :
    ReadyInv cfg (tr ++ [(s, a)]) s' where
  growing := neverToStartGrowing_step h.growing hok hs
  queue := queueReady_step h.queue hs
  jobs := jobs_step h.jobs hs
  accounted := by
    by_cases ha : ∀ i now env, a ≠ .run i now env
    · obtain ⟨hmanager, htasks, -⟩ := systemStep_of_ne_run hs ha
      intro id hid
      rw [System.Has, hmanager] at hid
      rw [htasks]
      exact h.accounted id hid
    · push Not at ha
      obtain ⟨i, now, env, rfl⟩ := ha
      obtain ⟨t, -, ht, -, -, -⟩ := systemStep_run hs
      exact accounted_step h.accounted h.queue ht (hok t ht)
        (fun f hf => hav (s, .run i now env) (by simp) t ht _ hf rfl) hs
  moved := by
    intro id hid
    rcases ready_or_moved h hid with hready | hmoved
    · exact ready_step_moved h hok hs hready
    · exact .inr (hmoved.append _)

/-- At the start no record is ready and none was. -/
lemma readyInv_start (n : ℕ) : ReadyInv cfg [] (.start n) where
  growing := by
    refine ⟨(fun _ h => by cases h), fun t ht => ?_⟩
    simp only [System.start, List.cons_append, List.nil_append, List.mem_cons,
      List.mem_replicate] at ht
    rcases ht with rfl | rfl | rfl | ⟨-, rfl⟩ <;>
      exact fine_of_held_eq_none rfl
  queue := by
    refine ⟨(fun h => by cases h), fun t ht f p hp => ?_⟩
    simp only [System.start, List.cons_append, List.nil_append, List.mem_cons,
      List.mem_replicate] at ht
    rcases ht with rfl | rfl | rfl | ⟨-, rfl⟩ <;> cases hp
  accounted := fun id hid => by cases hid.1
  jobs := by
    intro t ht f hf
    simp only [System.start, List.cons_append, List.nil_append, List.mem_cons,
      List.mem_replicate] at ht
    rcases ht with rfl | rfl | rfl | ⟨-, rfl⟩ <;> cases hf
  moved := fun id hid => by
    obtain ⟨p, hp, -⟩ := hid
    cases hp

/-- The invariant holds after every run that meets the condition.

**Proof sketch.** By induction on the run from its start; each step is `readyInv_step`. -/
lemma readyInv_of_run {n : ℕ} (hrun : Run (systemStep cfg) (.start n) tr s)
    (hok : Meets (ReadyHandled cfg) tr) (hav : AvailableThroughout tr) : ReadyInv cfg tr s := by
  induction hrun with
  | start => exact readyInv_start n
  | snoc _ hs ih =>
    rw [meets_append, meets_singleton] at hok
    exact readyInv_step (ih hok.1 fun p hp => hav p (List.mem_append_left _ hp)) hok.2 hav hs

/-- **No ready file is lost** in the runs whose steps all meet the condition: once no published
event is undelivered, no record is `READY` or `READY_TO_START_GROWING`, and every record that was
has been moved to `IN_QUEUE`, with a job.

**Proof sketch.** `READY_TO_START_GROWING` is never written. A record that becomes `READY` is
announced in a task of its own, which accounts for it until its handler, having put a job into the
queue, writes `IN_QUEUE`. In a quiet state there is no such task. -/
theorem ready_files_queued {n : ℕ} (hrun : Run (systemStep cfg) (.start n) tr s)
    (hok : Meets (ReadyHandled cfg) tr) (hav : AvailableThroughout tr) (hquiet : s.Quiet) :
    (∀ id ∈ s.manager.files, (s.manager.heap id).status.isReady = false) ∧
      ∀ id, WasReady tr id → Moved cfg tr id := by
  have hinv := readyInv_of_run hrun hok hav
  have hnone : ∀ id, ¬ s.Has id .ready := by
    intro id hid
    obtain ⟨t, ht, hphase, hpoint⟩ := hinv.accounted id hid
    have hdelivers := hquiet t ht
    simp only [Task.delivers, hphase] at hdelivers
    rcases hpoint with ⟨path, hpt⟩ | hpt | hpt <;> simp [hpt, TaskPoint.handles] at hdelivers
  constructor
  · intro id hid
    have hready := hnone id
    have hgrowing := hinv.growing.1 id
    revert hready hgrowing
    simp only [System.Has, hid, true_and]
    cases (s.manager.heap id).status <;> simp [FileStatus.isReady]
  · exact fun id hid => (hinv.moved id hid).resolve_left (hnone id)

/-- A small file that does not change is queued. -/
theorem ready_files_queued_smallFile :
    ∃ tr s, Run (systemStep {}) (.start 1) tr s ∧ WasReady tr 0 ∧ Moved {} tr 0 := by
  obtain ⟨s, hrun, hs⟩ := exists_run_of_replay (systemStep {}) (.start 1)
    (smallFile ++ scannerHandles ++ eventHandled)
    (fun s => decide (s.Quiet ∧ s.Has 0 .inQueue)) (by decide +kernel)
  obtain ⟨hquiet, -⟩ := of_decide_eq_true hs
  have hwas : WasReady (traceOf (systemStep {}) (.start 1)
      (smallFile ++ scannerHandles ++ eventHandled)) 0 := by decide +kernel
  exact ⟨_, s, hrun, hwas,
    (ready_files_queued hrun (by decide +kernel) (by decide +kernel) hquiet).2 0 hwas⟩

/-- **A file is lost**: it has 200 MB when it is found, and one byte more a moment later. -/
theorem growing_file_is_lost :
    ∃ tr s, Run (systemStep {}) (.start 1) tr s ∧ s.queueCreated = true ∧
      AvailableThroughout tr ∧ s.Quiet ∧ s.jobs = [] ∧ s.Has 0 .readyToStartGrowing := by
  obtain ⟨s, hrun, hs⟩ := exists_run_of_replay (systemStep {}) (.start 1)
    (startUp ++ discoverFile 209715200 ++ checkStability 0 209715200 209715201 ++
      [.run 0 0 {}, .run 0 0 {}, .run 0 0 {}])
    (fun s => decide (s.queueCreated = true ∧ s.Quiet ∧ s.jobs = [] ∧
      s.Has 0 .readyToStartGrowing)) (by decide +kernel)
  obtain ⟨hqueue, hquiet, hjobs, hhas⟩ := of_decide_eq_true hs
  exact ⟨_, s, hrun, hqueue, by decide +kernel, hquiet, hjobs, hhas⟩

end Runs

end FileAgent

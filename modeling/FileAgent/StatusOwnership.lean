import FileAgent.System

set_option relaxedAutoImplicit false
set_option autoImplicit false

/-!
# Who changes a status

The loops, the handlers and the workers all write the status of a record, most of them a status they
have read, or decided on, in an earlier section. A record that is in the queue is to be left to the
worker that takes its job.

## Main definitions

* `Task.worksOn`, `Task.owns` — the workers of a record.
* `StatusOwned` — a status of a worker is changed by the worker only.
* `Task.visits`, `Task.Agrees` — what a suspended task may still write to a record.
* `OwnershipKept` — the condition on the steps.
* `Ownership` — the invariant.

## Main results

* `owns_goOn`, `visits_goOn`, `writes_goOn` — how a task comes to own a record, and to write to it.
* `ownership_step` — the step lemma.
* `statusOwned_of_ownershipKept` — the property of the runs that meet the condition.
* `inQueue_written_over_copying` — a handler that writes over the status of a worker.
-/

namespace FileAgent

open Transition StateManager

/-! ## The property -/

/-- The statuses from the queue to the end of a copy. -/
def FileStatus.isOwned : FileStatus → Bool
  | .inQueue | .copying | .growingCopy | .completed => true
  | _ => false

/-- The task processes a job of the record. -/
def Task.worksOn (id : FileId) (t : Task) : Bool := t.point.job?.any (·.file = id)

/-- The worker has written no status yet. -/
def TaskPoint.isFirstWrite : TaskPoint → Bool
  | .worker (.waitForNetwork ..) | .worker (.incrementRetryCount ..) | .worker (.markSpaceError ..)
  | .worker (.waitForSpace ..) | .worker (.failForSpace ..)
  | .worker (.initializeCopyStatus ..) => true
  | _ => false

@[inherit_doc TaskPoint.isFirstWrite]
def Task.isFirstWrite (t : Task) : Bool :=
  match t.phase with
  | .awaiting => t.point.isFirstWrite
  | _ => false

/-- The task is a worker that has begun to write the status of the record, and has not returned. -/
def Task.owns (id : FileId) (t : Task) : Bool := t.worksOn id && !t.isFirstWrite

/-- The status of a record is changed in a step only if it is not `COMPLETED`; if the record is in
the queue or being copied, only by a worker that processes a job of it; and if a worker has begun
with it and has not returned, only by that worker. -/
def StatusOwned (s : System) (a : SystemAction) (s' : System) : Prop :=
  ∀ id ∈ s.manager.files, (s'.manager.heap id).status ≠ (s.manager.heap id).status →
    ∃ i now env, a = .run i now env ∧
      (s.manager.heap id).status ≠ .completed ∧
      ((s.manager.heap id).status.isOwned = true → ∃ t ∈ s.tasks[i]?, t.worksOn id = true) ∧
      ∀ j, (∃ t ∈ s.tasks[j]?, t.owns id = true) → j = i

/-! ## The condition -/

/-- The record is on the list of files that a loop is to check or to release, or its growth is being
checked: the loop is going to write a status that it does not know yet. -/
def TaskPoint.visits (id : FileId) : TaskPoint → Bool
  | .scanner (.getGrowing discovered) => id ∈ discovered
  | .scanner (.growthMetadata f rest) | .scanner (.growthFile f _ rest)
  | .scanner (.growthUpdate f _ _ rest) | .scanner (.check f _ rest)
  | .monitor (.check f _ rest) => id = f || id ∈ rest
  | .scanner (.published _ _ rest) | .scanner (.ready _ _ rest) | .monitor (.update _ _ rest)
  | .storage (.release _ rest) => id ∈ rest
  | _ => false

/-- The task is a worker of the record, or it is going to write no other status than `st` to it. -/
def Task.Agrees (cfg : Settings) (id : FileId) (st : FileStatus) (t : Task) : Prop :=
  t.worksOn id = true ∨
    t.point.visits id = false ∧ ∀ st' ∈ (t.nextOp cfg).writes id, st' = st

instance (cfg : Settings) (id : FileId) (st : FileStatus) (t : Task) :
    Decidable (t.Agrees cfg id st) :=
  inferInstanceAs (Decidable (_ ∨ _ ∧ _))

/-- The files that a section lists for a loop. -/
def TaskPoint.lists (m : StateManager) : TaskPoint → List FileId
  | .scanner .getDiscovered => m.getFilesByStatus .discovered
  | .scanner (.getGrowing _) => m.getFilesByStatus .growing
  | .monitor .getAllFiles => m.files.filter (MonitorPoint.isWatched ∘ m.heap)
  | .storage .getWaiting => m.getFilesByStatus .waitingForNetwork
  | _ => []

/-- A cleanup that marks the record as missing, or a retry of the record that fires. -/
def Op.removesOrRetries (m : StateManager) (id : FileId) : Op → Bool
  | .call (.cleanupMissingFiles paths) => id ∈ m.missingFiles paths
  | .call (.executeRetryTask i) =>
    i = id && (m.heap id).status = .waitingForSpace && (m.heap id).retryInfo.isSome
  | _ => false

/-- A task that turns to the record: a loop lists it, a cleanup or a retry changes it, or
`handle_file_ready` finds it `READY`. -/
def Task.picks (cfg : Settings) (m : StateManager) (id : FileId) (t : Task) : Bool :=
  id ∈ t.point.lists m || (t.nextOp cfg).removesOrRetries m id ||
    (t.point.handles = some (id, .getFileById) && (m.heap id).status = .ready)

/-- The write of `st` over `old` is a worker's first or changes the status for it, or it changes the
status to one of a worker. -/
def Task.hands (id : FileId) (old st : FileStatus) (t : Task) : Bool :=
  t.worksOn id && (t.isFirstWrite || st ≠ old) || (st ≠ old && st.isOwned)

/-- The condition on a step of the task `t` at `i` for the record `id`. Where the step hands the
record on, no other task is going to write another status to it, no other worker has begun with it,
and it is not `COMPLETED` if the worker has just begun. A task turns to it only when no worker has
begun with it. -/
def HandedOn (cfg : Settings) (s : System) (i : ℕ) (t : Task) (id : FileId) : Prop :=
  (∀ st ∈ (t.nextOp cfg).writes id, t.hands id (s.manager.heap id).status st = true →
      (∀ u ∈ s.tasks, u.Agrees cfg id st) ∧ (∀ u ∈ s.tasks.eraseIdx i, u.owns id = false) ∧
        (t.isFirstWrite = true → (s.manager.heap id).status ≠ .completed)) ∧
    (t.picks cfg s.manager id = true → ∀ u ∈ s.tasks, u.owns id = false)

instance (cfg : Settings) (s : System) (i : ℕ) (t : Task) (id : FileId) :
    Decidable (HandedOn cfg s i t id) :=
  inferInstanceAs (Decidable (_ ∧ _))

/-- The job whose file `copy_file` is looking up by its path. -/
def TaskPoint.looksUp : TaskPoint → Option QueueJob
  | .worker (.copy job _ (.latestFile _)) => some job
  | _ => none

/-- `copy_file` finds no file by its path, or that of its job. -/
def TaskPoint.FindsOwn (m : StateManager) (p : TaskPoint) : Prop :=
  ∀ job ∈ p.looksUp, ∀ id ∈ m.getFileByPath job.path, id = job.file

instance (m : StateManager) (p : TaskPoint) : Decidable (p.FindsOwn m) :=
  inferInstanceAs (Decidable (∀ job ∈ p.looksUp, ∀ id ∈ m.getFileByPath job.path, id = job.file))

/-- The condition on a step. -/
def OwnershipKept (cfg : Settings) (s : System) : SystemAction → Prop
  | .run i _ _ => ∀ t ∈ s.tasks[i]?,
      (∀ id ∈ s.manager.files, HandedOn cfg s i t id) ∧ t.point.FindsOwn s.manager
  | _ => True

instance (cfg : Settings) (s : System) : (a : SystemAction) → Decidable (OwnershipKept cfg s a)
  | .run i _ _ => inferInstanceAs (Decidable (∀ t ∈ s.tasks[i]?,
      (∀ id ∈ s.manager.files, HandedOn cfg s i t id) ∧ t.point.FindsOwn s.manager))
  | .createQueue => .isTrue trivial
  | .subscribe => .isTrue trivial

/-! ## The workers -/

/-- A worker copies the file of its job, and its statuses at the beginning and after a failure are
not `COMPLETED`. -/
def WorkerPoint.Regular : WorkerPoint → Prop
  | .initializeCopyStatus _ st _ _ | .handleFailure _ _ st _ => st ≠ .completed
  | .copy job _ q => ∀ f ∈ q.file?, f = job.file
  | _ => True

/-- The points of a worker that has written `COMPLETED`, or is about to. -/
def TaskPoint.completes : TaskPoint → Bool
  | .worker (.finalize ..) | .worker (.copy _ _ (.markCompleted _)) => true
  | _ => false

/-- What holds of every task: a worker is regular, and the event it publishes is its own. -/
structure Task.Regular (cfg : Settings) (t : Task) : Prop where
  consistent : t.Consistent cfg
  echoes : ∀ e a, t.phase = .publishing e a → t.point.job? ≠ none →
    (t.point.op cfg).writes e.fileId = some e.newStatus
  worker : ∀ p, t.point = .worker p → p.Regular

section Workers

variable {cfg : Settings} {view : View} {s : System} {now : ℕ} {id : FileId} {st : FileStatus}

/-- A worker whose copies are related to their jobs by `R`, and whose statuses at the beginning and
after a failure are not `COMPLETED`. -/
def WorkerPoint.Copies (R : QueueJob → FileId → Prop) : WorkerPoint → Prop
  | .initializeCopyStatus _ st _ _ | .handleFailure _ _ st _ => st ≠ .completed
  | .copy job _ q => ∀ f ∈ q.file?, R job f
  | _ => True

/-- A worker is regular when its copy is of the record of its job. -/
lemma regular_iff_copies {p : WorkerPoint} : p.Regular ↔ p.Copies fun job f => f = job.file := by
  cases p <;> exact Iff.rfl

/-- A copy begins with the file of its job, and goes on with the file found by its path.

**Proof sketch.** By cases on the transition. A copy begins with the file of the job. While it
goes on it keeps its file, or takes the one it has just looked up by the path (`file?_resume`).
The other points of a worker do not copy. -/
lemma copies_after {R : QueueJob → FileId → Prop} {p p' : WorkerPoint} {a : Answer}
    (hp : p.Copies R) (h : p.after cfg view a = some p')
    (hown : ∀ job ∈ p.job?, R job job.file)
    (hfound : ∀ job ∈ (TaskPoint.worker p).looksUp, ∀ i, a = .file (some i) → R job i) :
    p'.Copies R := by
  cases WorkerPoint.next_of_after h with
  | prepared job =>
    rcases determineInitialStatus_cases (view.heap job.file) with hst | hst <;>
      simp [WorkerPoint.Copies, hst]
  | copies job dest q q' b hb hq' =>
    rcases WorkerPoint.afterCopy_cases view job dest q' with
      hc | hc | hc | ⟨st, reason, hst, hc⟩ <;> rw [hc]
    · rcases CopyPoint.file?_resume hq' with hnone | hsame | ⟨file, latest, rfl, rfl, rfl⟩
      · simp [WorkerPoint.Copies, hnone]
      · simpa [WorkerPoint.Copies, hsame] using hp
      · -- the file was looked up by its path
        simp only [WorkerPoint.Copies, CopyPoint.file?, Option.mem_def, Option.some.injEq,
          forall_eq']
        cases latest with
        | none => exact hp file rfl
        | some i =>
          cases a <;> cases hb
          exact hfound job rfl i rfl
    · trivial
    · trivial
    · rcases hst with rfl | rfl <;> simp [WorkerPoint.Copies]
  | initialized job => simpa [WorkerPoint.Copies, CopyPoint.file?] using hown job rfl
  | _ => trivial

/-- A worker stays regular if the file it finds by a path is that of its job. -/
lemma regular_after {p p' : WorkerPoint} {a : Answer} (hp : p.Regular)
    (h : p.after cfg view a = some p')
    (hown : ∀ job ∈ (TaskPoint.worker p).looksUp, ∀ i, a = .file (some i) → i = job.file) :
    p'.Regular :=
  regular_iff_copies.mpr (copies_after (regular_iff_copies.mp hp) h (fun _ _ => rfl) hown)

/-- A worker writes to the record of its job. -/
lemma job?_of_op_writes {p : WorkerPoint} (hp : p.Regular) (h : (p.op cfg).writes id = some st) :
    ∃ job, p.job? = some job ∧ job.file = id := by
  cases p with
  | copy job dest q =>
    refine ⟨job, rfl, ?_⟩
    have hfile : q.file? = some id := by
      cases q <;>
        simp only [WorkerPoint.op, CopyPoint.request, WorkerPoint.copyOp, Op.writes] at h <;>
        try cases h
      all_goals
        split_ifs at h with hi
        exact congrArg some hi
    exact (hp id hfile).symm
  | getNextJob => cases h
  | incrementRetryCount job check => cases h
  | scheduleRetry job check temporary => cases h
  | _ =>
    simp only [WorkerPoint.op, Op.writes] at h
    split_ifs at h with hi
    exact ⟨_, rfl, hi⟩

/-- A worker writes what its point says, also when it delivers an event. -/
lemma op_writes_of_nextOp {t : Task} (ht : t.Regular cfg) (hjob : t.point.job? ≠ none)
    (h : (t.nextOp cfg).writes id = some st) : (t.point.op cfg).writes id = some st := by
  unfold Task.nextOp at h
  split at h
  · exact h
  · rename_i e a hphase
    have hecho := ht.echoes e a hphase hjob
    simp only [Op.writes] at h
    split_ifs at h with hi
    rw [← hi, hecho, h]
  · cases h

/-- A worker that writes to a record processes a job of it. -/
lemma worksOn_of_writes {t : Task} {p : WorkerPoint} (ht : t.Regular cfg) (hp : t.point = .worker p)
    (h : (t.nextOp cfg).writes id = some st) : t.worksOn id = true := by
  by_cases hjob : t.point.job? = none
  · -- a worker without a job waits for one
    cases p with
    | getNextJob =>
      have hphase := awaiting_of_consistent ht.consistent
        (by simp [hp, TaskPoint.op, WorkerPoint.op]) (by simp [hp, TaskPoint.op, WorkerPoint.op])
      simp [Task.nextOp, hphase, hp, TaskPoint.op, WorkerPoint.op, Op.writes] at h
    | _ => rw [hp] at hjob; cases hjob
  · have hwrites := op_writes_of_nextOp ht hjob h
    rw [hp] at hwrites
    obtain ⟨job, hjob', hid⟩ := job?_of_op_writes (ht.worker p hp) hwrites
    simp [Task.worksOn, hp, TaskPoint.job?, hjob', hid]

/-- A task that works on a record is a worker with a job of it. -/
lemma worker_of_worksOn {t : Task} (h : t.worksOn id = true) :
    ∃ p job, t.point = .worker p ∧ p.job? = some job ∧ job.file = id := by
  unfold Task.worksOn TaskPoint.job? at h
  split at h
  · rename_i p hp
    cases hjob : p.job? with
    | none => rw [hjob] at h; cases h
    | some job => rw [hjob] at h; exact ⟨p, job, hp, hjob, of_decide_eq_true h⟩
  · cases h

/-- A worker with a job works on the record of the job. -/
lemma worksOn_of_job? {t : Task} {p : WorkerPoint} {job : QueueJob} (hp : t.point = .worker p)
    (hjob : p.job? = some job) (hid : job.file = id) : t.worksOn id = true := by
  simp [Task.worksOn, hp, TaskPoint.job?, hjob, hid]

/-- A worker comes past its first write by the write, with the job it had. -/
lemma firstWrite_after {p p' : WorkerPoint} {a : Answer} {job : QueueJob}
    (h : p.after cfg view a = some p') (hjob : p'.job? = some job)
    (hfirst : (TaskPoint.worker p').isFirstWrite = false) :
    p.job? = some job ∧ ((TaskPoint.worker p).isFirstWrite = false ∨
      ∃ st, (p.op cfg).writes job.file = some st) := by
  cases WorkerPoint.next_of_after h with
  | copies j dest q q' =>
    rcases WorkerPoint.afterCopy_cases view j dest q' with hc | hc | hc | ⟨st, reason, -, hc⟩ <;>
      rw [hc] at hjob
    · exact ⟨hjob, .inl rfl⟩
    · cases hjob
    · exact ⟨hjob, .inl rfl⟩
    · exact ⟨hjob, .inl rfl⟩
  | waitsForSpace | initialized =>
    cases hjob
    exact ⟨rfl, .inr ⟨_, if_pos rfl⟩⟩
  | networkDown | short | prepared | givesUp | retries | fails => cases hfirst
  | _ => cases hjob

/-- A task that arrives at a worker's point other than a first write is not at a first write. -/
lemma isFirstWrite_arrive {heap : FileId → TrackedFile} {p : TaskPoint} {q : WorkerPoint}
    (hq : (Task.arrive heap p).point = .worker q) (h : (Task.arrive heap p).isFirstWrite = false) :
    (TaskPoint.worker q).isFirstWrite = false := by
  obtain rfl : p = .worker q := hq
  exact h

/-- A worker was one before the step. -/
lemma worker_before {p p' : TaskPoint} {a : Answer} {q' : WorkerPoint}
    (h : p.after cfg view a = some p') (hp' : p' = .worker q') :
    ∃ q, p = .worker q ∧ q.after cfg view a = some q' := by
  cases TaskPoint.next_of_after h with
  | worker q r hr =>
    cases hp'
    exact ⟨q, rfl, hr⟩
  | _ => cases hp'

/-- **How a worker comes to own a record**: by its first write.

**Proof sketch.** A worker owns its record from the point after its first write. If the task was
at no first write, it was past it, so it owned the record before. If it was, the step is the write
itself, or the publication of the event of that write. -/
lemma owns_goOn {t t' : Task} {env : Env} (ht : t.Regular cfg)
    (hgo : t.goOn cfg (s.view (s.perform cfg now (t.nextOp cfg)).1 now env)
      (s.perform cfg now (t.nextOp cfg)).1.published (s.perform cfg now (t.nextOp cfg)).2 = some t')
    (howns : t'.owns id = true) :
    t.owns id = true ∨ t.isFirstWrite = true ∧ ∃ st, (t.nextOp cfg).writes id = some st := by
  simp only [Task.owns, Bool.and_eq_true, Bool.not_eq_true'] at howns ⊢
  obtain ⟨hworks, hfirst⟩ := howns
  by_cases hf : t.isFirstWrite = true
  case neg =>
    refine .inl ⟨?_, by simpa using hf⟩
    rcases goOn_cases hgo with ⟨b, p', hafter, rfl, -⟩ | ⟨e, b, -, rfl, -⟩ | ⟨e, b, -, rfl⟩
    · obtain ⟨q', job, hq', hjob, hid⟩ := worker_of_worksOn hworks
      obtain ⟨q, hq, hqafter⟩ := worker_before hafter hq'
      exact worksOn_of_job? hq
        (firstWrite_after hqafter hjob (isFirstWrite_arrive hq' hfirst)).1 hid
    · exact hworks
    · exact hworks
  case pos =>
    right
    have hphase : t.phase = .awaiting := by
      unfold Task.isFirstWrite at hf
      split at hf
      · assumption
      · cases hf
    have hop : t.nextOp cfg = t.point.op cfg := by simp only [Task.nextOp, hphase]
    have hpointFirst : t.point.isFirstWrite = true := by
      simpa only [Task.isFirstWrite, hphase] using hf
    refine ⟨hf, ?_⟩
    obtain ⟨q', job, hq', hjob, hid⟩ := worker_of_worksOn hworks
    rcases goOn_cases hgo with ⟨b, p', hafter, rfl, -⟩ | ⟨e, b, hpub, rfl, -⟩ | ⟨e, b, hp, -⟩
    · obtain ⟨q, hq, hqafter⟩ := worker_before hafter hq'
      rcases (firstWrite_after hqafter hjob (isFirstWrite_arrive hq' hfirst)).2 with hno | ⟨st, hst⟩
      · rw [hq, hno] at hpointFirst
        cases hpointFirst
      · exact ⟨st, by rw [hop, hq, ← hid]; exact hst⟩
    · -- the event is that of the write
      rw [perform_fst] at hpub
      have hwrites := (published_perform hpub).2
      have hwrites' := hwrites
      rw [hop, hq'] at hwrites'
      obtain ⟨job', hjob', hid'⟩ := job?_of_op_writes (ht.worker q' hq') hwrites'
      rw [hjob] at hjob'
      cases hjob'
      exact ⟨_, by rw [← hid, hid']; exact hwrites⟩
    · rw [hphase] at hp
      cases hp

/-- What `copy_file` finds by a path is what the manager finds. -/
lemma found_of_looksUp {t : Task} {b : Answer} {job : QueueJob} {i : FileId}
    (ht : t.Consistent cfg) (hjob : t.point.looksUp = some job)
    (hb : t.phase = .awaiting ∧ b = (s.perform cfg now (t.nextOp cfg)).2 ∨ t.phase = .answered b)
    (hi : b = .file (some i)) : s.manager.getFileByPath job.path = some i := by
  unfold TaskPoint.looksUp at hjob
  split at hjob
  · rename_i j dest file hpoint
    cases hjob
    have hphase := awaiting_of_consistent ht
      (by simp [hpoint, TaskPoint.op, WorkerPoint.op, WorkerPoint.copyOp, CopyPoint.request])
      (by simp [hpoint, TaskPoint.op, WorkerPoint.op, WorkerPoint.copyOp, CopyPoint.request])
    have hop : t.nextOp cfg = .getFileByPath job.path := by
      simp only [Task.nextOp, hphase, hpoint]
      rfl
    rcases hb with ⟨-, hb⟩ | hb
    · rw [hop] at hb
      exact Answer.file.inj (hb.symm.trans hi)
    · rw [hphase] at hb
      cases hb
  · cases hjob

/-- A task stays regular.

**Proof sketch.** The three parts are shown for the three ways a task goes on (`goOn_cases`). An
event of a worker carries what its operation has written; a worker goes on to a regular point by
`regular_after`, where a file it has looked up is found by the path of its job. -/
lemma regular_goOn {t t' : Task} {env : Env} (ht : t.Regular cfg)
    (hfinds : t.point.FindsOwn s.manager)
    (hgo : t.goOn cfg (s.view (s.perform cfg now (t.nextOp cfg)).1 now env)
      (s.perform cfg now (t.nextOp cfg)).1.published (s.perform cfg now (t.nextOp cfg)).2 =
        some t') :
    t'.Regular cfg where
  consistent := consistent_goOn ht.consistent hgo
  echoes := by
    intro e a hphase hjob
    rcases goOn_cases hgo with ⟨b, p', hafter, rfl, -⟩ | ⟨e', b, hpub, rfl, -⟩ | ⟨e', b, -, rfl⟩
    · -- only the scanner publishes, and it has no job
      cases p' with
      | scanner q => exact absurd rfl hjob
      | _ => cases hphase
    · cases hphase
      rw [perform_fst] at hpub
      exact op_writes_of_nextOp (t := t) ht hjob (published_perform hpub).2
    · cases hphase
  worker := by
    intro q' hq'
    rcases goOn_cases hgo with ⟨b, p', hafter, rfl, hb⟩ | ⟨e, b, -, rfl, -⟩ | ⟨e, b, -, rfl⟩
    · cases hjob : q'.job? with
      | none => cases q' <;> trivial
      | some job =>
        obtain ⟨q, hq, hqafter⟩ := worker_before hafter hq'
        refine regular_after (ht.worker q hq) hqafter fun job' hjob' i hi => ?_
        have hb' : t.phase = .awaiting ∧ b = (s.perform cfg now (t.nextOp cfg)).2 ∨
            t.phase = .answered b := hb.imp (fun hb => ⟨hb.1, hb.2.2⟩) fun hb => hb
        rw [← hq] at hjob'
        exact hfinds job' hjob' i (found_of_looksUp ht.consistent hjob' hb' hi)
    · exact ht.worker q' hq'
    · exact ht.worker q' hq'

/-- A worker that writes `COMPLETED` is at the end of its job. -/
lemma completes_of_op_writes {p : WorkerPoint} (hp : p.Regular)
    (h : (p.op cfg).writes id = some .completed) : (TaskPoint.worker p).completes = true := by
  cases p with
  | copy job dest q =>
    rcases WorkerPoint.copyOp_writes h with hst | hst | ⟨-, file, rfl⟩
    · cases hst
    · cases hst
    · rfl
  | finalize job dest => rfl
  | initializeCopyStatus job st dest t =>
    simp only [WorkerPoint.op, Op.writes] at h
    split_ifs at h
    exact absurd (Option.some.inj h) hp
  | handleFailure job dest st reason =>
    simp only [WorkerPoint.op, Op.writes] at h
    split_ifs at h
    exact absurd (Option.some.inj h) hp
  | _ =>
    simp only [WorkerPoint.op, Op.writes] at h
    try split_ifs at h
    all_goals cases h

/-- There it writes nothing else. -/
lemma eq_completed_of_op_writes {p : WorkerPoint} (hp : (TaskPoint.worker p).completes = true)
    (h : (p.op cfg).writes id = some st) : st = .completed := by
  cases p with
  | copy job dest q =>
    cases q <;> cases hp
    simp only [WorkerPoint.op, CopyPoint.request, WorkerPoint.copyOp, Op.writes] at h
    split_ifs at h
    exact (Option.some.inj h).symm
  | finalize job dest =>
    simp only [WorkerPoint.op, Op.writes] at h
    split_ifs at h
    exact (Option.some.inj h).symm
  | _ => cases hp

/-- It stays there until it returns. -/
lemma completes_after {p p' : WorkerPoint} {a : Answer}
    (hp : (TaskPoint.worker p).completes = true) (h : p.after cfg view a = some p') :
    (TaskPoint.worker p').completes = true ∨ p'.job? = none := by
  cases p with
  | copy job dest q =>
    cases q <;> cases hp
    simp only [WorkerPoint.after, Option.map_eq_some_iff, Option.bind_eq_some_iff] at h
    obtain ⟨q', ⟨b, hb, hq'⟩, rfl⟩ := h
    cases b <;> cases hq'
    exact .inl rfl
  | finalize job dest =>
    cases a <;> cases h
    exact .inr rfl
  | _ => cases hp

end Workers

/-! ## The other tasks -/

section Others

variable {cfg : Settings} {view : View} {s : System} {now : ℕ} {id : FileId} {st : FileStatus}

/-- A scan between two paths visits no record. -/
lemma mem_of_visits_nextPath {paths : List FilePath}
    (h : (TaskPoint.scanner (.nextPath paths)).visits id = true) : False := by
  cases paths <;> cases h

/-- A scan between two records visits those it has left. -/
lemma mem_of_visits_nextFile {ids : List FileId}
    (h : (TaskPoint.scanner (.nextFile ids)).visits id = true) : id ∈ ids := by
  cases ids with
  | nil => cases h
  | cons f rest => simpa [ScannerPoint.nextFile, TaskPoint.visits] using h

/-- A scan that has stored its reading visits that record and those it has left. -/
lemma mem_of_visits_afterGrowthInfo {f : FileId} {rest : List FileId}
    (h : (TaskPoint.scanner (.afterGrowthInfo view.heap f rest)).visits id = true) :
    id = f ∨ id ∈ rest := by
  rcases ScannerPoint.afterGrowthInfo_cases view.heap f rest with hnext | hnext <;> rw [hnext] at h
  · simpa [TaskPoint.visits] using h
  · exact .inr (mem_of_visits_nextFile h)

/-- A monitor between two records visits those it has left. -/
lemma mem_of_visits_monitorNext {ids : List FileId}
    (h : (TaskPoint.monitor (.next view.heap ids)).visits id = true) : id ∈ ids := by
  rcases MonitorPoint.next_cases view.heap ids with hnext | ⟨f, rest, hsuffix, hnext⟩ <;>
    rw [hnext] at h
  · cases h
  · exact hsuffix.subset (by simpa [TaskPoint.visits] using h)

/-- The resumption of waiting records visits those it has left. -/
lemma mem_of_visits_nextWaiting {ids : List FileId}
    (h : (TaskPoint.storage (.nextWaiting ids)).visits id = true) : id ∈ ids := by
  cases ids with
  | nil => cases h
  | cons f rest =>
    simp only [StoragePoint.nextWaiting, TaskPoint.visits, decide_eq_true_eq] at h
    exact List.mem_cons_of_mem _ h

/-- The scanner turns to the files that the manager lists. -/
lemma scanner_visits {p p' : ScannerPoint} {a : Answer} (h : p.after cfg view a = some p')
    (hv : (TaskPoint.scanner p').visits id = true) :
    (TaskPoint.scanner p).visits id = true ∨
      ∃ ids, a = .files ids ∧ id ∈ ids ∧ (p = .getDiscovered ∨ ∃ d, p = .getGrowing d) := by
  cases ScannerPoint.next_of_after h with
  | listed ids => exact .inr ⟨ids, rfl, by simpa [TaskPoint.visits] using hv, .inl rfl⟩
  | listedAll discovered ids =>
    rcases List.mem_append.mp (mem_of_visits_nextFile hv) with hd | hg
    · exact .inl (by simpa [TaskPoint.visits] using hd)
    · exact .inr ⟨ids, rfl, hg, .inr ⟨discovered, rfl⟩⟩
  | growthLost | growthWritten => simpa [TaskPoint.visits] using mem_of_visits_afterGrowthInfo hv
  | measured | growthRead | checks | handles | handling => exact .inl hv
  | publishes => exact .inl (by simpa [TaskPoint.visits] using Or.inr hv)
  | unmeasured | checked => simpa [TaskPoint.visits] using Or.inr (mem_of_visits_nextFile hv)
  | announced | handled => simpa [TaskPoint.visits] using mem_of_visits_nextFile hv
  | discoveredAgain | skips | leavesOut | added | unchanged | resized =>
    exact (mem_of_visits_nextPath hv).elim
  | _ => cases hv

/-- A task turns to the files that the manager lists, the monitor to those it watches.

**Proof sketch.** By cases on the transition. The scanner, the monitor and the storage check turn
to files when they get a list of them, and afterwards go through that list; the other tasks turn
to none. -/
lemma visits_after {p p' : TaskPoint} {a : Answer} (h : p.after cfg view a = some p')
    (hv : p'.visits id = true) :
    p.visits id = true ∨ ∃ ids, a = .files ids ∧ id ∈ ids ∧
      (p = .scanner .getDiscovered ∨ (∃ d, p = .scanner (.getGrowing d)) ∨
        p = .storage .getWaiting ∨
        p = .monitor .getAllFiles ∧ MonitorPoint.isWatched (view.heap id) = true) := by
  cases TaskPoint.next_of_after h with
  | scanner p q hq =>
    rcases scanner_visits hq hv with hsame | ⟨ids, ha, hid, rfl | ⟨d, rfl⟩⟩
    · exact .inl hsame
    · exact .inr ⟨ids, ha, hid, .inl rfl⟩
    · exact .inr ⟨ids, ha, hid, .inr (.inl ⟨d, rfl⟩)⟩
  | monitor p q hq =>
    cases MonitorPoint.next_of_after hq with
    | listed ids =>
      have hmem := List.mem_filter.mp (mem_of_visits_monitorNext hv)
      exact .inr ⟨ids, rfl, hmem.1, .inr (.inr (.inr ⟨rfl, hmem.2⟩))⟩
    | checks => exact .inl hv
    | updates => simpa [TaskPoint.visits] using Or.inr (of_decide_eq_true hv)
    | checked => simpa [TaskPoint.visits] using Or.inr (mem_of_visits_monitorNext hv)
    | updated => simpa [TaskPoint.visits] using mem_of_visits_monitorNext hv
    | slept => cases hv
  | storage p q hq =>
    cases p with
    | check =>
      cases a <;> simp only [StoragePoint.after] at hq <;> try cases hq
      split_ifs at hv <;> cases hv
    | getWaiting =>
      cases a <;> cases hq
      exact .inr ⟨_, rfl, mem_of_visits_nextWaiting hv, .inr (.inr (.inl rfl))⟩
    | release f rest =>
      cases a <;> cases hq
      simpa [TaskPoint.visits] using mem_of_visits_nextWaiting hv
  | _ => cases hv

/-- The points that list files list them in a section of their own. -/
lemma mem_lists {t : Task} {b : Answer} {ids : List FileId} (ht : t.Consistent cfg)
    (hb : t.phase = .awaiting ∧ b = (s.perform cfg now (t.nextOp cfg)).2 ∨ t.phase = .answered b)
    (hfiles : b = .files ids) (hid : id ∈ ids)
    (hpoint : t.point = .scanner .getDiscovered ∨ (∃ d, t.point = .scanner (.getGrowing d)) ∨
      t.point = .storage .getWaiting ∨ t.point = .monitor .getAllFiles ∧
        MonitorPoint.isWatched ((s.perform cfg now (t.nextOp cfg)).1.manager.heap id) = true) :
    id ∈ t.point.lists s.manager := by
  have hphase : t.phase = .awaiting := by
    apply awaiting_of_consistent ht <;>
      rcases hpoint with hp | ⟨d, hp⟩ | hp | ⟨hp, -⟩ <;>
      simp [hp, TaskPoint.op, ScannerPoint.op, StoragePoint.op, MonitorPoint.op]
  rcases hb with ⟨-, rfl⟩ | hb
  · rcases hpoint with hp | ⟨d, hp⟩ | hp | ⟨hp, hwatched⟩ <;>
      simp only [Task.nextOp, hphase, hp, TaskPoint.op] at hfiles <;> cases hfiles
    · rw [hp]; exact hid
    · rw [hp]; exact hid
    · rw [hp]; exact hid
    · simp only [Task.nextOp, hphase, hp, TaskPoint.op] at hwatched
      rw [hp]
      exact List.mem_filter.mpr ⟨hid, hwatched⟩
  · rw [hphase] at hb
    cases hb

/-- **How a record comes onto the list of a task.** -/
lemma visits_goOn {t t' : Task} {env : Env} (ht : t.Consistent cfg)
    (hgo : t.goOn cfg (s.view (s.perform cfg now (t.nextOp cfg)).1 now env)
      (s.perform cfg now (t.nextOp cfg)).1.published (s.perform cfg now (t.nextOp cfg)).2 = some t')
    (hv : t'.point.visits id = true) :
    t.point.visits id = true ∨ id ∈ t.point.lists s.manager := by
  rcases goOn_cases hgo with ⟨b, p', hafter, rfl, hb⟩ | ⟨e, b, -, rfl, -⟩ | ⟨e, b, -, rfl⟩
  · rcases visits_after hafter hv with hsame | ⟨ids, hfiles, hid, hpoint⟩
    · exact .inl hsame
    · refine .inr (mem_lists ht ?_ hfiles hid hpoint)
      rcases hb with ⟨hphase, -, rfl⟩ | hb
      · exact .inl ⟨hphase, rfl⟩
      · exact .inr hb
  · exact .inl hv
  · exact .inl hv

/-- `handle_file_ready` writes a status after it has found its file `READY`. -/
lemma handler_writes {q q' : HandlerPoint} {a : Answer} {f : FileId}
    (h : q.after view f a = some q') (hw : (q'.op f).writes id = some st) :
    f = id ∧ q = .getFileById ∧ (view.heap id).status = .ready ∧ ∃ i, a = .file (some i) := by
  cases q with
  | getFileById =>
    cases a with
    | file i =>
      cases i with
      | none => cases h; cases hw
      | some i =>
        simp only [HandlerPoint.after] at h
        split_ifs at h with hready hnet hqueue <;> cases h
        · cases hw
        · simp only [HandlerPoint.op, Op.writes] at hw
          split_ifs at hw with hid
          exact ⟨hid, rfl, hid ▸ not_not.mp hready, i, rfl⟩
        · cases hw
        · simp only [HandlerPoint.op, Op.writes] at hw
          split_ifs at hw with hid
          exact ⟨hid, rfl, hid ▸ not_not.mp hready, i, rfl⟩
    | _ => cases h
  | _ => cases a <;> cases h <;> cases hw

/-- A growth check writes to its file. -/
lemma eq_of_check_writes {f : FileId} {q : CheckPoint} (hw : (q.op f).writes id = some st) :
    id = f := by
  cases q <;> simp only [CheckPoint.op, Op.writes] at hw <;> try cases hw
  all_goals
    split_ifs at hw with hid
    exact hid.symm

/-- A scan between two paths writes no status next. -/
@[simp] lemma writes_nextPath (paths : List FilePath) (heap : FileId → TrackedFile) :
    ((Task.arrive heap (.scanner (.nextPath paths))).nextOp cfg).writes id = none := by
  cases paths <;> rfl

/-- A scan between two records writes no status next. -/
@[simp] lemma writes_nextFile (ids : List FileId) (heap : FileId → TrackedFile) :
    ((Task.arrive heap (.scanner (.nextFile ids))).nextOp cfg).writes id = none := by
  cases ids <;> rfl

/-- A scan that has stored its reading writes no status next. -/
@[simp] lemma writes_afterGrowthInfo (f : FileId) (rest : List FileId)
    (heap : FileId → TrackedFile) :
    ((Task.arrive heap (.scanner (.afterGrowthInfo heap f rest))).nextOp cfg).writes id = none := by
  rcases ScannerPoint.afterGrowthInfo_cases heap f rest with h | h <;> rw [h]
  · rfl
  · exact writes_nextFile _ _

/-- A monitor between two records writes no status next. -/
@[simp] lemma writes_monitorNext (ids : List FileId) (heap : FileId → TrackedFile) :
    ((Task.arrive heap (.monitor (.next heap ids))).nextOp cfg).writes id = none := by
  rcases MonitorPoint.next_cases heap ids with h | ⟨f, rest, -, h⟩ <;> rw [h] <;> rfl

/-- The scanner writes to a file it has turned to, or the status it has just read, or it runs
`handle_file_ready`.

**Proof sketch.** By cases on the transition of the scanner. An update of a growth check, of the
growth fields or of a recommended status goes to the file it has turned to; a change of the size
keeps the status it has read; and a handler writes after it has read READY. -/
lemma scanner_writes {p p' : ScannerPoint} {a : Answer} (h : p.after cfg view a = some p')
    (hw : ((Task.arrive view.heap (.scanner p')).nextOp cfg).writes id = some st) :
    (TaskPoint.scanner p).visits id = true ∨ st = (view.heap id).status ∨
      (TaskPoint.scanner p).handles = some (id, .getFileById) ∧ (view.heap id).status = .ready ∧
        ∃ i, a = .file (some i) := by
  cases ScannerPoint.next_of_after h with
  | checks f => simp [TaskPoint.visits, eq_of_check_writes hw]
  | publishes f =>
    simp only [Task.arrive, TaskPoint.publishes, ScannerPoint.publishes, Task.nextOp,
      Op.writes] at hw
    split_ifs at hw with hid
    simp [TaskPoint.visits, hid]
  | handling f q q' rest hq' =>
    obtain ⟨rfl, rfl, hready, hfile⟩ := handler_writes hq' hw
    exact .inr (.inr ⟨rfl, hready, hfile⟩)
  | resizes f =>
    -- the update keeps the status it has read
    simp only [Task.arrive, TaskPoint.publishes, ScannerPoint.publishes, Task.nextOp,
      TaskPoint.op, ScannerPoint.op, Op.writes] at hw
    split_ifs at hw with hid
    rw [← hid]
    exact .inr (.inl (Option.some.inj hw).symm)
  | growthRead f =>
    simp only [Task.arrive, TaskPoint.publishes, ScannerPoint.publishes, Task.nextOp,
      TaskPoint.op, ScannerPoint.op, Op.writes] at hw
    split_ifs at hw with hid
    simp [TaskPoint.visits, hid]
  | _ => first | cases hw | simp at hw

/-- A task that is no worker writes to a record it has turned to, or that is on the list it has just
got, or the status it has just read, or it runs `handle_file_ready`.

**Proof sketch.** By cases on the task. A scan is `scanner_writes`; a check of the monitor writes
to the record it has turned to; the resumption of waiting records writes to those of its list, the
first of which it may have just got; a handler is `handler_writes`. -/
lemma writes_after {p p' : TaskPoint} {a : Answer} (h : p.after cfg view a = some p')
    (hp' : ∀ q, p' ≠ .worker q)
    (hw : ((Task.arrive view.heap p').nextOp cfg).writes id = some st) :
    p.visits id = true ∨ st = (view.heap id).status ∨
      (p.handles = some (id, .getFileById) ∧ (view.heap id).status = .ready ∧
        ∃ i, a = .file (some i)) ∨
      p = .storage .getWaiting ∧ ∃ ids, a = .files ids ∧ id ∈ ids := by
  cases TaskPoint.next_of_after h with
  | scanner p q hq =>
    rcases scanner_writes hq hw with hv | hst | hready
    · exact .inl hv
    · exact .inr (.inl hst)
    · exact .inr (.inr (.inl hready))
  | monitor p q hq =>
    cases MonitorPoint.next_of_after hq with
    | checks f => simp [TaskPoint.visits, eq_of_check_writes hw]
    | updates f =>
      simp only [Task.arrive, TaskPoint.publishes, Task.nextOp, TaskPoint.op, MonitorPoint.op,
        Op.writes] at hw
      split_ifs at hw with hid
      simp [TaskPoint.visits, hid]
    | _ => first | cases hw | simp at hw
  | storage p q hq =>
    cases p with
    | check =>
      cases a <;> simp only [StoragePoint.after] at hq <;> try cases hq
      split_ifs at hw <;> cases hw
    | getWaiting =>
      cases a <;> cases hq
      rename_i ids
      refine .inr (.inr (.inr ⟨rfl, ids, rfl, ?_⟩))
      cases ids with
      | nil => cases hw
      | cons f rest =>
        simp only [Task.arrive, TaskPoint.publishes, Task.nextOp, TaskPoint.op, StoragePoint.op,
          StoragePoint.nextWaiting, Op.writes] at hw
        split_ifs at hw with hid
        simp [hid]
    | release f rest =>
      cases a <;> cases hq
      cases rest with
      | nil => cases hw
      | cons g rest =>
        simp only [Task.arrive, TaskPoint.publishes, Task.nextOp, TaskPoint.op, StoragePoint.op,
          StoragePoint.nextWaiting, Op.writes] at hw
        split_ifs at hw with hid
        simp [TaskPoint.visits, hid]
  | worker q q' => exact absurd rfl (hp' q')
  | retry handle f p q => cases q <;> cases hw
  | handles f q q' hq' =>
    obtain ⟨rfl, rfl, hready, hfile⟩ := handler_writes hq' hw
    exact .inr (.inr (.inl ⟨rfl, hready, hfile⟩))
  | _ => cases hw

/-- A task that is about to run `handle_file_ready` from its start, or to list files, waits for the
answer, and writes no status before. -/
lemma writes_eq_none_of_lists {t : Task} {m : StateManager} (ht : t.Consistent cfg)
    (h : id ∈ t.point.lists m ∨ t.point.handles = some (id, .getFileById)) (j : FileId) :
    t.phase = .awaiting ∧ (t.nextOp cfg).writes j = none := by
  rcases h with h | h
  · have hphase : t.phase = .awaiting := by
      apply awaiting_of_consistent ht <;> unfold TaskPoint.lists at h <;> split at h <;>
        simp_all [TaskPoint.op, ScannerPoint.op, StoragePoint.op, MonitorPoint.op]
    refine ⟨hphase, ?_⟩
    unfold TaskPoint.lists at h
    split at h
    case h_5 => cases h
    all_goals
      rename_i hp
      simp [Task.nextOp, hphase, hp, TaskPoint.op, ScannerPoint.op, StoragePoint.op,
        MonitorPoint.op, Op.writes]
  · have hop : t.point.op cfg = HandlerPoint.op id .getFileById := op_of_handles h
    have hphase : t.phase = .awaiting := awaiting_of_consistent ht
      (by simp [hop, HandlerPoint.op]) (by simp [hop, HandlerPoint.op])
    exact ⟨hphase, by simp [Task.nextOp, hphase, hop, HandlerPoint.op, Op.writes]⟩

/-- **How a task comes to write a status.** -/
lemma writes_goOn {t t' : Task} {env : Env} (ht : t.Regular cfg)
    (hfinds : t.point.FindsOwn s.manager)
    (hgo : t.goOn cfg (s.view (s.perform cfg now (t.nextOp cfg)).1 now env)
      (s.perform cfg now (t.nextOp cfg)).1.published (s.perform cfg now (t.nextOp cfg)).2 = some t')
    (hw : (t'.nextOp cfg).writes id = some st) :
    t'.worksOn id = true ∨ t.point.visits id = true ∨ (t.nextOp cfg).writes id = some st ∨
      st = ((s.perform cfg now (t.nextOp cfg)).1.manager.heap id).status ∨
      t.point.handles = some (id, .getFileById) ∧ (s.manager.heap id).status = .ready ∨
      id ∈ t.point.lists s.manager := by
  have hregular := regular_goOn ht hfinds hgo
  rcases goOn_cases hgo with ⟨b, p', hafter, rfl, hb⟩ | ⟨e, b, hpub, rfl, -⟩ | ⟨e, b, -, rfl⟩
  · by_cases hp' : ∃ q, p' = .worker q
    · obtain ⟨q, rfl⟩ := hp'
      exact .inl (worksOn_of_writes hregular rfl hw)
    · push Not at hp'
      have hb' : t.phase = .awaiting ∧ b = (s.perform cfg now (t.nextOp cfg)).2 ∨
          t.phase = .answered b := by
        rcases hb with ⟨hphase, -, rfl⟩ | hb
        · exact .inl ⟨hphase, rfl⟩
        · exact .inr hb
      rcases writes_after hafter hp' hw with
        hv | hst | ⟨hhandles, hready, -⟩ | ⟨hp, ids, hfiles, hid⟩
      · exact .inr (.inl hv)
      · exact .inr (.inr (.inr (.inl hst)))
      · -- the record has been read in a section that changes nothing
        have hphase := (writes_eq_none_of_lists (m := s.manager) ht.consistent (.inr hhandles) id).1
        have hop : t.nextOp cfg = .getFileById id := by
          simp only [Task.nextOp, hphase, op_of_handles hhandles, HandlerPoint.op]
        rw [hop] at hready
        exact .inr (.inr (.inr (.inr (.inl ⟨hhandles, hready⟩))))
      · exact .inr (.inr (.inr (.inr (.inr
          (mem_lists ht.consistent hb' hfiles hid (.inr (.inr (.inl hp))))))))
  · -- the event announces what the task has written
    rw [perform_fst] at hpub
    have hwrites := (published_perform hpub).2
    simp only [Task.nextOp, Op.writes] at hw
    split_ifs at hw with hid
    rw [← hid, ← hw]
    exact .inr (.inr (.inl hwrites))
  · cases hw

/-- A worker writes to a record it works on. -/
lemma agrees_worker {t : Task} {p : WorkerPoint} (ht : t.Regular cfg) (hp : t.point = .worker p) :
    t.Agrees cfg id st := by
  by_cases hworks : t.worksOn id = true
  · exact .inl hworks
  · exact .inr ⟨by rw [hp]; rfl, fun st' hw => absurd (worksOn_of_writes ht hp hw) hworks⟩

/-- A worker stays a worker. -/
lemma worker_goOn {t t' : Task} {p : WorkerPoint} {published : Option FileStatusChangedEvent}
    {a : Answer} (hgo : t.goOn cfg view published a = some t') (hp : t.point = .worker p) :
    ∃ p', t'.point = .worker p' := by
  rcases point_goOn hgo with hsame | ⟨b, hafter, -⟩
  · exact ⟨p, hsame.trans hp⟩
  · rw [hp] at hafter
    obtain ⟨p', -, hp'⟩ := Option.map_eq_some_iff.mp hafter
    exact ⟨p', hp'.symm⟩

/-- **A task that agrees with the status of a record goes on agreeing**, unless it turns to the
record.

**Proof sketch.** A task that works on the record goes on as a worker, and a regular worker
agrees. Any other task visits the record only if it has listed it, and writes what it has agreed
to write, what it has read, or what it decides as a handler or after a list (`writes_goOn`); the
last two are excluded. -/
lemma agrees_goOn {t t' : Task} {env : Env} (ht : t.Regular cfg)
    (hfinds : t.point.FindsOwn s.manager)
    (hgo : t.goOn cfg (s.view (s.perform cfg now (t.nextOp cfg)).1 now env)
      (s.perform cfg now (t.nextOp cfg)).1.published (s.perform cfg now (t.nextOp cfg)).2 = some t')
    (hst : ((s.perform cfg now (t.nextOp cfg)).1.manager.heap id).status = st)
    (hagrees : t.Agrees cfg id st) (hlists : id ∉ t.point.lists s.manager)
    (hhandles : ¬ (t.point.handles = some (id, .getFileById) ∧
      (s.manager.heap id).status = .ready)) : t'.Agrees cfg id st := by
  rcases hagrees with hworks | ⟨hvisits, hwrites⟩
  · obtain ⟨p, -, hp, -⟩ := worker_of_worksOn hworks
    obtain ⟨p', hp'⟩ := worker_goOn hgo hp
    exact agrees_worker (regular_goOn ht hfinds hgo) hp'
  · by_cases hworks' : t'.worksOn id = true
    · exact .inl hworks'
    · refine .inr ⟨?_, fun st' hw => ?_⟩
      · by_contra hv
        rw [Bool.not_eq_false] at hv
        rcases visits_goOn ht.consistent hgo hv with hv | hl
        · rw [hvisits] at hv
          cases hv
        · exact hlists hl
      · rcases writes_goOn ht hfinds hgo hw with h | h | h | h | h | h
        · exact absurd h hworks'
        · rw [hvisits] at h
          cases h
        · exact hwrites st' h
        · exact h.trans hst
        · exact absurd h hhandles
        · exact absurd h hlists

/-- The files that a section lists are not those of a worker. -/
lemma isOwned_of_mem_lists {m : StateManager} {p : TaskPoint} (h : id ∈ p.lists m) :
    (m.heap id).status.isOwned = false := by
  unfold TaskPoint.lists at h
  split at h
  · rw [(mem_getFilesByStatus h).2]; rfl
  · rw [(mem_getFilesByStatus h).2]; rfl
  · have hwatched := (List.mem_filter.mp h).2
    simp only [Function.comp_apply, MonitorPoint.isWatched, Bool.and_eq_true] at hwatched
    revert hwatched
    cases (m.heap id).status <;> simp [FileStatus.isOwned]
  · rw [(mem_getFilesByStatus h).2]; rfl
  · cases h

/-- New tasks write to new records only. -/
lemma agrees_created (st : FileStatus) {o : Op} {t : Task} (hid : id ∈ s.manager.files)
    (h : t ∈ System.created s.manager o (s.perform cfg now o).1) : t.Agrees cfg id st := by
  right
  rw [perform_fst] at h
  rcases created_perform_cases h with ⟨e, rfl⟩ | ⟨path, rfl⟩ | ⟨f, rfl⟩
  · exact ⟨rfl, fun _ h => by cases h⟩
  · refine ⟨rfl, fun st' hw => ?_⟩
    simp only [Task.nextOp, Op.writes] at hw
    split_ifs at hw with hnew
    · exact absurd hnew.symm (s.manager.repo.ne_nextId hid)
    · cases hw
  · exact ⟨rfl, fun _ h => by cases h⟩

/-- A task without a job is regular. -/
lemma regular_of_job?_eq_none {t : Task} (ht : t.Consistent cfg) (hjob : t.point.job? = none) :
    t.Regular cfg where
  consistent := ht
  echoes := fun _ _ _ h => absurd hjob h
  worker := by
    intro p hp
    rw [hp] at hjob
    cases p <;> trivial

end Others

/-! ## The invariant -/

/-- A record in a status of a worker, or with a worker that has begun with it. -/
def System.Guarded (s : System) (id : FileId) : Prop :=
  (s.manager.heap id).status.isOwned = true ∨ ∃ t ∈ s.tasks, t.owns id = true

/-- The invariant: no task is going to change the status of a guarded record but its workers, of
which one at most has begun with it; and that worker is at the end of its job if the record is
`COMPLETED`. -/
structure Ownership (cfg : Settings) (s : System) : Prop where
  regular : ∀ t ∈ s.tasks, t.Regular cfg
  knownJobs : ∀ job ∈ s.jobs, job.file < s.manager.repo.nextId
  known : ∀ t ∈ s.tasks, ∀ job ∈ t.point.job?, job.file < s.manager.repo.nextId
  agrees : ∀ id ∈ s.manager.files, s.Guarded id →
    ∀ t ∈ s.tasks, t.Agrees cfg id (s.manager.heap id).status
  unique : ∀ id ∈ s.manager.files, ∀ (j k : ℕ) (t u : Task), s.tasks[j]? = some t →
    s.tasks[k]? = some u → t.owns id = true → u.owns id = true → j = k
  completed : ∀ id ∈ s.manager.files, (s.manager.heap id).status = .completed →
    ∀ t ∈ s.tasks, t.owns id = true → t.point.completes = true

section Invariant

variable {cfg : Settings} {s s' : System} {i now : ℕ} {env : Env} {id : FileId} {st : FileStatus}
  {t : Task}

/-- A task that owns a record works on it. -/
lemma worksOn_of_owns (h : t.owns id = true) : t.worksOn id = true := by
  rw [Task.owns, Bool.and_eq_true] at h
  exact h.1

/-- A record whose worker has begun with it is not picked, so neither listed nor cleaned up. -/
lemma not_picked (hok : HandedOn cfg s i t id) (howner : ∃ u ∈ s.tasks, u.owns id = true) :
    t.picks cfg s.manager id = false := by
  by_contra hpicks
  obtain ⟨u, hu, howns⟩ := howner
  rw [hok.2 (by simpa using hpicks) u hu] at howns
  cases howns

/-- A guarded record is not listed, and not found `READY` by a handler. -/
lemma not_listed (hok : HandedOn cfg s i t id) (hguarded : s.Guarded id) :
    id ∉ t.point.lists s.manager ∧
      ¬ (t.point.handles = some (id, .getFileById) ∧ (s.manager.heap id).status = .ready) := by
  rcases hguarded with howned | howner
  · refine ⟨fun hl => ?_, fun hhandles => ?_⟩
    · rw [isOwned_of_mem_lists hl] at howned
      cases howned
    · rw [hhandles.2] at howned
      cases howned
  · have hpicks := not_picked hok howner
    simp only [Task.picks, Bool.or_eq_false_iff, Bool.and_eq_false_iff, decide_eq_false_iff_not]
      at hpicks
    exact ⟨hpicks.1.1, fun hhandles => hpicks.2.elim (· hhandles.1) (· hhandles.2)⟩

/-- The owners of a record after a step: the tasks that have not run, and the one that has run, if
it was an owner or has just made its first write. -/
lemma owner_step (hregular : ∀ t ∈ s.tasks, t.Regular cfg) (ht : s.tasks[i]? = some t)
    (hs : systemStep cfg s (.run i now env) = some s') {j : ℕ} {u : Task}
    (hu : s'.tasks[j]? = some u) (howns : u.owns id = true) :
    j ≠ i ∧ s.tasks[j]? = some u ∨
      j = i ∧ (∃ view published a, t.goOn cfg view published a = some u) ∧
        (t.owns id = true ∨ t.isFirstWrite = true ∧ ∃ st, (t.nextOp cfg).writes id = some st) := by
  obtain ⟨t₀, t', ht₀, -, hgo, rfl⟩ := systemStep_run hs
  obtain rfl : t = t₀ := Option.some.inj (ht.symm.trans ht₀)
  rcases getElem?_tasks_step hu with ⟨rfl, rfl⟩ | rfl | hnew | hold
  · exact .inr ⟨rfl, ⟨_, _, _, hgo⟩,
      owns_goOn (hregular t (List.mem_of_getElem? ht)) hgo howns⟩
  · cases howns
  · have hworks := worksOn_of_owns howns
    rw [Task.worksOn, job?_created hnew] at hworks
    cases hworks
  · exact .inl hold

/-- What a step writes to a stored record is its status afterwards. -/
lemma status_of_writes (hid : id ∈ s.manager.files)
    (hs : systemStep cfg s (.run i now env) = some s') (ht : s.tasks[i]? = some t)
    (hw : (t.nextOp cfg).writes id = some st) : (s'.manager.heap id).status = st := by
  obtain ⟨t₀, t', ht₀, -, -, rfl⟩ := systemStep_run hs
  obtain rfl : t = t₀ := Option.some.inj (ht.symm.trans ht₀)
  have htargeted : (t.nextOp cfg).isTargeted = true := by
    cases ho : t.nextOp cfg with
    | call c => cases c <;> rw [ho] at hw <;> first | rfl | cases hw
    | _ => rfl
  rw [perform_fst, status_perform htargeted hid, hw]
  rfl

/-- **How the status of a record changes in a step.** -/
lemma status_step_cases (hid : id ∈ s.manager.files)
    (hs : systemStep cfg s (.run i now env) = some s') (ht : s.tasks[i]? = some t)
    (hne : (s'.manager.heap id).status ≠ (s.manager.heap id).status) :
    (t.nextOp cfg).writes id = some (s'.manager.heap id).status ∨
      t.picks cfg s.manager id = true ∧ (s.manager.heap id).status.isOwned = false ∧
        (s'.manager.heap id).status.isOwned = false := by
  obtain ⟨t₀, t', ht₀, -, -, rfl⟩ := systemStep_run hs
  obtain rfl : t = t₀ := Option.some.inj (ht.symm.trans ht₀)
  dsimp only at hne ⊢
  rw [perform_fst] at hne ⊢
  rcases status_perform_cases cfg s.manager now (t.nextOp cfg) id with
    hsame | ⟨-, hw | ⟨paths, ho, hmiss, hst⟩ | ⟨ho, hwfs, hretry, hst⟩⟩ | ⟨hnew, -⟩
  · exact absurd hsame hne
  · exact .inl hw
  · refine .inr ⟨by simp [Task.picks, ho, Op.removesOrRetries, hmiss], ?_, by rw [hst]; rfl⟩
    have hkept := (mem_missingFiles hmiss).2
    revert hkept
    cases (s.manager.heap id).status <;> simp [FileStatus.isOwned, FileStatus.keptWhenMissing]
  · refine .inr ⟨?_, by rw [hwfs]; rfl, by rw [hst]; rfl⟩
    simp [Task.picks, ho, Op.removesOrRetries, hwfs, Option.isSome_iff_ne_none, hretry]
  · exact absurd hnew (s.manager.repo.ne_nextId hid)

/-- Only workers make first writes. -/
lemma worker_of_isFirstWrite (h : t.isFirstWrite = true) :
    ∃ p, t.point = .worker p ∧ (TaskPoint.worker p).isFirstWrite = true := by
  unfold Task.isFirstWrite at h
  split at h
  · cases hp : t.point with
    | worker p => exact ⟨p, rfl, hp ▸ h⟩
    | _ => rw [hp] at h; cases h
  · cases h

/-- A worker's first write hands the record on. -/
lemma hands_of_isFirstWrite (old : FileStatus) (ht : t.Regular cfg) (hfirst : t.isFirstWrite = true)
    (hw : (t.nextOp cfg).writes id = some st) : t.hands id old st = true := by
  obtain ⟨p, hp, -⟩ := worker_of_isFirstWrite hfirst
  simp [Task.hands, worksOn_of_writes ht hp hw, hfirst]

/-- **How a record comes to be guarded**: it was, and has kept its status; or the step has handed it
on.

**Proof sketch.** If the status is the same, a guard before the step is a guard after it, unless
the step is a first write, which hands the record on. If it differs, the step has written it: the
worker that works on the record hands it on, and a task that is no worker agrees with the status
of a guarded record, so it does not change it. -/
lemma guarded_step (h : Ownership cfg s) (ht : s.tasks[i]? = some t)
    (hok : ∀ id ∈ s.manager.files, HandedOn cfg s i t id) (hid : id ∈ s.manager.files)
    (hs : systemStep cfg s (.run i now env) = some s') (hguarded : s'.Guarded id) :
    s.Guarded id ∧ (s'.manager.heap id).status = (s.manager.heap id).status ∨
      ∃ st, (t.nextOp cfg).writes id = some st ∧
        t.hands id (s.manager.heap id).status st = true := by
  have hregular := h.regular t (List.mem_of_getElem? ht)
  -- an owner after the step was one before, or has made its first write
  have howner : (∃ u ∈ s'.tasks, u.owns id = true) → (∃ u ∈ s.tasks, u.owns id = true) ∨
      ∃ st, (t.nextOp cfg).writes id = some st ∧
        t.hands id (s.manager.heap id).status st = true := by
    rintro ⟨u, hu, howns⟩
    obtain ⟨j, hj⟩ := List.mem_iff_getElem?.mp hu
    rcases owner_step h.regular ht hs hj howns with ⟨-, hold⟩ | ⟨-, -, hown | ⟨hfirst, st, hw⟩⟩
    · exact .inl ⟨u, List.mem_of_getElem? hold, howns⟩
    · exact .inl ⟨t, List.mem_of_getElem? ht, hown⟩
    · exact .inr ⟨st, hw, hands_of_isFirstWrite _ hregular hfirst hw⟩
  by_cases hsame : (s'.manager.heap id).status = (s.manager.heap id).status
  · rcases hguarded with howned | hown
    · exact .inl ⟨.inl (hsame ▸ howned), hsame⟩
    · rcases howner hown with hown | hhands
      · exact .inl ⟨.inr hown, hsame⟩
      · exact .inr hhands
  · right
    rcases status_step_cases hid hs ht hsame with hw | ⟨hpicks, -, hnot⟩
    · refine ⟨_, hw, ?_⟩
      by_cases hworks : t.worksOn id = true
      · simp [Task.hands, hworks, hsame]
      · rcases hguarded with howned | hown
        · simp [Task.hands, hsame, howned]
        · rcases howner hown with hown | ⟨st, hw', hhands⟩
          · -- the task agrees with the status of the record, so does not change it
            rcases h.agrees id hid (.inr hown) t (List.mem_of_getElem? ht) with hw' | ⟨-, hagrees⟩
            · exact absurd hw' hworks
            · exact absurd (hagrees _ hw) hsame
          · rw [hw] at hw'
            cases hw'
            exact hhands
    · rcases hguarded with howned | hown
      · rw [hnot] at howned
        cases howned
      · rcases howner hown with hown | hhands
        · rw [not_picked (hok id hid) hown] at hpicks
          cases hpicks
        · exact hhands

/-- The jobs that tasks process after a step are of files that were known before. -/
lemma known_step (h : Ownership cfg s) (ht : s.tasks[i]? = some t)
    (hs : systemStep cfg s (.run i now env) = some s') :
    ∀ u ∈ s'.tasks, ∀ job ∈ u.point.job?, job.file < s.manager.repo.nextId := by
  have hconsistent := (h.regular t (List.mem_of_getElem? ht)).consistent
  obtain ⟨t₀, t', ht₀, -, hgo, rfl⟩ := systemStep_run hs
  obtain rfl : t = t₀ := Option.some.inj (ht.symm.trans ht₀)
  intro u hu job hjob
  rcases mem_tasks_step hu with rfl | rfl | hnew | ⟨j, -, hj⟩
  · rcases job?_goOn hconsistent hgo with hnone | hsame | ⟨-, -, hhead⟩
    · rw [hnone] at hjob
      cases hjob
    · exact h.known t (List.mem_of_getElem? ht) job (hsame ▸ hjob)
    · rw [hhead] at hjob
      exact h.knownJobs job (List.mem_of_mem_head? hjob)
  · cases hjob
  · rw [job?_created hnew] at hjob
    cases hjob
  · exact h.known u (List.mem_of_getElem? hj) job hjob

/-- A record that is new has no worker. -/
lemma not_owns_of_new (h : Ownership cfg s) (ht : s.tasks[i]? = some t)
    (hs : systemStep cfg s (.run i now env) = some s') {u : Task} (hu : u ∈ s'.tasks) :
    u.owns s.manager.repo.nextId = false := by
  by_contra howns
  obtain ⟨p, job, hp, hjob, hid⟩ := worker_of_worksOn (worksOn_of_owns (by simpa using howns))
  exact (known_step h ht hs u hu job (by rw [hp]; exact hjob)).ne hid

/-- A stored record was stored before the step, or is new, `DISCOVERED`, and has no worker. -/
lemma mem_files_step (h : Ownership cfg s) (ht : s.tasks[i]? = some t)
    (hs : systemStep cfg s (.run i now env) = some s') (hid : id ∈ s'.manager.files) :
    id ∈ s.manager.files ∨ (s'.manager.heap id).status = .discovered ∧
      ∀ u ∈ s'.tasks, u.owns id = false := by
  have howns := fun u hu => not_owns_of_new h ht hs (u := u) hu
  obtain ⟨t₀, t', -, -, -, hs'⟩ := systemStep_run hs
  have hmanager : s'.manager = (s.perform cfg now (t₀.nextOp cfg)).1.manager := by rw [hs']
  rw [hmanager, perform_fst] at hid ⊢
  rcases mem_files_perform hid with hold | ⟨rfl, hst⟩
  · exact .inl hold.1
  · exact .inr ⟨hst, howns⟩

/-- **The step lemma for what tasks may still write.**

**Proof sketch.** Before the step all tasks agree with the status after it: either it is the same
(`guarded_step`), or the record is handed on with it. The task that ran then goes on agreeing by
`agrees_goOn`, the others are as they were, and new tasks write nothing. -/
lemma agreement_step (h : Ownership cfg s) (ht : s.tasks[i]? = some t)
    (hok : ∀ id ∈ s.manager.files, HandedOn cfg s i t id) (hfinds : t.point.FindsOwn s.manager)
    (hs : systemStep cfg s (.run i now env) = some s') (hid : id ∈ s.manager.files)
    (hguarded : s'.Guarded id) :
    ∀ u ∈ s'.tasks, u.Agrees cfg id (s'.manager.heap id).status := by
  have hregular := h.regular t (List.mem_of_getElem? ht)
  -- before the step all tasks agree with the status after it
  have hbefore : (∀ u ∈ s.tasks, u.Agrees cfg id (s'.manager.heap id).status) ∧
      id ∉ t.point.lists s.manager ∧
      ¬ (t.point.handles = some (id, .getFileById) ∧ (s.manager.heap id).status = .ready) := by
    rcases guarded_step h ht hok hid hs hguarded with ⟨hbefore, hsame⟩ | ⟨st, hw, hhands⟩
    · rw [hsame]
      exact ⟨h.agrees id hid hbefore, not_listed (hok id hid) hbefore⟩
    · rw [status_of_writes hid hs ht hw]
      refine ⟨((hok id hid).1 st hw hhands).1, fun hl => ?_, fun hhandles => ?_⟩
      · rw [(writes_eq_none_of_lists hregular.consistent (.inl hl) id).2] at hw
        cases hw
      · rw [(writes_eq_none_of_lists (m := s.manager) hregular.consistent (.inr hhandles.1) id).2]
          at hw
        cases hw
  obtain ⟨hagrees, hlists, hhandles⟩ := hbefore
  obtain ⟨t₀, t', ht₀, -, hgo, rfl⟩ := systemStep_run hs
  obtain rfl : t = t₀ := Option.some.inj (ht.symm.trans ht₀)
  intro u hu
  rcases mem_tasks_step hu with rfl | rfl | hnew | ⟨j, -, hj⟩
  · exact agrees_goOn hregular hfinds hgo rfl (hagrees t (List.mem_of_getElem? ht)) hlists hhandles
  · exact .inr ⟨rfl, fun _ h => by cases h⟩
  · exact agrees_created _ hid hnew
  · exact hagrees u (List.mem_of_getElem? hj)

/-- After a step that hands a record on, no task but the one that ran owns it. -/
lemma eq_of_owns_of_hands (hok : HandedOn cfg s i t id)
    (hw : (t.nextOp cfg).writes id = some st)
    (hhands : t.hands id (s.manager.heap id).status st = true) {j : ℕ} {u : Task}
    (hu : s.tasks[j]? = some u) (howns : u.owns id = true) : j = i := by
  by_contra hj
  have hmem : u ∈ s.tasks.eraseIdx i := List.mem_eraseIdx_iff_getElem?.mpr ⟨j, hj, hu⟩
  rw [(hok.1 st hw hhands).2.1 u hmem] at howns
  cases howns

/-- A task that has not run and owns a record was the only one to be able to do so. -/
lemma eq_of_owns_of_owns (h : Ownership cfg s) (ht : s.tasks[i]? = some t)
    (hok : HandedOn cfg s i t id) (hid : id ∈ s.manager.files) {j : ℕ} {u : Task}
    (hu : s.tasks[j]? = some u) (howns : u.owns id = true)
    (hrun : t.owns id = true ∨ t.isFirstWrite = true ∧ ∃ st, (t.nextOp cfg).writes id = some st) :
    j = i := by
  rcases hrun with hown | ⟨hfirst, st, hw⟩
  · exact h.unique id hid j i u t hu ht howns hown
  · exact eq_of_owns_of_hands hok hw
      (hands_of_isFirstWrite _ (h.regular t (List.mem_of_getElem? ht)) hfirst hw) hu howns

/-- **The step lemma for the owners.** -/
lemma unique_step (h : Ownership cfg s) (ht : s.tasks[i]? = some t)
    (hok : ∀ id ∈ s.manager.files, HandedOn cfg s i t id)
    (hs : systemStep cfg s (.run i now env) = some s') (hid : id ∈ s.manager.files) {j k : ℕ}
    {u v : Task} (hu : s'.tasks[j]? = some u) (hv : s'.tasks[k]? = some v)
    (huowns : u.owns id = true) (hvowns : v.owns id = true) : j = k := by
  rcases owner_step h.regular ht hs hu huowns with ⟨hji, hju⟩ | ⟨rfl, -, hjrun⟩ <;>
    rcases owner_step h.regular ht hs hv hvowns with ⟨hki, hkv⟩ | ⟨rfl, -, hkrun⟩
  · exact h.unique id hid j k u v hju hkv huowns hvowns
  · exact absurd (eq_of_owns_of_owns h ht (hok id hid) hid hju huowns hkrun) hji
  · exact absurd (eq_of_owns_of_owns h ht (hok id hid) hid hkv hvowns hjrun) hki
  · rfl

/-- A worker at the end of its job stays there until it returns. -/
lemma completes_goOn {view : View} {published : Option FileStatusChangedEvent} {a : Answer}
    {t' : Task} (hgo : t.goOn cfg view published a = some t') (ht : t.point.completes = true)
    (howns : t'.owns id = true) : t'.point.completes = true := by
  rcases point_goOn hgo with hsame | ⟨b, hafter, -⟩
  · rwa [hsame]
  · obtain ⟨q', job, hq', hjob, -⟩ := worker_of_worksOn (worksOn_of_owns howns)
    obtain ⟨q, hq, hqafter⟩ := worker_before hafter hq'
    rw [hq] at ht
    rcases completes_after ht hqafter with hc | hnone
    · rwa [hq']
    · rw [hjob] at hnone
      cases hnone

/-- **The step lemma for `COMPLETED`.**

**Proof sketch.** If the record was COMPLETED before, its owner was done with it, and stays so
(`completes_goOn`). Otherwise the step has written COMPLETED; the writer has the record in hand,
so it is the owner, and its operation is the final one. -/
lemma completed_step (h : Ownership cfg s) (ht : s.tasks[i]? = some t)
    (hok : ∀ id ∈ s.manager.files, HandedOn cfg s i t id)
    (hs : systemStep cfg s (.run i now env) = some s') (hid : id ∈ s.manager.files)
    (hst : (s'.manager.heap id).status = .completed) {u : Task} (hu : u ∈ s'.tasks)
    (howns : u.owns id = true) : u.point.completes = true := by
  have hregular := h.regular t (List.mem_of_getElem? ht)
  obtain ⟨j, hj⟩ := List.mem_iff_getElem?.mp hu
  by_cases hbefore : (s.manager.heap id).status = .completed
  · rcases owner_step h.regular ht hs hj howns with ⟨-, hold⟩ | ⟨-, ⟨_, _, _, hgo⟩, hrun⟩
    · exact h.completed id hid hbefore u (List.mem_of_getElem? hold) howns
    · rcases hrun with hown | ⟨hfirst, st, hw⟩
      · exact completes_goOn hgo (h.completed id hid hbefore t (List.mem_of_getElem? ht) hown) howns
      · have hhands := hands_of_isFirstWrite (s.manager.heap id).status hregular hfirst hw
        exact absurd hbefore (((hok id hid).1 st hw hhands).2.2 hfirst)
  · -- the step has written `COMPLETED`
    have hne : (s'.manager.heap id).status ≠ (s.manager.heap id).status := by
      rw [hst]
      exact Ne.symm hbefore
    rcases status_step_cases hid hs ht hne with hw | ⟨-, -, hnot⟩
    · rw [hst] at hw
      have hhands : t.hands id (s.manager.heap id).status .completed = true := by
        simp [Task.hands, FileStatus.isOwned, Ne.symm hbefore]
      rcases owner_step h.regular ht hs hj howns with ⟨hji, hold⟩ | ⟨-, ⟨_, _, _, hgo⟩, -⟩
      · exact absurd (eq_of_owns_of_hands (hok id hid) hw hhands hold howns) hji
      · obtain ⟨q', job, hq', hjob, -⟩ := worker_of_worksOn (worksOn_of_owns howns)
        refine completes_goOn hgo ?_ howns
        obtain ⟨q, hq⟩ : ∃ q, t.point = .worker q := by
          rcases point_goOn hgo with hsame | ⟨b, hafter, -⟩
          · exact ⟨q', hsame ▸ hq'⟩
          · exact (worker_before hafter hq').imp fun _ => And.left
        obtain ⟨q₀, job₀, hq₀, hjob₀, -⟩ := worker_of_worksOn (worksOn_of_writes hregular hq hw)
        have hop := op_writes_of_nextOp hregular (by simp [hq₀, TaskPoint.job?, hjob₀]) hw
        rw [hq] at hop ⊢
        exact completes_of_op_writes (hregular.worker q hq) hop
    · rw [hst] at hnot
      cases hnot

/-- **The step lemma.**

**Proof sketch.** Field by field: `regular_goOn`, `known_step`, `agreement_step`, `unique_step`
and `completed_step` for records that were there, while a new record is DISCOVERED and no task
owns it. A job that is put is that of a stored record. -/
lemma ownership_run (h : Ownership cfg s) (ht : s.tasks[i]? = some t)
    (hok : ∀ id ∈ s.manager.files, HandedOn cfg s i t id) (hfinds : t.point.FindsOwn s.manager)
    (hs : systemStep cfg s (.run i now env) = some s') : Ownership cfg s' where
  regular := by
    obtain ⟨t₀, t', ht₀, -, hgo, rfl⟩ := systemStep_run hs
    obtain rfl : t = t₀ := Option.some.inj (ht.symm.trans ht₀)
    intro u hu
    rcases mem_tasks_step hu with rfl | rfl | hnew | ⟨j, -, hj⟩
    · exact regular_goOn (h.regular t (List.mem_of_getElem? ht)) hfinds hgo
    · exact regular_of_job?_eq_none trivial rfl
    · exact regular_of_job?_eq_none (consistent_created hnew) (job?_created hnew)
    · exact h.regular u (List.mem_of_getElem? hj)
  knownJobs := by
    have hconsistent := (h.regular t (List.mem_of_getElem? ht)).consistent
    obtain ⟨t₀, t', ht₀, -, hgo, rfl⟩ := systemStep_run hs
    obtain rfl : t = t₀ := Option.some.inj (ht.symm.trans ht₀)
    intro job hjob
    dsimp only
    rw [perform_fst]
    refine lt_of_lt_of_le ?_ nextId_le_perform
    rcases List.mem_append.mp hjob with hleft | hput
    · exact h.knownJobs job (mem_of_mem_jobsLeft hleft)
    · obtain ⟨-, -, hfile, -⟩ := put_goOn _ hconsistent hgo (Option.mem_toList.mp hput)
      exact s.manager.repo.files_lt _ hfile
  known := by
    have hknown := known_step h ht hs
    obtain ⟨t₀, t', -, -, -, hs'⟩ := systemStep_run hs
    intro u hu job hjob
    refine lt_of_lt_of_le (hknown u hu job hjob) ?_
    rw [hs']
    dsimp only
    rw [perform_fst]
    exact nextId_le_perform
  agrees := by
    intro id hid hguarded
    rcases mem_files_step h ht hs hid with hold | ⟨hst, hnone⟩
    · exact agreement_step h ht hok hfinds hs hold hguarded
    · rcases hguarded with howned | ⟨u, hu, howns⟩
      · rw [hst] at howned
        cases howned
      · rw [hnone u hu] at howns
        cases howns
  unique := by
    intro id hid j k u v hu hv huowns hvowns
    rcases mem_files_step h ht hs hid with hold | ⟨-, hnone⟩
    · exact unique_step h ht hok hs hold hu hv huowns hvowns
    · rw [hnone u (List.mem_of_getElem? hu)] at huowns
      cases huowns
  completed := by
    intro id hid hst u hu howns
    rcases mem_files_step h ht hs hid with hold | ⟨hdisc, -⟩
    · exact completed_step h ht hok hs hold hst hu howns
    · rw [hdisc] at hst
      cases hst

/-- One step keeps the ownership, if it meets the condition. -/
lemma ownership_step {a : SystemAction} (h : Ownership cfg s) (hok : OwnershipKept cfg s a)
    (hs : systemStep cfg s a = some s') : Ownership cfg s' := by
  by_cases ha : ∀ i now env, a ≠ .run i now env
  · obtain ⟨hmanager, htasks, hjobs⟩ := systemStep_of_ne_run hs ha
    constructor
    · exact htasks ▸ h.regular
    · rw [hjobs, hmanager]; exact h.knownJobs
    · rw [htasks, hmanager]; exact h.known
    · simpa only [System.Guarded, htasks, hmanager] using h.agrees
    · simpa only [htasks, hmanager] using h.unique
    · simpa only [htasks, hmanager] using h.completed
  · push Not at ha
    obtain ⟨i, now, env, rfl⟩ := ha
    obtain ⟨t, -, ht, -, -, -⟩ := systemStep_run hs
    exact ownership_run h ht (hok t ht).1 (hok t ht).2 hs

/-- A worker of a `COMPLETED` record that writes to it again writes `COMPLETED`, unless it has just
begun. -/
lemma eq_completed_of_writes (h : Ownership cfg s) (ht : s.tasks[i]? = some t)
    (hid : id ∈ s.manager.files) (hst : (s.manager.heap id).status = .completed)
    (howns : t.owns id = true) (hw : (t.nextOp cfg).writes id = some st) : st = .completed := by
  have hregular := h.regular t (List.mem_of_getElem? ht)
  have hcompletes := h.completed id hid hst t (List.mem_of_getElem? ht) howns
  obtain ⟨p, job, hp, hjob, -⟩ := worker_of_worksOn (worksOn_of_owns howns)
  have hop := op_writes_of_nextOp hregular (by simp [hp, TaskPoint.job?, hjob]) hw
  rw [hp] at hop hcompletes
  exact eq_completed_of_op_writes hcompletes hop

/-- **The statuses of a step** from a state in the invariant.

**Proof sketch.** A status changes because the task writes it or because a clean-up or a retry
picks the record. A worker that writes to its record hands it on, so the condition names it the
only owner, and what it writes over COMPLETED is COMPLETED. A task that is no worker agrees with
the status of a guarded record, so the record was not guarded; a record that is picked is neither
guarded nor owned. -/
lemma statusOwned_step {a : SystemAction} (h : Ownership cfg s) (hok : OwnershipKept cfg s a)
    (hs : systemStep cfg s a = some s') : StatusOwned s a s' := by
  intro id hid hne
  by_cases ha : ∀ i now env, a ≠ .run i now env
  · rw [(systemStep_of_ne_run hs ha).1] at hne
    exact absurd rfl hne
  push Not at ha
  obtain ⟨i, now, env, rfl⟩ := ha
  obtain ⟨t, -, ht, -, -, -⟩ := systemStep_run hs
  have hhanded := (hok t ht).1 id hid
  have hregular := h.regular t (List.mem_of_getElem? ht)
  refine ⟨i, now, env, rfl, ?_⟩
  rcases status_step_cases hid hs ht hne with hw | ⟨hpicks, hnot, -⟩
  · by_cases hworks : t.worksOn id = true
    · have hhands : t.hands id (s.manager.heap id).status (s'.manager.heap id).status = true := by
        simp [Task.hands, hworks, hne]
      refine ⟨fun hst => ?_, fun _ => ⟨t, ht, hworks⟩, ?_⟩
      · cases hfirst : t.isFirstWrite with
        | true => exact (hhanded.1 _ hw hhands).2.2 hfirst hst
        | false =>
          have howns : t.owns id = true := by simp [Task.owns, hworks, hfirst]
          exact hne ((eq_completed_of_writes h ht hid hst howns hw).trans hst.symm)
      · rintro j ⟨u, hu, howns⟩
        exact eq_of_owns_of_hands hhanded hw hhands hu howns
    · -- a task that is no worker changes the status, so the record is not guarded
      have hnot : ¬ s.Guarded id := by
        intro hguarded
        rcases h.agrees id hid hguarded t (List.mem_of_getElem? ht) with hw' | ⟨-, hagrees⟩
        · exact hworks hw'
        · exact hne (hagrees _ hw)
      refine ⟨fun hst => hnot (.inl (by rw [hst]; rfl)),
        fun howned => absurd (.inl howned) hnot, ?_⟩
      rintro j ⟨u, hu, howns⟩
      exact absurd (.inr ⟨u, List.mem_of_getElem? hu, howns⟩) hnot
  · refine ⟨fun hst => ?_, fun howned => ?_, ?_⟩
    · rw [hst] at hnot
      cases hnot
    · rw [hnot] at howned
      cases howned
    · rintro j ⟨u, hu, howns⟩
      rw [not_picked hhanded ⟨u, List.mem_of_getElem? hu, howns⟩] at hpicks
      cases hpicks

/-- At the start no task owns a record. -/
lemma ownership_start (n : ℕ) : Ownership cfg (.start n) where
  regular := by
    intro t ht
    simp only [System.start, List.cons_append, List.nil_append, List.mem_cons,
      List.mem_replicate] at ht
    rcases ht with rfl | rfl | rfl | ⟨-, rfl⟩ <;> exact regular_of_job?_eq_none trivial rfl
  knownJobs := fun _ h => by cases h
  known := by
    intro t ht
    simp only [System.start, List.cons_append, List.nil_append, List.mem_cons,
      List.mem_replicate] at ht
    rcases ht with rfl | rfl | rfl | ⟨-, rfl⟩ <;> exact fun _ h => by cases h
  agrees := fun id hid => by cases hid
  unique := fun id hid => by cases hid
  completed := fun id hid => by cases hid

end Invariant

/-! ## Runs -/

section Runs

variable {cfg : Settings} {s : System} {tr : List (System × SystemAction)} {n : ℕ}

/-- **A record belongs to its worker** in the runs whose steps all meet the condition: a record in
the queue or being copied is changed by a worker with a job of it only, from its first write on a
worker is the only one to do so until it returns, and `COMPLETED` is never changed.

**Proof sketch.** When a record is queued, or its worker changes its status, no other task is going
to write another status to it; from then on no task turns to it, so that stays so until the next
such step. -/
theorem statusOwned_of_ownershipKept (hrun : Run (systemStep cfg) (.start n) tr s)
    (hok : Meets (OwnershipKept cfg) tr) :
    ∀ s₁ a s₂, (s₁, a) ∈ tr → systemStep cfg s₁ a = some s₂ → StatusOwned s₁ a s₂ :=
  hrun.forall_steps hok (ownership_start n) (fun _ _ _ => ownership_step)
    fun _ _ _ => statusOwned_step

/-- The first worker takes the next step. -/
def workerStep : SystemAction := .run 3 30000000 {}

/-- A small file is queued, and a worker begins to copy it. -/
theorem statusOwned_smallFile :
    ∃ s₁ s₂, systemStep {} s₁ workerStep = some s₂ ∧
      (s₁.manager.heap 0).status = .inQueue ∧ (s₂.manager.heap 0).status = .copying ∧
      StatusOwned s₁ workerStep s₂ := by
  obtain ⟨s₁, hrun, hs₁⟩ := exists_run_of_replay (systemStep {}) (.start 1)
    (smallFile ++ scannerHandles ++ eventHandled ++ [workerStep])
    (fun s => decide ((s.manager.heap 0).status = .inQueue ∧ OwnershipKept {} s workerStep) &&
      (systemStep {} s workerStep).any fun (s₂ : System) =>
        decide ((s₂.manager.heap 0).status = .copying))
    (by decide +kernel)
  rw [Bool.and_eq_true, decide_eq_true_eq] at hs₁
  obtain ⟨⟨hqueued, hok⟩, hstep⟩ := hs₁
  cases hs : systemStep {} s₁ workerStep with
  | none => rw [hs] at hstep; cases hstep
  | some s₂ =>
    rw [hs] at hstep
    refine ⟨s₁, s₂, hs, hqueued, of_decide_eq_true hstep, ?_⟩
    refine statusOwned_of_ownershipKept (hrun.snoc hs) ?_ s₁ workerStep s₂ (by simp) hs
    rw [meets_append, meets_singleton]
    exact ⟨by decide +kernel, hok⟩

/-- **A handler writes over the status of a worker**: the job of a file is in the queue before its
record is `IN_QUEUE`; a worker takes it and writes `COPYING`, and then the handler writes
`IN_QUEUE`. -/
theorem inQueue_written_over_copying :
    ∃ tr s₁ s₂, Run (systemStep {}) (.start 1) tr s₁ ∧
      systemStep {} s₁ (.run 0 30000000 {}) = some s₂ ∧
      (s₁.manager.heap 0).status = .copying ∧ (s₂.manager.heap 0).status = .inQueue ∧
      ¬ StatusOwned s₁ (.run 0 30000000 {}) s₂ := by
  obtain ⟨s₁, hrun, hs₁⟩ := exists_run_of_replay (systemStep {}) (.start 1)
    (smallFile ++ scannerHandles.take 4 ++ [workerStep, workerStep])
    (fun s => decide (0 ∈ s.manager.files ∧ (s.manager.heap 0).status = .copying ∧
        ∀ t ∈ s.tasks[0]?, Task.worksOn 0 t = false) &&
      (systemStep {} s (.run 0 30000000 {})).any fun (s₂ : System) =>
        decide ((s₂.manager.heap 0).status = .inQueue))
    (by decide +kernel)
  rw [Bool.and_eq_true, decide_eq_true_eq] at hs₁
  obtain ⟨⟨hfile, hcopying, hscanner⟩, hstep⟩ := hs₁
  cases hs : systemStep {} s₁ (.run 0 30000000 {}) with
  | none => rw [hs] at hstep; cases hstep
  | some s₂ =>
    rw [hs] at hstep
    have hqueued := of_decide_eq_true hstep
    refine ⟨_, s₁, s₂, hrun, hs, hcopying, hqueued, fun howned => ?_⟩
    have hne : (s₂.manager.heap 0).status ≠ (s₁.manager.heap 0).status := by
      rw [hqueued, hcopying]
      intro h
      cases h
    obtain ⟨i, now, env, ha, -, hworker, -⟩ := howned 0 hfile hne
    cases ha
    -- the task that has run is the scanner
    obtain ⟨t, ht, hworks⟩ := hworker (by rw [hcopying]; rfl)
    rw [hscanner t ht] at hworks
    cases hworks

end Runs

end FileAgent

import FileAgent.RetryTimers
import FileAgent.StatusProvenance

set_option relaxedAutoImplicit false
set_option autoImplicit false

/-!
# The delay of a space retry

`SpaceRetryManager` makes a record `WAITING_FOR_SPACE`, and then schedules its retry. The monitor of
growing files does not leave such a record alone: the statuses that a pass of its loop skips are
those of a record in the queue or behind it, and `WAITING_FOR_SPACE` is not one of them.

## Main definitions

* `SpaceRetrySystem`, `spaceRetryStep` — the system, with what each record that was made to wait
  waits for.
* `RetryHonoured` — until the time of its retry a record that was made to wait goes on waiting, or
  it fails or is removed.
* `Task.Spares` — the task is going to write no other status to the record.
* `LeftToRetry` — the condition on the steps.

## Main results

* `spared_perform`, `spared_other` — a task that spares a record goes on sparing it.
* `leftParked_step` — the step lemma.
* `retryHonoured_of_leftToRetry` — the delay is honoured in the runs that meet the condition.
* `monitor_ends_wait` — the monitor makes a record `READY` before the time of its retry.

## Design

What a record waits for is the history of two writes of `SpaceRetryManager`, and no part of the
program: its wait begins with the status `WAITING_FOR_SPACE`, when the time of its retry is not
known yet, and ends at that time, whatever the program has made of the record or of its `retry_info`
meanwhile.
-/

namespace FileAgent

open Transition StateManager

/-! ## What a record waits for -/

/-- What a record waits for that `SpaceRetryManager` has made wait: that the worker `i` schedules
its retry, or the time `retryAt` of that retry. -/
inductive SpaceWait
  | nothing
  | scheduling (i : ℕ)
  | due (retryAt : ℕ)
  deriving DecidableEq

/-- The wait lasts at the time `now`. -/
def SpaceWait.lasts (now : ℕ) : SpaceWait → Bool
  | nothing => false
  | scheduling _ => true
  | due retryAt => now < retryAt

/-- The system, and what each record waits for. -/
structure SpaceRetrySystem where
  timed : TimedSystem
  waits : FileId → SpaceWait := fun _ => .nothing

/-- The record that the worker `i` makes wait, or schedules the retry of, and what it waits for from
then on. -/
def Task.newWait (cfg : Settings) (i now : ℕ) (t : Task) : Option (FileId × SpaceWait) :=
  match t.point, t.phase with
  | .worker (.waitForSpace job _ _), .awaiting => some (job.file, .scheduling i)
  | .worker (.scheduleRetry job _ temporary), .awaiting =>
    some (job.file, .due (now + seconds (WorkerPoint.retryDelay cfg temporary)))
  | _, _ => none

/-- What the records wait for after a step of the task `t` at `i`. -/
def SpaceRetrySystem.waitsAfter (cfg : Settings) (s : SpaceRetrySystem) (i now : ℕ) (t : Task)
    (id : FileId) : SpaceWait :=
  match t.newWait cfg i now with
  | some (file, wait) =>
    if id = file ∧ id ∈ s.timed.system.manager.files then wait else s.waits id
  | none => s.waits id

/-- One step. -/
def spaceRetryStep (cfg : Settings) (s : SpaceRetrySystem) (a : SystemAction) :
    Option SpaceRetrySystem :=
  (timedStep cfg s.timed a).map fun timed =>
    match a with
    | .run i now _ =>
      match s.timed.system.tasks[i]? with
      | some t => { timed := timed, waits := s.waitsAfter cfg i now t }
      | none => { s with timed := timed }
    | _ => { s with timed := timed }

/-- The start. -/
def SpaceRetrySystem.start (n : ℕ) : SpaceRetrySystem := { timed := .start n }

/-! ## The property -/

/-- The statuses a record may have while its wait lasts. -/
def FileStatus.keepsWaiting : FileStatus → Bool
  | .waitingForSpace | .failed | .removed => true
  | _ => false

/-- **The delay is honoured**: from the moment `SpaceRetryManager` makes it wait up to the time of
its retry, a record waits for space, has failed, or was removed. -/
def RetryHonoured (s : SpaceRetrySystem) : Prop :=
  ∀ id ∈ s.timed.system.manager.files, (s.waits id).lasts s.timed.system.now = true →
    (s.timed.system.manager.heap id).status.keepsWaiting = true

instance (s : SpaceRetrySystem) : Decidable (RetryHonoured s) :=
  inferInstanceAs (Decidable (∀ id ∈ s.timed.system.manager.files, _ → _))

/-! ## The condition -/

/-- The task makes the record wait in its next step. -/
def Task.parks (id : FileId) (t : Task) : Bool :=
  match t.point, t.phase with
  | .worker (.waitForSpace job _ _), .awaiting => job.file = id
  | _, _ => false

/-- The task has made the record wait, and is to schedule its retry. -/
def Task.schedules (id : FileId) (t : Task) : Bool :=
  match t.point, t.phase with
  | .worker (.waitForSpace _ _ _), .awaiting => false
  | .worker (.waitForSpace job _ _), _ | .worker (.scheduleRetry job _ _), _ => job.file = id
  | _, _ => false

/-- The task does not process a job of the record, and is going to write no status to it that ends
its wait. -/
def Task.Spares (cfg : Settings) (id : FileId) (t : Task) : Prop :=
  t.worksOn id = false ∧ t.point.visits id = false ∧
    ∀ st ∈ (t.nextOp cfg).writes id, st.keepsWaiting = true

instance (cfg : Settings) (id : FileId) (t : Task) : Decidable (t.Spares cfg id) :=
  inferInstanceAs (Decidable (_ ∧ _ ∧ _))

/-- The record is left to its retry by the step of the task `t` at `i`. When it is made to wait, no
other task has it in hand, it has no job in the queue, and no unfinished retry. While its wait
lasts, no loop takes it onto its list. -/
def LeftAlone (cfg : Settings) (s : SpaceRetrySystem) (i now : ℕ) (t : Task) (id : FileId) : Prop :=
  (t.parks id = true →
      (∀ u ∈ s.timed.system.tasks.eraseIdx i, u.Spares cfg id) ∧
        (∀ job ∈ s.timed.system.jobs, job.file ≠ id) ∧
        ∀ r ∈ s.timed.system.retries.tasks, r.file ≠ id) ∧
    ((s.waits id).lasts now = true → id ∉ t.point.lists s.timed.system.manager)

instance (cfg : Settings) (s : SpaceRetrySystem) (i now : ℕ) (t : Task) (id : FileId) :
    Decidable (LeftAlone cfg s i now t id) :=
  inferInstanceAs (Decidable ((_ → _ ∧ _ ∧ _) ∧ (_ → _)))

/-- The condition on a step. -/
def LeftToRetry (cfg : Settings) (s : SpaceRetrySystem) : SystemAction → Prop
  | .run i now _ => ∀ t ∈ s.timed.system.tasks[i]?,
      (∀ id ∈ s.timed.system.manager.files, LeftAlone cfg s i now t id) ∧
        t.point.FindsOwn s.timed.system.manager
  | _ => True

instance (cfg : Settings) (s : SpaceRetrySystem) :
    (a : SystemAction) → Decidable (LeftToRetry cfg s a)
  | .run i now _ => inferInstanceAs (Decidable (∀ t ∈ s.timed.system.tasks[i]?,
      (∀ id ∈ s.timed.system.manager.files, LeftAlone cfg s i now t id) ∧
        t.point.FindsOwn s.timed.system.manager))
  | .createQueue => .isTrue trivial
  | .subscribe => .isTrue trivial

/-! ## The tasks -/

section Tasks

variable {cfg : Settings} {s : System} {i now : ℕ} {id : FileId} {env : Env} {t t' : Task}

/-- A task that makes the record wait is about to write `WAITING_FOR_SPACE` to it. -/
lemma parks_cases (h : t.parks id = true) :
    ∃ job check temporary, t.point = .worker (.waitForSpace job check temporary) ∧
      t.phase = .awaiting ∧ job.file = id := by
  unfold Task.parks at h
  split at h
  · exact ⟨_, _, _, ‹_›, ‹_›, of_decide_eq_true h⟩
  · cases h

/-- A task that is to schedule the retry of the record has written `WAITING_FOR_SPACE` to it. -/
lemma schedules_cases (h : t.schedules id = true) :
    ∃ job check temporary, job.file = id ∧
      (t.point = .worker (.waitForSpace job check temporary) ∧ t.phase ≠ .awaiting ∨
        t.point = .worker (.scheduleRetry job check temporary)) := by
  unfold Task.schedules at h
  split at h
  · cases h
  · rename_i hpoint hphase
    exact ⟨_, _, _, of_decide_eq_true h, .inl ⟨hpoint, hphase⟩⟩
  · exact ⟨_, _, _, of_decide_eq_true h, .inr ‹_›⟩
  · cases h

/-- A task that is to schedule the retry of the record works on it. -/
lemma worksOn_of_schedules (h : t.schedules id = true) : t.worksOn id = true := by
  obtain ⟨job, check, temporary, hfile, ⟨hpoint, -⟩ | hpoint⟩ := schedules_cases h <;>
    exact worksOn_of_job? hpoint rfl hfile

/-- A worker comes to schedule a retry when it has made the record wait. -/
lemma after_scheduleRetry {view : View} {a : Answer} {p : WorkerPoint} {job : QueueJob}
    {check : SpaceCheckResult} {temporary : Bool}
    (h : p.after cfg view a = some (.scheduleRetry job check temporary)) :
    p = .waitForSpace job check temporary := by
  generalize hq : WorkerPoint.scheduleRetry job check temporary = q at h
  cases WorkerPoint.next_of_after h with
  | waitsForSpace => cases hq; rfl
  | copies job' dest p p' =>
    rcases WorkerPoint.afterCopy_cases view job' dest p' with hc | hc | hc | ⟨st, reason, -, hc⟩ <;>
      rw [hc] at hq <;> cases hq
  | _ => cases hq

/-- How a task comes to be the one that is to schedule the retry.

**Proof sketch.** A task comes to `schedule_retry` from the write of `WAITING_FOR_SPACE` only
(`after_scheduleRetry`). It arrives there by that write, or after the event of it has been
delivered. -/
lemma parks_or_schedules_goOn {view : View} {published : Option FileStatusChangedEvent} {a : Answer}
    (hgo : t.goOn cfg view published a = some t') (h : t'.schedules id = true) :
    t.parks id = true ∨ t.schedules id = true := by
  obtain ⟨job, check, temporary, hfile, hpoint⟩ := schedules_cases h
  rcases goOn_cases hgo with ⟨b, p', hafter, rfl, hphase⟩ | ⟨e, b, -, rfl, hphase⟩ |
    ⟨e, b, hphase, rfl⟩
  · rcases hpoint with ⟨hp', hne⟩ | hp'
    · -- a task that arrives at a worker's point awaits its operation
      obtain rfl : p' = _ := hp'
      exact absurd rfl hne
    · obtain rfl : p' = _ := hp'
      cases hp : t.point with
      | worker p =>
        rw [hp] at hafter
        obtain ⟨q, hq, hqp⟩ := Option.map_eq_some_iff.mp hafter
        cases hqp
        rw [after_scheduleRetry hq] at hp
        rcases hphase with ⟨hphase, -, -⟩ | hphase
        · exact .inl (by simp [Task.parks, hp, hphase, hfile])
        · exact .inr (by simp [Task.schedules, hp, hphase, hfile])
      | fileReady e =>
        rw [hp] at hafter
        simp only [TaskPoint.after] at hafter
        split_ifs at hafter
        all_goals cases hafter
      | finished => rw [hp] at hafter; cases hafter
      | _ =>
        rw [hp] at hafter
        obtain ⟨q, -, hqp⟩ := Option.map_eq_some_iff.mp hafter
        cases hqp
  · -- only the event is delivered
    rcases hpoint with ⟨hp, -⟩ | hp
    · rcases hphase with hphase | ⟨e', hphase⟩
      · exact .inl (by simp [Task.parks, show t.point = _ from hp, hphase, hfile])
      · exact .inr (by simp [Task.schedules, show t.point = _ from hp, hphase, hfile])
    · exact .inr (by simp [Task.schedules, show t.point = _ from hp, hfile])
  · rcases hpoint with ⟨hp, -⟩ | hp
    · exact .inr (by simp [Task.schedules, show t.point = _ from hp, hphase, hfile])
    · exact .inr (by simp [Task.schedules, show t.point = _ from hp, hfile])

/-- A task that makes the record wait, or is to schedule its retry, is to schedule it afterwards, or
it has none to process. -/
lemma schedules_goOn {view : View} {published : Option FileStatusChangedEvent} {a : Answer}
    (hgo : t.goOn cfg view published a = some t')
    (h : t.parks id = true ∨ t.schedules id = true) :
    t'.schedules id = true ∨ t'.point.job? = none := by
  obtain ⟨job, check, temporary, hfile, hpoint⟩ : ∃ job check temporary, job.file = id ∧
      (t.point = .worker (.waitForSpace job check temporary) ∨
        t.point = .worker (.scheduleRetry job check temporary)) := by
    rcases h with h | h
    · obtain ⟨job, check, temporary, hpoint, -, hfile⟩ := parks_cases h
      exact ⟨job, check, temporary, hfile, .inl hpoint⟩
    · obtain ⟨job, check, temporary, hfile, ⟨hpoint, -⟩ | hpoint⟩ := schedules_cases h
      · exact ⟨job, check, temporary, hfile, .inl hpoint⟩
      · exact ⟨job, check, temporary, hfile, .inr hpoint⟩
  rcases goOn_cases hgo with ⟨b, p', hafter, rfl, -⟩ | ⟨e, b, -, rfl, -⟩ | ⟨e, b, -, rfl⟩
  · rcases hpoint with hpoint | hpoint <;> rw [hpoint] at hafter <;>
      obtain ⟨q, hq, rfl⟩ := Option.map_eq_some_iff.mp hafter <;> cases b <;> cases hq
    · exact .inl (by simp [Task.schedules, Task.arrive, hfile])
    · exact .inr rfl
  · rcases hpoint with hpoint | hpoint <;> exact .inl (by simp [Task.schedules, hpoint, hfile])
  · rcases hpoint with hpoint | hpoint <;> exact .inl (by simp [Task.schedules, hpoint, hfile])

/-- A worker that schedules a retry has no job afterwards. -/
lemma job?_goOn_of_scheduleRetry {job : QueueJob} {check : SpaceCheckResult} {temporary : Bool}
    {view : View} (hpoint : t.point = .worker (.scheduleRetry job check temporary))
    (hphase : t.phase = .awaiting)
    (hgo : t.goOn cfg view (s.perform cfg now (t.nextOp cfg)).1.published
      (s.perform cfg now (t.nextOp cfg)).2 = some t') : t'.point.job? = none := by
  have hop : t.nextOp cfg = WorkerPoint.op cfg (.scheduleRetry job check temporary) := by
    simp only [Task.nextOp, hphase, hpoint, TaskPoint.op]
  have hpub : (s.perform cfg now (t.nextOp cfg)).1.published = none := by
    rw [perform_fst]
    cases hp : (s.manager.perform cfg now (t.nextOp cfg)).1.published with
    | none => rfl
    | some e =>
      have hw := (published_perform hp).2
      rw [hop] at hw
      cases hw
  rw [hpub] at hgo
  simp only [Task.goOn, hphase, hpoint] at hgo
  obtain ⟨p', hp', rfl⟩ := Option.map_eq_some_iff.mp hgo
  obtain ⟨q, hq, rfl⟩ := Option.map_eq_some_iff.mp hp'
  generalize (s.perform cfg now (t.nextOp cfg)).2 = a at hq
  cases a <;> cases hq
  rfl

/-- A task that makes the record wait, or is to schedule its retry, writes `WAITING_FOR_SPACE` only.
-/
lemma writes_of_schedules {st : FileStatus} (ht : t.Regular cfg)
    (h : t.parks id = true ∨ t.schedules id = true) (hw : (t.nextOp cfg).writes id = some st) :
    st = .waitingForSpace := by
  have hpoint : ∃ job check temporary, t.point = .worker (.waitForSpace job check temporary) ∨
      t.point = .worker (.scheduleRetry job check temporary) := by
    rcases h with h | h
    · obtain ⟨job, check, temporary, hpoint, -⟩ := parks_cases h
      exact ⟨job, check, temporary, .inl hpoint⟩
    · obtain ⟨job, check, temporary, -, ⟨hpoint, -⟩ | hpoint⟩ := schedules_cases h
      · exact ⟨job, check, temporary, .inl hpoint⟩
      · exact ⟨job, check, temporary, .inr hpoint⟩
  obtain ⟨job, check, temporary, hpoint | hpoint⟩ := hpoint <;>
    have hop := op_writes_of_nextOp ht (by rw [hpoint]; exact Option.some_ne_none _) hw <;>
    rw [hpoint] at hop
  · simp only [TaskPoint.op, WorkerPoint.op, Op.writes] at hop
    split_ifs at hop
    exact (Option.some.inj hop).symm
  · cases hop

/-- A worker is not visiting any record. -/
lemma visits_of_schedules (h : t.parks id = true ∨ t.schedules id = true) :
    t.point.visits id = false := by
  rcases h with h | h
  · obtain ⟨job, check, temporary, hpoint, -⟩ := parks_cases h
    rw [hpoint]
    rfl
  · obtain ⟨job, check, temporary, -, ⟨hpoint, -⟩ | hpoint⟩ := schedules_cases h <;>
      rw [hpoint] <;> rfl

/-- **A task goes on writing no status that ends the wait** of a record it does not turn to.

**Proof sketch.** The task visits the record afterwards only if it did before or has listed it.
What it is to write afterwards it writes to a record of its own, which is `WAITING_FOR_SPACE`, or
was to write before, or has just read, or decides as a handler or after a list; the last two are
excluded. -/
lemma keepsWaiting_goOn (ht : t.Regular cfg) (hfinds : t.point.FindsOwn s.manager)
    (hgo : t.goOn cfg (s.view (s.perform cfg now (t.nextOp cfg)).1 now env)
      (s.perform cfg now (t.nextOp cfg)).1.published (s.perform cfg now (t.nextOp cfg)).2 = some t')
    (hst : ((s.perform cfg now (t.nextOp cfg)).1.manager.heap id).status.keepsWaiting = true)
    (hvisits : t.point.visits id = false)
    (hwrites : ∀ st ∈ (t.nextOp cfg).writes id, st.keepsWaiting = true)
    (hlists : id ∉ t.point.lists s.manager)
    (hhandles : ¬ (t.point.handles = some (id, .getFileById) ∧ (s.manager.heap id).status = .ready))
    (hworks : t'.worksOn id = true → t'.schedules id = true) :
    t'.point.visits id = false ∧ ∀ st ∈ (t'.nextOp cfg).writes id, st.keepsWaiting = true := by
  have hregular := regular_goOn ht hfinds hgo
  refine ⟨?_, fun st hw => ?_⟩
  · by_contra hv
    rw [Bool.not_eq_false] at hv
    rcases visits_goOn ht.consistent hgo hv with hv | hl
    · rw [hvisits] at hv
      cases hv
    · exact hlists hl
  · rcases writes_goOn ht hfinds hgo hw with h | h | h | h | h | h
    · rw [writes_of_schedules hregular (.inr (hworks h)) hw]
      rfl
    · rw [hvisits] at h
      cases h
    · exact hwrites st h
    · rw [h]
      exact hst
    · exact absurd h hhandles
    · exact absurd h hlists

/-- A task that does not work on the record does not come to it without a job in the queue. -/
lemma worksOn_goOn {view : View} (ht : t.Consistent cfg)
    (hgo : t.goOn cfg view (s.perform cfg now (t.nextOp cfg)).1.published
      (s.perform cfg now (t.nextOp cfg)).2 = some t')
    (hworks : t.worksOn id = false) (hjobs : ∀ job ∈ s.jobs, job.file ≠ id) :
    t'.worksOn id = false := by
  by_contra hon
  obtain ⟨p', job, hp', hjob, hfile⟩ := worker_of_worksOn (by simpa using hon)
  have hjob' : t'.point.job? = some job := by rw [hp']; exact hjob
  rcases job?_goOn ht hgo with hnone | hsame | ⟨-, -, hhead⟩
  · rw [hjob'] at hnone
    cases hnone
  · rw [hjob'] at hsame
    simp [Task.worksOn, ← hsame, hfile] at hworks
  · rw [hjob'] at hhead
    exact hjobs job (List.mem_of_mem_head? hhead.symm) hfile

/-- A new task has no stored record in hand. -/
lemma spares_created {o : Op} (hid : id ∈ s.manager.files)
    (h : t ∈ System.created s.manager o (s.perform cfg now o).1) : t.Spares cfg id := by
  have hnone : t.worksOn id = false := by rw [Task.worksOn, job?_created h]; rfl
  rcases agrees_created .waitingForSpace hid h with hworks | ⟨hvisits, hwrites⟩
  · rw [hnone] at hworks
    cases hworks
  · refine ⟨hnone, hvisits, fun st hw => ?_⟩
    rw [hwrites st hw]
    rfl

end Tasks

/-! ## The waits -/

section Waits

variable {cfg : Settings} {s s' : SpaceRetrySystem} {i now : ℕ} {env : Env} {id : FileId} {t : Task}

/-- A wait that lasts later lasts now. -/
lemma SpaceWait.lasts_mono {w : SpaceWait} {later : ℕ} (h : w.lasts later = true)
    (hle : now ≤ later) : w.lasts now = true := by
  cases w with
  | nothing => cases h
  | scheduling j => rfl
  | due retryAt => exact decide_eq_true (hle.trans_lt (of_decide_eq_true h))

/-- A task that calls `schedule_retry` is a worker. -/
lemma point_of_scheduleRetry {f : FileId} {delay : ℕ} {reason : String}
    (h : t.nextOp cfg = .call (.scheduleRetry f delay reason)) :
    ∃ job check temporary, t.point = .worker (.scheduleRetry job check temporary) ∧
      t.phase = .awaiting ∧ job.file = f ∧ delay = WorkerPoint.retryDelay cfg temporary := by
  cases calls_of_nextOp h with
  | scheduleRetry job check temporary => exact ⟨job, check, temporary, rfl, rfl, rfl, rfl⟩

/-- **How a step changes what a record waits for**: not at all, or it makes the record wait, or it
schedules its retry. -/
lemma waitsAfter_cases (cfg : Settings) (s : SpaceRetrySystem) (i now : ℕ) (t : Task)
    (id : FileId) :
    s.waitsAfter cfg i now t id = s.waits id ∨
      id ∈ s.timed.system.manager.files ∧
        (t.parks id = true ∧ s.waitsAfter cfg i now t id = .scheduling i ∨
          ∃ job check temporary, t.point = .worker (.scheduleRetry job check temporary) ∧
            t.phase = .awaiting ∧ job.file = id ∧ s.waitsAfter cfg i now t id =
              .due (now + seconds (WorkerPoint.retryDelay cfg temporary))) := by
  unfold SpaceRetrySystem.waitsAfter
  split
  · rename_i file wait hnew
    split_ifs with hid
    · refine .inr ⟨hid.2, ?_⟩
      unfold Task.newWait at hnew
      split at hnew
      · rename_i hpoint hphase
        cases hnew
        exact .inl ⟨by simp [Task.parks, hpoint, hphase, hid.1], rfl⟩
      · rename_i hpoint hphase
        cases hnew
        exact .inr ⟨_, _, _, hpoint, hphase, hid.1.symm, rfl⟩
      · cases hnew
    · exact .inl rfl
  · exact .inl rfl

/-- The step that writes WAITING_FOR_SPACE begins the wait. -/
lemma waitsAfter_of_parks (hid : id ∈ s.timed.system.manager.files) (h : t.parks id = true) :
    s.waitsAfter cfg i now t id = .scheduling i := by
  obtain ⟨job, check, temporary, hpoint, hphase, hfile⟩ := parks_cases h
  simp [SpaceRetrySystem.waitsAfter, Task.newWait, hpoint, hphase, hfile, hid]

/-- The step that schedules the retry fixes the end of the wait. -/
lemma waitsAfter_of_scheduleRetry {job : QueueJob} {check : SpaceCheckResult} {temporary : Bool}
    (hid : job.file ∈ s.timed.system.manager.files)
    (hpoint : t.point = .worker (.scheduleRetry job check temporary))
    (hphase : t.phase = .awaiting) :
    s.waitsAfter cfg i now t job.file =
      .due (now + seconds (WorkerPoint.retryDelay cfg temporary)) := by
  simp [SpaceRetrySystem.waitsAfter, Task.newWait, hpoint, hphase, hid]

/-- A step is one of the system with its timers. -/
lemma timedStep_of_spaceRetryStep {a : SystemAction} (h : spaceRetryStep cfg s a = some s') :
    timedStep cfg s.timed a = some s'.timed := by
  obtain ⟨timed, htimed, rfl⟩ := Option.map_eq_some_iff.mp h
  cases a with
  | run i now env =>
    dsimp only
    split <;> exact htimed
  | _ => exact htimed

/-- A step of a task notes the waits it begins and ends. -/
lemma spaceRetryStep_run (h : spaceRetryStep cfg s (.run i now env) = some s')
    (ht : s.timed.system.tasks[i]? = some t) : s'.waits = s.waitsAfter cfg i now t := by
  obtain ⟨timed, -, rfl⟩ := Option.map_eq_some_iff.mp h
  simp only [ht]

/-- Actions outside a task keep the waits. -/
lemma spaceRetryStep_of_ne_run {a : SystemAction} (h : spaceRetryStep cfg s a = some s')
    (ha : ∀ i now env, a ≠ .run i now env) : s'.waits = s.waits := by
  obtain ⟨timed, -, rfl⟩ := Option.map_eq_some_iff.mp h
  cases a with
  | run i now env => exact absurd rfl (ha i now env)
  | _ => rfl

end Waits

/-! ## The invariant -/

/-- The invariant. While the wait of a record lasts, it has no job in the queue, and all tasks spare
it but the worker that is to schedule its retry; and no retry wakes up before the wait of its record
is over. -/
structure LeftParked (cfg : Settings) (s : SpaceRetrySystem) : Prop where
  timers : Timers s.timed
  paths : s.timed.system.Paths cfg
  regular : ∀ t ∈ s.timed.system.tasks, t.Regular cfg
  known : ∀ id, s.waits id ≠ .nothing → id < s.timed.system.manager.repo.nextId
  honoured : RetryHonoured s
  scheduling : ∀ (k : ℕ) (t : Task), s.timed.system.tasks[k]? = some t →
    ∀ id ∈ s.timed.system.manager.files, t.schedules id = true → s.waits id = .scheduling k
  spared : ∀ id ∈ s.timed.system.manager.files,
    (s.waits id).lasts s.timed.system.now = true →
      ∀ (k : ℕ) (t : Task), s.timed.system.tasks[k]? = some t →
        t.Spares cfg id ∨ s.waits id = .scheduling k ∧ t.schedules id = true
  unqueued : ∀ id ∈ s.timed.system.manager.files,
    (s.waits id).lasts s.timed.system.now = true → ∀ job ∈ s.timed.system.jobs, job.file ≠ id
  asleep : ∀ r ∈ s.timed.system.retries.tasks,
    (s.waits r.file).lasts (s.timed.wakeAt r.handle) = false

section Invariant

variable {cfg : Settings} {s s' : SpaceRetrySystem} {i now : ℕ} {env : Env} {id : FileId}
  {t t' : Task}

/-- A record whose wait lasts after a step is made to wait by it, or its wait has lasted before. -/
lemma parks_or_lasts (h : LeftParked cfg s) (ht : s.timed.system.tasks[i]? = some t)
    (hlasts : (s.waitsAfter cfg i now t id).lasts now = true) :
    t.parks id = true ∨ (s.waits id).lasts now = true := by
  rcases waitsAfter_cases cfg s i now t id with hsame | ⟨hid, hparks | ⟨job, check, temporary,
    hpoint, -, hfile, -⟩⟩
  · exact .inr (hsame ▸ hlasts)
  · exact .inl hparks.1
  · -- the worker that schedules the retry has made the record wait
    have hschedules : t.schedules id = true := by simp [Task.schedules, hpoint, hfile]
    rw [h.scheduling i t ht id hid hschedules]
    exact .inr rfl

/-- **Before such a step** the record has no job in the queue, and the task that runs neither lists
it nor finds it `READY`. -/
lemma unlisted_before (h : LeftParked cfg s) (hnow : s.timed.system.now ≤ now)
    (hok : LeftAlone cfg s i now t id) (hid : id ∈ s.timed.system.manager.files)
    (hbefore : t.parks id = true ∨ (s.waits id).lasts now = true) :
    (∀ job ∈ s.timed.system.jobs, job.file ≠ id) ∧
      id ∉ t.point.lists s.timed.system.manager ∧
      ¬ (t.point.handles = some (id, .getFileById) ∧
        (s.timed.system.manager.heap id).status = .ready) := by
  rcases hbefore with hparks | hlasts
  · obtain ⟨job, check, temporary, hpoint, -⟩ := parks_cases hparks
    refine ⟨(hok.1 hparks).2.1, ?_, ?_⟩
    · rw [hpoint]
      exact List.not_mem_nil
    · rintro ⟨hhandles, -⟩
      rw [hpoint] at hhandles
      cases hhandles
  · have hstill := SpaceWait.lasts_mono hlasts hnow
    refine ⟨h.unqueued id hid hstill, hok.2 hlasts, fun hhandles => ?_⟩
    have hst := h.honoured id hid hstill
    rw [hhandles.2] at hst
    cases hst

/-- The task that runs visits no such record, and writes no status to it that ends its wait. -/
lemma writes_before (h : LeftParked cfg s) (ht : s.timed.system.tasks[i]? = some t)
    (hnow : s.timed.system.now ≤ now) (hid : id ∈ s.timed.system.manager.files)
    (hbefore : t.parks id = true ∨ (s.waits id).lasts now = true) :
    (t.Spares cfg id ∨ t.parks id = true ∨ t.schedules id = true) ∧
      t.point.visits id = false ∧ ∀ st ∈ (t.nextOp cfg).writes id, st.keepsWaiting = true := by
  have hhand : t.Spares cfg id ∨ t.parks id = true ∨ t.schedules id = true := by
    rcases hbefore with hparks | hlasts
    · exact .inr (.inl hparks)
    · rcases h.spared id hid (SpaceWait.lasts_mono hlasts hnow) i t ht with
        hspares | ⟨-, hschedules⟩
      · exact .inl hspares
      · exact .inr (.inr hschedules)
  refine ⟨hhand, ?_⟩
  rcases hhand with ⟨-, hvisits, hwrites⟩ | hschedules
  · exact ⟨hvisits, hwrites⟩
  · refine ⟨visits_of_schedules hschedules, fun st hw => ?_⟩
    rw [writes_of_schedules (h.regular t (List.mem_of_getElem? ht)) hschedules hw]
    rfl

/-- **The status of such a record after the step.**

**Proof sketch.** The step that makes it wait writes `WAITING_FOR_SPACE`. Otherwise its wait has
lasted before: the task that runs writes no other status to it, a cleanup removes it, and its retry
does not wake up before the wait is over. -/
lemma keepsWaiting_perform (h : LeftParked cfg s) (ht : s.timed.system.tasks[i]? = some t)
    (hnow : s.timed.system.now ≤ now) (hid : id ∈ s.timed.system.manager.files)
    (hbefore : t.parks id = true ∨ (s.waits id).lasts now = true) :
    (((s.timed.system.perform cfg now (t.nextOp cfg)).1.manager.heap
      id).status).keepsWaiting = true := by
  obtain ⟨-, -, hwrites⟩ := writes_before h ht hnow hid hbefore
  rw [perform_fst]
  rcases hbefore with hparks | hlasts
  · obtain ⟨job, check, temporary, hpoint, hphase, rfl⟩ := parks_cases hparks
    have hop : t.nextOp cfg = WorkerPoint.op cfg (.waitForSpace job check temporary) := by
      simp only [Task.nextOp, hphase, hpoint, TaskPoint.op]
    rw [hop, status_perform rfl hid]
    simp [WorkerPoint.op, Op.writes, FileStatus.keepsWaiting]
  · have hst := h.honoured id hid (SpaceWait.lasts_mono hlasts hnow)
    rcases status_perform_cases cfg s.timed.system.manager now (t.nextOp cfg) id with
      hsame | ⟨-, hw | ⟨paths, -, -, hremoved⟩ | ⟨ho, -⟩⟩ | ⟨hnew, -⟩
    · rw [hsame]
      exact hst
    · exact hwrites _ hw
    · rw [hremoved]
      rfl
    · -- the retry has slept until its time
      obtain ⟨handle, hpoint, -⟩ := executes_of_nextOp ho
      have hmem := mem_retries_of_executes (List.mem_of_getElem? ht) hpoint
      have hawake := h.timers.awake t (List.mem_of_getElem? ht) handle id hpoint
      have hasleep := h.asleep _ hmem
      rw [SpaceWait.lasts_mono hlasts (hawake.trans hnow)] at hasleep
      cases hasleep
    · exact absurd hnew (s.timed.system.manager.repo.ne_nextId hid)

/-- The worker that makes the record wait is to schedule its retry, until it has done so. -/
lemma scheduling_perform {view : View} (h : LeftParked cfg s)
    (ht : s.timed.system.tasks[i]? = some t) (hid : id ∈ s.timed.system.manager.files)
    (hhand : t.parks id = true ∨ t.schedules id = true)
    (hgo : t.goOn cfg view (s.timed.system.perform cfg now (t.nextOp cfg)).1.published
      (s.timed.system.perform cfg now (t.nextOp cfg)).2 = some t')
    (hschedules : t'.schedules id = true) :
    s.waitsAfter cfg i now t id = .scheduling i := by
  rcases hhand with hparks | hbefore
  · exact waitsAfter_of_parks hid hparks
  · rcases waitsAfter_cases cfg s i now t id with hsame | ⟨-, ⟨-, hwait⟩ | ⟨job, check, temporary,
      hpoint, hphase, -, -⟩⟩
    · rw [hsame, h.scheduling i t ht id hid hbefore]
    · exact hwait
    · have hworks := worksOn_of_schedules hschedules
      rw [Task.worksOn, job?_goOn_of_scheduleRetry hpoint hphase hgo] at hworks
      cases hworks

/-- **The tasks that spare such a record after the step**: all but the worker that is to schedule
its retry. -/
lemma spared_perform (h : LeftParked cfg s) (ht : s.timed.system.tasks[i]? = some t)
    (hnow : s.timed.system.now ≤ now) (hok : LeftAlone cfg s i now t id)
    (hfinds : t.point.FindsOwn s.timed.system.manager) (hid : id ∈ s.timed.system.manager.files)
    (hbefore : t.parks id = true ∨ (s.waits id).lasts now = true)
    (hgo : t.goOn cfg
      (s.timed.system.view (s.timed.system.perform cfg now (t.nextOp cfg)).1 now env)
      (s.timed.system.perform cfg now (t.nextOp cfg)).1.published
      (s.timed.system.perform cfg now (t.nextOp cfg)).2 = some t') :
    t'.Spares cfg id ∨
      s.waitsAfter cfg i now t id = .scheduling i ∧ t'.schedules id = true := by
  have hregular := h.regular t (List.mem_of_getElem? ht)
  obtain ⟨hjobs, hlists, hhandles⟩ := unlisted_before h hnow hok hid hbefore
  obtain ⟨hhand, hvisits, hwrites⟩ := writes_before h ht hnow hid hbefore
  have hst := keepsWaiting_perform h ht hnow hid hbefore
  by_cases hspares : t.Spares cfg id
  · have hworks := worksOn_goOn hregular.consistent hgo hspares.1 hjobs
    exact .inl ⟨hworks, keepsWaiting_goOn hregular hfinds hgo hst hvisits hwrites hlists hhandles
      fun hon => absurd (hworks.symm.trans hon) Bool.false_ne_true⟩
  · have hhand' := hhand.resolve_left hspares
    rcases schedules_goOn hgo hhand' with hschedules | hnone
    · exact .inr ⟨scheduling_perform h ht hid hhand' hgo hschedules, hschedules⟩
    · have hworks : t'.worksOn id = false := by rw [Task.worksOn, hnone]; rfl
      exact .inl ⟨hworks, keepsWaiting_goOn hregular hfinds hgo hst hvisits hwrites hlists hhandles
        fun hon => absurd (hworks.symm.trans hon) Bool.false_ne_true⟩

/-- What a record waits for changes by a step of the task `t` only: no other worker is to schedule
its retry then. -/
lemma waitsAfter_of_schedules (h : LeftParked cfg s) (ht : s.timed.system.tasks[i]? = some t)
    (hok : LeftAlone cfg s i now t id) (hid : id ∈ s.timed.system.manager.files) {k : ℕ} {u : Task}
    (hk : k ≠ i) (hu : s.timed.system.tasks[k]? = some u) (hschedules : u.schedules id = true) :
    s.waitsAfter cfg i now t id = s.waits id := by
  rcases waitsAfter_cases cfg s i now t id with hsame | ⟨-, ⟨hparks, -⟩ | ⟨job, check, temporary,
    hpoint, -, hfile, -⟩⟩
  · exact hsame
  · -- when a record is made to wait, no other task works on it
    have hspares := (hok.1 hparks).1 u (List.mem_eraseIdx_iff_getElem?.mpr ⟨k, hk, hu⟩)
    exact absurd (hspares.1.symm.trans (worksOn_of_schedules hschedules)) Bool.false_ne_true
  · have hother := h.scheduling k u hu id hid hschedules
    rw [h.scheduling i t ht id hid (by simp [Task.schedules, hpoint, hfile])] at hother
    exact absurd (SpaceWait.scheduling.inj hother).symm hk

/-- The other tasks after the step. -/
lemma spared_other (h : LeftParked cfg s) (ht : s.timed.system.tasks[i]? = some t)
    (hnow : s.timed.system.now ≤ now) (hok : LeftAlone cfg s i now t id)
    (hid : id ∈ s.timed.system.manager.files)
    (hbefore : t.parks id = true ∨ (s.waits id).lasts now = true) {k : ℕ} {u : Task} (hk : k ≠ i)
    (hu : s.timed.system.tasks[k]? = some u) :
    u.Spares cfg id ∨ s.waitsAfter cfg i now t id = .scheduling k ∧ u.schedules id = true := by
  rcases hbefore with hparks | hlasts
  · exact .inl ((hok.1 hparks).1 u (List.mem_eraseIdx_iff_getElem?.mpr ⟨k, hk, hu⟩))
  · rcases h.spared id hid (SpaceWait.lasts_mono hlasts hnow) k u hu with hspares | ⟨hwait, hsch⟩
    · exact .inl hspares
    · exact .inr ⟨(waitsAfter_of_schedules h ht hok hid hk hu hsch).trans hwait, hsch⟩

/-- **No retry wakes up early after the step.**

**Proof sketch.** An old retry keeps its wake-up time. The step that makes a record wait finds no
retry of it, and the one that schedules a retry cancels the old one and creates one that wakes up
when the wait is over. -/
lemma asleep_step (h : LeftParked cfg s) (ht : s.timed.system.tasks[i]? = some t)
    (hok : ∀ id ∈ s.timed.system.manager.files, LeftAlone cfg s i now t id)
    (hs : timedStep cfg s.timed (.run i now env) = some s'.timed)
    (hwaits : s'.waits = s.waitsAfter cfg i now t) :
    ∀ r ∈ s'.timed.system.retries.tasks,
      (s'.waits r.file).lasts (s'.timed.wakeAt r.handle) = false := by
  obtain ⟨t₀, ht₀, -, hwakeAt⟩ := timedStep_run hs
  obtain rfl : t = t₀ := Option.some.inj (ht.symm.trans ht₀)
  obtain ⟨t₁, ht₁, -, hcases⟩ := retries_step h.timers.nodup (systemStep_of_timedStep hs)
  obtain rfl : t = t₁ := Option.some.inj (ht.symm.trans ht₁)
  -- an old retry, if the step does not cancel those of its file
  have hold : ∀ r ∈ s.timed.system.retries.tasks,
      (r.file ∈ s.timed.system.manager.files →
        ∀ delay reason, t.nextOp cfg ≠ .call (.scheduleRetry r.file delay reason)) →
      (s'.waits r.file).lasts (s'.timed.wakeAt r.handle) = false := by
    intro r hr hne
    rw [hwakeAt, wakeAtAfter_of_mem h.timers hr, hwaits]
    rcases waitsAfter_cases cfg s i now t r.file with hsame | ⟨hid, ⟨hparks, -⟩ | ⟨job, check,
      temporary, hpoint, hphase, hfile, -⟩⟩
    · rw [hsame]
      exact h.asleep r hr
    · exact absurd rfl (((hok r.file hid).1 hparks).2.2 r hr)
    · refine absurd ?_ (hne hid (WorkerPoint.retryDelay cfg temporary)
        (WorkerPoint.retryReason check temporary))
      simp only [Task.nextOp, hphase, hpoint, TaskPoint.op, WorkerPoint.op, hfile]
  intro r hr
  rcases hcases with ⟨c, -, hop, hsub⟩ | ⟨handle, f, hop, -, -, hsub, -⟩ | ⟨hop, hsub⟩
  · rcases List.mem_append.mp (hsub.subset hr) with hr | hr
    · obtain ⟨hmem, hkept⟩ := List.mem_filter.mp hr
      refine hold r hmem fun hid delay reason ho => ?_
      obtain rfl : c = .scheduleRetry r.file delay reason := Op.call.inj (hop.symm.trans ho)
      -- the retry of the file has been cancelled
      have hcancelled : r.handle ∈ (s.timed.system.manager.call now
          (.scheduleRetry r.file delay reason)).cancelled :=
        ((remaps_scheduleRetry delay reason).cancelled r.handle).mpr
          ⟨r.file, ⟨rfl, hid⟩, h.timers.registered.registered r hmem⟩
      simp [hcancelled] at hkept
    · -- the new retry wakes up when the wait is over
      unfold scheduledTask at hr
      split at hr
      · rename_i f delay reason
        split_ifs at hr with hf
        · rw [List.mem_singleton] at hr
          subst hr
          obtain ⟨job, check, temporary, hpoint, hphase, rfl, rfl⟩ := point_of_scheduleRetry hop
          rw [hwakeAt, hwaits, hop]
          dsimp only
          rw [waitsAfter_of_scheduleRetry hf hpoint hphase]
          simp [TimedSystem.wakeAtAfter, SpaceWait.lasts]
        · cases hr
      · cases hr
  · exact hold r (hsub.subset hr) fun _ delay reason ho => by cases hop.symm.trans ho
  · exact hold r (hsub.subset hr) fun _ delay reason ho => hop _ ho

/-- A record with a worker is no new one. -/
lemma mem_files_of_worksOn (h : LeftParked cfg s) {u : Task} (hu : u ∈ s.timed.system.tasks)
    (hworks : u.worksOn id = true)
    (hid : id ∈ (s.timed.system.perform cfg now (t.nextOp cfg)).1.manager.files) :
    id ∈ s.timed.system.manager.files := by
  rw [perform_fst] at hid
  rcases mem_files_perform hid with hold | ⟨hnew, -⟩
  · exact hold.1
  · obtain ⟨p, job, hp, hjob, hfile⟩ := worker_of_worksOn hworks
    have hknown := ((h.paths.sound u hu p hp).job job hjob).1
    rw [hfile] at hknown
    exact absurd hnew hknown.ne

/-- **The step lemma.**

**Proof sketch.** A record whose wait lasts after the step was stored before it, and is made to wait
by the step or has waited before. In both cases no task but the worker that is to schedule its retry
has it in hand, so no status is written to it that ends its wait, and no job of it is put into the
queue. -/
lemma leftParked_step {a : SystemAction} (h : LeftParked cfg s) (hok : LeftToRetry cfg s a)
    (hs : spaceRetryStep cfg s a = some s') : LeftParked cfg s' := by
  have htimed := timedStep_of_spaceRetryStep hs
  have hsystem := systemStep_of_timedStep htimed
  have htimers := timers_step h.timers htimed
  have hpaths := paths_step h.paths hsystem
  by_cases ha : ∀ i now env, a ≠ .run i now env
  · obtain ⟨hmanager, htasks, hjobs⟩ := systemStep_of_ne_run hsystem ha
    have hnow := now_of_ne_run hsystem ha
    have hwaits := spaceRetryStep_of_ne_run hs ha
    have hretries : s'.timed.system.retries = s.timed.system.retries := by
      rw [System.retries, System.retries, hmanager, htasks]
    refine ⟨htimers, hpaths, ?_, ?_, ?_, ?_, ?_, ?_, ?_⟩
    · rw [htasks]; exact h.regular
    · rw [hwaits, hmanager]; exact h.known
    · rw [RetryHonoured, hwaits, hmanager, hnow]; exact h.honoured
    · rw [hwaits, hmanager, htasks]; exact h.scheduling
    · rw [hwaits, hmanager, htasks, hnow]; exact h.spared
    · rw [hwaits, hmanager, hjobs, hnow]; exact h.unqueued
    · rw [hwaits, hretries, timedStep_of_ne_run htimed ha]; exact h.asleep
  push Not at ha
  obtain ⟨i, now, env, rfl⟩ := ha
  obtain ⟨t, t', ht, hnow, hgo, hs'⟩ := systemStep_run hsystem
  obtain ⟨hleft, hfinds⟩ := hok t ht
  have hregular := h.regular t (List.mem_of_getElem? ht)
  have hwaits := spaceRetryStep_run hs ht
  -- a record whose wait lasts after the step was stored before it
  have hbefore : ∀ id ∈ s'.timed.system.manager.files,
      (s'.waits id).lasts s'.timed.system.now = true → id ∈ s.timed.system.manager.files ∧
        (t.parks id = true ∨ (s.waits id).lasts now = true) := by
    intro id hid hlasts
    rw [hwaits] at hlasts
    rw [hs'] at hid hlasts
    dsimp only at hid hlasts
    rw [perform_fst] at hid
    rcases mem_files_perform hid with hold | ⟨hnew, -⟩
    · exact ⟨hold.1, parks_or_lasts h ht hlasts⟩
    · -- nobody has made a new record wait
      rcases waitsAfter_cases cfg s i now t id with hsame | ⟨hid, -⟩
      · have hnothing : s.waits id = .nothing := by
          by_contra hne
          exact (h.known id hne).ne hnew
        rw [hsame, hnothing] at hlasts
        cases hlasts
      · exact absurd hnew (s.timed.system.manager.repo.ne_nextId hid)
  refine ⟨htimers, hpaths, ?_, fun id hne => ?_, fun id hid hlasts => ?_, ?_,
    fun id hid hlasts => ?_, fun id hid hlasts => ?_, asleep_step h ht hleft htimed hwaits⟩
  · rw [hs']
    intro u hu
    rcases mem_tasks_step hu with rfl | rfl | hnew | ⟨j, -, hj⟩
    · exact regular_goOn hregular hfinds hgo
    · exact regular_of_job?_eq_none trivial rfl
    · exact regular_of_job?_eq_none (consistent_created hnew) (job?_created hnew)
    · exact h.regular u (List.mem_of_getElem? hj)
  · have hlt : id < s.timed.system.manager.repo.nextId := by
      rw [hwaits] at hne
      rcases waitsAfter_cases cfg s i now t id with hsame | ⟨hid, -⟩
      · exact h.known id (hsame ▸ hne)
      · exact s.timed.system.manager.repo.files_lt id hid
    rw [hs']
    dsimp only
    rw [perform_fst]
    exact hlt.trans_le nextId_le_perform
  · obtain ⟨hold, hparks⟩ := hbefore id hid hlasts
    rw [hs']
    exact keepsWaiting_perform h ht hnow hold hparks
  · intro k u hu id hid hschedules
    rw [hwaits]
    rw [hs'] at hu hid
    rcases getElem?_tasks_step hu with ⟨rfl, rfl⟩ | rfl | hnew | ⟨hk, hold⟩
    · have hhand := parks_or_schedules_goOn hgo hschedules
      have hworks : t.worksOn id = true := by
        rcases hhand with hparks | hbefore
        · obtain ⟨job, check, temporary, hpoint, -, hfile⟩ := parks_cases hparks
          exact worksOn_of_job? hpoint rfl hfile
        · exact worksOn_of_schedules hbefore
      exact scheduling_perform h ht (mem_files_of_worksOn h (List.mem_of_getElem? ht) hworks hid)
        hhand hgo hschedules
    · cases hschedules
    · have hworks := worksOn_of_schedules hschedules
      rw [Task.worksOn, job?_created hnew] at hworks
      cases hworks
    · have hid := mem_files_of_worksOn h (List.mem_of_getElem? hold)
        (worksOn_of_schedules hschedules) hid
      rw [waitsAfter_of_schedules h ht (hleft id hid) hid hk hold hschedules]
      exact h.scheduling k u hold id hid hschedules
  · obtain ⟨hold, hparks⟩ := hbefore id hid hlasts
    have hspared := spared_perform h ht hnow (hleft id hold) hfinds hold hparks hgo
    intro k u hu
    rw [hwaits]
    rw [hs'] at hu
    rcases getElem?_tasks_step hu with ⟨rfl, rfl⟩ | rfl | hnew | ⟨hk, hu⟩
    · exact hspared
    · exact .inl ⟨rfl, rfl, fun _ h => by cases h⟩
    · exact .inl (spares_created hold hnew)
    · exact spared_other h ht hnow (hleft id hold) hold hparks hk hu
  · obtain ⟨hold, hparks⟩ := hbefore id hid hlasts
    obtain ⟨hjobs, -, hhandles⟩ := unlisted_before h hnow (hleft id hold) hold hparks
    rw [hs']
    intro job hjob
    rcases List.mem_append.mp hjob with hleft | hput
    · exact hjobs job (mem_of_mem_jobsLeft hleft)
    · -- a job is put for a record that is `READY`
      rintro rfl
      obtain ⟨hpoint, -, -, hready, -⟩ :=
        put_goOn _ hregular.consistent hgo (Option.mem_toList.mp hput)
      exact hhandles ⟨hpoint, hready⟩

/-- At the start no record waits. -/
lemma leftParked_start (n : ℕ) : LeftParked cfg (.start n) where
  timers := timers_start n
  paths := paths_start n
  regular := (ownership_start n).regular
  known := fun _ hne => absurd rfl hne
  honoured := fun _ hid => absurd hid List.not_mem_nil
  scheduling := fun _ _ _ _ hid => absurd hid List.not_mem_nil
  spared := fun _ hid => absurd hid List.not_mem_nil
  unqueued := fun _ hid => absurd hid List.not_mem_nil
  asleep := fun _ _ => rfl

end Invariant

/-! ## Runs -/

section Runs

variable {cfg : Settings} {s : SpaceRetrySystem}
  {tr : List (SpaceRetrySystem × SystemAction)} {n : ℕ}

/-- **The delay of a space retry is honoured** in every state of the runs whose steps all meet the
condition.

**Proof sketch.** When a record is made to wait, no other task has it in hand; while its wait lasts,
no loop takes it onto its list. So only its retry is left, and that does not wake up early. -/
theorem retryHonoured_of_leftToRetry (hrun : Run (spaceRetryStep cfg) (.start n) tr s)
    (hok : Meets (LeftToRetry cfg) tr) : RetryHonoured s :=
  (hrun.invariant hok (leftParked_start n) fun _ _ _ h hok hs => leftParked_step h hok hs).honoured

/-- The check of a destination without any space. -/
def noSpaceLeft : SpaceCheckResult :=
  { hasSpace := false, availableBytes := 0, requiredBytes := 10, fileSizeBytes := 10,
    safetyMarginBytes := 0, reason := "Insufficient space" }

/-- A small file is queued, its space check fails, and its retry is scheduled. -/
def parkedFile : List SystemAction :=
  smallFile ++ scannerHandles ++ eventHandled ++
    .run 3 30000000 { spaceCheck := noSpaceLeft } :: List.replicate 5 (.run 3 30000000 {})

/-- The scanner goes on while the file waits. -/
def fileWaits : List SystemAction := parkedFile ++ [.run 0 40000000 {}]

/-- Its retry wakes up after five minutes. -/
def retryWakes : List SystemAction :=
  fileWaits ++ [.run 6 330000000 {}, .run 6 330000000 {}]

/-- The file waits while the scanner goes on, and is `READY` when its retry has woken up. -/
theorem retryHonoured_parkedFile :
    ∃ s₁ s₂,
      Run (spaceRetryStep {}) (.start 1) (traceOf (spaceRetryStep {}) (.start 1) fileWaits) s₁ ∧
      Run (spaceRetryStep {}) (.start 1) (traceOf (spaceRetryStep {}) (.start 1) retryWakes) s₂ ∧
      (0 ∈ s₁.timed.system.manager.files ∧ s₁.waits 0 = .due 330000000 ∧ RetryHonoured s₁) ∧
      (s₂.timed.system.manager.heap 0).status = .ready ∧ RetryHonoured s₂ := by
  obtain ⟨s₁, hrun₁, hs₁⟩ := exists_run_of_replay (spaceRetryStep {}) (.start 1) fileWaits
    (fun (s : SpaceRetrySystem) =>
      decide (0 ∈ s.timed.system.manager.files ∧ s.waits 0 = .due 330000000))
    (by decide +kernel)
  obtain ⟨s₂, hrun₂, hs₂⟩ := exists_run_of_replay (spaceRetryStep {}) (.start 1) retryWakes
    (fun (s : SpaceRetrySystem) => decide ((s.timed.system.manager.heap 0).status = .ready))
    (by decide +kernel)
  obtain ⟨hfile, hwaits⟩ := of_decide_eq_true hs₁
  exact ⟨s₁, s₂, hrun₁, hrun₂,
    ⟨hfile, hwaits, retryHonoured_of_leftToRetry hrun₁ (by decide +kernel)⟩,
    of_decide_eq_true hs₂, retryHonoured_of_leftToRetry hrun₂ (by decide +kernel)⟩

/-- The monitor lists the waiting file, its growth check finds the file stable, and it writes the
recommended status. -/
def monitorPass : List SystemAction :=
  [.run 1 30000000 {}, .run 1 30000000 {}, .run 1 30000000 { size := some 10 },
    .run 1 30000000 {}, .run 1 30000000 {}, .run 1 30000000 {}, .run 1 30000000 {}]

/-- **The monitor ends a wait**: five minutes before the time of its retry the file is `READY`. -/
theorem monitor_ends_wait :
    ∃ tr s, Run (spaceRetryStep {}) (.start 1) tr s ∧ s.timed.system.now = 30000000 ∧
      s.waits 0 = .due 330000000 ∧ (s.timed.system.manager.heap 0).status = .ready ∧
      ¬ RetryHonoured s := by
  obtain ⟨s, hrun, hs⟩ := exists_run_of_replay (spaceRetryStep {}) (.start 1)
    (parkedFile ++ monitorPass) (fun (s : SpaceRetrySystem) =>
      decide (s.timed.system.now = 30000000 ∧ s.waits 0 = .due 330000000 ∧
        (s.timed.system.manager.heap 0).status = .ready ∧ ¬ RetryHonoured s))
    (by decide +kernel)
  exact ⟨_, s, hrun, of_decide_eq_true hs⟩

end Runs

end FileAgent

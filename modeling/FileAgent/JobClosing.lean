import FileAgent.Library.Run
import FileAgent.Worker

set_option relaxedAutoImplicit false
set_option autoImplicit false

/-!
# How a job ends

One call of `process_job`, on the state manager. The world outside answers the space check, the
preparation, and the operations of `copy_file` as it likes. Other services may run between any two
steps, as long as they do not write the status of the job's record: they may add and change other
records, and drop this one.

## Main definitions

* `FileStatus.closesJob` — the statuses a job should end with.
* `JobRun`, `JobAction`, `jobStep` — the call.
* `ClosingOutcome` — the condition on the steps of `process_job`.

## Main results

* `jobClosed_iff` — the exact condition for a job to be closed.
* `failed_copy_leaves_job_open` — a job that is not.
-/

namespace FileAgent

open Transition StateManager

/-- The statuses that close a job. -/
def FileStatus.closesJob : FileStatus → Bool
  | .completed | .failed | .removed | .waitingForSpace | .waitingForNetwork | .spaceError => true
  | _ => false

/-- The outcomes of `copy_file` that `process_job` follows by a status. -/
def CopyOutcome.closesJob : CopyOutcome → Bool
  | .returned success => success
  | .raised e => e.kind = .fileNotFound || e.kind = .network

/-- A call of `process_job`: it has not begun (`none`), is suspended, or has returned
(`getNextJob`). -/
structure JobRun where
  manager : StateManager
  point : Option WorkerPoint := none
  /-- The event whose handler is awaited. -/
  echo : Option FileStatusChangedEvent := none

/-- The steps: the worker goes on, the handler of its event runs, or other services run. -/
inductive JobAction
  | work (now : ℕ) (destinationInfo : Option StorageInfo) (env : Env)
  | deliver (now : ℕ)
  | others (m : StateManager)

/-- What the worker reads. -/
def jobRunView (m : StateManager) (now : ℕ) (destinationInfo : Option StorageInfo) (env : Env) :
    View where
  heap := m.heap
  destinationInfo := destinationInfo
  queueCreated := true
  readySubscribed := true
  now := now
  env := env

/-- The worker reads the records of the StateManager. -/
@[simp] lemma heap_jobRunView (m : StateManager) (now : ℕ) (info : Option StorageInfo) (env : Env) :
    (jobRunView m now info env).heap = m.heap := rfl

/-- The worker reads the answers given. -/
@[simp] lemma env_jobRunView (m : StateManager) (now : ℕ) (info : Option StorageInfo) (env : Env) :
    (jobRunView m now info env).env = env := rfl

/-- One step of the call for `job`. -/
def jobStep (cfg : Settings) (job : QueueJob) (s : JobRun) : JobAction → Option JobRun
  | .work now info env =>
    match s.echo, s.point with
    | some _, _ => none
    | none, none =>
      some { s with point := some (.processJob cfg (jobRunView s.manager now info env) job) }
    | none, some .getNextJob => none
    | none, some p =>
      let (sec, answer) := s.manager.perform cfg now (p.op cfg)
      (p.after cfg (jobRunView sec.manager now info env) answer).map fun p' =>
        { manager := sec.manager, point := some p', echo := sec.published }
  | .deliver now =>
    s.echo.map fun e =>
      let sec := s.manager.handleFileStatusChanged now e
      { s with manager := sec.manager, echo := sec.published }
  | .others m =>
    if (m.heap job.file).status = (s.manager.heap job.file).status ∧
        (job.file ∈ m.files → job.file ∈ s.manager.files) then
      some { s with manager := m }
    else none

/-- `process_job` has returned. -/
def JobRun.returned (s : JobRun) : Bool :=
  match s.point with
  | some .getNextJob => s.echo.isNone
  | _ => false

/-- The outcome of `copy_file`, if it ends with a step of the worker. -/
def copyOutcome (cfg : Settings) (m : StateManager) (now : ℕ) (env : Env) :
    WorkerPoint → Option CopyOutcome
  | .copy job dest p =>
    let (sec, answer) :=
      m.perform cfg now (WorkerPoint.copyOp job.path (p.request cfg dest.toString))
    match (WorkerPoint.copyAnswer env (p.request cfg dest.toString) answer).bind
        (p.resume cfg sec.manager.heap) with
    | some (.done outcome) => some outcome
    | _ => none
  | _ => none

/-- The condition on a step of the worker: a job with enough space is prepared without an exception,
and if `copy_file` ends, it returns `True` or raises `FileNotFoundError` or `NetworkError`. -/
def ClosingWork (cfg : Settings) (m : StateManager) (now : ℕ) (env : Env) :
    Option WorkerPoint → Prop
  | none =>
    (cfg.enablePreCopySpaceCheck && !env.spaceCheck.hasSpace) = true ∨ env.prepared.toBool = true
  | some p => ∀ outcome ∈ copyOutcome cfg m now env p, outcome.closesJob = true

/-- The condition on a step. -/
def ClosingOutcome (cfg : Settings) (s : JobRun) : JobAction → Prop
  | .work now _ env => ClosingWork cfg s.manager now env s.point
  | _ => True

instance (cfg : Settings) (m : StateManager) (now : ℕ) (env : Env) :
    (p : Option WorkerPoint) → Decidable (ClosingWork cfg m now env p)
  | none => inferInstanceAs (Decidable (_ ∨ _))
  | some p =>
    inferInstanceAs (Decidable (∀ o ∈ copyOutcome cfg m now env p, o.closesJob = true))

instance (cfg : Settings) (s : JobRun) : (a : JobAction) → Decidable (ClosingOutcome cfg s a)
  | .work now _ env => inferInstanceAs (Decidable (ClosingWork cfg s.manager now env s.point))
  | .deliver _ => .isTrue trivial
  | .others _ => .isTrue trivial

/-! ## One step of the worker -/

section Steps

variable {cfg : Settings} {view : View} {job : QueueJob} {now : ℕ} {m : StateManager}

/-- What the status `st` of the record is at a point. -/
def WorkerPoint.Expects (st : FileStatus) : WorkerPoint → Prop
  | .getNextJob | .scheduleRetry .. => st.closesJob = true
  | .finalize .. => True
  | .handleFailure _ _ status _ => status.closesJob = true
  | .initializeCopyStatus _ initialStatus _ _ => initialStatus.closesJob = false
  | _ => st.closesJob = false

/-- All operations of a worker are targeted. -/
lemma isTargeted_copyOp (path : FilePath) (r : CopyRequest) :
    (WorkerPoint.copyOp path r).isTargeted = true := by cases r <;> rfl

@[inherit_doc isTargeted_copyOp]
lemma isTargeted_op (p : WorkerPoint) : (p.op cfg).isTargeted = true := by
  cases p <;> first | rfl | exact isTargeted_copyOp _ _

/-- The status of a classified copy error closes the job. -/
lemma closesJob_classifyCopyError (info : Option StorageInfo) (sourceExists : Bool) (e : PyError) :
    (classifyCopyError info sourceExists e).closesJob = true := by
  unfold classifyCopyError
  split_ifs <;> rfl

/-- A copy writes a closing status only when it is about to return `True`. -/
lemma closesJob_of_copyOp_writes {path : FilePath} {dest : String} {p : CopyPoint} {id : FileId}
    {st : FileStatus}
    (h : (WorkerPoint.copyOp path (p.request cfg dest)).writes id = some st) :
    st.closesJob = false ∨ ∃ file, p = .markCompleted file := by
  rcases WorkerPoint.copyOp_writes h with rfl | rfl | ⟨-, hp⟩
  · exact .inl rfl
  · exact .inl rfl
  · exact .inr hp

/-- What `process_job` makes of the end of `copy_file`. -/
lemma afterCopy_done (view : View) (job : QueueJob) (dest : DestPath) (outcome : CopyOutcome) :
    (outcome.closesJob = false ∧
        WorkerPoint.afterCopy view job dest (.done outcome) = .getNextJob) ∨
      outcome.closesJob = true ∧
        (WorkerPoint.afterCopy view job dest (.done outcome) = .finalize job dest ∨
          ∃ status reason, status.closesJob = true ∧
            WorkerPoint.afterCopy view job dest (.done outcome) =
              .handleFailure job dest status reason) := by
  cases outcome with
  | returned success => cases success <;> simp [WorkerPoint.afterCopy, CopyOutcome.closesJob]
  | raised e =>
    simp only [WorkerPoint.afterCopy, CopyOutcome.closesJob]
    by_cases h : e.kind = .fileNotFound ∨ e.kind = .network
    · rw [if_pos h]
      exact .inr ⟨by simpa using h, .inr ⟨_, _, closesJob_classifyCopyError _ _ e, rfl⟩⟩
    · rw [if_neg h]
      exact .inl ⟨by simpa using h, rfl⟩

/-- **The step lemma of `copy_file`**: it goes on with the record open, or it ends, and the job is
closed, or about to be, if and only if the outcome is a closing one.

**Proof sketch.** Of all writes of a copy only the last one closes the job, and the copy returns
`True` after it. If the copy goes on, the record is open and no outcome has been reached. If it
ends, `afterCopy_done` gives the point that follows: the finalisation or the failure, which write
a closing status, or, for `False`, the queue, with the record open. -/
lemma expects_copy {dest : DestPath} {q : CopyPoint} {p' : WorkerPoint} {st : FileStatus}
    {info : Option StorageInfo} {env : Env} (hst : st.closesJob = false)
    (h : (WorkerPoint.copy job dest q).after cfg
        (jobRunView (m.perform cfg now ((WorkerPoint.copy job dest q).op cfg)).1.manager now
          info env)
        (m.perform cfg now ((WorkerPoint.copy job dest q).op cfg)).2 = some p') :
    let st' := (((WorkerPoint.copy job dest q).op cfg).writes job.file).getD st
    let ok := ∀ outcome ∈ copyOutcome cfg m now env (.copy job dest q), outcome.closesJob = true
    p' = .getNextJob ∧ (st'.closesJob = true ↔ ok) ∨
      p'.job? = some job ∧ p'.Expects st' ∧ ok := by
  intro st' ok
  simp only [WorkerPoint.after, WorkerPoint.op, heap_jobRunView, env_jobRunView,
    Option.map_eq_some_iff] at h
  obtain ⟨q', hq', rfl⟩ := h
  have hopen : st'.closesJob = false ∨ ∃ file, q = .markCompleted file := by
    cases hw : ((WorkerPoint.copy job dest q).op cfg).writes job.file with
    | none =>
      left
      simp only [st', hw, Option.getD_none]
      exact hst
    | some w =>
      simp only [st', hw, Option.getD_some]
      exact closesJob_of_copyOp_writes hw
  have hok : ok ↔ ∀ outcome, q' = .done outcome → outcome.closesJob = true := by
    simp only [ok, copyOutcome, hq']
    cases q' <;> simp
  cases q' with
  | done outcome =>
    have hok' : ok ↔ outcome.closesJob = true := by simpa using hok
    rcases afterCopy_done (jobRunView _ now info env) job dest outcome with
      ⟨hout, hafter⟩ | ⟨hout, hafter | ⟨status, reason, hstatus, hafter⟩⟩
    · left
      refine ⟨hafter, ?_⟩
      rw [hok', hout]
      rcases hopen with hopen | ⟨file, rfl⟩
      · rw [hopen]
      · -- `markCompleted` ends with `True`
        simp [CopyPoint.request, WorkerPoint.copyOp, perform, WorkerPoint.copyAnswer,
          CopyPoint.resume] at hq'
        subst hq'
        cases hout
    · exact .inr ⟨by rw [hafter]; rfl, by rw [hafter]; trivial, hok'.mpr hout⟩
    · exact .inr ⟨by rw [hafter]; rfl, by rw [hafter]; exact hstatus, hok'.mpr hout⟩
  | _ =>
    right
    have hclosed : st'.closesJob = false := by
      rcases hopen with hopen | ⟨file, rfl⟩
      · exact hopen
      · simp [CopyPoint.request, WorkerPoint.copyOp, perform, WorkerPoint.copyAnswer,
          CopyPoint.resume] at hq'
    exact ⟨rfl, hclosed, hok.mpr (by simp)⟩

/-- **The step lemma**: the worker goes on with the status its next point expects, or it returns,
and then the job is closed if and only if the step meets the condition.

**Proof sketch.** By cases on the point. A copy is `expects_copy`. Each other point goes on with
the status that the next one expects, or it writes a closing status and returns. -/
lemma expects_work {p p' : WorkerPoint} {st : FileStatus} {info : Option StorageInfo} {env : Env}
    (hjob : p.job? = some job) (hst : p.Expects st)
    (h : p.after cfg (jobRunView (m.perform cfg now (p.op cfg)).1.manager now info env)
        (m.perform cfg now (p.op cfg)).2 = some p') :
    let st' := ((p.op cfg).writes job.file).getD st
    let ok := ∀ outcome ∈ copyOutcome cfg m now env p, outcome.closesJob = true
    p' = .getNextJob ∧ (st'.closesJob = true ↔ ok) ∨
      p'.job? = some job ∧ p'.Expects st' ∧ ok := by
  cases p with
  | getNextJob => cases hjob
  | copy job' dest q =>
    cases hjob
    exact expects_copy hst h
  | incrementRetryCount job' check =>
    cases hjob
    right
    simp only [WorkerPoint.op, perform, WorkerPoint.after] at h
    refine ⟨?_, ?_, by simp [copyOutcome]⟩
    · split at h
      · cases h; rfl
      · split at h <;> cases h <;> rfl
    · split at h
      · cases h; exact hst
      · split at h <;> cases h <;> exact hst
  | waitForSpace job' check temporary =>
    cases hjob; cases h
    exact .inr ⟨rfl, by simp [WorkerPoint.op, Op.writes, WorkerPoint.Expects, FileStatus.closesJob],
      by simp [copyOutcome]⟩
  | initializeCopyStatus job' initialStatus dest t =>
    cases hjob; cases h
    refine .inr ⟨rfl, ?_, by simp [copyOutcome]⟩
    simpa [WorkerPoint.op, Op.writes, WorkerPoint.Expects] using hst
  | scheduleRetry job' check temporary =>
    cases hjob; cases h
    exact .inl ⟨rfl, by
      simpa [WorkerPoint.op, Op.writes, copyOutcome, WorkerPoint.Expects] using hst⟩
  | handleFailure job' dest status reason =>
    cases hjob; cases h
    exact .inl ⟨rfl, by
      simpa [WorkerPoint.op, Op.writes, copyOutcome, WorkerPoint.Expects] using hst⟩
  | _ =>
    cases hjob; cases h
    exact .inl ⟨rfl, by simp [WorkerPoint.op, Op.writes, copyOutcome, FileStatus.closesJob]⟩

/-- **The first stretch of `process_job`**: it ends at once if the preparation raises. -/
lemma expects_processJob (cfg : Settings) (view : View) (job : QueueJob) {st : FileStatus}
    (hst : st.closesJob = false) :
    WorkerPoint.processJob cfg view job = .getNextJob ∧
        ¬ ((cfg.enablePreCopySpaceCheck && !view.env.spaceCheck.hasSpace) = true ∨
          view.env.prepared.toBool = true) ∨
      (WorkerPoint.processJob cfg view job).job? = some job ∧
        (WorkerPoint.processJob cfg view job).Expects st ∧
        ((cfg.enablePreCopySpaceCheck && !view.env.spaceCheck.hasSpace) = true ∨
          view.env.prepared.toBool = true) := by
  unfold WorkerPoint.processJob
  by_cases hspace : (cfg.enablePreCopySpaceCheck && !view.env.spaceCheck.hasSpace) = true
  · right
    simp only [hspace, if_true, true_or, and_true]
    split_ifs <;> exact ⟨rfl, hst⟩
  · simp only [hspace, Bool.false_eq_true, if_false, false_or]
    cases hprep : view.env.prepared with
    | error e => exact .inl ⟨rfl, by simp [Except.toBool]⟩
    | ok dest =>
      refine .inr ⟨rfl, ?_, rfl⟩
      simp only [WorkerPoint.Expects, determineInitialStatus]
      split_ifs <;> rfl

end Steps

/-! ## The whole call -/

section Runs

variable {cfg : Settings} {job : QueueJob} {s s' : JobRun} {m : StateManager}
  {tr : List (JobRun × JobAction)}

/-- The point of a call that has taken the steps `tr`, with `st` the status of the record: the job
is open, or it is closed if all steps met the condition. -/
def PointInv (cfg : Settings) (job : QueueJob) (tr : List (JobRun × JobAction)) (st : FileStatus) :
    Option WorkerPoint → Prop
  | none => st.closesJob = false ∧ Meets (ClosingOutcome cfg) tr
  | some p =>
    p = .getNextJob ∧ (st.closesJob = true ↔ Meets (ClosingOutcome cfg) tr) ∨
      p.job? = some job ∧ p.Expects st ∧ Meets (ClosingOutcome cfg) tr

/-- The invariant of a call. The record has the status `st` as long as it is stored, and an event of
the record that is being handled carries it. -/
def JobRunInv (cfg : Settings) (job : QueueJob) (tr : List (JobRun × JobAction)) (s : JobRun) :
    Prop :=
  ∃ st, (job.file ∈ s.manager.files → (s.manager.heap job.file).status = st) ∧
    (∀ e ∈ s.echo, e.fileId = job.file → e.newStatus = st) ∧ PointInv cfg job tr st s.point

/-- The steps of others and the handling of events are no concern of the condition. -/
lemma PointInv.snoc {st : FileStatus} {p : Option WorkerPoint} {a : JobAction}
    (h : PointInv cfg job tr st p) (ha : ClosingOutcome cfg s a) :
    PointInv cfg job (tr ++ [(s, a)]) st p := by
  cases p <;> simpa [PointInv, ha] using h

/-- **The step lemma of a call.**

**Proof sketch.** The invariant names the last status written. An echo writes a status that was
published, which is the last one; operations of others keep the status; a step of the worker is
`expects_processJob` at the start and `expects_work` later. -/
lemma jobRunInv_step {a : JobAction} (h : JobRunInv cfg job tr s)
    (hs : jobStep cfg job s a = some s') : JobRunInv cfg job (tr ++ [(s, a)]) s' := by
  obtain ⟨st, hstatus, hecho, hpoint⟩ := h
  cases a with
  | deliver now =>
    obtain ⟨e, he, rfl⟩ := Option.map_eq_some_iff.mp hs
    refine ⟨st, fun hid => ?_, fun e' he' hfile => ?_, hpoint.snoc trivial⟩
    · rw [files_updateFileStatusById] at hid
      rw [status_updateFileStatusById]
      split_ifs with hfile
      · exact hecho e he hfile.1.symm
      · exact hstatus hid
    · have hpub : (s.manager.perform cfg now (.call (.updateFileStatusById e.fileId e.newStatus
          []))).1.published = some e' := he'
      obtain ⟨-, hwrites⟩ := published_perform hpub
      simp only [Op.writes] at hwrites
      split_ifs at hwrites with hfile'
      rw [← Option.some.inj hwrites]
      exact hecho e he (hfile'.trans hfile)
  | others m =>
    simp only [jobStep] at hs
    split_ifs at hs with hm
    cases hs
    exact ⟨st, fun hid => hm.1.trans (hstatus (hm.2 hid)), hecho, hpoint.snoc trivial⟩
  | work now info env =>
    simp only [jobStep] at hs
    split at hs
    · cases hs
    · rename_i hnone hstart
      cases hs
      rw [hstart] at hpoint
      obtain ⟨hst, hmeets⟩ := hpoint
      refine ⟨st, hstatus, by simp [hnone], ?_⟩
      simp only [PointInv, meets_append, meets_singleton, hmeets, true_and, ClosingOutcome,
        ClosingWork, hstart]
      rcases expects_processJob cfg (jobRunView s.manager now info env) job hst with
        ⟨hret, hok⟩ | hgo
      · exact .inl ⟨hret, by simp only [hst, Bool.false_eq_true, false_iff]; exact hok⟩
      · exact .inr hgo
    · cases hs
    · rename_i p hne hnone hp
      obtain ⟨p', hafter, rfl⟩ := Option.map_eq_some_iff.mp hs
      rw [hp] at hpoint
      obtain ⟨hret, -⟩ | ⟨hjob, hexp, hmeets⟩ := hpoint
      · exact absurd hret hne
      have htarget : (p.op cfg).isTargeted = true := isTargeted_op p
      refine ⟨((p.op cfg).writes job.file).getD st, fun hid => ?_, fun e he hfile => ?_, ?_⟩
      · rw [files_perform htarget] at hid
        rw [status_perform htarget hid, hstatus hid]
      · rw [← hfile, (published_perform he).2, Option.getD_some]
      · simp only [PointInv, meets_append, meets_singleton, hmeets, true_and, ClosingOutcome,
          ClosingWork, hp]
        exact expects_work hjob hexp hafter

/-- A call that has returned is back at the queue. -/
lemma point_of_returned (h : s.returned = true) : s.point = some .getNextJob := by
  unfold JobRun.returned at h
  split at h
  · assumption
  · cases h

/-- The invariant of the call holds after every run. -/
lemma jobRunInv_of_run (hrun : Run (jobStep cfg job) { manager := m } tr s)
    (hopen : (m.heap job.file).status.closesJob = false) : JobRunInv cfg job tr s := by
  induction hrun with
  | start => exact ⟨_, fun _ => rfl, by simp, hopen, meets_nil⟩
  | snoc _ hs ih => exact jobRunInv_step ih hs

/-- **When a job is closed.** When `process_job` returns and its record, which was open, is still
stored, the record has one of the closing statuses if and only if the preparation of the job did not
raise (or space was short before), and `copy_file`, if it was called, returned `True` or raised
`FileNotFoundError` or `NetworkError`.

**Proof sketch.** Induction on the run, with the invariant `JobRunInv`. At each point the record is
open or is about to be closed (`expects_work`), and the only steps that return to the queue from an
open record are those that break the condition. -/
theorem jobClosed_iff (hrun : Run (jobStep cfg job) { manager := m } tr s)
    (hopen : (m.heap job.file).status.closesJob = false) (hreturned : s.returned = true)
    (hstored : job.file ∈ s.manager.files) :
    (s.manager.heap job.file).status.closesJob = true ↔ Meets (ClosingOutcome cfg) tr := by
  obtain ⟨st, hstatus, -, hpoint⟩ := jobRunInv_of_run hrun hopen
  rw [point_of_returned hreturned] at hpoint
  rw [hstatus hstored]
  obtain ⟨-, hiff⟩ | ⟨hjob, -⟩ := hpoint
  · exact hiff
  · cases hjob

/-- A state manager with the queued record of one job. -/
def queuedManager : StateManager :=
  let m : StateManager := { repo := .empty }
  ((m.addFile 0 "/src/a.mxf" 1 none).2.manager.updateFileStatusById 0 0 .inQueue []).manager

/-- The worker goes on with an answer to an operation of `copy_file`. -/
def answerCopy (a : CopyAnswer) : JobAction := .work 0 none { copyAnswer := a }

/-- The job is prepared and gets its first status. -/
def beginJob : List JobAction := [answerCopy .done, answerCopy .done, .deliver 0]

/-- A copy of a file of one byte. -/
def copyOneByte : List JobAction :=
  [answerCopy (.size 1), answerCopy .done, answerCopy .done, answerCopy .done, answerCopy .done,
    answerCopy (.size 1), answerCopy .done, answerCopy (.data [0]), answerCopy .done,
    answerCopy (.connected 0), answerCopy .done, answerCopy .done, answerCopy (.size 1),
    answerCopy (.size 1), answerCopy .done, answerCopy .done, .deliver 0]

/-- A copy that succeeds closes its job as `COMPLETED`. -/
theorem jobClosed_copyOneByte :
    ∃ s, Run (jobStep {} ⟨0, "/src/a.mxf"⟩) { manager := queuedManager }
        (traceOf (jobStep {} ⟨0, "/src/a.mxf"⟩) { manager := queuedManager }
          (beginJob ++ copyOneByte ++ [answerCopy .done])) s ∧
      (s.manager.heap 0).status = .completed ∧ (s.manager.heap 0).status.closesJob = true := by
  obtain ⟨s, hrun, hs⟩ := exists_run_of_replay (jobStep {} ⟨0, "/src/a.mxf"⟩)
    ({ manager := queuedManager }) (beginJob ++ copyOneByte ++ [answerCopy .done])
    (fun s => s.returned && decide (0 ∈ s.manager.files) &&
      decide ((s.manager.heap 0).status = .completed)) (by decide +kernel)
  simp only [Bool.and_eq_true, decide_eq_true_eq] at hs
  exact ⟨s, hrun, hs.2, (jobClosed_iff hrun rfl hs.1.1 hs.1.2).mpr (by decide +kernel)⟩

/-- **A failed copy leaves its job open**: the first size check of `copy_file` takes too long, the
copy returns `False`, and the record stays in `COPYING`. -/
theorem failed_copy_leaves_job_open :
    ∃ tr s, Run (jobStep {} ⟨0, "/src/a.mxf"⟩) { manager := queuedManager } tr s ∧
      s.returned = true ∧ 0 ∈ s.manager.files ∧ (s.manager.heap 0).status = .copying := by
  obtain ⟨s, hrun, hs⟩ := exists_run_of_replay (jobStep {} ⟨0, "/src/a.mxf"⟩)
    ({ manager := queuedManager }) (beginJob ++ [answerCopy .timeout])
    (fun s => s.returned && decide (0 ∈ s.manager.files) &&
      decide ((s.manager.heap 0).status = .copying)) (by decide +kernel)
  simp only [Bool.and_eq_true, decide_eq_true_eq] at hs
  exact ⟨_, s, hrun, hs.1.1, hs.1.2, hs.2⟩

end Runs

end FileAgent

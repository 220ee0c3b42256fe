import FileAgent.SpaceChecker
import FileAgent.System

set_option relaxedAutoImplicit false
set_option autoImplicit false

/-!
# The jobs admitted on one reading

The workers check the space for their jobs against the last reading of the destination. A check sets
nothing aside for the jobs that were admitted on the same reading.

## Main definitions

* `Admission`, `admissionStep` — the system until the next reading, with the sizes of the jobs
  admitted to copying.
* `Admission.Fits`, `Admission.NoOvercommit` — the jobs fit.
* `FitsBeside` — the condition on the steps that take a job.

## Main results

* `admittedSize_admissionStep` — which jobs a step admits.
* `noOvercommit_iff` — the exact condition for the admitted jobs to fit.
* `two_admitted_jobs_overcommit` — two jobs that fit one by one.
-/

namespace FileAgent

open Transition StateManager

/-- The system from one reading of the destination to the next. -/
structure Admission where
  system : System
  /-- The sizes of the jobs admitted so far. -/
  admitted : List ℕ := []

namespace Admission

/-- The job that the task `i` takes if it is a worker waiting for one. -/
def nextJob (s : Admission) (i : ℕ) : Option QueueJob :=
  match s.system.tasks[i]?.map Task.point with
  | some (.worker .getNextJob) => s.system.jobs.head?
  | _ => none

/-- The `file_size` of the record of a job. -/
def jobSize (s : Admission) (job : QueueJob) : ℕ := (s.system.manager.heap job.file).fileSize

/-- A worker that takes a job checks its space against the reading. -/
def withCheck (cfg : Settings) (info : DestinationInfo) (s : Admission) :
    SystemAction → SystemAction
  | .run i now env =>
    .run i now { env with
      spaceCheck := checkSpaceForFile cfg (some info) (((s.nextJob i).map s.jobSize).getD 0) }
  | a => a

/-- The step takes a new reading of the destination. -/
def refreshes (s : Admission) : SystemAction → Bool
  | .run i _ _ =>
    match s.system.tasks[i]?.map Task.point with
    | some (.storage .check) => true
    | _ => false
  | _ => false

/-- The size of the job that has been admitted to copying by a step from `s` to `t`: a worker that
was waiting for a job is about to write its first status. -/
def admittedSize (s : Admission) (t : System) : SystemAction → Option ℕ
  | .run i _ _ =>
    match s.system.tasks[i]?.map Task.point, t.tasks[i]?.map Task.point with
    | some (.worker .getNextJob), some (.worker (.initializeCopyStatus job ..)) =>
      some (s.jobSize job)
    | _, _ => none
  | _ => none

/-- The jobs admitted fit into the reading, with both margins. -/
def Fits (cfg : Settings) (info : DestinationInfo) (s : Admission) : Prop :=
  s.admitted.sum + cfg.safetyMarginBytes + cfg.minimumAfterCopyBytes ≤ info.availableBytes

/-- The jobs admitted fit, if there are any. -/
def NoOvercommit (cfg : Settings) (info : DestinationInfo) (s : Admission) : Prop :=
  s.admitted = [] ∨ s.Fits cfg info

end Admission

/-- One step on the reading `info`. -/
def admissionStep (cfg : Settings) (info : DestinationInfo) (s : Admission) (a : SystemAction) :
    Option Admission :=
  if s.refreshes a then none
  else
    (systemStep cfg s.system (s.withCheck cfg info a)).map fun t =>
      { system := t, admitted := s.admitted ++ (s.admittedSize t a).toList }

/-- The condition on a step: if a job is taken and prepared that fits into the reading on its own,
it also fits beside the jobs that were admitted before. -/
def FitsBeside (cfg : Settings) (info : DestinationInfo) (s : Admission) : SystemAction → Prop
  | .run i _ env => ∀ job ∈ s.nextJob i, env.prepared.toBool = true → info.isAccessible = true →
    s.jobSize job + cfg.safetyMarginBytes + cfg.minimumAfterCopyBytes ≤ info.availableBytes →
    s.admitted.sum + s.jobSize job + cfg.safetyMarginBytes + cfg.minimumAfterCopyBytes ≤
      info.availableBytes
  | _ => True

instance (cfg : Settings) (info : DestinationInfo) (s : Admission) :
    (a : SystemAction) → Decidable (FitsBeside cfg info s a)
  | .run i _ env =>
    inferInstanceAs (Decidable (∀ job ∈ s.nextJob i, env.prepared.toBool = true → _))
  | .createQueue | .subscribe => inferInstanceAs (Decidable True)

/-! ## What a step admits -/

section Steps

variable {cfg : Settings} {info : DestinationInfo} {s s' : Admission} {a : SystemAction}

/-- A worker is not cancelled. -/
lemma getElem?_worker_step {sys : System} {i : ℕ} {t' : Task} {p : WorkerPoint}
    {cancelled : List ℕ} {new : List Task} (hi : i < sys.tasks.length)
    (hp : t'.point = .worker p) :
    ((sys.tasks.set i t').map (Task.cancel cancelled) ++ new)[i]? = some t' := by
  rw [List.getElem?_append_left (by simpa using hi), List.getElem?_map,
    List.getElem?_set_self hi, Option.map_some]
  rcases cancel_eq cancelled t' with hc | ⟨⟨_, _, _, hretry⟩, -⟩
  · rw [hc]
  · rw [hp] at hretry
    cases hretry

/-- The first stretch of a job that is checked: it is admitted exactly if the file fits and its
preparation does not raise. -/
lemma processJob_admits (henabled : cfg.enablePreCopySpaceCheck = true) (view : View)
    (job : QueueJob) :
    (view.env.prepared.toBool = true ∧ view.env.spaceCheck.hasSpace = true ∧
        ∃ st dest t, WorkerPoint.processJob cfg view job = .initializeCopyStatus job st dest t) ∨
      ¬ (view.env.prepared.toBool = true ∧ view.env.spaceCheck.hasSpace = true) ∧
        ∀ job' st dest t,
          WorkerPoint.processJob cfg view job ≠ .initializeCopyStatus job' st dest t := by
  unfold WorkerPoint.processJob
  by_cases hspace : view.env.spaceCheck.hasSpace = true
  · simp only [henabled, hspace, Bool.not_true, Bool.and_false, Bool.false_eq_true, if_false,
      true_and, and_true]
    cases view.env.prepared with
    | ok dest => exact .inl ⟨rfl, _, _, _, rfl⟩
    | error e => exact .inr ⟨by simp [Except.toBool], fun _ _ _ _ h => by cases h⟩
  · refine .inr ⟨fun h => hspace h.2, fun job' st dest t h => ?_⟩
    rw [if_pos (by simp [henabled, hspace])] at h
    split_ifs at h

/-- **A worker asks for a job**: it gets the first of the queue, if there is one.

**Proof sketch.** The task awaits its own operation, so the step takes the first job, if there is
one, and the code goes on with `process_job`. -/
lemma point_getNextJob {sys t : System} {i now : ℕ} {env : Env} {u : Task}
    (hu : sys.tasks[i]? = some u) (hpoint : u.point = .worker .getNextJob)
    (hconsistent : u.Consistent cfg) (hs : systemStep cfg sys (.run i now env) = some t) :
    t.tasks[i]?.map Task.point = some (.worker (match sys.jobs.head? with
      | some job => .processJob cfg (sys.view { manager := sys.manager } now env) job
      | none => .getNextJob)) := by
  obtain ⟨v, u', hv, -, hgo, rfl⟩ := systemStep_run hs
  obtain rfl : u = v := Option.some.inj (hu.symm.trans hv)
  have hphase : u.phase = .awaiting := awaiting_of_consistent hconsistent
    (by simp [hpoint, TaskPoint.op, WorkerPoint.op])
    (by simp [hpoint, TaskPoint.op, WorkerPoint.op])
  have hop : u.nextOp cfg = .getNextJob := by
    simp only [Task.nextOp, hphase, hpoint, TaskPoint.op, WorkerPoint.op]
  simp only [hop, Task.goOn, hphase, System.perform, hpoint] at hgo
  obtain ⟨p', hafter, rfl⟩ := Option.map_eq_some_iff.mp hgo
  obtain ⟨q, hq, rfl⟩ := Option.map_eq_some_iff.mp hafter
  rw [getElem?_worker_step (List.getElem?_eq_some_iff.mp hu).1 (p := q) rfl, Option.map_some]
  refine congrArg (fun q => some (TaskPoint.worker q)) ?_
  cases hhead : sys.jobs.head? with
  | none =>
    rw [hhead] at hq
    exact (Option.some.inj hq).symm
  | some job =>
    rw [hhead] at hq
    exact (Option.some.inj hq).symm

/-- **Which jobs a step admits**: the worker has taken a job, which fits into the reading on its
own, and its preparation has not raised.

**Proof sketch.** A job is admitted only by a worker that asks for one. It gets the first of the
queue (`point_getNextJob`), and `process_job` comes to the copy exactly if the preparation
succeeds and the check says that there is space (`processJob_admits`). -/
lemma admittedSize_admissionStep {i now : ℕ} {env : Env} {t : System} {n : ℕ}
    (henabled : cfg.enablePreCopySpaceCheck = true)
    (hconsistent : ∀ u ∈ s.system.tasks, u.Consistent cfg)
    (hs : systemStep cfg s.system (s.withCheck cfg info (.run i now env)) = some t) :
    s.admittedSize t (.run i now env) = some n ↔
      ∃ job ∈ s.nextJob i, env.prepared.toBool = true ∧
        (checkSpaceForFile cfg (some info) (s.jobSize job)).hasSpace = true ∧
        s.jobSize job = n := by
  obtain ⟨u, -, hu, -⟩ := systemStep_run hs
  by_cases hpoint : u.point = .worker .getNextJob
  · have hnext : s.nextJob i = s.system.jobs.head? := by
      simp only [Admission.nextJob, hu, Option.map_some, hpoint]
    have hafter := point_getNextJob hu hpoint (hconsistent u (List.mem_of_getElem? hu)) hs
    simp only [Admission.admittedSize, hu, Option.map_some, hpoint, hafter, hnext]
    cases hhead : s.system.jobs.head? with
    | none => simp
    | some job =>
      simp only [Option.map_some, Option.getD_some, Option.mem_some_iff, exists_eq_left']
      rcases processJob_admits henabled (s.system.view { manager := s.system.manager } now
          { env with spaceCheck := checkSpaceForFile cfg (some info) (s.jobSize job) }) job with
        ⟨hprepared, hspace, st, dest, time, hjob⟩ | ⟨hnot, hother⟩
      · rw [hjob]
        exact ⟨fun h => ⟨hprepared, hspace, Option.some.inj h⟩, fun h => congrArg some h.2.2⟩
      · constructor
        · intro hsome
          split at hsome
          · exact absurd (TaskPoint.worker.inj (Option.some.inj ‹_›)) (hother _ _ _ _)
          · cases hsome
        · rintro ⟨hprepared, hspace, -⟩
          exact absurd ⟨hprepared, hspace⟩ hnot
  · have hnone : s.nextJob i = none := by
      simp only [Admission.nextJob, hu, Option.map_some]
      split
      · exact absurd (Option.some.inj ‹_›) hpoint
      · rfl
    simp only [hnone, Admission.admittedSize, hu, Option.map_some]
    split
    · exact absurd (Option.some.inj ‹_›) hpoint
    · simp

/-- **The step lemma**: the jobs stay as they are, or the one that the step admits is added.

**Proof sketch.** A step that admits no job leaves the jobs; the condition is about an admission,
so it holds of the step. A step that admits one adds its size, and the condition on the step is
then that all of them fit. -/
lemma admissionStep_cases (henabled : cfg.enablePreCopySpaceCheck = true)
    (hconsistent : ∀ u ∈ s.system.tasks, u.Consistent cfg)
    (hs : admissionStep cfg info s a = some s') :
    (∀ u ∈ s'.system.tasks, u.Consistent cfg) ∧
      (s'.admitted = s.admitted ∧ FitsBeside cfg info s a ∨
        ∃ n, s'.admitted = s.admitted ++ [n] ∧
          (FitsBeside cfg info s a ↔ s'.Fits cfg info)) := by
  unfold admissionStep at hs
  split_ifs at hs
  obtain ⟨t, ht, rfl⟩ := Option.map_eq_some_iff.mp hs
  refine ⟨consistent_step hconsistent ht, ?_⟩
  cases a with
  | createQueue | subscribe => exact .inl ⟨by simp [Admission.admittedSize], trivial⟩
  | run i now env =>
    have hadmits := fun n => admittedSize_admissionStep (n := n) henabled hconsistent ht
    simp only [hasSpace_checkSpaceForFile] at hadmits
    cases hsize : s.admittedSize t (.run i now env) with
    | none =>
      refine .inl ⟨by simp, fun job hjob hprepared hacc hfits => ?_⟩
      have := (hadmits (s.jobSize job)).mpr ⟨job, hjob, hprepared, ⟨hacc, hfits⟩, rfl⟩
      rw [hsize] at this
      cases this
    | some n =>
      obtain ⟨job, hjob, hprepared, ⟨hacc, hfits⟩, rfl⟩ := (hadmits n).mp hsize
      refine .inr ⟨_, rfl, ?_⟩
      simp only [Admission.Fits, Option.toList_some, List.sum_append, List.sum_singleton,
        Nat.cast_add]
      constructor
      · exact fun h => h job hjob hprepared hacc hfits
      · intro h job' hjob' _ _ _
        obtain rfl : job' = job := Option.some.inj (hjob'.symm.trans hjob)
        exact h

end Steps

/-! ## Every interleaving -/

/-- All tasks of a reachable state are consistent. -/
lemma consistent_of_run {cfg : Settings} {n : ℕ} {tr : List (System × SystemAction)} {sys : System}
    (hrun : Run (systemStep cfg) (.start n) tr sys) : ∀ t ∈ sys.tasks, t.Consistent cfg := by
  induction hrun with
  | start =>
    intro t ht
    simp only [System.start, List.cons_append, List.nil_append, List.mem_cons,
      List.mem_replicate] at ht
    rcases ht with rfl | rfl | rfl | ⟨-, rfl⟩ <;> trivial
  | snoc _ hs ih => exact consistent_step ih hs

/-- **When the admitted jobs fit.** Let a run of the system lead to the state in which the reading
is taken, and let the workers and all other tasks go on in any order until the next one. The
admitted jobs fit into the reading with both margins, from the first one on, if and only if every
job that is taken and fits on its own also fits beside the jobs admitted before it. They fit in
every state, also before the first one, if and only if besides the margins fit by themselves.

**Proof sketch.** A step that takes a job admits it exactly if it fits on its own
(`admittedSize_admissionStep`), so an admission breaks the bound exactly if the job does not fit
beside the others. -/
theorem noOvercommit_iff {cfg : Settings} {info : DestinationInfo} {n : ℕ} {sys : System}
    {tr₀ : List (System × SystemAction)} {tr : List (Admission × SystemAction)} {s : Admission}
    (henabled : cfg.enablePreCopySpaceCheck = true)
    (hstart : Run (systemStep cfg) (.start n) tr₀ sys)
    (hrun : Run (admissionStep cfg info) { system := sys } tr s) :
    ((∀ p ∈ tr, p.1.NoOvercommit cfg info) ∧ s.NoOvercommit cfg info ↔
        Meets (FitsBeside cfg info) tr) ∧
      ((∀ p ∈ tr, p.1.Fits cfg info) ∧ s.Fits cfg info ↔
        cfg.safetyMarginBytes + cfg.minimumAfterCopyBytes ≤ info.availableBytes ∧
          Meets (FitsBeside cfg info) tr) := by
  have hiff : (∀ p ∈ tr, p.1.NoOvercommit cfg info) ∧ s.NoOvercommit cfg info ↔
      Meets (FitsBeside cfg info) tr := by
    refine hrun.forall_states_iff_of
      (P := fun s => (∀ u ∈ s.system.tasks, u.Consistent cfg) ∧ s.NoOvercommit cfg info)
      ⟨consistent_of_run hstart, .inl rfl⟩ (fun _ h => h.2) ?_ ?_
    · rintro s a s' ⟨hconsistent, hfits⟩ hok hs
      obtain ⟨hconsistent', ⟨hsame, -⟩ | ⟨k, -, hiff⟩⟩ :=
        admissionStep_cases henabled hconsistent hs
      · refine ⟨hconsistent', ?_⟩
        unfold Admission.NoOvercommit Admission.Fits
        rw [hsame]
        exact hfits
      · exact ⟨hconsistent', .inr (hiff.mp hok)⟩
    · rintro s a s' ⟨hconsistent, -⟩ hnot hs hfits
      obtain ⟨-, ⟨-, hok⟩ | ⟨k, hk, hiff⟩⟩ := admissionStep_cases henabled hconsistent hs
      · exact hnot hok
      · rcases hfits with hnil | hfits
        · rw [hk] at hnil
          exact absurd hnil (by simp)
        · exact hnot (hiff.mpr hfits)
  refine ⟨hiff, ?_⟩
  rw [← hiff]
  constructor
  · rintro ⟨hall, hlast⟩
    refine ⟨?_, fun p hp => .inr (hall p hp), .inr hlast⟩
    have hsum : (0 : ℤ) ≤ s.admitted.sum := Int.natCast_nonneg _
    unfold Admission.Fits at hlast
    omega
  · rintro ⟨hmargins, hall, hlast⟩
    have hfits : ∀ t : Admission, t.NoOvercommit cfg info → t.Fits cfg info := by
      rintro t (hnil | ht)
      · unfold Admission.Fits
        rw [hnil]
        simpa using hmargins
      · exact ht
    exact ⟨fun p hp => hfits _ (hall p hp), hfits _ hlast⟩

/-- A destination with 10 GB of free space. -/
def tenGigabytes : DestinationInfo where
  path := "/dst"
  isAccessible := true
  hasWriteAccess := true
  freeSpaceGb := 10
  totalSpaceGb := 100
  usedSpaceGb := 90
  status := .ok
  warningThresholdGb := 5
  criticalThresholdGb := 3
  lastChecked := 0
  freeSpaceGb_nonneg := by decide +kernel

/-- Two files of a size. -/
def twoFilesEnv (size : ℕ) : Env where
  paths := ["/src/a.mxf", "/src/b.mxf"]
  metadata := some (size, none)
  size := some size
  newInfo := tenGigabytes.toStorageInfo

/-- Two scans, half a minute apart, find the files and put their jobs into the queue. -/
def queueTwoFiles (size : ℕ) : List SystemAction :=
  [.createQueue, .subscribe, .run 2 0 (twoFilesEnv size)] ++
    List.replicate 35 (.run 0 0 (twoFilesEnv size)) ++
    List.replicate 40 (.run 0 30000000 (twoFilesEnv size))

/-- Two workers take one job each. -/
def takeTwoJobs : List SystemAction := [.run 3 30000000 {}, .run 4 30000000 {}]

/-- Two jobs of 3 GB are admitted, and fit together. -/
theorem noOvercommit_twoJobs :
    ∃ tr₀ sys tr s, Run (systemStep {}) (.start 2) tr₀ sys ∧
      sys.destinationInfo = some tenGigabytes.toStorageInfo ∧
      Run (admissionStep {} tenGigabytes) { system := sys } tr s ∧
      s.admitted = [3 * 1024 ^ 3, 3 * 1024 ^ 3] ∧ s.Fits {} tenGigabytes := by
  obtain ⟨sys, hstart, hsys⟩ := exists_run_of_replay (systemStep {}) (.start 2)
    (queueTwoFiles (3 * 1024 ^ 3))
    (fun sys : System =>
      decide (sys.destinationInfo = some tenGigabytes.toStorageInfo ∧
        Meets (FitsBeside {} tenGigabytes)
          (traceOf (admissionStep {} tenGigabytes) { system := sys } takeTwoJobs)) &&
      (replay (admissionStep {} tenGigabytes) { system := sys } takeTwoJobs).any
        fun s => s.admitted = [3 * 1024 ^ 3, 3 * 1024 ^ 3]) (by decide +kernel)
  obtain ⟨hmeets, hreplay⟩ := Bool.and_eq_true_iff.mp hsys
  obtain ⟨hinfo, hok⟩ := of_decide_eq_true hmeets
  obtain ⟨s, hrun, hs⟩ := exists_run_of_replay _ _ _ _ hreplay
  have hboth := (noOvercommit_iff (by decide) hstart hrun).2.mpr ⟨by decide +kernel, hok⟩
  exact ⟨_, sys, _, s, hstart, hinfo, hrun, of_decide_eq_true hs, hboth.2⟩

/-- **Two jobs that fit one by one do not fit together**: two workers check jobs of 4 GB against the
same reading of 10 GB, with margins of 3 GB, and both are admitted. -/
theorem two_admitted_jobs_overcommit :
    ∃ tr₀ sys tr s, Run (systemStep {}) (.start 2) tr₀ sys ∧
      sys.destinationInfo = some tenGigabytes.toStorageInfo ∧
      Run (admissionStep {} tenGigabytes) { system := sys } tr s ∧
      s.admitted = [4 * 1024 ^ 3, 4 * 1024 ^ 3] ∧ ¬ s.Fits {} tenGigabytes := by
  obtain ⟨sys, hstart, hsys⟩ := exists_run_of_replay (systemStep {}) (.start 2)
    (queueTwoFiles (4 * 1024 ^ 3))
    (fun sys : System => decide (sys.destinationInfo = some tenGigabytes.toStorageInfo) &&
      (replay (admissionStep {} tenGigabytes) { system := sys } takeTwoJobs).any
        fun s => s.admitted = [4 * 1024 ^ 3, 4 * 1024 ^ 3]) (by decide +kernel)
  rw [Bool.and_eq_true, decide_eq_true_eq] at hsys
  obtain ⟨hinfo, hreplay⟩ := hsys
  obtain ⟨s, hrun, hs⟩ := exists_run_of_replay _ _ _ _ hreplay
  rw [decide_eq_true_eq] at hs
  refine ⟨_, sys, _, s, hstart, hinfo, hrun, hs, ?_⟩
  unfold Admission.Fits
  rw [hs]
  decide +kernel

end FileAgent

import FileAgent.Library.OneEntry
import FileAgent.Library.PastTime
import FileAgent.StatusProvenance

set_option relaxedAutoImplicit false
set_option autoImplicit false

/-!
# The jobs of a run

`handle_file_ready` puts jobs into the queue, the workers take them, and `process_job` returns. Any
number of handlers and workers run, and a worker may lose its job at any point of `process_job`, by
an exception that is caught or by one that is not expected. No job is lost or doubled for that.

## Main definitions

* `putsAt`, `takesAt`, `endsAt` — the jobs that a step puts, takes and ends.
* `System.inHand` — the jobs that workers have.
* `FindsReady` — a step in which a handler puts a job.

## Main results

* `jobs_in_order` — jobs are taken in the order in which they were put, and each ends once.
* `job_found_ready` — a job was put when its record was `READY`.
-/

namespace FileAgent

open Transition StateManager

/-! ## What a step does with jobs -/

/-- The task that runs, and what it goes on as. -/
def ranAt (cfg : Settings) (p : System × SystemAction) : Option (Task × Task) :=
  match p.2 with
  | .run i now env =>
    p.1.tasks[i]?.bind fun t =>
      let (sec, answer) := p.1.perform cfg now (t.nextOp cfg)
      (t.goOn cfg (p.1.view sec now env) sec.published answer).map fun t' => (t, t')
  | _ => none

/-- The job that a handler puts into the queue. -/
def putsAt (cfg : Settings) (p : System × SystemAction) : List QueueJob :=
  match p.2, ranAt cfg p with
  | .run _ now env, some (t, t') =>
    (t.point.put (p.1.view (p.1.perform cfg now (t.nextOp cfg)).1 now env) t'.point).toList
  | _, _ => []

/-- The job that an operation takes from the queue. -/
def System.taken (jobs : List QueueJob) : Op → List QueueJob
  | .getNextJob => jobs.head?.toList
  | _ => []

/-- The job that a worker takes from the queue. -/
def takesAt (cfg : Settings) (p : System × SystemAction) : List QueueJob :=
  match ranAt cfg p with
  | some (t, _) => System.taken p.1.jobs (t.nextOp cfg)
  | none => []

/-- The job of a call of `process_job` that returns, or raises: the worker had it or takes it now,
and goes on without. -/
def endsAt (cfg : Settings) (p : System × SystemAction) : List QueueJob :=
  match ranAt cfg p with
  | some (t, t') =>
    if t'.point.job? = none then
      t.point.job?.toList ++ System.taken p.1.jobs (t.nextOp cfg)
    else []
  | none => []

/-- The jobs that workers have. -/
def System.inHand (s : System) : List QueueJob := s.tasks.filterMap fun t => t.point.job?

/-- The task is a worker. -/
def Task.isWorker (t : Task) : Bool :=
  match t.point with
  | .worker _ => true
  | _ => false

/-- The step is one in which a handler finds the record of the job stored and `READY`, and puts the
job with the path of the record. -/
def FindsReady (cfg : Settings) (job : QueueJob) (p : System × SystemAction) : Prop :=
  job ∈ putsAt cfg p ∧ job.file ∈ p.1.manager.files ∧
    (p.1.manager.heap job.file).status = .ready ∧
    job.path = (p.1.manager.heap job.file).filePath

section Steps

variable {cfg : Settings} {s s' : System} {i now : ℕ} {env : Env} {a : SystemAction}
  {job : QueueJob}

/-- A step of a task, and the others, as the history of the jobs sees them. -/
lemma ranAt_of_ne_run (ha : ∀ i now env, a ≠ .run i now env) : ranAt cfg (s, a) = none := by
  cases a with
  | run i now env => exact absurd rfl (ha i now env)
  | _ => rfl

/-- The task a step runs, before and after it. -/
lemma ranAt_run {t t' : Task} (ht : s.tasks[i]? = some t)
    (hgo : t.goOn cfg (s.view (s.perform cfg now (t.nextOp cfg)).1 now env)
      (s.perform cfg now (t.nextOp cfg)).1.published (s.perform cfg now (t.nextOp cfg)).2 =
      some t') : ranAt cfg (s, .run i now env) = some (t, t') := by
  simp only [ranAt, ht, Option.bind_some, hgo, Option.map_some]

/-- The jobs taken and the jobs left are those of the queue. -/
lemma taken_append_jobsLeft (jobs : List QueueJob) (o : Op) :
    System.taken jobs o ++ System.jobsLeft jobs o = jobs := by
  cases o with
  | getNextJob => cases jobs <;> rfl
  | _ => rfl

/-- **The queue at a step**: what is taken is at its front, and what is put comes to its end. -/
lemma queue_step (hs : systemStep cfg s a = some s') :
    s.jobs ++ putsAt cfg (s, a) = takesAt cfg (s, a) ++ s'.jobs := by
  by_cases ha : ∀ i now env, a ≠ .run i now env
  · have hran : ranAt cfg (s, a) = none := ranAt_of_ne_run ha
    rw [(systemStep_of_ne_run hs ha).2.2]
    simp [putsAt, takesAt, hran]
  · push Not at ha
    obtain ⟨i, now, env, rfl⟩ := ha
    obtain ⟨t, t', ht, -, hgo, rfl⟩ := systemStep_run hs
    have hran := ranAt_run ht hgo
    simp only [putsAt, takesAt, hran]
    rw [← List.append_assoc, taken_append_jobsLeft]

/-- The tasks a step cancels and creates have no job in hand. -/
lemma inHand_tasks_step {t' : Task} {cancelled : List ℕ} {m : StateManager} {o : Op}
    {sec : Section} :
    ((s.tasks.set i t').map (Task.cancel cancelled) ++
      System.created m o sec).filterMap (fun t => t.point.job?) =
        (s.tasks.set i t').filterMap fun t => t.point.job? := by
  have hcancel : (fun t : Task => t.point.job?) ∘ Task.cancel cancelled =
      fun t => t.point.job? := by
    funext u
    rcases cancel_eq cancelled u with hc | ⟨⟨handle, f, p, hp⟩, hc⟩
    · simp only [Function.comp_apply, hc]
    · simp only [Function.comp_apply, hc, hp]
      rfl
  have hcreated : (System.created m o sec).filterMap (fun t => t.point.job?) = [] :=
    List.filterMap_eq_nil_iff.mpr fun u hu => job?_created hu
  rw [List.filterMap_append, List.filterMap_map, hcancel, hcreated, List.append_nil]

/-- Only a worker without a job takes one. -/
lemma job?_of_getNextJob {t : Task} (h : t.nextOp cfg = .getNextJob) : t.point.job? = none := by
  obtain ⟨p, phase⟩ := t
  cases phase with
  | awaiting =>
    simp only [Task.nextOp] at h
    cases p with
    | worker q =>
      cases q with
      | getNextJob => rfl
      | copy job dest c => cases c <;> cases h
      | _ => cases h
    | _ => rfl
  | _ => cases h

/-- A worker with a job in hand takes no other. -/
lemma taken_of_job? {t : Task} (jobs : List QueueJob) (h : t.point.job? ≠ none) :
    System.taken jobs (t.nextOp cfg) = [] := by
  unfold System.taken
  split
  · exact absurd (job?_of_getNextJob ‹_›) h
  · rfl

/-- **The jobs of the workers at a step**: what is taken is added, and what ends is taken away.

**Proof sketch.** Only the entry of the task that runs changes (`OneEntry.filterMap_set_perm`). A
task whose job ends takes its entry away, whether it had the job or has just taken it; one that
goes on keeps its job; one that took a job from the queue adds it. -/
lemma inHand_step (hcons : ∀ t ∈ s.tasks, t.Consistent cfg) (hs : systemStep cfg s a = some s') :
    (s.inHand ++ takesAt cfg (s, a)).Perm (endsAt cfg (s, a) ++ s'.inHand) := by
  by_cases ha : ∀ i now env, a ≠ .run i now env
  · have hran : ranAt cfg (s, a) = none := ranAt_of_ne_run ha
    rw [System.inHand, System.inHand, (systemStep_of_ne_run hs ha).2.1]
    simp [takesAt, endsAt, hran]
  · push Not at ha
    obtain ⟨i, now, env, rfl⟩ := ha
    obtain ⟨t, t', ht, -, hgo, rfl⟩ := systemStep_run hs
    have hran := ranAt_run ht hgo
    have hset := OneEntry.filterMap_set_perm (fun t : Task => t.point.job?) t' s.tasks i ht
    simp only [takesAt, endsAt, hran, System.inHand, inHand_tasks_step]
    split_ifs with hends
    · -- the job of the task ends, whether it had one or has just taken it
      rw [hends, Option.toList_none, List.nil_append] at hset
      refine (hset.symm.append_right _).trans ?_
      rw [List.append_assoc, List.append_assoc]
      exact List.perm_append_comm.append_left _
    · have ht' := hcons t (List.mem_of_getElem? ht)
      rcases job?_goOn ht' hgo with hnone | hsame | ⟨hop, hnone, hhead⟩
      · exact absurd hnone hends
      · rw [hsame] at hset hends
        rw [taken_of_job? s.jobs hends, List.append_nil, List.nil_append]
        exact ((List.perm_append_left_iff _).mp hset).symm
      · rw [hnone, hhead, Option.toList_none, List.nil_append] at hset
        rw [hop, List.nil_append]
        exact List.perm_append_comm.trans hset.symm

/-- A job is put by a handler that finds its record. -/
lemma findsReady_of_mem (hcons : ∀ t ∈ s.tasks, t.Consistent cfg)
    (hs : systemStep cfg s a = some s') (h : job ∈ putsAt cfg (s, a)) :
    FindsReady cfg job (s, a) := by
  refine ⟨h, ?_⟩
  by_cases ha : ∀ i now env, a ≠ .run i now env
  · have hran : ranAt cfg (s, a) = none := ranAt_of_ne_run ha
    simp [putsAt, hran] at h
  · push Not at ha
    obtain ⟨i, now, env, rfl⟩ := ha
    obtain ⟨t, t', ht, -, hgo, -⟩ := systemStep_run hs
    simp only [putsAt, ranAt_run ht hgo] at h
    obtain ⟨-, -, hfile, hready, hpath, -⟩ :=
      put_goOn job (hcons t (List.mem_of_getElem? ht)) hgo (Option.mem_toList.mp h)
    exact ⟨hfile, hready, hpath⟩

/-- A task stays a worker, or stays none. -/
lemma isWorker_goOn {view : View} {t t' : Task} {published : Option FileStatusChangedEvent}
    {b : Answer} (h : t.goOn cfg view published b = some t') : t'.isWorker = t.isWorker := by
  unfold Task.isWorker
  rcases point_goOn h with hsame | ⟨c, hafter, -⟩
  · rw [hsame]
  · cases hp : t.point <;> rw [hp] at hafter <;>
      cases hp' : t'.point <;> rw [hp'] at hafter <;>
      first | rfl | cases TaskPoint.next_of_after hafter

/-- **The workers stay workers**, and no more are created.

**Proof sketch.** A task that goes on stays what it is, a cancellation finishes timers only, and
the tasks created are no workers; so the count is that of the list with one entry replaced by one
of its kind. -/
lemma countP_worker_step (hs : systemStep cfg s a = some s') :
    s'.tasks.countP Task.isWorker = s.tasks.countP Task.isWorker := by
  by_cases ha : ∀ i now env, a ≠ .run i now env
  · rw [(systemStep_of_ne_run hs ha).2.1]
  · push Not at ha
    obtain ⟨i, now, env, rfl⟩ := ha
    obtain ⟨t, t', ht, -, hgo, rfl⟩ := systemStep_run hs
    obtain ⟨hi, hti⟩ := List.getElem?_eq_some_iff.mp ht
    have hcancel : Task.isWorker ∘ Task.cancel (s.perform cfg now (t.nextOp cfg)).1.cancelled =
        Task.isWorker := by
      funext u
      rcases cancel_eq (s.perform cfg now (t.nextOp cfg)).1.cancelled u with
        hc | ⟨⟨handle, f, p, hp⟩, hc⟩
      · rw [Function.comp_apply, hc]
      · simp only [Function.comp_apply, hc, Task.isWorker, hp]
    have hcreated : (System.created s.manager (t.nextOp cfg)
        (s.perform cfg now (t.nextOp cfg)).1).countP Task.isWorker = 0 := by
      refine List.countP_eq_zero.mpr fun u hu => ?_
      unfold Task.isWorker
      split
      · exact absurd ‹_› (not_worker_of_created hu _)
      · exact Bool.false_ne_true
    have hpos : (if t.isWorker = true then 1 else 0) ≤ s.tasks.countP Task.isWorker := by
      split_ifs with hw
      · exact List.countP_pos_iff.mpr ⟨t, hti ▸ List.getElem_mem hi, hw⟩
      · exact Nat.zero_le _
    simp only [List.countP_append, List.countP_map, hcancel, hcreated, List.countP_set hi, hti,
      isWorker_goOn hgo]
    omega

/-- Each worker has one job at most. -/
lemma length_inHand_le (s : System) : s.inHand.length ≤ s.tasks.countP Task.isWorker := by
  unfold System.inHand
  induction s.tasks with
  | nil => exact Nat.le_refl 0
  | cons t rest ih =>
    rw [OneEntry.filterMap_cons_eq, List.length_append, List.countP_cons]
    have hone : t.point.job?.toList.length ≤ if t.isWorker = true then 1 else 0 := by
      unfold Task.isWorker
      cases t.point with
      | worker q => exact Option.length_toList_le
      | _ => exact Nat.le_refl 0
    omega

end Steps

/-! ## Runs -/

section Runs

variable {cfg : Settings} {s : System} {tr : List (System × SystemAction)} {n : ℕ} {job : QueueJob}

/-- As many workers are started as the settings say. -/
lemma isWorker_start (n : ℕ) : (System.start n).tasks.countP Task.isWorker = n := by
  have hworkers : (List.replicate n ({ point := .worker .getNextJob } : Task)).countP
      Task.isWorker = n := by
    rw [List.countP_replicate]
    rfl
  simpa [System.start, List.countP_append, Task.isWorker] using hworkers

/-- At the start no job is in hand. -/
lemma inHand_start (n : ℕ) : (System.start n).inHand = [] := by
  refine List.filterMap_eq_nil_iff.mpr fun t ht => ?_
  have hpoint := (start_tasks {} ht).2.1
  cases hp : t.point with
  | worker q => rw [hpoint q hp]; rfl
  | _ => rfl

/-- The number of workers is `max_concurrent_copies` throughout. -/
lemma countP_worker_of_run (hrun : Run (systemStep cfg) (.start n) tr s) :
    s.tasks.countP Task.isWorker = n := by
  have hok : Meets (fun _ _ => True) tr := fun _ _ => trivial
  refine hrun.invariant (I := fun s => s.tasks.countP Task.isWorker = n) hok (isWorker_start n) ?_
  exact fun _ _ _ h _ hs => (countP_worker_step hs).trans h

/-- What has been put has been taken, or is in the queue, in this order. -/
lemma puts_eq (hrun : Run (systemStep cfg) (.start n) tr s) :
    tr.flatMap (putsAt cfg) = tr.flatMap (takesAt cfg) ++ s.jobs := by
  induction hrun with
  | start => rfl
  | @snoc tr s s' a hrun hs ih =>
    simp only [List.flatMap_append, List.flatMap_singleton]
    rw [ih, List.append_assoc, queue_step hs, List.append_assoc]

/-- What has been taken has ended, or is with a worker. -/
lemma takes_perm (hrun : Run (systemStep cfg) (.start n) tr s) :
    (tr.flatMap (takesAt cfg)).Perm (tr.flatMap (endsAt cfg) ++ s.inHand) := by
  induction hrun with
  | start => rw [inHand_start]; exact List.Perm.refl _
  | @snoc tr s s' a hrun hs ih =>
    simp only [List.flatMap_append, List.flatMap_singleton]
    refine (ih.append_right _).trans ?_
    rw [List.append_assoc, List.append_assoc]
    exact (inHand_step (provenance_of_run hrun).paths.consistent hs).append_left _

/-- **Jobs are taken in order, and each ends once**: in every run of the program, the jobs that
workers have taken and those in the queue are the jobs put by the handlers, in the order in which
they were put; the jobs taken are those whose processing has ended, and those that the workers have,
each as often as it was put; and at most `max_concurrent_copies` are processed at once.

**Proof sketch.** Induction on the run, with `queue_step` and `inHand_step`. The number of workers
stays the same, and each has one job at most. -/
theorem jobs_in_order (hrun : Run (systemStep cfg) (.start n) tr s) :
    tr.flatMap (putsAt cfg) = tr.flatMap (takesAt cfg) ++ s.jobs ∧
      (tr.flatMap (takesAt cfg)).Perm (tr.flatMap (endsAt cfg) ++ s.inHand) ∧
      s.inHand.length ≤ n :=
  ⟨puts_eq hrun, takes_perm hrun, countP_worker_of_run hrun ▸ length_inHand_le s⟩

/-- A file that has been queued and copied. -/
theorem jobs_in_order_copied :
    ∃ tr s, Run (systemStep {}) (.start 1) tr s ∧
      tr.flatMap (putsAt {}) = [⟨0, "/src/a.mxf"⟩] ∧
      tr.flatMap (putsAt {}) = tr.flatMap (takesAt {}) ++ s.jobs ∧
      (tr.flatMap (takesAt {})).Perm (tr.flatMap (endsAt {}) ++ s.inHand) ∧
      s.inHand.length ≤ 1 := by
  obtain ⟨s, hrun, -⟩ := exists_run_of_replay (systemStep {}) (.start 1)
    (fileQueued ++ copyFile 30000000 .done) (fun _ => true) (by decide +kernel)
  exact ⟨_, s, hrun, by decide +kernel, jobs_in_order hrun⟩

/-- **Only `READY` files are queued**: in every run of the program, every job in the queue or with a
worker was put at a step of the run in which a handler found its record stored and `READY`, and has
the path that the record had.

**Proof sketch.** The jobs that were put are those taken and those in the queue (`puts_eq`), and
each was put by a handler that had just read its record. -/
lemma job_found_ready (hrun : Run (systemStep cfg) (.start n) tr s)
    (h : job ∈ s.jobs ++ s.inHand) : Once (FindsReady cfg job) tr := by
  have hput : job ∈ tr.flatMap (putsAt cfg) := by
    rw [puts_eq hrun]
    rcases List.mem_append.mp h with hjob | hjob
    · exact List.mem_append_right _ hjob
    · exact List.mem_append_left _ ((takes_perm hrun).mem_iff.mpr (List.mem_append_right _ hjob))
  obtain ⟨⟨s₁, a⟩, hmem, hp⟩ := List.mem_flatMap.mp hput
  obtain ⟨tr₁, tr₂, s₂, rfl, hbefore, hs⟩ := hrun.at_mem hmem
  exact ⟨_, hmem, findsReady_of_mem (provenance_of_run hbefore).paths.consistent hs hp⟩

end Runs

end FileAgent

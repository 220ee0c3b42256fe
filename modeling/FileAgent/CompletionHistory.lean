import FileAgent.JobHistory
import FileAgent.VerifiedCompletion

set_option relaxedAutoImplicit false
set_option autoImplicit false

/-!
# The way of a file

A file is judged `READY`, queued, taken by a worker, copied, verified and completed, by tasks that
run independently of one another: the scanner or a retry, the handler of an event, a worker, and the
handlers of later events. That a completed file has gone this way, in this order, is a property of
the runs.

## Main definitions

* `TakesJob` — a worker takes a job.
* `System.HasJob` — a worker has a job.

## Main results

* `job_way` — a worker with a job has taken it, and it was queued before.
* `completed_way` — the way of a `COMPLETED` record.
-/

namespace FileAgent

open Transition StateManager

/-- The worker `i` takes the job from the queue. -/
def TakesJob (cfg : Settings) (i : ℕ) (job : QueueJob) (p : System × SystemAction) : Prop :=
  ∃ now env, p.2 = .run i now env ∧ job ∈ takesAt cfg p

/-- The worker `i` has the job. -/
def System.HasJob (s : System) (i : ℕ) (job : QueueJob) : Prop :=
  ∃ t ∈ s.tasks[i]?, t.point.job? = some job

section Runs

variable {cfg : Settings} {s s' : System} {tr : List (System × SystemAction)} {i n : ℕ}
  {job : QueueJob} {dest : DestPath} {id : FileId}

/-- **The step lemma**: a worker that has a job after a step has just taken it, or had it before. -/
lemma hasJob_step {a : SystemAction} (hcons : ∀ t ∈ s.tasks, t.Consistent cfg)
    (hs : systemStep cfg s a = some s') (h : s'.HasJob i job) :
    TakesJob cfg i job (s, a) ∨ s.HasJob i job := by
  by_cases ha : ∀ j now env, a ≠ .run j now env
  · rw [System.HasJob, (systemStep_of_ne_run hs ha).2.1] at h
    exact .inr h
  · push Not at ha
    obtain ⟨j, now, env, rfl⟩ := ha
    obtain ⟨t, t', ht, -, hgo, rfl⟩ := systemStep_run hs
    obtain ⟨u, hu, hjob⟩ := h
    rcases getElem?_tasks_step hu with ⟨rfl, rfl⟩ | rfl | hnew | ⟨-, hold⟩
    · rcases job?_goOn (hcons t (List.mem_of_getElem? ht)) hgo with
        hnone | hsame | ⟨hop, -, hhead⟩
      · rw [hnone] at hjob
        cases hjob
      · exact .inr ⟨t, ht, hsame ▸ hjob⟩
      · refine .inl ⟨now, env, rfl, ?_⟩
        simp only [takesAt, ranAt_run ht hgo, hop]
        exact Option.mem_toList.mpr (hhead ▸ hjob)
    · cases hjob
    · rw [job?_created hnew] at hjob
      cases hjob
    · exact .inr ⟨u, hold, hjob⟩

/-- At the start no worker has a job. -/
lemma not_hasJob_start : ¬ (System.start n).HasJob i job := by
  rintro ⟨t, ht, hjob⟩
  have hnil := inHand_start n
  have hmem : job ∈ (System.start n).inHand :=
    List.mem_filterMap.mpr ⟨t, List.mem_of_getElem? ht, hjob⟩
  rw [hnil] at hmem
  cases hmem

/-- What is taken has been in the queue. -/
lemma mem_jobs_of_takesJob {a : SystemAction} (h : TakesJob cfg i job (s, a)) : job ∈ s.jobs := by
  obtain ⟨now, env, rfl, htaken⟩ := h
  unfold takesAt at htaken
  split at htaken
  · rename_i t t' _
    have hfront := taken_append_jobsLeft s.jobs (t.nextOp cfg)
    rw [← hfront]
    exact List.mem_append_left _ htaken
  · cases htaken

/-- **The way of a job**: a worker with a job has taken it; before that a handler put it into the
queue, having found its record `READY`; and before that a service decided on `READY`. -/
lemma job_way (hrun : Run (systemStep cfg) (.start n) tr s) (h : s.HasJob i job) :
    Successively [DecidedAt cfg job.file .ready, FindsReady cfg job, TakesJob cfg i job] tr := by
  have hsince : Since (fun _ => True) (TakesJob cfg i job) tr :=
    hrun.since (M := fun s => s.HasJob i job) not_hasJob_start (fun tr s a s' hrun hs hjob =>
      (hasJob_step (provenance_of_run hrun).paths.consistent hs hjob).imp_right
        fun h => ⟨h, trivial⟩) h
  obtain ⟨tr₁, ⟨s₁, a⟩, tr₂, rfl, htakes, -⟩ := hsince
  obtain ⟨hbefore, -⟩ := hrun.split
  obtain ⟨⟨s₂, b⟩, hmem, hready⟩ :=
    job_found_ready hbefore (List.mem_append_left _ (mem_jobs_of_takesJob htakes))
  obtain ⟨tr₃, tr₄, rfl⟩ := List.append_of_mem hmem
  have hdecided := (provenance_of_run hbefore.split.1).statuses job.file
  rw [hready.2.2.1] at hdecided
  rcases hdecided with hdisc | hdecided
  · cases hdisc
  · exact ((Once.successively hdecided).next hready tr₄).next htakes tr₂

/-- A worker that verifies has a job. -/
lemma hasJob_of_verifies {a : SystemAction} (h : Verifies i job dest (s, a)) : s.HasJob i job := by
  obtain ⟨now, env, -, t, ht, hv⟩ := h
  refine ⟨t, ht, ?_⟩
  unfold TaskPoint.verifies at hv
  split at hv
  · split at hv
    · split_ifs at hv
      cases hv
      simp only [TaskPoint.job?, WorkerPoint.job?, *]
    · cases hv
  · cases hv

/-- **The way of a completed file**: in every run of the program, if a record is `COMPLETED`, then
there are a job of its path, a worker and a destination, and in this order: a service decided that
the record of the job is `READY`; a handler found it stored and `READY` and put the job into the
queue; the worker took the job; it found the destination as long as the source; and a service, which
can only be a worker, decided that the record is `COMPLETED`.

**Proof sketch.** Backwards: only a worker past its verification decides on `COMPLETED`
(`hasVerified_of_decidedAt`), it has verified (`since_of_hasVerified`) and had the job then, which
has come its way (`job_way`). -/
theorem completed_way (hrun : Run (systemStep cfg) (.start n) tr s)
    (hst : (s.manager.heap id).status = .completed) :
    ∃ i job dest, job.path = (s.manager.heap id).filePath ∧
      Successively [DecidedAt cfg job.file .ready, FindsReady cfg job, TakesJob cfg i job,
        Verifies i job dest, DecidedAt cfg id .completed] tr := by
  have hdecided := (provenance_of_run hrun).statuses id
  rw [hst] at hdecided
  rcases hdecided with hdisc | ⟨⟨s₁, a⟩, hmem, hcompleted⟩
  · cases hdisc
  obtain ⟨tr₁, tr₂, rfl⟩ := List.append_of_mem hmem
  have hbefore := hrun.split.1
  obtain ⟨i, job, dest, hverified, hpath⟩ :=
    hasVerified_of_decidedAt (provenance_of_run hbefore).paths hcompleted
  obtain ⟨tr₃, ⟨s₂, b⟩, tr₄, rfl, hverifies, -⟩ := since_of_hasVerified hbefore hverified
  have hway := job_way hbefore.split.1 (hasJob_of_verifies hverifies)
  refine ⟨i, job, dest, (hasPath_of_run hrun.rest hpath).2.symm, ?_⟩
  exact (hway.next hverifies tr₄).next hcompleted tr₂

/-- The way of a file that has been copied. -/
theorem completed_way_copied :
    ∃ tr s, Run (systemStep {}) (.start 1) tr s ∧ (s.manager.heap 0).status = .completed ∧
      ∃ i job dest, job.path = (s.manager.heap 0).filePath ∧
        Successively [DecidedAt {} job.file .ready, FindsReady {} job, TakesJob {} i job,
          Verifies i job dest, DecidedAt {} 0 .completed] tr := by
  obtain ⟨s, hrun, hs⟩ := exists_run_of_replay (systemStep {}) (.start 1)
    (fileQueued ++ copyFile 30000000 .done) (fun s => (s.manager.heap 0).status = .completed)
    (by decide +kernel)
  exact ⟨_, s, hrun, of_decide_eq_true hs, completed_way hrun (of_decide_eq_true hs)⟩

end Runs

end FileAgent

import FileAgent.Library.PastTime
import FileAgent.StatusProvenance

set_option relaxedAutoImplicit false
set_option autoImplicit false

/-!
# Nothing is deleted or completed unverified

`copy_file` ends by reading the size of the source and then that of the destination. If they are
equal, it deletes the source and writes `COMPLETED`, and `process_job` finalizes the job. Other
tasks run in between, and `COMPLETED` is also written by the handlers of events, so that this holds
of the whole program is a property of its runs.

## Main definitions

* `TaskPoint.verifies` — a worker finds the destination as long as the source.
* `TaskPoint.verified` — a worker is past its verification.

## Main results

* `since_of_hasVerified` — a worker past its verification has verified, and has done nothing else
  since.
* `source_removed_verified` — a worker that deletes a source file has verified its copy, in the same
  job and for the same destination.
* `hasVerified_of_decidedAt` — only a worker past its verification decides on `COMPLETED`.
-/

namespace FileAgent

open Transition StateManager

/-- The step of a worker that reads the size of the destination and finds it equal to the size of
the source read before, with its job and the destination. -/
def TaskPoint.verifies (env : Env) : TaskPoint → Option (QueueJob × DestPath)
  | .worker (.copy job dest (.verifyDest _ sourceSize)) =>
    match env.copyAnswer with
    | .size destSize => if sourceSize = destSize then some (job, dest) else none
    | _ => none
  | _ => none

/-- A worker that has verified the copy of its job: it is about to delete the source, to mark the
record as completed, or to finalize the job. -/
def TaskPoint.verified : TaskPoint → Option (QueueJob × DestPath)
  | .worker (.copy job dest (.removeSource _)) | .worker (.copy job dest (.markCompleted _))
  | .worker (.finalize job dest) => some (job, dest)
  | _ => none

/-- The worker `i` verifies the copy of the job to the destination. -/
def Verifies (i : ℕ) (job : QueueJob) (dest : DestPath) (p : System × SystemAction) : Prop :=
  ∃ now env, p.2 = .run i now env ∧ ∃ t ∈ p.1.tasks[i]?, t.point.verifies env = some (job, dest)

/-- If it is the worker `i` that runs, it is past the verification of the job and its
destination. -/
def KeepsVerified (i : ℕ) (job : QueueJob) (dest : DestPath) (p : System × SystemAction) : Prop :=
  ∀ now env, p.2 = .run i now env → ∃ t ∈ p.1.tasks[i]?, t.point.verified = some (job, dest)

/-- The worker `i` is past the verification of the job and its destination. -/
def System.HasVerified (s : System) (i : ℕ) (job : QueueJob) (dest : DestPath) : Prop :=
  ∃ t ∈ s.tasks[i]?, t.point.verified = some (job, dest)

/-! ## How a worker gets past its verification -/

/-- `copy_file` is past its verification. -/
def CopyPoint.isVerified : CopyPoint → Bool
  | .removeSource _ | .markCompleted _ | .done (.returned true) => true
  | _ => false

section Points

variable {cfg : Settings} {view : View} {heap : FileId → TrackedFile} {job : QueueJob}
  {dest : DestPath}

/-- Only `True` is returned past the verification. -/
lemma isVerified_done {o : CopyOutcome} (ho : o ≠ .returned true) :
    (CopyPoint.done o).isVerified = false := by
  cases o with
  | raised e => rfl
  | returned success =>
    cases success with
    | false => rfl
    | true => exact absurd rfl ho

/-- The end of the loop is before the verification. -/
lemma isVerified_loopEnd (v : LoopVars) (n : ℕ) : (CopyPoint.loopEnd v n).isVerified = false := by
  rcases CopyPoint.loopEnd_cases v n with ⟨h, -⟩ | ⟨h, -⟩ | ⟨h, -⟩ <;> rw [h] <;> rfl

/-- The head of the inner loop is before the verification. -/
lemma isVerified_rangeHead (v : LoopVars) (r : RangeVars) :
    (CopyPoint.rangeHead v r).isVerified = false := by
  rcases CopyPoint.rangeHead_cases v r with ⟨h, -⟩ | ⟨h, -⟩ <;> rw [h]
  · rfl
  · exact isVerified_loopEnd _ _

/-- A round of the loop is before the verification. -/
lemma isVerified_loopRound (v : LoopVars) (n : ℕ) :
    (CopyPoint.loopRound v n).isVerified = false := by
  obtain ⟨v', -, -, ⟨r, -, h⟩ | h | h⟩ := CopyPoint.loopRound_cases v n <;> rw [h]
  · rfl
  · rfl
  · exact isVerified_loopEnd _ _

/-- **`copy_file` gets past its verification** by finding the size of the destination equal to that
of the source. -/
lemma isVerified_resume {p p' : CopyPoint} {a : CopyAnswer} (h : p.resume cfg heap a = some p')
    (hp' : p'.isVerified = true) :
    p.isVerified = true ∨ ∃ file n, p = .verifyDest file n ∧ a = .size n := by
  cases CopyPoint.next_of_resume h with
  | verified file n => exact .inr ⟨file, n, rfl, rfl⟩
  | removed file | completed file => exact .inl rfl
  | failed _ _ ho =>
    rw [isVerified_done ho] at hp'
    cases hp'
  | polled hfrom hto => rcases hto with rfl | rfl <;> cases hp'
  | sized v n =>
    rw [isVerified_loopRound] at hp'
    cases hp'
  | openedSource v r | reported v r | paused v r =>
    rw [isVerified_rangeHead] at hp'
    cases hp'
  | readNothing v r =>
    rw [CopyPoint.rangeEnd, isVerified_loopEnd] at hp'
    cases hp'
  | updated v n =>
    rw [isVerified_loopEnd] at hp'
    cases hp'
  | _ => cases hp'

/-- A worker is past the verification where its `copy_file` is. -/
lemma verified_copy {q : CopyPoint} (h : q.isVerified = true) (hq : ∀ o, q ≠ .done o) :
    (TaskPoint.worker (.copy job dest q)).verified = some (job, dest) := by
  cases q with
  | removeSource file | markCompleted file => rfl
  | done o => exact absurd rfl (hq o)
  | _ => cases h

/-- The point after a copy is a verified one only where the copy is. -/
lemma isVerified_afterCopy {job' : QueueJob} {dest' : DestPath} {q : CopyPoint}
    (h : (TaskPoint.worker (WorkerPoint.afterCopy view job dest q)).verified =
      some (job', dest')) : q.isVerified = true ∧ job' = job ∧ dest' = dest := by
  unfold WorkerPoint.afterCopy at h
  split at h
  · cases h
    exact ⟨rfl, rfl, rfl⟩
  · cases h
  · split_ifs at h <;> cases h
  · cases q <;> cases h <;> exact ⟨rfl, rfl, rfl⟩

/-- **A worker gets past the verification** of its job by verifying it. -/
lemma verified_after {p p' : TaskPoint} {a : Answer} (h : p.after cfg view a = some p')
    (hp' : p'.verified = some (job, dest)) :
    p.verifies view.env = some (job, dest) ∨ p.verified = some (job, dest) := by
  obtain ⟨q', rfl⟩ : ∃ q', p' = .worker q' := by
    cases p' with
    | worker q' => exact ⟨q', rfl⟩
    | _ => cases hp'
  obtain ⟨q, rfl, hq⟩ := worker_before h rfl
  cases WorkerPoint.next_of_after hq with
  | copies j d c c' b hb hcopy =>
    obtain ⟨hc', rfl, rfl⟩ := isVerified_afterCopy hp'
    rcases isVerified_resume hcopy hc' with hc | ⟨file, n, rfl, rfl⟩
    · refine .inr (verified_copy hc fun o ho => ?_)
      subst ho
      cases b <;> cases hcopy
    · left
      have hanswer : view.env.copyAnswer = .size n := by
        cases a <;> simp only [CopyPoint.request, WorkerPoint.copyAnswer, reduceCtorEq] at hb
        exact Option.some.inj hb
      simp only [TaskPoint.verifies, hanswer, if_true]
  | _ => cases hp'

end Points

/-! ## Runs -/

section Runs

variable {cfg : Settings} {s s' s₁ : System} {tr : List (System × SystemAction)}
  {i now n : ℕ} {env : Env} {job : QueueJob} {dest : DestPath} {id : FileId}

/-- **The step lemma**: a worker that is past the verification after a step has just verified, or
was past it before.

**Proof sketch.** The worker itself has run, and is past the verification by this step or was
before it (`verified_after`); or it is as it was. A task that is new, or finished, is no worker. -/
lemma hasVerified_step {a : SystemAction} (hs : systemStep cfg s a = some s')
    (h : s'.HasVerified i job dest) :
    Verifies i job dest (s, a) ∨ s.HasVerified i job dest ∧ KeepsVerified i job dest (s, a) := by
  by_cases ha : ∀ j now env, a ≠ .run j now env
  · right
    rw [System.HasVerified, (systemStep_of_ne_run hs ha).2.1] at h
    exact ⟨h, fun now env heq => absurd heq (ha i now env)⟩
  · push Not at ha
    obtain ⟨j, now, env, rfl⟩ := ha
    obtain ⟨t, t', ht, -, hgo, rfl⟩ := systemStep_run hs
    obtain ⟨u, hu, hv⟩ := h
    rcases getElem?_tasks_step hu with ⟨rfl, rfl⟩ | rfl | hnew | ⟨hij, hold⟩
    · -- the worker itself runs
      rcases point_goOn hgo with hsame | ⟨b, hafter, -⟩
      · rw [hsame] at hv
        refine .inr ⟨⟨t, ht, hv⟩, fun now env heq => ?_⟩
        exact ⟨t, ht, hv⟩
      · rcases verified_after hafter hv with hnow | hbefore
        · exact .inl ⟨now, env, rfl, t, ht, hnow⟩
        · exact .inr ⟨⟨t, ht, hbefore⟩, fun now env heq => ⟨t, ht, hbefore⟩⟩
    · cases hv
    · rcases created_cases hnew with ⟨ev, -, rfl⟩ | ⟨f, rfl⟩
      · cases ev <;> cases hv
      · cases hv
    · refine .inr ⟨⟨u, hold, hv⟩, fun now' env' heq => ?_⟩
      cases heq
      exact absurd rfl hij

/-- At the start nothing has been verified. -/
lemma not_hasVerified_start : ¬ (System.start n).HasVerified i job dest := by
  rintro ⟨t, ht, hv⟩
  have hpoint := (start_tasks {} (List.mem_of_getElem? ht)).2.1
  unfold TaskPoint.verified at hv
  split at hv <;> first | cases hpoint _ ‹_› | cases hv

/-- **A worker past the verification has verified**, and has done nothing else since. -/
lemma since_of_hasVerified (hrun : Run (systemStep cfg) (.start n) tr s)
    (h : s.HasVerified i job dest) : Since (KeepsVerified i job dest) (Verifies i job dest) tr :=
  hrun.since (M := fun s => s.HasVerified i job dest) not_hasVerified_start
    (fun _ _ _ _ _ hs => hasVerified_step hs) h

/-- Only a copy about to remove its source is deleting. -/
lemma deleting_eq_some {p : TaskPoint} {r : QueueJob × FileId} (h : p.deleting = some r) :
    ∃ job dest file, p = .worker (.copy job dest (.removeSource file)) := by
  unfold TaskPoint.deleting at h
  split at h
  · exact ⟨_, _, _, rfl⟩
  · cases h

/-- **No source is deleted unverified**: in every run of the program, whenever a worker is about to
delete the source of its job, it has found the destination as long as the source, in this job and
for this destination, and has made no other step since. Other tasks may have run in between.

**Proof sketch.** A worker gets past the verification only by verifying, and from there it deletes,
completes and finalizes in the same job: the rule for modes. -/
theorem source_removed_verified (hrun : Run (systemStep cfg) (.start n) tr s) {file : FileId}
    {t : Task} (ht : s.tasks[i]? = some t)
    (hpoint : t.point = .worker (.copy job dest (.removeSource file))) :
    Since (KeepsVerified i job dest) (Verifies i job dest) tr :=
  since_of_hasVerified hrun ⟨t, ht, by rw [hpoint]; rfl⟩

/-- A worker about to delete the source of the file it has copied. -/
theorem source_removed_verified_copied :
    ∃ tr s t job dest file, Run (systemStep {}) (.start 1) tr s ∧ s.tasks[3]? = some t ∧
      t.point = .worker (.copy job dest (.removeSource file)) ∧
      Since (KeepsVerified 3 job dest) (Verifies 3 job dest) tr := by
  obtain ⟨s, hrun, hs⟩ := exists_run_of_replay (systemStep {}) (.start 1)
    (fileQueued ++ (copyFile 30000000 .done).take 18)
    (fun s => (s.tasks[3]?.bind fun t => t.point.deleting).isSome) (by decide +kernel)
  obtain ⟨r, hr⟩ := Option.isSome_iff_exists.mp hs
  obtain ⟨t, ht, hdel⟩ := Option.bind_eq_some_iff.mp hr
  obtain ⟨job, dest, file, hpoint⟩ := deleting_eq_some hdel
  exact ⟨_, s, t, job, dest, file, hrun, ht, hpoint, source_removed_verified hrun ht hpoint⟩

/-- A record keeps its path to the end of a run. -/
lemma hasPath_of_run {path : FilePath} (hrun : Run (systemStep cfg) s₁ tr s)
    (h : s₁.manager.HasPath id path) : s.manager.HasPath id path := by
  have hok : Meets (fun _ _ => True) tr := fun _ _ => trivial
  exact hrun.invariant hok h fun _ _ _ hp _ hs => hasPath_step hs hp

/-- A worker that delivers a record is past the verification of its job. -/
lemma verified_of_delivers {p : WorkerPoint} {file : FileId} (h : p.delivers = some (job, file)) :
    ∃ dest, (TaskPoint.worker p).verified = some (job, dest) := by
  unfold WorkerPoint.delivers at h
  split at h <;> cases h
  · exact ⟨_, rfl⟩
  · exact ⟨_, rfl⟩

/-- Only a worker decides on `COMPLETED`, past the verification of a job of the path of the
record. -/
lemma hasVerified_of_decidedAt {a : SystemAction} (hpaths : s.Paths cfg)
    (h : DecidedAt cfg id .completed (s, a)) :
    ∃ i job dest, s.HasVerified i job dest ∧ s.manager.HasPath id job.path := by
  obtain ⟨i, now, env, -, t, ht, author, hauthor, hd⟩ := h
  cases hd with
  | works st p job hjob hpath hw =>
    have hsound := hpaths.sound _ (List.mem_of_getElem? ht) p rfl
    obtain ⟨job', hdelivers⟩ := worker_completed hsound.copies hw
    obtain ⟨dest, hverified⟩ := verified_of_delivers hdelivers
    have hsame : job' = job := by
      unfold WorkerPoint.delivers at hdelivers
      split at hdelivers <;> cases hdelivers <;> exact Option.some.inj hjob
    exact ⟨i, job, dest, ⟨_, ht, hsame ▸ hverified⟩, hpath⟩
  | _ => cases hauthor

end Runs

end FileAgent

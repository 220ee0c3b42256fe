import FileAgent.System

set_option relaxedAutoImplicit false
set_option autoImplicit false

/-!
# One job for each path

`handle_file_ready` puts a job into the queue after it has found its record `READY`, and writes
`IN_QUEUE` in a later section. A second event of the same record that is handled in between finds it
`READY` too, and both the scanner and `update_file_status_by_id` publish the event.

## Main definitions

* `System.outstanding` — the number of jobs of a path in the queue or with a worker.
* `OneJobEach` — no path has two.
* `QueuesOnce` — the condition on the steps.
* `ReadyExclusive` — the invariant.

## Main results

* `outstanding_step` — only a handler adds a job.
* `readyExclusive_run` — the step lemma.
* `oneJobEach_of_queuesOnce` — no path has two outstanding jobs in the runs that meet the condition.
* `ready_event_queued_twice` — a path with two.
-/

namespace FileAgent

open Transition StateManager

/-- The task processes a job of the path. -/
def Task.processes (path : FilePath) (t : Task) : Bool := t.point.job?.any (·.path = path)

/-- The number of outstanding jobs of a path: in the queue, or being processed by a worker. -/
def System.outstanding (s : System) (path : FilePath) : ℕ :=
  s.jobs.countP (·.path = path) + s.tasks.countP (Task.processes path)

/-- At most one job of each path is outstanding. -/
def OneJobEach (s : System) : Prop := ∀ path, s.outstanding path ≤ 1

/-! ## The condition -/

/-- The operation makes the stored record `id` `READY`. -/
def Op.makesReady (m : StateManager) (id : FileId) (o : Op) : Bool :=
  o.writes id = some .ready ||
    match o with
    | .call (.executeRetryTask i) =>
      i = id && (m.heap id).status = .waitingForSpace && (m.heap id).retryInfo.isSome
    | _ => false

/-- The stored record `id` is `READY`. -/
def System.IsReady (s : System) (id : FileId) : Prop :=
  id ∈ s.manager.files ∧ (s.manager.heap id).status = .ready

instance (s : System) (id : FileId) : Decidable (s.IsReady id) :=
  inferInstanceAs (Decidable (_ ∧ _))

/-- The condition on a step of the task `t`. A handler that finds its record `READY` does so when no
other handler has put a job of it and is yet to write `IN_QUEUE`; and a record becomes `READY` only
when no job of its path is outstanding and no other record of the path is `READY`. -/
def QueuesOnceTask (cfg : Settings) (s : System) (t : Task) : Prop :=
  (∀ h ∈ t.point.handles, h.2 = .getFileById → s.IsReady h.1 →
      ∀ u ∈ s.tasks, u.addsJob h.1 = false) ∧
    ∀ id ∈ s.manager.files, (s.manager.heap id).status ≠ .ready →
      (t.nextOp cfg).makesReady s.manager id = true →
      s.outstanding (s.manager.heap id).filePath = 0 ∧
        ∀ r ∈ s.manager.files, (s.manager.heap r).status = .ready →
          (s.manager.heap r).filePath ≠ (s.manager.heap id).filePath

instance (cfg : Settings) (s : System) (t : Task) : Decidable (QueuesOnceTask cfg s t) :=
  inferInstanceAs (Decidable (_ ∧ _))

/-- The condition on a step. -/
def QueuesOnce (cfg : Settings) (s : System) : SystemAction → Prop
  | .run i _ _ => ∀ t ∈ s.tasks[i]?, QueuesOnceTask cfg s t
  | _ => True

instance (cfg : Settings) (s : System) : (a : SystemAction) → Decidable (QueuesOnce cfg s a)
  | .run i _ _ => inferInstanceAs (Decidable (∀ t ∈ s.tasks[i]?, QueuesOnceTask cfg s t))
  | .createQueue => .isTrue trivial
  | .subscribe => .isTrue trivial

/-! ## The jobs of a step -/

section Jobs

variable {cfg : Settings} {view : View} {s s' : System} {i now : ℕ} {env : Env} {path : FilePath}

/-- A cancellation leaves the workers alone. -/
lemma processes_cancel (cancelled : List ℕ) (t : Task) :
    (t.cancel cancelled).processes path = t.processes path := by
  rcases cancel_eq cancelled t with hc | ⟨⟨handle, f, p, hp⟩, hc⟩
  · rw [hc]
  · rw [hc, Task.processes, Task.processes, hp]
    rfl

/-- The tasks an operation creates process no job. -/
lemma countP_created (m : StateManager) (o : Op) (sec : Section) :
    (System.created m o sec).countP (Task.processes path) = 0 := by
  rw [List.countP_eq_zero]
  intro t ht
  simp [Task.processes, job?_created ht]

/-- No job of a kind is added when one is taken. -/
lemma countP_jobsLeft_le (jobs : List QueueJob) (o : Op) (p : QueueJob → Bool) :
    (System.jobsLeft jobs o).countP p ≤ jobs.countP p := by
  unfold System.jobsLeft
  split
  · exact (List.tail_sublist jobs).countP_le
  · exact le_rfl

/-- The first job of the queue and the others. -/
lemma countP_tail_add (path : FilePath) (jobs : List QueueJob) :
    jobs.tail.countP (·.path = path) +
      (if jobs.head?.any (·.path = path) = true then 1 else 0) = jobs.countP (·.path = path) := by
  cases jobs with
  | nil => rfl
  | cons job rest => simp [List.countP_cons]

/-- **Only a handler adds a job.**

**Proof sketch.** The jobs outstanding are counted in the queue and in the tasks. The queue loses
the job that is taken and gains the one put; of the tasks only the one that runs changes, and it
keeps its job, ends it, or has just taken the one the queue lost. -/
lemma outstanding_step {t t' : Task} {put : Option QueueJob} {cancelled : List ℕ}
    {m : StateManager} {o : Op} {sec : Section} (ht : s.tasks[i]? = some t)
    (hcons : t.Consistent cfg)
    (hgo : t.goOn cfg view (s.perform cfg now (t.nextOp cfg)).1.published
      (s.perform cfg now (t.nextOp cfg)).2 = some t')
    (hjobs : s'.jobs = System.jobsLeft s.jobs (t.nextOp cfg) ++ put.toList)
    (htasks : s'.tasks = (s.tasks.set i t').map (Task.cancel cancelled) ++
      System.created m o sec) :
    s'.outstanding path ≤ s.outstanding path + put.toList.countP (·.path = path) := by
  obtain ⟨hi, hti⟩ := List.getElem?_eq_some_iff.mp ht
  have hcancel : Task.processes path ∘ Task.cancel cancelled = Task.processes path :=
    funext fun u => processes_cancel cancelled u
  have hleft := countP_jobsLeft_le s.jobs (t.nextOp cfg) (·.path = path)
  have hpos : (if t.processes path = true then 1 else 0) ≤
      s.tasks.countP (Task.processes path) := by
    split_ifs with hp
    · exact List.countP_pos_iff.mpr ⟨t, hti ▸ List.getElem_mem hi, hp⟩
    · exact Nat.zero_le _
  simp only [System.outstanding, hjobs, htasks, List.countP_append, List.countP_map, hcancel,
    countP_created, List.countP_set hi, hti]
  rcases job?_goOn hcons hgo with hnone | hsame | ⟨hop, hnone, hhead⟩
  · have : t'.processes path = false := by simp [Task.processes, hnone]
    simp only [this, Bool.false_eq_true, if_false]
    omega
  · have : t'.processes path = t.processes path := by simp [Task.processes, hsame]
    rw [this]
    omega
  · have htail := countP_tail_add path s.jobs
    have hzero : t.processes path = false := by simp [Task.processes, hnone]
    have hone : t'.processes path = s.jobs.head?.any (·.path = path) := by
      simp [Task.processes, hhead]
    rw [hop]
    simp only [System.jobsLeft, hzero, hone, Bool.false_eq_true, if_false]
    omega

end Jobs

/-! ## The invariant -/

/-- The invariant: at most one job of each path is outstanding; while one is, a `READY` record of
the path is one whose job a handler has just put; and no two records of a path are `READY`. -/
structure ReadyExclusive (cfg : Settings) (s : System) : Prop where
  consistent : ∀ t ∈ s.tasks, t.Consistent cfg
  one : OneJobEach s
  window : ∀ id, s.IsReady id →
    s.outstanding (s.manager.heap id).filePath = 0 ∨ ∃ t ∈ s.tasks, t.addsJob id = true
  exclusive : ∀ i j, s.IsReady i → s.IsReady j →
    (s.manager.heap i).filePath = (s.manager.heap j).filePath → i = j

section Steps

variable {cfg : Settings} {s s' : System} {i now : ℕ} {env : Env} {id : FileId} {o : Op}

/-- A `READY` record was `READY` before the operation, or the operation made it so. -/
lemma isReady_before (hid : id ∈ (s.perform cfg now o).1.manager.files)
    (hst : ((s.perform cfg now o).1.manager.heap id).status = .ready) :
    s.IsReady id ∨ id ∈ s.manager.files ∧ (s.manager.heap id).status ≠ .ready ∧
      o.makesReady s.manager id = true := by
  rw [perform_fst] at hid hst
  have hfile : id ∈ s.manager.files := by
    rcases mem_files_perform hid with hfile | ⟨-, hdisc⟩
    · exact hfile.1
    · rw [hst] at hdisc; cases hdisc
  by_cases hbefore : (s.manager.heap id).status = .ready
  · exact .inl ⟨hfile, hbefore⟩
  · refine .inr ⟨hfile, hbefore, ?_⟩
    rcases status_perform_cases cfg s.manager now o id with
      hsame | ⟨-, hwr | ⟨-, -, -, hrem⟩ | ⟨ho, hwfs, hretry, -⟩⟩ | ⟨-, hdisc⟩
    · exact absurd (hsame.symm.trans hst) hbefore
    · simp [Op.makesReady, hwr, hst]
    · rw [hst] at hrem; cases hrem
    · simp [Op.makesReady, ho, hwfs, Option.isSome_iff_ne_none, hretry]
    · rw [hst] at hdisc; cases hdisc

/-- An operation makes only one record `READY`. -/
lemma eq_of_makesReady {m : StateManager} {i j : FileId} (hi : o.makesReady m i = true)
    (hj : o.makesReady m j = true) : i = j := by
  cases o with
  | call c =>
    cases c with
    | updateFileStatusById k st kwargs =>
      simp only [Op.makesReady, Op.writes] at hi hj
      grind
    | executeRetryTask k =>
      simp only [Op.makesReady, Op.writes] at hi hj
      grind
    | _ => simp [Op.makesReady, Op.writes] at hi
  | _ => simp [Op.makesReady, Op.writes] at hi

/-- The window of a task that has put its job: it runs no retry. -/
lemma not_retry_of_addsJob {t : Task} (h : t.addsJob id = true) :
    ∀ handle f p, t.point ≠ .retry handle f p := by
  intro handle f p hp
  have hhandles := (nextOp_of_addsJob {} h).2
  rw [hp] at hhandles
  cases hhandles

/-- A job is put for a `READY` record, and only when none of its path is outstanding. -/
lemma outstanding_of_put {t t' : Task} (job : QueueJob) (h : ReadyExclusive cfg s)
    (ht : s.tasks[i]? = some t) (hok : QueuesOnceTask cfg s t)
    (hgo : t.goOn cfg (s.view (s.perform cfg now (t.nextOp cfg)).1 now env)
      (s.perform cfg now (t.nextOp cfg)).1.published (s.perform cfg now (t.nextOp cfg)).2 = some t')
    (hput : t.point.put (s.view (s.perform cfg now (t.nextOp cfg)).1 now env) t'.point = some job) :
    s.IsReady job.file ∧ job.path = (s.manager.heap job.file).filePath ∧
      s.outstanding job.path = 0 := by
  obtain ⟨hhandles, -, hfile, hready, hpath, -⟩ :=
    put_goOn job (h.consistent t (List.mem_of_getElem? ht)) hgo hput
  refine ⟨⟨hfile, hready⟩, hpath, ?_⟩
  rcases h.window job.file ⟨hfile, hready⟩ with hzero | ⟨u, hu, hadds⟩
  · rw [hpath, hzero]
  · have hnone := hok.1 _ hhandles rfl ⟨hfile, hready⟩ u hu
    rw [hnone] at hadds
    cases hadds

/-- A lookup makes no record READY. -/
lemma makesReady_getFileById {m : StateManager} {f : FileId} :
    (Op.getFileById f).makesReady m id = false := by
  simp [Op.makesReady, Op.writes]

/-- **The step lemma.**

**Proof sketch.** A step puts at most one job, and this for a record that is READY and has no
outstanding job; so one job per path remains. The task that put it goes on to write IN_QUEUE,
which closes the window; where the task that runs was the one in the window, the record is no
longer READY. A record that becomes READY does so where its path has no outstanding job and no
other READY record. -/
lemma readyExclusive_run {t : Task} (h : ReadyExclusive cfg s) (ht : s.tasks[i]? = some t)
    (hok : QueuesOnceTask cfg s t) (hs : systemStep cfg s (.run i now env) = some s') :
    ReadyExclusive cfg s' := by
  have hconsistent := consistent_step h.consistent hs
  obtain ⟨t₀, t', ht₀, -, hgo, hs'⟩ := systemStep_run hs
  obtain rfl : t = t₀ := Option.some.inj (ht.symm.trans ht₀)
  have hcons := h.consistent t (List.mem_of_getElem? ht)
  have hcount : ∀ path, s'.outstanding path ≤ s.outstanding path +
      (t.point.put (s.view (s.perform cfg now (t.nextOp cfg)).1 now env) t'.point).toList.countP
        (·.path = path) :=
    fun path => outstanding_step ht hcons hgo (by rw [hs']) (by rw [hs'])
  have hputs := fun job => outstanding_of_put job h ht hok hgo
  have hputGoOn := fun job => put_goOn job hcons hgo
  have hmanager : s'.manager = (s.perform cfg now (t.nextOp cfg)).1.manager := by rw [hs']
  have hpath : ∀ id ∈ s.manager.files,
      (s'.manager.heap id).filePath = (s.manager.heap id).filePath := by
    intro id hid
    rw [hmanager, perform_fst]
    exact filePath_perform hid
  have hbefore : ∀ id, s'.IsReady id → s.IsReady id ∨ id ∈ s.manager.files ∧
      (s.manager.heap id).status ≠ .ready ∧ (t.nextOp cfg).makesReady s.manager id = true := by
    rintro id ⟨hid, hst⟩
    rw [hmanager] at hid hst
    exact isReady_before hid hst
  generalize hput : t.point.put (s.view (s.perform cfg now (t.nextOp cfg)).1 now env) t'.point = put
    at *
  refine ⟨hconsistent, fun path => ?one, fun id hid => ?window, fun a b ha hb hab => ?exclusive⟩
  case one =>
    have hle := hcount path
    have hone := h.one path
    cases put with
    | none => exact hle.trans hone
    | some job =>
      have hzero := (hputs job rfl).2.2
      by_cases hjob : job.path = path
      · rw [hjob] at hzero
        simpa [hjob, hzero] using hle
      · simp only [Option.toList_some, List.countP_singleton, hjob, decide_false,
          Bool.false_eq_true, if_false, Nat.add_zero] at hle
        exact hle.trans hone
  case window =>
    have hle := hcount (s'.manager.heap id).filePath
    rcases hbefore id hid with hready | ⟨hfile, hne, hmakes⟩
    · rw [hpath id hready.1] at hle ⊢
      by_cases hjob : ∃ job, put = some job ∧ job.path = (s.manager.heap id).filePath
      · -- the job is the one of `id` itself, and the task goes on to write `IN_QUEUE`
        obtain ⟨job, rfl, hjob⟩ := hjob
        obtain ⟨hjobReady, hjobPath, -⟩ := hputs job rfl
        obtain rfl := h.exclusive job.file id hjobReady hready (hjobPath.symm.trans hjob)
        have hadds := (hputGoOn job rfl).2.2.2.2.2
        refine .inr ⟨t', ?_, hadds⟩
        rw [hs']
        exact self_mem_tasks_step ht (not_retry_of_addsJob hadds)
      · have hnone : put.toList.countP (·.path = (s.manager.heap id).filePath) = 0 := by
          cases put with
          | none => rfl
          | some job => simpa using fun hj => hjob ⟨job, rfl, hj⟩
        rw [hnone, Nat.add_zero] at hle
        rcases h.window id hready with hzero | ⟨u, hu, hadds⟩
        · exact .inl (Nat.le_zero.mp (hzero ▸ hle))
        · obtain ⟨j, hj⟩ := List.mem_iff_getElem?.mp hu
          by_cases hji : j = i
          · -- it is the task that runs: it has written `IN_QUEUE`
            subst hji
            obtain rfl : t = u := Option.some.inj (ht.symm.trans hj)
            have hst := hid.2
            rw [hmanager, (nextOp_of_addsJob cfg hadds).1, perform_fst,
              status_perform rfl hready.1] at hst
            simp [Op.writes] at hst
          · refine .inr ⟨u, ?_, hadds⟩
            rw [hs']
            exact exists_tasks_step hji hj (not_retry_of_addsJob hadds)
    · have hzero := (hok.2 id hfile hne hmakes).1
      rw [hpath id hfile] at hle ⊢
      cases put with
      | none => exact .inl (Nat.le_zero.mp (hzero ▸ hle))
      | some job =>
        rw [(hputGoOn job rfl).2.1, makesReady_getFileById] at hmakes
        cases hmakes
  case exclusive =>
    rcases hbefore a ha with haReady | ⟨haFile, haNe, haMakes⟩ <;>
      rcases hbefore b hb with hbReady | ⟨hbFile, hbNe, hbMakes⟩
    · rw [hpath a haReady.1, hpath b hbReady.1] at hab
      exact h.exclusive a b haReady hbReady hab
    · rw [hpath a haReady.1, hpath b hbFile] at hab
      exact absurd hab ((hok.2 b hbFile hbNe hbMakes).2 a haReady.1 haReady.2)
    · rw [hpath a haFile, hpath b hbReady.1] at hab
      exact absurd hab.symm ((hok.2 a haFile haNe haMakes).2 b hbReady.1 hbReady.2)
    · exact eq_of_makesReady haMakes hbMakes

/-- One step keeps the exclusion, if it meets the condition. -/
lemma readyExclusive_step {a : SystemAction} (h : ReadyExclusive cfg s) (hok : QueuesOnce cfg s a)
    (hs : systemStep cfg s a = some s') : ReadyExclusive cfg s' := by
  by_cases ha : ∀ i now env, a ≠ .run i now env
  · obtain ⟨hmanager, htasks, hjobs⟩ := systemStep_of_ne_run hs ha
    have houtstanding : s'.outstanding = s.outstanding := by
      funext path
      rw [System.outstanding, System.outstanding, hjobs, htasks]
    refine ⟨htasks ▸ h.consistent, fun path => houtstanding ▸ h.one path, ?_, ?_⟩
    · simpa only [System.IsReady, hmanager, houtstanding, htasks] using h.window
    · simpa only [System.IsReady, hmanager] using h.exclusive
  · push Not at ha
    obtain ⟨i, now, env, rfl⟩ := ha
    obtain ⟨t, -, ht, -, -, -⟩ := systemStep_run hs
    exact readyExclusive_run h ht (hok t ht) hs

/-- At the start no record is READY. -/
lemma readyExclusive_start (n : ℕ) : ReadyExclusive cfg (.start n) where
  consistent := by
    intro t ht
    simp only [System.start, List.cons_append, List.nil_append, List.mem_cons,
      List.mem_replicate] at ht
    rcases ht with rfl | rfl | rfl | ⟨-, rfl⟩ <;> trivial
  one := by
    intro path
    simp [System.outstanding, System.start, List.countP_replicate, Task.processes,
      TaskPoint.job?, WorkerPoint.job?]
  window := fun id hid => by cases hid.1
  exclusive := fun a b ha => by cases ha.1

end Steps

/-! ## Runs -/

section Runs

variable {cfg : Settings} {s : System} {tr : List (System × SystemAction)} {n : ℕ}

/-- **One job for each path** in the runs whose steps all meet the condition: at every moment at
most one job of a path is in the queue or being processed by a worker.

**Proof sketch.** A job is put only for a record that is `READY`, and then, by the invariant, no job
of its path is outstanding: the record was made `READY` when none was, and none was put since. -/
theorem oneJobEach_of_queuesOnce (hrun : Run (systemStep cfg) (.start n) tr s)
    (hok : Meets (QueuesOnce cfg) tr) : OneJobEach s :=
  (hrun.invariant hok (readyExclusive_start n) fun _ _ _ => readyExclusive_step).one

/-- A small file that the scanner and the task of its event both handle, one after the other. -/
theorem oneJobEach_smallFile :
    ∃ tr s, Run (systemStep {}) (.start 1) tr s ∧ s.outstanding "/src/a.mxf" = 1 ∧
      OneJobEach s := by
  obtain ⟨s, hrun, hs⟩ := exists_run_of_replay (systemStep {}) (.start 1)
    (smallFile ++ scannerHandles ++ eventHandled)
    (fun s => decide (s.outstanding "/src/a.mxf" = 1)) (by decide +kernel)
  exact ⟨_, s, hrun, of_decide_eq_true hs, oneJobEach_of_queuesOnce hrun (by decide +kernel)⟩

/-- **Two jobs of one file**: the scanner has put the job, and before it writes `IN_QUEUE` the task
of the event finds the file `READY` too. -/
theorem ready_event_queued_twice :
    ∃ tr s, Run (systemStep {}) (.start 1) tr s ∧ s.outstanding "/src/a.mxf" = 2 ∧
      ¬ OneJobEach s := by
  obtain ⟨s, hrun, hs⟩ := exists_run_of_replay (systemStep {}) (.start 1)
    (smallFile ++ scannerHandles.take 4 ++ eventHandled)
    (fun s => decide (s.outstanding "/src/a.mxf" = 2)) (by decide +kernel)
  have htwo := of_decide_eq_true hs
  refine ⟨_, s, hrun, htwo, fun hone => ?_⟩
  have hle := hone "/src/a.mxf"
  omega

end Runs

end FileAgent

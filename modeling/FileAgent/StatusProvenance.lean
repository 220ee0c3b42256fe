import FileAgent.RecordHistory
import FileAgent.SourceDelivery

set_option relaxedAutoImplicit false
set_option autoImplicit false

/-!
# Who decided about a status

The status of a record is written by many: by the service that decides about it, by updates that
write the status they have read before, and by the state manager itself, which handles the events it
has published by writing their status once more. Only the first are decisions; the others repeat
one. So whatever the interleaving, the status of a record is one that a service has decided on for
this very record, and a status that is this service's to decide.

## Main definitions

* `Author`, `Author.decides` — the services, and the statuses each decides on.
* `Task.Decides` — a task is about to decide about the status of a record.
* `Decided` — a service has decided so in a run.
* `System.Paths` — jobs, workers and the records they copy are of one path.

## Main results

* `paths_run`, `provenance_run` — the step lemmas.
* `status_decided` — the status of a record has been decided on for it.
-/

namespace FileAgent

open Transition StateManager

/-! ## Decisions -/

/-- The services that decide about statuses: the growth detector, in the scanner and in its own
loop; `cleanup_missing_files`; the retries; `process_waiting_network_files`; `handle_file_ready`;
and the workers with `process_job`. -/
inductive Author
  | detector
  | cleanup
  | retry
  | recovery
  | jobQueue
  | worker
  deriving DecidableEq

/-- The statuses that a service decides on. -/
def Author.decides : Author → FileStatus → Bool
  | .detector, .discovered | .detector, .growing | .detector, .readyToStartGrowing
  | .detector, .ready | .detector, .failed | .detector, .removed => true
  | .cleanup, .removed => true
  | .retry, .ready => true
  | .recovery, .discovered => true
  | .jobQueue, .inQueue | .jobQueue, .waitingForNetwork => true
  | .worker, .copying | .worker, .growingCopy | .worker, .completed | .worker, .failed
  | .worker, .removed | .worker, .waitingForSpace | .worker, .spaceError
  | .worker, .waitingForNetwork => true
  | _, _ => false

/-- The step of the task decides that the record `id` gets the status: the scanner or the monitor
gives it the recommended one, a cleanup finds its file missing, a retry fires, a release takes it
from the list, `handle_file_ready` has put its job or parks it, or a worker with a job of its path
writes it. -/
inductive Task.Decides (cfg : Settings) (m : StateManager) (id : FileId) :
    Author → FileStatus → Task → Prop
  | publishes (st : FileStatus) (rest : List FileId) (phase : TaskPhase) :
      Decides cfg m id .detector st ⟨.scanner (.published id st rest), phase⟩
  | updates (st : FileStatus) (rest : List FileId) :
      Decides cfg m id .detector st ⟨.monitor (.update id st rest), .awaiting⟩
  | cleansUp (paths : List FilePath) (hid : id ∈ m.missingFiles paths) :
      Decides cfg m id .cleanup .removed ⟨.scanner (.cleanupMissing paths), .awaiting⟩
  | retries (handle : ℕ) (hst : (m.heap id).status = .waitingForSpace)
      (hretry : (m.heap id).retryInfo ≠ none) :
      Decides cfg m id .retry .ready ⟨.retry handle id .execute, .awaiting⟩
  | releases (rest : List FileId) :
      Decides cfg m id .recovery .discovered ⟨.storage (.release id rest), .awaiting⟩
  | queues (p : TaskPoint) (h : p.handles = some (id, .added)) :
      Decides cfg m id .jobQueue .inQueue ⟨p, .awaiting⟩
  | parks (p : TaskPoint) (h : p.handles = some (id, .park)) :
      Decides cfg m id .jobQueue .waitingForNetwork ⟨p, .awaiting⟩
  | works (st : FileStatus) (p : WorkerPoint) (job : QueueJob) (hjob : p.job? = some job)
      (hpath : m.HasPath id job.path) (hw : (p.op cfg).writes id = some st) :
      Decides cfg m id .worker st ⟨.worker p, .awaiting⟩

/-- The step is one in which a service decides on a status that is its own to decide. -/
def DecidedAt (cfg : Settings) (id : FileId) (st : FileStatus) (p : System × SystemAction) : Prop :=
  ∃ i now env, p.2 = .run i now env ∧ ∃ t ∈ p.1.tasks[i]?, ∃ author : Author,
    author.decides st = true ∧ t.Decides cfg p.1.manager id author st

/-- The record has never had another status than that of a new record, or the status was decided on
for it. -/
def Decided (cfg : Settings) (tr : List (System × SystemAction)) (id : FileId) (st : FileStatus) :
    Prop :=
  st = .discovered ∨ ∃ p ∈ tr, DecidedAt cfg id st p

/-! ## What the points write -/

section Points

variable {cfg : Settings} {view : View} {m m' : StateManager} {id : FileId} {st : FileStatus}

/-- The statuses a growth check recommends are the detector's to decide. -/
lemma decides_recommend (cfg : Settings) (c : GrowthCheck) :
    Author.detector.decides (c.recommend cfg) = true := by
  unfold GrowthCheck.recommend
  split_ifs <;> rfl

/-- What a growth check recommends is the detector's to decide. -/
lemma decides_recommends {f : FileId} {q : CheckPoint} {a : Answer}
    (h : q.after cfg view f a = some (.recommends st)) : Author.detector.decides st = true := by
  cases CheckPoint.next_of_after h with
  | tracked => rfl
  | decides c => exact decides_recommend cfg c
  | lost q a hst => rcases hst with rfl | rfl <;> rfl

/-- A growth check itself writes the status it has just read. -/
lemma check_writes {f : FileId} {q q' : CheckPoint} {a : Answer}
    (h : q.after cfg view f a = some (.goesOn q')) (hw : (q'.op f).writes id = some st) :
    st = (view.heap id).status := by
  cases CheckPoint.next_of_after h with
  | sized n =>
    unfold CheckPoint.sized at hw
    split at hw
    · simp only [CheckPoint.op, Op.writes] at hw
      split_ifs at hw with hid
      exact hid ▸ (Option.some.inj hw).symm
    · cases hw
  | present c =>
    simp only [CheckPoint.op, Op.writes] at hw
    split_ifs at hw with hid
    exact hid ▸ (Option.some.inj hw).symm
  | _ => cases hw

/-- What a worker writes is its own to decide.

**Proof sketch.** By cases on the transition: each point of a worker that writes names its status,
and a copy writes what `copyOp_writes` allows. All of them are among the statuses that a worker
decides on. -/
lemma decides_worker_after {p p' : WorkerPoint} {a : Answer} (h : p.after cfg view a = some p')
    (hw : (p'.op cfg).writes id = some st) : Author.worker.decides st = true := by
  have hupdate : ∀ {i : FileId} {st' : FileStatus} {kwargs : List Attr},
      Op.writes id (.call (.updateFileStatusById i st' kwargs)) = some st → st' = st := by
    intro i st' kwargs h
    simp only [Op.writes] at h
    split_ifs at h
    exact Option.some.inj h
  cases WorkerPoint.next_of_after h with
  | prepared job =>
    obtain rfl := hupdate hw
    rcases determineInitialStatus_cases (view.heap job.file) with hst | hst <;> rw [hst] <;> rfl
  | copies job dest q q' =>
    rcases WorkerPoint.afterCopy_cases view job dest q' with
      hc | hc | hc | ⟨st', reason, hst, hc⟩ <;> rw [hc] at hw
    · rcases WorkerPoint.copyOp_writes hw with rfl | rfl | ⟨rfl, -⟩ <;> rfl
    · cases hw
    · obtain rfl := hupdate hw
      rfl
    · obtain rfl := hupdate hw
      rcases hst with rfl | rfl <;> rfl
  | initialized => cases hw
  | _ =>
    first
    | cases hw
    | obtain rfl := hupdate hw
      rfl

/-- A worker writes to the record of its job, or to the one it copies. -/
lemma file_of_op_writes {p : WorkerPoint} (hw : (p.op cfg).writes id = some st) :
    ∃ job, p.job? = some job ∧
      (id = job.file ∨ ∃ dest q, p = .copy job dest q ∧ q.file? = some id) := by
  cases p with
  | copy job dest q =>
    refine ⟨job, rfl, .inr ⟨dest, q, rfl, ?_⟩⟩
    cases q <;>
      simp only [WorkerPoint.op, CopyPoint.request, WorkerPoint.copyOp, Op.writes] at hw <;>
      try cases hw
    all_goals
      split_ifs at hw with hid
      exact congrArg some hid
  | getNextJob => cases hw
  | incrementRetryCount job check => cases hw
  | scheduleRetry job check temporary => cases hw
  | _ =>
    simp only [WorkerPoint.op, Op.writes] at hw
    split_ifs at hw with hid
    exact ⟨_, rfl, .inl hid.symm⟩

/-- What `handle_file_ready` writes is the queue's to decide. -/
lemma handler_decides {p : TaskPoint} {f : FileId} {q : HandlerPoint}
    (hp : p.handles = some (f, q)) (hw : (q.op f).writes id = some st) :
    ∃ author : Author, author.decides st = true ∧
      Task.Decides cfg m id author st ⟨p, .awaiting⟩ := by
  cases q <;> simp only [HandlerPoint.op, Op.writes] at hw <;> try cases hw
  · split_ifs at hw with hid
    obtain rfl := Option.some.inj hw
    exact ⟨.jobQueue, rfl, .queues p (hid ▸ hp)⟩
  · split_ifs at hw with hid
    obtain rfl := Option.some.inj hw
    exact ⟨.jobQueue, rfl, .parks p (hid ▸ hp)⟩

/-- **What the scanner comes to write**: the status it has just read, or one it decides on. -/
lemma scanner_decides {p p' : ScannerPoint} {a : Answer} (h : p.after cfg view a = some p')
    (hw : ((Task.arrive view.heap (.scanner p')).nextOp cfg).writes id = some st) :
    st = (view.heap id).status ∨ ∃ author : Author, author.decides st = true ∧
      (Task.arrive view.heap (.scanner p')).Decides cfg m id author st := by
  cases ScannerPoint.next_of_after h with
  | checks f q q' rest hcheck => exact .inl (check_writes hcheck hw)
  | publishes f q st' rest hcheck =>
    simp only [Task.arrive, TaskPoint.publishes, ScannerPoint.publishes, Task.nextOp,
      Op.writes] at hw
    split_ifs at hw with hid
    obtain rfl := Option.some.inj hw
    exact .inr ⟨.detector, decides_recommends hcheck, hid ▸ .publishes st' rest _⟩
  | resizes f =>
    simp only [Task.arrive, TaskPoint.publishes, ScannerPoint.publishes, Task.nextOp,
      TaskPoint.op, ScannerPoint.op, Op.writes] at hw
    split_ifs at hw with hid
    exact .inl (hid ▸ (Option.some.inj hw).symm)
  | growthRead f =>
    simp only [Task.arrive, TaskPoint.publishes, ScannerPoint.publishes, Task.nextOp,
      TaskPoint.op, ScannerPoint.op, Op.writes] at hw
    split_ifs at hw with hid
    exact .inl (hid ▸ (Option.some.inj hw).symm)
  | handling f q q' rest => exact .inr (handler_decides rfl hw)
  | _ => first | cases hw | simp at hw

/-- **What a task that is no worker comes to write**: the status it has just read, or one it decides
on.

**Proof sketch.** By cases on the task. The scanner is `scanner_decides`, the handler
`handler_decides`. The monitor writes on what a check recommends, or back what it has read; the
storage check releases. Retries and finished tasks write nothing here. -/
lemma after_decides {p p' : TaskPoint} {a : Answer} (h : p.after cfg view a = some p')
    (hp' : ∀ q, p' ≠ .worker q)
    (hw : ((Task.arrive view.heap p').nextOp cfg).writes id = some st) :
    st = (view.heap id).status ∨ ∃ author : Author, author.decides st = true ∧
      (Task.arrive view.heap p').Decides cfg m id author st := by
  cases TaskPoint.next_of_after h with
  | scanner p q hq => exact scanner_decides hq hw
  | monitor p q hq =>
    cases MonitorPoint.next_of_after hq with
    | checks f c c' rest hcheck => exact .inl (check_writes hcheck hw)
    | updates f c st' rest hcheck =>
      simp only [Task.arrive, TaskPoint.publishes, Task.nextOp, TaskPoint.op, MonitorPoint.op,
        Op.writes] at hw
      split_ifs at hw with hid
      obtain rfl := Option.some.inj hw
      exact .inr ⟨.detector, decides_recommends hcheck, hid ▸ .updates st' rest⟩
    | _ => first | cases hw | simp at hw
  | storage p q =>
    cases q with
    | release f rest =>
      simp only [Task.arrive, TaskPoint.publishes, Task.nextOp, TaskPoint.op, StoragePoint.op,
        Op.writes] at hw
      split_ifs at hw with hid
      obtain rfl := Option.some.inj hw
      exact .inr ⟨.recovery, rfl, hid ▸ .releases rest⟩
    | _ => cases hw
  | worker q q' => exact absurd rfl (hp' q')
  | retry handle f p q => cases q <;> cases hw
  | handles f q q' => exact .inr (handler_decides rfl hw)
  | _ => cases hw

/-- A decision stays one while the paths of the records stay. -/
lemma decides_mono {t : Task} {author : Author} (h : t.Decides cfg m id author st)
    (hw : (t.nextOp cfg).writes id = some st)
    (hle : ∀ path, m.HasPath id path → m'.HasPath id path) : t.Decides cfg m' id author st := by
  cases h with
  | publishes st rest phase => exact .publishes st rest phase
  | updates st rest => exact .updates st rest
  | cleansUp paths => cases hw
  | retries handle => cases hw
  | releases rest => exact .releases rest
  | queues p hp => exact .queues p hp
  | parks p hp => exact .parks p hp
  | works st p job hjob hpath hop => exact .works st p job hjob (hle _ hpath) hop

end Points

/-! ## Jobs, workers and paths -/

/-- Tasks are consistent, the jobs in the queue and those of the workers are of their paths, and so
are the records that are copied. -/
structure System.Paths (cfg : Settings) (s : System) : Prop where
  consistent : ∀ t ∈ s.tasks, t.Consistent cfg
  jobs : ∀ job ∈ s.jobs, s.manager.HasPath job.file job.path
  sound : ∀ t ∈ s.tasks, ∀ p, t.point = .worker p → p.Sound s.manager

section Paths

variable {cfg : Settings} {s s' : System} {i now : ℕ} {env : Env} {t t' : Task}

/-- New tasks are no workers. -/
lemma not_worker_of_created {m : StateManager} {o : Op} {sec : Section} {u : Task}
    (h : u ∈ System.created m o sec) (p : WorkerPoint) : u.point ≠ .worker p := by
  rcases created_cases h with ⟨ev, -, rfl⟩ | ⟨f, rfl⟩
  · cases ev <;> exact fun hp => by cases hp
  · exact fun hp => by cases hp

/-- A worker goes on with a job of its path and with a record of that path.

**Proof sketch.** Its job is the one it had or the first of the queue (`job?_goOn`), and both have
the path of their record. A record that it copies is the job's or was found by the path of the job
(`copies_after`). -/
lemma soundWorker_goOn (h : s.Paths cfg) (ht : s.tasks[i]? = some t)
    (hgo : t.goOn cfg (s.view (s.perform cfg now (t.nextOp cfg)).1 now env)
      (s.perform cfg now (t.nextOp cfg)).1.published (s.perform cfg now (t.nextOp cfg)).2 = some t')
    {p' : WorkerPoint} (hp' : t'.point = .worker p') : p'.Sound s.manager := by
  have hmem : t ∈ s.tasks := List.mem_of_getElem? ht
  have hjobs : ∀ job ∈ p'.job?, s.manager.HasPath job.file job.path := by
    intro job hjob
    replace hjob : t'.point.job? = some job := by rw [hp']; exact hjob
    rcases job?_goOn (h.consistent t hmem) hgo with hnone | hsame | ⟨-, -, hhead⟩
    · rw [hnone] at hjob
      cases hjob
    · rw [hsame] at hjob
      unfold TaskPoint.job? at hjob
      split at hjob
      · exact (h.sound t hmem _ ‹_›).job job hjob
      · cases hjob
    · rw [hhead] at hjob
      exact h.jobs job (List.mem_of_head? hjob)
  refine ⟨hjobs, ?_⟩
  rcases point_goOn hgo with hsame | ⟨b, hafter, hb⟩
  · exact (h.sound t hmem p' (hsame ▸ hp')).copies
  · obtain ⟨p, hp, hpafter⟩ := worker_before hafter hp'
    have hsound := h.sound t hmem p hp
    refine copies_after hsound.copies hpafter hsound.job fun job hjob f hf => ?_
    rw [← hp] at hjob
    have hfound := getFileByPath_some (found_of_looksUp (h.consistent t hmem) hjob hb hf)
    exact ⟨s.manager.repo.files_lt f hfound.1, hfound.2.1⟩

/-- **The step lemma** for the paths. -/
lemma paths_run (h : s.Paths cfg) (hs : systemStep cfg s (.run i now env) = some s') :
    s'.Paths cfg := by
  have hmono : ∀ id q, s.manager.HasPath id q → s'.manager.HasPath id q :=
    fun _ _ => hasPath_step hs
  have hconsistent := consistent_step h.consistent hs
  obtain ⟨t, t', ht, -, hgo, rfl⟩ := systemStep_run hs
  have hmem : t ∈ s.tasks := List.mem_of_getElem? ht
  refine ⟨hconsistent, fun job hjob => ?_, fun u hu p hp => ?_⟩
  · rcases List.mem_append.mp hjob with hleft | hput
    · exact hmono _ _ (h.jobs job (mem_of_mem_jobsLeft hleft))
    · obtain ⟨-, -, hfile, -, hpath, -⟩ :=
        put_goOn job (h.consistent t hmem) hgo (Option.mem_toList.mp hput)
      exact hmono _ _ ⟨s.manager.repo.files_lt _ hfile, hpath.symm⟩
  · rcases mem_tasks_step hu with rfl | rfl | hnew | ⟨j, -, hj⟩
    · exact sound_mono (soundWorker_goOn h ht hgo hp) hmono
    · cases hp
    · exact absurd hp (not_worker_of_created hnew p)
    · exact sound_mono (h.sound u (List.mem_of_getElem? hj) p hp) hmono

/-- One step keeps every task on its path. -/
lemma paths_step {a : SystemAction} (h : s.Paths cfg) (hs : systemStep cfg s a = some s') :
    s'.Paths cfg := by
  by_cases ha : ∀ i now env, a ≠ .run i now env
  · obtain ⟨hmanager, htasks, hjobs⟩ := systemStep_of_ne_run hs ha
    refine ⟨?_, ?_, ?_⟩
    · rw [htasks]
      exact h.consistent
    · rw [hjobs, hmanager]
      exact h.jobs
    · rw [htasks, hmanager]
      exact h.sound
  · push Not at ha
    obtain ⟨i, now, env, rfl⟩ := ha
    exact paths_run h hs

/-- At the start nothing is written, and the workers have no job. -/
lemma start_tasks (cfg : Settings) {n : ℕ} (ht : t ∈ (System.start n).tasks) :
    t.phase = .awaiting ∧ (∀ p, t.point = .worker p → p = .getNextJob) ∧
      ∀ id, (t.nextOp cfg).writes id = none := by
  simp only [System.start, List.cons_append, List.nil_append, List.mem_cons,
    List.mem_replicate] at ht
  rcases ht with rfl | rfl | rfl | ⟨-, rfl⟩
  · exact ⟨rfl, (fun _ hp => by cases hp), fun _ => rfl⟩
  · exact ⟨rfl, (fun _ hp => by cases hp), fun _ => rfl⟩
  · exact ⟨rfl, (fun _ hp => by cases hp), fun _ => rfl⟩
  · exact ⟨rfl, (fun p hp => (TaskPoint.worker.inj hp).symm), fun _ => rfl⟩

/-- At the start every task is on its path. -/
lemma paths_start (n : ℕ) : (System.start n).Paths cfg where
  consistent := by
    intro t ht
    simp only [Task.Consistent, (start_tasks cfg ht).1]
  jobs := fun _ h => by cases h
  sound := by
    intro t ht p hp
    rw [(start_tasks cfg ht).2.1 p hp]
    exact ⟨(fun _ h => by cases h), trivial⟩

end Paths

/-! ## The invariant -/

/-- Every status is decided, and whatever a task is about to write is decided, or about to be. -/
structure Provenance (cfg : Settings) (tr : List (System × SystemAction)) (s : System) : Prop where
  paths : s.Paths cfg
  statuses : ∀ id, Decided cfg tr id (s.manager.heap id).status
  writes : ∀ t ∈ s.tasks, ∀ id st, (t.nextOp cfg).writes id = some st →
    Decided cfg tr id st ∨ ∃ author : Author, author.decides st = true ∧
      t.Decides cfg s.manager id author st

section Invariant

variable {cfg : Settings} {s s' : System} {tr : List (System × SystemAction)} {i now n : ℕ}
  {env : Env} {t t' : Task} {id : FileId} {st : FileStatus}

/-- A decision once made stays made. -/
lemma decided_append {tr' : List (System × SystemAction)} (h : Decided cfg tr id st) :
    Decided cfg (tr ++ tr') id st := by
  rcases h with h | ⟨p, hp, hd⟩
  · exact .inl h
  · exact .inr ⟨p, List.mem_append_left _ hp, hd⟩

/-- A decision is part of the run from its step on. -/
lemma decided_of_decides (author : Author) (ht : s.tasks[i]? = some t)
    (hst : author.decides st = true) (h : t.Decides cfg s.manager id author st) :
    Decided cfg (tr ++ [(s, .run i now env)]) id st :=
  .inr ⟨_, List.mem_append_right _ (List.mem_singleton.mpr rfl), i, now, env, rfl, t, ht, author,
    hst, h⟩

/-- What the task that runs writes has been decided after its step. -/
lemma decided_of_writes (h : Provenance cfg tr s) (ht : s.tasks[i]? = some t)
    (hw : (t.nextOp cfg).writes id = some st) :
    Decided cfg (tr ++ [(s, .run i now env)]) id st := by
  rcases h.writes t (List.mem_of_getElem? ht) id st hw with hd | ⟨author, hst, hd⟩
  · exact decided_append hd
  · exact decided_of_decides author ht hst hd

/-- **The status of a record after a step** is the one before it, or decided by then. -/
lemma statuses_run (h : Provenance cfg tr s) (hs : systemStep cfg s (.run i now env) = some s') :
    Decided cfg (tr ++ [(s, .run i now env)]) id (s'.manager.heap id).status := by
  obtain ⟨t, t', ht, -, -, rfl⟩ := systemStep_run hs
  dsimp only
  rw [perform_fst]
  rcases status_perform_cases cfg s.manager now (t.nextOp cfg) id with
    hsame | ⟨hid, hw | ⟨paths, hop, hmissing, hrem⟩ | ⟨hop, hst, hretry, hready⟩⟩ | ⟨-, hdisc⟩
  · rw [hsame]
    exact decided_append (h.statuses id)
  · exact decided_of_writes h ht hw
  · rw [hrem]
    cases calls_of_nextOp hop
    exact decided_of_decides .cleanup ht rfl (.cleansUp paths hmissing)
  · rw [hready]
    cases calls_of_nextOp hop with
    | executeRetry handle _ => exact decided_of_decides .retry ht rfl (.retries handle hst hretry)
  · exact .inl hdisc

/-- **What the task that ran is about to write** has been decided, or it decides on it.

**Proof sketch.** A worker writes to a record of the path of its job, and decides on the status
itself. Another task writes what it has read, which was decided before the step, or decides
(`after_decides`). An event announces what the task has written. -/
lemma writes_run (h : Provenance cfg tr s) (ht : s.tasks[i]? = some t)
    (hs : systemStep cfg s (.run i now env) = some s')
    (hmanager : s'.manager = (s.perform cfg now (t.nextOp cfg)).1.manager)
    (hgo : t.goOn cfg (s.view (s.perform cfg now (t.nextOp cfg)).1 now env)
      (s.perform cfg now (t.nextOp cfg)).1.published (s.perform cfg now (t.nextOp cfg)).2 = some t')
    (hw : (t'.nextOp cfg).writes id = some st) :
    Decided cfg (tr ++ [(s, .run i now env)]) id st ∨ ∃ author : Author, author.decides st = true ∧
      t'.Decides cfg s'.manager id author st := by
  rcases goOn_cases hgo with ⟨b, p', hafter, rfl, -⟩ | ⟨e, b, hpub, rfl, -⟩ | ⟨e, b, -, rfl⟩
  · by_cases hp' : ∃ q, p' = .worker q
    · obtain ⟨q, rfl⟩ := hp'
      -- a worker writes to a record of the path of its job
      have hsound : q.Sound s.manager := soundWorker_goOn h.paths ht hgo rfl
      obtain ⟨p, hp, hpafter⟩ := worker_before hafter rfl
      obtain ⟨job, hjob, hfile⟩ := file_of_op_writes hw
      have hrecord : s.manager.HasPath id job.path := by
        rcases hfile with rfl | ⟨dest, c, rfl, hc⟩
        · exact hsound.job job hjob
        · cases hjob
          exact hsound.copies id hc
      exact .inr ⟨.worker, decides_worker_after hpafter hw,
        .works st q job hjob (hasPath_step hs hrecord) hw⟩
    · push Not at hp'
      rcases after_decides (m := s'.manager) hafter hp' hw with rfl | hd
      · left
        have hstatus : Decided cfg _ id (s'.manager.heap id).status := statuses_run h hs
        rw [hmanager] at hstatus
        exact hstatus
      · exact .inr hd
  · -- the event announces what the task has written
    rw [perform_fst] at hpub
    have hwrites := (published_perform hpub).2
    simp only [Task.nextOp, Op.writes] at hw
    split_ifs at hw with hid
    obtain rfl := Option.some.inj hw
    exact .inl (decided_of_writes h ht (hid ▸ hwrites))
  · cases hw

/-- New tasks write the status of a new record. -/
lemma writes_created {m : StateManager} {o : Op} {u : Task}
    (hu : u ∈ System.created m o (m.perform cfg now o).1)
    (hw : (u.nextOp cfg).writes id = some st) : st = .discovered := by
  rcases created_perform_cases hu with ⟨e, rfl⟩ | ⟨path, rfl⟩ | ⟨f, rfl⟩
  · cases hw
  · simp only [Task.nextOp, Op.writes] at hw
    split_ifs at hw
    exact (Option.some.inj hw).symm
  · cases hw

/-- **The step lemma.** -/
lemma provenance_run (h : Provenance cfg tr s)
    (hs : systemStep cfg s (.run i now env) = some s') :
    Provenance cfg (tr ++ [(s, .run i now env)]) s' := by
  refine ⟨paths_step h.paths hs, fun id => statuses_run h hs, fun u hu id st hw => ?_⟩
  obtain ⟨t, t', ht, -, hgo, hs'⟩ := systemStep_run hs
  rw [hs'] at hu
  rcases mem_tasks_step hu with rfl | rfl | hnew | ⟨j, -, hj⟩
  · exact writes_run h ht hs (by rw [hs']) hgo hw
  · cases hw
  · rw [perform_fst] at hnew
    exact .inl (.inl (writes_created hnew hw))
  · rcases h.writes u (List.mem_of_getElem? hj) id st hw with hd | ⟨author, hst, hd⟩
    · exact .inl (decided_append hd)
    · exact .inr ⟨author, hst, decides_mono hd hw fun _ => hasPath_step hs⟩

/-- One step keeps the provenance of every status. -/
lemma provenance_step {a : SystemAction} (h : Provenance cfg tr s)
    (hs : systemStep cfg s a = some s') : Provenance cfg (tr ++ [(s, a)]) s' := by
  by_cases ha : ∀ i now env, a ≠ .run i now env
  · obtain ⟨hmanager, htasks, -⟩ := systemStep_of_ne_run hs ha
    refine ⟨paths_step h.paths hs, fun id => ?_, fun t ht id st hw => ?_⟩
    · rw [hmanager]
      exact decided_append (h.statuses id)
    · rw [htasks] at ht
      rw [hmanager]
      exact (h.writes t ht id st hw).imp_left decided_append
  · push Not at ha
    obtain ⟨i, now, env, rfl⟩ := ha
    exact provenance_run h hs

/-- At the start no status has been decided. -/
lemma provenance_start : Provenance cfg [] (.start n) where
  paths := paths_start n
  statuses := fun _ => .inl rfl
  writes := by
    intro t ht id st hw
    rw [(start_tasks cfg ht).2.2 id] at hw
    cases hw

/-- Every status has a provenance after every run. -/
lemma provenance_of_run (hrun : Run (systemStep cfg) (.start n) tr s) : Provenance cfg tr s := by
  have hok : Meets (fun _ _ => True) tr := fun _ _ => trivial
  exact hrun.invariant_trace hok provenance_start fun _ _ _ _ h _ hs => provenance_step h hs

/-- **Every status was decided on**: in every run of the program, the status of a record is that of
a new record, or at an earlier step of the run a service decided that this record gets it, and the
status is one that this service decides on. In particular handling an event never gives a record a
status that was not decided on for it, however late it is handled, and only a worker with a job of
its path makes a record `COPYING`, `GROWING_COPY`, `COMPLETED`, `WAITING_FOR_SPACE` or
`SPACE_ERROR`.

**Proof sketch.** What a task writes it has just read, or has decided on when it came to its point,
or it is the status of an event, and that was written by the task that published it. So with every
status also everything about to be written is decided on. -/
theorem status_decided (hrun : Run (systemStep cfg) (.start n) tr s) (id : FileId) :
    Decided cfg tr id (s.manager.heap id).status :=
  (provenance_of_run hrun).statuses id

/-- The status `COMPLETED` of a file that has been copied. -/
theorem status_decided_completed :
    ∃ tr s, Run (systemStep {}) (.start 1) tr s ∧ (s.manager.heap 0).status = .completed ∧
      Decided {} tr 0 (s.manager.heap 0).status := by
  obtain ⟨s, hrun, hs⟩ := exists_run_of_replay (systemStep {}) (.start 1)
    (fileQueued ++ copyFile 30000000 .done) (fun s => (s.manager.heap 0).status = .completed)
    (by decide +kernel)
  exact ⟨_, s, hrun, of_decide_eq_true hs, status_decided hrun 0⟩

end Invariant

end FileAgent

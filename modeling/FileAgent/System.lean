import FileAgent.BackgroundTasks
import FileAgent.FileScanner
import FileAgent.Library.Run
import FileAgent.Worker

set_option relaxedAutoImplicit false
set_option autoImplicit false

/-!
# The system

All coroutines on one event loop: the scanner, the monitor of growing files, the workers, the checks
of the destination, and the tasks created on the way (retries, and events published in a task of
their own). A step runs one task: the section it awaits, and, if nothing is published, the code up
to its next await. The handler of a published event is awaited before the task goes on.

## Main definitions

* `TaskPoint`, `Task` — a suspended task.
* `TaskPoint.Next` — the transitions of a task.
* `System`, `SystemAction`, `systemStep` — the system.

## Main results

* `TaskPoint.next_of_after` — what the code between two awaits does.
* `calls_of_nextOp` — which task makes a call of the state manager.
* `systemStep_run` — what a step of a task does.
* `mem_tasks_step`, `exists_tasks_step` — the tasks after a step.
* `created_cases`, `created_perform_cases` — the new tasks.
-/

namespace FileAgent

open StateManager

/-! ## Tasks -/

/-- Where a task is suspended. -/
inductive TaskPoint
  | scanner (p : ScannerPoint)
  | monitor (p : MonitorPoint)
  | worker (p : WorkerPoint)
  | storage (p : StoragePoint)
  | retry (handle : ℕ) (f : FileId) (p : RetryPoint)
  /-- A task that is to publish a `FileReadyEvent`. -/
  | fileReady (e : FileReadyEvent)
  | handleFileReady (f : FileId) (p : HandlerPoint)
  | finished

namespace TaskPoint

/-- The operation a task awaits. -/
def op (cfg : Settings) : TaskPoint → Op
  | scanner p => p.op cfg
  | monitor p => p.op
  | worker p => p.op cfg
  | storage p => p.op
  | retry _ f p => p.op f
  | handleFileReady f p => p.op f
  | fileReady _ | finished => .io

/-- The code between two awaits. -/
def after (cfg : Settings) (view : View) : TaskPoint → Answer → Option TaskPoint
  | scanner p, a => (p.after cfg view a).map scanner
  | monitor p, a => (p.after cfg view a).map monitor
  | worker p, a => (p.after cfg view a).map worker
  | storage p, a => (p.after view a).map storage
  | retry handle f p, a => (p.after a).map (retry handle f)
  | fileReady e, _ =>
    some (if view.readySubscribed then handleFileReady e.fileId .getFileById else finished)
  | handleFileReady f p, a => (p.after view f a).map (handleFileReady f)
  | finished, _ => none

/-- The event a task publishes itself between two awaits. -/
def publishes (heap : FileId → TrackedFile) : TaskPoint → Option FileStatusChangedEvent
  | scanner p => p.publishes heap
  | _ => none

/-- The job a task puts into the queue between two awaits. -/
def put (view : View) : TaskPoint → TaskPoint → Option QueueJob
  | handleFileReady f p, handleFileReady _ p' => p.put view f p'
  | scanner (.ready f p _), scanner (.ready _ p' _) => p.put view f p'
  | _, _ => none

/-- The transitions of a task. -/
inductive Next (cfg : Settings) (view : View) : TaskPoint → Answer → TaskPoint → Prop
  | scanner {a : Answer} (p p' : ScannerPoint) (h : p.after cfg view a = some p') :
      Next cfg view (scanner p) a (scanner p')
  | monitor {a : Answer} (p p' : MonitorPoint) (h : p.after cfg view a = some p') :
      Next cfg view (monitor p) a (monitor p')
  | worker {a : Answer} (p p' : WorkerPoint) (h : p.after cfg view a = some p') :
      Next cfg view (worker p) a (worker p')
  | storage {a : Answer} (p p' : StoragePoint) (h : p.after view a = some p') :
      Next cfg view (storage p) a (storage p')
  | retry {a : Answer} (handle : ℕ) (f : FileId) (p p' : RetryPoint) (h : p.after a = some p') :
      Next cfg view (retry handle f p) a (retry handle f p')
  | delivered (e : FileReadyEvent) (a : Answer) (hsubscribed : view.readySubscribed = true) :
      Next cfg view (fileReady e) a (handleFileReady e.fileId .getFileById)
  | ignored (e : FileReadyEvent) (a : Answer) : Next cfg view (fileReady e) a finished
  | handles {a : Answer} (f : FileId) (p p' : HandlerPoint) (h : p.after view f a = some p') :
      Next cfg view (handleFileReady f p) a (handleFileReady f p')

/-- **What the code between two awaits does.** -/
theorem next_of_after {cfg : Settings} {view : View} {p p' : TaskPoint} {a : Answer}
    (h : p.after cfg view a = some p') : Next cfg view p a p' := by
  cases p with
  | fileReady e =>
    obtain rfl := Option.some.inj h
    split_ifs with hsubscribed
    · exact .delivered e a hsubscribed
    · exact .ignored e a
  | finished => cases h
  | _ =>
    obtain ⟨q, hq, rfl⟩ := Option.map_eq_some_iff.mp h
    constructor
    exact hq

end TaskPoint

/-- The job that a task processes. -/
def TaskPoint.job? : TaskPoint → Option QueueJob
  | .worker p => p.job?
  | _ => none

/-- The handler that a task runs, and the file of its event. -/
def TaskPoint.handles : TaskPoint → Option (FileId × HandlerPoint)
  | .handleFileReady f p => some (f, p)
  | .scanner (.ready f p _) => some (f, p)
  | _ => none

/-- What a task waits for: its operation, the handler of an event (and then it has the answer to its
operation), or nothing. -/
inductive TaskPhase
  | awaiting
  | publishing (e : FileStatusChangedEvent) (answer : Answer)
  | answered (answer : Answer)

/-- A suspended task. -/
structure Task where
  point : TaskPoint
  phase : TaskPhase := .awaiting

namespace Task

/-- The operation of the next step. -/
def nextOp (cfg : Settings) (t : Task) : Op :=
  match t.phase with
  | .awaiting => t.point.op cfg
  | .publishing e _ => .call (.updateFileStatusById e.fileId e.newStatus [])
  | .answered _ => .io

/-- A task that comes to a point. -/
def arrive (heap : FileId → TrackedFile) (p : TaskPoint) : Task where
  point := p
  phase :=
    match p.publishes heap with
    | some e => .publishing e .io
    | none => .awaiting

/-- The task after its operation. -/
def goOn (cfg : Settings) (view : View) (t : Task) (published : Option FileStatusChangedEvent)
    (answer : Answer) : Option Task :=
  match t.phase, published with
  | .awaiting, none => (t.point.after cfg view answer).map (Task.arrive view.heap)
  | .awaiting, some e => some { t with phase := .publishing e answer }
  | .publishing _ a, none => some { t with phase := .answered a }
  | .publishing _ a, some e => some { t with phase := .publishing e a }
  | .answered a, _ => (t.point.after cfg view a).map (Task.arrive view.heap)

/-- The task has put the job of `id` into the queue and is about to write `IN_QUEUE`. -/
def addsJob (id : FileId) (t : Task) : Bool :=
  match t.phase with
  | .awaiting => t.point.handles = some (id, .added)
  | _ => false

/-- The answer a task holds while a handler runs is one to its own operation. -/
def Consistent (cfg : Settings) (t : Task) : Prop :=
  match t.phase with
  | .awaiting => True
  | .publishing _ a | .answered a =>
    match t.point.op cfg with
    | .call _ => ∃ n, a = .done n
    | .io => a = .io
    | _ => False

/-- The calls of the state manager, by the tasks that make them. Each of them but the update of a
status belongs to one point. -/
inductive Calls (cfg : Settings) : Task → ServiceCall → Prop
  | addFile (path : FilePath) (size : ℕ) (lastWriteTime : Option ℕ) (rest : List FilePath) :
      Calls cfg ⟨.scanner (.addFile path size lastWriteTime rest), .awaiting⟩
        (.addFile path size lastWriteTime)
  | cleanupMissing (paths : List FilePath) :
      Calls cfg ⟨.scanner (.cleanupMissing paths), .awaiting⟩ (.cleanupMissingFiles paths)
  | cleanupOld :
      Calls cfg ⟨.scanner .cleanupOld, .awaiting⟩ (.cleanupOldFiles cfg.keepFilesHours)
  | incrementRetryCount (job : QueueJob) (check : SpaceCheckResult) :
      Calls cfg ⟨.worker (.incrementRetryCount job check), .awaiting⟩
        (.incrementRetryCount job.file)
  | scheduleRetry (job : QueueJob) (check : SpaceCheckResult) (temporary : Bool) :
      Calls cfg ⟨.worker (.scheduleRetry job check temporary), .awaiting⟩
        (.scheduleRetry job.file (WorkerPoint.retryDelay cfg temporary)
          (WorkerPoint.retryReason check temporary))
  | executeRetry (handle : ℕ) (f : FileId) :
      Calls cfg ⟨.retry handle f .execute, .awaiting⟩ (.executeRetryTask f)
  | updates (t : Task) (id : FileId) (status : FileStatus) (kwargs : List Attr) :
      Calls cfg t (.updateFileStatusById id status kwargs)

/-- The task of an event whose publication is a task of its own. -/
def ofEvent : DomainEvent → Task
  | .fileStatusChanged e => { point := .finished, phase := .publishing e .io }
  | .fileReady e => { point := .fileReady e }

/-- `task.cancel()` of the retry tasks with the handles `cancelled`. -/
def cancel (cancelled : List ℕ) (t : Task) : Task :=
  match t.point with
  | .retry handle _ _ => if handle ∈ cancelled then { point := .finished } else t
  | _ => t

end Task

/-! ## The system -/

/-- The state of the program. -/
structure System where
  manager : StateManager
  jobs : List QueueJob := []
  /-- `start_producer` has created the queue, and `handle_file_ready` is subscribed. -/
  queueCreated : Bool := false
  readySubscribed : Bool := false
  destinationInfo : Option StorageInfo := none
  now : ℕ := 0
  tasks : List Task

/-- The start: the loops and `maxConcurrentCopies` workers. -/
def System.start (maxConcurrentCopies : ℕ) : System where
  manager := { repo := .empty }
  tasks :=
    [{ point := .scanner .discover }, { point := .monitor .getAllFiles },
      { point := .storage .check }] ++
    List.replicate maxConcurrentCopies { point := .worker .getNextJob }

/-- The steps: the queue is created and subscribes, or the task `i` runs at time `now`. -/
inductive SystemAction
  | createQueue
  | subscribe
  | run (i : ℕ) (now : ℕ) (env : Env)

namespace System

/-- The section and the answer of an operation. -/
def perform (cfg : Settings) (s : System) (now : ℕ) : Op → Section × Answer
  | .getNextJob => ({ manager := s.manager }, .job s.jobs.head?)
  | o => s.manager.perform cfg now o

/-- What a task reads after a section. -/
def view (s : System) (sec : Section) (now : ℕ) (env : Env) : View where
  heap := sec.manager.heap
  destinationInfo := s.destinationInfo
  queueCreated := s.queueCreated
  readySubscribed := s.readySubscribed
  now := now
  env := env

/-- The retry task that an operation creates. -/
def retryTask (m : StateManager) : Op → List Task
  | .call (.scheduleRetry f _ _) =>
    if f ∈ m.files then [{ point := .retry m.nextTask f .sleep }] else []
  | _ => []

/-- The tasks that an operation creates. -/
def created (m : StateManager) (o : Op) (sec : Section) : List Task :=
  sec.spawned.map Task.ofEvent ++ retryTask m o

/-- The jobs after an operation. -/
def jobsLeft (jobs : List QueueJob) : Op → List QueueJob
  | .getNextJob => jobs.tail
  | _ => jobs

/-- The information about the destination after a step of the task `t`. -/
def destinationAfter (s : System) (t : Task) (env : Env) : Option StorageInfo :=
  match t.point with
  | .storage .check => some env.newInfo
  | _ => s.destinationInfo

end System

/-- One step. -/
def systemStep (cfg : Settings) (s : System) : SystemAction → Option System
  | .createQueue => some { s with queueCreated := true }
  | .subscribe => if s.queueCreated then some { s with readySubscribed := true } else none
  | .run i now env =>
    match s.tasks[i]? with
    | none => none
    | some t =>
      let o := t.nextOp cfg
      let (sec, answer) := s.perform cfg now o
      let view := s.view sec now env
      if now < s.now then none
      else
        (t.goOn cfg view sec.published answer).map fun t' =>
          { s with
            manager := sec.manager
            jobs := System.jobsLeft s.jobs o ++ (t.point.put view t'.point).toList
            destinationInfo := s.destinationAfter t env
            now := now
            tasks := (s.tasks.set i t').map (Task.cancel sec.cancelled) ++
              System.created s.manager o sec }

/-! ## What a step does -/

section Lemmas

variable {cfg : Settings} {view : View} {s s' : System} {i now : ℕ} {env : Env}

/-- **What a step of a task does.** -/
theorem systemStep_run (h : systemStep cfg s (.run i now env) = some s') :
    ∃ t t', s.tasks[i]? = some t ∧ s.now ≤ now ∧
      t.goOn cfg (s.view (s.perform cfg now (t.nextOp cfg)).1 now env)
        (s.perform cfg now (t.nextOp cfg)).1.published (s.perform cfg now (t.nextOp cfg)).2 =
        some t' ∧
      s' = { s with
        manager := (s.perform cfg now (t.nextOp cfg)).1.manager
        jobs := System.jobsLeft s.jobs (t.nextOp cfg) ++
          (t.point.put (s.view (s.perform cfg now (t.nextOp cfg)).1 now env) t'.point).toList
        destinationInfo := s.destinationAfter t env
        now := now
        tasks := (s.tasks.set i t').map
            (Task.cancel (s.perform cfg now (t.nextOp cfg)).1.cancelled) ++
          System.created s.manager (t.nextOp cfg) (s.perform cfg now (t.nextOp cfg)).1 } := by
  simp only [systemStep] at h
  split at h
  · cases h
  · rename_i t ht
    split_ifs at h with hnow
    obtain ⟨t', hgo, hs'⟩ := Option.map_eq_some_iff.mp h
    exact ⟨t, t', ht, Nat.le_of_not_lt hnow, hgo, hs'.symm⟩

/-- The other steps touch neither the records nor the tasks nor the jobs. -/
lemma systemStep_of_ne_run {a : SystemAction} (h : systemStep cfg s a = some s')
    (ha : ∀ i now env, a ≠ .run i now env) :
    s'.manager = s.manager ∧ s'.tasks = s.tasks ∧ s'.jobs = s.jobs := by
  cases a with
  | createQueue => cases h; exact ⟨rfl, rfl, rfl⟩
  | subscribe =>
    simp only [systemStep] at h
    split_ifs at h
    cases h
    exact ⟨rfl, rfl, rfl⟩
  | run i now env => exact absurd rfl (ha i now env)

/-- Nor do they move the clock. -/
lemma now_of_ne_run {a : SystemAction} (h : systemStep cfg s a = some s')
    (ha : ∀ i now env, a ≠ .run i now env) : s'.now = s.now := by
  cases a with
  | createQueue => cases h; rfl
  | subscribe =>
    simp only [systemStep] at h
    split_ifs at h
    cases h
    rfl
  | run i now env => exact absurd rfl (ha i now env)

/-- What an operation of the system does to the records is what the StateManager does. -/
lemma perform_fst (o : Op) : (s.perform cfg now o).1 = (s.manager.perform cfg now o).1 := by
  cases o <;> rfl

/-- A task is left alone by a cancellation, or it is a timer and finished. -/
lemma cancel_eq (cancelled : List ℕ) (t : Task) :
    t.cancel cancelled = t ∨
      (∃ handle f p, t.point = .retry handle f p) ∧
        t.cancel cancelled = { point := .finished } := by
  unfold Task.cancel
  split
  · split_ifs
    · exact .inr ⟨⟨_, _, _, ‹_›⟩, rfl⟩
    · exact .inl rfl
  · exact .inl rfl

/-- **The tasks after a step**: the one that ran, the others at their places, and new ones; a
cancelled retry is finished. -/
lemma getElem?_tasks_step {t' u : Task} {j : ℕ} {cancelled : List ℕ} {new : List Task}
    (hu : ((s.tasks.set i t').map (Task.cancel cancelled) ++ new)[j]? = some u) :
    j = i ∧ u = t' ∨ u = { point := .finished } ∨ u ∈ new ∨ j ≠ i ∧ s.tasks[j]? = some u := by
  rw [List.getElem?_append] at hu
  split_ifs at hu with hj
  · rw [List.getElem?_map, Option.map_eq_some_iff] at hu
    obtain ⟨v, hv, rfl⟩ := hu
    rcases cancel_eq cancelled v with hc | ⟨-, hc⟩
    · rw [hc]
      rw [List.getElem?_set] at hv
      split_ifs at hv with hij
      · cases hv; exact .inl ⟨hij.symm, rfl⟩
      · exact .inr (.inr (.inr ⟨Ne.symm hij, hv⟩))
    · exact .inr (.inl hc)
  · exact .inr (.inr (.inl (List.mem_of_getElem? hu)))

@[inherit_doc getElem?_tasks_step]
lemma mem_tasks_step {t' u : Task} {cancelled : List ℕ} {new : List Task}
    (hu : u ∈ (s.tasks.set i t').map (Task.cancel cancelled) ++ new) :
    u = t' ∨ u = { point := .finished } ∨ u ∈ new ∨ ∃ j, j ≠ i ∧ s.tasks[j]? = some u := by
  obtain ⟨j, hj⟩ := List.mem_iff_getElem?.mp hu
  rcases getElem?_tasks_step hj with ⟨-, rfl⟩ | hfinished | hnew | hold
  · exact .inl rfl
  · exact .inr (.inl hfinished)
  · exact .inr (.inr (.inl hnew))
  · exact .inr (.inr (.inr ⟨j, hold⟩))

/-- A task other than the one that ran is still there, unless it is a retry. -/
lemma exists_tasks_step {t' u : Task} {j : ℕ} {cancelled : List ℕ} {new : List Task}
    (hj : j ≠ i) (hu : s.tasks[j]? = some u) (hretry : ∀ handle f p, u.point ≠ .retry handle f p) :
    u ∈ (s.tasks.set i t').map (Task.cancel cancelled) ++ new := by
  refine List.mem_append_left _ (List.mem_map.mpr ⟨u, ?_, ?_⟩)
  · refine List.mem_of_getElem? (i := j) ?_
    rw [List.getElem?_set_ne (Ne.symm hj), hu]
  · rcases cancel_eq cancelled u with hc | ⟨⟨handle, f, p, hp⟩, -⟩
    · exact hc
    · exact absurd hp (hretry handle f p)

/-- The task that ran is still there, unless it is a retry. -/
lemma self_mem_tasks_step {t t' : Task} {cancelled : List ℕ} {new : List Task}
    (ht : s.tasks[i]? = some t) (hretry : ∀ handle f p, t'.point ≠ .retry handle f p) :
    t' ∈ (s.tasks.set i t').map (Task.cancel cancelled) ++ new := by
  refine List.mem_append_left _ (List.mem_map.mpr ⟨t', ?_, ?_⟩)
  · exact List.mem_set (List.getElem?_eq_some_iff.mp ht).1 _
  · rcases cancel_eq cancelled t' with hc | ⟨⟨handle, f, p, hp⟩, -⟩
    · exact hc
    · exact absurd hp (hretry handle f p)

/-- **Who makes a call.**

**Proof sketch.** By cases on the point of the task, down to the points of the growth check, the
handler and the copy: each of them awaits one operation. The other operations of the state manager
are its queries. A task that delivers an event updates a status. -/
lemma calls_of_nextOp {t : Task} {c : ServiceCall} (h : t.nextOp cfg = .call c) :
    t.Calls cfg c := by
  obtain ⟨point, phase⟩ := t
  cases phase with
  | publishing e a => cases h; exact .updates _ _ _ _
  | answered a => cases h
  | awaiting =>
    cases point with
    | scanner p =>
      cases p with
      | addFile path size lastWriteTime rest => cases h; exact .addFile path size lastWriteTime rest
      | cleanupMissing paths => cases h; exact .cleanupMissing paths
      | cleanupOld => cases h; exact .cleanupOld
      | sizeChange | growthUpdate => cases h; exact .updates _ _ _ _
      | check f q rest => cases q <;> cases h <;> exact .updates _ _ _ _
      | ready f q rest => cases q <;> cases h <;> exact .updates _ _ _ _
      | _ => cases h
    | monitor p =>
      cases p with
      | check f q rest => cases q <;> cases h <;> exact .updates _ _ _ _
      | update f status rest => cases h; exact .updates _ _ _ _
      | _ => cases h
    | worker p =>
      cases p with
      | incrementRetryCount job check => cases h; exact .incrementRetryCount job check
      | scheduleRetry job check temporary => cases h; exact .scheduleRetry job check temporary
      | copy job dest q => cases q <;> cases h <;> exact .updates _ _ _ _
      | getNextJob => cases h
      | _ => cases h; exact .updates _ _ _ _
    | storage p => cases p <;> cases h; exact .updates _ _ _ _
    | retry handle f p => cases p <;> cases h; exact .executeRetry handle f
    | handleFileReady f p => cases p <;> cases h <;> exact .updates _ _ _ _
    | fileReady e => cases h
    | finished => cases h

/-- **How a task goes on**: its code runs from the answer just got, or from the one it held; or an
event is delivered first; or its last event has been delivered. -/
lemma goOn_cases {t t' : Task} {published : Option FileStatusChangedEvent} {a : Answer}
    (h : t.goOn cfg view published a = some t') :
    (∃ b p', t.point.after cfg view b = some p' ∧ t' = Task.arrive view.heap p' ∧
        (t.phase = .awaiting ∧ published = none ∧ b = a ∨ t.phase = .answered b)) ∨
      (∃ e b, published = some e ∧ t' = { t with phase := .publishing e b } ∧
        (t.phase = .awaiting ∨ ∃ e', t.phase = .publishing e' b)) ∨
      ∃ e b, t.phase = .publishing e b ∧ t' = { t with phase := .answered b } := by
  unfold Task.goOn at h
  split at h
  · obtain ⟨p', hp', rfl⟩ := Option.map_eq_some_iff.mp h
    exact .inl ⟨a, p', hp', rfl, .inl ⟨‹_›, rfl, rfl⟩⟩
  · cases h
    exact .inr (.inl ⟨_, _, rfl, rfl, .inl ‹_›⟩)
  · cases h
    exact .inr (.inr ⟨_, _, ‹_›, rfl⟩)
  · cases h
    exact .inr (.inl ⟨_, _, rfl, rfl, .inr ⟨_, ‹_›⟩⟩)
  · obtain ⟨p', hp', rfl⟩ := Option.map_eq_some_iff.mp h
    exact .inl ⟨_, p', hp', rfl, .inr ‹_›⟩

/-- **Where the point of a task comes from**: it is the same, or the code has run from the answer
just got, or from the one the task held. -/
lemma point_goOn {t t' : Task} {published : Option FileStatusChangedEvent} {a : Answer}
    (h : t.goOn cfg view published a = some t') :
    t'.point = t.point ∨ ∃ b, t.point.after cfg view b = some t'.point ∧
      (t.phase = .awaiting ∧ b = a ∨ t.phase = .answered b) := by
  rcases goOn_cases h with ⟨b, p', hafter, rfl, hphase⟩ | ⟨e, b, -, rfl, -⟩ | ⟨e, b, -, rfl⟩
  · refine .inr ⟨b, hafter, ?_⟩
    rcases hphase with ⟨hphase, -, rfl⟩ | hphase
    · exact .inl ⟨hphase, rfl⟩
    · exact .inr hphase
  · exact .inl rfl
  · exact .inl rfl

/-- A scan between two paths handles no event. -/
@[simp] lemma handles_nextPath (paths : List FilePath) :
    (TaskPoint.scanner (.nextPath paths)).handles = none := by
  cases paths <;> rfl

/-- A scan between two records handles no event. -/
@[simp] lemma handles_nextFile (ids : List FileId) :
    (TaskPoint.scanner (.nextFile ids)).handles = none := by
  cases ids <;> rfl

/-- A scan that has stored its reading handles no event. -/
@[simp] lemma handles_afterGrowthInfo (heap : FileId → TrackedFile) (f : FileId)
    (rest : List FileId) : (TaskPoint.scanner (.afterGrowthInfo heap f rest)).handles = none := by
  rcases ScannerPoint.afterGrowthInfo_cases heap f rest with h | h <;> rw [h]
  · rfl
  · exact handles_nextFile rest

/-- The scanner runs a handler from its beginning. -/
lemma scanner_handles {p p' : ScannerPoint} {a : Answer} {f : FileId} {q' : HandlerPoint}
    (h : p.after cfg view a = some p') (hp' : (TaskPoint.scanner p').handles = some (f, q')) :
    q' = .getFileById ∨ ∃ q rest, p = .ready f q rest ∧ p' = .ready f q' rest ∧
      q.after view f a = some q' := by
  cases ScannerPoint.next_of_after h with
  | handling g q q' rest hq' =>
    cases hp'
    exact .inr ⟨q, rest, rfl, rfl, hq'⟩
  | handles g rest =>
    cases hp'
    exact .inl rfl
  -- the other points go on without a handler
  | _ => first | cases hp' | simp at hp'

/-- A handler puts a job into the queue only for a stored file that is `READY`. -/
lemma handler_added {q : HandlerPoint} {a : Answer} {f : FileId}
    (h : q.after view f a = some .added) :
    q = .getFileById ∧ (∃ g, a = .file (some g)) ∧ (view.heap f).status = .ready := by
  cases q with
  | getFileById =>
    cases a with
    | file id =>
      cases id with
      | none => cases h
      | some g =>
        simp only [HandlerPoint.after] at h
        by_cases hst : (view.heap f).status = .ready
        · exact ⟨rfl, ⟨g, rfl⟩, hst⟩
        · rw [if_pos hst] at h
          cases h
    | _ => cases h
  | _ => cases a <;> cases h

/-- **How a task comes to have put a job**: it has just found its file stored and `READY`, and put
the job. -/
lemma added_goOn {t t' : Task} {published : Option FileStatusChangedEvent} {a : Answer} {f : FileId}
    (h : t.goOn cfg view published a = some t') (hp : t'.point.handles = some (f, .added)) :
    t.point.handles = some (f, .added) ∧ t'.point = t.point ∨
      t.point.handles = some (f, .getFileById) ∧ (view.heap f).status = .ready ∧
        t.point.put view t'.point = some ⟨f, (view.heap f).filePath⟩ := by
  rcases point_goOn h with hsame | ⟨b, hafter, -⟩
  · exact .inl ⟨hsame ▸ hp, hsame⟩
  · right
    generalize t.point = p, t'.point = p' at hafter hp ⊢
    cases TaskPoint.next_of_after hafter with
    | handles g q q' hq' =>
      cases hp
      obtain ⟨rfl, -, hready⟩ := handler_added hq'
      exact ⟨rfl, hready, rfl⟩
    | scanner q q' hq' =>
      rcases scanner_handles hq' hp with hq | ⟨q, rest, rfl, rfl, hq⟩
      · cases hq
      · obtain ⟨rfl, -, hready⟩ := handler_added hq
        exact ⟨rfl, hready, rfl⟩
    | _ => cases hp

/-- A task that has put its job is about to write `IN_QUEUE`. -/
lemma nextOp_of_addsJob (cfg : Settings) {t : Task} {f : FileId} (h : t.addsJob f = true) :
    t.nextOp cfg = .call (.updateFileStatusById f .inQueue []) ∧
      t.point.handles = some (f, .added) := by
  unfold Task.addsJob at h
  split at h
  · rename_i hphase
    have hp : t.point.handles = some (f, .added) := of_decide_eq_true h
    refine ⟨?_, hp⟩
    simp only [Task.nextOp, hphase]
    cases hpt : t.point with
    | handleFileReady g q => rw [hpt] at hp; cases hp; rfl
    | scanner p =>
      rw [hpt] at hp
      cases p <;> cases hp
      rfl
    | _ => rw [hpt] at hp; cases hp
  · cases h

/-- **The new tasks**: each publishes an event, or is a retry. -/
lemma created_cases {m : StateManager} {o : Op} {sec : Section} {t : Task}
    (h : t ∈ System.created m o sec) :
    (∃ ev ∈ sec.spawned, t = Task.ofEvent ev) ∨
      ∃ f, t = { point := .retry m.nextTask f .sleep } := by
  rcases List.mem_append.mp h with h | h
  · obtain ⟨ev, hev, rfl⟩ := List.mem_map.mp h
    exact .inl ⟨ev, hev, rfl⟩
  · unfold System.retryTask at h
    split at h
    · split_ifs at h
      · exact .inr ⟨_, List.mem_singleton.mp h⟩
      · cases h
    · cases h

/-- The new tasks of an operation: one announces a record that becomes `READY` or is new, or is a
retry. -/
lemma created_perform_cases {m : StateManager} {o : Op} {t : Task}
    (h : t ∈ System.created m o (m.perform cfg now o).1) :
    (∃ e, t = { point := .fileReady e }) ∨
      (∃ path, t =
        { point := .finished, phase := .publishing ⟨m.repo.nextId, path, none, .discovered⟩ .io }) ∨
      ∃ f, t = { point := .retry m.nextTask f .sleep } := by
  rcases created_cases h with ⟨ev, hev, rfl⟩ | hretry
  · rcases spawned_perform_cases hev with ⟨j, -, -, -, rfl⟩ | ⟨path, rfl⟩
    · exact .inl ⟨_, rfl⟩
    · exact .inr (.inl ⟨path, rfl⟩)
  · exact .inr (.inr hretry)

/-- New tasks run no handler yet. -/
lemma handles_created {m : StateManager} {o : Op} {sec : Section} {t : Task}
    (h : t ∈ System.created m o sec) : t.point.handles = none := by
  rcases created_cases h with ⟨ev, -, rfl⟩ | ⟨f, rfl⟩
  · cases ev <;> rfl
  · rfl

/-- New tasks process no job. -/
lemma job?_created {m : StateManager} {o : Op} {sec : Section} {t : Task}
    (h : t ∈ System.created m o sec) : t.point.job? = none := by
  rcases created_cases h with ⟨ev, -, rfl⟩ | ⟨f, rfl⟩
  · cases ev <;> rfl
  · rfl

/-- A task that comes to a point is consistent: only the scanner publishes, from a point whose
operation has no other answer. -/
lemma consistent_arrive (heap : FileId → TrackedFile) (p : TaskPoint) :
    (Task.arrive heap p).Consistent cfg := by
  cases p with
  | scanner p =>
    cases p with
    | published f st rest => exact rfl
    | _ => trivial
  | _ => trivial

/-- The point of a task that publishes is an update. -/
lemma op_of_published {o : Op} {e : FileStatusChangedEvent}
    (h : (s.perform cfg now o).1.published = some e) :
    (∃ c, o = .call c) ∧ (s.perform cfg now o).2 = .done 0 := by
  cases o with
  | call c =>
    refine ⟨⟨c, rfl⟩, ?_⟩
    cases c with
    | incrementRetryCount j =>
      rw [perform_fst] at h
      obtain ⟨-, hw⟩ := published_perform h
      cases hw
    | _ => rfl
  | _ => cases h

/-- A task that goes on stays consistent. -/
lemma consistent_goOn {t t' : Task} (h : t.Consistent cfg)
    (hgo : t.goOn cfg view (s.perform cfg now (t.nextOp cfg)).1.published
      (s.perform cfg now (t.nextOp cfg)).2 = some t') : t'.Consistent cfg := by
  unfold Task.goOn at hgo
  split at hgo
  · obtain ⟨p', -, rfl⟩ := Option.map_eq_some_iff.mp hgo
    exact consistent_arrive _ _
  · rename_i e hphase hpub
    cases hgo
    have hop : t.nextOp cfg = t.point.op cfg := by simp only [Task.nextOp, hphase]
    obtain ⟨⟨c, hc⟩, hans⟩ := op_of_published hpub
    simp only [Task.Consistent, ← hop, hc]
    exact ⟨0, hc ▸ hans⟩
  · rename_i hphase hpub
    cases hgo
    simpa only [Task.Consistent, hphase] using h
  · rename_i hphase hpub
    cases hgo
    simpa only [Task.Consistent, hphase] using h
  · obtain ⟨p', -, rfl⟩ := Option.map_eq_some_iff.mp hgo
    exact consistent_arrive _ _

/-- The tasks an operation creates are consistent. -/
lemma consistent_created {m : StateManager} {o : Op} {sec : Section} {t : Task}
    (h : t ∈ System.created m o sec) : t.Consistent cfg := by
  rcases created_cases h with ⟨ev, -, rfl⟩ | ⟨f, rfl⟩
  · cases ev with
    | fileStatusChanged e => exact rfl
    | fileReady e => trivial
  · trivial

/-- All tasks are consistent. -/
lemma consistent_step {a : SystemAction} (h : ∀ t ∈ s.tasks, t.Consistent cfg)
    (hs : systemStep cfg s a = some s') : ∀ t ∈ s'.tasks, t.Consistent cfg := by
  intro u hu
  by_cases ha : ∀ i now env, a ≠ .run i now env
  · rw [(systemStep_of_ne_run hs ha).2.1] at hu
    exact h u hu
  · push Not at ha
    obtain ⟨i, now, env, rfl⟩ := ha
    obtain ⟨t, t', ht, -, hgo, rfl⟩ := systemStep_run hs
    rcases mem_tasks_step hu with rfl | rfl | hnew | ⟨j, -, hj⟩
    · exact consistent_goOn (h t (List.mem_of_getElem? ht)) hgo
    · trivial
    · exact consistent_created hnew
    · exact h u (List.mem_of_getElem? hj)

/-- A consistent task whose operation is neither a call nor left to the world outside is waiting for
it. -/
lemma awaiting_of_consistent {t : Task} (h : t.Consistent cfg)
    (hop : ∀ c, t.point.op cfg ≠ .call c) (hio : t.point.op cfg ≠ .io) : t.phase = .awaiting := by
  unfold Task.Consistent at h
  split at h
  · assumption
  · split at h
    · exact absurd ‹_› (hop _)
    · exact absurd ‹_› hio
    · cases h
  · split at h
    · exact absurd ‹_› (hop _)
    · exact absurd ‹_› hio
    · cases h

/-- The jobs left were in the queue. -/
lemma mem_of_mem_jobsLeft {jobs : List QueueJob} {o : Op} {job : QueueJob}
    (h : job ∈ System.jobsLeft jobs o) : job ∈ jobs := by
  unfold System.jobsLeft at h
  split at h
  · exact List.mem_of_mem_tail h
  · exact h

/-- A job that is put is in the queue. -/
lemma mem_jobs_of_put {p p' : TaskPoint} {job : QueueJob} (h : p.put view p' = some job)
    (jobs : List QueueJob) : job ∈ jobs ++ (p.put view p').toList := by
  rw [h]
  simp

/-- A job is put by a handler that found its record, with the path the record has. -/
lemma put_eq_some {p p' : TaskPoint} {job : QueueJob} (h : p.put view p' = some job) :
    p.handles = some (job.file, .getFileById) ∧ (∃ f, p'.handles = some (f, .added)) ∧
      job.path = (view.heap job.file).filePath := by
  have hput : ∀ {f : FileId} {q q' : HandlerPoint}, q.put view f q' = some job →
      q = .getFileById ∧ q' = .added ∧ job = ⟨f, (view.heap f).filePath⟩ := by
    intro f q q' hq
    cases q <;> cases q' <;> cases hq
    exact ⟨rfl, rfl, rfl⟩
  unfold TaskPoint.put at h
  split at h
  · obtain ⟨rfl, rfl, rfl⟩ := hput h
    exact ⟨rfl, ⟨_, rfl⟩, rfl⟩
  · obtain ⟨rfl, rfl, rfl⟩ := hput h
    exact ⟨rfl, ⟨_, rfl⟩, rfl⟩
  · cases h

/-- The operation of a handler's task is the handler's. -/
lemma op_of_handles {p : TaskPoint} {f : FileId} {q : HandlerPoint}
    (h : p.handles = some (f, q)) : p.op cfg = q.op f := by
  cases p with
  | handleFileReady g r => cases h; rfl
  | scanner p =>
    cases p <;> cases h
    rfl
  | _ => cases h

/-- A handler publishes no event. -/
lemma publishes_of_handles (heap : FileId → TrackedFile) {p : TaskPoint} {f : FileId}
    {q : HandlerPoint} (h : p.handles = some (f, q)) : p.publishes heap = none := by
  cases p with
  | scanner p =>
    cases p <;> cases h
    rfl
  | _ => rfl

/-- A task that comes to `added` has found its file stored and `READY`. -/
lemma after_added {p p' : TaskPoint} {a : Answer} {f g : FileId}
    (h : p.after cfg view a = some p') (hp : p.handles = some (f, .getFileById))
    (hp' : p'.handles = some (g, .added)) :
    g = f ∧ (∃ i, a = .file (some i)) ∧ (view.heap f).status = .ready := by
  cases TaskPoint.next_of_after h with
  | handles f' q q' hq' =>
    cases hp
    cases hp'
    exact ⟨rfl, (handler_added hq').2⟩
  | scanner p r hr =>
    rcases scanner_handles hr hp' with hq | ⟨q, rest, rfl, rfl, hq⟩
    · cases hq
    · cases hp
      exact ⟨rfl, (handler_added hq).2⟩
  | _ => cases hp

/-- **What a step that puts a job does**: the task reads its file, which is stored and `READY`, and
goes on to write `IN_QUEUE`.

**Proof sketch.** A job is put by a handler that has the record in hand, which its own operation
has just looked up. That operation finds only stored records, and the handler puts the job only if
the record is READY. -/
lemma put_goOn {t t' : Task} (job : QueueJob) (ht : t.Consistent cfg)
    (hgo : t.goOn cfg (s.view (s.perform cfg now (t.nextOp cfg)).1 now env)
      (s.perform cfg now (t.nextOp cfg)).1.published (s.perform cfg now (t.nextOp cfg)).2 = some t')
    (hput : t.point.put (s.view (s.perform cfg now (t.nextOp cfg)).1 now env) t'.point = some job) :
    t.point.handles = some (job.file, .getFileById) ∧ t.nextOp cfg = .getFileById job.file ∧
      job.file ∈ s.manager.files ∧ (s.manager.heap job.file).status = .ready ∧
      job.path = (s.manager.heap job.file).filePath ∧ t'.addsJob job.file = true := by
  obtain ⟨hhandles, ⟨g, hadded⟩, hpath⟩ := put_eq_some hput
  have hpointOp : t.point.op cfg = HandlerPoint.getFileById.op job.file := op_of_handles hhandles
  have hphase : t.phase = .awaiting := awaiting_of_consistent ht
    (by simp [hpointOp, HandlerPoint.op]) (by simp [hpointOp, HandlerPoint.op])
  have hop : t.nextOp cfg = .getFileById job.file := by
    simp only [Task.nextOp, hphase, hpointOp, HandlerPoint.op]
  rw [hop] at hgo hpath
  simp only [Task.goOn, hphase, System.perform, perform] at hgo
  obtain ⟨p', hafter, rfl⟩ := Option.map_eq_some_iff.mp hgo
  obtain ⟨rfl, ⟨i, hi⟩, hready⟩ := after_added hafter hhandles hadded
  refine ⟨hhandles, hop, ?_, hready, hpath, ?_⟩
  · have hsome : s.manager.getFileById job.file = some i := Answer.file.inj hi
    unfold StateManager.getFileById at hsome
    split_ifs at hsome with hmem
    exact hmem
  · have hpub := publishes_of_handles s.manager.heap hadded
    simp only [Task.arrive] at hadded hpub
    simp [Task.addsJob, Task.arrive, System.view, hpub, hadded]

/-- A task other than a worker processes no job. -/
lemma job?_after_of_not_worker {p p' : TaskPoint} {a : Answer}
    (h : p.after cfg view a = some p') (hp : ∀ q, p ≠ .worker q) : p'.job? = none := by
  cases TaskPoint.next_of_after h with
  | worker q => exact absurd rfl (hp q)
  | _ => rfl

/-- **The job of a task after a step**: none, the one it had, or the first of the queue.

**Proof sketch.** An event that is delivered leaves the point. A worker that goes on keeps its
job, drops it or has just asked for one, and then it awaited that operation, so the job is the
first of the queue. Another task has no job. -/
lemma job?_goOn {t t' : Task} (ht : t.Consistent cfg)
    (hgo : t.goOn cfg view (s.perform cfg now (t.nextOp cfg)).1.published
      (s.perform cfg now (t.nextOp cfg)).2 = some t') :
    t'.point.job? = none ∨ t'.point.job? = t.point.job? ∨
      t.nextOp cfg = .getNextJob ∧ t.point.job? = none ∧ t'.point.job? = s.jobs.head? := by
  rcases point_goOn hgo with hsame | ⟨b, hafter, hb⟩
  · exact .inr (.inl (by rw [hsame]))
  · by_cases hworker : ∃ q, t.point = .worker q
    · obtain ⟨q, hq⟩ := hworker
      rw [hq] at hafter
      obtain ⟨q', hq', hpoint⟩ := Option.map_eq_some_iff.mp hafter
      rw [hq, ← hpoint]
      rcases WorkerPoint.job?_after hq' with hnone | hsame | ⟨rfl, job, rfl, hjob⟩
      · exact .inl hnone
      · exact .inr (.inl hsame)
      · have hphase := awaiting_of_consistent ht (by simp [hq, TaskPoint.op, WorkerPoint.op])
          (by simp [hq, TaskPoint.op, WorkerPoint.op])
        have hop : t.nextOp cfg = .getNextJob := by
          simp only [Task.nextOp, hphase, hq, TaskPoint.op, WorkerPoint.op]
        rw [hop, hphase] at hb
        rcases hb with ⟨-, hb⟩ | hb
        · exact .inr (.inr ⟨hop, rfl, hjob.trans (Answer.job.inj hb)⟩)
        · cases hb
    · push Not at hworker
      exact .inl (job?_after_of_not_worker hafter hworker)

end Lemmas

/-! ## Runs of one file -/

/-- The queue is there, and the destination has been checked. -/
def startUp : List SystemAction := [.createQueue, .subscribe, .run 2 0 {}]

/-- The first scan up to the discovery of a file of `size` bytes, whose event is delivered. -/
def discoverFile (size : ℕ) : List SystemAction :=
  [.run 0 0 { paths := ["/src/a.mxf"] }, .run 0 0 {}, .run 0 0 {},
    .run 0 0 { paths := ["/src/a.mxf"] }, .run 0 0 {}, .run 0 0 {},
    .run 0 0 { metadata := some (size, none) }, .run 0 0 {}, .run 4 0 {}]

/-- The stability check of the file, from the listing to the recommendation. -/
def checkStability (now size nextSize : ℕ) : List SystemAction :=
  [.run 0 now {}, .run 0 now {}, .run 0 now { metadata := some (size, none) }, .run 0 now {},
    .run 0 now {}, .run 0 now {}, .run 0 now { size := some nextSize }, .run 0 now {},
    .run 0 now {}, .run 0 now {}]

/-- The second scan, half a minute later, finds the file unchanged and hands it over. -/
def secondScan : List SystemAction :=
  [.run 0 30000000 {}, .run 0 30000000 { paths := ["/src/a.mxf"] }, .run 0 30000000 {},
    .run 0 30000000 {}, .run 0 30000000 { paths := ["/src/a.mxf"] }, .run 0 30000000 {},
    .run 0 30000000 {}, .run 0 30000000 { metadata := some (10, none) }]

/-- A small file is found, and recommended to be `READY` half a minute later. -/
def smallFile : List SystemAction :=
  startUp ++ discoverFile 10 ++ checkStability 0 10 10 ++ secondScan ++
    checkStability 30000000 10 10

/-- The scanner publishes the recommended status and handles the ready file itself. -/
def scannerHandles : List SystemAction := List.replicate 8 (.run 0 30000000 {})

/-- The event of the ready file is handled by a task of its own. -/
def eventHandled : List SystemAction := List.replicate 2 (.run 5 30000000 {})

end FileAgent

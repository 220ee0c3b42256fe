import FileAgent.Library.Run
import FileAgent.Worker

set_option relaxedAutoImplicit false
set_option autoImplicit false

/-!
# The worker pool and the destination

Any number of workers on one destination. The system is the set of paths that exist at the
destination and the suspended workers. A job is prepared in one step, which tests the names for its
destination; the file itself is created several awaits later. Other programs may create and delete
files at any time. Jobs, records and the answers of the state manager are not restricted.

## Main definitions

* `PoolState`, `PoolAction`, `poolStep` — the system.
* `DistinctDestinations` — no two jobs being processed have the same destination.
* `NameNotTaken` — the condition: a job is not given the name of a job that has yet to create it.

## Main results

* `dest?_after` — a step keeps the destination of a job, ends it, or prepares a new one.
* `distinctDestinations_iff` — the exact condition for the destinations to be distinct.
* `uncreated_destination_is_shared` — a run in which two jobs have the same destination.
-/

namespace FileAgent

open Transition

/-- The paths that exist at the destination, and the workers. -/
structure PoolState where
  disk : List DestPath
  workers : List WorkerPoint

/-- The start: all workers wait for a job. -/
def PoolState.start (disk : List DestPath) (maxConcurrentCopies : ℕ) : PoolState :=
  ⟨disk, List.replicate maxConcurrentCopies .getNextJob⟩

/-- `path.exists()`. -/
def PoolState.exists? (s : PoolState) (p : DestPath) : Bool := p ∈ s.disk

/-- Other programs create or delete a file, or worker `i` gets the answer to its operation. -/
inductive PoolAction
  | created (p : DestPath)
  | deleted (p : DestPath)
  | work (i : ℕ) (view : View) (answer : Answer)

/-- The environment of a step of a worker. The destination path of a job is computed from what
exists, unless its preparation raises. -/
def PoolState.prepare (r : Routing) (s : PoolState) (env : Env) : Answer → Env
  | .job (some job) =>
    { env with
      prepared := env.prepared.bind fun _ => calculateDestinationPath r s.exists? job.path }
  | _ => env

/-- The file a step creates: `open(dest_path, "wb")`, if it succeeds. -/
def openedDest (p : WorkerPoint) (view : View) (answer : Answer) : Option DestPath :=
  match p, answer, view.env.copyAnswer with
  | .copy _ dest (.openDest _), .io, .done => some dest
  | _, _, _ => none

/-- One step. -/
def poolStep (cfg : Settings) (r : Routing) (s : PoolState) : PoolAction → Option PoolState
  | .created p => some { s with disk := p :: s.disk }
  | .deleted p => some { s with disk := s.disk.filter (· ≠ p) }
  | .work i view answer =>
    match s.workers[i]? with
    | none => none
    | some p =>
      (p.after cfg { view with env := s.prepare r view.env answer } answer).map fun p' =>
        { disk := (openedDest p view answer).toList ++ s.disk
          workers := s.workers.set i p' }

/-- No two jobs being processed have the same destination. -/
def DistinctDestinations (s : PoolState) : Prop :=
  ∀ (i j : ℕ) (p q : WorkerPoint) (d : DestPath), s.workers[i]? = some p → s.workers[j]? = some q →
    p.dest? = some d → q.dest? = some d → i = j

/-- The destinations are distinct after every step of a trace. -/
def DistinctAlong (cfg : Settings) (r : Routing) (tr : List (PoolState × PoolAction)) : Prop :=
  ∀ s a s', (s, a) ∈ tr → poolStep cfg r s a = some s' → DistinctDestinations s'

/-- A job that is taken is prepared: its space check does not fail, and its preparation does not
raise. -/
def preparesJob (cfg : Settings) (env : Env) : Bool :=
  !(cfg.enablePreCopySpaceCheck && !env.spaceCheck.hasSpace) && env.prepared.toBool

/-- The condition on a step: if it prepares a job, then no other job being processed has a
destination that does not exist yet and is the first free name for this one. -/
def NameNotTaken (cfg : Settings) (r : Routing) (s : PoolState) : PoolAction → Prop
  | .work i view (.job (some job)) =>
    preparesJob cfg view.env = true → ∀ j q, s.workers[j]? = some q → j ≠ i →
      ∀ d, q.dest? = some d → ¬ FirstFreeName s.exists? (r.target job.path) d
  | _ => True

/-! ## One step -/

section Steps

variable {cfg : Settings} {r : Routing} {s s' : PoolState} {view : View}

/-- The point after a copy has the destination of the copy or none. -/
lemma dest?_afterCopy (view : View) (job : QueueJob) (dest : DestPath) (p : CopyPoint) :
    (WorkerPoint.afterCopy view job dest p).dest? = none ∨
      (WorkerPoint.afterCopy view job dest p).dest? = some dest := by
  unfold WorkerPoint.afterCopy
  split
  · exact .inr rfl
  · exact .inl rfl
  · split_ifs
    · exact .inr rfl
    · exact .inl rfl
  · exact .inr rfl

/-- The destination of a job that is taken: none, or the one prepared. -/
lemma dest?_processJob {job : QueueJob} {d : DestPath} :
    (WorkerPoint.processJob cfg view job).dest? = some d ↔
      preparesJob cfg view.env = true ∧ view.env.prepared = .ok d := by
  unfold WorkerPoint.processJob preparesJob
  by_cases hspace : (cfg.enablePreCopySpaceCheck && !view.env.spaceCheck.hasSpace) = true
  · simp only [hspace, if_true, Bool.not_true, Bool.false_and, Bool.false_eq_true, false_and,
      iff_false]
    split_ifs <;> simp [WorkerPoint.dest?]
  · simp only [hspace, Bool.false_eq_true, if_false, Bool.not_false]
    cases hprep : view.env.prepared <;> simp [WorkerPoint.dest?, Except.toBool]

/-- **The destination of a worker after a step**: none, the one it had, or that of a job taken
now. -/
lemma dest?_after {p p' : WorkerPoint} {answer : Answer}
    (h : p.after cfg view answer = some p') :
    p'.dest? = none ∨ p'.dest? = p.dest? ∨
      p = .getNextJob ∧ ∃ job, answer = .job (some job) ∧ p' = .processJob cfg view job := by
  cases WorkerPoint.next_of_after h with
  | prepared job dest => exact .inr (.inr ⟨rfl, job, rfl, (Option.some.inj h).symm⟩)
  | copies job dest q q' =>
    rcases dest?_afterCopy view job dest q' with hd | hd
    · exact .inl hd
    · exact .inr (.inl hd)
  | initialized => exact .inr (.inl rfl)
  | _ => exact .inl rfl

/-- What a step of a worker does to the workers. -/
lemma poolStep_work {i : ℕ} {answer : Answer}
    (h : poolStep cfg r s (.work i view answer) = some s') :
    ∃ p p', s.workers[i]? = some p ∧
      p.after cfg { view with env := s.prepare r view.env answer } answer = some p' ∧
      s'.workers = s.workers.set i p' := by
  simp only [poolStep] at h
  split at h
  · cases h
  · rename_i p hp
    obtain ⟨p', hafter, rfl⟩ := Option.map_eq_some_iff.mp h
    exact ⟨p, p', hp, hafter, rfl⟩

/-- The preparation of a job does not change whether it is prepared, and prepares the first free
name. -/
lemma dest?_prepared {job : QueueJob} {d : DestPath} :
    (WorkerPoint.processJob cfg { view with env := s.prepare r view.env (.job (some job)) }
        job).dest? = some d ↔
      preparesJob cfg view.env = true ∧ FirstFreeName s.exists? (r.target job.path) d := by
  rw [dest?_processJob, ← generateConflictFreePath_eq_ok_iff]
  simp only [PoolState.prepare, preparesJob, calculateDestinationPath]
  cases hprep : view.env.prepared with
  | error e => simp [Except.bind, Except.toBool]
  | ok q =>
    cases hgen : generateConflictFreePath s.exists? (r.target job.path) <;>
      simp [Except.bind, Except.toBool]

/-- Two different workers with one destination. -/
lemma not_distinctDestinations {i j : ℕ} {p q : WorkerPoint} {d : DestPath}
    (hp : s.workers[i]? = some p) (hq : s.workers[j]? = some q) (hpd : p.dest? = some d)
    (hqd : q.dest? = some d) (hij : i ≠ j) : ¬ DistinctDestinations s :=
  fun h => hij (h i j p q d hp hq hpd hqd)

/-- A step of worker `i` keeps the destinations distinct if its new destination is no other
worker's. -/
lemma DistinctDestinations.set {i : ℕ} {p' : WorkerPoint} (h : DistinctDestinations s)
    (hset : s'.workers = s.workers.set i p')
    (hnew : ∀ d, p'.dest? = some d → ∀ j q, s.workers[j]? = some q → j ≠ i → q.dest? ≠ some d) :
    DistinctDestinations s' := by
  intro j k q₁ q₂ d hj hk hd₁ hd₂
  rw [hset, List.getElem?_set] at hj hk
  split_ifs at hj hk with hij _ hik _ hik
  · exact hij.symm.trans hik
  · cases hj
    exact absurd hd₂ (hnew d hd₁ k q₂ hk (Ne.symm hik))
  · cases hk
    exact absurd hd₁ (hnew d hd₂ j q₁ hj (Ne.symm hij))
  · exact h j k q₁ q₂ d hj hk hd₁ hd₂

/-- **The step lemma**: a step that meets the condition keeps the destinations distinct. -/
lemma DistinctDestinations.step {a : PoolAction} (h : DistinctDestinations s)
    (hok : NameNotTaken cfg r s a) (hs : poolStep cfg r s a = some s') :
    DistinctDestinations s' := by
  cases a with
  | created p => cases hs; exact h
  | deleted p => cases hs; exact h
  | work i view answer =>
    obtain ⟨p, p', hp, hafter, hset⟩ := poolStep_work hs
    refine h.set hset fun d hd j q hq hji hqd => ?_
    rcases dest?_after hafter with hnone | hsame | ⟨-, job, rfl, rfl⟩
    · rw [hnone] at hd; cases hd
    · exact hji (h j i q p d hq hp hqd (hsame ▸ hd))
    · obtain ⟨hprepares, hfree⟩ := dest?_prepared.mp hd
      exact hok hprepares j q hq hji d hqd hfree

/-- A step that breaks the condition gives two jobs one destination. -/
lemma not_distinctDestinations_of_step {a : PoolAction} (hok : ¬ NameNotTaken cfg r s a)
    (hs : poolStep cfg r s a = some s') : ¬ DistinctDestinations s' := by
  unfold NameNotTaken at hok
  split at hok
  · rename_i i view job
    push Not at hok
    obtain ⟨hprepares, j, q, hq, hji, d, hqd, hfree⟩ := hok
    obtain ⟨p, p', hp, hafter, hset⟩ := poolStep_work hs
    have hi : i < s.workers.length := (List.getElem?_eq_some_iff.mp hp).1
    obtain rfl : p' = .processJob cfg
        { view with env := s.prepare r view.env (.job (some job)) } job := by
      cases p with
      | getNextJob => cases hafter; rfl
      | copy job' dest q =>
        simp only [WorkerPoint.after] at hafter
        cases hreq : q.request cfg dest.toString <;>
          simp [hreq, WorkerPoint.copyAnswer] at hafter
      | _ => cases hafter
    have hd := dest?_prepared.mpr ⟨hprepares, hfree⟩
    refine not_distinctDestinations (i := i) (j := j) ?_ ?_ hd hqd (Ne.symm hji)
    · rw [hset, List.getElem?_set_self hi]
    · rw [hset, List.getElem?_set_ne (Ne.symm hji), hq]
  · exact absurd trivial hok

/-- When a job is prepared, the destinations of all other jobs exist. -/
def othersCreated (s : PoolState) : PoolAction → Bool
  | .work i _ (.job (some _)) =>
    (List.range s.workers.length).all fun j =>
      j = i || (s.workers[j]?.bind (·.dest?)).all (s.exists? ·)
  | _ => true

/-- Destinations that exist are not given to another job. -/
lemma nameNotTaken_of_othersCreated {a : PoolAction} (h : othersCreated s a = true) :
    NameNotTaken cfg r s a := by
  unfold NameNotTaken
  split
  · rename_i i view job
    rintro - j q hq hji d hd ⟨-, -, -, hfree, -⟩
    have hj := (List.getElem?_eq_some_iff.mp hq).1
    have := List.all_eq_true.mp h j (List.mem_range.mpr hj)
    simp [hji, hq, hd, hfree] at this
  · trivial

end Steps

/-! ## Runs -/

section Runs

variable {cfg : Settings} {r : Routing}

/-- At the start no job is being processed. -/
lemma distinctDestinations_start (disk : List DestPath) (n : ℕ) :
    DistinctDestinations (.start disk n) := by
  intro i j p q d hi hj hp hq
  rw [PoolState.start, List.getElem?_replicate] at hi
  split_ifs at hi
  cases hi
  cases hp

/-- **When the destinations are distinct.** In a run of a pool of any size, no two jobs being
processed ever have the same destination if and only if no job is given, when it is prepared, the
destination that another job being processed has yet to create.

**Proof sketch.** A step that meets the condition keeps the destinations distinct
(`DistinctDestinations.step`), one that breaks it makes two of them equal. -/
theorem distinctDestinations_iff {disk : List DestPath} {n : ℕ}
    {tr : List (PoolState × PoolAction)} {s : PoolState}
    (hrun : Run (poolStep cfg r) (.start disk n) tr s) :
    DistinctAlong cfg r tr ↔ Meets (NameNotTaken cfg r) tr := by
  constructor
  · rintro h ⟨s₁, a⟩ hmem
    obtain ⟨-, -, s₂, -, -, hs⟩ := hrun.at_mem hmem
    by_contra hok
    exact not_distinctDestinations_of_step hok hs (h s₁ a s₂ hmem hs)
  · intro hok
    exact hrun.forall_steps hok (distinctDestinations_start disk n)
      (fun _ _ _ hI hok hs => hI.step hok hs) (fun _ _ _ hI hok hs => hI.step hok hs)

/-- A template that puts every file into one folder. -/
def oneFolder : Routing := ⟨["src"], ["dst"], some fun _ => ["dst"]⟩

/-- What worker `i` reads while it has the job of record `i`. -/
def jobView (i : ℕ) (copyAnswer : CopyAnswer) : View where
  heap := fun _ => { filePath := "/src/" ++ toString i ++ "/clip.mxf", discoveredAt := 0 }
  destinationInfo := none
  queueCreated := true
  readySubscribed := true
  now := 0
  env := { copyAnswer := copyAnswer }

/-- Worker `i` takes the job of `/src/i/clip.mxf`. -/
def takeJob (i : ℕ) : PoolAction :=
  .work i (jobView i .done) (.job (some ⟨i, "/src/" ++ toString i ++ "/clip.mxf"⟩))

/-- Worker `i` starts its copy and opens the destination. -/
def openCopy (i : ℕ) : List PoolAction :=
  [.work i (jobView i .done) (.done 0), .work i (jobView i (.size 10)) .io,
    .work i (jobView i .done) (.file none), .work i (jobView i .done) .io,
    .work i (jobView i .done) .io]

/-- The second job is prepared after the first one has created its file. -/
theorem distinctDestinations_afterOpen :
    ∃ s, Run (poolStep {} oneFolder) (.start [] 2)
        (traceOf (poolStep {} oneFolder) (.start [] 2) (takeJob 0 :: openCopy 0 ++ [takeJob 1])) s ∧
      s.workers.map (·.dest?) = [some ⟨["dst"], "clip.mxf"⟩, some ⟨["dst"], "clip_1.mxf"⟩] ∧
      DistinctAlong {} oneFolder
        (traceOf (poolStep {} oneFolder) (.start [] 2)
          (takeJob 0 :: openCopy 0 ++ [takeJob 1])) := by
  obtain ⟨s, hrun, hs⟩ := exists_run_of_replay (poolStep {} oneFolder) (.start [] 2)
    (takeJob 0 :: openCopy 0 ++ [takeJob 1])
    (fun s => s.workers.map (·.dest?) =
      [some ⟨["dst"], "clip.mxf"⟩, some ⟨["dst"], "clip_1.mxf"⟩]) (by decide +kernel)
  refine ⟨s, hrun, of_decide_eq_true hs, (distinctDestinations_iff hrun).mpr fun p hp => ?_⟩
  have hcreated : (traceOf (poolStep {} oneFolder) (.start [] 2)
      (takeJob 0 :: openCopy 0 ++ [takeJob 1])).all (fun p => othersCreated p.1 p.2) = true := by
    decide +kernel
  exact nameNotTaken_of_othersCreated (List.all_eq_true.mp hcreated p hp)

/-- **Two jobs with one destination**: two files with one name in two folders, and both are prepared
before either file is created. -/
theorem uncreated_destination_is_shared :
    ∃ tr s, Run (poolStep {} oneFolder) (.start [] 2) tr s ∧ ¬ DistinctDestinations s := by
  obtain ⟨s, hrun, hs⟩ := exists_run_of_replay (poolStep {} oneFolder) (.start [] 2)
    ([takeJob 0, takeJob 1])
    (fun s => s.workers.map (·.dest?) =
      [some ⟨["dst"], "clip.mxf"⟩, some ⟨["dst"], "clip.mxf"⟩]) (by decide +kernel)
  refine ⟨_, s, hrun, fun h => ?_⟩
  obtain ⟨p, q, hpq, hp, hq⟩ : ∃ p q, s.workers = [p, q] ∧
      p.dest? = some ⟨["dst"], "clip.mxf"⟩ ∧ q.dest? = some ⟨["dst"], "clip.mxf"⟩ := by
    simpa [List.map_eq_cons_iff] using hs
  exact not_distinctDestinations (i := 0) (j := 1) (by rw [hpq]; rfl) (by rw [hpq]; rfl) hp hq
    (by decide) h

end Runs

end FileAgent

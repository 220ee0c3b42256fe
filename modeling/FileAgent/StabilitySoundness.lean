import FileAgent.GrowthReadings

set_option relaxedAutoImplicit false
set_option autoImplicit false

/-!
# Stability before `READY`

The scanner and the monitor both read the sizes of the files, and both write the growth fields. A
file is to become `READY` by them only when no reading of the last `growing_file_growth_timeout`
was larger than the one before it. The growth fields of a record are a tracker of the readings; it
follows them as long as each increase is seen by a reader that maintains `growth_stable_since`, and
nobody else holds an older reading.

## Main definitions

* `readings` — the readings of a record along a run.
* `StabilitySound` — the property of a run of the two loops.
* `ReadsApart` — the condition on the steps.
* `RecordTracked`, `GrowthTracked` — the invariant.

## Main results

* `recordTracked_of_reads`, `recordTracked_of_not_reads`, `recordTracked_of_new` — what a step makes
  of one record.
* `growthTracked_step` — the step lemma.
* `stabilitySound_of_readsApart` — the property of the runs that meet the condition.
* `increase_absorbed` — a file that becomes `READY` at the moment it is found to have grown.
-/

namespace FileAgent

open Transition StateManager TimedLog

/-! ## The property -/

/-- The reading of the record `id` that a step takes, with its time. -/
def System.readingsAt (s : System) (id : FileId) : SystemAction → List (ℕ × ℕ)
  | .run i now env =>
    match s.tasks[i]? with
    | none => []
    | some t =>
      match t.reads s.manager env with
      | none => []
      | some (f, size) => if f = id then [(now, size)] else []
  | _ => []

/-- The readings of the record `id` along a run, the newest at the end. -/
def readings (tr : List (System × SystemAction)) (id : FileId) : List (ℕ × ℕ) :=
  tr.flatMap fun p => p.1.readingsAt id p.2

/-- No reading of the last `timeout` before `now` is larger than the one before it. -/
def StableFor (timeout now : ℕ) (log : List (ℕ × ℕ)) : Prop :=
  log.IsChain fun x y => x.2 < y.2 → y.1 + timeout ≤ now

instance (timeout now : ℕ) (log : List (ℕ × ℕ)) : Decidable (StableFor timeout now log) :=
  inferInstanceAs (Decidable (List.IsChain _ log))

/-- Whenever a step of the scanner or the monitor gives a record the status `READY`, its readings
have been stable for the time-out. -/
def StabilitySound (cfg : Settings) (tr : List (System × SystemAction)) : Prop :=
  ∀ tr₁ s i now env tr₂ s', tr = tr₁ ++ (s, .run i now env) :: tr₂ →
    systemStep cfg s (.run i now env) = some s' → (∃ t ∈ s.tasks[i]?, t.point.isLoop = true) →
    ∀ id ∈ s.manager.files, (s.manager.heap id).status ≠ .ready →
      (s'.manager.heap id).status = .ready → StableFor cfg.growthTimeout now (readings tr₁ id)

/-! ## The condition -/

/-- The condition on a reading of `size` by the task `t`. The check for changes of a known file does
not find it larger. No other loop holds a reading of the file, or it is one of the same size; and
the file is not found larger while another loop is going to give it `READY`. -/
def Task.SeesApart (cfg : Settings) (s : System) (t : Task) (f : FileId) (size : ℕ) : Prop :=
  (t.point.checksExisting = true → size ≤ (s.manager.heap f).fileSize) ∧
    ∀ u ∈ s.tasks,
      (∀ w ∈ u.pending, w.1 = f → ((s.manager.heap f).setattrs w.2).fileSize = size) ∧
        (u.givesReady cfg f = true → size ≤ (s.manager.heap f).fileSize)

instance (cfg : Settings) (s : System) (t : Task) (f : FileId) (size : ℕ) :
    Decidable (t.SeesApart cfg s f size) :=
  inferInstanceAs (Decidable (_ ∧ _))

/-- The condition on a step. Its reading is seen apart from the others; and if it writes growth
fields with the status `READY`, the record has that status still. -/
def ReadsApart (cfg : Settings) (s : System) : SystemAction → Prop
  | .run i _ env => ∀ t ∈ s.tasks[i]?,
    (∀ r ∈ t.reads s.manager env, t.SeesApart cfg s r.1 r.2) ∧
      ∀ w ∈ t.pending, (t.nextOp cfg).writes w.1 = some .ready →
        (s.manager.heap w.1).status = .ready
  | _ => True

instance (cfg : Settings) (s : System) : (a : SystemAction) → Decidable (ReadsApart cfg s a)
  | .run i _ env => inferInstanceAs (Decidable (∀ t ∈ s.tasks[i]?,
      (∀ r ∈ t.reads s.manager env, t.SeesApart cfg s r.1 r.2) ∧
        ∀ w ∈ t.pending, (t.nextOp cfg).writes w.1 = some .ready →
          (s.manager.heap w.1).status = .ready))
  | .createQueue | .subscribe => .isTrue trivial

/-! ## The records that the loops refer to -/

/-- The file of a single step of a loop. -/
def TaskPoint.names : TaskPoint → Option FileId
  | .scanner (.metadata f _) | .scanner (.sizeChange f _ _ _ _) | .scanner (.published f _ _)
  | .monitor (.update f _ _) => some f
  | _ => none

/-- The loop holds a reference to the record, or an event about it. -/
def Task.refersTo (id : FileId) (t : Task) : Prop :=
  t.point.visits id = true ∨ t.point.names = some id ∨
    t.point.isLoop = true ∧ ∃ e a, t.phase = .publishing e a ∧ e.fileId = id

section References

variable {cfg : Settings} {view : View} {s : System} {now : ℕ} {env : Env} {id : FileId}
variable {t t' : Task} {kwargs : List Attr}

/-- A task refers to the record of the event it is about to publish. -/
lemma refersTo_of_pending (h : t.pending = some (id, kwargs)) : t.refersTo id := by
  unfold Task.pending at h
  split at h
  · unfold TaskPoint.pending at h
    split at h
    · cases h
      rename_i hp
      exact .inr (.inl (by rw [hp]; rfl))
    · cases h
      rename_i hp
      exact .inl (by simp [hp, TaskPoint.visits])
    · cases h
      rename_i hp
      exact .inl (by simp [hp, TaskPoint.visits])
    · obtain ⟨kw, -, heq⟩ := Option.map_eq_some_iff.mp h
      cases heq
      rename_i hp
      exact .inl (by simp [hp, TaskPoint.visits])
    · obtain ⟨kw, -, heq⟩ := Option.map_eq_some_iff.mp h
      cases heq
      rename_i hp
      exact .inl (by simp [hp, TaskPoint.visits])
    · cases h
  · cases h

/-- A task that is about to write READY refers to the record it writes to.

**Proof sketch.** Such a task is at a check that recommends READY, which visits the record; or it
is about to update the record; or it is delivering the event that says so. -/
lemma refersTo_of_givesReady (h : t.givesReady cfg id = true) : t.refersTo id := by
  simp only [Task.givesReady, Bool.or_eq_true, decide_eq_true_eq] at h
  rcases h with h | h
  · left
    unfold TaskPoint.recommendsReady at h
    split at h
    · split_ifs at h
      cases h
      rename_i hp
      simp [hp, TaskPoint.visits]
    · split_ifs at h
      cases h
      rename_i hp
      simp [hp, TaskPoint.visits]
    · cases h
  · right
    split at h
    · left
      simp only [decide_eq_true_eq] at h
      unfold TaskPoint.updates at h
      split at h
      · cases h
        rename_i hp
        rw [hp]
        rfl
      · cases h
    · rename_i e a hphase
      simp only [Bool.and_eq_true, decide_eq_true_eq] at h
      exact .inr ⟨h.1.1, e, a, hphase, h.1.2⟩
    · cases h

/-- A scan between two paths names no record. -/
@[simp] lemma names_nextPath (paths : List FilePath) :
    (TaskPoint.scanner (.nextPath paths)).names = none := by
  cases paths <;> rfl

/-- A scan between two records names none. -/
@[simp] lemma names_nextFile (ids : List FileId) :
    (TaskPoint.scanner (.nextFile ids)).names = none := by
  cases ids <;> rfl

/-- A scan that has stored its reading names no record. -/
@[simp] lemma names_afterGrowthInfo (heap : FileId → TrackedFile) (f : FileId)
    (rest : List FileId) : (TaskPoint.scanner (.afterGrowthInfo heap f rest)).names = none := by
  rcases ScannerPoint.afterGrowthInfo_cases heap f rest with h | h <;> rw [h]
  · rfl
  · exact names_nextFile rest

/-- A monitor between two records names none. -/
@[simp] lemma names_monitorNext (heap : FileId → TrackedFile) (ids : List FileId) :
    (TaskPoint.monitor (.next heap ids)).names = none := by
  rcases MonitorPoint.next_cases heap ids with h | ⟨f, rest, -, h⟩ <;> rw [h] <;> rfl

/-- The scanner comes to a step on a file from one on the same file, or has looked it up. -/
lemma scanner_names {p p' : ScannerPoint} {a : Answer} (h : p.after cfg view a = some p')
    (hp : (TaskPoint.scanner p').names = some id) :
    (TaskPoint.scanner p).visits id = true ∨ (TaskPoint.scanner p).names = some id ∨
      a = .file (some id) ∧ ∃ path rest, p = .getActive path rest := by
  cases ScannerPoint.next_of_after h with
  | publishes f =>
    cases hp
    exact .inl (by simp [TaskPoint.visits])
  | known path f rest =>
    cases hp
    exact .inr (.inr ⟨rfl, path, rest, rfl⟩)
  | resizes f =>
    cases hp
    exact .inr (.inl rfl)
  | _ => first | cases hp | simp at hp

/-- The record that a task names after a step it named before, or visited, or has just been
given. -/
lemma names_after {p p' : TaskPoint} {a : Answer} (h : p.after cfg view a = some p')
    (hp : p'.names = some id) :
    p.visits id = true ∨ p.names = some id ∨
      a = .file (some id) ∧ ∃ path rest, p = .scanner (.getActive path rest) := by
  cases TaskPoint.next_of_after h with
  | scanner p q hq =>
    rcases scanner_names hq hp with hv | hn | ⟨ha, path, rest, rfl⟩
    · exact .inl hv
    · exact .inr (.inl hn)
    · exact .inr (.inr ⟨ha, path, rest, rfl⟩)
  | monitor p q hq =>
    cases MonitorPoint.next_of_after hq with
    | updates f c st rest =>
      cases hp
      exact .inl (by simp [TaskPoint.visits])
    | _ => first | cases hp | simp at hp
  | _ => cases hp

/-- The files that a section lists are stored. -/
lemma mem_files_of_lists {m : StateManager} {p : TaskPoint} (h : id ∈ p.lists m) :
    id ∈ m.files := by
  unfold TaskPoint.lists at h
  split at h
  · exact (mem_getFilesByStatus h).1
  · exact (mem_getFilesByStatus h).1
  · exact (List.mem_filter.mp h).1
  · exact (mem_getFilesByStatus h).1
  · cases h

/-- The record that a task names once it went on was referred to before, or is stored. -/
lemma names_goOn (ht : t.Consistent cfg)
    (hgo : t.goOn cfg (s.view (s.perform cfg now (t.nextOp cfg)).1 now env)
      (s.perform cfg now (t.nextOp cfg)).1.published (s.perform cfg now (t.nextOp cfg)).2 = some t')
    (h : t'.point.names = some id) : t.refersTo id ∨ id ∈ s.manager.files := by
  rcases point_goOn hgo with hsame | ⟨b, hafter, hb⟩
  · exact .inl (.inr (.inl (by rw [← hsame, h])))
  · rcases names_after hafter h with hv | hn | ⟨rfl, path, rest, hp⟩
    · exact .inl (.inl hv)
    · exact .inl (.inr (.inl hn))
    · have hop : t.point.op cfg = .getActiveFileByPath path := by rw [hp]; rfl
      have hwait : t.phase = .awaiting :=
        awaiting_of_consistent ht (by simp [hop]) (by simp [hop])
      rcases hb with ⟨-, hans⟩ | hans
      · simp only [Task.nextOp, hwait, hop, System.perform, perform, Answer.file.injEq] at hans
        exact .inr (getActiveFileByPath_some hans.symm).1
      · rw [hwait] at hans
        cases hans

/-- **How a loop comes to refer to a record**: it has found it stored. -/
lemma refersTo_goOn (ht : t.Consistent cfg)
    (hgo : t.goOn cfg (s.view (s.perform cfg now (t.nextOp cfg)).1 now env)
      (s.perform cfg now (t.nextOp cfg)).1.published (s.perform cfg now (t.nextOp cfg)).2 = some t')
    (h : t'.refersTo id) : t.refersTo id ∨ id ∈ s.manager.files := by
  rcases h with hv | hn | ⟨hloop, e, a, hphase, he⟩
  · rcases visits_goOn ht hgo hv with hv | hlists
    · exact .inl (.inl hv)
    · exact .inr (mem_files_of_lists hlists)
  · exact names_goOn ht hgo hn
  · rcases goOn_cases hgo with ⟨b, p', -, rfl, -⟩ | ⟨e', b, hpub, rfl, -⟩ | ⟨e', b, -, rfl⟩
    · -- an event of its own is about the file that the scanner has just checked
      refine names_goOn ht hgo ?_
      cases p' with
      | scanner p =>
        cases p with
        | published f st rest =>
          obtain ⟨rfl, -⟩ := TaskPhase.publishing.inj hphase
          rw [← he]
          rfl
        | _ => cases hphase
      | _ => cases hphase
    · obtain ⟨rfl, -⟩ := TaskPhase.publishing.inj hphase
      exact .inr (he ▸ (writes_of_published hpub).2.1)
    · cases hphase

end References

/-! ## The invariant -/

/-- A stored record and the loops, with the readings of the record. The growth fields of the record
notice what they have missed, and follow the readings if no loop holds a reading; the fields that a
loop holds follow the readings; and a loop is going to give `READY` only if nothing has risen for
the time-out. -/
structure RecordTracked (cfg : Settings) (log : List (ℕ × ℕ)) (s : System) (id : FileId) :
    Prop where
  notices : (s.manager.heap id).tracker.Notices log
  settled : (∀ t ∈ s.tasks, ∀ kwargs, t.pending ≠ some (id, kwargs)) →
    ∀ x ∈ log.getLast?, x.2 = (s.manager.heap id).fileSize
  pending : ∀ t ∈ s.tasks, ∀ kwargs, t.pending = some (id, kwargs) →
    ((s.manager.heap id).setattrs kwargs).tracker.Follows log
  ready : ∀ t ∈ s.tasks, t.givesReady cfg id = true →
    ∃ u, u + cfg.growthTimeout ≤ s.now ∧ NoRiseAfter u log

/-- The invariant of the runs of the loops. -/
structure GrowthTracked (cfg : Settings) (log : FileId → List (ℕ × ℕ)) (s : System) : Prop where
  consistent : ∀ t ∈ s.tasks, t.Consistent cfg
  noWorker : ∀ t ∈ s.tasks, ∀ p, t.point ≠ .worker p
  known : ∀ t ∈ s.tasks, ∀ id, t.refersTo id → id < s.manager.repo.nextId
  past : ∀ id, ∀ x ∈ log id, x.1 ≤ s.now
  tracked : ∀ id ∈ s.manager.files, RecordTracked cfg (log id) s id

/-! ## The tasks of a step -/

section Tasks

variable {cfg : Settings} {view : View} {s : System} {i now : ℕ} {env : Env} {id : FileId}
variable {t t' u : Task} {kwargs : List Attr}

/-- A task that is no worker does not become one. -/
lemma not_worker_goOn {published : Option FileStatusChangedEvent} {a : Answer}
    (ht : ∀ p, t.point ≠ .worker p) (hgo : t.goOn cfg view published a = some t') :
    ∀ p, t'.point ≠ .worker p := by
  rcases point_goOn hgo with hsame | ⟨b, hafter, -⟩
  · rwa [hsame]
  · generalize t.point = r, t'.point = r' at hafter ht ⊢
    cases TaskPoint.next_of_after hafter with
    | worker q => exact absurd rfl (ht q)
    | _ => exact fun _ hw => by cases hw

/-- New tasks are not loops. -/
lemma isLoop_created {m : StateManager} {o : Op} {sec : Section} (h : u ∈ System.created m o sec) :
    u.point.isLoop = false ∧ ∀ p, u.point ≠ .worker p := by
  rcases created_cases h with ⟨ev, -, rfl⟩ | ⟨f, rfl⟩
  · cases ev <;> exact ⟨rfl, fun _ hp => by cases hp⟩
  · exact ⟨rfl, fun _ hp => by cases hp⟩

/-- Who refers to a record is a loop, or the release of the files that wait for the network. -/
lemma isLoop_of_pending (h : t.pending = some (id, kwargs)) : t.point.isLoop = true := by
  unfold Task.pending at h
  split at h
  · cases hp : t.point with
    | scanner p => rfl
    | monitor p => rfl
    | _ => rw [hp] at h; cases h
  · cases h

/-- Only the scanner's loops write READY for a stable file. -/
lemma isLoop_of_givesReady (h : t.givesReady cfg id = true) : t.point.isLoop = true := by
  cases hp : t.point with
  | scanner p => rfl
  | monitor p => rfl
  | _ =>
    simp only [Task.givesReady, hp, TaskPoint.recommendsReady, TaskPoint.updates,
      TaskPoint.isLoop] at h
    split at h <;> simp at h

/-- A loop found after a step of a task is that task or was there before. -/
lemma isLoop_tasks_step {cancelled : List ℕ} {m : StateManager} {o : Op} {sec : Section}
    (hu : u ∈ (s.tasks.set i t').map (Task.cancel cancelled) ++ System.created m o sec)
    (hloop : u.point.isLoop = true) : u = t' ∨ u ∈ s.tasks := by
  rcases mem_tasks_step hu with rfl | rfl | hnew | ⟨j, -, hj⟩
  · exact .inl rfl
  · cases hloop
  · rw [(isLoop_created hnew).1] at hloop
    cases hloop
  · exact .inr (List.mem_of_getElem? hj)

/-- The loops execute no retry. -/
lemma nextOp_ne_executeRetryTask (hloop : u.point.isLoop = true) :
    u.nextOp cfg ≠ .call (.executeRetryTask id) := by
  intro hop
  cases calls_of_nextOp hop
  cases hloop

/-- A loop is no timer of a retry. -/
lemma not_retry_of_isLoop (hloop : u.point.isLoop = true) (handle : ℕ) (f : FileId)
    (p : RetryPoint) : u.point ≠ .retry handle f p := by
  intro hp
  rw [hp] at hloop
  cases hloop

/-- The tasks an operation creates refer to no record as a loop does. -/
lemma not_refersTo_created {m : StateManager} {o : Op} {sec : Section}
    (h : u ∈ System.created m o sec) : ¬ u.refersTo id := by
  have hloop := (isLoop_created h).1
  rintro (href | href | ⟨href, -⟩)
  · rcases created_cases h with ⟨ev, -, rfl⟩ | ⟨f, rfl⟩
    · cases ev <;> cases href
    · cases href
  · rcases created_cases h with ⟨ev, -, rfl⟩ | ⟨f, rfl⟩
    · cases ev <;> cases href
    · cases href
  · rw [hloop] at href
    cases href

end Tasks

/-! ## The step -/

section Step

variable {cfg : Settings} {log : FileId → List (ℕ × ℕ)} {s s' : System} {i now size : ℕ} {env : Env}
variable {id : FileId} {t t' : Task}

/-- **A step without a reading of the record** leaves it tracked: its growth fields stay, or become
those that the task has held.

**Proof sketch.** The growth fields of the record stay, or the task writes the fields it holds,
and then the tracker becomes the one it held, which follows the readings. A task that goes on
without a reading holds what it held before. READY is given by a task that was about to give it,
or had read a stable record; the condition excludes the one that overwrites a reading it has not
seen. -/
lemma recordTracked_of_not_reads (h : GrowthTracked cfg log s)
    (hok : ReadsApart cfg s (.run i now env)) (ht : s.tasks[i]? = some t) (hnow : s.now ≤ now)
    (hgo : t.goOn cfg (s.view (s.perform cfg now (t.nextOp cfg)).1 now env)
      (s.perform cfg now (t.nextOp cfg)).1.published (s.perform cfg now (t.nextOp cfg)).2 = some t')
    (hmanager : s'.manager = (s.perform cfg now (t.nextOp cfg)).1.manager) (hnow' : s'.now = now)
    (htasks : s'.tasks = (s.tasks.set i t').map
        (Task.cancel (s.perform cfg now (t.nextOp cfg)).1.cancelled) ++
      System.created s.manager (t.nextOp cfg) (s.perform cfg now (t.nextOp cfg)).1)
    (hid : id ∈ s.manager.files) (hread : ∀ n, t.reads s.manager env ≠ some (id, n)) :
    RecordTracked cfg (log id) s' id := by
  have hr := h.tracked id hid
  have htmem : t ∈ s.tasks := List.mem_of_getElem? ht
  have htracker : (s'.manager.heap id).tracker =
      ((s.manager.heap id).setattrs ((t.nextOp cfg).attrs id)).tracker := by
    rw [hmanager, perform_fst]
    exact tracker_perform hid
  have hwrites := attrs_nextOp cfg id (h.noWorker t htmem)
  constructor
  · rcases hwrites with hsame | hpending
    · rw [htracker, hsame]
      exact hr.notices
    · rw [htracker]
      exact (hr.pending t htmem _ hpending).notices
  · intro hnone
    rw [htasks] at hnone
    by_cases hp : ∃ u ∈ s.tasks, ∃ kwargs, u.pending = some (id, kwargs)
    · -- who held fields is the task of the step, and has written them
      obtain ⟨u, hu, kwargs, hpu⟩ := hp
      have hretry := not_retry_of_isLoop (isLoop_of_pending hpu)
      obtain ⟨j, hj⟩ := List.mem_iff_getElem?.mp hu
      by_cases hji : j = i
      · subst hji
        obtain rfl : t = u := Option.some.inj (ht.symm.trans hj)
        rcases written_or_pending hid hgo hpu with hattrs | ⟨kwargs', hpending⟩
        · have hfollows := hr.pending t htmem kwargs hpu
          rw [hattrs] at htracker
          rw [← htracker] at hfollows
          exact hfollows.value
        · have hretry' := not_retry_of_isLoop (isLoop_of_pending hpending)
          exact absurd hpending (hnone t' (self_mem_tasks_step ht hretry') kwargs')
      · exact absurd hpu (hnone u (exists_tasks_step hji hj hretry) kwargs)
    · push Not at hp
      have hsame := hwrites.resolve_right (hp t htmem _)
      have hsize : (s'.manager.heap id).fileSize = (s.manager.heap id).fileSize :=
        congrArg Tracker.value (htracker.trans (hsame _))
      rw [hsize]
      exact hr.settled hp
  · intro u hu kwargs hpu
    rw [htasks] at hu
    rcases isLoop_tasks_step hu (isLoop_of_pending hpu) with rfl | hold
    · obtain ⟨kwargs₀, hp₀, hsame, hop⟩ := pending_goOn (h.consistent t htmem) hgo hread hpu
      have hkeep : (s'.manager.heap id).tracker = (s.manager.heap id).tracker := by
        rw [htracker, hop]
        rfl
      rw [hsame, tracker_setattrs_congr hkeep]
      exact hr.pending t htmem kwargs₀ hp₀
    · have hfollows := hr.pending u hold kwargs hpu
      rcases hwrites with hsame | hpending
      · rw [tracker_setattrs_congr (htracker.trans (hsame _))]
        exact hfollows
      · refine follows_setattrs hfollows ?_
        rw [htracker]
        exact hr.pending t htmem _ hpending
  · have holds : ∀ v ∈ s.tasks, v.givesReady cfg id = true →
        ∃ u, u + cfg.growthTimeout ≤ s'.now ∧ NoRiseAfter u (log id) := by
      intro v hv hgives
      obtain ⟨u, hle, hquiet⟩ := hr.ready v hv hgives
      exact ⟨u, by omega, hquiet⟩
    intro u hu hgives
    rw [htasks] at hu
    rcases isLoop_tasks_step hu (isLoop_of_givesReady hgives) with rfl | hold
    · rcases givesReady_goOn hgo hread hgives with hold | ⟨hloop, hw, hne⟩
      · exact holds t htmem hold
      · rcases givesReady_of_writes hloop hw with hold | ⟨kwargs, hpending⟩
        · exact holds t htmem hold
        · exact absurd ((hok t ht).2 (id, kwargs) hpending hw) hne
    · exact holds u hold hgives

/-- A reading that is not above the size of the record is not above the last one, and that one was
not above the size either. -/
lemma le_of_seesApart {l : List (ℕ × ℕ)} (hr : RecordTracked cfg l s id)
    (hsees : t.SeesApart cfg s id size) (hle : ¬ (s.manager.heap id).fileSize < size) :
    ∀ y ∈ l.getLast?, size ≤ y.2 ∧ y.2 ≤ (s.manager.heap id).fileSize := by
  intro y hy
  by_cases hp : ∃ u ∈ s.tasks, ∃ kwargs, u.pending = some (id, kwargs)
  · obtain ⟨u, hu, kwargs, hpu⟩ := hp
    have hlast : y.2 = ((s.manager.heap id).setattrs kwargs).fileSize :=
      (hr.pending u hu kwargs hpu).value y hy
    have hsize : ((s.manager.heap id).setattrs kwargs).fileSize = size :=
      (hsees.2 u hu).1 (id, kwargs) hpu rfl
    omega
  · push Not at hp
    have hlast := hr.settled hp y hy
    omega

/-- The fields that the task comes to hold by its reading follow the readings. -/
lemma follows_of_holdsReading {f : TrackedFile} {l : List (ℕ × ℕ)} {kwargs : List Attr}
    (hnotices : f.tracker.Notices l) (hnow : ∀ y ∈ l, y.1 ≤ now)
    (hle : ¬ f.fileSize < size → ∀ y ∈ l.getLast?, size ≤ y.2 ∧ y.2 ≤ f.fileSize)
    (hcheck : t.point.checksExisting = true → size ≤ f.fileSize)
    (hholds : t.HoldsReading f id now size t') (hp : t'.pending = some (id, kwargs)) :
    (f.setattrs kwargs).tracker.Follows (l ++ [(now, size)]) := by
  rcases hholds with ⟨-, -, hnone⟩ | ⟨kwargs', hp', hcases⟩
  · rw [hnone] at hp
    cases hp
  · obtain rfl : kwargs' = kwargs := by
      rw [hp'] at hp
      exact (Prod.mk.inj (Option.some.inj hp)).2
    rcases hcases with ⟨hchecks, htracker⟩ | htracker | htracker <;> rw [htracker]
    · have hnot : ¬ f.fileSize < size := (hcheck hchecks).not_gt
      exact ⟨by simp, hnotices.since_concat (hle hnot)⟩
    · refine ⟨by simp, ?_⟩
      rintro u ⟨⟩
      refine noRiseAfter_of_forall_le fun y hy => ?_
      rcases List.mem_append.mp hy with hy | hy
      · exact hnow y hy
      · rw [List.mem_singleton.mp hy]
    · exact hnotices.follows_read hle hnow

/-- **A reading of the record** that is seen apart leaves it tracked.

**Proof sketch.** The record does not change, and the task holds the new reading, or needs not,
since the size is the same. So its tracker follows the readings by `follows_of_holdsReading`.
Fields that other tasks hold follow them too, as the condition says that the reading does not rise
above theirs. -/
lemma recordTracked_of_reads (h : GrowthTracked cfg log s)
    (hok : ReadsApart cfg s (.run i now env)) (ht : s.tasks[i]? = some t) (hnow : s.now ≤ now)
    (hgo : t.goOn cfg (s.view (s.perform cfg now (t.nextOp cfg)).1 now env)
      (s.perform cfg now (t.nextOp cfg)).1.published (s.perform cfg now (t.nextOp cfg)).2 = some t')
    (hmanager : s'.manager = (s.perform cfg now (t.nextOp cfg)).1.manager) (hnow' : s'.now = now)
    (htasks : s'.tasks = (s.tasks.set i t').map
        (Task.cancel (s.perform cfg now (t.nextOp cfg)).1.cancelled) ++
      System.created s.manager (t.nextOp cfg) (s.perform cfg now (t.nextOp cfg)).1)
    (hid : id ∈ s.manager.files) (hread : t.reads s.manager env = some (id, size)) :
    RecordTracked cfg (log id ++ [(now, size)]) s' id := by
  have hr := h.tracked id hid
  have hsees : t.SeesApart cfg s id size := (hok t ht).1 (id, size) hread
  have hle := le_of_seesApart hr hsees
  have hpast : ∀ y ∈ log id, y.1 ≤ now := fun y hy => (h.past id y hy).trans hnow
  obtain ⟨hsame, hnone, hholds, hready⟩ := reads_goOn hid hgo hread
  have hheap : s'.manager.heap id = s.manager.heap id := by rw [hmanager, hsame]
  have hself : ∀ kwargs, t'.pending = some (id, kwargs) → t' ∈ s'.tasks := by
    intro kwargs hp
    rw [htasks]
    exact self_mem_tasks_step ht (not_retry_of_isLoop (isLoop_of_pending hp))
  constructor
  · rw [hheap]
    exact hr.notices.concat hle
  · intro hno y hy
    rw [hheap]
    rw [List.getLast?_concat] at hy
    cases hy
    rcases hholds with ⟨-, hsize, -⟩ | ⟨kwargs, hp, -⟩
    · exact hsize
    · exact absurd hp (hno t' (hself kwargs hp) kwargs)
  · intro u hu kwargs hp
    rw [hheap]
    rw [htasks] at hu
    rcases isLoop_tasks_step hu (isLoop_of_pending hp) with rfl | hold
    · exact follows_of_holdsReading hr.notices hpast hle hsees.1 hholds hp
    · exact (hr.pending u hold kwargs hp).concat ((hsees.2 u hold).1 (id, kwargs) hp rfl)
  · intro u hu hgives
    rw [hnow']
    rw [htasks] at hu
    rcases isLoop_tasks_step hu (isLoop_of_givesReady hgives) with rfl | hold
    · obtain ⟨-, -, v, hv, hstable⟩ := hready id hgives
      exact ⟨v, hstable, (hr.notices.follows_read hle hpast).since v hv⟩
    · obtain ⟨v, hstable, hquiet⟩ := hr.ready u hold hgives
      have hnot : ¬ (s.manager.heap id).fileSize < size := ((hsees.2 u hold).2 hgives).not_gt
      exact ⟨v, by omega, hquiet.concat fun y hy => (hle hnot y hy).1⟩

/-- Only the scanner adds files. -/
lemma point_of_addFile {path : FilePath} {lw : Option ℕ}
    (hop : t.nextOp cfg = .call (.addFile path size lw)) :
    ∃ rest, t.point = .scanner (.addFile path size lw rest) ∧ t.phase = .awaiting := by
  cases calls_of_nextOp hop with
  | addFile _ _ _ rest => exact ⟨rest, rfl, rfl⟩

/-- A record comes by `add_file`, and its first reading is the size it is found with. -/
lemma found_of_new (hid : id ∉ s.manager.files)
    (hid' : id ∈ (s.perform cfg now (t.nextOp cfg)).1.manager.files) :
    id = s.manager.repo.nextId ∧ ∃ size, (∀ env, t.reads s.manager env = some (id, size)) ∧
      ((s.perform cfg now (t.nextOp cfg)).1.manager.heap id).tracker = ⟨size, none⟩ := by
  rw [perform_fst] at hid' ⊢
  obtain ⟨path, size, lw, hop, hfree, rfl, hfound⟩ := addFile_of_new hid' hid
  obtain ⟨rest, hpoint, hphase⟩ := point_of_addFile hop
  refine ⟨rfl, size, fun env => ?_, by rw [hfound]; rfl⟩
  simp only [Task.reads, hphase, hpoint, TaskPoint.reads, hfree, if_true]

/-- **A record that is found** is tracked: no loop refers to it yet.

**Proof sketch.** The id is new, so no task referred to it, and the loop that ran has not listed
it. The record holds the size that was read when it was found, which is the only reading. -/
lemma recordTracked_of_new (h : GrowthTracked cfg log s) (ht : s.tasks[i]? = some t)
    (hgo : t.goOn cfg (s.view (s.perform cfg now (t.nextOp cfg)).1 now env)
      (s.perform cfg now (t.nextOp cfg)).1.published (s.perform cfg now (t.nextOp cfg)).2 = some t')
    (htasks : s'.tasks = (s.tasks.set i t').map
        (Task.cancel (s.perform cfg now (t.nextOp cfg)).1.cancelled) ++
      System.created s.manager (t.nextOp cfg) (s.perform cfg now (t.nextOp cfg)).1)
    (hnew : id = s.manager.repo.nextId) (hid : id ∉ s.manager.files)
    (htracker : (s'.manager.heap id).tracker = ⟨size, none⟩) :
    RecordTracked cfg (log id ++ [(now, size)]) s' id := by
  have htmem : t ∈ s.tasks := List.mem_of_getElem? ht
  have hunknown : ∀ u ∈ s'.tasks, u.point.isLoop = true → ¬ u.refersTo id := by
    have hold : ∀ u ∈ s.tasks, ¬ u.refersTo id := fun u hu href =>
      absurd (h.known u hu id href) (by rw [hnew]; exact lt_irrefl _)
    intro u hu hloop href
    rw [htasks] at hu
    rcases isLoop_tasks_step hu hloop with rfl | hu
    · rcases refersTo_goOn (h.consistent t htmem) hgo href with href | hmem
      · exact hold t htmem href
      · exact hid hmem
    · exact hold u hu href
  have hfollows : (s'.manager.heap id).tracker.Follows (log id ++ [(now, size)]) := by
    rw [htracker]
    exact ⟨by simp, fun _ h => by cases h⟩
  refine ⟨hfollows.notices, fun _ => hfollows.value, fun u hu kwargs hp => ?_, fun u hu hg => ?_⟩
  · exact absurd (refersTo_of_pending hp) (hunknown u hu (isLoop_of_pending hp))
  · exact absurd (refersTo_of_givesReady hg) (hunknown u hu (isLoop_of_givesReady hg))

/-- A step that reads a size adds the reading. -/
lemma readingsAt_of_reads (ht : s.tasks[i]? = some t)
    (hread : t.reads s.manager env = some (id, size)) :
    s.readingsAt id (.run i now env) = [(now, size)] := by
  simp only [System.readingsAt, ht, hread, if_true]

/-- A step that reads no size adds no reading. -/
lemma readingsAt_of_not_reads (ht : s.tasks[i]? = some t)
    (hread : ∀ n, t.reads s.manager env ≠ some (id, n)) :
    s.readingsAt id (.run i now env) = [] := by
  simp only [System.readingsAt, ht]
  split
  · rfl
  · rename_i f n hfn
    refine if_neg ?_
    rintro rfl
    exact hread n hfn

/-- Readings are made by steps of tasks, at the time of the step. -/
lemma mem_readingsAt {a : SystemAction} {x : ℕ × ℕ} (h : x ∈ s.readingsAt id a) :
    ∃ i env, a = .run i x.1 env := by
  cases a with
  | run i now env =>
    simp only [System.readingsAt] at h
    split at h
    · cases h
    · split at h
      · cases h
      · split_ifs at h
        · rw [List.mem_singleton.mp h]
          exact ⟨i, env, rfl⟩
        · cases h
  | _ => cases h

/-- **The step lemma**: a step that reads apart keeps the records tracked.

**Proof sketch.** A stored record is tracked after a reading of it (`recordTracked_of_reads`) and
after any other step (`recordTracked_of_not_reads`); a new one is found by a reading
(`recordTracked_of_new`). -/
theorem growthTracked_step {a : SystemAction} (h : GrowthTracked cfg log s)
    (hok : ReadsApart cfg s a) (hs : systemStep cfg s a = some s') :
    GrowthTracked cfg (fun id => log id ++ s.readingsAt id a) s' := by
  have hconsistent := consistent_step h.consistent hs
  by_cases ha : ∀ i now env, a ≠ .run i now env
  · obtain ⟨hmanager, htasks, -⟩ := systemStep_of_ne_run hs ha
    have hnow : s'.now = s.now := now_of_ne_run hs ha
    have hlog : ∀ id, log id ++ s.readingsAt id a = log id := by
      intro id
      cases a with
      | run i now env => exact absurd rfl (ha i now env)
      | _ => exact List.append_nil _
    refine ⟨hconsistent, ?_, ?_, ?_, ?_⟩
    · rw [htasks]
      exact h.noWorker
    · rw [htasks, hmanager]
      exact h.known
    · intro id
      rw [hlog, hnow]
      exact h.past id
    · intro id hid
      rw [hmanager] at hid
      obtain ⟨hnotices, hsettled, hpending, hready⟩ := h.tracked id hid
      rw [← hmanager] at hnotices hsettled hpending
      rw [← htasks] at hsettled hpending hready
      rw [← hnow] at hready
      rw [hlog]
      exact ⟨hnotices, hsettled, hpending, hready⟩
  · push Not at ha
    obtain ⟨i, now, env, rfl⟩ := ha
    obtain ⟨t, t', ht, hnow, hgo, rfl⟩ := systemStep_run hs
    have htmem : t ∈ s.tasks := List.mem_of_getElem? ht
    have hworker := h.noWorker t htmem
    refine ⟨hconsistent, ?_, ?_, ?_, ?_⟩
    · intro u hu
      rcases mem_tasks_step hu with rfl | rfl | hnew | ⟨j, -, hj⟩
      · exact not_worker_goOn hworker hgo
      · exact fun _ hp => by cases hp
      · exact (isLoop_created hnew).2
      · exact h.noWorker u (List.mem_of_getElem? hj)
    · intro u hu id href
      have hle : s.manager.repo.nextId ≤
          (s.perform cfg now (t.nextOp cfg)).1.manager.repo.nextId := by
        rw [perform_fst]
        exact nextId_le_perform
      refine lt_of_lt_of_le ?_ hle
      rcases mem_tasks_step hu with rfl | rfl | hnew | ⟨j, -, hj⟩
      · rcases refersTo_goOn (h.consistent t htmem) hgo href with href | hmem
        · exact h.known t htmem id href
        · exact s.manager.repo.files_lt id hmem
      · rcases href with href | href | ⟨href, -⟩ <;> cases href
      · exact absurd href (not_refersTo_created hnew)
      · exact h.known u (List.mem_of_getElem? hj) id href
    · intro id x hx
      rcases List.mem_append.mp hx with hx | hx
      · exact (h.past id x hx).trans hnow
      · obtain ⟨i', env', heq⟩ := mem_readingsAt hx
        cases heq
        exact le_rfl
    · intro id hid'
      by_cases hid : id ∈ s.manager.files
      · by_cases hread : ∃ n, t.reads s.manager env = some (id, n)
        · obtain ⟨n, hread⟩ := hread
          simp only [readingsAt_of_reads ht hread]
          exact recordTracked_of_reads h hok ht hnow hgo rfl rfl rfl hid hread
        · push Not at hread
          simp only [readingsAt_of_not_reads ht hread, List.append_nil]
          exact recordTracked_of_not_reads h hok ht hnow hgo rfl rfl rfl hid hread
      · obtain ⟨hnew, n, hread, htracker⟩ := found_of_new hid hid'
        simp only [readingsAt_of_reads ht (hread env)]
        exact recordTracked_of_new h ht hgo rfl hnew hid htracker

end Step

/-! ## The runs -/

section Runs

variable {cfg : Settings} {s : System} {tr : List (System × SystemAction)}

/-- At the start there is nothing to track. -/
lemma growthTracked_start (cfg : Settings) : GrowthTracked cfg (readings []) (System.start 0) where
  consistent := by simp [System.start, Task.Consistent]
  noWorker := by simp [System.start]
  known := by
    intro t ht id href
    simp only [System.start, List.replicate_zero, List.append_nil, List.mem_cons,
      List.not_mem_nil, or_false] at ht
    rcases ht with rfl | rfl | rfl <;>
      rcases href with href | href | ⟨-, e, a, hphase, -⟩ <;> first | cases href | cases hphase
  past := fun _ _ h => by cases h
  tracked := fun _ hid => absurd hid List.not_mem_nil

/-- The records are tracked in every state that the runs reach. -/
lemma growthTracked_run (hrun : Run (systemStep cfg) (System.start 0) tr s)
    (hok : Meets (ReadsApart cfg) tr) : GrowthTracked cfg (readings tr) s := by
  refine hrun.invariant_trace (I := fun tr (s : System) => GrowthTracked cfg (readings tr) s) hok
    (growthTracked_start cfg) ?_
  intro tr s a s' h hstep hs
  have hlog : readings (tr ++ [(s, a)]) = fun id => readings tr id ++ s.readingsAt id a := by
    funext id
    simp [readings]
  rw [hlog]
  exact growthTracked_step h hstep hs

/-- **Stability soundness**: in every run of the loops whose steps read apart, a file that the
scanner or the monitor makes `READY` has not been found larger for the time-out.

**Proof sketch.** The growth fields of the records follow the readings (`growthTracked_run`). A step
that makes a file `READY` writes that status; the task was going to give it, since the keyword
arguments that are held are not written with it. -/
theorem stabilitySound_of_readsApart (hrun : Run (systemStep cfg) (System.start 0) tr s)
    (hok : Meets (ReadsApart cfg) tr) : StabilitySound cfg tr := by
  rintro tr₁ s₁ i now env tr₂ s' rfl hs ⟨t, ht, hloop⟩ id hid hne hready
  obtain ⟨hbefore, hat⟩ := meets_append.mp hok
  have htracked := growthTracked_run hrun.split.1 hbefore
  have hstep : ReadsApart cfg s₁ (.run i now env) := hat (s₁, .run i now env) List.mem_cons_self
  have hmem : t ∈ s₁.tasks := List.mem_of_getElem? ht
  obtain ⟨t₀, t', ht₀, hnow, hgo, rfl⟩ := systemStep_run hs
  obtain rfl : t = t₀ := Option.some.inj (ht.symm.trans ht₀)
  have hw : (t.nextOp cfg).writes id = some .ready := by
    rcases status_perform_cases cfg s₁.manager now (t.nextOp cfg) id with hsame | ⟨-, hchange⟩ |
      ⟨hnew, -⟩
    · rw [perform_fst] at hready
      exact absurd (hsame.symm.trans hready) hne
    · rw [perform_fst] at hready
      rcases hchange with hw | ⟨paths, -, -, hst⟩ | ⟨hop, -⟩
      · rwa [hready] at hw
      · rw [hready] at hst
        cases hst
      · exact absurd hop (nextOp_ne_executeRetryTask hloop)
    · exact absurd hnew (s₁.manager.repo.ne_nextId hid)
  have hgives : t.givesReady cfg id = true := by
    rcases givesReady_of_writes hloop hw with hgives | ⟨kwargs, hpending⟩
    · exact hgives
    · exact absurd ((hstep t ht).2 (id, kwargs) hpending hw) hne
  obtain ⟨u, hle, hquiet⟩ := (htracked.tracked id hid).ready t hmem hgives
  refine hquiet.imp fun x y hxy hlt => ?_
  have hy := hxy hlt
  omega

/-- The first scan finds a file of ten bytes. -/
def fileFound : List SystemAction := startUp ++ (discoverFile 10).take 8 ++ checkStability 0 10 10

/-- Half a minute later the scanner finds it unchanged, and makes it `READY`. -/
def fileUnchanged : List SystemAction :=
  fileFound ++ secondScan ++ checkStability 30000000 10 10 ++ [.run 0 30000000 {}]

/-- The condition on a file that was found, was the same at two checks and became READY. -/
theorem stabilitySound_fileUnchanged :
    ∃ s : System, StabilitySound {} (traceOf (systemStep {}) (System.start 0) fileUnchanged) ∧
      (s.manager.heap 0).status = .ready := by
  obtain ⟨s, hr, hp⟩ := exists_run_of_replay (systemStep {}) (System.start 0) fileUnchanged
    (fun s : System => decide ((s.manager.heap 0).status = .ready)) (by decide +kernel)
  exact ⟨s, stabilitySound_of_readsApart hr (by decide +kernel), of_decide_eq_true hp⟩

/-- Half a minute later the check for changes finds twenty bytes, and writes them; the growth check
finds twenty bytes again. -/
def fileGrown : List SystemAction :=
  fileFound ++ secondScan.dropLast ++
    [.run 0 30000000 { metadata := some (20, none) }, .run 0 30000000 {}] ++
    checkStability 30000000 20 20

/-- The file has been stable since it was found, by its record, and becomes `READY`. -/
theorem increase_absorbed :
    ¬ ∀ (cfg : Settings) (tr : List (System × SystemAction)) (s : System),
      Run (systemStep cfg) (System.start 0) tr s → StabilitySound cfg tr := by
  intro hall
  obtain ⟨s, hr, hp⟩ := exists_run_of_replay (systemStep {}) (System.start 0) fileGrown
    (fun s : System => decide (0 ∈ s.manager.files ∧ (s.manager.heap 0).status ≠ .ready ∧
      s.tasks[0]?.any (·.point.isLoop) ∧
      (systemStep {} s (.run 0 30000000 {})).any
        (fun s' : System => (s'.manager.heap 0).status = .ready))) (by decide +kernel)
  obtain ⟨hid, hne, hloop, hready⟩ := of_decide_eq_true hp
  obtain ⟨t, ht, hloop⟩ := (Option.any_eq_true _ _).mp hloop
  obtain ⟨s', hs', hready⟩ := (Option.any_eq_true _ _).mp hready
  have hstable : StableFor 30000000 30000000
      (readings (traceOf (systemStep {}) (System.start 0) fileGrown) 0) :=
    hall {} _ s' (hr.snoc hs') _ s 0 30000000 {} [] s' rfl hs' ⟨t, ht, hloop⟩ 0 hid hne
      (of_decide_eq_true hready)
  exact absurd hstable (by decide +kernel)

end Runs

end FileAgent

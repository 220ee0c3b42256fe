import FileAgent.JobClosing
import FileAgent.SpaceChecker

set_option relaxedAutoImplicit false
set_option autoImplicit false

/-!
# A job that is short of space

One call of `process_job` whose space check fails. `handle_space_shortage` reads from the reason
text whether the destination is not accessible, and then makes the job wait for the network;
otherwise the job goes to `SpaceRetryManager`. Missing information has a text of its own.

## Main definitions

* `checkedJobStep` — a call of `process_job` with its space check.
* `ToldApart` — an unavailable destination is not taken for a full one.
* `ShortageInv` — the invariant.

## Main results

* `shortageInv_step` — the step lemma.
* `toldApart_iff` — every call returns, and it tells the two apart exactly if the information is
  there.
* `missing_info_waits_for_space` — a job that waits for space when the information is missing.
-/

namespace FileAgent

open Transition StateManager

/-! ## The call -/

/-- One step of a call for `job`, with the space check of `info`. No other service runs. -/
def checkedJobStep (cfg : Settings) (info : Option DestinationInfo) (job : QueueJob) (s : JobRun) :
    JobAction → Option JobRun
  | .work now destinationInfo env =>
    jobStep cfg job s (.work now destinationInfo
      { env with spaceCheck := checkSpaceForFile cfg info (s.manager.heap job.file).fileSize })
  | .deliver now => jobStep cfg job s (.deliver now)
  | .others _ => none

/-- The destination information is missing, or the destination is not accessible. -/
def isUnavailable (info : Option DestinationInfo) : Bool := info.all fun info => !info.isAccessible

/-- What should become of the record of a job whose space check fails: it waits for the network,
with its `retry_count` as it was, if and only if the destination is unavailable, and otherwise it
takes the path of the space retries. -/
def ToldApart (info : Option DestinationInfo) (before after : TrackedFile) : Prop :=
  (after.status = .waitingForNetwork ∧ after.retryCount = before.retryCount ↔
      isUnavailable info = true) ∧
    (isUnavailable info = false → after.status = .waitingForSpace ∨ after.status = .spaceError)

instance (info : Option DestinationInfo) (before after : TrackedFile) :
    Decidable (ToldApart info before after) :=
  inferInstanceAs (Decidable ((_ ↔ _) ∧ (_ → _)))

/-! ## The invariant -/

/-- The reason text of a failed check says that the destination is not accessible. -/
def saysInaccessible (info : Option DestinationInfo) : Bool :=
  info.any fun info => !info.isAccessible

/-- What holds of the record `f` at a point of the call, when it was `before` at the start. -/
def ShortagePoint (cfg : Settings) (info : Option DestinationInfo) (job : QueueJob)
    (before f : TrackedFile) : Option WorkerPoint → Prop
  | none => f = before
  | some (.waitForNetwork j _) =>
    j = job ∧ saysInaccessible info = true ∧ f.retryCount = before.retryCount
  | some (.incrementRetryCount j check) =>
    j = job ∧ saysInaccessible info = false ∧ check = checkSpaceForFile cfg info before.fileSize
  | some (.markSpaceError j _ _) | some (.waitForSpace j _ _) =>
    j = job ∧ saysInaccessible info = false
  | some (.failForSpace j _) => j = job ∧ info = none
  | some (.scheduleRetry j _ _) =>
    j = job ∧ saysInaccessible info = false ∧ f.status = .waitingForSpace
  | some .getNextJob =>
    saysInaccessible info = true ∧ f.status = .waitingForNetwork ∧
        f.retryCount = before.retryCount ∨
      saysInaccessible info = false ∧ (f.status = .waitingForSpace ∨ f.status = .spaceError) ∨
      info = none ∧ f.status = .failed
  | _ => False

/-- The invariant of a call. -/
structure ShortageInv (cfg : Settings) (info : Option DestinationInfo) (job : QueueJob)
    (before : TrackedFile) (s : JobRun) : Prop where
  stored : job.file ∈ s.manager.files
  point : ShortagePoint cfg info job before (s.manager.heap job.file) s.point
  echo : ∀ e ∈ s.echo, e.fileId = job.file ∧ e.newStatus = (s.manager.heap job.file).status
  quiet : s.point = none → s.echo = none

/-- The number of steps of the worker from a point to its return, at most. -/
def WorkerPoint.shortageRank : WorkerPoint → ℕ
  | .incrementRetryCount .. => 4
  | .waitForSpace .. => 3
  | .waitForNetwork .. | .markSpaceError .. | .failForSpace .. => 2
  | .scheduleRetry .. => 1
  | _ => 0

/-- The number of steps of a call to its return, at most. -/
def JobRun.shortageRank (s : JobRun) : ℕ :=
  (match s.point with
    | none => 5
    | some p => p.shortageRank) + if s.echo.isSome then 1 else 0

section Steps

variable {cfg : Settings} {info : Option DestinationInfo} {job : QueueJob} {before : TrackedFile}
  {s s' : JobRun} {now : ℕ} {m : StateManager} {st : FileStatus} {kwargs : List Attr}

/-- Past its start a call reads no more than the status and the `retry_count`. -/
lemma ShortagePoint.congr {f g : TrackedFile} {p : WorkerPoint}
    (h : ShortagePoint cfg info job before f (some p)) (hstatus : g.status = f.status)
    (hcount : g.retryCount = f.retryCount) : ShortagePoint cfg info job before g (some p) := by
  cases p <;> simp only [ShortagePoint, hstatus, hcount] at h ⊢ <;> exact h

/-- An update without a `retry_count` keeps it. -/
lemma retryCount_applyUpdate (f : TrackedFile) (hkwargs : ∀ n, .retryCount n ∉ kwargs) :
    (f.applyUpdate now st kwargs).retryCount = f.retryCount := by
  have hset : ∀ g : TrackedFile, (g.setattrs kwargs).retryCount = g.retryCount := by
    induction kwargs with
    | nil => exact fun _ => rfl
    | cons a kwargs ih =>
      intro g
      rw [TrackedFile.setattrs_cons, ih fun n hn => hkwargs n (List.mem_cons_of_mem _ hn)]
      cases a with
      | retryCount n => exact absurd List.mem_cons_self (hkwargs n)
      | _ => rfl
  simp only [TrackedFile.applyUpdate]
  split_ifs <;> exact hset _

/-- **An update of the job's record.** -/
lemma update_job (now : ℕ) (st : FileStatus) (kwargs : List Attr) (hid : job.file ∈ m.files) :
    let sec := m.updateFileStatusById now job.file st kwargs
    job.file ∈ sec.manager.files ∧
      sec.manager.heap job.file = (m.heap job.file).applyUpdate now st kwargs ∧
      ∀ e ∈ sec.published, e.fileId = job.file ∧ e.newStatus = st := by
  refine ⟨by simpa using hid, by rw [heap_updateFileStatusById hid, Function.update_self], ?_⟩
  intro e he
  rw [published_updateFileStatusById] at he
  split_ifs at he
  · obtain rfl := Option.some.inj he
    exact ⟨rfl, rfl⟩
  · cases he

/-- The handler of an event writes the status that the record has.

**Proof sketch.** The event carries the status that the record has, so its handler writes that
status again and publishes nothing. The record, and with it the invariant, stay; the event is
gone, so the rank falls. -/
lemma shortageInv_deliver (h : ShortageInv cfg info job before s)
    (hs : jobStep cfg job s (.deliver now) = some s') :
    ShortageInv cfg info job before s' ∧ s'.shortageRank < s.shortageRank := by
  obtain ⟨e, he, rfl⟩ := Option.map_eq_some_iff.mp hs
  obtain ⟨hfile, hst⟩ := h.echo e he
  obtain ⟨p, hp⟩ : ∃ p, s.point = some p := by
    cases hp : s.point with
    | none =>
      rw [h.quiet hp] at he
      cases he
    | some p => exact ⟨p, rfl⟩
  have hupdate := update_job now e.newStatus [] h.stored
  simp only [handleFileStatusChanged, hfile] at *
  obtain ⟨hstored, hheap, -⟩ := hupdate
  have hpub : (s.manager.updateFileStatusById now job.file e.newStatus []).published = none := by
    rw [published_updateFileStatusById, hst]
    simp
  refine ⟨⟨hstored, ?_, by simp [hpub],
    fun hnone => absurd (hp.symm.trans hnone) (Option.some_ne_none _)⟩, ?_⟩
  · dsimp only
    rw [hp, hheap]
    have hpoint := h.point
    rw [hp] at hpoint
    refine hpoint.congr ?_ (retryCount_applyUpdate _ fun _ => List.not_mem_nil)
    rw [TrackedFile.applyUpdate_status, hst]
  · simp only [JobRun.shortageRank, hpub, Option.mem_def.mp he, Option.isSome_some,
      Option.isSome_none, if_true, Bool.false_eq_true, if_false]
    exact Nat.lt_succ_self _

/-- **The first stretch**: the check fails, and its text decides.

**Proof sketch.** The text of the check decides the first point: with `not accessible` the call
goes on to wait for the network, otherwise to count the shortage. The record is as before, and
both points have a lower rank than the start. -/
lemma shortageInv_start (henabled : cfg.enablePreCopySpaceCheck = true)
    (hfails : (checkSpaceForFile cfg info before.fileSize).hasSpace = false)
    (h : ShortageInv cfg info job before s) (hp : s.point = none) (view : View)
    (hcheck : view.env.spaceCheck = checkSpaceForFile cfg info before.fileSize) :
    let s' : JobRun := { s with point := some (WorkerPoint.processJob cfg view job) }
    ShortageInv cfg info job before s' ∧ s'.shortageRank < s.shortageRank := by
  have hfirst : WorkerPoint.processJob cfg view job =
      if saysInaccessible info then .waitForNetwork job (checkSpaceForFile cfg info before.fileSize)
      else .incrementRetryCount job (checkSpaceForFile cfg info before.fileSize) := by
    simp only [WorkerPoint.processJob, hcheck, henabled, hfails, Bool.not_false, Bool.and_true,
      if_true, containsLower_reason hfails, saysInaccessible]
    rfl
  have hbefore := h.point
  rw [hp] at hbefore
  have hecho := h.quiet hp
  cases htext : saysInaccessible info with
  | true =>
    simp only [hfirst, htext, if_true]
    refine ⟨⟨h.stored, ⟨rfl, htext, ?_⟩, h.echo, fun h => by cases h⟩, ?_⟩
    · exact congrArg TrackedFile.retryCount hbefore
    · simp [JobRun.shortageRank, WorkerPoint.shortageRank, hp, hecho]
  | false =>
    simp only [hfirst, htext, Bool.false_eq_true, if_false]
    refine ⟨⟨h.stored, ⟨rfl, htext, rfl⟩, h.echo, fun h => by cases h⟩, ?_⟩
    simp [JobRun.shortageRank, WorkerPoint.shortageRank, hp, hecho]

/-- A division by zero in `is_temporary_shortage` needs missing information. -/
lemma eq_none_of_isTemporaryShortage {size : ℕ} (htext : saysInaccessible info = false)
    (h : (checkSpaceForFile cfg info size).isTemporaryShortage = none) : info = none := by
  cases info with
  | none => rfl
  | some d =>
    have hacc : d.isAccessible = true := by simpa [saysInaccessible] using htext
    have havailable := availableBytes_nonneg d
    simp only [SpaceCheckResult.isTemporaryShortage, checkSpaceForFile, hacc, Bool.not_true,
      Bool.false_eq_true, if_false] at h
    split_ifs at h with hspace hzero
    rw [decide_eq_true_eq] at hspace
    omega

/-- The points that await an update of the job's record. -/
lemma shortagePoint_update (cfg : Settings) (now : ℕ) {p : WorkerPoint} (hid : job.file ∈ m.files)
    (hop : p.op cfg = .call (.updateFileStatusById job.file st kwargs)) :
    let r := m.perform cfg now (p.op cfg)
    r.2 = .done 0 ∧
      (r.1.manager.heap job.file).status = st ∧
      ((∀ n, .retryCount n ∉ kwargs) →
        (r.1.manager.heap job.file).retryCount = (m.heap job.file).retryCount) := by
  obtain ⟨-, hheap, -⟩ := update_job now st kwargs hid
  simp only [hop, perform, call, hheap]
  exact ⟨trivial, TrackedFile.applyUpdate_status _ _ _ _, retryCount_applyUpdate _⟩

/-- **The step lemma of the worker**: each point leads to one that expects what its operation wrote,
and is nearer to the return.

**Proof sketch.** By cases on the point. Each operation but the count and the schedule writes a
status, which `shortagePoint_update` gives, and the next point expects it; the rank falls by one
more where a status is written. -/
lemma shortagePoint_after {p p' : WorkerPoint} {destinationInfo : Option StorageInfo} {env : Env}
    (hid : job.file ∈ m.files)
    (hpoint : ShortagePoint cfg info job before (m.heap job.file) (some p))
    (hne : p ≠ .getNextJob)
    (h : p.after cfg (jobRunView (m.perform cfg now (p.op cfg)).1.manager now destinationInfo env)
      (m.perform cfg now (p.op cfg)).2 = some p') :
    ShortagePoint cfg info job before ((m.perform cfg now (p.op cfg)).1.manager.heap job.file)
        (some p') ∧
      p'.shortageRank + (if ((p.op cfg).writes job.file).isSome then 1 else 0) <
        p.shortageRank := by
  cases p with
  | waitForNetwork j check =>
    obtain ⟨rfl, htext, hcount⟩ := hpoint
    obtain ⟨hanswer, hstatus, hkeep⟩ := shortagePoint_update cfg now
      (p := .waitForNetwork j check) hid rfl
    rw [hanswer] at h
    cases h
    exact ⟨.inl ⟨htext, hstatus, (hkeep (by simp)).trans hcount⟩,
      by simp [WorkerPoint.op, Op.writes, WorkerPoint.shortageRank]⟩
  | incrementRetryCount j check =>
    obtain ⟨rfl, htext, rfl⟩ := hpoint
    simp only [WorkerPoint.op, perform, WorkerPoint.after] at h
    split_ifs at h with hmax
    · cases h
      exact ⟨⟨rfl, htext⟩, by simp [WorkerPoint.op, Op.writes, WorkerPoint.shortageRank]⟩
    · split at h
      · cases h
        exact ⟨⟨rfl, htext⟩, by simp [WorkerPoint.op, Op.writes, WorkerPoint.shortageRank]⟩
      · cases h
        exact ⟨⟨rfl, eq_none_of_isTemporaryShortage htext ‹_›⟩,
          by simp [WorkerPoint.op, Op.writes, WorkerPoint.shortageRank]⟩
  | markSpaceError j check spaceErrorAt =>
    obtain ⟨rfl, htext⟩ := hpoint
    obtain ⟨hanswer, hstatus, -⟩ := shortagePoint_update cfg now
      (p := .markSpaceError j check spaceErrorAt) hid rfl
    rw [hanswer] at h
    cases h
    exact ⟨.inr (.inl ⟨htext, .inr hstatus⟩),
      by simp [WorkerPoint.op, Op.writes, WorkerPoint.shortageRank]⟩
  | waitForSpace j check temporary =>
    obtain ⟨rfl, htext⟩ := hpoint
    obtain ⟨hanswer, hstatus, -⟩ := shortagePoint_update cfg now
      (p := .waitForSpace j check temporary) hid rfl
    rw [hanswer] at h
    cases h
    exact ⟨⟨rfl, htext, hstatus⟩, by simp [WorkerPoint.op, Op.writes, WorkerPoint.shortageRank]⟩
  | scheduleRetry j check temporary =>
    obtain ⟨rfl, htext, hstatus⟩ := hpoint
    cases h
    refine ⟨.inr (.inl ⟨htext, .inl ?_⟩),
      by simp [WorkerPoint.op, Op.writes, WorkerPoint.shortageRank]⟩
    rw [status_perform (isTargeted_op _) hid]
    exact hstatus
  | failForSpace j check =>
    obtain ⟨rfl, hnone⟩ := hpoint
    obtain ⟨hanswer, hstatus, -⟩ := shortagePoint_update cfg now
      (p := .failForSpace j check) hid rfl
    rw [hanswer] at h
    cases h
    exact ⟨.inr (.inr ⟨hnone, hstatus⟩),
      by simp [WorkerPoint.op, Op.writes, WorkerPoint.shortageRank]⟩
  | getNextJob => exact absurd rfl hne
  | _ => exact hpoint.elim

/-- A point of the invariant writes to no other record. -/
lemma eq_file_of_writes {p : WorkerPoint} {f : TrackedFile} {i : FileId}
    (hpoint : ShortagePoint cfg info job before f (some p))
    (hw : (p.op cfg).writes i = some st) : i = job.file := by
  cases p with
  | waitForNetwork | markSpaceError | waitForSpace | failForSpace =>
    obtain ⟨rfl, -⟩ := hpoint
    simp only [WorkerPoint.op, Op.writes] at hw
    split_ifs at hw with hi
    exact hi.symm
  | incrementRetryCount | scheduleRetry | getNextJob => cases hw
  | _ => exact hpoint.elim

/-- Whatever a point of the invariant awaits is answered. -/
lemma isSome_after {p : WorkerPoint} {f : TrackedFile} (destinationInfo : Option StorageInfo)
    (env : Env) (hpoint : ShortagePoint cfg info job before f (some p)) (hne : p ≠ .getNextJob) :
    (p.after cfg (jobRunView (m.perform cfg now (p.op cfg)).1.manager now destinationInfo env)
      (m.perform cfg now (p.op cfg)).2).isSome = true := by
  cases p with
  | getNextJob => exact absurd rfl hne
  | incrementRetryCount j check =>
    simp only [WorkerPoint.op, perform, WorkerPoint.after]
    split_ifs
    · rfl
    · split <;> rfl
  | waitForNetwork | markSpaceError | waitForSpace | scheduleRetry | failForSpace => rfl
  | _ => exact hpoint.elim

/-- **The step lemma of a call**: a step keeps the invariant, and the call comes nearer to its
return.

**Proof sketch.** A delivery is `shortageInv_deliver`, and the first stretch `shortageInv_start`.
Otherwise the operation of the point runs; `shortagePoint_after` gives the next point and the
lower rank. An event is published only for the job's file, with the status just written, and it
counts less than the points left. -/
lemma shortageInv_step {a : JobAction} (henabled : cfg.enablePreCopySpaceCheck = true)
    (hfails : (checkSpaceForFile cfg info before.fileSize).hasSpace = false)
    (h : ShortageInv cfg info job before s) (hs : checkedJobStep cfg info job s a = some s') :
    ShortageInv cfg info job before s' ∧ s'.shortageRank < s.shortageRank := by
  cases a with
  | others m => cases hs
  | deliver now => exact shortageInv_deliver h hs
  | work now destinationInfo env =>
    simp only [checkedJobStep, jobStep] at hs
    split at hs
    · cases hs
    · rename_i hstart
      cases hs
      have hbefore := h.point
      rw [hstart] at hbefore
      exact shortageInv_start henabled hfails h hstart _
        (congrArg (fun f : TrackedFile => checkSpaceForFile cfg info f.fileSize) hbefore)
    · cases hs
    · rename_i p hne hecho hp
      obtain ⟨p', hafter, rfl⟩ := Option.map_eq_some_iff.mp hs
      have hpoint := h.point
      rw [hp] at hpoint
      obtain ⟨hpoint', hrank⟩ := shortagePoint_after h.stored hpoint hne hafter
      have htarget : (p.op cfg).isTargeted = true := isTargeted_op p
      have hwrites : ∀ e ∈ (s.manager.perform cfg now (p.op cfg)).1.published,
          e.fileId = job.file ∧ (p.op cfg).writes job.file = some e.newStatus := by
        intro e he
        have hw := (published_perform he).2
        have hfile := eq_file_of_writes hpoint hw
        exact ⟨hfile, hfile ▸ hw⟩
      refine ⟨⟨by rw [files_perform htarget]; exact h.stored, hpoint', fun e he => ?_,
        fun h => by cases h⟩, ?_⟩
      · obtain ⟨hfile, hw⟩ := hwrites e he
        exact ⟨hfile, by rw [status_perform htarget h.stored, hw]; rfl⟩
      · refine lt_of_le_of_lt (Nat.add_le_add_left ?_ _) (hrank.trans_le ?_)
        · cases hpub : (s.manager.perform cfg now (p.op cfg)).1.published with
          | none => exact Nat.zero_le _
          | some e => simp [(hwrites e hpub).2]
        · simp [JobRun.shortageRank, hp]

/-- **Progress**: a call that has not returned can go on. -/
lemma exists_checkedJobStep (h : ShortageInv cfg info job before s) (hs : s.returned = false) :
    ∃ a, (checkedJobStep cfg info job s a).isSome = true := by
  cases hecho : s.echo with
  | some e => exact ⟨.deliver 0, by simp [checkedJobStep, jobStep, hecho]⟩
  | none =>
    refine ⟨.work 0 none {}, ?_⟩
    cases hp : s.point with
    | none => simp [checkedJobStep, jobStep, hecho, hp]
    | some p =>
      have hne : p ≠ .getNextJob := by
        rintro rfl
        simp [JobRun.returned, hp, hecho] at hs
      have hpoint := h.point
      rw [hp] at hpoint
      simp only [checkedJobStep, jobStep, hecho, hp]
      rw [Option.isSome_map]
      exact isSome_after none _ hpoint hne

/-- What a call that has returned has made of the record. -/
lemma toldApart_of_point {f : TrackedFile}
    (hpoint : ShortagePoint cfg info job before f (some .getNextJob)) :
    ToldApart info before f ↔ info.isSome = true := by
  have hunavailable : info.isSome = true → isUnavailable info = saysInaccessible info := by
    cases info <;> simp [isUnavailable, saysInaccessible]
  unfold ToldApart
  obtain ⟨htext, hstatus, hcount⟩ | ⟨htext, hstatus⟩ | ⟨rfl, hstatus⟩ := hpoint
  · have hsome : info.isSome = true := by
      cases info with
      | none => cases htext
      | some d => rfl
    simp [hunavailable hsome, htext, hstatus, hcount, hsome]
  · cases info with
    | none => rcases hstatus with hstatus | hstatus <;> simp [isUnavailable, hstatus]
    | some d =>
      rw [hunavailable rfl, htext]
      rcases hstatus with hstatus | hstatus <;> simp [hstatus]
  · simp [isUnavailable, hstatus]

end Steps

/-! ## The whole call -/

/-- **Unavailable and full destinations.** For any settings, any information, and any record: a call
for a job whose space check fails takes at most five steps, it can go on until it returns, and when
it returns, the unavailable destination has not been taken for a full one, nor the other way round,
if and only if the destination information is there.

**Proof sketch.** Induction on the run, with the invariant `ShortageInv`. The text of the check says
that the destination is not accessible exactly if the information says so (`containsLower_reason`),
and the text decides the points that the call comes to. -/
theorem toldApart_iff {cfg : Settings} {info : Option DestinationInfo} {job : QueueJob}
    {m : StateManager} {s : JobRun} {tr : List (JobRun × JobAction)}
    (henabled : cfg.enablePreCopySpaceCheck = true) (hid : job.file ∈ m.files)
    (hfails : (checkSpaceForFile cfg info (m.heap job.file).fileSize).hasSpace = false)
    (hrun : Run (checkedJobStep cfg info job) { manager := m } tr s) :
    tr.length ≤ 5 ∧
      (s.returned = false → ∃ a, (checkedJobStep cfg info job s a).isSome = true) ∧
      (s.returned = true →
        (ToldApart info (m.heap job.file) (s.manager.heap job.file) ↔ info.isSome = true)) := by
  obtain ⟨hinv, hrank⟩ : ShortageInv cfg info job (m.heap job.file) s ∧
      tr.length + s.shortageRank ≤ 5 := by
    induction hrun with
    | start => exact ⟨⟨hid, rfl, by simp, fun _ => rfl⟩, le_refl 5⟩
    | snoc _ hs ih =>
      obtain ⟨hinv, hrank⟩ := ih
      obtain ⟨hinv', hless⟩ := shortageInv_step henabled hfails hinv hs
      refine ⟨hinv', ?_⟩
      rw [List.length_append, List.length_singleton]
      omega
  refine ⟨by omega, exists_checkedJobStep hinv, fun hreturned => ?_⟩
  have hpoint := hinv.point
  rw [point_of_returned hreturned] at hpoint
  exact toldApart_of_point hpoint

/-- A destination that cannot be reached. -/
def unreachableDestination : DestinationInfo where
  path := "/dst"
  isAccessible := false
  hasWriteAccess := false
  freeSpaceGb := 0
  totalSpaceGb := 0
  usedSpaceGb := 0
  status := .error
  warningThresholdGb := 50
  criticalThresholdGb := 20
  lastChecked := 0
  errorMessage := some "mount lost"
  freeSpaceGb_nonneg := le_rfl

/-- A job whose destination cannot be reached waits for the network. -/
theorem toldApart_unreachableDestination :
    ∃ s, Run (checkedJobStep {} (some unreachableDestination) ⟨0, "/src/a.mxf"⟩)
        { manager := queuedManager }
        (traceOf (checkedJobStep {} (some unreachableDestination) ⟨0, "/src/a.mxf"⟩)
          { manager := queuedManager } [.work 0 none {}, .work 0 none {}, .deliver 0]) s ∧
      s.returned = true ∧
      ToldApart (some unreachableDestination) (queuedManager.heap 0) (s.manager.heap 0) := by
  obtain ⟨s, hrun, hs⟩ := exists_run_of_replay
    (checkedJobStep {} (some unreachableDestination) ⟨0, "/src/a.mxf"⟩)
    ({ manager := queuedManager }) ([.work 0 none {}, .work 0 none {}, .deliver 0])
    JobRun.returned (by decide +kernel)
  exact ⟨s, hrun, hs, ((toldApart_iff (by decide) (by decide +kernel) (by decide +kernel) hrun).2.2
    hs).mpr rfl⟩

/-- **Missing information counts as a shortage**: the destination information is missing, the space
check fails, and the job waits for space with one retry counted. -/
theorem missing_info_waits_for_space :
    ∃ tr s, Run (checkedJobStep {} none ⟨0, "/src/a.mxf"⟩) { manager := queuedManager } tr s ∧
      (checkSpaceForFile {} none (queuedManager.heap 0).fileSize).hasSpace = false ∧
      s.returned = true ∧ (s.manager.heap 0).status = .waitingForSpace ∧
      (s.manager.heap 0).retryCount = 1 ∧
      ¬ ToldApart none (queuedManager.heap 0) (s.manager.heap 0) := by
  obtain ⟨s, hrun, hs⟩ := exists_run_of_replay (checkedJobStep {} none ⟨0, "/src/a.mxf"⟩)
    ({ manager := queuedManager })
    ([.work 0 none {}, .work 0 none {}, .work 0 none {}, .deliver 0, .work 0 none {}])
    (fun s : JobRun => s.returned && decide ((s.manager.heap 0).status = .waitingForSpace) &&
      decide ((s.manager.heap 0).retryCount = 1) &&
      decide (¬ ToldApart none (queuedManager.heap 0) (s.manager.heap 0))) (by decide +kernel)
  simp only [Bool.and_eq_true, decide_eq_true_eq] at hs
  obtain ⟨⟨⟨hreturned, hstatus⟩, hcount⟩, hconfused⟩ := hs
  exact ⟨_, s, hrun, by decide +kernel, hreturned, hstatus, hcount, hconfused⟩

end FileAgent

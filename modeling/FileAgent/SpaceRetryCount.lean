import FileAgent.RetryBookkeeping
import FileAgent.SpaceShortage

set_option relaxedAutoImplicit false
set_option autoImplicit false

/-!
# The number of space retries

A file that is short of space gets a retry each time, until `_should_give_up_retry` compares its
`retry_count` with `max_space_retries`. The count is incremented before it is compared, in
`schedule_space_retry`, and lives in the record across the round trips of the file through the
queue. Here are the calls of `schedule_space_retry` for the jobs of one file, section by section,
with all the other operations on the records and the retry tasks in between, as long as no copy of
the file succeeds.

## Main definitions

* `SpaceRun`, `SpaceAction`, `spaceStep` — the calls for one file, and everything else.
* `CountsRetries` — the file is given up exactly when all retries have been used up.
* `SpaceRunInv` — the invariant.

## Main results

* `spaceRunInv_step` — the step lemma.
* `countsRetries_iff` — the retries are counted right exactly as long as there are fewer shortages
  than `max_space_retries`.
* `given_up_after_five` — with the default of 6, the file is given up after five retries.
-/

namespace FileAgent

open Transition StateManager

/-! ## The calls -/

/-- The calls of `schedule_space_retry` for one file, and the retries. The last four fields record
what has happened so far. -/
structure SpaceRun where
  retry : RetryState
  /-- The call in progress. -/
  point : Option WorkerPoint := none
  /-- The shortages that were counted in the record. -/
  shortages : ℕ := 0
  /-- The retries that were scheduled for it. -/
  scheduled : ℕ := 0
  /-- The retries that made it `READY` again. -/
  executed : ℕ := 0
  /-- The record was marked `SPACE_ERROR`. -/
  marked : Bool := false

/-- The steps: the space check of a job of the file fails, the call goes on, or another operation
runs. -/
inductive SpaceAction
  | shortage (check : SpaceCheckResult)
  | work (now : ℕ)
  | other (a : RetryAction)

/-- The keyword argument sets `retry_count`. -/
def Attr.isRetryCount : Attr → Bool
  | .retryCount _ => true
  | _ => false

/-- The call is not one of `schedule_space_retry` for the file, and does not complete a copy of it,
which sets `retry_count` back to 0. -/
def StateManager.ServiceCall.leavesRetries (file : FileId) : ServiceCall → Bool
  | .incrementRetryCount id | .scheduleRetry id _ _ => id ≠ file
  | .updateFileStatusById id _ kwargs => id ≠ file || kwargs.all fun a => !a.isRetryCount
  | _ => true

/-- The same for all operations on the records and the retry tasks. -/
def RetryAction.leavesRetries (file : FileId) : RetryAction → Bool
  | .call _ c => c.leavesRetries file
  | _ => true

/-- The operation is the retry of the file, and makes it `READY`. -/
def RetryState.retries (s : RetryState) (file : FileId) : RetryAction → Bool
  | .fire handle =>
    (s.tasks.find? (·.handle = handle)).any (·.file = file) && decide (file ∈ s.manager.files) &&
      (s.manager.heap file).status = .waitingForSpace && (s.manager.heap file).retryInfo.isSome
  | _ => false

/-- The call for the job between two sections; it returns to the loop of the worker. -/
def callPoint : WorkerPoint → Option WorkerPoint
  | .getNextJob => none
  | p => some p

/-- What a section of the call adds to the record of what has happened. -/
def SpaceRun.tally (s : SpaceRun) (file : FileId) : WorkerPoint → SpaceRun
  | .incrementRetryCount .. =>
    if file ∈ s.retry.manager.files then { s with shortages := s.shortages + 1 } else s
  | .scheduleRetry .. =>
    if file ∈ s.retry.manager.files then { s with scheduled := s.scheduled + 1 } else s
  | .markSpaceError .. => { s with marked := true }
  | _ => s

/-- One step. -/
def spaceStep (cfg : Settings) (job : QueueJob) (s : SpaceRun) : SpaceAction → Option SpaceRun
  | .shortage check =>
    if s.point.isNone then some { s with point := some (.incrementRetryCount job check) } else none
  | .work now =>
    match s.point with
    | none => none
    | some p =>
      match p.op cfg with
      | .call c =>
        let (sec, answer) := s.retry.manager.perform cfg now (.call c)
        match retryStep s.retry (.call now c),
          p.after cfg (jobRunView sec.manager now none {}) answer with
        | some r, some p' => some { s.tally job.file p with retry := r, point := callPoint p' }
        | _, _ => none
      | _ => none
  | .other a =>
    if a.leavesRetries job.file then
      (retryStep s.retry a).map fun r =>
        { s with
          retry := r
          executed := if s.retry.retries job.file a then s.executed + 1 else s.executed }
    else none

/-- **The retries are counted right**: when the call is about to mark the file `SPACE_ERROR`, as
many retries as its message says have been scheduled and executed, and when it is about to schedule
one, not all have been executed yet and the file was not marked before. -/
def CountsRetries (cfg : Settings) (s : SpaceRun) : Prop :=
  match s.point with
  | some (.markSpaceError ..) =>
    s.scheduled = cfg.maxSpaceRetries ∧ s.executed = cfg.maxSpaceRetries
  | some (.waitForSpace ..) | some (.scheduleRetry ..) =>
    s.executed < cfg.maxSpaceRetries ∧ s.marked = false
  | _ => True

instance (cfg : Settings) (s : SpaceRun) : Decidable (CountsRetries cfg s) := by
  unfold CountsRetries
  split <;> infer_instance

/-! ## The other operations -/

section Others

variable {m m' : StateManager} {file : FileId} {now : ℕ}

/-- What the operations outside the calls leave as it is: they count no retry of the file, schedule
none, and give no uuid twice. -/
structure KeepsCount (file : FileId) (m m' : StateManager) : Prop where
  known : m.repo.nextId ≤ m'.repo.nextId
  stored : file ∈ m'.files → file ∈ m.files
  count : (m'.heap file).retryCount = (m.heap file).retryCount
  retry : m'.HasRetry file → m.HasRetry file

/-- The count is kept where nothing happens. -/
lemma KeepsCount.refl (file : FileId) (m : StateManager) : KeepsCount file m m :=
  ⟨le_rfl, id, rfl, id⟩

/-- An update without a `retry_count`. -/
lemma keepsCount_update {id : FileId} {st : FileStatus} {kwargs : List Attr}
    (h : id ≠ file ∨ ∀ n, .retryCount n ∉ kwargs) :
    KeepsCount file m (m.updateFileStatusById now id st kwargs).manager where
  known := by rw [nextId_updateFileStatusById]
  stored := by rw [files_updateFileStatusById]; exact fun hmem => hmem
  count := by
    by_cases hid : id ∈ m.files
    · rw [heap_updateFileStatusById hid]
      by_cases hfile : file = id
      · subst hfile
        rw [Function.update_self]
        exact retryCount_applyUpdate _ (h.resolve_left fun hne => hne rfl)
      · rw [Function.update_of_ne hfile]
    · rw [updateFileStatusById_of_not_mem hid]
  retry := fun h => (hasRetry_updateFileStatusById.mp h).1

/-- **What the other calls leave as it is.**

**Proof sketch.** By cases on the call. Those that name a record name another one, or set no
count; a clean-up changes the status of a record and nothing else, and a new record has an id that
was not given before. -/
lemma keepsCount_call {c : ServiceCall} (h : c.leavesRetries file = true)
    (hknown : file < m.repo.nextId) : KeepsCount file m (m.call now c).manager := by
  cases c with
  | addFile path size lw =>
    have hretry : (m.addFile now path size lw).2.manager.HasRetry file → m.HasRetry file :=
      (hasRetry_addFile path size lw).1.mp
    simp only [call]
    rcases addFile_cases m now path size lw with ⟨-, hadd⟩ | ⟨-, hadd⟩ <;> rw [hadd] at hretry ⊢
    · exact .refl file m
    · have hne : file ≠ m.repo.nextId := hknown.ne
      refine ⟨by simp, fun hmem => ?_, ?_, hretry⟩
      · rw [files_withRepo, FileRepository.insert_files, List.mem_append,
          List.mem_singleton] at hmem
        exact hmem.resolve_right hne
      · rw [heap_withRepo, FileRepository.insert_heap_of_ne _ hne]
  | updateFileStatusById id st kwargs =>
    apply keepsCount_update
    simp only [ServiceCall.leavesRetries, Bool.or_eq_true, decide_eq_true_eq, List.all_eq_true] at h
    exact h.imp_right fun hall n hn => absurd (hall _ hn) (by simp [Attr.isRetryCount])
  | cleanupMissingFiles paths =>
    refine ⟨(nextId_cleanupMissingFiles paths).ge, ?_, ?_,
      (hasRetry_cleanupMissingFiles paths).1.mp⟩
    · simp only [call, files_cleanupMissingFiles]; exact fun hmem => hmem
    · simp only [call, heap_cleanupMissingFiles]
      split_ifs <;> rfl
  | cleanupOldFiles hours =>
    refine ⟨(nextId_cleanupOldFiles hours).ge, fun h => (mem_files_cleanupOldFiles.mp h).1, ?_,
      fun h => ((hasRetry_cleanupOldFiles hours).1.mp h).1⟩
    simp only [call, heap_cleanupOldFiles]
  | scheduleRetry id delay reason =>
    have hne : file ≠ id := fun heq => of_decide_eq_true h heq.symm
    refine ⟨(nextId_scheduleRetry delay reason).ge, ?_, ?_, fun hr => ?_⟩
    · simp only [call, files_scheduleRetry]; exact fun hmem => hmem
    · simp only [call]
      by_cases hid : id ∈ m.files
      · rw [heap_scheduleRetry hid, Function.update_of_ne hne]
      · simp [scheduleRetry, FileRepository.getById_of_not_mem _ hid]
    · exact ((hasRetry_scheduleRetry delay reason).1.mp hr).resolve_right fun hx => hne hx.1
  | executeRetryTask id =>
    simp only [call]
    rcases executeRetryTask_cases m id with hc | ⟨hid, hst, hinfo, hheap, hfiles, -⟩
    · rw [hc]
      exact .refl file m
    · refine ⟨nextId_executeRetryTask.ge, by rw [hfiles]; exact fun hmem => hmem, ?_, fun hr =>
        (((remaps_executeRetryTask hid hst hinfo).2.2 file).1.mp hr).1⟩
      rw [hheap]
      by_cases hfile : file = id
      · subst hfile
        rw [Function.update_self]
        rfl
      · rw [Function.update_of_ne hfile]
  | incrementRetryCount id =>
    have hne : file ≠ id := fun heq => of_decide_eq_true h heq.symm
    refine ⟨nextId_incrementRetryCount.ge, ?_, ?_, hasRetry_incrementRetryCount.1.mp⟩
    · simp only [call, files_incrementRetryCount]; exact fun hmem => hmem
    · simp only [call, incrementRetryCount]
      split
      · rfl
      · rw [heap_modify, Function.update_of_ne hne]

/-- Cancelling a retry. -/
lemma keepsCount_cancelExistingRetry (id : FileId) :
    KeepsCount file m (m.cancelExistingRetry id).manager where
  known := nextId_cancelExistingRetry.ge
  stored := by rw [files_cancelExistingRetry]; exact fun hmem => hmem
  count := heap_cancelExistingRetry_proj TrackedFile.retryCount (fun _ => rfl) file
  retry := fun h => (hasRetry_cancelExistingRetry.mp h).1

/-- Cancelling all retries. -/
lemma keepsCount_cancelAllRetries : KeepsCount file m m.cancelAllRetries.manager := by
  rw [cancelAllRetries]
  generalize (m.files.filter fun id => (m.heap id).retryInfo ≠ none) = ids
  suffices hfold : ∀ sec : Section, KeepsCount file m sec.manager →
      KeepsCount file m (ids.foldl (fun sec id =>
        let cancel := sec.manager.cancelExistingRetry id
        ({ manager := cancel.manager, cancelled := sec.cancelled ++ cancel.cancelled } : Section))
        sec).manager from hfold { manager := m } (.refl file m)
  induction ids with
  | nil => exact fun sec h => h
  | cons a ids ih =>
    intro sec h
    have hone : KeepsCount file sec.manager (sec.manager.cancelExistingRetry a).manager :=
      keepsCount_cancelExistingRetry a
    exact ih _ ⟨h.known.trans hone.known, fun hmem => h.stored (hone.stored hmem),
      hone.count.trans h.count, fun hr => h.retry (hone.retry hr)⟩

/-- **What the other operations leave as it is**; and the file has no retry after one that was
executed for it.

**Proof sketch.** By cases on the operation. The calls, the cancellations and the retries keep the
count (`keepsCount_call`). A retry that is executed for the file removes the one that its record
had (`remaps_executeRetryTask`). -/
lemma keepsCount_retryStep {s s' : RetryState} {a : RetryAction}
    (h : a.leavesRetries file = true) (hknown : file < s.manager.repo.nextId)
    (hstep : retryStep s a = some s') :
    KeepsCount file s.manager s'.manager ∧
      (s.retries file a = true → s.manager.HasRetry file ∧ ¬ s'.manager.HasRetry file) := by
  cases a with
  | call now c =>
    have hs' : s' = s.afterSection (s.manager.call now c) (scheduledTask s.manager c) := by
      cases c <;> simp_all [retryStep]
    subst hs'
    exact ⟨keepsCount_call h hknown, fun h => by cases h⟩
  | cancelRetry id =>
    obtain rfl := Option.some.inj hstep
    exact ⟨keepsCount_cancelExistingRetry id, fun h => by cases h⟩
  | cancelAllRetries =>
    obtain rfl := Option.some.inj hstep
    exact ⟨keepsCount_cancelAllRetries, fun h => by cases h⟩
  | fire handle =>
    obtain ⟨t, ht, rfl⟩ := Option.map_eq_some_iff.mp hstep
    have hkeep : KeepsCount file s.manager (s.manager.call 0 (.executeRetryTask t.file)).manager :=
      keepsCount_call rfl hknown
    refine ⟨hkeep, fun hr => ?_⟩
    simp only [RetryState.retries, ht, Option.any_some, Bool.and_eq_true, decide_eq_true_eq] at hr
    obtain ⟨⟨⟨rfl, hfile⟩, hst⟩, hinfo⟩ := hr
    have hretry : (s.manager.heap t.file).retryInfo ≠ none := Option.isSome_iff_ne_none.mp hinfo
    refine ⟨⟨hfile, hretry⟩, fun hafter => ?_⟩
    exact (((remaps_executeRetryTask hfile hst hretry).2.2 t.file).1.mp hafter).2 rfl
  | cancelTask handle =>
    obtain ⟨t, -, rfl⟩ := Option.map_eq_some_iff.mp hstep
    exact ⟨.refl file _, fun h => by cases h⟩

end Others

/-! ## The invariant -/

/-- What holds at a point of a call: a file is given up only after `max_space_retries` shortages,
and the shortage for which a retry is going to be scheduled is one more than the retries so far. -/
def CallInv (cfg : Settings) (job : QueueJob) (stored : Prop) (scheduled shortages : ℕ) :
    WorkerPoint → Prop
  | .incrementRetryCount j _ | .failForSpace j _ => j = job
  | .markSpaceError j _ _ => j = job ∧ cfg.maxSpaceRetries ≤ shortages
  | .waitForSpace j _ _ | .scheduleRetry j _ _ => j = job ∧ (stored → scheduled + 1 ≤ shortages)
  | _ => False

/-- The invariant: the `retry_count` of the record is the number of shortages, every retry that was
executed was scheduled, and every one that was scheduled had its shortage. -/
structure SpaceRunInv (cfg : Settings) (job : QueueJob) (s : SpaceRun) : Prop where
  known : job.file < s.retry.manager.repo.nextId
  counted : job.file ∈ s.retry.manager.files →
    (s.retry.manager.heap job.file).retryCount = s.shortages
  executed : s.executed ≤ s.scheduled
  waiting : s.retry.manager.HasRetry job.file → s.executed + 1 ≤ s.scheduled
  scheduled : s.scheduled ≤ s.shortages
  point : ∀ p, s.point = some p →
    CallInv cfg job (job.file ∈ s.retry.manager.files) s.scheduled s.shortages p
  marked : s.marked = true → cfg.maxSpaceRetries ≤ s.shortages

section Inv

variable {cfg : Settings} {job : QueueJob} {s s' : SpaceRun} {a : SpaceAction} {r : RetryState}

/-- A record that is dropped asks less of the point. -/
lemma CallInv.mono {stored stored' : Prop} {scheduled shortages : ℕ} {p : WorkerPoint}
    (h : CallInv cfg job stored scheduled shortages p) (hs : stored' → stored) :
    CallInv cfg job stored' scheduled shortages p := by
  cases p with
  | waitForSpace j check temporary => exact ⟨h.1, fun hst => h.2 (hs hst)⟩
  | scheduleRetry j check temporary => exact ⟨h.1, fun hst => h.2 (hs hst)⟩
  | _ => exact h

/-- A section that neither counts a shortage nor schedules a retry keeps the invariant, whatever
point it leads to. -/
lemma spaceRunInv_of_keepsCount (hinv : SpaceRunInv cfg job s)
    (h : KeepsCount job.file s.retry.manager r.manager) {point : Option WorkerPoint}
    {marked : Bool}
    (hpoint : ∀ p, point = some p →
      CallInv cfg job (job.file ∈ r.manager.files) s.scheduled s.shortages p)
    (hmarked : marked = true → cfg.maxSpaceRetries ≤ s.shortages) :
    SpaceRunInv cfg job { s with retry := r, point := point, marked := marked } where
  known := hinv.known.trans_le h.known
  counted := fun hmem => h.count.trans (hinv.counted (h.stored hmem))
  executed := hinv.executed
  waiting := fun hr => hinv.waiting (h.retry hr)
  scheduled := hinv.scheduled
  point := hpoint
  marked := hmarked

/-- A section of the call: the operation of the point runs, and the call goes on to the next.

**Proof sketch.** The call is at a point whose operation is one of the manager's. It runs, the
records change as the manager says, and the code goes on from its answer. -/
lemma work_cases {now : ℕ} (hstep : spaceStep cfg job s (.work now) = some s') :
    ∃ p c p' r, s.point = some p ∧ p.op cfg = .call c ∧
      r.manager = (s.retry.manager.call now c).manager ∧
      p.after cfg (jobRunView r.manager now none {})
        (s.retry.manager.perform cfg now (.call c)).2 = some p' ∧
      s' = { s.tally job.file p with retry := r, point := callPoint p' } := by
  simp only [spaceStep] at hstep
  cases hp : s.point with
  | none => rw [hp] at hstep; cases hstep
  | some p =>
    rw [hp] at hstep
    dsimp only at hstep
    cases hop : p.op cfg with
    | call c =>
      rw [hop] at hstep
      dsimp only at hstep
      have hsec : (s.retry.manager.perform cfg now (.call c)).1 = s.retry.manager.call now c := by
        cases c <;> rfl
      rw [hsec] at hstep
      cases hr : retryStep s.retry (.call now c) with
      | none => rw [hr] at hstep; cases hstep
      | some r =>
        have hrm : r.manager = (s.retry.manager.call now c).manager := by
          cases c <;> simp only [retryStep, Option.some.injEq, reduceCtorEq] at hr <;>
            rw [← hr] <;> rfl
        rw [hr, ← hrm] at hstep
        cases hafter : p.after cfg (jobRunView r.manager now none {})
            (s.retry.manager.perform cfg now (.call c)).2 with
        | none => rw [hafter] at hstep; cases hstep
        | some p' =>
          rw [hafter] at hstep
          exact ⟨p, c, p', r, rfl, hop, hrm, hafter, (Option.some.inj hstep).symm⟩
    | _ => rw [hop] at hstep; cases hstep

/-- **The count**: it adds a shortage to a stored record, and the call compares the new value.

**Proof sketch.** If the record is stored, the count grows with the shortages, and the worker
compares the new value: it gives up with the value at the limit, or goes on to schedule, with one
schedule fewer than there were shortages. If it is not stored, nothing is counted and the worker
goes on with 0, which is below the limit. -/
lemma spaceRunInv_count {now : ℕ} {check : SpaceCheckResult} {p' : WorkerPoint}
    (hmax : 1 ≤ cfg.maxSpaceRetries) (hinv : SpaceRunInv cfg job s)
    (hr : r.manager = (s.retry.manager.incrementRetryCount job.file).2.manager)
    (hafter : (WorkerPoint.incrementRetryCount job check).after cfg
      (jobRunView r.manager now none {})
      (.done (s.retry.manager.incrementRetryCount job.file).1) = some p') :
    SpaceRunInv cfg job
      { s.tally job.file (.incrementRetryCount job check) with
        retry := r, point := callPoint p' } := by
  have hnext : r.manager.repo.nextId = s.retry.manager.repo.nextId := by
    rw [hr, nextId_incrementRetryCount]
  have hfiles : r.manager.files = s.retry.manager.files := by rw [hr, files_incrementRetryCount]
  have hretry : r.manager.HasRetry job.file ↔ s.retry.manager.HasRetry job.file := by
    rw [hr]
    exact hasRetry_incrementRetryCount.1
  by_cases hfile : job.file ∈ s.retry.manager.files
  · have hcount := hinv.counted hfile
    have hnew : (r.manager.heap job.file).retryCount = s.shortages + 1 := by
      rw [hr]
      simp [incrementRetryCount, FileRepository.getById_of_mem _ hfile, TrackedFile.countRetry,
        ← hcount]
    have hanswer : (s.retry.manager.incrementRetryCount job.file).1 = s.shortages + 1 := by
      simp [incrementRetryCount, FileRepository.getById_of_mem _ hfile, ← hcount]
    have htally : s.tally job.file (.incrementRetryCount job check) =
        { s with shortages := s.shortages + 1 } := if_pos hfile
    rw [htally]
    refine ⟨hnext ▸ hinv.known, fun _ => hnew, hinv.executed, fun h => hinv.waiting (hretry.mp h),
      hinv.scheduled.trans (Nat.le_succ _), ?_, fun h => (hinv.marked h).trans (Nat.le_succ _)⟩
    intro p hp
    rw [hanswer] at hafter
    simp only [WorkerPoint.after] at hafter
    split_ifs at hafter with hfull
    · obtain rfl := Option.some.inj hafter
      obtain rfl := Option.some.inj hp
      exact ⟨rfl, hfull⟩
    · cases htemp : check.isTemporaryShortage with
      | some temporary =>
        rw [htemp] at hafter
        obtain rfl := Option.some.inj hafter
        obtain rfl := Option.some.inj hp
        exact ⟨rfl, fun _ => Nat.succ_le_succ hinv.scheduled⟩
      | none =>
        rw [htemp] at hafter
        obtain rfl := Option.some.inj hafter
        obtain rfl := Option.some.inj hp
        rfl
  · have hsame : r.manager = s.retry.manager := by
      rw [hr]
      simp [incrementRetryCount, FileRepository.getById_of_not_mem _ hfile]
    have hanswer : (s.retry.manager.incrementRetryCount job.file).1 = 0 := by
      simp [incrementRetryCount, FileRepository.getById_of_not_mem _ hfile]
    have htally : s.tally job.file (.incrementRetryCount job check) = s := if_neg hfile
    rw [htally]
    refine spaceRunInv_of_keepsCount hinv (hsame ▸ .refl _ _) (fun p hp => ?_) hinv.marked
    rw [hanswer] at hafter
    simp only [WorkerPoint.after] at hafter
    rw [if_neg (by omega)] at hafter
    cases htemp : check.isTemporaryShortage with
    | some temporary =>
      rw [htemp] at hafter
      obtain rfl := Option.some.inj hafter
      obtain rfl := Option.some.inj hp
      exact ⟨rfl, fun hmem => absurd (hfiles ▸ hmem) hfile⟩
    | none =>
      rw [htemp] at hafter
      obtain rfl := Option.some.inj hafter
      obtain rfl := Option.some.inj hp
      rfl

/-- **The schedule**: the shortage in hand gets its retry.

**Proof sketch.** If the record is stored, the retry is counted, and the shortage before it leaves
room for it. If it is not, nothing happens, and the counts stay. -/
lemma spaceRunInv_schedule {now : ℕ} {check : SpaceCheckResult} {temporary : Bool}
    {delay : ℕ} {reason : String} (hinv : SpaceRunInv cfg job s)
    (hroom : job.file ∈ s.retry.manager.files → s.scheduled + 1 ≤ s.shortages)
    (hr : r.manager = (s.retry.manager.scheduleRetry now job.file delay reason).2.manager) :
    SpaceRunInv cfg job
      { s.tally job.file (.scheduleRetry job check temporary) with retry := r, point := none } := by
  have hnext : r.manager.repo.nextId = s.retry.manager.repo.nextId := by
    rw [hr, nextId_scheduleRetry]
  have hfiles : r.manager.files = s.retry.manager.files := by rw [hr, files_scheduleRetry]
  by_cases hfile : job.file ∈ s.retry.manager.files
  · have hcount : (r.manager.heap job.file).retryCount =
        (s.retry.manager.heap job.file).retryCount := by
      rw [hr, heap_scheduleRetry hfile, Function.update_self]
      rfl
    have htally : s.tally job.file (.scheduleRetry job check temporary) =
        { s with scheduled := s.scheduled + 1 } := if_pos hfile
    rw [htally]
    exact ⟨hnext ▸ hinv.known, fun _ => hcount.trans (hinv.counted hfile),
      hinv.executed.trans (Nat.le_succ _), fun _ => Nat.succ_le_succ hinv.executed, hroom hfile,
      (fun _ hp => by cases hp), hinv.marked⟩
  · have hsame : r.manager = s.retry.manager := by
      rw [hr]
      simp [scheduleRetry, FileRepository.getById_of_not_mem _ hfile]
    have htally : s.tally job.file (.scheduleRetry job check temporary) = s := if_neg hfile
    rw [htally]
    exact spaceRunInv_of_keepsCount hinv (hsame ▸ .refl _ _) (fun _ hp => by cases hp) hinv.marked

/-- **The step lemma.**

**Proof sketch.** The sections other than the count and the schedule, and all other operations, keep
the count of the record and give it no retry; a retry that is executed uses up the one it had. The
count adds a shortage to both sides, and the schedule uses the shortage that the point has in
hand. -/
lemma spaceRunInv_step (hmax : 1 ≤ cfg.maxSpaceRetries) (hinv : SpaceRunInv cfg job s)
    (hstep : spaceStep cfg job s a = some s') : SpaceRunInv cfg job s' := by
  cases a with
  | shortage check =>
    simp only [spaceStep] at hstep
    split_ifs at hstep
    obtain rfl := Option.some.inj hstep
    refine { hinv with point := fun p hp => ?_ }
    obtain rfl := Option.some.inj hp
    rfl
  | other a =>
    have hleaves : a.leavesRetries job.file = true := by
      by_contra hno
      rw [spaceStep, if_neg hno] at hstep
      cases hstep
    rw [spaceStep, if_pos hleaves] at hstep
    obtain ⟨r, hr, rfl⟩ := Option.map_eq_some_iff.mp hstep
    obtain ⟨hkeep, hfired⟩ := keepsCount_retryStep hleaves hinv.known hr
    have hbase := spaceRunInv_of_keepsCount hinv hkeep
      (fun p hp => (hinv.point p hp).mono hkeep.stored) hinv.marked
    by_cases hret : s.retry.retries job.file a = true
    · obtain ⟨hbefore, hafter⟩ := hfired hret
      simp only [hret, if_true]
      exact { hbase with
        executed := hinv.waiting hbefore
        waiting := fun hr => absurd hr hafter }
    · simp only [hret]
      exact hbase
  | work now =>
    obtain ⟨p, c, p', r, hp, hop, hr, hafter, rfl⟩ := work_cases hstep
    have hpoint := hinv.point p hp
    have hupdate : ∀ st kwargs, c = .updateFileStatusById job.file st kwargs →
        (∀ n, .retryCount n ∉ kwargs) → KeepsCount job.file s.retry.manager r.manager := by
      rintro st kwargs rfl hkwargs
      rw [hr]
      exact keepsCount_update (.inr hkwargs)
    cases p with
    | incrementRetryCount j check =>
      obtain rfl : j = job := hpoint
      obtain rfl := (Op.call.inj hop).symm
      exact spaceRunInv_count hmax hinv hr hafter
    | markSpaceError j check t =>
      obtain ⟨rfl, hfull⟩ := hpoint
      obtain rfl := (Op.call.inj hop).symm
      obtain rfl := Option.some.inj hafter
      exact spaceRunInv_of_keepsCount hinv (hupdate _ _ rfl (by simp))
        (fun _ hp => by cases hp) fun _ => hfull
    | waitForSpace j check temporary =>
      obtain ⟨rfl, hroom⟩ := hpoint
      obtain rfl := (Op.call.inj hop).symm
      obtain rfl := Option.some.inj hafter
      have hkeep := hupdate _ _ rfl (by simp)
      refine spaceRunInv_of_keepsCount hinv hkeep (fun p hp => ?_) hinv.marked
      obtain rfl := Option.some.inj hp
      exact ⟨rfl, fun hmem => hroom (hkeep.stored hmem)⟩
    | scheduleRetry j check temporary =>
      obtain ⟨rfl, hroom⟩ := hpoint
      obtain rfl := (Op.call.inj hop).symm
      obtain rfl := Option.some.inj hafter
      exact spaceRunInv_schedule hinv hroom hr
    | failForSpace j check =>
      obtain rfl : j = job := hpoint
      obtain rfl := (Op.call.inj hop).symm
      obtain rfl := Option.some.inj hafter
      exact spaceRunInv_of_keepsCount hinv (hupdate _ _ rfl (by simp))
        (fun _ hp => by cases hp) hinv.marked
    | _ => exact hpoint.elim

end Inv

/-! ## The number of retries -/

section Count

variable {cfg : Settings} {job : QueueJob} {s s' : SpaceRun} {a : SpaceAction}

/-- Only the count of a stored record adds a shortage.

**Proof sketch.** By cases on the step. Only the section of `increment_retry_count` counts a
shortage, and only for a stored record. -/
lemma shortages_step (hstep : spaceStep cfg job s a = some s') :
    s'.shortages = s.shortages ∨
      s'.shortages = s.shortages + 1 ∧ job.file ∈ s.retry.manager.files ∧
        ∃ now j check, a = .work now ∧ s.point = some (.incrementRetryCount j check) := by
  cases a with
  | shortage check =>
    simp only [spaceStep] at hstep
    split_ifs at hstep
    obtain rfl := Option.some.inj hstep
    exact .inl rfl
  | other a =>
    by_cases hleaves : a.leavesRetries job.file = true
    · rw [spaceStep, if_pos hleaves] at hstep
      obtain ⟨r, -, rfl⟩ := Option.map_eq_some_iff.mp hstep
      exact .inl rfl
    · rw [spaceStep, if_neg hleaves] at hstep
      cases hstep
  | work now =>
    obtain ⟨p, c, p', r, hp, -, -, -, rfl⟩ := work_cases hstep
    cases p with
    | incrementRetryCount j check =>
      simp only [SpaceRun.tally]
      split_ifs with hfile
      · exact .inr ⟨rfl, hfile, now, j, check, rfl, hp⟩
      · exact .inl rfl
    | scheduleRetry j check temporary =>
      simp only [SpaceRun.tally]
      split_ifs <;> exact .inl rfl
    | _ => exact .inl rfl

/-- As long as there are fewer shortages than `max_space_retries`, the retries are counted right. -/
lemma countsRetries_of_lt (hinv : SpaceRunInv cfg job s)
    (hlt : s.shortages < cfg.maxSpaceRetries) : CountsRetries cfg s := by
  unfold CountsRetries
  have hmarked : s.marked = false := by
    rw [Bool.eq_false_iff]
    exact fun h => hlt.not_ge (hinv.marked h)
  have hroom : s.executed < cfg.maxSpaceRetries :=
    (hinv.executed.trans hinv.scheduled).trans_lt hlt
  split
  · next j check t hp => exact absurd (hinv.point _ hp).2 hlt.not_ge
  · exact ⟨hroom, hmarked⟩
  · exact ⟨hroom, hmarked⟩
  · trivial

/-- The shortage that reaches `max_space_retries` gives the file up, with a retry fewer. -/
lemma not_countsRetries_of_reached (hinv : SpaceRunInv cfg job s)
    (hlt : s.shortages < cfg.maxSpaceRetries) (hstep : spaceStep cfg job s a = some s')
    (hreached : cfg.maxSpaceRetries ≤ s'.shortages) : ¬ CountsRetries cfg s' := by
  rcases shortages_step hstep with hsame | ⟨-, hfile, now, j, check, rfl, hp⟩
  · omega
  · obtain ⟨p, c, p', r, hp', hop, -, hafter, rfl⟩ := work_cases hstep
    obtain rfl := Option.some.inj (hp'.symm.trans hp)
    obtain rfl : j = job := hinv.point _ hp
    obtain rfl := (Op.call.inj hop).symm
    have hanswer : (s.retry.manager.perform cfg now
        (.call (.incrementRetryCount j.file))).2 = .done (s.shortages + 1) := by
      rw [← hinv.counted hfile]
      simp [perform, incrementRetryCount, FileRepository.getById_of_mem _ hfile]
    have htally : s.tally j.file (.incrementRetryCount j check) =
        { s with shortages := s.shortages + 1 } := if_pos hfile
    rw [htally] at hreached ⊢
    rw [hanswer] at hafter
    simp only [WorkerPoint.after] at hafter
    rw [if_pos hreached] at hafter
    obtain rfl := Option.some.inj hafter
    rintro ⟨hscheduled, -⟩
    have hle : s.scheduled ≤ s.shortages := hinv.scheduled
    exact absurd hscheduled (by dsimp only; omega)

/-- The step leaves the file with fewer shortages than `max_space_retries`. -/
def BelowLimit (cfg : Settings) (job : QueueJob) (s : SpaceRun) (a : SpaceAction) : Prop :=
  ∀ s', spaceStep cfg job s a = some s' → s'.shortages < cfg.maxSpaceRetries

/-- **The number of retries**: for a record without a retry whose `retry_count` is 0, the retries
are counted right in all states of a run exactly if the file has fewer shortages in it than
`max_space_retries`.

**Proof sketch.** The invariant holds at the start. While the shortages are fewer than the limit,
the retries are counted right (`countsRetries_of_lt`), and at the step that reaches the limit they
are not (`not_countsRetries_of_reached`). So the property holds along the run exactly if no step
reaches it; and as the shortages only grow, that is so exactly if they are fewer at the end. -/
theorem countsRetries_iff (hmax : 1 ≤ cfg.maxSpaceRetries) {r : RetryState}
    (hfile : job.file ∈ r.manager.files) (hcount : (r.manager.heap job.file).retryCount = 0)
    (hinfo : (r.manager.heap job.file).retryInfo = none) {tr : List (SpaceRun × SpaceAction)}
    (hrun : Run (spaceStep cfg job) { retry := r } tr s) :
    ((∀ p ∈ tr, CountsRetries cfg p.1) ∧ CountsRetries cfg s) ↔
      s.shortages < cfg.maxSpaceRetries := by
  have hstart : SpaceRunInv cfg job { retry := r } :=
    ⟨r.manager.repo.files_lt _ hfile, fun _ => hcount, le_rfl, fun h => absurd hinfo h.2, le_rfl,
      (fun _ hp => by cases hp), fun h => by cases h⟩
  have hiff : ((∀ p ∈ tr, CountsRetries cfg p.1) ∧ CountsRetries cfg s) ↔
      Meets (BelowLimit cfg job) tr := hrun.forall_states_iff_of
    (P := fun s => SpaceRunInv cfg job s ∧ s.shortages < cfg.maxSpaceRetries)
    ⟨hstart, hmax⟩ (fun s h => countsRetries_of_lt h.1 h.2)
    (fun s a s' h hok hs => ⟨spaceRunInv_step hmax h.1 hs, hok s' hs⟩)
    (fun s a s' h hnot hs => by
      unfold BelowLimit at hnot
      push Not at hnot
      obtain ⟨t, ht, hreached⟩ := hnot
      obtain rfl := Option.some.inj (hs.symm.trans ht)
      exact not_countsRetries_of_reached h.1 h.2 hs hreached)
  rw [hiff]
  clear hiff
  induction hrun with
  | start => exact iff_of_true meets_nil hmax
  | @snoc tr s s' a _ hs ih =>
    rw [meets_append, meets_singleton]
    constructor
    · rintro ⟨-, hok⟩
      exact hok s' hs
    · intro hlt
      have hle : s.shortages ≤ s'.shortages := by
        rcases shortages_step hs with hsame | ⟨hone, -⟩ <;> omega
      refine ⟨ih.mpr (hle.trans_lt hlt), fun t ht => ?_⟩
      obtain rfl := Option.some.inj (hs.symm.trans ht)
      exact hlt

/-- The job of the file of the next example. -/
def shortJob : QueueJob := ⟨0, "/src/a.mxf"⟩

/-- A file in the queue that has had no shortage yet. -/
def queuedFile : RetryState where
  manager :=
    { repo := FileRepository.empty.insert
        { filePath := "/src/a.mxf", status := .inQueue, discoveredAt := 0 } }

/-- A check that finds a tenth of the space missing. -/
def shortCheck : SpaceCheckResult :=
  { hasSpace := false, availableBytes := 90, requiredBytes := 100, fileSizeBytes := 90,
    safetyMarginBytes := 10, reason := "10 bytes short" }

/-- A shortage, its retry, and the way back into the queue. -/
def retryRound (handle : ℕ) : List SpaceAction :=
  [.shortage shortCheck, .work 0, .work 0, .work 0, .other (.fire handle),
    .other (.call 0 (.updateFileStatusById 0 .inQueue []))]

/-- Five retries, and a sixth shortage. -/
def sixShortages : List SpaceAction :=
  retryRound 0 ++ retryRound 1 ++ retryRound 2 ++ retryRound 3 ++ retryRound 4 ++
    [.shortage shortCheck, .work 0]

/-- An instance of `countsRetries_iff`. -/
theorem countsRetries_sixShortages :
    ∃ s : SpaceRun, Run (spaceStep {} shortJob) { retry := queuedFile }
        (traceOf (spaceStep {} shortJob) { retry := queuedFile } sixShortages) s ∧
      (((∀ p ∈ traceOf (spaceStep {} shortJob) { retry := queuedFile } sixShortages,
          CountsRetries {} p.1) ∧ CountsRetries {} s) ↔ s.shortages < 6) := by
  obtain ⟨s, hrun, -⟩ := exists_run_of_replay (spaceStep {} shortJob) { retry := queuedFile }
    sixShortages (fun _ => true) (by decide +kernel)
  exact ⟨s, hrun, countsRetries_iff (by decide) (by decide) (by decide) (by decide) hrun⟩

/-- With the default `max_space_retries` of 6, the sixth shortage gives the file up after five
retries. -/
theorem given_up_after_five :
    ∃ s : SpaceRun, Run (spaceStep {} shortJob) { retry := queuedFile }
        (traceOf (spaceStep {} shortJob) { retry := queuedFile } sixShortages) s ∧
      ¬ CountsRetries {} s := by
  obtain ⟨s, hrun, hs⟩ := exists_run_of_replay (spaceStep {} shortJob) { retry := queuedFile }
    sixShortages (fun s => !decide (CountsRetries {} s)) (by decide +kernel)
  exact ⟨s, hrun, by simpa using hs⟩

end Count

end FileAgent

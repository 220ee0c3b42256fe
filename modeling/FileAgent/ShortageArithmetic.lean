import FileAgent.SpaceShortage

set_option relaxedAutoImplicit false
set_option autoImplicit false

/-!
# The division in a space shortage

`is_temporary_shortage` divides the shortage by the required bytes. A check with the free space in
hand requires more than is free. The two results for a destination that is missing or not accessible
are made without that comparison, and require the file size alone, which may be nothing.

## Main definitions

* `shortageStep` — a call of `process_job` with its space check, among other services.
* `WorkerPoint.CanDivide` — the invariant of the worker.
* `ShortageHandled` — no shortage ends by an exception of the retry manager.

## Main results

* `isTemporaryShortage_isSome_iff` — when the division is defined.
* `shortageHandled_iff` — when no shortage ends so.
-/

namespace FileAgent

open Transition StateManager

/-! ## The division -/

section Division

variable {cfg : Settings} {info : Option DestinationInfo} {size : ℕ}

/-- A check of free space that fails requires more than nothing. -/
lemma requiredBytes_pos {d : DestinationInfo} (hacc : d.isAccessible = true)
    (hfails : (checkSpaceForFile cfg (some d) size).hasSpace = false) :
    0 < (checkSpaceForFile cfg (some d) size).requiredBytes := by
  have hfree := availableBytes_nonneg d
  have hmore : d.availableBytes < size + cfg.safetyMarginBytes + cfg.minimumAfterCopyBytes := by
    by_contra hle
    have hspace := hasSpace_checkSpaceForFile.mpr ⟨hacc, not_lt.mp hle⟩
    rw [hfails] at hspace
    cases hspace
  have hrequired : (checkSpaceForFile cfg (some d) size).requiredBytes =
      size + cfg.safetyMarginBytes + cfg.minimumAfterCopyBytes := by
    simp only [checkSpaceForFile, hacc, Bool.not_true, Bool.false_eq_true, if_false]
  rw [hrequired]
  exact lt_of_le_of_lt hfree hmore

/-- A check of a destination that cannot be used requires the size of the file. -/
lemma requiredBytes_unavailable (hinfo : isUnavailable info = true) :
    (checkSpaceForFile cfg info size).hasSpace = false ∧
      (checkSpaceForFile cfg info size).requiredBytes = size := by
  cases info with
  | none => exact ⟨rfl, rfl⟩
  | some d =>
    have hacc : (!d.isAccessible) = true := hinfo
    simp only [checkSpaceForFile, hacc, if_true]
    exact ⟨rfl, rfl⟩

/-- **When the division is defined**: when the check succeeds, or it requires more than nothing. -/
lemma isTemporaryShortage_isSome_iff (check : SpaceCheckResult) :
    check.isTemporaryShortage.isSome = true ↔ check.hasSpace = true ∨ check.requiredBytes ≠ 0 := by
  unfold SpaceCheckResult.isTemporaryShortage
  by_cases hspace : check.hasSpace = true
  · simp [hspace]
  · by_cases hzero : check.requiredBytes = 0 <;> simp [hspace, hzero]

/-- The division after a failed check is defined when the file has a byte, or the destination is
there. -/
lemma isTemporaryShortage_checkSpaceForFile
    (hfails : (checkSpaceForFile cfg info size).hasSpace = false) :
    (checkSpaceForFile cfg info size).isTemporaryShortage.isSome = true ↔
      0 < size ∨ isUnavailable info = false := by
  rw [isTemporaryShortage_isSome_iff, hfails]
  by_cases hinfo : isUnavailable info = true
  · rw [(requiredBytes_unavailable hinfo).2, hinfo]
    simp [Nat.pos_iff_ne_zero]
  · rw [Bool.not_eq_true] at hinfo
    cases info with
    | none => cases hinfo
    | some d =>
      have hacc : d.isAccessible = true := by simpa [isUnavailable] using hinfo
      have hpos := requiredBytes_pos hacc hfails
      simp [hinfo, hpos.ne']

end Division

/-! ## The call -/

/-- One step of a call for `job`, with the space check of a file of `size` bytes. Other services run
between any two steps, and do what they like. -/
def shortageStep (cfg : Settings) (info : Option DestinationInfo) (size : ℕ) (job : QueueJob)
    (s : JobRun) : JobAction → Option JobRun
  | .work now destinationInfo env =>
    jobStep cfg job s (.work now destinationInfo
      { env with spaceCheck := checkSpaceForFile cfg info size })
  | .deliver now => jobStep cfg job s (.deliver now)
  | .others m => some { s with manager := m }

/-- The job is marked as failed after an exception of the retry manager. -/
def WorkerPoint.isFailForSpace : WorkerPoint → Bool
  | .failForSpace .. => true
  | _ => false

/-- A failed check can be told temporary or not, and no call for a job with that check fails the job
because scheduling its retry raised an exception. -/
def ShortageHandled (cfg : Settings) (info : Option DestinationInfo) (size : ℕ) : Prop :=
  (checkSpaceForFile cfg info size).hasSpace = false →
    (checkSpaceForFile cfg info size).isTemporaryShortage.isSome = true ∧
    ∀ (job : QueueJob) (m : StateManager) (tr : List (JobRun × JobAction)) (s : JobRun),
      Run (shortageStep cfg info size job) { manager := m } tr s →
      s.point.any WorkerPoint.isFailForSpace = false

section Runs

variable {cfg : Settings} {info : Option DestinationInfo} {size : ℕ} {job : QueueJob}
  {view : View} {p p' : WorkerPoint} {s s' : JobRun}

/-- The division that lies before the worker is defined. -/
def WorkerPoint.CanDivide : WorkerPoint → Prop
  | .incrementRetryCount _ check => check.isTemporaryShortage.isSome = true
  | .failForSpace .. => False
  | _ => True

/-- A space check that can divide leaves the worker able to. -/
lemma canDivide_processJob (cfg : Settings) (view : View) (job : QueueJob)
    (hcheck : view.env.spaceCheck.isTemporaryShortage.isSome = true) :
    (WorkerPoint.processJob cfg view job).CanDivide := by
  rcases WorkerPoint.processJob_cases cfg view job with hp | hp | hp | ⟨dest, hp⟩ <;> rw [hp]
  · trivial
  · trivial
  · exact hcheck
  · trivial

/-- The points behind the division have none before them. -/
lemma canDivide_after {a : Answer} (hp : p.CanDivide) (hne : p ≠ .getNextJob)
    (h : p.after cfg view a = some p') : p'.CanDivide := by
  cases WorkerPoint.next_of_after h with
  | idle | rejected | networkDown | short | prepared => exact absurd rfl hne
  | fails job check count hcount htemp =>
    have hsome : check.isTemporaryShortage.isSome = true := hp
    rw [htemp] at hsome
    cases hsome
  | copies j dest q q' =>
    rcases WorkerPoint.afterCopy_cases view j dest q' with hp' | hp' | hp' | ⟨_, _, -, hp'⟩
    all_goals
      rw [hp']
      trivial
  | _ => trivial

/-- **The step lemma**: a call whose check can be divided by keeps to such points.

**Proof sketch.** The call begins at a point that can divide, as its check can
(`canDivide_processJob`), and the code between two awaits keeps to such points
(`canDivide_after`). Deliveries and other tasks leave its point. -/
lemma canDivide_step {a : JobAction}
    (hcheck : (checkSpaceForFile cfg info size).isTemporaryShortage.isSome = true)
    (h : ∀ p ∈ s.point, p.CanDivide) (hs : shortageStep cfg info size job s a = some s') :
    ∀ p ∈ s'.point, p.CanDivide := by
  cases a with
  | others m =>
    obtain rfl := Option.some.inj hs
    exact h
  | deliver now =>
    obtain ⟨e, -, rfl⟩ := Option.map_eq_some_iff.mp hs
    exact h
  | work now destinationInfo env =>
    simp only [shortageStep, jobStep] at hs
    split at hs
    · cases hs
    · obtain rfl := Option.some.inj hs
      rintro p hp
      obtain rfl := Option.some.inj hp
      exact canDivide_processJob cfg _ job hcheck
    · cases hs
    · rename_i q hne _ hq
      obtain ⟨q', hafter, rfl⟩ := Option.map_eq_some_iff.mp hs
      rintro p hp
      obtain rfl := Option.some.inj hp
      exact canDivide_after (h q hq) hne hafter

/-- **When a shortage is handled**: when the file is not empty, or the destination is accessible.

**Proof sketch.** A failed check of free space requires more than is free (`requiredBytes_pos`), the
others require the size of the file. Where the division is defined, no step of the call leads to the
handler of its exception (`canDivide_step`). -/
theorem shortageHandled_iff (cfg : Settings) (info : Option DestinationInfo) (size : ℕ) :
    ShortageHandled cfg info size ↔ 0 < size ∨ isUnavailable info = false := by
  constructor
  · intro h
    by_contra hnot
    push Not at hnot
    have hinfo : isUnavailable info = true := by simpa using hnot.2
    have hfails : (checkSpaceForFile cfg info size).hasSpace = false :=
      (requiredBytes_unavailable hinfo).1
    rcases (isTemporaryShortage_checkSpaceForFile hfails).mp (h hfails).1 with hsize | havailable
    · exact absurd hsize (not_lt.mpr hnot.1)
    · exact hnot.2 havailable
  · intro hcond hfails
    have hcheck := (isTemporaryShortage_checkSpaceForFile hfails).mpr hcond
    refine ⟨hcheck, fun job m tr s hrun => ?_⟩
    have hall : Meets (fun _ _ => True) tr := fun _ _ => trivial
    have hinv : ∀ p ∈ s.point, p.CanDivide :=
      hrun.invariant hall (fun p hp => by cases hp) fun _ _ _ h _ hs => canDivide_step hcheck h hs
    cases hp : s.point with
    | none => rfl
    | some p =>
      have hpoint := hinv p hp
      cases p with
      | failForSpace j check => exact hpoint.elim
      | _ => rfl

/-- **An empty file fails**: the destination information is missing, the check requires no byte, and
the job is marked as failed by the handler of the division by zero. -/
theorem empty_file_fails :
    ¬ (∀ (cfg : Settings) (info : Option DestinationInfo) (size : ℕ),
      ShortageHandled cfg info size) ∧
    ∃ tr s, Run (shortageStep {} none 0 ⟨0, "/src/a.mxf"⟩) { manager := queuedManager } tr s ∧
      s.returned = true ∧ (s.manager.heap 0).status = .failed := by
  refine ⟨fun hall => ?_, ?_⟩
  · have hdivides := (hall {} none 0 rfl).1
    cases hdivides
  · obtain ⟨s, hrun, hs⟩ := exists_run_of_replay (shortageStep {} none 0 ⟨0, "/src/a.mxf"⟩)
      ({ manager := queuedManager })
      ([.work 0 none {}, .work 0 none {}, .work 0 none {}, .deliver 0])
      (fun s : JobRun => s.returned && decide ((s.manager.heap 0).status = .failed))
      (by decide +kernel)
    simp only [Bool.and_eq_true, decide_eq_true_eq] at hs
    exact ⟨_, s, hrun, hs.1, hs.2⟩

end Runs

end FileAgent

import FileAgent.Coroutine

set_option relaxedAutoImplicit false
set_option autoImplicit false

/-!
# The workers

`FileCopierService._worker_loop` with `JobProcessor.process_job` and the services it delegates to:
`JobSpaceManager`, `SpaceRetryManager`, `JobFilePreparationService`, `JobCopyExecutor`,
`JobErrorClassifier` and `JobFinalizationService`, wired as in `app/dependencies.py`. The space
check and the preparation of a job contain no await, so they are part of the step that takes the
job.

## Main definitions

* `classifyCopyError` — the status after an exception of `copy_file`.
* `WorkerPoint`, `WorkerPoint.op`, `WorkerPoint.after` — the coroutine.
* `WorkerPoint.job?`, `WorkerPoint.dest?` — the job being processed, and its destination.
* `WorkerPoint.Next` — the transitions of the coroutine.

## Main results

* `WorkerPoint.next_of_after` — what the code between two awaits does.
-/

namespace FileAgent

/-- `JobErrorClassifier.SOURCE_ERROR_STRINGS`. -/
def sourceErrorStrings : List String :=
  ["no such file or directory", "errno 2", "file not found", "source file", "input file"]

/-- The status of `classify_copy_error`. Its network indicators and codes are those of
`NetworkErrorDetector`. The reason text is left to the environment: it depends on the order in which
a set is iterated. -/
def classifyCopyError (destinationInfo : Option StorageInfo) (sourceExists : Bool) (e : PyError) :
    FileStatus :=
  if e.kind = .network then .failed
  else if destinationInfo.any (·.status.isProblematic) then .failed
  else if networkErrorStrings.any (containsLower · e.message) ||
      e.errno.any (· ∈ networkErrnoCodes) then .failed
  else if sourceErrorStrings.any (containsLower · e.message) || !sourceExists then
    if !sourceExists then .removed else .failed
  else .failed

/-- The two statuses an exception is given. -/
lemma classifyCopyError_cases (info : Option StorageInfo) (sourceExists : Bool) (e : PyError) :
    classifyCopyError info sourceExists e = .failed ∨
      classifyCopyError info sourceExists e = .removed := by
  unfold classifyCopyError
  split_ifs <;> simp

/-- A suspended worker. -/
inductive WorkerPoint
  | getNextJob
  /-- `handle_space_shortage`, with a network issue. -/
  | waitForNetwork (job : QueueJob) (check : SpaceCheckResult)
  /-- `schedule_space_retry`. -/
  | incrementRetryCount (job : QueueJob) (check : SpaceCheckResult)
  | markSpaceError (job : QueueJob) (check : SpaceCheckResult) (spaceErrorAt : ℕ)
  | waitForSpace (job : QueueJob) (check : SpaceCheckResult) (temporary : Bool)
  | scheduleRetry (job : QueueJob) (check : SpaceCheckResult) (temporary : Bool)
  /-- `handle_space_shortage`, after `schedule_space_retry` raised. -/
  | failForSpace (job : QueueJob) (check : SpaceCheckResult)
  /-- `initialize_copy_status`. -/
  | initializeCopyStatus (job : QueueJob) (initialStatus : FileStatus) (dest : DestPath)
    (startedCopyingAt : ℕ)
  /-- `execute_copy`. -/
  | copy (job : QueueJob) (dest : DestPath) (p : CopyPoint)
  /-- `finalize_success`. -/
  | finalize (job : QueueJob) (dest : DestPath)
  /-- `handle_copy_failure`. -/
  | handleFailure (job : QueueJob) (dest : DestPath) (status : FileStatus) (reason : String)

namespace WorkerPoint

/-- The job being processed. -/
def job? : WorkerPoint → Option QueueJob
  | getNextJob => none
  | waitForNetwork job _ | incrementRetryCount job _ | markSpaceError job _ _ | waitForSpace job _ _
  | scheduleRetry job _ _ | failForSpace job _ | initializeCopyStatus job _ _ _ | copy job _ _
  | finalize job _ | handleFailure job _ _ _ => some job

/-- The `destination_path` of the job being processed, once it is prepared. -/
def dest? : WorkerPoint → Option DestPath
  | initializeCopyStatus _ _ dest _ | copy _ dest _ | finalize _ dest
  | handleFailure _ dest _ _ => some dest
  | _ => none

/-- The delay of a space retry. -/
def retryDelay (cfg : Settings) (temporary : Bool) : ℕ :=
  if temporary then cfg.spaceRetryDelaySeconds / 2 else cfg.spaceRetryDelaySeconds

/-- The text a space retry starts with. -/
def retryReason (check : SpaceCheckResult) (temporary : Bool) : String :=
  (if temporary then "Temporary space shortage: " else "Insufficient space: ") ++ check.reason

/-- The operation that a request of `copy_file` is. -/
def copyOp (path : FilePath) : CopyRequest → Op
  | .getFileByPath => .getFileByPath path
  | .getFileById id => .getFileById id
  | .updateFileStatusById id status kwargs => .call (.updateFileStatusById id status kwargs)
  | _ => .io

/-- The answer `copy_file` gets. -/
def copyAnswer (env : Env) : CopyRequest → Answer → Option CopyAnswer
  | .getFileByPath, .file id => some (.found id)
  | .getFileById _, .file id => some (.stored id.isSome)
  | .updateFileStatusById .., .done _ => some .done
  | .getFileByPath, _ | .getFileById _, _ | .updateFileStatusById .., _ => none
  | _, .io => some env.copyAnswer
  | _, _ => none

/-- The operation a suspended worker awaits. -/
def op (cfg : Settings) : WorkerPoint → Op
  | getNextJob => .getNextJob
  | waitForNetwork job check =>
    .call (.updateFileStatusById job.file .waitingForNetwork
      [.errorMessage (some ("Network unavailable: " ++ check.reason))])
  | incrementRetryCount job _ => .call (.incrementRetryCount job.file)
  | markSpaceError job check spaceErrorAt =>
    .call (.updateFileStatusById job.file .spaceError
      [.spaceErrorAt (some spaceErrorAt),
        .errorMessage (some ("Permanent space issue after " ++ toString cfg.maxSpaceRetries ++
          " retries: " ++ check.reason))])
  | waitForSpace job check temporary =>
    .call (.updateFileStatusById job.file .waitingForSpace
      [.errorMessage (some (retryReason check temporary ++ ". Retrying in " ++
        toString (retryDelay cfg temporary / 60) ++ " minutes."))])
  | scheduleRetry job check temporary =>
    .call (.scheduleRetry job.file (retryDelay cfg temporary) (retryReason check temporary))
  | failForSpace job check =>
    .call (.updateFileStatusById job.file .failed
      [.errorMessage (some ("Insufficient space: " ++ check.reason))])
  | initializeCopyStatus job initialStatus _ startedCopyingAt =>
    .call (.updateFileStatusById job.file initialStatus
      [.copyProgress 0, .startedCopyingAt (some startedCopyingAt)])
  | copy job dest p => copyOp job.path (p.request cfg dest.toString)
  | finalize job _ =>
    .call (.updateFileStatusById job.file .completed
      [.errorMessage none, .copyProgress 100, .retryCount 0])
  | handleFailure job _ status reason =>
    .call (.updateFileStatusById job.file status
      [.copyProgress 0, .bytesCopied 0,
        .errorMessage (some ((if status = .removed then "Removed: " else "Failed: ") ++ reason))])

/-- `process_job` up to its first await. An exception of the preparation ends it. -/
def processJob (cfg : Settings) (view : View) (job : QueueJob) : WorkerPoint :=
  let check := view.env.spaceCheck
  if cfg.enablePreCopySpaceCheck && !check.hasSpace then
    if containsLower "not accessible" check.reason then waitForNetwork job check
    else incrementRetryCount job check
  else
    match view.env.prepared with
    | .ok dest =>
      initializeCopyStatus job (determineInitialStatus (view.heap job.file)) dest view.now
    | .error _ => getNextJob

/-- `execute_copy` and what `process_job` makes of its outcome. A copy that returns `False` ends
`process_job`, and so does an exception that `execute_copy` turns into `False`. -/
def afterCopy (view : View) (job : QueueJob) (dest : DestPath) : CopyPoint → WorkerPoint
  | .done (.returned true) => finalize job dest
  | .done (.returned false) => getNextJob
  | .done (.raised e) =>
    if e.kind = .fileNotFound ∨ e.kind = .network then
      handleFailure job dest
        (classifyCopyError view.destinationInfo view.env.sourceExists e) view.env.reason
    else getNextJob
  | p => copy job dest p

/-- The code between two awaits. -/
def after (cfg : Settings) (view : View) : WorkerPoint → Answer → Option WorkerPoint
  | getNextJob, .job none => some getNextJob
  | getNextJob, .job (some job) => some (processJob cfg view job)
  | waitForNetwork _ _, .done _ => some getNextJob
  | incrementRetryCount job check, .done count =>
    if cfg.maxSpaceRetries ≤ count then some (markSpaceError job check view.now)
    else
      match check.isTemporaryShortage with
      | some temporary => some (waitForSpace job check temporary)
      | none => some (failForSpace job check)
  | markSpaceError _ _ _, .done _ => some getNextJob
  | waitForSpace job check temporary, .done _ => some (scheduleRetry job check temporary)
  | scheduleRetry _ _ _, .done _ => some getNextJob
  | failForSpace _ _, .done _ => some getNextJob
  | initializeCopyStatus job _ dest _, .done _ => some (copy job dest (.initialSize job.file))
  | copy job dest p, a =>
    ((copyAnswer view.env (p.request cfg dest.toString) a).bind (p.resume cfg view.heap)).map
      (afterCopy view job dest)
  | finalize _ _, .done _ => some getNextJob
  | handleFailure _ _ _ _, .done _ => some getNextJob
  | _, _ => none

/-! ## Where a worker goes -/

section Lemmas

variable {cfg : Settings} {view : View} {job : QueueJob}

/-- The points `process_job` comes to first. -/
lemma processJob_cases (cfg : Settings) (view : View) (job : QueueJob) :
    processJob cfg view job = getNextJob ∨
      processJob cfg view job = waitForNetwork job view.env.spaceCheck ∨
      processJob cfg view job = incrementRetryCount job view.env.spaceCheck ∨
      ∃ dest, processJob cfg view job =
        initializeCopyStatus job (determineInitialStatus (view.heap job.file)) dest view.now := by
  unfold processJob
  by_cases hspace : (cfg.enablePreCopySpaceCheck && !view.env.spaceCheck.hasSpace) = true
  · simp only [hspace, if_true]
    split_ifs
    · exact .inr (.inl rfl)
    · exact .inr (.inr (.inl rfl))
  · simp only [hspace, Bool.false_eq_true, if_false]
    cases view.env.prepared with
    | ok dest => exact .inr (.inr (.inr ⟨dest, rfl⟩))
    | error e => exact .inl rfl

/-- The statuses `copy_file` writes: `COPYING` and `GROWING_COPY`, and `COMPLETED` at its end. -/
lemma copyOp_writes {path : FilePath} {dest : String} {q : CopyPoint} {id : FileId}
    {st : FileStatus} (h : (copyOp path (q.request cfg dest)).writes id = some st) :
    st = .copying ∨ st = .growingCopy ∨ st = .completed ∧ ∃ file, q = .markCompleted file := by
  cases q with
  | markCompleted file =>
    simp only [CopyPoint.request, copyOp, Op.writes] at h
    split_ifs at h
    exact .inr (.inr ⟨(Option.some.inj h).symm, file, rfl⟩)
  | progress v r speed =>
    simp only [CopyPoint.request, copyOp, Op.writes, LoopVars.copyStatus] at h
    split_ifs at h
    · exact .inl (Option.some.inj h).symm
    · exact .inr (.inl (Option.some.inj h).symm)
  | growthUpdate v n =>
    simp only [CopyPoint.request, copyOp, Op.writes] at h
    split_ifs at h
    exact .inr (.inl (Option.some.inj h).symm)
  | _ => cases h

/-- The points `process_job` comes to from `copy_file`. -/
lemma afterCopy_cases (view : View) (job : QueueJob) (dest : DestPath) (p : CopyPoint) :
    afterCopy view job dest p = copy job dest p ∨ afterCopy view job dest p = getNextJob ∨
      afterCopy view job dest p = finalize job dest ∨
      ∃ status reason, (status = .failed ∨ status = .removed) ∧
        afterCopy view job dest p = handleFailure job dest status reason := by
  unfold afterCopy
  split
  · exact .inr (.inr (.inl rfl))
  · exact .inr (.inl rfl)
  · split_ifs
    · exact .inr (.inr (.inr ⟨_, _, classifyCopyError_cases _ _ _, rfl⟩))
    · exact .inr (.inl rfl)
  · exact .inl rfl

/-- The transitions of the coroutine. Where a copy goes is told by `afterCopy`. -/
inductive Next (cfg : Settings) (view : View) : WorkerPoint → Answer → WorkerPoint → Prop
  | idle : Next cfg view getNextJob (.job none) getNextJob
  | rejected (job : QueueJob) : Next cfg view getNextJob (.job (some job)) getNextJob
  | networkDown (job : QueueJob) (hspace : view.env.spaceCheck.hasSpace = false) :
      Next cfg view getNextJob (.job (some job)) (waitForNetwork job view.env.spaceCheck)
  | short (job : QueueJob) (hspace : view.env.spaceCheck.hasSpace = false) :
      Next cfg view getNextJob (.job (some job)) (incrementRetryCount job view.env.spaceCheck)
  | prepared (job : QueueJob) (dest : DestPath) (hdest : view.env.prepared = .ok dest) :
      Next cfg view getNextJob (.job (some job))
        (initializeCopyStatus job (determineInitialStatus (view.heap job.file)) dest view.now)
  | waitsForNetwork (job : QueueJob) (check : SpaceCheckResult) (n : ℕ) :
      Next cfg view (waitForNetwork job check) (.done n) getNextJob
  | givesUp (job : QueueJob) (check : SpaceCheckResult) (count : ℕ)
      (hcount : cfg.maxSpaceRetries ≤ count) :
      Next cfg view (incrementRetryCount job check) (.done count)
        (markSpaceError job check view.now)
  | retries (job : QueueJob) (check : SpaceCheckResult) (count : ℕ) (temporary : Bool)
      (hcount : count < cfg.maxSpaceRetries) (htemp : check.isTemporaryShortage = some temporary) :
      Next cfg view (incrementRetryCount job check) (.done count) (waitForSpace job check temporary)
  | fails (job : QueueJob) (check : SpaceCheckResult) (count : ℕ)
      (hcount : count < cfg.maxSpaceRetries) (htemp : check.isTemporaryShortage = none) :
      Next cfg view (incrementRetryCount job check) (.done count) (failForSpace job check)
  | givenUp (job : QueueJob) (check : SpaceCheckResult) (t n : ℕ) :
      Next cfg view (markSpaceError job check t) (.done n) getNextJob
  | waitsForSpace (job : QueueJob) (check : SpaceCheckResult) (temporary : Bool) (n : ℕ) :
      Next cfg view (waitForSpace job check temporary) (.done n) (scheduleRetry job check temporary)
  | scheduled (job : QueueJob) (check : SpaceCheckResult) (temporary : Bool) (n : ℕ) :
      Next cfg view (scheduleRetry job check temporary) (.done n) getNextJob
  | failed (job : QueueJob) (check : SpaceCheckResult) (n : ℕ) :
      Next cfg view (failForSpace job check) (.done n) getNextJob
  | initialized (job : QueueJob) (status : FileStatus) (dest : DestPath) (t n : ℕ) :
      Next cfg view (initializeCopyStatus job status dest t) (.done n)
        (copy job dest (.initialSize job.file))
  | copies {a : Answer} (job : QueueJob) (dest : DestPath) (p p' : CopyPoint) (b : CopyAnswer)
      (hb : copyAnswer view.env (p.request cfg dest.toString) a = some b)
      (hcopy : p.resume cfg view.heap b = some p') :
      Next cfg view (copy job dest p) a (afterCopy view job dest p')
  | finalized (job : QueueJob) (dest : DestPath) (n : ℕ) :
      Next cfg view (finalize job dest) (.done n) getNextJob
  | handled (job : QueueJob) (dest : DestPath) (status : FileStatus) (reason : String) (n : ℕ) :
      Next cfg view (handleFailure job dest status reason) (.done n) getNextJob

/-- **What the code between two awaits does.**

**Proof sketch.** By cases on the point and on the answer, in the order of the source. Each branch
is one constructor of `Next`. -/
theorem next_of_after {p p' : WorkerPoint} {a : Answer} (h : p.after cfg view a = some p') :
    Next cfg view p a p' := by
  cases p with
  | getNextJob =>
    cases a with
    | job j =>
      cases j with
      | none => cases h; exact .idle
      | some job =>
        cases h
        unfold processJob
        dsimp only
        split_ifs with hspace hnetwork
        · rw [Bool.and_eq_true, Bool.not_eq_true'] at hspace
          exact .networkDown job hspace.2
        · rw [Bool.and_eq_true, Bool.not_eq_true'] at hspace
          exact .short job hspace.2
        · split
          · rename_i dest hdest
            exact .prepared job dest hdest
          · exact .rejected job
    | _ => cases h
  | incrementRetryCount job check =>
    cases a with
    | done count =>
      simp only [after] at h
      split_ifs at h with hcount
      · cases h
        exact .givesUp job check count hcount
      · split at h <;> cases h
        · rename_i temporary htemp
          exact .retries job check count temporary (not_le.mp hcount) htemp
        · rename_i htemp
          exact .fails job check count (not_le.mp hcount) htemp
    | _ => cases h
  | copy job dest q =>
    simp only [after, Option.map_eq_some_iff, Option.bind_eq_some_iff] at h
    obtain ⟨q', ⟨b, hb, hq'⟩, rfl⟩ := h
    exact .copies job dest q q' b hb hq'
  | _ =>
    cases a <;> cases h
    constructor

/-- The job of a worker after a step: none, the one it had, or the one taken now. -/
lemma job?_after {p p' : WorkerPoint} {a : Answer} (h : p.after cfg view a = some p') :
    p'.job? = none ∨ p'.job? = p.job? ∨
      p = getNextJob ∧ ∃ job, a = .job (some job) ∧ p'.job? = some job := by
  cases next_of_after h with
  | networkDown job | short job | prepared job => exact .inr (.inr ⟨rfl, job, rfl, rfl⟩)
  | copies job dest q q' =>
    rcases afterCopy_cases view job dest q' with hp | hp | hp | ⟨st, reason, -, hp⟩ <;> rw [hp]
    · exact .inr (.inl rfl)
    · exact .inl rfl
    · exact .inr (.inl rfl)
    · exact .inr (.inl rfl)
  | givesUp | retries | fails | waitsForSpace | initialized => exact .inr (.inl rfl)
  | _ => exact .inl rfl

end Lemmas

end WorkerPoint

end FileAgent

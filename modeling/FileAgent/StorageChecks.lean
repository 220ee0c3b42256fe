import FileAgent.Library.Run
import FileAgent.StorageMonitor

set_option relaxedAutoImplicit false
set_option autoImplicit false

/-!
# Checks of the storage that overlap

`_check_single_storage` is a coroutine. The monitoring loop runs it, so does `start_monitoring`
itself, and other services call `trigger_immediate_check`; while one check mounts the share or waits
for the handlers of its event, others run. From reading `old_info` to publishing the event there is
no `await`, and that is where a check takes effect.

## Main definitions

* `StorageCheckPoint`, `StorageCheck.resume` — the coroutine.
* `Monitor`, `MonitorAction`, `monitorStep` — any number of checks.
* `StorageCheck.outputs` — what a check does that is not interrupted by others.
* `Linked` — status changes that continue one another.

## Main results

* `monitorInv_step` — the step lemma.
* `checks_atomic` — each check does what it does alone.
* `status_changes_linked` — the published changes of a location are its history.
-/

namespace FileAgent

open Transition

/-! ## The coroutine -/

/-- `MountStatus`. -/
inductive MountStatus
  | attempting
  | success
  | failed
  | notConfigured
  deriving DecidableEq

/-- What a check does that others see: it publishes a `MountStatusChangedEvent` or a
`StorageStatusChangedEvent`, or calls `process_waiting_network_files`. -/
inductive MonitorOutput
  | mountStatus (status : MountStatus)
  | statusChanged (oldStatus : Option StorageStatus) (info : StorageInfo)
  | processWaiting
  deriving DecidableEq

/-- The awaits of `_check_single_storage`: the three calls of `check_path`, the handlers of the
events, the mount and the recreation of the directory, and the job queue. The check has returned, or
an exception or a cancellation has ended it. -/
inductive StorageCheckPoint
  | checkPath
  | notConfigured (info : StorageInfo)
  | mountAttempt (info : StorageInfo)
  | ensureMount (info : StorageInfo)
  | mountSuccess
  | mountFailure (info : StorageInfo)
  | checkMounted
  | ensureDirectory (info : StorageInfo)
  | checkRecreated
  | publish (oldInfo : Option StorageInfo) (info : StorageInfo)
  | processWaiting
  | returned
  | failed
  deriving DecidableEq

/-- A check of a location, with the answers that the environment has for it. -/
structure StorageCheck where
  storageType : StorageType
  answers : CheckEnvironment
  point : StorageCheckPoint := .checkPath

/-- The step of a check: the state of the storage, the next point, and what others see. -/
structure CheckStep where
  state : StorageState
  point : StorageCheckPoint
  outputs : List MonitorOutput := []

namespace StorageCheck

/-- `check_path` with the directory and the thresholds of the location. -/
def checkPath (cfg : Settings) (c : StorageCheck) (r : PathReadings) : StorageInfo :=
  FileAgent.checkPath (cfg.directory c.storageType) (cfg.thresholds c.storageType).1
    (cfg.thresholds c.storageType).2 r

/-- The last part: `old_info` is read, the result is stored, and the event is published. -/
def report (c : StorageCheck) (st : StorageState) (info : StorageInfo) : CheckStep where
  state := st.update info c.storageType
  point := .publish (st.currentInfo c.storageType) info
  outputs := [.statusChanged ((st.currentInfo c.storageType).map (·.status)) info]

/-- A location that is not accessible: the destination is mounted if a share is configured, and
else the directory is recreated. -/
def inaccessible (c : StorageCheck) (st : StorageState) (info : StorageInfo) : CheckStep :=
  if c.storageType = .destination then
    if c.answers.mountConfigured then
      if c.answers.shareUrl.any (· ≠ "") then
        { state := st, point := .mountAttempt info, outputs := [.mountStatus .attempting] }
      else { state := st, point := .ensureDirectory info }
    else { state := st, point := .notConfigured info, outputs := [.mountStatus .notConfigured] }
  else { state := st, point := .ensureDirectory info }

/-- What follows from the result. `JobQueueService` has no `handle_destination_unavailable`, so
that the call for a destination that becomes unavailable raises, which is caught. -/
def react (c : StorageCheck) (st : StorageState) (oldInfo : Option StorageInfo)
    (info : StorageInfo) : CheckStep :=
  if isDestinationUnavailable c.storageType oldInfo info then { state := st, point := .returned }
  else if isDestinationRecovery c.storageType oldInfo info then
    { state := st, point := .processWaiting, outputs := [.processWaiting] }
  else { state := st, point := .returned }

/-- The code between two awaits. -/
def resume (cfg : Settings) (c : StorageCheck) (st : StorageState) : Option CheckStep :=
  match c.point with
  | .checkPath =>
    let info := c.checkPath cfg c.answers.first
    some (if info.isAccessible then c.report st info else c.inaccessible st info)
  | .notConfigured info => some { state := st, point := .ensureDirectory info }
  | .mountAttempt info => some { state := st, point := .ensureMount info }
  | .ensureMount info =>
    some (if c.answers.mountSuccess then
      { state := st, point := .mountSuccess, outputs := [.mountStatus .success] }
    else { state := st, point := .mountFailure info, outputs := [.mountStatus .failed] })
  | .mountSuccess => some { state := st, point := .checkMounted }
  | .mountFailure info => some (c.report st info)
  | .checkMounted | .checkRecreated => some (c.report st (c.checkPath cfg c.answers.again))
  | .ensureDirectory info =>
    some (if c.answers.recreated then { state := st, point := .checkRecreated }
    else c.report st info)
  | .publish oldInfo info => some (c.react st oldInfo info)
  | .processWaiting => some { state := st, point := .returned }
  | .returned | .failed => none

/-- The mount status that a check announces. -/
def mountStatuses (cfg : Settings) (c : StorageCheck) : List MountStatus :=
  if (c.checkPath cfg c.answers.first).isAccessible || c.storageType = .source then []
  else if !c.answers.mountConfigured then [.notConfigured]
  else if c.answers.shareUrl.any (· ≠ "") then
    [.attempting, if c.answers.mountSuccess then .success else .failed]
  else []

/-- What a check does by itself, if the location had the given result before. -/
def outputs (cfg : Settings) (c : StorageCheck) (oldInfo : Option StorageInfo) :
    List MonitorOutput :=
  let info := checkedInfo cfg c.storageType c.answers
  (c.mountStatuses cfg).map .mountStatus ++ [.statusChanged (oldInfo.map (·.status)) info] ++
    if isDestinationRecovery c.storageType oldInfo info then [.processWaiting] else []

end StorageCheck

/-! ## Overlapping checks -/

/-- An output, with the check that made it and its location. -/
structure LogEntry where
  check : ℕ
  storageType : StorageType
  output : MonitorOutput

/-- The monitor: the results stored last, all checks so far, and what they did. -/
structure Monitor where
  state : StorageState := {}
  checks : List StorageCheck := []
  log : List LogEntry := []

/-- The steps: somebody starts a check, check `i` goes on, or it is ended by an exception or a
cancellation. -/
inductive MonitorAction
  | start (storageType : StorageType) (answers : CheckEnvironment)
  | run (i : ℕ)
  | fail (i : ℕ)

/-- One step. -/
def monitorStep (cfg : Settings) (m : Monitor) : MonitorAction → Option Monitor
  | .start storageType answers =>
    some { m with checks := m.checks ++ [{ storageType := storageType, answers := answers }] }
  | .run i =>
    m.checks[i]?.bind fun c =>
      (c.resume cfg m.state).map fun s =>
        { state := s.state
          checks := m.checks.set i { c with point := s.point }
          log := m.log ++ s.outputs.map fun o => ⟨i, c.storageType, o⟩ }
  | .fail i =>
    m.checks[i]?.bind fun c =>
      if c.point = .returned then none
      else some { m with checks := m.checks.set i { c with point := .failed } }

/-- What the check `i` has done. -/
def Monitor.outputsOf (m : Monitor) (i : ℕ) : List MonitorOutput :=
  m.log.filterMap fun e => if e.check = i then some e.output else none

/-- The status change that an output publishes. -/
def MonitorOutput.change? : MonitorOutput → Option (Option StorageStatus × StorageInfo)
  | .statusChanged oldStatus info => some (oldStatus, info)
  | .mountStatus _ | .processWaiting => none

/-- The status changes of a location that have been published. -/
def Monitor.statusChanges (m : Monitor) (storageType : StorageType) :
    List (Option StorageStatus × StorageInfo) :=
  m.log.filterMap fun e => if e.storageType = storageType then e.output.change? else none

/-- Each change starts from the status that the one before has led to. -/
def Linked : Option StorageStatus → List (Option StorageStatus × StorageInfo) → Prop
  | _, [] => True
  | status, (oldStatus, info) :: rest => oldStatus = status ∧ Linked (some info.status) rest

/-! ## One check -/

namespace StorageCheck

variable {cfg : Settings} {c : StorageCheck} {st : StorageState} {s : CheckStep}
  {info : StorageInfo} {outs : List MonitorOutput}

/-- What a check has still to announce before its result is stored, and that result. -/
def rest (cfg : Settings) (c : StorageCheck) :
    StorageCheckPoint → Option (List MountStatus × StorageInfo)
  | .checkPath => some (c.mountStatuses cfg, checkedInfo cfg c.storageType c.answers)
  | .mountAttempt info | .ensureMount info =>
    some (if c.answers.mountSuccess then ([.success], c.checkPath cfg c.answers.again)
      else ([.failed], info))
  | .mountFailure info => some ([], info)
  | .notConfigured info | .ensureDirectory info =>
    some ([], if c.answers.recreated then c.checkPath cfg c.answers.again else info)
  | .mountSuccess | .checkMounted | .checkRecreated => some ([], c.checkPath cfg c.answers.again)
  | .publish .. | .processWaiting | .returned | .failed => none

/-- A check goes on without storing anything, or stores its result. -/
inductive Next (cfg : Settings) (c : StorageCheck) (st : StorageState) : CheckStep → Prop
  | goesOn (p : StorageCheckPoint) (now later : List MountStatus) (info : StorageInfo)
      (hbefore : c.rest cfg c.point = some (now ++ later, info))
      (hafter : c.rest cfg p = some (later, info)) :
      Next cfg c st { state := st, point := p, outputs := now.map .mountStatus }
  | reports (info : StorageInfo) (hbefore : c.rest cfg c.point = some ([], info)) :
      Next cfg c st (c.report st info)
  | reacts (oldInfo : Option StorageInfo) (info : StorageInfo)
      (hp : c.point = .publish oldInfo info) : Next cfg c st (c.react st oldInfo info)
  | returns (hp : c.point = .processWaiting) : Next cfg c st { state := st, point := .returned }

/-- An accessible location is reported at once. -/
lemma rest_of_accessible (hp : c.point = .checkPath)
    (hacc : (c.checkPath cfg c.answers.first).isAccessible = true) :
    c.rest cfg c.point = some ([], c.checkPath cfg c.answers.first) := by
  unfold checkPath at hacc
  simp only [hp, rest, mountStatuses, checkedInfo, checkPath, hacc, Bool.true_or, if_true]

/-- What is to be done for a location that is not accessible. -/
lemma rest_of_inaccessible (hp : c.point = .checkPath)
    (hacc : (c.checkPath cfg c.answers.first).isAccessible = false) :
    c.rest cfg c.point = some (
      if c.storageType = .source then []
      else if !c.answers.mountConfigured then [.notConfigured]
      else if c.answers.shareUrl.any (· ≠ "") then
        [.attempting, if c.answers.mountSuccess then .success else .failed]
      else [],
      if c.storageType = .destination && c.answers.mountConfigured &&
          c.answers.shareUrl.any (· ≠ "") then
        if c.answers.mountSuccess then c.checkPath cfg c.answers.again
        else c.checkPath cfg c.answers.first
      else if c.answers.recreated then c.checkPath cfg c.answers.again
      else c.checkPath cfg c.answers.first) := by
  unfold checkPath at hacc
  simp only [hp, rest, mountStatuses, checkedInfo, checkPath, hacc, Bool.false_or,
    decide_eq_true_eq, Bool.false_eq_true, if_false]

/-- A location that is not accessible is mounted or its directory is recreated. -/
lemma next_of_inaccessible (hp : c.point = .checkPath)
    (hacc : (c.checkPath cfg c.answers.first).isAccessible = false) :
    Next cfg c st (c.inaccessible st (c.checkPath cfg c.answers.first)) := by
  have hrest := rest_of_inaccessible hp hacc
  unfold inaccessible
  split_ifs with hdest hconfigured hurl
  · refine .goesOn _ [.attempting] _ _ (hrest.trans ?_) rfl
    simp only [hdest, hconfigured, hurl]
    cases c.answers.mountSuccess <;> rfl
  · refine .goesOn _ [] [] _ (hrest.trans ?_) rfl
    simp only [hdest, hconfigured, hurl]
    rfl
  · refine .goesOn _ [.notConfigured] [] _ (hrest.trans ?_) rfl
    simp only [hdest, hconfigured]
    rfl
  · have hsource : c.storageType = .source := by
      cases hs : c.storageType with
      | source => rfl
      | destination => exact absurd hs hdest
    refine .goesOn _ [] [] _ (hrest.trans ?_) rfl
    simp only [hsource]
    rfl

/-- **What the code between two awaits does.**

**Proof sketch.** By cases on the point, and on what the check has answered there. Each point
either emits an output and goes on, or reports the result, reacts to a change or returns, and
`rest` says what is still to come. -/
theorem next_of_resume (h : c.resume cfg st = some s) : Next cfg c st s := by
  obtain ⟨storageType, answers, point⟩ := c
  cases point with
  | checkPath =>
    simp only [resume] at h
    split_ifs at h with hacc <;> obtain rfl := Option.some.inj h
    · exact .reports _ (rest_of_accessible rfl hacc)
    · exact next_of_inaccessible rfl (by simpa using hacc)
  | notConfigured info =>
    obtain rfl := Option.some.inj h
    exact .goesOn _ [] [] _ rfl rfl
  | mountAttempt info =>
    obtain rfl := Option.some.inj h
    exact .goesOn _ [] _ _ rfl rfl
  | ensureMount info =>
    simp only [resume] at h
    split_ifs at h with hsuccess <;> obtain rfl := Option.some.inj h
    · exact .goesOn _ [.success] [] _ (by simp [rest, hsuccess]) rfl
    · exact .goesOn _ [.failed] [] _ (by simp [rest, hsuccess]) rfl
  | mountSuccess =>
    obtain rfl := Option.some.inj h
    exact .goesOn _ [] [] _ rfl rfl
  | mountFailure info | checkMounted | checkRecreated =>
    obtain rfl := Option.some.inj h
    exact .reports _ rfl
  | ensureDirectory info =>
    simp only [resume] at h
    split_ifs at h with hrecreated <;> obtain rfl := Option.some.inj h
    · exact .goesOn _ [] [] _ (by simp [rest, hrecreated]) rfl
    · exact .reports _ (by simp [rest, hrecreated])
  | publish oldInfo info =>
    obtain rfl := Option.some.inj h
    exact .reacts oldInfo info rfl
  | processWaiting =>
    obtain rfl := Option.some.inj h
    exact .returns rfl
  | returned | failed => cases h

/-- What a check has done by its point: what it does alone, up to there. -/
def Follows (cfg : Settings) (c : StorageCheck) (outs : List MonitorOutput) : Prop :=
  match c.point with
  | .publish oldInfo info =>
    info = checkedInfo cfg c.storageType c.answers ∧
      outs = (c.mountStatuses cfg).map .mountStatus ++
        [.statusChanged (oldInfo.map (·.status)) info]
  | .processWaiting | .returned => ∃ oldInfo, outs = c.outputs cfg oldInfo
  | .failed => ∃ oldInfo, outs <+: c.outputs cfg oldInfo
  | p => ∃ later, c.rest cfg p = some (later, checkedInfo cfg c.storageType c.answers) ∧
      outs ++ later.map .mountStatus = (c.mountStatuses cfg).map .mountStatus

/-- What a check follows when it is where the point says. -/
lemma follows_iff_of_rest {later : List MountStatus}
    (h : c.rest cfg c.point = some (later, info)) :
    c.Follows cfg outs ↔ info = checkedInfo cfg c.storageType c.answers ∧
      outs ++ later.map .mountStatus = (c.mountStatuses cfg).map .mountStatus := by
  obtain ⟨storageType, answers, point⟩ := c
  have hfollows : (∃ later', rest cfg ⟨storageType, answers, point⟩ point =
      some (later', checkedInfo cfg storageType answers) ∧
      outs ++ later'.map .mountStatus =
        (mountStatuses cfg ⟨storageType, answers, point⟩).map .mountStatus) ↔
      info = checkedInfo cfg storageType answers ∧ outs ++ later.map .mountStatus =
        (mountStatuses cfg ⟨storageType, answers, point⟩).map .mountStatus := by
    dsimp only at h
    rw [h]
    constructor
    · rintro ⟨later', heq, houts⟩
      obtain ⟨rfl, rfl⟩ := Prod.mk.inj (Option.some.inj heq)
      exact ⟨rfl, houts⟩
    · rintro ⟨rfl, houts⟩
      exact ⟨later, rfl, houts⟩
  cases point <;> first | exact hfollows | cases h

/-- A check has done a part of what it does alone. -/
lemma prefix_of_follows (h : c.Follows cfg outs) :
    ∃ oldInfo, outs <+: c.outputs cfg oldInfo := by
  have hmounts : ∀ later : List MountStatus,
      outs ++ later.map .mountStatus = (c.mountStatuses cfg).map .mountStatus →
      ∃ oldInfo, outs <+: c.outputs cfg oldInfo := by
    intro later hlater
    refine ⟨none, ?_⟩
    unfold outputs
    rw [← hlater, List.append_assoc, List.append_assoc]
    exact List.prefix_append _ _
  obtain ⟨storageType, answers, point⟩ := c
  cases point with
  | publish oldInfo info =>
    obtain ⟨hinfo, houts⟩ := h
    rw [houts, hinfo]
    exact ⟨oldInfo, List.prefix_append _ _⟩
  | processWaiting | returned =>
    obtain ⟨oldInfo, rfl⟩ := h
    exact ⟨oldInfo, List.prefix_refl _⟩
  | failed => exact h
  | _ =>
    obtain ⟨later, -, hlater⟩ := h
    exact hmounts later hlater

/-- **The step lemma of a check.**

**Proof sketch.** By cases on the transition. A step moves an output from those to come to those
emitted. The result is reported as `rest` says; after the reaction to it nothing is to come but
the recovery, which excludes the unavailability. -/
lemma follows_step (h : c.Follows cfg outs) (hs : c.resume cfg st = some s) :
    Follows cfg { c with point := s.point } (outs ++ s.outputs) := by
  cases next_of_resume hs with
  | goesOn p now later info hbefore hafter =>
    obtain ⟨hinfo, houts⟩ := (follows_iff_of_rest hbefore).mp h
    refine (follows_iff_of_rest (c := { c with point := p }) hafter).mpr ⟨hinfo, ?_⟩
    rw [List.append_assoc, ← List.map_append]
    exact houts
  | reports info hbefore =>
    obtain ⟨hinfo, houts⟩ := (follows_iff_of_rest hbefore).mp h
    refine ⟨hinfo, ?_⟩
    rw [List.map_nil, List.append_nil] at houts
    rw [houts]
    rfl
  | reacts oldInfo info hp =>
    simp only [Follows, hp] at h
    obtain ⟨hinfo, houts⟩ := h
    have hwhole : c.outputs cfg oldInfo =
        outs ++ if isDestinationRecovery c.storageType oldInfo info then [.processWaiting]
          else [] := by
      rw [houts, hinfo]
      rfl
    unfold react
    split_ifs with hunavailable hrecovery
    · have hnot : isDestinationRecovery c.storageType oldInfo info = false := by
        by_contra hrecovery
        rw [not_unavailable_of_recovery (by simpa using hrecovery)] at hunavailable
        cases hunavailable
      rw [hnot] at hwhole
      exact ⟨oldInfo, hwhole.symm⟩
    · rw [hrecovery] at hwhole
      exact ⟨oldInfo, hwhole.symm⟩
    · rw [Bool.not_eq_true] at hrecovery
      rw [hrecovery] at hwhole
      exact ⟨oldInfo, hwhole.symm⟩
  | returns hp =>
    simp only [Follows, hp] at h
    obtain ⟨oldInfo, houts⟩ := h
    exact ⟨oldInfo, (List.append_nil outs).trans houts⟩

end StorageCheck

/-! ## All checks -/

/-- The invariant: every check has done what it does alone up to its point, checks that have not
been started have done nothing, the stored result of a location is the one published last, and the
published changes continue one another. -/
structure MonitorInv (cfg : Settings) (m : Monitor) : Prop where
  checks : ∀ (i : ℕ) (c : StorageCheck), m.checks[i]? = some c → c.Follows cfg (m.outputsOf i)
  fresh : ∀ i, m.checks.length ≤ i → m.outputsOf i = []
  stored : ∀ storageType,
    m.state.currentInfo storageType = ((m.statusChanges storageType).getLast?).map (·.2)
  linked : ∀ storageType, Linked none (m.statusChanges storageType)

section Steps

variable {cfg : Settings} {m m' : Monitor} {i : ℕ} {storageType : StorageType}

/-- One more change is linked if its old status is that of the last change. -/
lemma linked_snoc {changes : List (Option StorageStatus × StorageInfo)} {info : StorageInfo}
    {status old : Option StorageStatus} (h : Linked status changes)
    (hold : old = (changes.getLast?.map fun change => change.2.status).or status) :
    Linked status (changes ++ [(old, info)]) := by
  induction changes generalizing status with
  | nil => exact ⟨hold, trivial⟩
  | cons change rest ih =>
    refine ⟨h.1, ih h.2 ?_⟩
    rw [hold]
    cases rest with
    | nil => rfl
    | cons next rest =>
      rw [List.getLast?_cons_cons]
      cases hlast : (next :: rest).getLast? with
      | none => simp at hlast
      | some last => rfl

/-- The outputs of a step are those of the check that makes it. -/
lemma outputsOf_run (i : ℕ) {j : ℕ} {outputs : List MonitorOutput}
    (hlog : m'.log = m.log ++ outputs.map fun o => ⟨j, storageType, o⟩) :
    m'.outputsOf i = m.outputsOf i ++ if j = i then outputs else [] := by
  unfold Monitor.outputsOf
  rw [hlog, List.filterMap_append, List.filterMap_map]
  congr 1
  split_ifs with hij
  · subst hij
    simp
  · simp [hij]

/-- The changes of a kind of storage after the outputs of one check. -/
lemma statusChanges_run (other : StorageType) {j : ℕ} {outputs : List MonitorOutput}
    (hlog : m'.log = m.log ++ outputs.map fun o => ⟨j, storageType, o⟩) :
    m'.statusChanges other = m.statusChanges other ++
      if storageType = other then outputs.filterMap MonitorOutput.change? else [] := by
  unfold Monitor.statusChanges
  rw [hlog, List.filterMap_append, List.filterMap_map]
  congr 1
  split_ifs with htype
  · subst htype
    simp
  · simp [htype]

/-- The information after an update is the new one for its kind of storage. -/
lemma currentInfo_update (st : StorageState) (info : StorageInfo) (storageType t : StorageType) :
    (st.update info storageType).currentInfo t =
      if storageType = t then some info else st.currentInfo t := by
  cases storageType <;> cases t <;> rfl

/-- **A step stores nothing and publishes no change**, or it reports a result. -/
lemma reports_or_quiet {c : StorageCheck} {st : StorageState} {s : CheckStep}
    (h : c.resume cfg st = some s) :
    (∃ info, s = c.report st info) ∨
      s.state = st ∧ s.outputs.filterMap MonitorOutput.change? = [] := by
  cases StorageCheck.next_of_resume h with
  | goesOn p now later info =>
    refine .inr ⟨rfl, List.filterMap_eq_nil_iff.mpr fun o ho => ?_⟩
    obtain ⟨status, -, rfl⟩ := List.mem_map.mp ho
    rfl
  | reports info => exact .inl ⟨info, rfl⟩
  | reacts oldInfo info =>
    right
    unfold StorageCheck.react
    split_ifs <;> exact ⟨rfl, rfl⟩
  | returns => exact .inr ⟨rfl, rfl⟩

/-- The results and the published changes after a step of a check. -/
lemma linked_run {j : ℕ} {c : StorageCheck} {s : CheckStep} (h : MonitorInv cfg m)
    (hs : c.resume cfg m.state = some s) (hstate : m'.state = s.state)
    (hlog : m'.log = m.log ++ s.outputs.map fun o => ⟨j, c.storageType, o⟩) (other : StorageType) :
    m'.state.currentInfo other = ((m'.statusChanges other).getLast?).map (·.2) ∧
      Linked none (m'.statusChanges other) := by
  have hchanges := statusChanges_run other hlog
  rcases reports_or_quiet hs with ⟨info, rfl⟩ | ⟨hsame, hquiet⟩
  · rw [hchanges, hstate]
    dsimp only [StorageCheck.report]
    rw [currentInfo_update]
    split_ifs with htype
    · subst htype
      refine ⟨by simp [MonitorOutput.change?], linked_snoc (h.linked _) ?_⟩
      rw [h.stored, Option.map_map, Option.or_none]
      rfl
    · rw [List.append_nil]
      exact ⟨h.stored other, h.linked other⟩
  · rw [hchanges, hstate, hsame, hquiet, ite_self, List.append_nil]
    exact ⟨h.stored other, h.linked other⟩

/-- **The step lemma.**

**Proof sketch.** By cases on the action. A check that begins has put out nothing. A step of a
check adds its outputs to its own and to no others, and it follows its results by `follows_step`;
the changes stay linked by `linked_run`. A check that fails keeps what it has put out, which is a
beginning of its outputs. -/
lemma monitorInv_step {a : MonitorAction} (h : MonitorInv cfg m)
    (hs : monitorStep cfg m a = some m') : MonitorInv cfg m' := by
  cases a with
  | start storageType answers =>
    obtain rfl := Option.some.inj hs
    refine ⟨fun i c hc => ?_, fun i hi => h.fresh i ?_, h.stored, h.linked⟩
    · rw [List.getElem?_append] at hc
      split_ifs at hc with hi
      · exact h.checks i c hc
      · rw [List.getElem?_singleton] at hc
        split_ifs at hc
        obtain rfl := Option.some.inj hc
        exact ⟨_, rfl, congrArg (· ++ _) (h.fresh i (not_lt.mp hi))⟩
    · simp only [List.length_append] at hi
      omega
  | run j =>
    obtain ⟨c, hc, hs⟩ := Option.bind_eq_some_iff.mp hs
    obtain ⟨s, hresume, rfl⟩ := Option.map_eq_some_iff.mp hs
    refine ⟨fun i c' hc' => ?_, fun i hi => ?_, fun other => (linked_run h hresume rfl rfl other).1,
      fun other => (linked_run h hresume rfl rfl other).2⟩
    · rw [outputsOf_run i rfl]
      rw [List.getElem?_set] at hc'
      split_ifs at hc' with hij hlt
      · obtain rfl := Option.some.inj hc'
        subst hij
        rw [if_pos rfl]
        exact StorageCheck.follows_step (h.checks j c hc) hresume
      · rw [if_neg hij, List.append_nil]
        exact h.checks i c' hc'
    · rw [List.length_set] at hi
      have hij : j ≠ i := by
        rintro rfl
        rw [List.getElem?_eq_none hi] at hc
        cases hc
      rw [outputsOf_run i rfl, if_neg hij, List.append_nil]
      exact h.fresh i hi
  | fail j =>
    obtain ⟨c, hc, hs⟩ := Option.bind_eq_some_iff.mp hs
    split_ifs at hs
    obtain rfl := Option.some.inj hs
    refine ⟨fun i c' hc' => ?_, fun i hi => h.fresh i ?_, h.stored, h.linked⟩
    · rw [List.getElem?_set] at hc'
      split_ifs at hc' with hij hlt
      · obtain rfl := Option.some.inj hc'
        subst hij
        obtain ⟨oldInfo, hprefix⟩ := StorageCheck.prefix_of_follows (h.checks j c hc)
        exact ⟨oldInfo, hprefix⟩
      · exact h.checks i c' hc'
    · rw [List.length_set] at hi
      exact hi

end Steps

/-! ## Runs -/

section Runs

variable {cfg : Settings} {m : Monitor} {tr : List (Monitor × MonitorAction)} {i : ℕ}
  {c : StorageCheck}

/-- The invariant of the monitor holds after every run. -/
lemma monitorInv_of_run (hrun : Run (monitorStep cfg) {} tr m) : MonitorInv cfg m := by
  have hok : Meets (fun _ _ => True) tr := fun _ _ => trivial
  refine hrun.invariant hok ⟨fun i c hc => by simp at hc, fun _ _ => rfl, ?_, fun _ => trivial⟩
    fun _ _ _ h _ hs => monitorInv_step h hs
  intro storageType
  cases storageType <;> rfl

/-- **Overlapping checks are atomic**: however checks overlap, each has done a part of what the code
does from the same answers without interruption, for some result of the location before it; all of
it when it has returned. So it announces the mount it attempts and how that ends, publishes once the
result that `checkedInfo` computes, and has the waiting files processed exactly if the status that
its event starts from was `ERROR` or `CRITICAL`, and its own is `OK`.

**Proof sketch.** At each point before its result is stored a check has announced what is not still
to come (`StorageCheck.rest`); the old result is read in the step that stores the new one. -/
theorem checks_atomic (hrun : Run (monitorStep cfg) {} tr m) (hc : m.checks[i]? = some c) :
    ∃ oldInfo, m.outputsOf i <+: c.outputs cfg oldInfo ∧
      (c.point = .returned → m.outputsOf i = c.outputs cfg oldInfo) := by
  have hfollows := (monitorInv_of_run hrun).checks i c hc
  by_cases hreturned : c.point = .returned
  · simp only [StorageCheck.Follows, hreturned] at hfollows
    obtain ⟨oldInfo, houts⟩ := hfollows
    exact ⟨oldInfo, houts ▸ List.prefix_refl _, fun _ => houts⟩
  · obtain ⟨oldInfo, hprefix⟩ := StorageCheck.prefix_of_follows hfollows
    exact ⟨oldInfo, hprefix, fun h => absurd h hreturned⟩

/-- **The published changes are the history of a location**: however checks overlap, the first
change of a location is from no status, each later one from the status that the one before has led
to, and the result stored for the location is that of the last.

**Proof sketch.** Induction on the run: a step that stores a result reads the one before and
publishes the change, and no other step does either. -/
theorem status_changes_linked (hrun : Run (monitorStep cfg) {} tr m) (storageType : StorageType) :
    Linked none (m.statusChanges storageType) ∧
      m.state.currentInfo storageType = ((m.statusChanges storageType).getLast?).map (·.2) :=
  ⟨(monitorInv_of_run hrun).linked storageType, (monitorInv_of_run hrun).stored storageType⟩

/-- A path with 100 GB free of 200. -/
def hundredGigabytes : PathReadings where
  isAccessible := true
  diskUsage := .ok ⟨200 * 1024 ^ 3, 100 * 1024 ^ 3, 100 * 1024 ^ 3⟩
  hasWriteAccess := true

/-- The result for the destination. -/
def hundredGigabytesInfo : StorageInfo where
  path := ""
  isAccessible := true
  hasWriteAccess := true
  freeSpaceGb := 100
  totalSpaceGb := 200
  usedSpaceGb := 100
  status := .ok
  warningThresholdGb := 50
  criticalThresholdGb := 20
  lastChecked := 0

/-- Two checks of a destination that is lost and mounted again; the second one starts while the
first waits for its mount, and reports before it. -/
def overlappingChecks : List MonitorAction :=
  [.start .destination
      { first := {}, mountConfigured := true, shareUrl := some "smb://nas/out",
        mountSuccess := true, again := hundredGigabytes },
    .run 0, .run 0,
    .start .destination
      { first := {}, mountConfigured := true, shareUrl := some "smb://nas/out" },
    .run 1, .run 1, .run 1, .run 1, .run 0, .run 0, .run 0, .run 0, .run 0, .run 1]

/-- The outputs of a check that overlaps another one. -/
theorem checks_atomic_overlapping :
    ∃ tr m c, Run (monitorStep {}) {} tr m ∧ m.checks[0]? = some c ∧
      m.outputsOf 0 = [.mountStatus .attempting, .mountStatus .success,
        .statusChanged (some .error) hundredGigabytesInfo, .processWaiting] ∧
      ∃ oldInfo, m.outputsOf 0 <+: c.outputs {} oldInfo ∧
        (c.point = .returned → m.outputsOf 0 = c.outputs {} oldInfo) := by
  obtain ⟨m, hrun, hm⟩ := exists_run_of_replay (monitorStep {}) {} overlappingChecks
    (fun m => m.checks[0]?.isSome ∧ m.outputsOf 0 = [.mountStatus .attempting,
      .mountStatus .success, .statusChanged (some .error) hundredGigabytesInfo, .processWaiting])
    (by decide +kernel)
  obtain ⟨hsome, houts⟩ := of_decide_eq_true hm
  obtain ⟨c, hc⟩ := Option.isSome_iff_exists.mp hsome
  exact ⟨_, m, c, hrun, hc, houts, checks_atomic hrun hc⟩

/-- The changes of two checks that overlap. -/
theorem status_changes_linked_overlapping :
    ∃ tr m, Run (monitorStep {}) {} tr m ∧ (m.statusChanges .destination).length = 2 ∧
      Linked none (m.statusChanges .destination) ∧
      m.state.currentInfo .destination =
        ((m.statusChanges .destination).getLast?).map (·.2) := by
  obtain ⟨m, hrun, hm⟩ := exists_run_of_replay (monitorStep {}) {} overlappingChecks
    (fun m => (m.statusChanges .destination).length = 2) (by decide +kernel)
  exact ⟨_, m, hrun, of_decide_eq_true hm, status_changes_linked hrun .destination⟩

end Runs

end FileAgent

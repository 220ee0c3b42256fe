import FileAgent.Library.OneEntry
import FileAgent.Library.Run

set_option relaxedAutoImplicit false
set_option autoImplicit false

/-!
# Pausing and resuming the scanner

`start_scanning` and `stop_scanning` of `FileScanner`, with `start_monitoring` and `stop_monitoring`
of its `GrowingFileDetector`. The scan loop is a task that is cancelled and awaited. The monitor
loop is only told to stop by a flag, which it reads when it wakes up.

## Main definitions

* `ScanLoop`, `ScannerState`, `scannerStep` — the flags and the loops.
* `ScannerState.OneLoopEach` — at most one loop of each kind is live.
* `OldLoopsExited` — the condition on `start_scanning`.
* `FinallyStopped` — the last call was one of `stop_scanning`.

## Main results

* `oneLoopEach_step_iff` — the step lemma.
* `oneLoopEach_iff` — the exact condition for at most one live loop of each kind, and the end of all
  loops after a final stop.
* `oneScanLoop_of_stopsAwaited` — at most one scan loop, if no resume overtakes a pause.
* `resumed_during_sleep_doubles_monitor` — two monitor loops.
-/

namespace FileAgent

open Transition

/-! ## The loops -/

/-- Where the task of a loop is: it has not run yet, awaits something in its iteration, sleeps, or
has ended. -/
inductive LoopPoint
  | created
  | iteration
  | sleep
  | finished
  deriving DecidableEq

namespace LoopPoint

/-- The loop is live. -/
def live (p : LoopPoint) : Bool := p ≠ .finished

/-- The next step of the loop reads its flag. -/
def wakesUp (p : LoopPoint) : Bool := p = .created ∨ p = .sleep

/-- The next await of a loop that goes on. -/
def next (sleeps : Bool) : LoopPoint := if sleeps then .sleep else .iteration

end LoopPoint

/-- A task of `_scan_folder_loop`. -/
structure ScanLoop where
  point : LoopPoint := .created
  /-- `cancel` was called, and `CancelledError` is yet to be raised. -/
  cancelled : Bool := false

/-- `FileScanner` and its `GrowingFileDetector`, with all tasks of their loops. -/
structure ScannerState where
  running : Bool := false
  monitoringActive : Bool := false
  /-- `_scan_task`, as a position in `scanLoops`. -/
  scanTask : Option ℕ := none
  scanLoops : List ScanLoop := []
  monitorLoops : List LoopPoint := []
  /-- The tasks awaited by the calls of `stop_scanning` that have not returned. -/
  stopping : List ℕ := []

namespace ScannerState

variable (s : ScannerState)

/-- `start_monitoring`. -/
def startMonitoring : ScannerState :=
  if s.monitoringActive then s
  else { s with monitoringActive := true, monitorLoops := s.monitorLoops ++ [.created] }

/-- `stop_monitoring`. -/
def stopMonitoring : ScannerState := { s with monitoringActive := false }

/-- `start_scanning`. -/
def startScanning : ScannerState :=
  if s.running then s
  else
    let s' := startMonitoring { s with running := true }
    { s' with scanTask := some s'.scanLoops.length, scanLoops := s'.scanLoops ++ [{}] }

/-- The end of `stop_scanning`, after its await. -/
def endStop : ScannerState := { s.stopMonitoring with scanTask := none }

/-- `_scan_task`, unless it is done. -/
def pendingScanTask : Option ℕ :=
  s.scanTask.filter fun i => s.scanLoops[i]?.any (·.point.live)

/-- `stop_scanning`, up to its await. -/
def stopScanning : ScannerState :=
  if s.running then
    match s.pendingScanTask with
    | some i =>
      { s with
        running := false
        scanLoops := s.scanLoops.modify i fun l => { l with cancelled := true }
        stopping := s.stopping ++ [i] }
    | none => endStop { s with running := false }
  else s

/-- The call `k` of `stop_scanning` goes on: the task it awaits is done. -/
def resumeStop (k : ℕ) : Option ScannerState :=
  match s.stopping[k]? with
  | some i =>
    if s.scanLoops[i]?.any (·.point.live) then none
    else some (endStop { s with stopping := s.stopping.eraseIdx k })
  | none => none

/-- The scan loop `i` has come to a point. -/
def setScanLoop (i : ℕ) (p : LoopPoint) : ScannerState :=
  { s with scanLoops := s.scanLoops.set i { point := p } }

/-- The scan loop `i` ends, with its `finally` block. -/
def exitScanLoop (i : ℕ) : ScannerState :=
  { stopMonitoring (s.setScanLoop i .finished) with running := false }

/-- The scan loop `i` runs up to its next await. A task that is cancelled before it has run never
enters its `try` block. In an iteration, the cancellation of a retry may catch the exception
(`absorbed`). -/
def stepScanLoop (i : ℕ) (sleeps absorbed : Bool) : Option ScannerState :=
  match s.scanLoops[i]? with
  | none | some ⟨.finished, _⟩ => none
  | some ⟨.created, true⟩ => some (s.setScanLoop i .finished)
  | some ⟨.iteration, true⟩ =>
    some (if absorbed then s.setScanLoop i (.next sleeps) else s.exitScanLoop i)
  | some ⟨.sleep, true⟩ => some (s.exitScanLoop i)
  | some ⟨.iteration, false⟩ => some (s.setScanLoop i (.next sleeps))
  | some ⟨.created, false⟩ | some ⟨.sleep, false⟩ =>
    some (if s.running then s.setScanLoop i (.next sleeps) else s.exitScanLoop i)

/-- The monitor loop `i` runs up to its next await. -/
def stepMonitorLoop (i : ℕ) (sleeps : Bool) : Option ScannerState :=
  match s.monitorLoops[i]? with
  | none | some .finished => none
  | some .iteration => some { s with monitorLoops := s.monitorLoops.set i (.next sleeps) }
  | some .created | some .sleep =>
    some { s with
      monitorLoops :=
        s.monitorLoops.set i (if s.monitoringActive then .next sleeps else .finished) }

/-- The number of scan loops that are live. -/
def liveScanLoops : ℕ := s.scanLoops.countP (·.point.live)

/-- The number of monitor loops that are live. -/
def liveMonitorLoops : ℕ := s.monitorLoops.countP LoopPoint.live

/-- At most one loop of each kind is live. -/
def OneLoopEach : Prop := s.liveScanLoops ≤ 1 ∧ s.liveMonitorLoops ≤ 1

end ScannerState

/-- The steps: calls, and the loops running up to their next await. -/
inductive ScannerAction
  | startScanning
  | stopScanning
  | resumeStop (k : ℕ)
  | scanLoop (i : ℕ) (sleeps absorbed : Bool)
  | monitorLoop (i : ℕ) (sleeps : Bool)
  deriving DecidableEq

/-- One step. -/
def scannerStep (s : ScannerState) : ScannerAction → Option ScannerState
  | .startScanning => some s.startScanning
  | .stopScanning => some s.stopScanning
  | .resumeStop k => s.resumeStop k
  | .scanLoop i sleeps absorbed => s.stepScanLoop i sleeps absorbed
  | .monitorLoop i sleeps => s.stepMonitorLoop i sleeps

/-- The condition on a step: if `start_scanning` finds the scanner stopped, all scan loops have
ended, and if it finds the monitoring stopped, so have all monitor loops. -/
def OldLoopsExited (s : ScannerState) : ScannerAction → Prop
  | .startScanning =>
    s.running = false →
      s.liveScanLoops = 0 ∧ (s.monitoringActive = false → s.liveMonitorLoops = 0)
  | _ => True

instance (s : ScannerState) : (a : ScannerAction) → Decidable (OldLoopsExited s a)
  | .startScanning => inferInstanceAs (Decidable (_ → _))
  | .stopScanning | .resumeStop _ | .scanLoop _ _ _ | .monitorLoop _ _ => .isTrue trivial

/-- `stop_scanning` has been called, and `start_scanning` has not been called since. -/
def FinallyStopped (tr : List (ScannerState × ScannerAction)) : Prop :=
  ∃ tr₁ s tr₂, tr = tr₁ ++ (s, .stopScanning) :: tr₂ ∧ ∀ p ∈ tr₂, p.2 ≠ .startScanning

/-- Every loop ends when it wakes up the next time. -/
def ScannerState.ExitsAtWakeUp (s : ScannerState) : Prop :=
  (∀ i l, s.scanLoops[i]? = some l → l.point.wakesUp = true → ∀ sleeps absorbed,
    ∃ s', scannerStep s (.scanLoop i sleeps absorbed) = some s' ∧
      s'.scanLoops[i]? = some { point := .finished }) ∧
  ∀ i p, s.monitorLoops[i]? = some p → p.wakesUp = true → ∀ sleeps,
    ∃ s', scannerStep s (.monitorLoop i sleeps) = some s' ∧ s'.monitorLoops[i]? = some .finished

/-! ## The number of live loops -/

section Steps

variable {s s' : ScannerState} {a : ScannerAction} {i k : ℕ} {sleeps absorbed : Bool}

/-- **A step of a scan loop** is one of a live loop. The loop comes to a point, or it ends with its
`finally` block. -/
lemma stepScanLoop_cases (h : s.stepScanLoop i sleeps absorbed = some s') :
    ∃ l, s.scanLoops[i]? = some l ∧ l.point.live = true ∧
      ((∃ p, s' = s.setScanLoop i p) ∨ s' = s.exitScanLoop i) := by
  unfold ScannerState.stepScanLoop at h
  split at h
  · cases h
  · cases h
  · exact ⟨_, ‹_›, rfl, .inl ⟨_, (Option.some.inj h).symm⟩⟩
  · refine ⟨_, ‹_›, rfl, ?_⟩
    cases absorbed
    · exact .inr (Option.some.inj h).symm
    · exact .inl ⟨_, (Option.some.inj h).symm⟩
  · exact ⟨_, ‹_›, rfl, .inr (Option.some.inj h).symm⟩
  · exact ⟨_, ‹_›, rfl, .inl ⟨_, (Option.some.inj h).symm⟩⟩
  all_goals
    refine ⟨_, ‹_›, rfl, ?_⟩
    split_ifs at h
    · exact .inl ⟨_, (Option.some.inj h).symm⟩
    · exact .inr (Option.some.inj h).symm

/-- **A step of a monitor loop** is one of a live loop, which comes to a point. -/
lemma stepMonitorLoop_cases (h : s.stepMonitorLoop i sleeps = some s') :
    ∃ p p', s.monitorLoops[i]? = some p ∧ p.live = true ∧
      s' = { s with monitorLoops := s.monitorLoops.set i p' } := by
  unfold ScannerState.stepMonitorLoop at h
  split at h
  · cases h
  · cases h
  all_goals exact ⟨_, _, ‹_›, rfl, (Option.some.inj h).symm⟩

/-- `stop_scanning` goes on once the loop it waits for has ended. -/
lemma resumeStop_eq_some (h : s.resumeStop k = some s') :
    ∃ i, s.stopping[k]? = some i ∧ s.scanLoops[i]?.any (·.point.live) = false ∧
      s' = ScannerState.endStop { s with stopping := s.stopping.eraseIdx k } := by
  unfold ScannerState.resumeStop at h
  split at h
  · split_ifs at h with hlive
    exact ⟨_, ‹_›, Bool.eq_false_of_not_eq_true hlive, (Option.some.inj h).symm⟩
  · cases h

/-- `stop_scanning` leaves every loop where it is. -/
lemma liveLoops_stopScanning : s.stopScanning.liveScanLoops = s.liveScanLoops ∧
    s.stopScanning.liveMonitorLoops = s.liveMonitorLoops := by
  unfold ScannerState.stopScanning
  split_ifs
  · split
    · exact ⟨OneEntry.countP_modify (f := fun l : ScanLoop => { l with cancelled := true })
        (fun _ => rfl) _ _, rfl⟩
    · exact ⟨rfl, rfl⟩
  · exact ⟨rfl, rfl⟩

/-- **Starting**: if the scanner is stopped, there is one more scan loop, and one more monitor loop
if the monitoring is stopped. -/
lemma liveLoops_startScanning (h : s.running = false) :
    s.startScanning.liveScanLoops = s.liveScanLoops + 1 ∧
      s.startScanning.liveMonitorLoops =
        s.liveMonitorLoops + if s.monitoringActive then 0 else 1 := by
  unfold ScannerState.startScanning ScannerState.startMonitoring
  cases hactive : s.monitoringActive <;>
    simp [h, ScannerState.liveScanLoops, ScannerState.liveMonitorLoops, LoopPoint.live]

/-- The other steps leave no more loops live than before. -/
lemma liveLoops_step (hs : scannerStep s a = some s') (ha : a ≠ .startScanning) :
    s'.liveScanLoops ≤ s.liveScanLoops ∧ s'.liveMonitorLoops ≤ s.liveMonitorLoops := by
  cases a with
  | startScanning => exact absurd rfl ha
  | stopScanning =>
    cases hs
    obtain ⟨hscan, hmonitor⟩ := liveLoops_stopScanning (s := s)
    exact ⟨hscan.le, hmonitor.le⟩
  | resumeStop k =>
    obtain ⟨i, -, -, rfl⟩ := resumeStop_eq_some hs
    exact ⟨le_rfl, le_rfl⟩
  | scanLoop i sleeps absorbed =>
    obtain ⟨l, hl, hlive, hcases⟩ := stepScanLoop_cases hs
    have hle : ∀ p, (s.setScanLoop i p).liveScanLoops ≤ s.liveScanLoops :=
      fun p => OneEntry.countP_set_le hl hlive _
    rcases hcases with ⟨p, rfl⟩ | rfl
    · exact ⟨hle p, le_rfl⟩
    · exact ⟨hle .finished, le_rfl⟩
  | monitorLoop i sleeps =>
    obtain ⟨p, p', hp, hlive, rfl⟩ := stepMonitorLoop_cases hs
    exact ⟨le_rfl, OneEntry.countP_set_le hp hlive p'⟩

/-- **The step lemma**: a step keeps at most one live loop of each kind if and only if it meets the
condition.

**Proof sketch.** Only `start_scanning` creates loops (`liveLoops_step`). While the scanner runs
it does nothing. Otherwise it adds a scan loop, and a monitor loop unless monitoring is active; so
at most one of each kind is live exactly if the old ones have ended. -/
lemma oneLoopEach_step_iff (h : s.OneLoopEach) (hs : scannerStep s a = some s') :
    s'.OneLoopEach ↔ OldLoopsExited s a := by
  obtain ⟨hscan, hmonitor⟩ := h
  by_cases ha : a = .startScanning
  · subst ha
    cases hs
    by_cases hrunning : s.running = false
    · obtain ⟨hscan', hmonitor'⟩ := liveLoops_startScanning hrunning
      simp only [ScannerState.OneLoopEach, OldLoopsExited, hscan', hmonitor', hrunning,
        true_imp_iff]
      cases s.monitoringActive with
      | false =>
        simp only [Bool.false_eq_true, if_false, true_imp_iff]
        omega
      | true =>
        simp only [if_true, Bool.true_eq_false, false_imp_iff, and_true, add_zero]
        omega
    · have hsame : s.startScanning = s := by
        unfold ScannerState.startScanning
        rw [if_pos (Bool.eq_true_of_not_eq_false hrunning)]
      rw [hsame]
      exact iff_of_true ⟨hscan, hmonitor⟩ fun hstopped => absurd hstopped hrunning
  · obtain ⟨hscan', hmonitor'⟩ := liveLoops_step hs ha
    refine iff_of_true ⟨hscan'.trans hscan, hmonitor'.trans hmonitor⟩ ?_
    cases a with
    | startScanning => exact absurd rfl ha
    | _ => trivial

/-! ## The flags -/

/-- If no call of `stop_scanning` is in progress, the two flags are off together. -/
def ScannerState.FlagsAgree (s : ScannerState) : Prop :=
  s.running = false → s.stopping = [] → s.monitoringActive = false

/-- One step keeps the flags in agreement.

**Proof sketch.** By cases on the step. A start makes `running` true. A stop waits for the
cancelled scan loop, and then the call is in progress, or it stops the monitoring at once; so does
the end of the waiting. The loops leave the flags, and a scan loop that ends stops the
monitoring. -/
lemma flagsAgree_step (h : s.FlagsAgree) (hs : scannerStep s a = some s') : s'.FlagsAgree := by
  cases a with
  | startScanning =>
    cases hs
    unfold ScannerState.startScanning
    split_ifs with hrunning
    · exact h
    · intro hstopped
      unfold ScannerState.startMonitoring at hstopped
      split_ifs at hstopped
  | stopScanning =>
    cases hs
    unfold ScannerState.stopScanning
    split_ifs
    · split
      · intro _ hnone
        exact absurd hnone (by simp)
      · exact fun _ _ => rfl
    · exact h
  | resumeStop k =>
    obtain ⟨i, -, -, rfl⟩ := resumeStop_eq_some hs
    exact fun _ _ => rfl
  | scanLoop i sleeps absorbed =>
    obtain ⟨l, -, -, ⟨p, rfl⟩ | rfl⟩ := stepScanLoop_cases hs
    · exact h
    · exact fun _ _ => rfl
  | monitorLoop i sleeps =>
    obtain ⟨p, p', -, -, rfl⟩ := stepMonitorLoop_cases hs
    exact h

/-- Only `start_scanning` sets the scanner running. -/
lemma running_step (hs : scannerStep s a = some s') (ha : a ≠ .startScanning)
    (h : s.running = false) : s'.running = false := by
  cases a with
  | startScanning => exact absurd rfl ha
  | stopScanning =>
    cases hs
    unfold ScannerState.stopScanning
    rw [if_neg (by rw [h]; exact Bool.false_ne_true)]
    exact h
  | resumeStop k =>
    obtain ⟨i, -, -, rfl⟩ := resumeStop_eq_some hs
    exact h
  | scanLoop i sleeps absorbed =>
    obtain ⟨l, -, -, ⟨p, rfl⟩ | rfl⟩ := stepScanLoop_cases hs
    · exact h
    · rfl
  | monitorLoop i sleeps =>
    obtain ⟨p, p', -, -, rfl⟩ := stepMonitorLoop_cases hs
    exact h

/-- After `stop_scanning` the scanner is stopped. -/
lemma running_stopScanning (s : ScannerState) : s.stopScanning.running = false := by
  unfold ScannerState.stopScanning
  split_ifs with hrunning
  · split <;> rfl
  · exact Bool.eq_false_of_not_eq_true hrunning

/-- With both flags off, every loop ends when it wakes up.

**Proof sketch.** A loop that wakes up looks at its flag, which is off, or has been cancelled;
both finish it. This is looked up point by point, for the scan loops and for the monitor loops. -/
lemma exitsAtWakeUp_of_flags (hrunning : s.running = false) (hactive : s.monitoringActive = false) :
    s.ExitsAtWakeUp := by
  constructor
  · intro i l hl hwakes sleeps absorbed
    have hi : i < s.scanLoops.length := (List.getElem?_eq_some_iff.mp hl).1
    have hset : ∀ s' : ScannerState, s'.scanLoops = s.scanLoops.set i { point := .finished } →
        s'.scanLoops[i]? = some { point := .finished } := by
      intro s' hs'
      rw [hs', List.getElem?_set_self hi]
    have hstep : ∃ s', scannerStep s (.scanLoop i sleeps absorbed) = some s' ∧
        s'.scanLoops = s.scanLoops.set i { point := .finished } := by
      simp only [scannerStep, ScannerState.stepScanLoop, hl]
      obtain ⟨point, cancelled⟩ := l
      cases point with
      | created =>
        cases cancelled with
        | false => exact ⟨_, rfl, by rw [hrunning]; rfl⟩
        | true => exact ⟨_, rfl, rfl⟩
      | sleep =>
        cases cancelled with
        | false => exact ⟨_, rfl, by rw [hrunning]; rfl⟩
        | true => exact ⟨_, rfl, rfl⟩
      | iteration => cases hwakes
      | finished => cases hwakes
    obtain ⟨s', hs', hloops⟩ := hstep
    exact ⟨s', hs', hset s' hloops⟩
  · intro i p hp hwakes sleeps
    have hi : i < s.monitorLoops.length := (List.getElem?_eq_some_iff.mp hp).1
    refine ⟨{ s with monitorLoops := s.monitorLoops.set i .finished }, ?_,
      List.getElem?_set_self hi⟩
    simp only [scannerStep, ScannerState.stepMonitorLoop, hp]
    cases p with
    | created | sleep => simp [hactive]
    | iteration | finished => cases hwakes

end Steps

/-! ## The scan loop -/

/-- No call of `start_scanning` overtakes one of `stop_scanning`. -/
def StopsAwaited (s : ScannerState) : ScannerAction → Prop
  | .startScanning => s.stopping = []
  | _ => True

/-- A live scan loop is the one of a running scanner, or it is being stopped. -/
structure ScannerState.Awaited (s : ScannerState) : Prop where
  stopping : s.stopping.length ≤ 1
  idle : s.running = true → s.stopping = []
  live : ∀ i l, s.scanLoops[i]? = some l → l.point.live = true →
    s.running = true ∧ s.scanTask = some i ∨ s.running = false ∧ i ∈ s.stopping

section ScanLoops

variable {s s' : ScannerState} {a : ScannerAction}

/-- **The step lemma of the scan loop.**

**Proof sketch.** By cases on the action. A start while nothing is stopping adds the only live
loop, and a second start does nothing. A stop takes the live loop into the list of those awaited,
and goes on only when that loop has ended, so the list is empty again. A step of a loop keeps it
live, or ends it, and then it is awaited or was the only one. -/
lemma awaited_step (h : s.Awaited) (hok : StopsAwaited s a) (hs : scannerStep s a = some s') :
    s'.Awaited := by
  cases a with
  | startScanning =>
    cases hs
    by_cases hrunning : s.running = true
    · have hsame : s.startScanning = s := by
        unfold ScannerState.startScanning
        rw [if_pos hrunning]
      rwa [hsame]
    · have hnone : ∀ (i : ℕ) (l : ScanLoop), s.scanLoops[i]? = some l → l.point.live = false := by
        intro i l hl
        by_contra hlive
        rcases h.live i l hl (Bool.eq_true_of_not_eq_false hlive) with ⟨hrun, -⟩ | ⟨-, hmem⟩
        · exact hrunning hrun
        · rw [show s.stopping = [] from hok] at hmem
          cases hmem
      have hstart : s.startScanning.running = true ∧ s.startScanning.stopping = [] ∧
          s.startScanning.scanLoops = s.scanLoops ++ [⟨.created, false⟩] ∧
          s.startScanning.scanTask = some s.scanLoops.length := by
        unfold ScannerState.startScanning ScannerState.startMonitoring
        rw [if_neg hrunning]
        split_ifs <;> exact ⟨rfl, hok, rfl, rfl⟩
      obtain ⟨hrun, hstopping, hloops, htask⟩ := hstart
      refine ⟨by rw [hstopping]; exact Nat.zero_le 1, fun _ => hstopping, fun i l hl hlive => ?_⟩
      rw [hloops, List.getElem?_append] at hl
      split_ifs at hl with hi
      · exact absurd hlive (by rw [hnone i l hl]; exact Bool.false_ne_true)
      · have hlen : i - s.scanLoops.length < 1 := (List.getElem?_eq_some_iff.mp hl).1
        refine .inl ⟨hrun, ?_⟩
        rw [htask]
        congr 1
        omega
  | stopScanning =>
    cases hs
    by_cases hrunning : s.running = true
    · have hidle := h.idle hrunning
      have htask : ∀ (i : ℕ) (l : ScanLoop), s.scanLoops[i]? = some l → l.point.live = true →
          s.pendingScanTask = some i := by
        intro i l hl hlive
        rcases h.live i l hl hlive with ⟨-, htask⟩ | ⟨hstopped, -⟩
        · simp [ScannerState.pendingScanTask, htask, hl, hlive]
        · exact absurd (hstopped.symm.trans hrunning) Bool.false_ne_true
      unfold ScannerState.stopScanning
      rw [if_pos hrunning]
      split
      · rename_i j hj
        refine ⟨by simp [hidle], (fun h => by cases h), fun i l hl hlive => .inr ⟨rfl, ?_⟩⟩
        have hold : ∃ l', s.scanLoops[i]? = some l' ∧ l'.point = l.point := by
          simp only [List.getElem?_modify, Option.map_eq_map, Option.map_eq_some_iff] at hl
          obtain ⟨l', hl', rfl⟩ := hl
          refine ⟨l', hl', ?_⟩
          split_ifs <;> rfl
        obtain ⟨l', hl', hpoint⟩ := hold
        obtain rfl : j = i :=
          Option.some.inj (hj.symm.trans (htask i l' hl' (hpoint ▸ hlive)))
        simp
      · rename_i hj
        refine ⟨by simp [ScannerState.endStop, ScannerState.stopMonitoring, hidle],
          (fun h => by cases h), fun i l hl hlive => ?_⟩
        rw [htask i l hl hlive] at hj
        cases hj
    · have hsame : s.stopScanning = s := by
        unfold ScannerState.stopScanning
        rw [if_neg hrunning]
      rwa [hsame]
  | resumeStop k =>
    obtain ⟨j, hj, hdone, rfl⟩ := resumeStop_eq_some hs
    have hone : s.stopping = [j] := by
      have hlen := h.stopping
      cases hstopping : s.stopping with
      | nil =>
        rw [hstopping] at hj
        cases hj
      | cons i rest =>
        rw [hstopping, List.length_cons] at hlen
        obtain rfl : rest = [] := List.eq_nil_of_length_eq_zero (by omega)
        rw [hstopping] at hj
        rw [List.mem_singleton.mp (List.mem_of_getElem? hj)]
    have hnil : s.stopping.eraseIdx k = [] := by
      have hk : k < s.stopping.length := (List.getElem?_eq_some_iff.mp hj).1
      apply List.eq_nil_of_length_eq_zero
      rw [List.length_eraseIdx_of_lt hk, hone]
      rfl
    refine ⟨by rw [show _ = s.stopping.eraseIdx k from rfl, hnil]; exact Nat.zero_le 1,
      fun _ => hnil, fun i l hl hlive => ?_⟩
    rcases h.live i l hl hlive with ⟨hrunning, -⟩ | ⟨-, hmem⟩
    · exact absurd (h.idle hrunning) (by rw [hone]; exact List.cons_ne_nil _ _)
    · rw [hone, List.mem_singleton] at hmem
      rw [← hmem, show s.scanLoops[i]? = some l from hl, Option.any_some, hlive] at hdone
      cases hdone
  | scanLoop j sleeps absorbed =>
    obtain ⟨l₀, hl₀, hlive₀, hcases⟩ := stepScanLoop_cases hs
    have hold := h.live j l₀ hl₀ hlive₀
    rcases hcases with ⟨p, rfl⟩ | rfl
    · refine ⟨h.stopping, h.idle, fun i l hl hlive => ?_⟩
      by_cases hij : j = i
      · exact hij ▸ hold
      · exact h.live i l (by rwa [ScannerState.setScanLoop, List.getElem?_set_ne hij] at hl) hlive
    · refine ⟨h.stopping, (fun h => by cases h), fun i l hl hlive => .inr ⟨rfl, ?_⟩⟩
      have hset : (s.scanLoops.set j { point := .finished })[i]? = some l := hl
      by_cases hij : j = i
      · subst hij
        rw [List.getElem?_set_self (List.getElem?_eq_some_iff.mp hl₀).1] at hset
        rw [← Option.some.inj hset] at hlive
        cases hlive
      · rw [List.getElem?_set_ne hij] at hset
        rcases h.live i l hset hlive with ⟨hrunning, htask⟩ | ⟨-, hmem⟩
        · rcases hold with ⟨-, htask'⟩ | ⟨hstopped, -⟩
          · exact absurd (Option.some.inj (htask'.symm.trans htask)) hij
          · exact absurd (hstopped.symm.trans hrunning) Bool.false_ne_true
        · exact hmem
  | monitorLoop i sleeps =>
    obtain ⟨p, p', -, -, rfl⟩ := stepMonitorLoop_cases hs
    exact ⟨h.stopping, h.idle, h.live⟩

/-- **The scan loop alone** is safe if every resume waits for the return of the pause before: then
at most one scan loop is live, and the condition of `oneLoopEach_iff` is about the monitor loop.

**Proof sketch.** Induction on the run, with the invariant `ScannerState.Awaited`: a pause returns
only when the loop that it has cancelled has ended. -/
theorem oneScanLoop_of_stopsAwaited {tr : List (ScannerState × ScannerAction)}
    (hrun : Run scannerStep {} tr s) (hok : Meets StopsAwaited tr) : s.liveScanLoops ≤ 1 := by
  have h : s.Awaited := by
    refine hrun.invariant hok ⟨Nat.zero_le 1, fun _ => rfl, fun _ _ h => by cases h⟩ ?_
    intro s a s' h hok hs
    exact awaited_step h hok hs
  cases hrunning : s.running with
  | true =>
    apply OneEntry.countP_le_one (j := s.scanTask.getD 0)
    intro i l hl hlive
    rcases h.live i l hl hlive with ⟨-, htask⟩ | ⟨hstopped, -⟩
    · rw [htask, Option.getD_some]
    · exact absurd (hstopped.symm.trans hrunning) Bool.false_ne_true
  | false =>
    apply OneEntry.countP_le_one (j := s.stopping.head?.getD 0)
    intro i l hl hlive
    rcases h.live i l hl hlive with ⟨hrun', -⟩ | ⟨-, hmem⟩
    · exact absurd (hrunning.symm.trans hrun') Bool.false_ne_true
    · have hlen := h.stopping
      cases hstopping : s.stopping with
      | nil =>
        rw [hstopping] at hmem
        cases hmem
      | cons j rest =>
        rw [hstopping, List.length_cons] at hlen
        obtain rfl : rest = [] := List.eq_nil_of_length_eq_zero (by omega)
        rw [hstopping, List.mem_singleton] at hmem
        rw [hmem]
        rfl

end ScanLoops

/-! ## Every sequence of calls -/

section Runs

variable {tr : List (ScannerState × ScannerAction)} {s : ScannerState}

/-- After a final stop the scanner does not run. -/
lemma running_of_finallyStopped (hrun : Run scannerStep {} tr s) (h : FinallyStopped tr) :
    s.running = false := by
  induction hrun with
  | start =>
    obtain ⟨tr₁, s₁, tr₂, htr, -⟩ := h
    exact absurd htr (by simp)
  | @snoc tr s s' a _ hs ih =>
    obtain ⟨tr₁, s₁, tr₂, htr, hlast⟩ := h
    rcases List.eq_nil_or_concat tr₂ with rfl | ⟨tr₃, q, rfl⟩
    · -- the last step is the call of `stop_scanning`
      obtain ⟨-, hq⟩ := List.append_inj' htr rfl
      obtain ⟨rfl, rfl⟩ : s = s₁ ∧ a = .stopScanning := by simpa using hq
      cases hs
      exact running_stopScanning s
    · have htr' : tr ++ [(s, a)] = (tr₁ ++ (s₁, .stopScanning) :: tr₃) ++ [q] := by
        rw [htr]
        simp
      obtain ⟨hbefore, hq⟩ := List.append_inj' htr' rfl
      obtain rfl : (s, a) = q := by simpa using hq
      have hne : a ≠ .startScanning := hlast (s, a) (by simp)
      refine running_step hs hne (ih ⟨tr₁, s₁, tr₃, hbefore, fun p hp => hlast p ?_⟩)
      rw [List.concat_eq_append]
      exact List.mem_append_left _ hp

/-- **At most one loop of each kind.** In every run of calls of `start_scanning` and
`stop_scanning` at any times, at most one scan loop and at most one monitor loop are live in every
state, if and only if all scan loops have ended whenever `start_scanning` finds the scanner stopped,
and all monitor loops have ended whenever it then finds the monitoring stopped. After a final stop,
when all calls have returned, every loop ends when it wakes up the next time, without a condition.

**Proof sketch.** A loop is created only by `start_scanning`, and the other steps create none, so
the step that breaks the bound is one that breaks the condition (`oneLoopEach_step_iff`). The flags
are off together once no call is in progress (`flagsAgree_step`). -/
theorem oneLoopEach_iff (hrun : Run scannerStep {} tr s) :
    ((∀ p ∈ tr, p.1.OneLoopEach) ∧ s.OneLoopEach ↔ Meets OldLoopsExited tr) ∧
      (FinallyStopped tr → s.stopping = [] → s.ExitsAtWakeUp) := by
  constructor
  · refine hrun.forall_states_iff (I := fun _ => True) trivial ⟨Nat.zero_le 1, Nat.zero_le 1⟩
      (fun _ _ _ _ _ => trivial) ?_
    intro s a s' _ h hs
    exact oneLoopEach_step_iff h hs
  · intro hfinal hreturned
    have hrunning := running_of_finallyStopped hrun hfinal
    have hflags : s.FlagsAgree := by
      clear hfinal hreturned hrunning
      induction hrun with
      | start => exact fun _ _ => rfl
      | snoc _ hs ih => exact flagsAgree_step ih hs
    exact exitsAtWakeUp_of_flags hrunning (hflags hrunning hreturned)

/-- The scanner is paused and resumed. The monitor loop has slept and ended in between. -/
def resumedLate : List ScannerAction :=
  [.startScanning, .scanLoop 0 true false, .monitorLoop 0 true, .stopScanning,
    .scanLoop 0 true false, .resumeStop 0, .monitorLoop 0 true, .startScanning]

/-- A resume after both loops have ended. -/
theorem oneLoopEach_resumedLate :
    ∃ s, Run scannerStep {} (traceOf scannerStep {} resumedLate) s ∧ s.liveMonitorLoops = 1 ∧
      s.OneLoopEach := by
  obtain ⟨s, hrun, hs⟩ := exists_run_of_replay scannerStep {} resumedLate
    (fun s => s.liveMonitorLoops = 1) (by decide)
  exact ⟨s, hrun, of_decide_eq_true hs, ((oneLoopEach_iff hrun).1.mpr (by decide)).2⟩

/-- **A resume during the sleep of the monitor loop doubles it**: the pause has ended the scan loop
and has returned, but the monitor loop still sleeps. The resume creates a second one and sets the
flag again, and when the first wakes up it goes on. -/
theorem resumed_during_sleep_doubles_monitor :
    ∃ tr s, Run scannerStep {} tr s ∧ s.stopping = [] ∧ s.monitorLoops = [.iteration, .iteration] ∧
      ¬ s.OneLoopEach := by
  obtain ⟨s, hrun, hs⟩ := exists_run_of_replay scannerStep {}
    [.startScanning, .scanLoop 0 true false, .monitorLoop 0 true, .stopScanning,
      .scanLoop 0 true false, .resumeStop 0, .startScanning, .monitorLoop 1 false,
      .monitorLoop 0 false]
    (fun s => decide (s.stopping = [] ∧ s.monitorLoops = [.iteration, .iteration])) (by decide)
  obtain ⟨hreturned, hloops⟩ := of_decide_eq_true hs
  refine ⟨_, s, hrun, hreturned, hloops, fun h => ?_⟩
  have htwo : s.liveMonitorLoops = 2 := by
    rw [ScannerState.liveMonitorLoops, hloops]
    rfl
  have hone := h.2
  omega

end Runs

end FileAgent

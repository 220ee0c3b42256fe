import FileAgent.FileCopyExecutor
import FileAgent.Library.Watchdog

set_option relaxedAutoImplicit false
set_option autoImplicit false

/-!
# The network error detector

`NetworkErrorDetector` of `app/services/copy/network_error_detector.py`, which looks at the
destination each time so many bytes have been copied since the last check that succeeded. The
executor's machine has its detector built in. For the strategy, the copy machine runs here with the
detector beside it.

## Main definitions

* `NetworkErrorDetector.checkDestinationConnectivity` — one call of the detector.
* `DetectedCopy`, `detectedStep` — the copy machine with its detector.
* `DetectedCopy.FailsFrom`, `ExecutorFailsFrom` — from a position on, every check fails.

## Main results

* `detectedCopy_failFast`, `executor_failFast` — how much each of them writes then.
* `failFast` — both together.
-/

namespace FileAgent

open Transition Watchdog

/-! ## The detector -/

/-- The detector; `destParent` is the directory of its `destination_path`. -/
structure NetworkErrorDetector where
  destParent : String
  checkIntervalBytes : ℕ
  lastCheckBytes : ℕ := 0

/-- What `_perform_connectivity_check` meets: whether the directory exists, and the exception of
listing it. -/
structure DirectoryProbe where
  present : Except PyError Bool
  listing : Option PyError := none

namespace NetworkErrorDetector

variable (d : NetworkErrorDetector)

/-- `should_check_network`. -/
def shouldCheckNetwork (bytesCopied : ℕ) : Bool :=
  d.checkIntervalBytes ≤ bytesCopied - d.lastCheckBytes

/-- `_perform_connectivity_check`: the exception it raises. -/
def performConnectivityCheck (probe : DirectoryProbe) : Option PyError :=
  match probe.present with
  | .error e => some e
  | .ok false =>
    some (networkError ("Destination directory no longer accessible: " ++ d.destParent))
  | .ok true =>
    match probe.listing with
    | none => none
    | some e =>
      if networkErrorStrings.any (containsLower · e.message) then
        some (networkError ("Network connectivity lost during directory read: " ++ e.message))
      else none

/-- `check_destination_connectivity`. The check has no probe if it timed out. -/
def checkDestinationConnectivity (bytesCopied : ℕ) (probe : Option DirectoryProbe) :
    Except PyError NetworkErrorDetector :=
  if !d.shouldCheckNetwork bytesCopied then .ok d
  else
    match probe with
    | none => .error (networkError "Network connectivity check timed out after 3.0s")
    | some probe =>
      match d.performConnectivityCheck probe with
      | none => .ok { d with lastCheckBytes := bytesCopied }
      | some e =>
        match connectivityError e with
        | some e => .error e
        | none => .ok d

/-- The check runs and succeeds. -/
def checkSucceeds (bytesCopied : ℕ) (probe : Option DirectoryProbe) : Bool :=
  d.shouldCheckNetwork bytesCopied &&
    probe.any fun probe => (d.performConnectivityCheck probe).isNone

variable {d} {bytesCopied : ℕ} {probe : Option DirectoryProbe}

/-- A check is due for the watchdog exactly when `should_check_network` says so. -/
lemma due_iff : Due d.checkIntervalBytes d.lastCheckBytes bytesCopied ↔
    d.shouldCheckNetwork bytesCopied = true :=
  decide_eq_true_iff.symm

/-- **A call that raises nothing**: a check was not due, or it succeeded and is remembered, or its
exception was dropped.

**Proof sketch.** By cases on whether a check is due, on the time-out and on its result, in the
order of the source. What raises nothing is a check that is not due, one that succeeds, and one
whose exception is of no network error. -/
lemma checkDestinationConnectivity_cases {d' : NetworkErrorDetector}
    (h : d.checkDestinationConnectivity bytesCopied probe = .ok d') :
    d'.checkIntervalBytes = d.checkIntervalBytes ∧
      ((d.checkSucceeds bytesCopied probe = true ∧ d'.lastCheckBytes = bytesCopied) ∨
        (d.checkSucceeds bytesCopied probe = false ∧ d'.lastCheckBytes = d.lastCheckBytes)) := by
  unfold checkDestinationConnectivity at h
  cases hdue : d.shouldCheckNetwork bytesCopied with
  | false =>
    rw [hdue] at h
    cases h
    exact ⟨rfl, .inr ⟨by rw [checkSucceeds, hdue]; rfl, rfl⟩⟩
  | true =>
    simp only [hdue, Bool.not_true, Bool.false_eq_true, if_false] at h
    cases probe with
    | none => cases h
    | some probe =>
      cases hcheck : d.performConnectivityCheck probe with
      | none =>
        simp only [hcheck, Except.ok.injEq] at h
        subst h
        exact ⟨rfl, .inl ⟨by simp [checkSucceeds, hdue, hcheck], rfl⟩⟩
      | some e =>
        simp only [hcheck] at h
        split at h
        · cases h
        · cases h
          exact ⟨rfl, .inr ⟨by simp [checkSucceeds, hcheck], rfl⟩⟩

/-- A check that raises has not succeeded. -/
lemma checkSucceeds_of_error {e : PyError}
    (h : d.checkDestinationConnectivity bytesCopied probe = .error e) :
    d.checkSucceeds bytesCopied probe = false := by
  unfold checkDestinationConnectivity at h
  split_ifs at h with hdue
  cases probe with
  | none => simp [checkSucceeds]
  | some probe =>
    cases hcheck : d.performConnectivityCheck probe with
    | none => simp [hcheck] at h
    | some e => simp [checkSucceeds, hcheck]

end NetworkErrorDetector

/-! ## The strategy and its detector -/

/-- A suspended `copy_file`, and its `network_detector`. -/
structure DetectedCopy where
  point : CopyPoint
  detector : NetworkErrorDetector

/-- The operation awaited is answered, or the detector is called. -/
inductive DetectedAction
  | answer (heap : FileId → TrackedFile) (a : CopyAnswer)
  | check (heap : FileId → TrackedFile) (probe : Option DirectoryProbe) (copySpeedMbps : ℚ)

/-- The detector of the strategy checks after ten chunks. -/
def checkIntervalBytes (cfg : Settings) : ℕ := cfg.growingFileChunkSizeKb * 1024 * 10

/-- A copy begins. -/
def DetectedCopy.start (cfg : Settings) (destParent : String) (file : FileId) : DetectedCopy where
  point := .initialSize file
  detector := { destParent := destParent, checkIntervalBytes := checkIntervalBytes cfg }

/-- The call of the detector after a chunk: it goes on, or raises. -/
def DetectedCopy.check (cfg : Settings) (w : DetectedCopy) (heap : FileId → TrackedFile)
    (probe : Option DirectoryProbe) (copySpeedMbps : ℚ) (bytesCopied : ℕ) : Option DetectedCopy :=
  match w.detector.checkDestinationConnectivity bytesCopied probe with
  | .ok d => (w.point.resume cfg heap (.connected copySpeedMbps)).map fun p => ⟨p, d⟩
  | .error e => (w.point.resume cfg heap (.error e)).map fun p => { w with point := p }

/-- One step. -/
def detectedStep (cfg : Settings) (w : DetectedCopy) : DetectedAction → Option DetectedCopy
  | .answer heap a =>
    match w.point with
    | .connectivity _ _ => none
    | p =>
      if p.readFits cfg a then (p.resume cfg heap a).map fun p' => { w with point := p' } else none
  | .check heap probe copySpeedMbps =>
    match w.point with
    | .connectivity _ r => w.check cfg heap probe copySpeedMbps r.bytesCopied
    | _ => none

/-- From position `b` on, every check that runs raises. -/
def DetectedCopy.FailsFrom (b : ℕ) (w : DetectedCopy) : DetectedAction → Prop
  | .check _ probe _ =>
    match w.point with
    | .connectivity _ r =>
      b ≤ r.bytesCopied → w.detector.shouldCheckNetwork r.bytesCopied = true →
        (w.detector.checkDestinationConnectivity r.bytesCopied probe).isOk = false
    | _ => True
  | .answer _ _ => True

instance (b : ℕ) (w : DetectedCopy) (a : DetectedAction) : Decidable (w.FailsFrom b a) := by
  unfold DetectedCopy.FailsFrom
  repeat' split
  all_goals infer_instance

/-- The position of a check that succeeds. -/
def DetectedCopy.success (w : DetectedCopy) : DetectedAction → Option ℕ
  | .check _ probe _ =>
    match w.point with
    | .connectivity _ r => if w.detector.checkSucceeds r.bytesCopied probe then some r.bytesCopied
      else none
    | _ => none
  | .answer _ _ => none

/-- `bytes_copied` at a point from which the next chunk is read or written. -/
def CopyPoint.copied : CopyPoint → Option ℕ
  | .initialSize _ | .waitSize _ | .latestFile _ | .makedirs _ => some 0
  | .openDest v | .getRecord v | .loopSize v | .growthUpdate v _ | .sleep v => some v.bytesCopied
  | .openSource _ r | .read _ r | .write _ r _ | .progress _ r _ | .pause _ r => some r.bytesCopied
  | .connectivity .. | .closeDest .. | .verifySource _ | .verifyDest .. | .removeSource _
  | .markCompleted _ | .done _ => none

/-- `bytes_copied`, as far as it is looked at again. -/
def CopyPoint.position : CopyPoint → Option ℕ
  | .connectivity _ r => some r.bytesCopied
  | p => p.copied

/-- The bytes that the operation awaited writes. -/
def CopyPoint.piece : CopyPoint → ℕ
  | .write _ _ chunk => chunk.length
  | _ => 0

/-- The bytes a step writes. A write that raises may have written the whole chunk. -/
def DetectedCopy.piece (w : DetectedCopy) : DetectedAction → ℕ
  | .answer _ _ => w.point.piece
  | .check .. => 0

/-- A step between two calls of the detector: only a write moves `bytes_copied`, and then the
detector is called. A chunk that is to be written fits. -/
structure CopiesOn (cfg : Settings) (p p' : CopyPoint) : Prop where
  copied : ∀ n, p'.copied = some n → p.copied = some n
  position : ∀ n, p'.position = some n → ∃ m, p.position = some m ∧ n = m + p.piece
  chunk : p'.piece ≤ cfg.growingFileChunkSizeKb * 1024

section CopiesOn

variable {cfg : Settings} {heap : FileId → TrackedFile} {p p' : CopyPoint} {a : CopyAnswer} {n : ℕ}

/-- Where a point counts bytes, its position is that count. -/
lemma CopyPoint.position_of_copied (h : p.copied = some n) : p.position = some n := by
  cases p with
  | connectivity v r => cases h
  | _ => exact h

/-- The copy has left the loop. -/
lemma copiesOn_of_none (h : p'.position = none) : CopiesOn cfg p p' where
  copied := by
    intro n hn
    rw [CopyPoint.position_of_copied hn] at h
    cases h
  position := by
    intro n hn
    rw [hn] at h
    cases h
  chunk := by
    cases p' with
    | write v r chunk => cases h
    | _ => exact Nat.zero_le _

/-- The copy goes on at the same position. -/
lemma copiesOn_of_same (hp : p.copied = some n) (hpiece : p.piece = 0) (hp' : p'.copied = some n)
    (hfits : p'.piece ≤ cfg.growingFileChunkSizeKb * 1024) : CopiesOn cfg p p' where
  copied := by
    intro m hm
    rw [hp, ← hp', hm]
  position := by
    intro m hm
    rw [CopyPoint.position_of_copied hp', Option.some.injEq] at hm
    exact ⟨n, CopyPoint.position_of_copied hp, by rw [hpiece, ← hm, Nat.add_zero]⟩
  chunk := hfits

/-- The end of the loop counts on from the same bytes. -/
lemma copiesOn_loopEnd (v : LoopVars) (size : ℕ) (h : p.copied = some v.bytesCopied)
    (hpiece : p.piece = 0) : CopiesOn cfg p (CopyPoint.loopEnd v size) := by
  rcases CopyPoint.loopEnd_cases v size with ⟨hp, -⟩ | ⟨hp, -⟩ | ⟨hp, -⟩ <;> rw [hp]
  · exact copiesOn_of_none rfl
  · exact copiesOn_of_same h hpiece rfl (Nat.zero_le _)
  · exact copiesOn_of_same h hpiece rfl (Nat.zero_le _)

/-- The head of the inner loop counts on from the same bytes. -/
lemma copiesOn_rangeHead (v : LoopVars) (r : RangeVars) (h : p.copied = some r.bytesCopied)
    (hpiece : p.piece = 0) : CopiesOn cfg p (CopyPoint.rangeHead v r) := by
  rcases CopyPoint.rangeHead_cases v r with ⟨hp, -⟩ | ⟨hp, -⟩ <;> rw [hp]
  · exact copiesOn_of_same h hpiece rfl (Nat.zero_le _)
  · exact copiesOn_loopEnd _ _ h hpiece

/-- A round of the loop counts on from the same bytes. -/
lemma copiesOn_loopRound (v : LoopVars) (size : ℕ) (h : p.copied = some v.bytesCopied)
    (hpiece : p.piece = 0) : CopiesOn cfg p (CopyPoint.loopRound v size) := by
  obtain ⟨v', -, hv, ⟨r, hr, hp⟩ | hp | hp⟩ := CopyPoint.loopRound_cases v size <;> rw [hp]
  · rw [← hr] at h
    exact copiesOn_of_same h hpiece rfl (Nat.zero_le _)
  · rw [← hv] at h
    exact copiesOn_of_same h hpiece rfl (Nat.zero_le _)
  · rw [← hv] at h
    exact copiesOn_loopEnd _ _ h hpiece

/-- **What the machine does between two calls of the detector.** -/
lemma copiesOn_resume (hne : ∀ v r, p ≠ .connectivity v r) (hfits : p.readFits cfg a = true)
    (hp : p.resume cfg heap a = some p') : CopiesOn cfg p p' := by
  cases CopyPoint.next_of_resume hp with
  | connected v r => exact absurd rfl (hne v r)
  | polled hfrom hto =>
    rcases hfrom with rfl | rfl <;> rcases hto with rfl | rfl <;>
      exact copiesOn_of_same rfl rfl rfl (Nat.zero_le _)
  | sized v n => exact copiesOn_loopRound v n rfl rfl
  | openedSource v r => exact copiesOn_rangeHead v r rfl rfl
  | readNothing v r => exact copiesOn_loopEnd _ _ rfl rfl
  | readChunk v r chunk =>
    exact copiesOn_of_same rfl rfl rfl ((of_decide_eq_true hfits).trans (min_le_left _ _))
  | wroteChunk v r chunk =>
    exact ⟨fun _ hn => (by cases hn), fun n hn => ⟨r.bytesCopied, rfl, (Option.some.inj hn).symm⟩,
      Nat.zero_le _⟩
  | reported v r => exact copiesOn_rangeHead v r rfl rfl
  | paused v r => exact copiesOn_rangeHead v r rfl rfl
  | updated v n => exact copiesOn_loopEnd v n rfl rfl
  | found | started | opened | recorded | pausing | slept =>
    exact copiesOn_of_same rfl rfl rfl (Nat.zero_le _)
  | _ => exact copiesOn_of_none rfl

end CopiesOn

section Strategy

variable {cfg : Settings} {w w' : DetectedCopy} {a : DetectedAction} {b : ℕ}

/-- A step of the machine, or a call of the detector.

**Proof sketch.** The machine makes every step but the check, at which it waits for the detector;
the detector answers with itself or with an exception, which is carried to the close of the
destination. -/
lemma detectedStep_cases (hs : detectedStep cfg w a = some w') :
    (∃ heap ans, a = .answer heap ans ∧ w'.detector = w.detector ∧
      (∀ v r, w.point ≠ .connectivity v r) ∧ w.point.readFits cfg ans = true ∧
      w.point.resume cfg heap ans = some w'.point) ∨
    ∃ heap probe speed v r, a = .check heap probe speed ∧ w.point = .connectivity v r ∧
      ((w.detector.checkDestinationConnectivity r.bytesCopied probe = .ok w'.detector ∧
          w'.point = .progress v r speed) ∨
        ∃ e, w.detector.checkDestinationConnectivity r.bytesCopied probe = .error e ∧
          w'.detector = w.detector ∧ w'.point = .closeDest v.file (some e)) := by
  cases a with
  | answer heap ans =>
    left
    have hne : ∀ v r, w.point ≠ .connectivity v r := by
      intro v r hp
      rw [detectedStep, hp] at hs
      cases hs
    have hstep : detectedStep cfg w (.answer heap ans) =
        if w.point.readFits cfg ans then
          (w.point.resume cfg heap ans).map fun p' => { w with point := p' } else none := by
      simp only [detectedStep]
    rw [hstep] at hs
    split_ifs at hs with hfits
    obtain ⟨p, hp, rfl⟩ := Option.map_eq_some_iff.mp hs
    exact ⟨heap, ans, rfl, rfl, hne, hfits, hp⟩
  | check heap probe speed =>
    right
    cases hp : w.point with
    | connectivity v r =>
      refine ⟨heap, probe, speed, v, r, rfl, rfl, ?_⟩
      simp only [detectedStep, hp, DetectedCopy.check] at hs
      cases hc : w.detector.checkDestinationConnectivity r.bytesCopied probe with
      | ok d =>
        simp only [hc] at hs
        cases hs
        exact .inl ⟨rfl, rfl⟩
      | error e =>
        simp only [hc] at hs
        cases hs
        exact .inr ⟨e, rfl, rfl, rfl⟩
    | _ => simp only [detectedStep, hp, reduceCtorEq] at hs

/-- What is true in every run: the detector knows the last successful check, and `bytes_copied` is
the number of bytes written. -/
structure DetectedInv (cfg : Settings) (tr : List (DetectedCopy × DetectedAction))
    (w : DetectedCopy) : Prop where
  interval : w.detector.checkIntervalBytes = checkIntervalBytes cfg
  last : w.detector.lastCheckBytes = lastSuccess DetectedCopy.success tr
  chunk : w.point.piece ≤ cfg.growingFileChunkSizeKb * 1024
  written : ∀ n, w.point.position = some n → total DetectedCopy.piece tr = n
  last_le : w.detector.lastCheckBytes ≤ total DetectedCopy.piece tr

/-- One step keeps the invariant of the copy with its detector.

**Proof sketch.** A step is an answer or a check. An answer leaves the detector alone, and the
position and the bytes written grow by the same piece. A check writes nothing: where it succeeds
it notes the bytes copied, which are the bytes written, and where it fails it notes nothing and
the copy is left. -/
lemma detectedInv_step {tr : List (DetectedCopy × DetectedAction)} (h : DetectedInv cfg tr w)
    (hs : detectedStep cfg w a = some w') : DetectedInv cfg (tr ++ [(w, a)]) w' := by
  rcases detectedStep_cases hs with ⟨heap, ans, rfl, hd, hne, hfits, hp⟩ |
    ⟨heap, probe, speed, v, r, rfl, hpt, hcheck⟩
  · have hon := copiesOn_resume hne hfits hp
    refine ⟨by rw [hd, h.interval], by rw [hd, lastSuccess_concat]; exact h.last, hon.chunk, ?_, ?_⟩
    · intro n hn
      obtain ⟨m, hm, rfl⟩ := hon.position n hn
      rw [total_concat, h.written m hm, DetectedCopy.piece]
    · rw [hd, total_concat]
      exact h.last_le.trans (Nat.le_add_right _ _)
  · have htotal : total DetectedCopy.piece tr = r.bytesCopied := h.written _ (by rw [hpt]; rfl)
    have htotal' : total DetectedCopy.piece (tr ++ [(w, .check heap probe speed)]) =
        r.bytesCopied := by
      rw [total_concat, htotal, DetectedCopy.piece, Nat.add_zero]
    have hle := htotal ▸ h.last_le
    rcases hcheck with ⟨hcheck, hp⟩ | ⟨e, hcheck, hd, hp⟩
    · obtain ⟨hinterval, hcases⟩ :=
        NetworkErrorDetector.checkDestinationConnectivity_cases hcheck
      refine ⟨by rw [hinterval, h.interval], ?_, by rw [hp]; exact Nat.zero_le _,
        fun n hn => ?_, ?_⟩
      · rw [lastSuccess_concat]
        rcases hcases with ⟨hsucc, hlast⟩ | ⟨hsucc, hlast⟩
        · rw [hlast, DetectedCopy.success, hpt]
          simp [hsucc]
        · rw [hlast, DetectedCopy.success, hpt]
          simp [hsucc, h.last]
      · rw [hp] at hn
        rw [htotal']
        exact Option.some.inj hn
      · rw [htotal']
        rcases hcases with ⟨-, hlast⟩ | ⟨-, hlast⟩
        · rw [hlast]
        · rw [hlast]
          exact hle
    · refine ⟨by rw [hd, h.interval], ?_, by rw [hp]; exact Nat.zero_le _, fun n hn => ?_, ?_⟩
      · rw [lastSuccess_concat, hd, DetectedCopy.success, hpt]
        have hfails : w.detector.checkSucceeds r.bytesCopied probe = false :=
          NetworkErrorDetector.checkSucceeds_of_error hcheck
        simp [hfails, h.last]
      · rw [hp] at hn
        cases hn
      · rw [htotal', hd]
        exact hle

/-- What is true if all checks from `b` on fail: the work goes on only near `b`. -/
structure FailFastInv (cfg : Settings) (b : ℕ) (tr : List (DetectedCopy × DetectedAction))
    (w : DetectedCopy) : Prop extends DetectedInv cfg tr w where
  checked_le : w.detector.lastCheckBytes ≤ b
  alive : ∀ n, w.point.copied = some n →
    Alive w.detector.checkIntervalBytes b w.detector.lastCheckBytes n
  bounded : total DetectedCopy.piece tr ≤
    b + checkIntervalBytes cfg + cfg.growingFileChunkSizeKb * 1024

/-- **Every step keeps the invariant.**

**Proof sketch.** An answer keeps the detector, and the bytes written before `b` plus an interval
bound the next piece. A check that does not raise is not due or was made before `b`, so the bytes
noted by the detector stay at most `b`; one that raises ends the copy. -/
lemma failFastInv_step {tr : List (DetectedCopy × DetectedAction)} (h : FailFastInv cfg b tr w)
    (hok : w.FailsFrom b a) (hs : detectedStep cfg w a = some w') :
    FailFastInv cfg b (tr ++ [(w, a)]) w' := by
  have hcounts := detectedInv_step h.toDetectedInv hs
  rcases detectedStep_cases hs with ⟨heap, ans, rfl, hd, hne, hfits, hp⟩ |
    ⟨heap, probe, speed, v, r, rfl, hpt, ⟨hcheck, hp⟩ | ⟨e, -, hd, hp⟩⟩
  · have hon := copiesOn_resume hne hfits hp
    refine ⟨hcounts, by rw [hd]; exact h.checked_le, fun n hn => ?_, ?_⟩
    · rw [hd]
      exact h.alive n (hon.copied n hn)
    · rw [total_concat]
      cases hpt : w.point with
      | write v r chunk =>
        have hpos : w.point.position = some r.bytesCopied := by rw [hpt]; rfl
        have halive := h.alive r.bytesCopied (by rw [hpt]; rfl)
        rw [h.interval] at halive
        rw [h.written _ hpos, DetectedCopy.piece]
        exact halive.piece_le h.chunk
      | _ =>
        rw [DetectedCopy.piece, hpt]
        exact h.bounded
  · obtain ⟨hinterval, hcases⟩ :=
      NetworkErrorDetector.checkDestinationConnectivity_cases hcheck
    -- a check that did not fail was before `b`, or none was due
    have hdue : w.detector.shouldCheckNetwork r.bytesCopied = true → r.bytesCopied < b := by
      intro hdue
      by_contra hlt
      rw [DetectedCopy.FailsFrom, hpt] at hok
      have hraised := hok (not_lt.mp hlt) hdue
      rw [hcheck] at hraised
      cases hraised
    have hchecked : w'.detector.lastCheckBytes ≤ b := by
      rcases hcases with ⟨hsucc, hlast⟩ | ⟨-, hlast⟩
      · rw [hlast]
        exact (hdue (Bool.and_eq_true_iff.mp hsucc).1).le
      · rw [hlast]
        exact h.checked_le
    refine ⟨hcounts, hchecked, fun n hn => ?_, by rw [total_concat]; exact h.bounded⟩
    rw [hp] at hn
    obtain rfl := Option.some.inj hn
    by_cases hnow : w.detector.shouldCheckNetwork r.bytesCopied = true
    · exact alive_of_lt hchecked (hdue hnow)
    · rcases hcases with ⟨hsucc, -⟩ | ⟨-, hlast⟩
      · exact absurd (Bool.and_eq_true_iff.mp hsucc).1 hnow
      · rw [hinterval, hlast]
        exact alive_of_not_due h.checked_le (fun hd => hnow (NetworkErrorDetector.due_iff.mp hd))
  · refine ⟨hcounts, by rw [hd]; exact h.checked_le, fun n hn => ?_,
      by rw [total_concat]; exact h.bounded⟩
    rw [hp] at hn
    cases hn

/-- **How much the strategy writes** if all checks from `b` on fail, and that no check comes too
early.

**Proof sketch.** `FailFastInv` and `DetectedInv` are invariants. -/
theorem detectedCopy_failFast {destParent : String} {file : FileId}
    {tr : List (DetectedCopy × DetectedAction)}
    (hrun : Run (detectedStep cfg) (.start cfg destParent file) tr w) :
    (∀ b, Meets (DetectedCopy.FailsFrom b) tr → total DetectedCopy.piece tr ≤
        b + checkIntervalBytes cfg + cfg.growingFileChunkSizeKb * 1024) ∧
      ∀ v r, w.point = .connectivity v r → w.detector.shouldCheckNetwork r.bytesCopied = true →
        lastSuccess DetectedCopy.success tr + checkIntervalBytes cfg ≤
          total DetectedCopy.piece tr := by
  have hstart : DetectedInv cfg [] (.start cfg destParent file) :=
    ⟨rfl, rfl, Nat.zero_le _, fun n hn => Option.some.inj hn, le_rfl⟩
  constructor
  · intro b hfails
    have hinv : FailFastInv cfg b tr w := by
      refine hrun.invariant_trace hfails ⟨hstart, Nat.zero_le _, fun n hn => ?_, Nat.zero_le _⟩
        fun _ _ _ _ h hok hs => failFastInv_step h hok hs
      obtain rfl := Option.some.inj hn
      exact alive_start
    exact hinv.bounded
  · intro v r hpt hdue
    have hany : Meets (fun _ _ => True) tr := fun _ _ => trivial
    have hinv : DetectedInv cfg tr w :=
      hrun.invariant_trace hany hstart
        fun _ _ _ _ h _ hs => detectedInv_step h hs
    have hdue : checkIntervalBytes cfg ≤ r.bytesCopied - w.detector.lastCheckBytes := by
      rw [← hinv.interval]
      exact NetworkErrorDetector.due_iff.mpr hdue
    have htotal := hinv.written _ (by rw [hpt]; rfl)
    have hle := hinv.last_le
    rw [← hinv.last]
    omega

end Strategy

/-! ## The executor -/

section Executor

/-- The executor's detector checks once a megabyte. -/
def executorIntervalBytes : ℕ := 1024 * 1024

/-- A check raises a `NetworkError`. -/
def ExecutorAnswer.checkFails : ExecutorAnswer → Bool
  | .error e _ => (connectivityError e).isSome
  | _ => false

/-- From position `b` on, every check of the executor raises a `NetworkError`. -/
def ExecutorFailsFrom (b : ℕ) (w : ExecutorWorld) : ExecutorAction → Prop
  | .answer a =>
    match w.point with
    | .connectivity v => b ≤ v.bytesCopied → a.checkFails = true
    | _ => True
  | .append _ => True

instance (b : ℕ) (w : ExecutorWorld) (act : ExecutorAction) :
    Decidable (ExecutorFailsFrom b w act) := by
  unfold ExecutorFailsFrom
  repeat' split
  all_goals infer_instance

/-- The position of a check that succeeds. -/
def ExecutorPoint.success : ExecutorPoint → ExecutorAnswer → Option ℕ
  | .connectivity v, .done => some v.bytesCopied
  | _, _ => none

@[inherit_doc ExecutorPoint.success]
def ExecutorWorld.success (w : ExecutorWorld) : ExecutorAction → Option ℕ
  | .answer a => w.point.success a
  | .append _ => none

/-- The bytes that the operation awaited writes. -/
def ExecutorPoint.piece : ExecutorPoint → ℕ
  | .write _ chunk => chunk.length
  | _ => 0

/-- The bytes a step writes. A write that raises may have written the whole chunk. -/
def ExecutorWorld.piece (w : ExecutorWorld) : ExecutorAction → ℕ
  | .answer _ => w.point.piece
  | .append _ => 0

/-- What is true at a point in every run: `checked` is the position of the last successful check,
and `written` bytes have been written. -/
def ExecutorCounts (c : ExecutorCall) (checked written : ℕ) : ExecutorPoint → Prop
  | .mkdir | .statSource | .openSource | .openTarget => checked = 0 ∧ written = 0
  | .read v => v.lastCheckBytes = checked ∧ v.bytesCopied = written
  | .write v chunk =>
    v.lastCheckBytes = checked ∧ v.bytesCopied = written ∧ chunk.length ≤ c.chunkSize
  | .connectivity v =>
    v.lastCheckBytes = checked ∧ v.bytesCopied = written ∧ Due executorIntervalBytes checked written
  | _ => True

/-- What is true at a point if all checks from `b` on fail. -/
def ExecutorAlive (b checked written : ℕ) : ExecutorPoint → Prop
  | .mkdir | .statSource | .openSource | .openTarget => True
  | .read _ | .write _ _ => Alive executorIntervalBytes b checked written
  | .connectivity _ => checked ≤ b
  | _ => True

variable {c : ExecutorCall} {w w' : ExecutorWorld} {act : ExecutorAction} {b : ℕ}
  {tr : List (ExecutorWorld × ExecutorAction)} {p p' : ExecutorPoint} {a : ExecutorAnswer}
  {checked written : ℕ}

/-- The loop of `_perform_copy` is ahead or running. -/
def ExecutorPoint.copying : ExecutorPoint → Bool
  | .mkdir | .statSource | .openSource | .openTarget | .read _ | .write _ _ | .connectivity _ =>
    true
  | _ => false

/-- Outside the copy loop there is nothing to count. -/
lemma executorCounts_of_left (h : p.copying = false) : ExecutorCounts c checked written p := by
  cases p <;> trivial

/-- Outside the copy loop no check is missed. -/
lemma executorAlive_of_left (h : p.copying = false) : ExecutorAlive b checked written p := by
  cases p <;> trivial

/-- The steps to a point where the loop is ahead or running. -/
inductive ExecutorCopies (c : ExecutorCall) : ExecutorPoint → ExecutorAnswer → ExecutorPoint → Prop
  | mkdir : ExecutorCopies c .mkdir .done .statSource
  | statSource (n : ℕ) : ExecutorCopies c .statSource (.size n) .openSource
  | openSource : ExecutorCopies c .openSource .done .openTarget
  | openTarget : ExecutorCopies c .openTarget .done (.read {})
  | read (v : ExecutorVars) (chunk : List UInt8) :
      ExecutorCopies c (.read v) (.data chunk) (.write v chunk)
  | write (v : ExecutorVars) (chunk : List UInt8) :
      ExecutorCopies c (.write v chunk) .done (ExecutorCall.wrote v chunk)
  | checked (v : ExecutorVars) :
      ExecutorCopies c (.connectivity v) .done (.read { v with lastCheckBytes := v.bytesCopied })
  | dropped (v : ExecutorVars) (e : PyError) (kept : ℕ) (he : connectivityError e = none) :
      ExecutorCopies c (.connectivity v) (.error e kept) (.read v)

/-- **What the executor does before and in its loop.**

**Proof sketch.** By cases on the point and on the answer. A point from which the copy goes on is
one constructor of `ExecutorCopies`; every other one is after the loop, where nothing is copied. -/
lemma copies_of_resume (hp : c.resume p a = some p') (hp' : p'.copying = true) :
    ExecutorCopies c p a p' := by
  cases p with
  | mkdir =>
    cases a <;> cases hp
    · exact .mkdir
    · cases hp'
  | statSource =>
    cases a <;> cases hp
    · exact .statSource _
    · cases hp'
  | openSource =>
    cases a <;> cases hp
    · exact .openSource
    · cases hp'
  | openTarget =>
    cases a <;> cases hp
    · exact .openTarget
    · cases hp'
  | read v =>
    cases a with
    | data chunk =>
      obtain rfl := Option.some.inj hp
      split_ifs at hp' ⊢
      · cases hp'
      · exact .read v chunk
    | error e kept => cases hp; cases hp'
    | _ => cases hp
  | write v chunk =>
    cases a <;> cases hp
    · exact .write v chunk
    · cases hp'
  | connectivity v =>
    cases a with
    | done => cases hp; exact .checked v
    | error e kept =>
      simp only [ExecutorCall.resume] at hp
      cases he : connectivityError e with
      | some e' => rw [he] at hp; cases hp; cases hp'
      | none => rw [he] at hp; cases hp; exact .dropped v e kept he
    | _ => cases hp
  | closeTarget n e => cases a <;> cases e <;> cases hp <;> cases hp'
  | closeSource n e => cases a <;> cases e <;> cases hp <;> cases hp'
  | verifyExists n =>
    cases a with
    | «exists» b => cases b <;> cases hp <;> cases hp'
    | _ => cases hp <;> cases hp'
  | verifyTarget n k =>
    cases a with
    | size k' =>
      obtain rfl := Option.some.inj hp
      split_ifs at hp' <;> cases hp'
    | _ => cases hp <;> cases hp'
  | unverifiedExists n =>
    cases a with
    | «exists» b => cases b <;> cases hp <;> cases hp'
    | _ => cases hp <;> cases hp'
  | cleanupExists e =>
    cases a with
    | «exists» b => cases b <;> cases hp <;> cases hp'
    | _ => cases hp <;> cases hp'
  | _ => cases a <;> cases hp <;> cases hp'

/-- The counters after an operation. -/
lemma executorCounts_resume (h : ExecutorCounts c checked written p)
    (ha : w.Answers c (c.request p) a) (hp : c.resume p a = some p') :
    ExecutorCounts c ((p.success a).getD checked) (written + p.piece) p' := by
  cases hcopying : p'.copying with
  | false => exact executorCounts_of_left hcopying
  | true =>
    cases copies_of_resume hp hcopying with
    | openTarget =>
      obtain ⟨rfl, rfl⟩ := h
      exact ⟨rfl, rfl⟩
    | read v chunk =>
      have hlen : chunk.length ≤ c.chunkSize :=
        (List.IsPrefix.length_le ha).trans (List.length_take_le _ _)
      exact ⟨h.1, h.2, hlen⟩
    | write v chunk =>
      obtain ⟨rfl, rfl, -⟩ := h
      unfold ExecutorCall.wrote
      dsimp only
      split_ifs with hdue
      · exact ⟨rfl, rfl, hdue⟩
      · exact ⟨rfl, rfl⟩
    | checked v => exact ⟨rfl, h.2.1⟩
    | dropped v e kept => exact ⟨h.1, h.2.1⟩
    | mkdir | statSource | openSource => exact h

/-- The work goes on only near `b`.

**Proof sketch.** By cases on the steps inside the loop. A chunk that makes a check due leads to
the check, and without one the distance to the last check stays small (`alive_of_not_due`). A
check that does not fail was before `b`, by the condition, and so the work goes on near `b`
(`alive_of_lt`). -/
lemma executorAlive_resume (h : ExecutorAlive b checked written p)
    (hcounts : ExecutorCounts c checked written p)
    (hfails : ∀ v, p = .connectivity v → b ≤ v.bytesCopied → a.checkFails = true)
    (hp : c.resume p a = some p') :
    ExecutorAlive b ((p.success a).getD checked) (written + p.piece) p' := by
  -- a check that did not fail was before `b`
  have hbefore : ∀ v, p = .connectivity v → a.checkFails = false → v.bytesCopied < b := by
    intro v hv hok
    by_contra hle
    rw [hfails v hv (not_lt.mp hle)] at hok
    cases hok
  cases hcopying : p'.copying with
  | false => exact executorAlive_of_left hcopying
  | true =>
    cases copies_of_resume hp hcopying with
    | openTarget =>
      obtain ⟨rfl, rfl⟩ := hcounts
      exact alive_start
    | read v chunk => exact h
    | write v chunk =>
      obtain ⟨rfl, rfl, -⟩ := hcounts
      have hchecked : v.lastCheckBytes ≤ b := Alive.checked_le h
      unfold ExecutorCall.wrote
      dsimp only
      split_ifs with hdue
      · exact hchecked
      · exact alive_of_not_due hchecked hdue
    | checked v =>
      obtain ⟨rfl, rfl, -⟩ := hcounts
      have hlt : v.bytesCopied < b := hbefore v rfl rfl
      exact alive_of_lt hlt.le hlt
    | dropped v e kept he =>
      obtain ⟨rfl, rfl, -⟩ := hcounts
      exact alive_of_lt h (hbefore v rfl (by rw [ExecutorAnswer.checkFails, he]; rfl))
    | mkdir | statSource | openSource => trivial

/-- The counters after a step. -/
lemma executorCounts_step
    (h : ExecutorCounts c (lastSuccess ExecutorWorld.success tr) (total ExecutorWorld.piece tr)
      w.point)
    (hs : executorStep c w act = some w') :
    ExecutorCounts c (lastSuccess ExecutorWorld.success (tr ++ [(w, act)]))
      (total ExecutorWorld.piece (tr ++ [(w, act)])) w'.point := by
  rw [lastSuccess_concat, total_concat]
  rcases executorStep_cases hs with ⟨bytes, rfl, rfl⟩ | ⟨a, p, rfl, ha, hp, rfl⟩
  · exact h
  · exact executorCounts_resume h ha hp

/-- What is true after a step if all checks from `b` on fail. -/
structure ExecutorInv (c : ExecutorCall) (b : ℕ) (tr : List (ExecutorWorld × ExecutorAction))
    (w : ExecutorWorld) : Prop where
  counts :
    ExecutorCounts c (lastSuccess ExecutorWorld.success tr) (total ExecutorWorld.piece tr) w.point
  alive : ExecutorAlive b (lastSuccess ExecutorWorld.success tr) (total ExecutorWorld.piece tr)
    w.point
  bounded : total ExecutorWorld.piece tr ≤ b + executorIntervalBytes + c.chunkSize

/-- One step keeps the invariant of the executor's copy. -/
lemma executorInv_step (h : ExecutorInv c b tr w) (hok : ExecutorFailsFrom b w act)
    (hs : executorStep c w act = some w') : ExecutorInv c b (tr ++ [(w, act)]) w' := by
  have hcounts := executorCounts_step h.counts hs
  rcases executorStep_cases hs with ⟨bytes, rfl, rfl⟩ | ⟨a, p, rfl, -, hp, rfl⟩
  · refine ⟨hcounts, ?_, by rw [total_concat]; exact h.bounded⟩
    rw [lastSuccess_concat, total_concat]
    exact h.alive
  · refine ⟨hcounts, ?_, ?_⟩
    · rw [lastSuccess_concat, total_concat]
      refine executorAlive_resume h.alive h.counts (fun v hv hb => ?_) hp
      rw [ExecutorFailsFrom, hv] at hok
      exact hok hb
    · rw [total_concat, ExecutorWorld.piece]
      have halive := h.alive
      have hcount := h.counts
      cases hpt : w.point with
      | write v chunk =>
        rw [hpt] at halive hcount
        exact Alive.piece_le halive hcount.2.2
      | _ => exact h.bounded

/-- **How much the executor writes** if all checks from `b` on fail, and that no check comes too
early.

**Proof sketch.** `ExecutorInv` is an invariant, and so is `ExecutorCounts` in every run. -/
theorem executor_failFast {source : List UInt8} {files : DestPath → Option (List UInt8)}
    (hrun : Run (executorStep c) (.start source files) tr w) :
    (∀ b, Meets (ExecutorFailsFrom b) tr → total ExecutorWorld.piece tr ≤
        b + executorIntervalBytes + c.chunkSize) ∧
      ∀ v, w.point = .connectivity v →
        lastSuccess ExecutorWorld.success tr + executorIntervalBytes ≤
          total ExecutorWorld.piece tr := by
  constructor
  · intro b hfails
    have hinv : ExecutorInv c b tr w :=
      hrun.invariant_trace hfails ⟨⟨rfl, rfl⟩, trivial, Nat.zero_le _⟩
        fun _ _ _ _ h hok hs => executorInv_step h hok hs
    exact hinv.bounded
  · intro v hpt
    have hany : Meets (fun _ _ => True) tr := fun _ _ => trivial
    have hcounts : ExecutorCounts c (lastSuccess ExecutorWorld.success tr)
        (total ExecutorWorld.piece tr) w.point :=
      hrun.invariant_trace
        (I := fun tr w => ExecutorCounts c (lastSuccess ExecutorWorld.success tr)
          (total ExecutorWorld.piece tr) w.point)
        hany ⟨rfl, rfl⟩ fun _ _ _ _ h _ hs => executorCounts_step h hs
    rw [hpt] at hcounts
    have hdue : executorIntervalBytes ≤ total ExecutorWorld.piece tr -
        lastSuccess ExecutorWorld.success tr := hcounts.2.2
    have hpos : 0 < executorIntervalBytes := by decide
    omega

end Executor

/-! ## Both copies -/

/-- **Failing fast**: if every check from `b` on raises, a copy writes at most the interval of its
detector and a chunk behind `b`, and no check comes before so much was written since the last one
that succeeded. The first part is about the strategy, the second one about the executor.

**Proof sketch.** `detectedCopy_failFast` and `executor_failFast`. -/
theorem failFast :
    (∀ cfg destParent file tr w, Run (detectedStep cfg) (.start cfg destParent file) tr w →
      (∀ b, Meets (DetectedCopy.FailsFrom b) tr → total DetectedCopy.piece tr ≤
          b + checkIntervalBytes cfg + cfg.growingFileChunkSizeKb * 1024) ∧
        ∀ v r, w.point = .connectivity v r →
          w.detector.shouldCheckNetwork r.bytesCopied = true →
            lastSuccess DetectedCopy.success tr + checkIntervalBytes cfg ≤
              total DetectedCopy.piece tr) ∧
      ∀ c source files tr w, Run (executorStep c) (.start source files) tr w →
        (∀ b, Meets (ExecutorFailsFrom b) tr → total ExecutorWorld.piece tr ≤
            b + executorIntervalBytes + c.chunkSize) ∧
          ∀ v, w.point = .connectivity v →
            lastSuccess ExecutorWorld.success tr + executorIntervalBytes ≤
              total ExecutorWorld.piece tr :=
  ⟨fun _ _ _ _ _ hrun => detectedCopy_failFast hrun,
    fun _ _ _ _ _ hrun => executor_failFast hrun⟩

/-- Settings with chunks of a kilobyte. -/
def smallChunks : Settings := { growingFileChunkSizeKb := 1 }

/-- Ten chunks of a static file are written, and then a check times out. -/
def tenChunks : List DetectedAction :=
  let heap : FileId → TrackedFile :=
    fun _ => { filePath := "/src/a.mxf", status := .copying, discoveredAt := 0 }
  [CopyAnswer.size 20480, .found none, .done, .done, .stored true, .size 20480, .done].map
      (.answer heap ·) ++
    (List.replicate 10 [.answer heap (.data (List.replicate 1024 0)), .answer heap .done,
      .check heap none 0, .answer heap .done]).flatten.dropLast

/-- What a check raises that takes too long. -/
def checkTimedOut : PyError := networkError "Network connectivity check timed out after 3.0s"

/-- The exception a copy has been left with, while its destination is being closed. -/
def CopyPoint.leftWith : CopyPoint → Option PyError
  | .closeDest _ (some e) => some e
  | _ => none

/-- A copy by the executor in chunks of a megabyte. -/
def largeChunks : ExecutorCall := ⟨true, "/src/a.mxf", ⟨["dst"], "a.mxf"⟩, 1024⟩

/-- The whole source is written as one chunk, and then a check times out. -/
def oneChunk (source : List UInt8) : List ExecutorAction :=
  [.done, .size source.length, .done, .done, .data source, .done, .error checkTimedOut 0].map
    .answer

section OneChunk

variable {source : List UInt8} {files : DestPath → Option (List UInt8)}

/-- The copy is aborted after the megabyte, at its only check.

**Proof sketch.** The seven answers are evaluated one by one; the source is not empty and fits
into one chunk, and its length is the interval of the checks. -/
lemma replay_oneChunk (hsource : source.length = 1024 * 1024) :
    (replay (executorStep largeChunks) (.start source files) (oneChunk source)).map
        ExecutorWorld.point = some (.closeTarget (1024 * 1024) (some checkTimedOut)) ∧
      Meets (ExecutorFailsFrom 1)
        (traceOf (executorStep largeChunks) (.start source files) (oneChunk source)) ∧
      total ExecutorWorld.piece
        (traceOf (executorStep largeChunks) (.start source files) (oneChunk source)) =
          1024 * 1024 := by
  have hne : source ≠ [] := by
    rintro rfl
    cases hsource
  have hread : source <+: source.take largeChunks.chunkSize := by
    have hsize : source.length ≤ largeChunks.chunkSize := hsource.le
    rw [List.take_of_length_le hsize]
  have hcheck : connectivityError checkTimedOut = some checkTimedOut := rfl
  refine ⟨?_, ?_, ?_⟩
  · simp [oneChunk, replay, executorStep, ExecutorWorld.start, ExecutorCall.request,
      ExecutorWorld.Answers, ExecutorCall.resume, ExecutorCall.wrote, ExecutorWorld.effect,
      ExecutorWorld.setTarget, hne, hread, hsource, hcheck]
  · simp [oneChunk, traceOf, executorStep, ExecutorWorld.start, ExecutorCall.request,
      ExecutorWorld.Answers, ExecutorCall.resume, ExecutorCall.wrote, ExecutorWorld.effect,
      ExecutorWorld.setTarget, hne, hread, hsource, hcheck, Meets, ExecutorFailsFrom,
      ExecutorAnswer.checkFails]
  · simp [oneChunk, traceOf, executorStep, ExecutorWorld.start, ExecutorCall.request,
      ExecutorWorld.Answers, ExecutorCall.resume, ExecutorCall.wrote, ExecutorWorld.effect,
      ExecutorWorld.setTarget, hne, hread, hsource, hcheck, total, ExecutorWorld.piece,
      ExecutorPoint.piece]

end OneChunk

/-- The bounds for a copy by the strategy whose check times out after ten chunks, and for one by the
executor whose check times out after a megabyte. -/
theorem failFast_tenChunks :
    (∃ w, Run (detectedStep smallChunks) (.start smallChunks "/dst" 0)
        (traceOf (detectedStep smallChunks) (.start smallChunks "/dst" 0) tenChunks) w ∧
      w.point.leftWith = some checkTimedOut ∧
      total DetectedCopy.piece (traceOf (detectedStep smallChunks) (.start smallChunks "/dst" 0)
        tenChunks) = 10 * 1024 ∧
      10 * 1024 ≤ 1 + checkIntervalBytes smallChunks + 1 * 1024) ∧
    ∃ source w, source.length = 1024 * 1024 ∧
      Run (executorStep largeChunks) (.start source fun _ => none)
        (traceOf (executorStep largeChunks) (.start source fun _ => none) (oneChunk source)) w ∧
      w.point = .closeTarget (1024 * 1024) (some checkTimedOut) ∧
      total ExecutorWorld.piece (traceOf (executorStep largeChunks) (.start source fun _ => none)
        (oneChunk source)) = 1024 * 1024 ∧
      1024 * 1024 ≤ 1 + executorIntervalBytes + largeChunks.chunkSize := by
  constructor
  · obtain ⟨w, hrun, hpoint⟩ := exists_run_of_replay (detectedStep smallChunks)
      (.start smallChunks "/dst" 0) tenChunks
      (fun w => w.point.leftWith = some checkTimedOut) (by decide +kernel)
    have htotal : total DetectedCopy.piece (traceOf (detectedStep smallChunks)
        (.start smallChunks "/dst" 0) tenChunks) = 10 * 1024 := by decide +kernel
    have hbound := (failFast.1 _ _ _ _ _ hrun).1 1 (by decide +kernel)
    exact ⟨w, hrun, of_decide_eq_true hpoint, htotal, htotal ▸ hbound⟩
  · obtain ⟨source, hsource⟩ : ∃ source : List UInt8, source.length = 1024 * 1024 :=
      ⟨_, List.length_replicate (a := 0)⟩
    obtain ⟨hpoint, hfails, htotal⟩ := @replay_oneChunk source (fun _ => none) hsource
    obtain ⟨w, hreplay, hw⟩ := Option.map_eq_some_iff.mp hpoint
    have hrun := Run.of_replay hreplay
    have hbound := (failFast.2 _ _ _ _ _ hrun).1 1 hfails
    exact ⟨source, w, hsource, hrun, hw, htotal, htotal ▸ hbound⟩

end FileAgent

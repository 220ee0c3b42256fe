import FileAgent.CopyStrategy
import FileAgent.GrowingFileDetector
import FileAgent.JobFilePreparation
import FileAgent.Library.Run

set_option relaxedAutoImplicit false
set_option autoImplicit false

/-!
# Termination of a copy

A file is observed by the scanner and the detector, recommended as `READY`, queued, prepared, and
given to `copy_file`. Its size is any sequence that is constant from some point on, one value for
each operation `copy_file` awaits. Size checks and reads return normally: a size check returns the
size of the moment, and a read before the end of the file returns at least one byte. Every other
operation may also raise.

Whether `copy_file` waits for the minimum size is decided by `_is_file_currently_growing`, and not
by the detector, which also declares files below the minimum size `READY` that have grown.

## Main definitions

* `Observation`, `observe` — the observations of a file before it is queued.
* `queuedRecord`, `preparedRecord` — its record in the queue, and when `copy_file` is called.
* `CopyEnv`, `copyPoint` — the answers `copy_file` gets, and the points it goes through.
* `NormalAnswer` — size checks and reads return normally.
* `copyMeasure` — what decreases with every step once the size is constant.

## Main results

* `copyMeasure_lt` — past the wait for the minimum size, every step decreases the measure.
* `copyTerminates_iff` — `copy_file` ends exactly if the file does not count as growing, or its size
  reaches the minimum.
* `readyFile_copyTerminates_iff` — the same for a file that was recommended as `READY`.
* `readyFile_waits_forever` — a file that was recommended as `READY` and is waited for forever.
-/

namespace FileAgent

/-! ## From the observations to the call of `copy_file` -/

/-- A reading of the size of a file, by the three functions that store it. -/
inductive Observation
  | checkFileGrowthStatus (now size : ℕ)
  | updateFileGrowthInfo (now size : ℕ)
  | checkExistingFileChanges (now size : ℕ) (lastWriteTime : Option ℕ)

/-- The record after a growth check, and the status recommended. A file that is not tracked for
growth yet starts to be. -/
def checkGrowth (cfg : Settings) (f : TrackedFile) (now size : ℕ) : TrackedFile × FileStatus :=
  match f.lastGrowthCheck with
  | none => (f.applyUpdate now f.status (startTrackingAttrs now size), .discovered)
  | some last =>
    let c := growthCheck f last now size
    (f.applyUpdate now f.status c.attrs, c.recommend cfg)

/-- The record after an observation; the status recommended by a growth check is written to it. -/
def observe (cfg : Settings) (f : TrackedFile) : Observation → TrackedFile
  | .checkFileGrowthStatus now size =>
    if f.status = .waitingForNetwork then f
    else (checkGrowth cfg f now size).1.applyUpdate now (checkGrowth cfg f now size).2 []
  | .updateFileGrowthInfo now newSize =>
    f.applyUpdate now f.status (growthInfoAttrs f now newSize)
  | .checkExistingFileChanges now size lastWriteTime =>
    if size ≠ f.fileSize then
      f.applyUpdate now f.status [.fileSize size, .lastWriteTime lastWriteTime]
    else f

/-- The last of a sequence of observations recommends `READY`. -/
def ReadyAfter (cfg : Settings) (f : TrackedFile) (obs : List Observation) (now size : ℕ) : Prop :=
  (obs.foldl (observe cfg) f).status ≠ .waitingForNetwork ∧
    (checkGrowth cfg (obs.foldl (observe cfg) f) now size).2 = .ready

instance (cfg : Settings) (f : TrackedFile) (obs : List Observation) (now size : ℕ) :
    Decidable (ReadyAfter cfg f obs now size) :=
  inferInstanceAs (Decidable (_ ∧ _))

/-- The record after these observations, with `READY` and then `IN_QUEUE` written to it. -/
def queuedRecord (cfg : Settings) (f : TrackedFile) (obs : List Observation) (now size : ℕ) :
    TrackedFile :=
  ((checkGrowth cfg (obs.foldl (observe cfg) f) now size).1.applyUpdate now .ready
    []).applyUpdate now .inQueue []

/-- The record after `initialize_copy_status`. -/
def preparedRecord (now : ℕ) (f : TrackedFile) : TrackedFile :=
  f.applyUpdate now (determineInitialStatus f) [.copyProgress 0, .startedCopyingAt (some now)]

/-- The test of `copy_file` agrees with the one made when the job was prepared. -/
lemma isFileCurrentlyGrowing_preparedRecord (now : ℕ) (f : TrackedFile) :
    isFileCurrentlyGrowing (preparedRecord now f) = isFileCurrentlyGrowing f := by
  have hst : (preparedRecord now f).status = determineInitialStatus f := by
    simp [preparedRecord]
  unfold determineInitialStatus at hst
  split_ifs at hst with h
  · rw [h, isFileCurrentlyGrowing, hst]
  · simp only [Bool.not_eq_true] at h
    rw [h, isFileCurrentlyGrowing, hst]

/-- The last observation, of a file with the record `f`, found a growth rate that is not positive,
and the size at which the file was first seen (or a smaller one) and last seen. A size of `0` counts
as not seen. -/
def SeenUnchanged (f : TrackedFile) (now size : ℕ) : Prop :=
  ∀ last, f.lastGrowthCheck = some last →
    (growthCheck f last now size).growthRate ≤ 0 ∧
      (f.firstSeenSize = 0 ∨ size ≤ f.firstSeenSize) ∧ (f.fileSize = 0 ∨ size = f.fileSize)

/-- The fields that `_is_file_currently_growing` reads, after a growth check. -/
lemma applyUpdate_growthCheck (f : TrackedFile) (c : GrowthCheck) (now : ℕ) :
    let g := f.applyUpdate now f.status c.attrs
    g.growthRateMbps = c.growthRate ∧ g.firstSeenSize = f.firstSeenSize ∧
      g.fileSize = c.currentSize ∧ g.previousFileSize = c.previousSize := by
  simp only [TrackedFile.applyUpdate]
  split_ifs <;> exact ⟨rfl, rfl, rfl, rfl⟩

/-- The fields that `_is_file_currently_growing` reads, after an update of the status alone. -/
lemma applyUpdate_status_only (f : TrackedFile) (now : ℕ) (status : FileStatus) :
    let g := f.applyUpdate now status []
    g.growthRateMbps = f.growthRateMbps ∧ g.firstSeenSize = f.firstSeenSize ∧
      g.fileSize = f.fileSize ∧ g.previousFileSize = f.previousFileSize := by
  simp only [TrackedFile.applyUpdate]
  split_ifs <;> exact ⟨rfl, rfl, rfl, rfl⟩

/-- A file in the queue counts as growing by its history. -/
lemma isFileCurrentlyGrowing_inQueue {f : TrackedFile} (h : f.status = .inQueue) :
    isFileCurrentlyGrowing f = false ↔
      f.growthRateMbps ≤ 0 ∧ (f.firstSeenSize = 0 ∨ f.fileSize ≤ f.firstSeenSize) ∧
        (f.previousFileSize = 0 ∨ f.fileSize = f.previousFileSize) := by
  simp only [isFileCurrentlyGrowing, h, Bool.or_eq_false_iff, Bool.and_eq_false_iff,
    decide_eq_false_iff_not, not_lt, Nat.le_zero, ne_eq, not_not, and_assoc]

/-- A file that was recommended as `READY` counts as growing in the queue unless it was seen
unchanged. -/
lemma isFileCurrentlyGrowing_queuedRecord {cfg : Settings} {f : TrackedFile}
    {obs : List Observation} {now size : ℕ} (hready : ReadyAfter cfg f obs now size) :
    isFileCurrentlyGrowing (queuedRecord cfg f obs now size) = false ↔
      SeenUnchanged (obs.foldl (observe cfg) f) now size := by
  obtain ⟨-, hrec⟩ := hready
  unfold queuedRecord
  generalize obs.foldl (observe cfg) f = g at hrec ⊢
  cases hlast : g.lastGrowthCheck with
  | none => simp [checkGrowth, hlast] at hrec
  | some last =>
    simp only [SeenUnchanged, checkGrowth, hlast, Option.some.injEq, forall_eq']
    have hc := applyUpdate_growthCheck g (growthCheck g last now size) now
    have hready := applyUpdate_status_only
      (g.applyUpdate now g.status (growthCheck g last now size).attrs) now .ready
    have hqueue := applyUpdate_status_only
      ((g.applyUpdate now g.status (growthCheck g last now size).attrs).applyUpdate now .ready [])
      now .inQueue
    rw [isFileCurrentlyGrowing_inQueue (TrackedFile.applyUpdate_status ..), hqueue.1, hqueue.2.1,
      hqueue.2.2.1, hqueue.2.2.2, hready.1, hready.2.1, hready.2.2.1, hready.2.2.2, hc.1, hc.2.1,
      hc.2.2.1, hc.2.2.2]
    rfl

/-! ## The call of `copy_file` -/

/-- The records and the answer that `copy_file` finds at each of its awaits. -/
abbrev CopyEnv := ℕ → (FileId → TrackedFile) × CopyAnswer

/-- The point `copy_file` is at after `n` answers. -/
def copyPoint (cfg : Settings) (env : CopyEnv) (file : FileId) : ℕ → Option CopyPoint
  | 0 => some (.initialSize file)
  | n + 1 => (copyPoint cfg env file n).bind fun p => p.resume cfg (env n).1 (env n).2

/-- `copy_file` returns or raises. -/
def CopyTerminates (cfg : Settings) (env : CopyEnv) (file : FileId) : Prop :=
  ∃ n o, copyPoint cfg env file n = some (.done o)

/-- An answer when the source has `len` bytes. -/
def NormalAnswer (len : ℕ) : CopyRequest → CopyAnswer → Prop
  | .sourceSize, .size n => n = len
  | .destSize, .size _ => True
  | .read offset size, .data chunk =>
    chunk.length ≤ min size (len - offset) ∧ (offset < len → chunk ≠ [])
  | .getFileByPath, .found _ => True
  | .getFileById _, .stored _ => True
  | .checkDestinationConnectivity, .connected _ => True
  | .checkDestinationConnectivity, .error _ => True
  | .makedirs, .done | .openDest, .done | .openSource, .done | .write _, .done
  | .closeDest, .done | .removeSource, .done => True
  | .makedirs, .error _ | .openDest, .error _ | .openSource, .error _ | .write _, .error _
  | .closeDest, .error _ | .removeSource, .error _ => True
  | .sleep, .done => True
  | .updateFileStatusById .., .done => True
  | _, _ => False

/-- Every answer is normal; `len n` is the size of the source when the `n`-th one is given. -/
def NormalEnv (cfg : Settings) (len : ℕ → ℕ) (env : CopyEnv) (file : FileId) : Prop :=
  ∀ n p, copyPoint cfg env file n = some p → (∃ o, p = .done o) ∨
    NormalAnswer (len n) (p.request cfg "") (env n).2

/-! ## The measure -/

/-- The rounds until the loop notices that the file has stopped growing at size `len`, at least one
while it has not. -/
def growthRounds (len : ℕ) (v : LoopVars) : ℕ :=
  if v.fileFinishedGrowing then 0
  else if v.lastFileSize < len then v.maxNoGrowthCycles + 2
  else v.maxNoGrowthCycles - v.noGrowthCycles + 1

/-- The range ends at `len`, which is also the size it was made for. -/
def RangeVars.UpTo (len : ℕ) (r : RangeVars) : Prop :=
  r.bytesCopied + r.bytesToCopy = len ∧ r.currentFileSize = len

instance (len : ℕ) (r : RangeVars) : Decidable (r.UpTo len) :=
  inferInstanceAs (Decidable (_ ∧ _))

/-- The stage of a point in the head part of the loop. -/
def headStage (len : ℕ) (v : LoopVars) : ℕ :=
  if v.fileFinishedGrowing then 2 else 3 + growthRounds len v

/-- The stage of a point in a range. A range up to the final size of a finished file is the last;
one made before the size became constant may be followed by another. -/
def rangeStage (len : ℕ) (v : LoopVars) (r : RangeVars) : ℕ :=
  if v.fileFinishedGrowing then if r.UpTo len then 1 else 3 else 3 + growthRounds len v

/-- The stage before the destination is opened. -/
def entryStage (cfg : Settings) : ℕ :=
  cfg.growingFileGrowthTimeoutSeconds / cfg.growingFilePollIntervalSeconds + 6

/-- What decreases with every step once the source has the constant size `len`: the stage, and
within a stage the bytes still to copy and the position in the round. -/
def copyMeasure (cfg : Settings) (len : ℕ) : CopyPoint → ℕ ×ₗ ℕ
  | .initialSize _ | .waitSize _ | .latestFile _ => toLex (entryStage cfg, 2)
  | .makedirs _ => toLex (entryStage cfg, 1)
  | .openDest v => toLex (v.maxNoGrowthCycles + 6, 0)
  | .getRecord v => toLex (headStage len v, 2)
  | .loopSize v => toLex (headStage len v, 1)
  | .sleep v => toLex (headStage len v, 3)
  | .growthUpdate v _ => toLex (headStage len v, 4)
  | .read v r => toLex (rangeStage len v r, 8 * r.bytesToCopy + 6)
  | .openSource v r | .pause v r => toLex (rangeStage len v r, 8 * r.bytesToCopy + 7)
  | .progress v r _ => toLex (rangeStage len v r, 8 * r.bytesToCopy + 8)
  | .connectivity v r => toLex (rangeStage len v r, 8 * r.bytesToCopy + 9)
  | .write v r chunk =>
    toLex (rangeStage len v (CopyPoint.wrote r chunk), 8 * (r.bytesToCopy - chunk.length) + 10)
  | .closeDest _ _ => toLex (0, 5)
  | .verifySource _ => toLex (0, 4)
  | .verifyDest _ _ => toLex (0, 3)
  | .removeSource _ => toLex (0, 2)
  | .markCompleted _ => toLex (0, 1)
  | .done _ => toLex (0, 0)

section Measure

variable {cfg : Settings} {len : ℕ} {v : LoopVars} {r : RangeVars}

/-- The measure drops at the end of a range, if the last range was copied to its end.

**Proof sketch.** At the end of a range the loop goes on to the growth update, to the next round
or out of the loop. The first two are of the same stage before the growth has ended; afterwards
the range reached the end of the file, so only the way out is left, which is a lower stage. -/
lemma copyMeasure_rangeEnd_lt {k : ℕ} (hk : 4 ≤ k)
    (hlast : v.fileFinishedGrowing = true → r.UpTo len → r.bytesToCopy = 0) :
    copyMeasure cfg len (CopyPoint.rangeEnd v r) < toLex (rangeStage len v r, k) := by
  have hhead : headStage len { v with bytesCopied := r.bytesCopied } = headStage len v := rfl
  unfold CopyPoint.rangeEnd
  rcases CopyPoint.loopEnd_cases { v with bytesCopied := r.bytesCopied } r.currentFileSize with
    ⟨h, hf⟩ | ⟨h, hf⟩ | ⟨h, hf, hlt⟩ <;>
    rw [h, copyMeasure, Prod.Lex.toLex_lt_toLex] <;> simp only at hf
  · left
    simp only [rangeStage, hf, if_true]
    split_ifs <;> decide
  · right
    rw [hhead]
    simp only [headStage, rangeStage, hf, Bool.false_eq_true, if_false]
    exact ⟨trivial, by omega⟩
  · left
    rw [hhead]
    simp only [headStage, rangeStage, hf, if_true]
    rw [if_neg]
    · decide
    · intro hup
      have h0 := hlast hf hup
      obtain ⟨hsum, hcur⟩ := hup
      simp only at hlt
      omega

/-- The measure drops at the head of the loop over a range. -/
lemma copyMeasure_rangeHead_lt :
    copyMeasure cfg len (CopyPoint.rangeHead v r) <
      toLex (rangeStage len v r, 8 * r.bytesToCopy + 7) := by
  unfold CopyPoint.rangeHead
  split_ifs with h
  · rw [copyMeasure, Prod.Lex.toLex_lt_toLex]
    exact .inr ⟨rfl, Nat.lt_succ_self _⟩
  · exact copyMeasure_rangeEnd_lt (by omega) fun _ _ => by omega

/-- A size check of the loop finishes the growth, or brings its end closer. -/
lemma growthRounds_observe_lt (len : ℕ) (hf : v.fileFinishedGrowing = false) :
    (v.observe len).fileFinishedGrowing = true ∨
      (v.observe len).fileFinishedGrowing = false ∧
        growthRounds len (v.observe len) < growthRounds len v := by
  by_cases hlast : v.lastFileSize < len
  · right
    simp only [LoopVars.observe, growthRounds, hf, hlast, Bool.false_eq_true, if_false, if_true,
      lt_irrefl]
    exact ⟨trivial, by omega⟩
  · by_cases hmax : v.maxNoGrowthCycles ≤ v.noGrowthCycles + 1
    · left
      simp [LoopVars.observe, hf, hlast, hmax]
    · right
      simp only [LoopVars.observe, growthRounds, hf, hlast, hmax, Bool.false_eq_true, if_false,
        decide_false]
      exact ⟨trivial, by omega⟩

/-- The measure drops at the size check of a round.

**Proof sketch.** The size check notes the growth or one more round without any, and so leaves
fewer rounds of growth, or ends the growth. Then the range that follows goes to the end of the
file and is of the last stage of ranges; before that, the range and the growth update are of the
stage of the new count. -/
lemma copyMeasure_loopRound_lt :
    copyMeasure cfg len (CopyPoint.loopRound v len) < toLex (headStage len v, 1) := by
  have hstage : (v.observe len).fileFinishedGrowing = true ∧ 2 ≤ headStage len v ∨
      (v.observe len).fileFinishedGrowing = false ∧
        3 + growthRounds len (v.observe len) < headStage len v := by
    cases hf : v.fileFinishedGrowing with
    | true => exact .inl ⟨by simp [LoopVars.observe, hf], by simp [headStage, hf]⟩
    | false =>
      simp only [headStage, hf, Bool.false_eq_true, if_false]
      rcases growthRounds_observe_lt len hf with h | ⟨h, hlt⟩
      · exact .inl ⟨h, by omega⟩
      · exact .inr ⟨h, by omega⟩
  unfold CopyPoint.loopRound
  generalize v.observe len = w at hstage
  dsimp only
  rcases hstage with ⟨hf, hle⟩ | ⟨hf, hlt⟩
  · by_cases hcopy : w.bytesCopied < w.safeCopyTo len
    · have hsafe : w.safeCopyTo len = len := by simp [LoopVars.safeCopyTo, hf]
      rw [if_pos hcopy, copyMeasure, Prod.Lex.toLex_lt_toLex]
      left
      simp only [rangeStage, hf, if_true, RangeVars.UpTo, hsafe, and_true]
      rw [hsafe] at hcopy
      rw [if_pos (by omega)]
      omega
    · rw [if_neg hcopy, if_neg (by simp [hf])]
      have hsafe : w.safeCopyTo len = len := by simp [LoopVars.safeCopyTo, hf]
      rcases CopyPoint.loopEnd_cases w len with ⟨h, _⟩ | ⟨_, h⟩ | ⟨_, _, h⟩
      · rw [h, copyMeasure, Prod.Lex.toLex_lt_toLex]
        exact .inl (by simpa using Nat.lt_of_lt_of_le Nat.zero_lt_two hle)
      · rw [hf] at h; cases h
      · rw [hsafe] at hcopy; exact absurd h hcopy
  · by_cases hcopy : w.bytesCopied < w.safeCopyTo len
    · rw [if_pos hcopy, copyMeasure, Prod.Lex.toLex_lt_toLex]
      simp only [rangeStage, hf, Bool.false_eq_true, if_false]
      exact .inl hlt
    · rw [if_neg hcopy, if_pos (by simp [hf]), copyMeasure, Prod.Lex.toLex_lt_toLex]
      simp only [headStage, hf, Bool.false_eq_true, if_false]
      exact .inl hlt

/-- `copy_file` does not wait for the minimum size any more. -/
def CopyPoint.pastWait : CopyPoint → Bool
  | .initialSize _ | .waitSize _ => false
  | _ => true

/-- A smaller first part makes a measure smaller. -/
lemma toLex_lt_of_fst {a a' b b' : ℕ} (h : a < a') : toLex (a, b) < toLex (a', b') :=
  Prod.Lex.toLex_lt_toLex.mpr (.inl h)

/-- A smaller second part makes a measure smaller. -/
lemma toLex_lt_of_snd {a b b' : ℕ} (h : b < b') : toLex (a, b) < toLex (a, b') :=
  Prod.Lex.toLex_lt_toLex.mpr (.inr ⟨rfl, h⟩)

/-- The head of the loop is not the last stage. -/
lemma headStage_pos : 0 < headStage len v := by unfold headStage; split_ifs <;> omega

/-- A range is not the last stage. -/
lemma rangeStage_pos : 0 < rangeStage len v r := by unfold rangeStage; split_ifs <;> omega

/-- The end of the loop is past the wait for the minimum size. -/
lemma pastWait_loopEnd (n : ℕ) : (CopyPoint.loopEnd v n).pastWait = true := by
  rcases CopyPoint.loopEnd_cases v n with ⟨h, -⟩ | ⟨h, -⟩ | ⟨h, -⟩ <;> rw [h] <;> rfl

/-- The head of the inner loop is past the wait. -/
lemma pastWait_rangeHead : (CopyPoint.rangeHead v r).pastWait = true := by
  rcases CopyPoint.rangeHead_cases v r with ⟨h, -⟩ | ⟨h, -⟩ <;> rw [h]
  · rfl
  · exact pastWait_loopEnd _

/-- A round of the loop is past the wait. -/
lemma pastWait_loopRound (n : ℕ) : (CopyPoint.loopRound v n).pastWait = true := by
  obtain ⟨v', -, -, ⟨r, -, h⟩ | h | h⟩ := CopyPoint.loopRound_cases v n <;> rw [h]
  · rfl
  · rfl
  · exact pastWait_loopEnd _

/-- The stage of a range does not change when a chunk of it is read. -/
lemma rangeStage_wrote {chunk : List UInt8} (h : chunk.length ≤ r.bytesToCopy) :
    rangeStage len v (CopyPoint.wrote r chunk) = rangeStage len v r := by
  have hiff : (CopyPoint.wrote r chunk).UpTo len ↔ r.UpTo len := by
    simp only [RangeVars.UpTo, CopyPoint.wrote]
    omega
  simp only [rangeStage, hiff]

/-- **Every step past the wait decreases the measure**, if the answer is normal and the source has
the size `len`.

**Proof sketch.** By cases on the point and on the answer. The measure counts the stages ahead
and, within a stage, the bytes left in the range together with the place in its inner loop. A
chunk that is read makes the range shorter, an empty one ends a range that had nothing left, the
head of a range and a round of the loop are `copyMeasure_rangeHead_lt` and
`copyMeasure_loopRound_lt`, and an exception leads to the last stages. -/
theorem copyMeasure_lt (cfg : Settings) (heap : FileId → TrackedFile) {p : CopyPoint}
    {a : CopyAnswer}
    (hp : p.pastWait = true) (hdone : ∀ o, p ≠ .done o)
    (h : NormalAnswer len (p.request cfg "") a) :
    ∃ p', p.resume cfg heap a = some p' ∧ p'.pastWait = true ∧
      copyMeasure cfg len p' < copyMeasure cfg len p := by
  cases p with
  | initialSize file => cases hp
  | waitSize file => cases hp
  | latestFile file =>
    cases a with
    | found latest => exact ⟨_, rfl, rfl, toLex_lt_of_snd (by decide)⟩
    | _ => exact h.elim
  | makedirs file =>
    have hstage : 0 < entryStage cfg := Nat.succ_pos _
    cases a with
    | done =>
      by_cases hpoll : cfg.growingFilePollIntervalSeconds = 0
      · exact ⟨_, if_pos hpoll, rfl, toLex_lt_of_fst hstage⟩
      · exact ⟨_, if_neg hpoll, rfl, toLex_lt_of_snd (by decide)⟩
    | error e => exact ⟨_, rfl, rfl, toLex_lt_of_fst hstage⟩
    | _ => exact h.elim
  | openDest v =>
    cases a with
    | done =>
      refine ⟨_, rfl, rfl, toLex_lt_of_fst ?_⟩
      simp only [headStage, growthRounds]
      split_ifs <;> omega
    | error e => exact ⟨_, rfl, rfl, toLex_lt_of_fst (Nat.succ_pos _)⟩
    | _ => exact h.elim
  | getRecord v =>
    cases a with
    | stored present =>
      cases present
      · exact ⟨_, rfl, rfl, toLex_lt_of_fst headStage_pos⟩
      · exact ⟨_, rfl, rfl, toLex_lt_of_snd (by decide)⟩
    | _ => exact h.elim
  | loopSize v =>
    cases a with
    | size n =>
      obtain rfl : n = len := h
      exact ⟨_, rfl, pastWait_loopRound _, copyMeasure_loopRound_lt⟩
    | _ => exact h.elim
  | openSource v r =>
    cases a with
    | done => exact ⟨_, rfl, pastWait_rangeHead, copyMeasure_rangeHead_lt⟩
    | error e => exact ⟨_, rfl, rfl, toLex_lt_of_fst rangeStage_pos⟩
    | _ => exact h.elim
  | read v r =>
    cases a with
    | data chunk =>
      obtain ⟨hlen, hne⟩ : chunk.length ≤
          min (min (cfg.growingFileChunkSizeKb * 1024) r.bytesToCopy) (len - r.bytesCopied) ∧
          (r.bytesCopied < len → chunk ≠ []) := h
      by_cases hc : chunk = []
      · refine ⟨_, congrArg some (if_pos hc), pastWait_loopEnd _,
          copyMeasure_rangeEnd_lt (by omega) ?_⟩
        rintro - ⟨hsum, -⟩
        by_contra hpos
        exact hne (by omega) hc
      · have hpos := List.length_pos_of_ne_nil hc
        refine ⟨_, congrArg some (if_neg hc), rfl, ?_⟩
        simp only [copyMeasure]
        rw [rangeStage_wrote (by omega)]
        exact toLex_lt_of_snd (by omega)
    | error e => exact ⟨_, rfl, rfl, toLex_lt_of_fst rangeStage_pos⟩
    | _ => exact h.elim
  | write v r chunk =>
    cases a with
    | done => exact ⟨_, rfl, rfl, toLex_lt_of_snd (Nat.lt_succ_self _)⟩
    | error e => exact ⟨_, rfl, rfl, toLex_lt_of_fst rangeStage_pos⟩
    | _ => exact h.elim
  | connectivity v r =>
    cases a with
    | connected q => exact ⟨_, rfl, rfl, toLex_lt_of_snd (by omega)⟩
    | error e => exact ⟨_, rfl, rfl, toLex_lt_of_fst rangeStage_pos⟩
    | _ => exact h.elim
  | progress v r q =>
    cases a with
    | done =>
      by_cases hpause : 0 < r.pauseMs
      · exact ⟨_, congrArg some (if_pos hpause), rfl, toLex_lt_of_snd (by omega)⟩
      · exact ⟨_, congrArg some (if_neg hpause), pastWait_rangeHead,
          copyMeasure_rangeHead_lt.trans (toLex_lt_of_snd (by omega))⟩
    | _ => exact h.elim
  | pause v r =>
    cases a with
    | done => exact ⟨_, rfl, pastWait_rangeHead, copyMeasure_rangeHead_lt⟩
    | _ => exact h.elim
  | growthUpdate v n =>
    cases a with
    | done =>
      refine ⟨_, rfl, pastWait_loopEnd _, ?_⟩
      rcases CopyPoint.loopEnd_cases v n with ⟨hend, _⟩ | ⟨hend, _⟩ | ⟨hend, _⟩ <;> rw [hend]
      · exact toLex_lt_of_fst headStage_pos
      · exact toLex_lt_of_snd (by decide)
      · exact toLex_lt_of_snd (by decide)
    | _ => exact h.elim
  | sleep v =>
    cases a with
    | done => exact ⟨_, rfl, rfl, toLex_lt_of_snd (by decide)⟩
    | _ => exact h.elim
  | closeDest file inFlight =>
    cases inFlight <;> cases a with
    | done => exact ⟨_, rfl, rfl, toLex_lt_of_snd (by decide)⟩
    | error e => exact ⟨_, rfl, rfl, toLex_lt_of_snd (by decide)⟩
    | _ => exact h.elim
  | verifySource file =>
    cases a with
    | size n => exact ⟨_, rfl, rfl, toLex_lt_of_snd (by decide)⟩
    | _ => exact h.elim
  | verifyDest file n =>
    cases a with
    | size k =>
      by_cases hk : n = k
      · exact ⟨_, if_pos hk, rfl, toLex_lt_of_snd (by decide)⟩
      · exact ⟨_, if_neg hk, rfl, toLex_lt_of_snd (by decide)⟩
    | _ => exact h.elim
  | removeSource file =>
    cases a with
    | done => exact ⟨_, rfl, rfl, toLex_lt_of_snd (by decide)⟩
    | error e =>
      by_cases he : e.isOSError = true
      · exact ⟨_, if_pos he, rfl, toLex_lt_of_snd (by decide)⟩
      · exact ⟨_, if_neg he, rfl, toLex_lt_of_snd (by decide)⟩
    | _ => exact h.elim
  | markCompleted file =>
    cases a with
    | done => exact ⟨_, rfl, rfl, toLex_lt_of_snd (by decide)⟩
    | _ => exact h.elim
  | done o => exact absurd rfl (hdone o)

end Measure

/-! ## When `copy_file` ends -/

section Termination

variable {cfg : Settings} {len : ℕ → ℕ} {env : CopyEnv} {file : FileId}

/-- One more answer moves the copy one point on. -/
lemma copyPoint_succ {n : ℕ} {p : CopyPoint} (h : copyPoint cfg env file n = some p) :
    copyPoint cfg env file (n + 1) = p.resume cfg (env n).1 (env n).2 := by
  rw [copyPoint, h, Option.bind_some]

/-- Past the wait, `copy_file` has ended or goes on. -/
lemma ends_or_goes_on (hnormal : NormalEnv cfg len env file) {n : ℕ} {p : CopyPoint}
    (hp : copyPoint cfg env file n = some p) (hpast : p.pastWait = true) :
    CopyTerminates cfg env file ∨
      ∃ p', copyPoint cfg env file (n + 1) = some p' ∧ p'.pastWait = true ∧
        copyMeasure cfg (len n) p' < copyMeasure cfg (len n) p := by
  by_cases hdone : ∃ o, p = .done o
  · obtain ⟨o, rfl⟩ := hdone
    exact .inl ⟨n, o, hp⟩
  · right
    have ha := (hnormal n p hp).resolve_left hdone
    obtain ⟨p', hr, hpast', hlt⟩ := copyMeasure_lt cfg (env n).1 hpast
      (fun o ho => hdone ⟨o, ho⟩) ha
    exact ⟨p', by rw [copyPoint_succ hp, hr], hpast', hlt⟩

/-- Past the wait, `copy_file` has ended or is still past it after any number of steps. -/
lemma ends_or_past_after (hnormal : NormalEnv cfg len env file) {n : ℕ} {p : CopyPoint}
    (hp : copyPoint cfg env file n = some p) (hpast : p.pastWait = true) (k : ℕ) :
    CopyTerminates cfg env file ∨
      ∃ p', copyPoint cfg env file (n + k) = some p' ∧ p'.pastWait = true := by
  induction k with
  | zero => exact .inr ⟨p, hp, hpast⟩
  | succ k ih =>
    rcases ih with h | ⟨q, hq, hqpast⟩
    · exact .inl h
    · exact (ends_or_goes_on hnormal hq hqpast).imp_right fun ⟨q', hq', hqpast', _⟩ =>
        ⟨q', hq', hqpast'⟩

/-- Past the wait, with a size that is constant, `copy_file` ends.

**Proof sketch.** The rank is `copyMeasure`. -/
lemma ends_of_constant (hnormal : NormalEnv cfg len env file) {L : ℕ} {n : ℕ} {p : CopyPoint}
    (hconst : ∀ k, n ≤ k → len k = L) (hp : copyPoint cfg env file n = some p)
    (hpast : p.pastWait = true) : CopyTerminates cfg env file := by
  have hends : ∃ _ : ℕ, CopyTerminates cfg env file := by
    refine Transition.exists_of_rank (I := fun q => q.pastWait = true) (copyMeasure cfg L) hp hpast
      fun k q hk hq hqpast => ?_
    have h := ends_or_goes_on hnormal hq hqpast
    rwa [hconst k hk] at h
  exact hends.elim fun _ h => h

/-- Past the wait, with a size that is constant from some point on, `copy_file` ends. -/
lemma ends_of_pastWait (hnormal : NormalEnv cfg len env file)
    (hconst : ∃ N L, ∀ n, N ≤ n → len n = L) {n : ℕ} {p : CopyPoint}
    (hp : copyPoint cfg env file n = some p) (hpast : p.pastWait = true) :
    CopyTerminates cfg env file := by
  obtain ⟨N, L, hL⟩ := hconst
  rcases ends_or_past_after hnormal hp hpast N with h | ⟨q, hq, hqpast⟩
  · exact h
  · exact ends_of_constant hnormal (fun k hk => hL k (by omega)) hq hqpast

/-- The first size check of `copy_file`. -/
lemma copyPoint_one (hnormal : NormalEnv cfg len env file) :
    copyPoint cfg env file 1 =
      if isFileCurrentlyGrowing ((env 0).1 file) && len 0 < cfg.minSizeBytes then
        some (.waitSize file) else some (.latestFile file) := by
  have ha := (hnormal 0 _ rfl).resolve_left (by rintro ⟨o, ho⟩; cases ho)
  rw [copyPoint_succ (n := 0) rfl]
  revert ha
  cases (env 0).2 with
  | size n => rintro (rfl : n = len 0); rfl
  | _ => exact fun h => h.elim

/-- A size check of the wait for the minimum size. -/
lemma copyPoint_waitSize (hnormal : NormalEnv cfg len env file) {n : ℕ}
    (h : copyPoint cfg env file n = some (.waitSize file)) :
    copyPoint cfg env file (n + 1) =
      if len n < cfg.minSizeBytes then some (.waitSize file) else some (.latestFile file) := by
  have ha := (hnormal n _ h).resolve_left (by rintro ⟨o, ho⟩; cases ho)
  rw [copyPoint_succ h]
  revert ha
  cases (env n).2 with
  | size k => rintro (rfl : k = len n); rfl
  | _ => exact fun h => h.elim

/-- A growing file is waited for as long as it is below the minimum size. -/
lemma copyPoint_eq_waitSize (hnormal : NormalEnv cfg len env file)
    (hgrow : isFileCurrentlyGrowing ((env 0).1 file) = true) {n : ℕ}
    (hsmall : ∀ k, k ≤ n → len k < cfg.minSizeBytes) :
    copyPoint cfg env file (n + 1) = some (.waitSize file) := by
  induction n with
  | zero => rw [copyPoint_one hnormal, hgrow]; simp [hsmall 0 le_rfl]
  | succ n ih =>
    rw [copyPoint_waitSize hnormal (ih fun k hk => hsmall k (by omega)),
      if_pos (hsmall (n + 1) le_rfl)]

/-- **When `copy_file` ends.** With size checks and reads that return normally, and a size that is
constant from some point on, it ends exactly if the file does not count as growing or its size
reaches the minimum.

**Proof sketch.** A growing file that never reaches the minimum is waited for forever
(`copyPoint_eq_waitSize`). Otherwise the wait ends, and from there on `copyMeasure` decreases once
the size is constant. -/
theorem copyTerminates_iff (hnormal : NormalEnv cfg len env file)
    (hconst : ∃ N L, ∀ n, N ≤ n → len n = L) :
    CopyTerminates cfg env file ↔
      isFileCurrentlyGrowing ((env 0).1 file) = false ∨ ∃ n, cfg.minSizeBytes ≤ len n := by
  constructor
  · rintro ⟨n, o, hn⟩
    by_contra hnot
    simp only [not_or, Bool.not_eq_false, not_exists, Nat.not_le] at hnot
    cases n with
    | zero => cases hn
    | succ n =>
      rw [copyPoint_eq_waitSize hnormal hnot.1 fun k _ => hnot.2 k] at hn
      cases hn
  · intro h
    by_cases hgrow : isFileCurrentlyGrowing ((env 0).1 file) = true
    · have hmin : ∃ n, cfg.minSizeBytes ≤ len n := h.resolve_left (by simp [hgrow])
      have hfirst : copyPoint cfg env file (Nat.find hmin + 1) = some (.latestFile file) := by
        have hle := Nat.find_spec hmin
        have hbelow : ∀ k, k < Nat.find hmin → len k < cfg.minSizeBytes :=
          fun k hk => Nat.lt_of_not_le (Nat.find_min hmin hk)
        cases hf : Nat.find hmin with
        | zero =>
          rw [hf] at hle
          rw [copyPoint_one hnormal, if_neg (by simp [Nat.not_lt.mpr hle])]
        | succ n =>
          rw [hf] at hle hbelow
          rw [copyPoint_waitSize hnormal
            (copyPoint_eq_waitSize hnormal hgrow fun k hk => hbelow k (by omega)),
            if_neg (Nat.not_lt.mpr hle)]
      exact ends_of_pastWait hnormal hconst hfirst rfl
    · refine ends_of_pastWait hnormal hconst (n := 1) (p := .latestFile file) ?_ rfl
      rw [copyPoint_one hnormal, if_neg (by simp [hgrow])]

/-- **When the copy of a file that was declared ready ends.** A file is observed by any sequence of
observations the last of which recommends `READY`, queued, prepared, and given to `copy_file`. The
call ends exactly if that last observation found the file as it was first and last seen, or one of
the size checks of `copy_file` finds the minimum size. -/
theorem readyFile_copyTerminates_iff {f : TrackedFile} {obs : List Observation} {now size : ℕ}
    (hready : ReadyAfter cfg f obs now size)
    (hstart : (env 0).1 file = preparedRecord now (queuedRecord cfg f obs now size))
    (hnormal : NormalEnv cfg len env file) (hconst : ∃ N L, ∀ n, N ≤ n → len n = L) :
    CopyTerminates cfg env file ↔
      SeenUnchanged (obs.foldl (observe cfg) f) now size ∨ ∃ n, cfg.minSizeBytes ≤ len n := by
  rw [copyTerminates_iff hnormal hconst, hstart, isFileCurrentlyGrowing_preparedRecord,
    isFileCurrentlyGrowing_queuedRecord hready]

end Termination

/-! ## A file that grew and stayed small -/

section Small

/-- The record of a file at each of the awaits of `copy_file`, with one size for all of them. -/
def sameAnswer (f : TrackedFile) (size : ℕ) : CopyEnv := fun _ => (fun _ => f, .size size)

variable {cfg : Settings} {f : TrackedFile} {size : ℕ} {file : FileId}

/-- A file that stays too small is waited for again and again. -/
lemma copyPoint_sameAnswer (hgrow : isFileCurrentlyGrowing f = true)
    (hsmall : size < cfg.minSizeBytes) (n : ℕ) :
    copyPoint cfg (sameAnswer f size) file (n + 1) = some (.waitSize file) := by
  induction n with
  | zero => simp [copyPoint, sameAnswer, CopyPoint.resume, hgrow, hsmall]
  | succ n ih => rw [copyPoint_succ ih]; simp [sameAnswer, CopyPoint.resume, hsmall]

/-- The same small size is a normal answer every time. -/
lemma normalEnv_sameAnswer (hgrow : isFileCurrentlyGrowing f = true)
    (hsmall : size < cfg.minSizeBytes) :
    NormalEnv cfg (fun _ => size) (sameAnswer f size) file := by
  intro n p hp
  right
  cases n with
  | zero => cases hp; rfl
  | succ n =>
    rw [copyPoint_sameAnswer hgrow hsmall] at hp
    cases hp
    rfl

/-- A file of 10 MB grows to 20 MB and stops. -/
def grownFile : TrackedFile := .found "/src/a.mxf" (10 * 1024 * 1024) none 0

/-- The observations of that file: it is found, seen to grow, and seen to have stopped. -/
def grownObservations : List Observation :=
  [.checkFileGrowthStatus 0 (10 * 1024 * 1024),
    .checkFileGrowthStatus (seconds 5) (20 * 1024 * 1024),
    .checkFileGrowthStatus (seconds 10) (20 * 1024 * 1024)]

/-- Its record when it is given to `copy_file` after half a minute without growth. -/
def grownPrepared : TrackedFile :=
  preparedRecord (seconds 40)
    (queuedRecord {} grownFile grownObservations (seconds 40) (20 * 1024 * 1024))

/-- The file that grew was READY with 20 MB. -/
lemma readyAfter_grown :
    ReadyAfter {} grownFile grownObservations (seconds 40) (20 * 1024 * 1024) := by
  decide +kernel

/-- The file that grew is copied as a growing one. -/
lemma isFileCurrentlyGrowing_grown : isFileCurrentlyGrowing grownPrepared = true := by
  decide +kernel

/-- That file grows to 120 MB while `copy_file` waits for it; the destination directory cannot be
created then. -/
def growsOn : CopyEnv
  | 0 => (fun _ => grownPrepared, .size (20 * 1024 * 1024))
  | 1 => (fun _ => grownPrepared, .size (120 * 1024 * 1024))
  | 2 => (fun _ => grownPrepared, .found none)
  | _ => (fun _ => grownPrepared, .error { kind := .os, message := "No space left on device" })

@[inherit_doc growsOn]
def growsOnSize (n : ℕ) : ℕ := if n = 0 then 20 * 1024 * 1024 else 120 * 1024 * 1024

/-- A file that grows on is read with normal answers. -/
lemma normalEnv_growsOn : NormalEnv {} growsOnSize growsOn 0 := by
  have h1 : copyPoint {} growsOn 0 1 = some (.waitSize 0) := by
    simp [copyPoint, growsOn, CopyPoint.resume, isFileCurrentlyGrowing_grown, Settings.minSizeBytes]
  have h2 : copyPoint {} growsOn 0 2 = some (.latestFile 0) := by
    rw [copyPoint_succ h1]; simp [growsOn, CopyPoint.resume, Settings.minSizeBytes]
  have h3 : copyPoint {} growsOn 0 3 = some (.makedirs 0) := by rw [copyPoint_succ h2]; rfl
  have h4 : copyPoint {} growsOn 0 4 = some (.done (.returned false)) := by
    rw [copyPoint_succ h3]; rfl
  have h5 : ∀ n, copyPoint {} growsOn 0 (n + 5) = none := by
    intro n
    induction n with
    | zero => rw [copyPoint_succ h4]; rfl
    | succ n ih => rw [copyPoint, ih]; rfl
  intro n p hp
  rcases n with _ | _ | _ | _ | _ | n
  · cases hp; exact .inr rfl
  · rw [h1] at hp; cases hp; exact .inr rfl
  · rw [h2] at hp; cases hp; exact .inr trivial
  · rw [h3] at hp; cases hp; exact .inr trivial
  · rw [h4] at hp; cases hp; exact .inl ⟨_, rfl⟩
  · rw [h5] at hp; cases hp

/-- The copy of a file that goes on growing past the minimum size ends. -/
theorem readyFile_copyTerminates_growsOn : CopyTerminates {} growsOn 0 :=
  (readyFile_copyTerminates_iff readyAfter_grown rfl normalEnv_growsOn
    ⟨1, 120 * 1024 * 1024, fun n hn => if_neg (by omega)⟩).mpr (.inr ⟨1, by decide⟩)

/-- **A file that was declared ready may be waited for forever.** It grew from 10 MB to 20 MB, is
recommended as `READY` after half a minute without growth, and keeps its size; `copy_file` waits for
it to reach 100 MB. -/
theorem readyFile_waits_forever :
    ¬ ∀ (cfg : Settings) (len : ℕ → ℕ) (env : CopyEnv) (file : FileId) (f : TrackedFile)
        (obs : List Observation) (now size : ℕ),
      ReadyAfter cfg f obs now size →
      (env 0).1 file = preparedRecord now (queuedRecord cfg f obs now size) →
      NormalEnv cfg len env file → (∃ N L, ∀ n, N ≤ n → len n = L) →
      CopyTerminates cfg env file := by
  intro h
  obtain ⟨n, o, hn⟩ := h {} (fun _ => 20 * 1024 * 1024)
    (sameAnswer grownPrepared (20 * 1024 * 1024)) 0 grownFile grownObservations (seconds 40)
    (20 * 1024 * 1024) readyAfter_grown rfl
    (normalEnv_sameAnswer isFileCurrentlyGrowing_grown (by decide)) ⟨0, _, fun _ _ => rfl⟩
  cases n with
  | zero => cases hn
  | succ n =>
    rw [copyPoint_sameAnswer isFileCurrentlyGrowing_grown (by decide)] at hn
    cases hn

end Small

end FileAgent

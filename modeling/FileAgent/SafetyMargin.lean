import FileAgent.CopyStrategy
import FileAgent.Library.QuietStretch
import FileAgent.Library.Run

set_option relaxedAutoImplicit false
set_option autoImplicit false

/-!
# The safety margin

While a file grows, `_growing_copy_loop` keeps a distance from its end. Here the sizes that the loop
has observed are recorded beside the suspended copy. Everything else about the answers is left open,
except that a read returns at most as many bytes as it asked for.

## Main definitions

* `PolledCopy`, `polledStep` — the copy with the sizes observed.
* `MarginKept` — how far the copy may go, under which status it reports, and when it may pause.

## Main results

* `marginInv_step` — every step keeps the invariant.
* `safetyMargin_kept` — the margin is kept until the growth has ended, and then given up.
-/

namespace FileAgent

open Transition QuietStretch

/-- A suspended `copy_file`, and the sizes that the loop has observed so far. -/
structure PolledCopy where
  point : CopyPoint
  polls : List ℕ := []

/-- The operation awaited is answered; `heap` holds the records as they are then. -/
structure PolledAction where
  heap : FileId → TrackedFile
  answer : CopyAnswer

/-- The size a step observes. -/
def CopyPoint.polled : CopyPoint → CopyAnswer → List ℕ
  | .loopSize _, .size n => [n]
  | _, _ => []

/-- One step. -/
def polledStep (cfg : Settings) (w : PolledCopy) (a : PolledAction) : Option PolledCopy :=
  if w.point.readFits cfg a.answer then
    (w.point.resume cfg a.heap a.answer).map fun p =>
      { point := p, polls := w.polls ++ w.point.polled a.answer }
  else none

/-- The file is classified as growing when the copy begins. -/
def ClassifiedGrowing (w : PolledCopy) (a : PolledAction) : Prop :=
  match w.point with
  | .makedirs file => isFileCurrentlyGrowing (a.heap file) = true
  | _ => True

instance (w : PolledCopy) (a : PolledAction) : Decidable (ClassifiedGrowing w a) := by
  unfold ClassifiedGrowing
  split <;> infer_instance

/-- `max_no_growth_cycles`. -/
def Settings.maxNoGrowthCycles (cfg : Settings) : ℕ :=
  cfg.growingFileGrowthTimeoutSeconds / cfg.growingFilePollIntervalSeconds

/-- `safety_margin_bytes`. -/
def Settings.growingFileSafetyMarginBytes (cfg : Settings) : ℕ :=
  cfg.growingFileSafetyMarginMb * 1024 * 1024

/-- The growth has ended: `max_no_growth_cycles` polls in a row were no increase. -/
def GrowthEnded (cfg : Settings) (polls : List ℕ) : Prop := Settled 0 cfg.maxNoGrowthCycles polls

/-- What the loop may do after it has observed `size`. Until the growth has ended it writes nothing
within the margin of `size`, and reports `GROWING_COPY`. From then on the range it copies ends at
`size`, it reports `COPYING`, and does not sleep. -/
structure MarginKept (cfg : Settings) (destPath : String) (w : PolledCopy) (size : ℕ) : Prop where
  margin : ¬ GrowthEnded cfg w.polls → ∀ v r chunk, w.point = .write v r chunk →
    r.bytesCopied + chunk.length + cfg.growingFileSafetyMarginBytes ≤ size
  growing : ¬ GrowthEnded cfg w.polls → ∀ id st kwargs,
    w.point.request cfg destPath = .updateFileStatusById id st kwargs →
      st = .growingCopy ∨ st = .completed
  range : GrowthEnded cfg w.polls → ∀ v r chunk, w.point = .write v r chunk →
    r.bytesCopied + r.bytesToCopy = size
  copying : GrowthEnded cfg w.polls → ∀ id st kwargs,
    w.point.request cfg destPath = .updateFileStatusById id st kwargs →
      st = .copying ∨ st = .completed
  noPause : GrowthEnded cfg w.polls → w.point.request cfg destPath ≠ .sleep

/-! ## The invariant -/

/-- What the locals of the loop say about the sizes observed. -/
structure LoopInv (cfg : Settings) (polls : List ℕ) (v : LoopVars) : Prop where
  cycles : v.maxNoGrowthCycles = cfg.maxNoGrowthCycles
  margin : v.safetyMarginBytes = cfg.growingFileSafetyMarginBytes
  counting : v.fileFinishedGrowing = false → QuietFor 0 v.noGrowthCycles polls ∧
    v.lastFileSize = observed 0 polls polls.length ∧ v.noGrowthCycles < cfg.maxNoGrowthCycles
  ended : v.fileFinishedGrowing = true ↔ GrowthEnded cfg polls

/-- What the locals of `_copy_chunk_range` say about them. -/
structure RangeInv (polls : List ℕ) (v : LoopVars) (r : RangeVars) : Prop where
  polled : polls.getLast? = some r.currentFileSize
  range : r.bytesCopied + r.bytesToCopy = v.safeCopyTo r.currentFileSize
  noPause : v.fileFinishedGrowing = true → r.pauseMs = 0

/-- The invariant, point by point. -/
def MarginInv (cfg : Settings) (polls : List ℕ) : CopyPoint → Prop
  | .initialSize _ | .waitSize _ | .latestFile _ | .makedirs _ => polls = []
  | .openDest v | .getRecord v | .loopSize v => LoopInv cfg polls v
  | .sleep v | .growthUpdate v _ => LoopInv cfg polls v ∧ v.fileFinishedGrowing = false
  | .openSource v r | .read v r | .connectivity v r | .progress v r _ =>
    LoopInv cfg polls v ∧ RangeInv polls v r
  | .pause v r => LoopInv cfg polls v ∧ RangeInv polls v r ∧ 0 < r.pauseMs
  | .write v r chunk =>
    LoopInv cfg polls v ∧ RangeInv polls v r ∧ chunk ≠ [] ∧ chunk.length ≤ r.bytesToCopy
  | .closeDest .. | .verifySource _ | .verifyDest .. | .removeSource _ | .markCompleted _
  | .done _ => True

section Locals

variable {cfg : Settings} {polls : List ℕ} {v : LoopVars} {r : RangeVars} {n : ℕ}

/-- The locals a growing file starts with. -/
lemma loopInv_start (hcycles : 1 ≤ cfg.maxNoGrowthCycles) (file : FileId) :
    LoopInv cfg [] (.start cfg true file) := by
  have hnot : ¬ GrowthEnded cfg [] := by
    rintro ⟨i, hi, -⟩
    exact absurd (hcycles.trans (le_of_add_le_right hi)) (by simp)
  have hstart : (LoopVars.start cfg true file).fileFinishedGrowing = false :=
    decide_eq_false (not_le.mpr hcycles)
  refine ⟨rfl, rfl, fun _ => ⟨quietFor_nil, rfl, hcycles⟩, ?_⟩
  rw [hstart]
  exact iff_of_false Bool.false_ne_true hnot

/-- The size observed last is no more than one that follows. -/
lemma observed_le_of_pairwise (hmono : (polls ++ [n]).Pairwise (· ≤ ·)) :
    observed 0 polls polls.length ≤ n := by
  cases hlast : polls.getLast? with
  | none =>
    rw [List.getLast?_eq_none_iff] at hlast
    subst hlast
    exact Nat.zero_le n
  | some m =>
    rw [observed_length_of_getLast? hlast]
    exact (List.pairwise_append.mp hmono).2.2 m (List.mem_of_getLast? hlast) n (by simp)

/-- **The growth detection of a round.**

**Proof sketch.** Until the growth has ended `no_growth_cycles` counts the polls at the end that
were no increase, and `last_file_size` is the size observed last, since the sizes do not
decrease. -/
lemma loopInv_observe (h : LoopInv cfg polls v) (hmono : (polls ++ [n]).Pairwise (· ≤ ·)) :
    LoopInv cfg (polls ++ [n]) (v.observe n) := by
  cases hf : v.fileFinishedGrowing with
  | true =>
    have hsame : v.observe n = v := if_pos hf
    rw [hsame]
    refine ⟨h.cycles, h.margin, fun hno => ?_, ?_⟩
    · rw [hf] at hno
      cases hno
    · exact iff_of_true hf (settled_concat (h.ended.mp hf))
  | false =>
    obtain ⟨hquiet, hlast, hbelow⟩ := h.counting hf
    have hnot : ¬ GrowthEnded cfg polls := by
      rw [← h.ended, hf]
      exact Bool.false_ne_true
    have hlen : (polls ++ [n]).length = polls.length + 1 := by simp
    by_cases hgrew : v.lastFileSize < n
    · have hobserve : v.observe n = { v with noGrowthCycles := 0, lastFileSize := n } := by
        simp [LoopVars.observe, hf, hgrew]
      have hcount : QuietFor 0 0 (polls ++ [n]) := quietFor_zero (hlast ▸ hgrew)
      rw [hobserve]
      refine ⟨h.cycles, h.margin, fun _ => ⟨hcount, ?_, Nat.zero_lt_of_lt hbelow⟩, ?_⟩
      · rw [hlen, observed_concat_last]
      · dsimp only
        rw [hf]
        exact iff_of_false Bool.false_ne_true
          (not_settled_concat hnot hcount (Nat.zero_lt_of_lt hbelow))
    · have hobserve : v.observe n = { v with
          noGrowthCycles := v.noGrowthCycles + 1
          fileFinishedGrowing := v.maxNoGrowthCycles ≤ v.noGrowthCycles + 1 } := by
        simp [LoopVars.observe, hf, hgrew]
      have hle : n ≤ observed 0 polls polls.length := hlast ▸ not_lt.mp hgrew
      have hcount : QuietFor 0 (v.noGrowthCycles + 1) (polls ++ [n]) := quietFor_succ hquiet hle
      rw [hobserve, h.cycles]
      refine ⟨rfl, h.margin, fun hno => ⟨hcount, ?_, ?_⟩, ?_⟩
      · rw [hlen, observed_concat_last]
        exact hlast.trans (le_antisymm (observed_le_of_pairwise hmono) hle)
      · exact not_le.mp (of_decide_eq_false hno)
      · dsimp only
        rw [decide_eq_true_eq]
        constructor
        · exact settled_of_quietFor hcount
        · intro hended
          by_contra hlt
          exact not_settled_concat hnot hcount (not_le.mp hlt) hended

/-- The invariant does not depend on `bytes_copied`. -/
lemma LoopInv.setBytesCopied (h : LoopInv cfg polls v) (k : ℕ) :
    LoopInv cfg polls { v with bytesCopied := k } :=
  ⟨h.cycles, h.margin, h.counting, h.ended⟩

/-- The end of a round. -/
lemma marginInv_loopEnd (h : LoopInv cfg polls v) (n : ℕ) :
    MarginInv cfg polls (CopyPoint.loopEnd v n) := by
  rcases CopyPoint.loopEnd_cases v n with ⟨hp, -⟩ | ⟨hp, hf⟩ | ⟨hp, -⟩ <;> rw [hp]
  · trivial
  · exact ⟨h, hf⟩
  · exact h

/-- The head of the loop over a range. -/
lemma marginInv_rangeHead (h : LoopInv cfg polls v) (hr : RangeInv polls v r) :
    MarginInv cfg polls (CopyPoint.rangeHead v r) := by
  rcases CopyPoint.rangeHead_cases v r with ⟨hp, -⟩ | ⟨hp, -⟩ <;> rw [hp]
  · exact ⟨h, hr⟩
  · exact marginInv_loopEnd (h.setBytesCopied _) _

/-- A round, from its size check on. -/
lemma marginInv_loopRound (h : LoopInv cfg (polls ++ [n]) (v.observe n)) :
    MarginInv cfg (polls ++ [n]) (CopyPoint.loopRound v n) := by
  unfold CopyPoint.loopRound
  dsimp only
  split
  · rename_i hlt
    refine ⟨h, ⟨by simp, Nat.add_sub_of_le hlt.le, fun hf => ?_⟩⟩
    simp [LoopVars.usePause, hf]
  · split
    · rename_i hf
      exact ⟨h, by simpa using hf⟩
    · exact marginInv_loopEnd h n

/-- A chunk that fits moves the range on. -/
lemma RangeInv.wrote (hr : RangeInv polls v r) {chunk : List UInt8}
    (hfits : chunk.length ≤ r.bytesToCopy) : RangeInv polls v (CopyPoint.wrote r chunk) := by
  refine ⟨hr.polled, ?_, hr.noPause⟩
  have hrange := hr.range
  simp only [CopyPoint.wrote]
  omega

end Locals

section Steps

variable {cfg : Settings} {w w' : PolledCopy} {a : PolledAction} {destPath : String}

/-- A step: the point goes on, and the size it observed is recorded. -/
lemma polledStep_cases (h : polledStep cfg w a = some w') :
    w.point.readFits cfg a.answer = true ∧
      w.point.resume cfg a.heap a.answer = some w'.point ∧
      w'.polls = w.polls ++ w.point.polled a.answer := by
  unfold polledStep at h
  split at h
  · rename_i hfits
    obtain ⟨p, hp, rfl⟩ := Option.map_eq_some_iff.mp h
    exact ⟨hfits, hp, rfl⟩
  · cases h

/-- **Every step keeps the invariant.**

**Proof sketch.** By cases on the step, as `next_of_resume` lists them. Only the size check of the
loop observes a size, so at all other steps the list of sizes stays the same and the invariant
moves on with its point; the head of a range, the end of the loop and a round of it have lemmas of
their own. -/
lemma marginInv_step (hcycles : 1 ≤ cfg.maxNoGrowthCycles) (h : MarginInv cfg w.polls w.point)
    (hgrowing : ClassifiedGrowing w a) (hs : polledStep cfg w a = some w')
    (hmono : w'.polls.Pairwise (· ≤ ·)) : MarginInv cfg w'.polls w'.point := by
  obtain ⟨hfits, hp, hpolls⟩ := polledStep_cases hs
  obtain ⟨heap, answer⟩ := a
  obtain ⟨point, polls⟩ := w
  obtain ⟨p', polls'⟩ := w'
  dsimp only at h hfits hp hpolls hmono ⊢
  subst hpolls
  -- only the size check of the loop observes a size
  have hsame : ∀ q : CopyPoint, q.polled answer = [] → polls ++ q.polled answer = polls :=
    fun q hq => by rw [hq, List.append_nil]
  cases CopyPoint.next_of_resume hp with
  | sized v n => exact marginInv_loopRound (loopInv_observe h hmono)
  | started file =>
    rw [hsame _ rfl, show polls = [] from h,
      show isFileCurrentlyGrowing (heap file) = true from hgrowing]
    exact loopInv_start hcycles file
  | polled hfrom hto =>
    rcases hfrom with rfl | rfl <;> rcases hto with rfl | rfl <;> exact (hsame _ rfl).trans h
  | openedSource v r =>
    rw [hsame _ rfl]
    exact marginInv_rangeHead h.1 h.2
  | readNothing v r =>
    rw [hsame _ rfl]
    exact marginInv_loopEnd (h.1.setBytesCopied _) _
  | readChunk v r chunk hchunk =>
    rw [hsame _ rfl]
    exact ⟨h.1, h.2, hchunk, (of_decide_eq_true hfits).trans (min_le_right _ _)⟩
  | wroteChunk v r chunk =>
    rw [hsame _ rfl]
    exact ⟨h.1, h.2.1.wrote h.2.2.2⟩
  | pausing v r speed hpause =>
    rw [hsame _ rfl]
    exact ⟨h.1, h.2, hpause⟩
  | reported v r =>
    rw [hsame _ rfl]
    exact marginInv_rangeHead h.1 h.2
  | paused v r =>
    rw [hsame _ rfl]
    exact marginInv_rangeHead h.1 h.2.1
  | updated v n =>
    rw [hsame _ rfl]
    exact marginInv_loopEnd h.1 n
  | slept v =>
    rw [hsame _ rfl]
    exact h.1
  | found => exact (hsame _ rfl).trans h
  | opened | recorded | connected =>
    rw [hsame _ rfl]
    exact h
  | _ => trivial

/-- What the invariant says about the operation awaited.

**Proof sketch.** The invariant at the point awaited says how far its range goes: up to the margin
before the size seen last while the growth has not ended, and up to the size itself afterwards. A
write ends within its range, and the status written and the pause follow the same flag. -/
lemma marginKept_of_inv {size : ℕ} (h : MarginInv cfg w.polls w.point)
    (hsize : w.polls.getLast? = some size) : MarginKept cfg destPath w size := by
  have hnil : w.polls ≠ [] := by
    rintro hnil
    rw [hnil] at hsize
    cases hsize
  have hrange : ∀ {v : LoopVars} {r : RangeVars}, RangeInv w.polls v r →
      r.bytesCopied + r.bytesToCopy = v.safeCopyTo size := by
    intro v r hr
    rw [hr.range, Option.some.inj (hr.polled.symm.trans hsize)]
  constructor
  · intro hnot v r chunk hpt
    rw [hpt] at h
    obtain ⟨hloop, hr, hchunk, hfits⟩ := h
    have hf : v.fileFinishedGrowing = false := by
      rw [← Bool.not_eq_true, hloop.ended]
      exact hnot
    have hsum := hrange hr
    have hpos : 0 < chunk.length := List.length_pos_iff.mpr hchunk
    rw [LoopVars.safeCopyTo, hf, hloop.margin] at hsum
    simp only [Bool.false_eq_true, if_false] at hsum
    omega
  · intro hnot id st kwargs hreq
    cases hpt : w.point with
    | progress v r speed =>
      rw [hpt] at h hreq
      have hf : v.fileFinishedGrowing = false := by
        rw [← Bool.not_eq_true, h.1.ended]
        exact hnot
      cases hreq
      exact .inl (by rw [LoopVars.copyStatus, hf]; rfl)
    | growthUpdate v n => rw [hpt] at hreq; cases hreq; exact .inl rfl
    | markCompleted file => rw [hpt] at hreq; cases hreq; exact .inr rfl
    | _ => rw [hpt] at hreq; cases hreq
  · intro hended v r chunk hpt
    rw [hpt] at h
    obtain ⟨hloop, hr, -, -⟩ := h
    rw [hrange hr, LoopVars.safeCopyTo, if_pos (hloop.ended.mpr hended)]
  · intro hended id st kwargs hreq
    cases hpt : w.point with
    | progress v r speed =>
      rw [hpt] at h hreq
      cases hreq
      exact .inl (if_pos (h.1.ended.mpr hended))
    | growthUpdate v n =>
      rw [hpt] at h
      exact absurd ((h.1.ended.mpr hended).symm.trans h.2) Bool.true_eq_false.mp
    | markCompleted file => rw [hpt] at hreq; cases hreq; exact .inr rfl
    | _ => rw [hpt] at hreq; cases hreq
  · intro hended hreq
    cases hpt : w.point with
    | pause v r =>
      rw [hpt] at h
      obtain ⟨hloop, hr, hpos⟩ := h
      rw [hr.noPause (hloop.ended.mpr hended)] at hpos
      exact absurd hpos (Nat.lt_irrefl 0)
    | sleep v =>
      rw [hpt] at h
      exact absurd ((h.1.ended.mpr hended).symm.trans h.2) Bool.true_eq_false.mp
    | _ => rw [hpt] at hreq; cases hreq

/-- **The safety margin is kept**: in every state of the copy of a growing file whose observed sizes
do not decrease, after the loop has observed `size`.

**Proof sketch.** `MarginInv` is an invariant (`marginInv_step`), and says all of it about the point
that is reached (`marginKept_of_inv`). -/
theorem safetyMargin_kept (hpoll : 0 < cfg.growingFilePollIntervalSeconds)
    (htimeout : cfg.growingFilePollIntervalSeconds ≤ cfg.growingFileGrowthTimeoutSeconds)
    {file : FileId} {tr : List (PolledCopy × PolledAction)}
    (hrun : Run (polledStep cfg) { point := .initialSize file } tr w)
    (hgrowing : Meets ClassifiedGrowing tr) (hmono : w.polls.Pairwise (· ≤ ·)) {size : ℕ}
    (hsize : w.polls.getLast? = some size) : MarginKept cfg destPath w size := by
  have hcycles : 1 ≤ cfg.maxNoGrowthCycles := (Nat.one_le_div_iff hpoll).mpr htimeout
  have hstart : MarginInv cfg [] (.initialSize file) := rfl
  have hinv : w.polls.Pairwise (· ≤ ·) → MarginInv cfg w.polls w.point := by
    refine hrun.invariant (I := fun w => w.polls.Pairwise (· ≤ ·) → MarginInv cfg w.polls w.point)
      hgrowing (fun _ => hstart) ?_
    intro w a w' h hok hs hmono'
    obtain ⟨-, -, hpolls⟩ := polledStep_cases hs
    have hbefore : w.polls.Pairwise (· ≤ ·) := by
      rw [hpolls] at hmono'
      exact (List.pairwise_append.mp hmono').1
    exact marginInv_step hcycles (h hbefore) hok hs hmono'
  exact marginKept_of_inv (hinv hmono) hsize

end Steps

/-- The growth has ended when two polls are no increase. -/
def twoCycles : Settings := { growingFileGrowthTimeoutSeconds := 10 }

/-- The answers to the copy of a file of 200 megabytes that has stopped growing: the first byte is
written, two polls find the same size, and the source is read again. -/
def stoppedFile : List PolledAction :=
  [.size 209715200, .found none, .done, .done, .stored true, .size 209715200, .done, .data [1],
    .done, .connected 8, .done, .data [], .done, .stored true, .size 209715200, .done, .data [],
    .done, .stored true, .size 209715200, .done, .data [2]].map fun answer =>
      { heap := fun _ => { filePath := "/src/a.mxf", status := .growing, discoveredAt := 0 }
        answer := answer }

/-- The first byte is written while the margin is kept, the second one when the growth has ended:
the range then ends at the end of the file. -/
theorem safetyMargin_kept_stoppedFile :
    ∃ w₁ w₂,
      Run (polledStep twoCycles) { point := .initialSize 0 }
        (traceOf (polledStep twoCycles) { point := .initialSize 0 } (stoppedFile.take 8)) w₁ ∧
      w₁.point.request twoCycles "/dst/a.mxf" = .write [1] ∧ w₁.polls = [209715200] ∧
      MarginKept twoCycles "/dst/a.mxf" w₁ 209715200 ∧
      Run (polledStep twoCycles) { point := .initialSize 0 }
        (traceOf (polledStep twoCycles) { point := .initialSize 0 } stoppedFile) w₂ ∧
      w₂.point.request twoCycles "/dst/a.mxf" = .write [2] ∧ GrowthEnded twoCycles w₂.polls ∧
      MarginKept twoCycles "/dst/a.mxf" w₂ 209715200 := by
  obtain ⟨w₁, hrun₁, hw₁⟩ := exists_run_of_replay (polledStep twoCycles) { point := .initialSize 0 }
    (stoppedFile.take 8)
    (fun w => decide (w.polls = [209715200]) && match w.point.request twoCycles "/dst/a.mxf" with
      | .write chunk => chunk = [1]
      | _ => false) (by decide +kernel)
  obtain ⟨w₂, hrun₂, hw₂⟩ := exists_run_of_replay (polledStep twoCycles) { point := .initialSize 0 }
    stoppedFile
    (fun w => decide (w.polls = [209715200, 209715200, 209715200]) &&
      match w.point.request twoCycles "/dst/a.mxf" with
      | .write chunk => chunk = [2]
      | _ => false) (by decide +kernel)
  have hwrite : ∀ {w : PolledCopy} {data : List UInt8},
      (match w.point.request twoCycles "/dst/a.mxf" with
        | .write chunk => decide (chunk = data)
        | _ => false) = true → w.point.request twoCycles "/dst/a.mxf" = .write data := by
    intro w data h
    split at h
    · next hreq => rw [hreq, of_decide_eq_true h]
    · cases h
  obtain ⟨hpolls₁, hreq₁⟩ := Bool.and_eq_true_iff.mp hw₁
  obtain ⟨hpolls₂, hreq₂⟩ := Bool.and_eq_true_iff.mp hw₂
  have hpolls₁ := of_decide_eq_true hpolls₁
  have hpolls₂ := of_decide_eq_true hpolls₂
  have hended : GrowthEnded twoCycles w₂.polls := by
    rw [hpolls₂]
    exact ⟨1, by decide, by decide⟩
  refine ⟨w₁, w₂, hrun₁, hwrite hreq₁, hpolls₁, ?_, hrun₂, hwrite hreq₂, hended, ?_⟩
  · exact safetyMargin_kept (by decide) (by decide) hrun₁ (by decide +kernel)
      (by rw [hpolls₁]; exact List.pairwise_singleton _ _) (by rw [hpolls₁]; rfl)
  · exact safetyMargin_kept (by decide) (by decide) hrun₂ (by decide +kernel)
      (by rw [hpolls₂]; decide) (by rw [hpolls₂]; rfl)

end FileAgent

import FileAgent.CopyIntegrity
import FileAgent.CopyTermination
import FileAgent.SafetyMargin

set_option relaxedAutoImplicit false
set_option autoImplicit false

/-!
# The end of the copy loop

`_growing_copy_loop` from its first size check to its return, when nothing fails: the record stays
stored, size checks, reads, writes and connectivity checks succeed, and a read returns at least one
byte whenever the bytes it asks for exist. The sizes observed are any sequence that does not
decrease and is constant from some iteration on. Nothing is assumed about the chunk size, the safety
margin, the bound on cycles without growth, or how many of them the loop starts with.

## Main definitions

* `LoopVars.enter`, `loopAt` — the loop as it is called, and after some answers.
* `LoopAnswer`, `LoopEnv` — the answers that are no failures.
* `LoopReturns` — the loop returns a number of bytes, after having observed some sizes.

## Main results

* `loopWithin_resume` — an answer leads on within the loop, or makes it return the size observed
  last.
* `loopRank_lt` — every step within the loop decreases the rank.
* `copyLoop_ends` — the loop ends, with `bytes_copied` equal to the size of its last iteration.
-/

namespace FileAgent

open Transition

/-! ## The loop -/

/-- The locals `_growing_copy_loop` is called with, before anything is copied. -/
def LoopVars.enter (file : FileId)
    (noGrowthCycles maxNoGrowthCycles safetyMarginBytes pauseMs : ℕ) : LoopVars :=
  { file := file
    bytesCopied := 0
    lastFileSize := 0
    noGrowthCycles := noGrowthCycles
    maxNoGrowthCycles := maxNoGrowthCycles
    safetyMarginBytes := safetyMarginBytes
    pauseMs := pauseMs
    fileFinishedGrowing := maxNoGrowthCycles ≤ noGrowthCycles }

/-- `_copy_growing_file` calls the loop for a growing file. -/
lemma LoopVars.start_growing (cfg : Settings) (file : FileId) :
    LoopVars.start cfg true file = .enter file 0 cfg.maxNoGrowthCycles
      cfg.growingFileSafetyMarginBytes cfg.growingCopyPauseMs := rfl

/-- `_copy_growing_file` calls the loop for a static file. -/
lemma LoopVars.start_static (cfg : Settings) (file : FileId) :
    LoopVars.start cfg false file =
      .enter file cfg.maxNoGrowthCycles cfg.maxNoGrowthCycles 0 0 := rfl

/-- The loop after `n` answers, with the sizes it has observed, one in each iteration. -/
def loopAt (cfg : Settings) (env : ℕ → PolledAction) (v : LoopVars) : ℕ → Option PolledCopy
  | 0 => some { point := .getRecord v }
  | n + 1 => (loopAt cfg env v n).bind fun w =>
    (w.point.resume cfg (env n).heap (env n).answer).map fun p =>
      { point := p, polls := w.polls ++ w.point.polled (env n).answer }

/-- An answer that is no failure, when a size check finds `size`. A read that asks for bytes that
exist returns some of them: the source has at least the size of this iteration. -/
def LoopAnswer (chunkSize size : ℕ) : CopyPoint → CopyAnswer → Prop
  | .getRecord _, .stored present => present = true
  | .loopSize _, .size n => n = size
  | .read _ r, .data chunk => chunk.length ≤ min chunkSize r.bytesToCopy ∧
      (0 < min chunkSize r.bytesToCopy → r.bytesCopied < r.currentFileSize → chunk ≠ [])
  | .connectivity _ _, .connected _ => True
  | .openSource _ _, .done | .write _ _ _, .done | .progress _ _ _, .done | .pause _ _, .done
  | .growthUpdate _ _, .done | .sleep _, .done => True
  | _, _ => False

/-- As long as the loop runs nothing fails; `sizes i` is the size its `i`-th iteration observes. -/
def LoopEnv (cfg : Settings) (chunkSize : ℕ) (sizes : ℕ → ℕ) (env : ℕ → PolledAction)
    (v : LoopVars) : Prop :=
  ∀ n w, loopAt cfg env v n = some w → w.point.bytesCopied? ≠ none →
    LoopAnswer chunkSize (sizes w.polls.length) w.point (env n).answer

/-- The answer number `n` makes the loop return `bytesCopied`, after having observed `polls`. -/
def LoopReturns (cfg : Settings) (env : ℕ → PolledAction) (v : LoopVars) (n bytesCopied : ℕ)
    (polls : List ℕ) : Prop :=
  ∃ w, loopAt cfg env v n = some w ∧ w.point.bytesCopied? = some bytesCopied ∧
    loopAt cfg env v (n + 1) = some { point := .closeDest v.file none, polls := polls }

/-! ## What holds within the loop -/

/-- What `_copy_chunk_range` works on: it stays within the size of this iteration. -/
structure RangeWithin (polls : List ℕ) (r : RangeVars) : Prop where
  polled : polls.getLast? = some r.currentFileSize
  range : r.bytesCopied + r.bytesToCopy ≤ r.currentFileSize

/-- What holds within the loop, point by point. -/
def LoopWithin (polls : List ℕ) : CopyPoint → Prop
  | .getRecord v | .loopSize v | .sleep v => v.bytesCopied ≤ polls.getLast?.getD 0
  | .growthUpdate v n => polls.getLast? = some n ∧ v.bytesCopied ≤ n
  | .openSource _ r | .connectivity _ r | .progress _ r _ | .pause _ r => RangeWithin polls r
  | .read _ r => RangeWithin polls r ∧ 0 < r.bytesToCopy
  | .write _ r chunk => RangeWithin polls r ∧ chunk.length ≤ r.bytesToCopy
  | _ => False

/-- The next point is within the loop, or the loop returns `bytesCopied`, the size observed last. -/
def WithinOrReturns (polls : List ℕ) (file : FileId) (bytesCopied : ℕ) (p : CopyPoint) : Prop :=
  LoopWithin polls p ∧ p.file? = some file ∨
    p = .closeDest file none ∧ polls.getLast? = some bytesCopied

section Within

variable {polls : List ℕ} {v : LoopVars} {r : RangeVars} {n : ℕ}

/-- The end of an iteration. -/
lemma loopWithin_loopEnd (hlast : polls.getLast? = some n) (hle : v.bytesCopied ≤ n) :
    WithinOrReturns polls v.file v.bytesCopied (CopyPoint.loopEnd v n) := by
  have hwithin : v.bytesCopied ≤ polls.getLast?.getD 0 := by rwa [hlast, Option.getD_some]
  unfold CopyPoint.loopEnd
  split_ifs with hdone hgrowing
  · simp only [Bool.and_eq_true, decide_eq_true_eq] at hdone
    exact .inr ⟨rfl, by rw [hlast, le_antisymm hle hdone.2]⟩
  · exact .inl ⟨hwithin, rfl⟩
  · exact .inl ⟨hwithin, rfl⟩

/-- The head of the loop over a range. -/
lemma loopWithin_rangeHead (h : RangeWithin polls r) :
    WithinOrReturns polls v.file r.bytesCopied (CopyPoint.rangeHead v r) := by
  rcases CopyPoint.rangeHead_cases v r with ⟨hp, hpos⟩ | ⟨hp, -⟩ <;> rw [hp]
  · exact .inl ⟨⟨h, hpos⟩, rfl⟩
  · have hle : r.bytesCopied ≤ r.currentFileSize := le_of_add_le_left h.range
    exact loopWithin_loopEnd (v := { v with bytesCopied := r.bytesCopied }) h.polled hle

/-- An iteration copies at most up to the size it observes. -/
lemma safeCopyTo_le (v : LoopVars) (n : ℕ) : v.safeCopyTo n ≤ n := by
  unfold LoopVars.safeCopyTo
  split_ifs
  · exact le_rfl
  · exact Nat.sub_le _ _

/-- An iteration, from its size check on. -/
lemma loopWithin_loopRound (hlast : polls.getLast? = some n) (hle : v.bytesCopied ≤ n) :
    WithinOrReturns polls v.file v.bytesCopied (CopyPoint.loopRound v n) := by
  have hfile := CopyPoint.observe_file v n
  have hbytes := CopyPoint.observe_bytesCopied v n
  rw [← hbytes] at hle ⊢
  rw [← hfile]
  unfold CopyPoint.loopRound
  dsimp only
  split
  · refine .inl ⟨⟨hlast, ?_⟩, rfl⟩
    have hto := safeCopyTo_le (v.observe n) n
    dsimp only
    omega
  · split
    · exact .inl ⟨⟨hlast, hle⟩, rfl⟩
    · exact loopWithin_loopEnd hlast hle

/-- A chunk that fits moves the range on. -/
lemma RangeWithin.wrote (h : RangeWithin polls r) {chunk : List UInt8}
    (hfits : chunk.length ≤ r.bytesToCopy) : RangeWithin polls (CopyPoint.wrote r chunk) := by
  refine ⟨h.polled, ?_⟩
  have hrange := h.range
  simp only [CopyPoint.wrote]
  omega

/-- **What an answer that is no failure leads to**: a point within the loop, or a return of the size
observed last.

**Proof sketch.** By cases on the point. Only the size check observes a size, and a round of the
loop begins with it; at every other point the sizes seen stay the same. A read returns some bytes,
since the range ends before the end of the file; the head of a range and the end of the loop are
taken over from `loopWithin_rangeHead` and `loopWithin_loopEnd`. -/
lemma loopWithin_resume (cfg : Settings) (heap : FileId → TrackedFile) {chunkSize size : ℕ}
    {p : CopyPoint} {a : CopyAnswer} {file : FileId} {b : ℕ} (hchunk : 1 ≤ chunkSize)
    (h : LoopWithin polls p) (hfile : p.file? = some file) (hb : p.bytesCopied? = some b)
    (hsize : polls.getLast?.getD 0 ≤ size) (ha : LoopAnswer chunkSize size p a) :
    ∃ p', p.resume cfg heap a = some p' ∧ WithinOrReturns (polls ++ p.polled a) file b p' := by
  -- only the size check observes a size
  have hsame : ∀ {p' : CopyPoint}, p.polled a = [] → WithinOrReturns polls file b p' →
      WithinOrReturns (polls ++ p.polled a) file b p' := by
    intro p' hnil h'
    rwa [hnil, List.append_nil]
  cases p with
  | getRecord v =>
    cases a with
    | stored present =>
      obtain rfl : present = true := ha
      exact ⟨_, rfl, hsame rfl (.inl ⟨h, hfile⟩)⟩
    | _ => exact ha.elim
  | loopSize v =>
    cases a with
    | size n =>
      obtain rfl : n = size := ha
      cases hfile
      cases hb
      exact ⟨_, rfl, loopWithin_loopRound (by simp [CopyPoint.polled]) (h.trans hsize)⟩
    | _ => exact ha.elim
  | openSource v r =>
    cases a with
    | done =>
      cases hfile
      cases hb
      exact ⟨_, rfl, hsame rfl (loopWithin_rangeHead h)⟩
    | _ => exact ha.elim
  | read v r =>
    cases a with
    | data chunk =>
      obtain ⟨hrange, hpos⟩ := h
      obtain ⟨hfits, hsome⟩ := ha
      have hexist : r.bytesCopied < r.currentFileSize := by
        have hle := hrange.range
        omega
      have hne : chunk ≠ [] := hsome (lt_min hchunk hpos) hexist
      exact ⟨_, congrArg some (if_neg hne),
        hsame rfl (.inl ⟨⟨hrange, hfits.trans (min_le_right _ _)⟩, hfile⟩)⟩
    | _ => exact ha.elim
  | write v r chunk =>
    cases a with
    | done => exact ⟨_, rfl, hsame rfl (.inl ⟨h.1.wrote h.2, hfile⟩)⟩
    | _ => exact ha.elim
  | connectivity v r =>
    cases a with
    | connected q => exact ⟨_, rfl, hsame rfl (.inl ⟨h, hfile⟩)⟩
    | _ => exact ha.elim
  | progress v r q =>
    cases a with
    | done =>
      by_cases hpause : 0 < r.pauseMs
      · exact ⟨_, congrArg some (if_pos hpause), hsame rfl (.inl ⟨h, hfile⟩)⟩
      · cases hfile
        cases hb
        exact ⟨_, congrArg some (if_neg hpause), hsame rfl (loopWithin_rangeHead h)⟩
    | _ => exact ha.elim
  | pause v r =>
    cases a with
    | done =>
      cases hfile
      cases hb
      exact ⟨_, rfl, hsame rfl (loopWithin_rangeHead h)⟩
    | _ => exact ha.elim
  | growthUpdate v n =>
    cases a with
    | done =>
      cases hfile
      cases hb
      exact ⟨_, rfl, hsame rfl (loopWithin_loopEnd h.1 h.2)⟩
    | _ => exact ha.elim
  | sleep v =>
    cases a with
    | done => exact ⟨_, rfl, hsame rfl (.inl ⟨h, hfile⟩)⟩
    | _ => exact ha.elim
  | _ => exact h.elim

/-- Within the loop nothing depends on the settings. -/
lemma resume_congr {p : CopyPoint} (h : LoopWithin polls p) (cfg cfg' : Settings)
    (heap : FileId → TrackedFile) (a : CopyAnswer) :
    p.resume cfg heap a = p.resume cfg' heap a := by
  cases p with
  | getRecord v =>
    cases a with
    | stored present => cases present <;> rfl
    | _ => rfl
  | initialSize | waitSize | latestFile | makedirs | openDest | closeDest => exact h.elim
  | verifySource | verifyDest | removeSource | markCompleted | done => exact h.elim
  | _ => cases a <;> rfl

/-- Points within the loop have a value of `bytes_copied`. -/
lemma exists_bytesCopied {p : CopyPoint} (h : LoopWithin polls p) :
    ∃ b, p.bytesCopied? = some b := by
  cases p <;> first | exact ⟨_, rfl⟩ | exact h.elim

/-- The loop is past the wait for the minimum size. -/
lemma pastWait_of_loopWithin {p : CopyPoint} (h : LoopWithin polls p) : p.pastWait = true := by
  cases p <;> first | rfl | exact h.elim

end Within

/-! ## The rank -/

/-- Settings with chunks at least as large. -/
def chunkSettings (chunkSize : ℕ) : Settings := { growingFileChunkSizeKb := chunkSize }

/-- What decreases with every step of a loop whose sizes are constant from iteration `N` on: the
iterations until then, and after that the measure for the final size `L`. -/
def loopRank (chunkSize N L : ℕ) (w : PolledCopy) : ℕ ×ₗ (ℕ ×ₗ ℕ) :=
  toLex (N - w.polls.length, copyMeasure (chunkSettings chunkSize) L w.point)

/-- What holds of a loop that observes these sizes. -/
structure LoopInvariant (sizes : ℕ → ℕ) (file : FileId) (w : PolledCopy) : Prop where
  within : LoopWithin w.polls w.point
  file : w.point.file? = some file
  polls : ∀ m ∈ w.polls, m ≤ sizes w.polls.length

section Rank

variable {chunkSize size L N : ℕ} {sizes : ℕ → ℕ} {file : FileId} {w : PolledCopy}
  {p : CopyPoint} {a : CopyAnswer} {polls : List ℕ}

/-- An answer that is no failure is normal for a source of the final size, but for the size checks
before the size is reached. -/
lemma normalAnswer_of_loopAnswer (hchunk : 1 ≤ chunkSize) (h : LoopWithin polls p)
    (hle : ∀ m ∈ polls, m ≤ L) (ha : LoopAnswer chunkSize size p a)
    (hsize : ∀ v, p = .loopSize v → size = L) :
    NormalAnswer L (p.request (chunkSettings chunkSize) "") a := by
  cases p with
  | loopSize v =>
    cases a with
    | size n => exact Eq.trans ha (hsize v rfl)
    | _ => exact ha.elim
  | read v r =>
    cases a with
    | data chunk =>
      obtain ⟨hrange, hpos⟩ := h
      obtain ⟨hfits, hsome⟩ := ha
      have hcur := hle _ (List.mem_of_getLast? hrange.polled)
      have hto := hrange.range
      refine ⟨?_, fun _ => hsome (lt_min hchunk hpos) (by omega)⟩
      simp only [chunkSettings]
      omega
    | _ => exact ha.elim
  | _ => cases a <;> first | exact trivial | exact ha.elim

/-- Only a size check observes a size. -/
lemma polled_eq_nil (h : ∀ v, p ≠ .loopSize v) : p.polled a = [] := by
  cases p <;> first | rfl | exact absurd rfl (h _)

/-- **Every step within the loop decreases the rank.**

**Proof sketch.** While a size check comes before the size is constant, it makes the number of
checks left smaller. At any other step the size is the constant one, so the answer is a normal one
and `copyMeasure_lt` applies; the loop does not depend on the settings but for the size of the
chunks (`resume_congr`). -/
lemma loopRank_lt {cfg : Settings} {heap : FileId → TrackedFile} {p' : CopyPoint}
    (hchunk : 1 ≤ chunkSize) (hconst : ∀ i, N ≤ i → sizes i = L)
    (hw : LoopInvariant sizes file w) (hle : ∀ m ∈ w.polls, m ≤ L)
    (ha : LoopAnswer chunkSize (sizes w.polls.length) w.point a)
    (hp : w.point.resume cfg heap a = some p') :
    loopRank chunkSize N L { point := p', polls := w.polls ++ w.point.polled a } <
      loopRank chunkSize N L w := by
  rw [loopRank, loopRank, Prod.Lex.toLex_lt_toLex]
  by_cases hearly : (∃ v, w.point = .loopSize v) ∧ w.polls.length < N
  · left
    obtain ⟨⟨v, hv⟩, hlt⟩ := hearly
    rw [hv] at ha ⊢
    cases a with
    | size n => simp only [CopyPoint.polled, List.length_append, List.length_singleton]; omega
    | _ => exact ha.elim
  · right
    have hsize : ∀ v, w.point = .loopSize v → N ≤ w.polls.length :=
      fun v hv => not_lt.mp fun hlt => hearly ⟨⟨v, hv⟩, hlt⟩
    have hnormal := normalAnswer_of_loopAnswer hchunk hw.within hle ha
      fun v hv => hconst _ (hsize v hv)
    have hdone : ∀ o, w.point ≠ .done o := by
      intro o ho
      have hwithin := hw.within
      rw [ho] at hwithin
      exact hwithin
    obtain ⟨q, hq, -, hlt⟩ := copyMeasure_lt (chunkSettings chunkSize) heap
      (pastWait_of_loopWithin hw.within) hdone hnormal
    rw [resume_congr hw.within _ cfg, hp] at hq
    obtain rfl := Option.some.inj hq
    refine ⟨?_, hlt⟩
    by_cases hv : ∃ v, w.point = .loopSize v
    · obtain ⟨v, hv⟩ := hv
      have hN := hsize v hv
      simp only [List.length_append]
      omega
    · rw [polled_eq_nil fun v h => hv ⟨v, h⟩, List.append_nil]

/-- The sizes observed do not exceed one that follows. -/
lemma polls_le_append (hmono : Monotone sizes) (hpolls : ∀ m ∈ polls, m ≤ sizes polls.length)
    (ha : LoopAnswer chunkSize (sizes polls.length) p a) :
    ∀ m ∈ polls ++ p.polled a, m ≤ sizes (polls ++ p.polled a).length := by
  intro m hm
  by_cases hv : ∃ v, p = .loopSize v
  · obtain ⟨v, rfl⟩ := hv
    cases a with
    | size n =>
      obtain rfl : n = sizes polls.length := ha
      have hnext : sizes polls.length ≤ sizes (polls.length + 1) := hmono (Nat.le_succ _)
      simp only [CopyPoint.polled, List.mem_append, List.mem_singleton, List.length_append,
        List.length_singleton] at hm ⊢
      rcases hm with hm | rfl
      · exact (hpolls m hm).trans hnext
      · exact hnext
    | _ => exact ha.elim
  · rw [polled_eq_nil fun v h => hv ⟨v, h⟩, List.append_nil] at hm ⊢
    exact hpolls m hm

end Rank

/-! ## The loop ends -/

section Ends

variable {cfg : Settings} {chunkSize : ℕ} {sizes : ℕ → ℕ} {env : ℕ → PolledAction}
  {v : LoopVars}

/-- Within the loop, the next answer makes it return the size observed last, or leads on within it
to a smaller rank. -/
lemma returns_or_goes_on (hchunk : 1 ≤ chunkSize) (hmono : Monotone sizes) {N L : ℕ}
    (hconst : ∀ i, N ≤ i → sizes i = L) (henv : LoopEnv cfg chunkSize sizes env v) {n : ℕ}
    {w : PolledCopy} (hn : loopAt cfg env v n = some w) (hw : LoopInvariant sizes v.file w) :
    (∃ b polls, LoopReturns cfg env v n b polls ∧ polls.getLast? = some b) ∨
      ∃ w', loopAt cfg env v (n + 1) = some w' ∧ LoopInvariant sizes v.file w' ∧
        loopRank chunkSize N L w' < loopRank chunkSize N L w := by
  have hmax : ∀ i, sizes i ≤ L := fun i =>
    (hmono (le_max_left i N)).trans (hconst _ (le_max_right i N)).le
  have hlast : w.polls.getLast?.getD 0 ≤ sizes w.polls.length := by
    cases hp : w.polls.getLast? with
    | none => exact Nat.zero_le _
    | some m => exact hw.polls m (List.mem_of_getLast? hp)
  obtain ⟨b, hb⟩ := exists_bytesCopied hw.within
  have ha := henv n w hn (by rw [hb]; exact Option.some_ne_none b)
  obtain ⟨p', hp', hnext⟩ :=
    loopWithin_resume cfg (env n).heap hchunk hw.within hw.file hb hlast ha
  have hn' : loopAt cfg env v (n + 1) =
      some { point := p', polls := w.polls ++ w.point.polled (env n).answer } := by
    rw [loopAt, hn, Option.bind_some, hp', Option.map_some]
  rcases hnext with ⟨hwithin, hfile⟩ | ⟨rfl, hreturned⟩
  · have hrank := loopRank_lt hchunk hconst hw (fun m hm => (hw.polls m hm).trans (hmax _)) ha hp'
    exact .inr ⟨_, hn', ⟨hwithin, hfile, polls_le_append hmono hw.polls ha⟩, hrank⟩
  · exact .inl ⟨b, _, ⟨w, hn, hb, hn'⟩, hreturned⟩

/-- **The copy loop ends.** If the sizes observed do not decrease and are constant from some
iteration on, chunks have at least one byte, and nothing fails, then `_growing_copy_loop` returns
after finitely many answers, hence after finitely many iterations, and the `bytes_copied` it returns
is the size observed in the last of them.

**Proof sketch.** The ranking rule (`exists_of_rank`) with the rank `loopRank`: an iteration that
observes a size before the final one brings the constant part of the sequence closer, every other
step decreases the measure of a copy (`copyMeasure_lt`). Ranges end at the size observed, so the
loop cannot return more than that, and it does not return less. -/
theorem copyLoop_ends {file : FileId}
    {noGrowthCycles maxNoGrowthCycles safetyMarginBytes pauseMs : ℕ} (hchunk : 1 ≤ chunkSize)
    (hmono : Monotone sizes) (hconst : ∃ N L, ∀ i, N ≤ i → sizes i = L)
    (henv : LoopEnv cfg chunkSize sizes env
      (.enter file noGrowthCycles maxNoGrowthCycles safetyMarginBytes pauseMs)) :
    ∃ n bytesCopied polls,
      LoopReturns cfg env
        (.enter file noGrowthCycles maxNoGrowthCycles safetyMarginBytes pauseMs) n bytesCopied
        polls ∧ polls.getLast? = some bytesCopied := by
  obtain ⟨N, L, hL⟩ := hconst
  have hstart : LoopInvariant sizes file
      { point := .getRecord
          (.enter file noGrowthCycles maxNoGrowthCycles safetyMarginBytes pauseMs) } :=
    ⟨Nat.zero_le _, rfl, fun m hm => absurd hm List.not_mem_nil⟩
  exact exists_of_rank (loopRank chunkSize N L) (n := 0) rfl hstart
    fun k w _ hk hw => returns_or_goes_on hchunk hmono hL henv hk hw

/-- The answers to the copy of a growing file of one byte. -/
def oneByteAnswers : List CopyAnswer :=
  [.stored true, .size 1, .done, .data [7], .done, .connected 0, .done, .done, .stored true,
    .size 1]

@[inherit_doc oneByteAnswers]
def oneByteEnv (n : ℕ) : PolledAction :=
  { heap := fun _ => grownFile, answer := oneByteAnswers[n]?.getD .done }

/-- The locals of that copy: growth has ended after one cycle without growth. -/
def oneByteVars : LoopVars := .enter 0 0 1 0 0

/-- The answers for a file of one byte. -/
lemma loopEnv_oneByte : LoopEnv {} 1 (fun _ => 1) oneByteEnv oneByteVars := by
  have hend : ∀ k, loopAt {} oneByteEnv oneByteVars (k + 12) = none := by
    intro k
    induction k with
    | zero => rfl
    | succ k ih => rw [loopAt, ih, Option.bind_none]
  intro n w hn hin
  rcases n with _ | _ | _ | _ | _ | _ | _ | _ | _ | _ | _ | _ | k
  case succ => rw [hend] at hn; cases hn
  all_goals cases hn
  all_goals first
    | exact trivial
    | rfl
    | exact ⟨by decide, fun _ _ => List.cons_ne_nil _ _⟩
    | exact absurd rfl hin

/-- That copy ends. -/
theorem copyLoop_ends_oneByte :
    ∃ n bytesCopied polls, LoopReturns {} oneByteEnv oneByteVars n bytesCopied polls ∧
      polls.getLast? = some bytesCopied :=
  copyLoop_ends le_rfl monotone_const ⟨0, 1, fun _ _ => rfl⟩ loopEnv_oneByte

example : LoopReturns {} oneByteEnv oneByteVars 9 1 [1, 1] := ⟨_, rfl, rfl, rfl⟩

end Ends

end FileAgent

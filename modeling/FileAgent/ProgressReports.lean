import FileAgent.FileCopyExecutor

set_option relaxedAutoImplicit false
set_option autoImplicit false

/-!
# The progress reports of a copy

After each chunk `_perform_copy` asks whether to call the progress callback, and remembers the
percent of the last call that returned. Before the first report any percent from the interval on is
reported, after it only the multiples of the interval, and the end always. Percents are taken
exactly, and truncated.

## Main definitions

* `calculateCopyProgress`, `shouldReportProgress`, `shouldReportProgressWithBytes` — the rule.
* `progressStep` — the loop, chunk by chunk.
* `BoundaryReported`, `reportedPercents` — what a step, and a run, reports.
* `LandsOnMultiple` — the condition on a chunk.

## Main results

* `reportedPercents_nodup` — no percent below 100 is reported twice.
* `boundariesReported_iff` — when every boundary that is passed is reported.
* `exists_progressRun` — the chunks an executor writes are such a loop.
-/

namespace FileAgent

open Transition

/-! ## The rule -/

/-- `calculate_copy_progress`. -/
def calculateCopyProgress (bytesCopied totalBytes : ℕ) : ℚ :=
  if totalBytes = 0 then 100
  else if totalBytes ≤ bytesCopied then 100
  else if bytesCopied = 0 then 0
  else bytesCopied / totalBytes * 100

/-- `calculate_progress_percent_int`; the progress is not negative. Here it is exact. The code
computes it in doubles, so that its result may be one below the exact floor: 28 for 29 bytes of
100. -/
def calculateProgressPercentInt (bytesCopied totalBytes : ℕ) : ℤ :=
  ⌊calculateCopyProgress bytesCopied totalBytes⌋

/-- `should_report_progress`; `none` if it divides by zero. -/
def shouldReportProgress (currentPercent lastReportedPercent updateInterval : ℤ)
    (isComplete : Bool) : Option Bool :=
  if isComplete then some true
  else if lastReportedPercent < 0 then some (decide (updateInterval ≤ currentPercent))
  else if currentPercent ≠ lastReportedPercent then
    if updateInterval = 0 then none else some (decide (currentPercent % updateInterval = 0))
  else some false

/-- `should_report_progress_with_bytes`. -/
def shouldReportProgressWithBytes (bytesCopied totalBytes : ℕ)
    (lastReportedPercent updateInterval : ℤ) : Option (Bool × ℤ) := do
  let currentPercent := calculateProgressPercentInt bytesCopied totalBytes
  let isComplete := decide (totalBytes ≤ bytesCopied)
  let shouldReport ←
    shouldReportProgress currentPercent lastReportedPercent updateInterval isComplete
  some (shouldReport, currentPercent)

/-! ## The loop -/

/-- The locals of the loop. -/
structure ProgressVars where
  bytesCopied : ℕ := 0
  lastProgressReported : ℤ := -1
  /-- The percent after the last chunk whose callback would have returned. The code does not keep
  it. -/
  heard : ℤ := 0
  deriving DecidableEq

/-- A chunk that has been written, and whether the progress callback, if it is called, returns or
raises. -/
structure WrittenChunk where
  length : ℕ
  callbackReturns : Bool := true

section Loop

variable (fileSize : ℕ) (interval : ℤ) (v : ProgressVars) (chunk : WrittenChunk)

/-- The percent after a chunk. -/
def percentAfter : ℤ := calculateProgressPercentInt (v.bytesCopied + chunk.length) fileSize

/-- Whether the callback is called after a chunk. -/
def isReported : Bool :=
  (shouldReportProgressWithBytes (v.bytesCopied + chunk.length) fileSize v.lastProgressReported
    interval).any Prod.fst

/-- One turn of the loop. It ends at an empty chunk, and by a division by zero. -/
def progressStep : Option ProgressVars :=
  if chunk.length = 0 then none
  else do
    let bytesCopied := v.bytesCopied + chunk.length
    let (shouldUpdate, currentPercent) ←
      shouldReportProgressWithBytes bytesCopied fileSize v.lastProgressReported interval
    some
      { bytesCopied := bytesCopied
        lastProgressReported :=
          if shouldUpdate && chunk.callbackReturns then currentPercent else v.lastProgressReported
        heard := if chunk.callbackReturns then currentPercent else v.heard }

/-- A multiple of the interval that the last report had not reached, and this chunk does, is
reported. -/
def BoundaryReported : Prop :=
  (∃ m : ℤ, 0 < m ∧ v.lastProgressReported < m * interval ∧
      m * interval ≤ percentAfter fileSize v chunk) →
    isReported fileSize interval v chunk = true

/-- The percents that the callback has taken. -/
def reportedPercents (tr : List (ProgressVars × WrittenChunk)) : List ℤ :=
  tr.filterMap fun e =>
    if isReported fileSize interval e.1 e.2 && e.2.callbackReturns then
      some (percentAfter fileSize e.1 e.2)
    else none

/-- The condition on a chunk: it is the last one, or it comes to a multiple of the interval, or to
the first one, or it passes no multiple since the last percent the callback could have taken. -/
def LandsOnMultiple : Prop :=
  fileSize ≤ v.bytesCopied + chunk.length ∨ interval ∣ percentAfter fileSize v chunk ∨
    v.heard < interval ∨ percentAfter fileSize v chunk / interval ≤ v.heard / interval

instance : Decidable (LandsOnMultiple fileSize interval v chunk) :=
  inferInstanceAs (Decidable (_ ∨ _ ∨ _ ∨ _))

end Loop

/-! ## Percents -/

section Percents

variable {b b' t : ℕ}

/-- The progress of a copy is not negative. -/
lemma calculateCopyProgress_nonneg (b t : ℕ) : 0 ≤ calculateCopyProgress b t := by
  unfold calculateCopyProgress
  split_ifs
  · norm_num
  · norm_num
  · exact le_rfl
  · positivity

/-- Before the end the progress is the quotient, below 100. -/
lemma calculateCopyProgress_of_lt (h : b < t) :
    calculateCopyProgress b t = b / t * 100 ∧ calculateCopyProgress b t < 100 := by
  have hpos : (0 : ℚ) < t := by exact_mod_cast Nat.zero_lt_of_lt h
  have heq : calculateCopyProgress b t = b / t * 100 := by
    unfold calculateCopyProgress
    rw [if_neg (Nat.ne_zero_of_lt h), if_neg (not_le.mpr h)]
    split_ifs with hb
    · rw [hb]
      norm_num
    · rfl
  have hlt : (b : ℚ) / t < 1 := (div_lt_one hpos).mpr (by exact_mod_cast h)
  exact ⟨heq, by rw [heq]; linarith⟩

/-- A whole file is 100 percent. -/
lemma calculateCopyProgress_of_le (h : t ≤ b) : calculateCopyProgress b t = 100 := by
  unfold calculateCopyProgress
  split_ifs <;> rfl

/-- The progress grows with the bytes. -/
lemma calculateCopyProgress_mono (h : b ≤ b') :
    calculateCopyProgress b t ≤ calculateCopyProgress b' t := by
  rcases Nat.lt_or_ge b' t with hlt | hge
  · rw [(calculateCopyProgress_of_lt (lt_of_le_of_lt h hlt)).1, (calculateCopyProgress_of_lt hlt).1]
    gcongr
  · rw [calculateCopyProgress_of_le hge]
    rcases Nat.lt_or_ge b t with hlt | hge'
    · exact (calculateCopyProgress_of_lt hlt).2.le
    · exact (calculateCopyProgress_of_le hge').le

/-- The whole percents are not negative. -/
lemma percentInt_nonneg (b t : ℕ) : 0 ≤ calculateProgressPercentInt b t :=
  Int.floor_nonneg.mpr (calculateCopyProgress_nonneg b t)

/-- The whole percents grow with the bytes copied. -/
lemma percentInt_mono (h : b ≤ b') :
    calculateProgressPercentInt b t ≤ calculateProgressPercentInt b' t :=
  Int.floor_mono (calculateCopyProgress_mono h)

/-- A whole file is 100 whole percents. -/
lemma percentInt_of_le (h : t ≤ b) : calculateProgressPercentInt b t = 100 := by
  rw [calculateProgressPercentInt, calculateCopyProgress_of_le h]
  rfl

end Percents

/-! ## One turn -/

section Steps

variable {fileSize : ℕ} {interval : ℤ} {v v' : ProgressVars} {chunk : WrittenChunk}
  {tr : List (ProgressVars × WrittenChunk)}

/-- When the callback is called. -/
lemma isReported_iff (hk : 0 < interval) :
    isReported fileSize interval v chunk = true ↔
      fileSize ≤ v.bytesCopied + chunk.length ∨
      v.lastProgressReported < 0 ∧ interval ≤ percentAfter fileSize v chunk ∨
      0 ≤ v.lastProgressReported ∧ percentAfter fileSize v chunk ≠ v.lastProgressReported ∧
        interval ∣ percentAfter fileSize v chunk := by
  rw [isReported, shouldReportProgressWithBytes, ← percentAfter, shouldReportProgress]
  by_cases hend : fileSize ≤ v.bytesCopied + chunk.length
  · simp [hend]
  · rcases lt_or_ge v.lastProgressReported 0 with hlast | hlast
    · simp [hend, hlast, not_le.mpr hlast]
    · by_cases hsame : percentAfter fileSize v chunk = v.lastProgressReported
      · simp [hend, hsame, not_lt.mpr hlast]
      · simp [hend, hsame, hlast, not_lt.mpr hlast, hk.ne']

/-- What a turn does to the locals. -/
lemma progressStep_eq_some (h : progressStep fileSize interval v chunk = some v') :
    0 < chunk.length ∧ v' =
      { bytesCopied := v.bytesCopied + chunk.length
        lastProgressReported :=
          if isReported fileSize interval v chunk && chunk.callbackReturns then
            percentAfter fileSize v chunk else v.lastProgressReported
        heard := if chunk.callbackReturns then percentAfter fileSize v chunk else v.heard } := by
  by_cases hlength : chunk.length = 0
  · rw [progressStep, if_pos hlength] at h
    cases h
  rw [progressStep, if_neg hlength] at h
  obtain ⟨r, hr, h⟩ := Option.bind_eq_some_iff.mp h
  have hreported : isReported fileSize interval v chunk = r.1 := by rw [isReported, hr]; rfl
  have hpercent : r.2 = percentAfter fileSize v chunk := by
    obtain ⟨b, -, hb⟩ := Option.bind_eq_some_iff.mp hr
    obtain rfl := Option.some.inj hb
    rfl
  obtain rfl := Option.some.inj h
  rw [hreported, hpercent]
  exact ⟨Nat.pos_of_ne_zero hlength, rfl⟩

/-- The percent does not go back. -/
lemma percent_le_percentAfter (fileSize : ℕ) (v : ProgressVars) (chunk : WrittenChunk) :
    calculateProgressPercentInt v.bytesCopied fileSize ≤ percentAfter fileSize v chunk :=
  percentInt_mono (Nat.le_add_right _ _)

/-- A multiple of the interval lies between two percents when their quotients differ. -/
lemma exists_multiple_iff {last c : ℤ} (hk : 0 < interval) (hlast : 0 ≤ last) :
    (∃ m : ℤ, 0 < m ∧ last < m * interval ∧ m * interval ≤ c) ↔ last / interval < c / interval := by
  constructor
  · rintro ⟨m, -, hlt, hle⟩
    exact lt_of_lt_of_le ((Int.ediv_lt_iff_lt_mul hk).mpr hlt) ((Int.le_ediv_iff_mul_le hk).mpr hle)
  · intro h
    have hpos : 0 < c / interval := lt_of_le_of_lt (Int.ediv_nonneg hlast hk.le) h
    exact ⟨c / interval, hpos, (Int.ediv_lt_iff_lt_mul hk).mp h,
      (Int.le_ediv_iff_mul_le hk).mp le_rfl⟩

/-- The last report and the last percent that could be one are between the same two multiples of the
interval, or neither has come to the first multiple. -/
structure ReportInv (fileSize : ℕ) (interval : ℤ) (v : ProgressVars) : Prop where
  heard_nonneg : 0 ≤ v.heard
  heard_le : v.heard ≤ calculateProgressPercentInt v.bytesCopied fileSize
  agrees : v.lastProgressReported < 0 ∧ v.heard < interval ∨
    0 ≤ v.lastProgressReported ∧ v.lastProgressReported / interval = v.heard / interval ∧
      (interval ≤ v.heard ∨ fileSize ≤ v.bytesCopied)

/-- **A boundary that a chunk passes is reported when the chunk meets the condition.**

**Proof sketch.** At the end of the file every chunk reports. Before the first report the rule
asks for the first multiple, which is what the boundary is. Afterwards a boundary is passed
exactly if the quotient by the interval grows (`exists_multiple_iff`), and the rule asks for a
percent that the interval divides. -/
lemma boundaryReported_iff_landsOnMultiple (hk : 0 < interval)
    (h : ReportInv fileSize interval v) :
    BoundaryReported fileSize interval v chunk ↔ LandsOnMultiple fileSize interval v chunk := by
  rw [BoundaryReported, isReported_iff hk, LandsOnMultiple]
  by_cases hend : fileSize ≤ v.bytesCopied + chunk.length
  · simp [hend]
  · rcases h.agrees with ⟨hlast, hheard⟩ | ⟨hlast, hquot, hfirst⟩
    · -- the rule before the first report asks for the first multiple only
      refine iff_of_true ?_ (.inr (.inr (.inl hheard)))
      rintro ⟨m, hm, -, hle⟩
      exact .inr (.inl ⟨hlast, le_trans (le_mul_of_one_le_left hk.le hm) hle⟩)
    · have hpassed : interval ≤ v.heard := hfirst.resolve_right fun hsize =>
        hend (le_trans hsize (Nat.le_add_right _ _))
      rw [exists_multiple_iff hk hlast, hquot]
      constructor
      · intro hreport
        by_cases hlt : v.heard / interval < percentAfter fileSize v chunk / interval
        · rcases hreport hlt with hsize | ⟨hneg, -⟩ | ⟨-, -, hdvd⟩
          · exact absurd hsize hend
          · exact absurd hlast (not_le.mpr hneg)
          · exact .inr (.inl hdvd)
        · exact .inr (.inr (.inr (not_lt.mp hlt)))
      · intro hlands hlt
        rcases hlands with hsize | hdvd | hheard | hle
        · exact absurd hsize hend
        · refine .inr (.inr ⟨hlast, ?_, hdvd⟩)
          intro hsame
          rw [hsame, hquot] at hlt
          exact absurd hlt (lt_irrefl _)
        · exact absurd hpassed (not_le.mpr hheard)
        · exact absurd hlt (not_lt.mpr hle)

/-- **The step lemma**: a chunk that meets the condition keeps the invariant.

**Proof sketch.** A callback that raises has heard nothing, so the invariant stays as it was. One
that returns has heard the new percent. If it was reported, it is the last one reported. If not,
the chunk passed no boundary, since one that is passed is reported by the condition; so the
quotient of the last one reported is still that of the new percent. -/
lemma reportInv_step (hk : 0 < interval) (h : ReportInv fileSize interval v)
    (hok : LandsOnMultiple fileSize interval v chunk)
    (hs : progressStep fileSize interval v chunk = some v') : ReportInv fileSize interval v' := by
  obtain ⟨-, rfl⟩ := progressStep_eq_some hs
  have hgrows := percent_le_percentAfter fileSize v chunk
  have hheard : v.heard ≤ percentAfter fileSize v chunk := le_trans h.heard_le hgrows
  have hnonneg : 0 ≤ percentAfter fileSize v chunk := le_trans h.heard_nonneg hheard
  have hmore : fileSize ≤ v.bytesCopied → fileSize ≤ v.bytesCopied + chunk.length :=
    fun hsize => le_trans hsize (Nat.le_add_right _ _)
  cases hreturns : chunk.callbackReturns with
  | false =>
    simp only [Bool.and_false, Bool.false_eq_true, if_false]
    refine ⟨h.heard_nonneg, hheard, ?_⟩
    rcases h.agrees with hagrees | ⟨hlast, hquot, hfirst⟩
    · exact .inl hagrees
    · exact .inr ⟨hlast, hquot, hfirst.imp_right hmore⟩
  | true =>
    simp only [Bool.and_true, if_true]
    refine ⟨hnonneg, le_rfl, ?_⟩
    by_cases hreported : isReported fileSize interval v chunk = true
    · rw [if_pos hreported]
      refine .inr ⟨hnonneg, rfl, ?_⟩
      rcases (isReported_iff hk).mp hreported with hsize | ⟨-, hfirst⟩ | ⟨hlast, -, hdvd⟩
      · exact .inr hsize
      · exact .inl hfirst
      · rcases h.agrees with ⟨hneg, -⟩ | ⟨-, -, hfirst⟩
        · exact absurd hlast (not_le.mpr hneg)
        · exact hfirst.imp (fun hle => le_trans hle hheard) hmore
    · rw [if_neg hreported]
      have hboundary := (boundaryReported_iff_landsOnMultiple hk h).mpr hok
      rcases h.agrees with ⟨hlast, -⟩ | ⟨hlast, hquot, hfirst⟩
      · refine .inl ⟨hlast, ?_⟩
        by_contra hle
        exact hreported ((isReported_iff hk).mpr (.inr (.inl ⟨hlast, not_lt.mp hle⟩)))
      · refine .inr ⟨hlast, ?_, hfirst.imp (fun hle => le_trans hle hheard) hmore⟩
        -- no multiple was passed, since it would have been reported
        have hnone :
            ¬ v.lastProgressReported / interval < percentAfter fileSize v chunk / interval :=
          fun hlt => hreported (hboundary ((exists_multiple_iff hk hlast).mpr hlt))
        exact le_antisymm (hquot ▸ Int.ediv_le_ediv hk hheard) (not_lt.mp hnone)

/-- The percents reported after one more chunk. -/
lemma reportedPercents_append (fileSize : ℕ) (interval : ℤ)
    (tr : List (ProgressVars × WrittenChunk)) (v : ProgressVars) (chunk : WrittenChunk) :
    reportedPercents fileSize interval (tr ++ [(v, chunk)]) =
      reportedPercents fileSize interval tr ++
        if isReported fileSize interval v chunk && chunk.callbackReturns then
          [percentAfter fileSize v chunk] else [] := by
  rw [reportedPercents, List.filterMap_append, ← reportedPercents]
  congr 1
  split_ifs with h
  · exact List.filterMap_cons_some (if_pos h)
  · exact List.filterMap_cons_none (if_neg h)

/-- The percents reported so far lie below the last one, which no chunk to come falls short of. -/
structure ReportedInv (fileSize : ℕ) (interval : ℤ) (tr : List (ProgressVars × WrittenChunk))
    (v : ProgressVars) : Prop where
  below : ∀ c ∈ reportedPercents fileSize interval tr, 0 ≤ c ∧ c ≤ v.lastProgressReported
  last_le : v.lastProgressReported ≤ calculateProgressPercentInt v.bytesCopied fileSize
  nodup : ((reportedPercents fileSize interval tr).filter (· < 100)).Nodup

/-- **The step lemma of the reported percents**: a percent that is reported is above the last one,
unless the copy is complete.

**Proof sketch.** A percent is reported after the first one only if it differs from the last one
reported, and percents grow. So each is above those before it, except the 100 of a copy that is
complete. -/
lemma reportedInv_step (hk : 0 < interval) (h : ReportedInv fileSize interval tr v)
    (hs : progressStep fileSize interval v chunk = some v') :
    ReportedInv fileSize interval (tr ++ [(v, chunk)]) v' := by
  obtain ⟨-, rfl⟩ := progressStep_eq_some hs
  obtain ⟨hbelow, hlast, hnodup⟩ := h
  have hgrows := percent_le_percentAfter fileSize v chunk
  have hnonneg : 0 ≤ percentAfter fileSize v chunk := percentInt_nonneg _ _
  by_cases hreported : (isReported fileSize interval v chunk && chunk.callbackReturns) = true
  · have hmore := reportedPercents_append fileSize interval tr v chunk
    rw [if_pos hreported] at hmore
    simp only [if_pos hreported]
    refine ⟨fun c hc => ?_, le_rfl, ?_⟩
    · rw [hmore] at hc
      rcases List.mem_append.mp hc with hc | hc
      · exact ⟨(hbelow c hc).1, le_trans (hbelow c hc).2 (le_trans hlast hgrows)⟩
      · rw [List.mem_singleton.mp hc]
        exact ⟨hnonneg, le_rfl⟩
    · rw [hmore, List.filter_append]
      refine List.Nodup.append hnodup (List.Nodup.filter _ (List.nodup_singleton _)) ?_
      intro c hc hc'
      obtain ⟨hc, -⟩ := List.mem_filter.mp hc
      obtain ⟨hc', hlt⟩ := List.mem_filter.mp hc'
      obtain rfl := List.mem_singleton.mp hc'
      obtain ⟨-, hle⟩ := hbelow _ hc
      rcases (isReported_iff hk).mp (Bool.and_eq_true_iff.mp hreported).1 with
        hsize | ⟨hneg, -⟩ | ⟨-, hne, -⟩
      · rw [percentAfter, percentInt_of_le hsize] at hlt
        cases hlt
      · exact absurd hneg (not_lt.mpr (le_trans hnonneg hle))
      · exact hne (le_antisymm hle (le_trans hlast hgrows))
  · have hsame := reportedPercents_append fileSize interval tr v chunk
    rw [if_neg hreported, List.append_nil] at hsame
    simp only [if_neg hreported]
    exact ⟨hsame ▸ hbelow, le_trans hlast hgrows, hsame ▸ hnodup⟩

end Steps

/-! ## The whole copy -/

section Runs

variable {fileSize : ℕ} {interval : ℤ} {v : ProgressVars} {tr : List (ProgressVars × WrittenChunk)}

/-- **No percent below 100 is reported twice.** -/
theorem reportedPercents_nodup (hk : 0 < interval)
    (h : Run (progressStep fileSize interval) {} tr v) :
    ((reportedPercents fileSize interval tr).filter (· < 100)).Nodup := by
  have hall : Meets (fun _ _ => True) tr := fun _ _ => trivial
  have hstart : ReportedInv fileSize interval [] {} :=
    ⟨fun c hc => absurd hc List.not_mem_nil, le_trans (by decide) (percentInt_nonneg _ _),
      List.nodup_nil⟩
  exact (h.invariant_trace hall hstart fun _ _ _ _ h _ hs => reportedInv_step hk h hs).nodup

/-- **When every boundary is reported**: when each chunk meets the condition. No percent below 100
is reported twice in any case.

**Proof sketch.** Before a chunk the last report and the last percent that could be one have the
same quotient by the interval (`ReportInv`), so that the boundary between is the same for both. -/
theorem boundariesReported_iff (hk : 1 ≤ interval)
    (h : Run (progressStep fileSize interval) {} tr v) :
    (Meets (BoundaryReported fileSize interval) tr ∧
      ((reportedPercents fileSize interval tr).filter (· < 100)).Nodup) ↔
    Meets (LandsOnMultiple fileSize interval) tr := by
  have hpos : 0 < interval := Int.lt_of_add_one_le hk
  have hstart : ReportInv fileSize interval {} :=
    ⟨le_rfl, percentInt_nonneg _ _, .inl ⟨by decide, hpos⟩⟩
  rw [and_iff_left (reportedPercents_nodup hpos h)]
  exact h.meets_iff hstart (fun _ _ _ hinv hok hs => reportInv_step hpos hinv hok hs)
    (fun _ _ _ hinv _ => boundaryReported_iff_landsOnMultiple hpos hinv)

/-- Chunks of a number of bytes. -/
def evenChunks (count bytes : ℕ) : List WrittenChunk := List.replicate count { length := bytes }

/-- Ten chunks of a tenth of the file, and an interval of ten percent. -/
theorem boundariesReported_tenths :
    ∃ v, Run (progressStep 1000 10) {} (traceOf (progressStep 1000 10) {} (evenChunks 10 100)) v ∧
      v.bytesCopied = 1000 ∧
      Meets (BoundaryReported 1000 10) (traceOf (progressStep 1000 10) {} (evenChunks 10 100)) ∧
      ((reportedPercents 1000 10 (traceOf (progressStep 1000 10) {} (evenChunks 10 100))).filter
        (· < 100)).Nodup := by
  obtain ⟨v, hrun, hv⟩ := exists_run_of_replay (progressStep 1000 10) {} (evenChunks 10 100)
    (fun v => decide (v.bytesCopied = 1000)) (by decide +kernel)
  exact ⟨v, hrun, of_decide_eq_true hv,
    (boundariesReported_iff (by decide) hrun).mpr (by decide +kernel)⟩

/-- **A boundary is passed over**: chunks of 2 MB of a file of 18 MB come to 11 and 22 percent, and
20 percent is not reported. -/
theorem twenty_percent_not_reported :
    ¬ ∀ (fileSize : ℕ) (interval : ℤ) (tr : List (ProgressVars × WrittenChunk)) (v : ProgressVars),
      1 ≤ interval → Run (progressStep fileSize interval) {} tr v →
      Meets (BoundaryReported fileSize interval) tr := by
  intro hall
  let chunk : WrittenChunk := { length := 2097152 }
  let v : ProgressVars := { bytesCopied := 2097152, lastProgressReported := 11, heard := 11 }
  let v' : ProgressVars := { bytesCopied := 4194304, lastProgressReported := 11, heard := 22 }
  have hfirst : Run (progressStep 18874368 10) {} [({}, chunk)] v :=
    Run.snoc .start (by decide +kernel)
  have hrun : Run (progressStep 18874368 10) {} [({}, chunk), (v, chunk)] v' :=
    Run.snoc hfirst (by decide +kernel)
  have hreported := hall 18874368 10 _ v' (by decide) hrun (v, chunk) (by simp)
    ⟨2, by decide, by decide, by decide +kernel⟩
  revert hreported
  decide +kernel

end Runs

/-! ## The chunks of an executor -/

section Executor

variable {c : ExecutorCall} {fileSize : ℕ} {interval : ℤ} {w w' : ExecutorWorld}
  {p : ProgressVars} {tr : List (ExecutorWorld × ExecutorAction)}

/-- The value of `bytes_copied` that a step of the executor asks about: it goes on to the next read
after a chunk. -/
def progressCall (c : ExecutorCall) (e : ExecutorWorld × ExecutorAction) : Option ℕ :=
  match e.1.point, e.2 with
  | .write v chunk, .answer a =>
    match c.resume (.write v chunk) a with
    | some (.read v') => some v'.bytesCopied
    | _ => none
  | .connectivity v, .answer a =>
    match c.resume (.connectivity v) a with
    | some (.read v') => some v'.bytesCopied
    | _ => none
  | _, _ => none

/-- The bytes the loop has asked about last, at a point of the executor. -/
def AskedBefore (asked : ℕ) : ExecutorPoint → Prop
  | .mkdir | .statSource | .openSource | .openTarget => asked = 0
  | .read v => asked = v.bytesCopied
  | .write v chunk => asked = v.bytesCopied ∧ chunk ≠ []
  | .connectivity v => asked < v.bytesCopied
  | _ => True

/-- A chunk may end anywhere ahead. -/
lemma exists_progressStep (hk : 0 < interval) (fileSize : ℕ) (p : ProgressVars) {n : ℕ}
    (hn : p.bytesCopied < n) :
    ∃ p', progressStep fileSize interval p ⟨n - p.bytesCopied, true⟩ = some p' ∧
      p'.bytesCopied = n := by
  have hsome : ∀ last current (complete : Bool),
      ∃ b, shouldReportProgress current last interval complete = some b := by
    intro last current complete
    unfold shouldReportProgress
    split_ifs with _ _ _ hzero
    · exact ⟨_, rfl⟩
    · exact ⟨_, rfl⟩
    · exact absurd hzero hk.ne'
    · exact ⟨_, rfl⟩
    · exact ⟨_, rfl⟩
  have hbytes : p.bytesCopied + (n - p.bytesCopied) = n := Nat.add_sub_cancel' hn.le
  obtain ⟨b, hb⟩ := hsome p.lastProgressReported (calculateProgressPercentInt n fileSize)
    (decide (fileSize ≤ n))
  have hstep : (progressStep fileSize interval p ⟨n - p.bytesCopied, true⟩).isSome = true := by
    rw [progressStep, if_neg (Nat.sub_ne_zero_of_lt hn)]
    simp only [hbytes, shouldReportProgressWithBytes, hb, Option.bind_eq_bind, Option.bind_some]
    rfl
  obtain ⟨p', hp'⟩ := Option.isSome_iff_exists.mp hstep
  obtain ⟨-, rfl⟩ := progressStep_eq_some hp'
  exact ⟨_, hp', hbytes⟩

/-- An answer leads to a point before which the loop has asked about the same bytes, or about those
the executor goes on with.

**Proof sketch.** By cases on the point. The loop asks after a chunk is written, or after the
check that follows the write, and the bytes copied have grown by the chunk, which is not empty.
Every other answer asks nothing, and the bytes copied stay the same. -/
lemma askedBefore_resume {q q' : ExecutorPoint} {a : ExecutorAnswer} {asked : ℕ}
    (h : AskedBefore asked q) (hr : c.resume q a = some q') (hw : w.point = q) :
    (progressCall c (w, .answer a) = none ∧ AskedBefore asked q') ∨
      ∃ n, progressCall c (w, .answer a) = some n ∧ asked < n ∧ AskedBefore n q' := by
  cases q with
  | write v chunk =>
    obtain ⟨hasked, hchunk⟩ := h
    have hmore : asked < v.bytesCopied + chunk.length := by
      rw [hasked]
      exact Nat.lt_add_of_pos_right (List.length_pos_iff.mpr hchunk)
    cases a with
    | done =>
      obtain rfl := Option.some.inj hr
      simp only [progressCall, hw, ExecutorCall.resume, ExecutorCall.wrote]
      split_ifs
      · exact .inl ⟨rfl, hmore⟩
      · exact .inr ⟨_, rfl, hmore, rfl⟩
    | error e kept =>
      obtain rfl := Option.some.inj hr
      exact .inl ⟨by simp only [progressCall, hw, ExecutorCall.resume], trivial⟩
    | _ => cases hr
  | connectivity v =>
    cases a with
    | done =>
      obtain rfl := Option.some.inj hr
      exact .inr ⟨v.bytesCopied, by simp only [progressCall, hw, ExecutorCall.resume], h, rfl⟩
    | error e kept =>
      simp only [progressCall, hw]
      simp only [ExecutorCall.resume] at hr ⊢
      split at hr
      · obtain rfl := Option.some.inj hr
        exact .inl ⟨by simp [*], trivial⟩
      · obtain rfl := Option.some.inj hr
        exact .inr ⟨v.bytesCopied, by simp [*], h, rfl⟩
    | _ => cases hr
  | read v =>
    refine .inl ⟨by simp only [progressCall, hw], ?_⟩
    cases a with
    | data chunk =>
      obtain rfl := Option.some.inj hr
      split_ifs with hchunk
      · trivial
      · exact ⟨h, hchunk⟩
    | error e kept =>
      obtain rfl := Option.some.inj hr
      trivial
    | _ => cases hr
  | mkdir | statSource | openSource | openTarget =>
    refine .inl ⟨by simp only [progressCall, hw], ?_⟩
    cases a <;> cases hr <;> first | exact h | trivial
  | closeSource n inFlight =>
    refine .inl ⟨by simp only [progressCall, hw], ?_⟩
    cases inFlight <;> cases a <;> cases hr <;> trivial
  | _ =>
    refine .inl ⟨by simp only [progressCall, hw], ?_⟩
    cases a <;> cases hr <;> first | trivial | (split_ifs <;> trivial)

/-- **The chunks of an executor are those of the loop**: in every run the bytes it asks about grow
from chunk to chunk, as in a run of the loop whose callback always returns.

**Proof sketch.** Induction on the run, with the bytes asked about last at each point of the
executor (`AskedBefore`). -/
theorem exists_progressRun (hk : 0 < interval) (fileSize : ℕ) {source : List UInt8}
    {files : DestPath → Option (List UInt8)}
    (h : Run (executorStep c) (ExecutorWorld.start source files) tr w) :
    ∃ tr' p, Run (progressStep fileSize interval) {} tr' p ∧
      tr'.map (fun e => e.1.bytesCopied + e.2.length) = tr.filterMap (progressCall c) ∧
      AskedBefore p.bytesCopied w.point := by
  induction h with
  | start => exact ⟨[], {}, .start, rfl, rfl⟩
  | @snoc tr w w' a _ hs ih =>
    obtain ⟨tr', p, hrun, hbytes, hasked⟩ := ih
    cases a with
    | append bytes =>
      obtain rfl := Option.some.inj hs
      have hnone : progressCall c (w, .append bytes) = none := by
        unfold progressCall
        split <;> simp_all
      refine ⟨tr', p, hrun, ?_, hasked⟩
      rw [List.filterMap_append, List.filterMap_cons_none hnone, List.filterMap_nil,
        List.append_nil, hbytes]
    | answer ans =>
      simp only [executorStep] at hs
      split_ifs at hs
      obtain ⟨q', hresume, rfl⟩ := Option.map_eq_some_iff.mp hs
      rcases askedBefore_resume hasked hresume rfl with
        ⟨hnone, hasked'⟩ | ⟨n, hcall, hmore, hasked'⟩
      · refine ⟨tr', p, hrun, ?_, hasked'⟩
        rw [List.filterMap_append, List.filterMap_cons_none hnone, List.filterMap_nil,
          List.append_nil, hbytes]
      · obtain ⟨p', hp', hn⟩ := exists_progressStep hk fileSize p hmore
        refine ⟨_, p', hrun.snoc hp', ?_, hn ▸ hasked'⟩
        rw [List.map_append, List.filterMap_append, hbytes, List.filterMap_cons_some hcall,
          List.filterMap_nil, List.map_singleton, Nat.add_sub_cancel' hmore.le]

end Executor

end FileAgent

import FileAgent.StateManager

set_option relaxedAutoImplicit false
set_option autoImplicit false

/-!
# The growing file detector

`app/services/growing_file_detector.py`: what a size reading of a tracked file makes of its growth
fields, and the status it recommends.

## Main definitions

* `GrowthCheck`, `growthCheck`, `GrowthCheck.recommend` — `check_file_growth_status` of a file that
  is already tracked for growth.
* `startTrackingAttrs` — the growth fields at the first check.
* `growthInfo`, `GrowthInfo.attrs`, `growthInfoAttrs` — `update_file_growth_info`.

## Main results

* `recommend_eq_ready_iff` — when a file is recommended as `READY`.
-/

namespace FileAgent

/-- `growth_rate`: megabytes since the file was first seen, per second since the last check. -/
def growthRate (f : TrackedFile) (lastGrowthCheck now size : ℕ) : ℚ :=
  ((size : ℚ) - f.firstSeenSize) / (1024 * 1024) / (((now : ℚ) - lastGrowthCheck) / 1000000)

/-- `growth_stable_since` after a reading: `None` while the file grows, else the first reading that
found it not growing. -/
def stableSince (f : TrackedFile) (now size : ℕ) : Option ℕ :=
  if f.fileSize < size then none else f.growthStableSince.or (some now)

/-- The growth fields set by the first check of a file. -/
def startTrackingAttrs (now size : ℕ) : List Attr :=
  [.fileSize size, .previousFileSize size, .firstSeenSize size, .lastGrowthCheck (some now),
    .growthStableSince (some now)]

/-- The locals of `check_file_growth_status` after its size check. -/
structure GrowthCheck where
  currentSize : ℕ
  currentTime : ℕ
  previousSize : ℕ
  growthRate : ℚ
  isCurrentlyGrowing : Bool
  hasGrown : Bool
  growthStableSince : Option ℕ

/-- The computation of `check_file_growth_status`, for a file last checked at `lastGrowthCheck`. -/
def growthCheck (f : TrackedFile) (lastGrowthCheck now size : ℕ) : GrowthCheck where
  currentSize := size
  currentTime := now
  previousSize := f.fileSize
  growthRate :=
    if lastGrowthCheck < now then growthRate f lastGrowthCheck now size else f.growthRateMbps
  isCurrentlyGrowing := f.fileSize < size
  hasGrown := f.firstSeenSize < size
  growthStableSince := stableSince f now size

namespace GrowthCheck

variable (c : GrowthCheck) (cfg : Settings)

/-- The growth fields a check writes. -/
def attrs : List Attr :=
  [.fileSize c.currentSize, .previousFileSize c.previousSize,
    .lastGrowthCheck (some c.currentTime), .growthRateMbps c.growthRate,
    .growthStableSince c.growthStableSince]

/-- `stable_duration >= self.growth_timeout`, with the duration `0` if the file was never found
stable. -/
def isStable : Bool :=
  match c.growthStableSince with
  | some since => since + cfg.growthTimeout ≤ c.currentTime
  | none => cfg.growthTimeout = 0

/-- The decision logic. -/
def recommend : FileStatus :=
  if c.isCurrentlyGrowing then
    if cfg.minSizeBytes ≤ c.currentSize then .readyToStartGrowing else .growing
  else if !c.hasGrown && c.currentSize < cfg.minSizeBytes then
    if c.isStable cfg then .ready else .discovered
  else if c.isStable cfg then
    if c.hasGrown && cfg.minSizeBytes ≤ c.currentSize then .readyToStartGrowing else .ready
  else if c.hasGrown then .growing
  else .discovered

/-- **When a file is recommended as `READY`**: it does not grow now, it has been stable for the
time-out, and it has never grown or is below the minimum size. -/
lemma recommend_eq_ready_iff :
    c.recommend cfg = .ready ↔
      c.isCurrentlyGrowing = false ∧ c.isStable cfg = true ∧
        (c.hasGrown = false ∨ c.currentSize < cfg.minSizeBytes) := by
  have hmin : c.currentSize < cfg.minSizeBytes ↔ ¬ cfg.minSizeBytes ≤ c.currentSize :=
    Nat.not_le.symm
  simp only [recommend, hmin]
  cases c.isCurrentlyGrowing <;> cases c.hasGrown <;> cases c.isStable cfg <;>
    by_cases h : cfg.minSizeBytes ≤ c.currentSize <;> simp [h]

end GrowthCheck

/-- The locals of `update_file_growth_info`. -/
structure GrowthInfo where
  newSize : ℕ
  currentTime : ℕ
  growthRate : ℚ
  growthStableSince : Option ℕ

/-- The computation of `update_file_growth_info`. -/
def growthInfo (f : TrackedFile) (now newSize : ℕ) : GrowthInfo where
  newSize := newSize
  currentTime := now
  growthRate :=
    match f.lastGrowthCheck with
    | some last =>
      if 0 < f.firstSeenSize ∧ last < now then growthRate f last now newSize else f.growthRateMbps
    | none => f.growthRateMbps
  growthStableSince := stableSince f now newSize

/-- The growth fields it writes; two of them are read from the record once more. -/
def GrowthInfo.attrs (g : GrowthInfo) (f : TrackedFile) : List Attr :=
  [.fileSize g.newSize, .previousFileSize f.fileSize, .lastGrowthCheck (some g.currentTime),
    .growthRateMbps g.growthRate, .growthStableSince g.growthStableSince,
    .firstSeenSize (if f.firstSeenSize = 0 then g.newSize else f.firstSeenSize)]

/-- The growth fields `update_file_growth_info` writes, with nobody in between. -/
def growthInfoAttrs (f : TrackedFile) (now newSize : ℕ) : List Attr :=
  (growthInfo f now newSize).attrs f

end FileAgent

import Mathlib

set_option relaxedAutoImplicit false
set_option autoImplicit false

/-!
# The data model of the file agent

The enumerations and records of `app/models.py` and the settings of `app/config.py` that the
modelled services read.

A Python reference to a `TrackedFile` object is modelled by the object's uuid: `FileId`. Reading
an attribute through a reference therefore reads the object as it is *now*, which is how the
services, which all share the objects of one in-memory repository, see each other's writes.
Instants are natural numbers of microseconds, byte counts and integer settings are natural
numbers, and the floats are rationals.

## Main definitions

* `FileStatus`, `StorageStatus` — the status enumerations.
* `TrackedFile` — one tracked file, with every field of the source.
* `Attr`, `TrackedFile.setattr` — one keyword argument of `update_file_status_by_id`, and its
  assignment.
* `Settings` — the configuration.
-/

namespace FileAgent

/-- The uuid of a tracked file, and with it a reference to its object. -/
abbrev FileId := ℕ

/-- Absolute path of a source file. -/
abbrev FilePath := String

/-- Seconds in microseconds. -/
def seconds (n : ℕ) : ℕ := n * 1000000

/-- `FileStatus`: status of a tracked file through the whole copying process. -/
inductive FileStatus
  | discovered
  | ready
  | inQueue
  | copying
  | completed
  | failed
  | removed
  | growing
  | readyToStartGrowing
  | growingCopy
  | waitingForSpace
  | spaceError
  | waitingForNetwork
  deriving DecidableEq, Repr

/-- `StorageStatus`: status levels of a storage location. -/
inductive StorageStatus
  | ok
  | warning
  | error
  | critical
  deriving DecidableEq, Repr

/-- `RetryInfo`: a scheduled retry after a space shortage. -/
structure RetryInfo where
  scheduledAt : ℕ
  retryAt : ℕ
  reason : String
  retryType : String := "space"
  deriving DecidableEq

/-- `TrackedFile`: one file through the whole copying process. The `id` of the source is the
`FileId` the object is stored under. -/
structure TrackedFile where
  filePath : FilePath
  status : FileStatus := .discovered
  fileSize : ℕ := 0
  lastWriteTime : Option ℕ := none
  copyProgress : ℚ := 0
  errorMessage : Option String := none
  retryCount : ℕ := 0
  discoveredAt : ℕ
  startedCopyingAt : Option ℕ := none
  completedAt : Option ℕ := none
  failedAt : Option ℕ := none
  spaceErrorAt : Option ℕ := none
  destinationPath : Option String := none
  growthRateMbps : ℚ := 0
  bytesCopied : ℕ := 0
  copySpeedMbps : ℚ := 0
  lastGrowthCheck : Option ℕ := none
  previousFileSize : ℕ := 0
  firstSeenSize : ℕ := 0
  growthStableSince : Option ℕ := none
  retryInfo : Option RetryInfo := none

/-- One keyword argument of `update_file_status_by_id`; the constructors are the attributes the
services pass. -/
inductive Attr
  | fileSize (n : ℕ)
  | lastWriteTime (t : Option ℕ)
  | copyProgress (q : ℚ)
  | errorMessage (m : Option String)
  | retryCount (n : ℕ)
  | startedCopyingAt (t : Option ℕ)
  | spaceErrorAt (t : Option ℕ)
  | destinationPath (p : Option String)
  | growthRateMbps (q : ℚ)
  | bytesCopied (n : ℕ)
  | copySpeedMbps (q : ℚ)
  | lastGrowthCheck (t : Option ℕ)
  | previousFileSize (n : ℕ)
  | firstSeenSize (n : ℕ)
  | growthStableSince (t : Option ℕ)

/-- `setattr(tracked_file, key, value)`. -/
def TrackedFile.setattr (f : TrackedFile) : Attr → TrackedFile
  | .fileSize n => { f with fileSize := n }
  | .lastWriteTime t => { f with lastWriteTime := t }
  | .copyProgress q => { f with copyProgress := q }
  | .errorMessage m => { f with errorMessage := m }
  | .retryCount n => { f with retryCount := n }
  | .startedCopyingAt t => { f with startedCopyingAt := t }
  | .spaceErrorAt t => { f with spaceErrorAt := t }
  | .destinationPath p => { f with destinationPath := p }
  | .growthRateMbps q => { f with growthRateMbps := q }
  | .bytesCopied n => { f with bytesCopied := n }
  | .copySpeedMbps q => { f with copySpeedMbps := q }
  | .lastGrowthCheck t => { f with lastGrowthCheck := t }
  | .previousFileSize n => { f with previousFileSize := n }
  | .firstSeenSize n => { f with firstSeenSize := n }
  | .growthStableSince t => { f with growthStableSince := t }

/-- The loop `for key, value in kwargs.items(): setattr(tracked_file, key, value)`. -/
def TrackedFile.setattrs (f : TrackedFile) (kwargs : List Attr) : TrackedFile :=
  kwargs.foldl TrackedFile.setattr f

namespace TrackedFile

variable (f : TrackedFile) (kwargs : List Attr)

/-- No attribute changes nothing. -/
@[simp] lemma setattrs_nil : f.setattrs [] = f := rfl

/-- Attributes are set one after the other. -/
@[simp] lemma setattrs_cons (a : Attr) : f.setattrs (a :: kwargs) = (f.setattr a).setattrs kwargs :=
  rfl

/-- No attribute is the status. -/
@[simp] lemma setattr_status (a : Attr) : (f.setattr a).status = f.status := by cases a <;> rfl

/-- No attribute is the path. -/
@[simp] lemma setattr_filePath (a : Attr) : (f.setattr a).filePath = f.filePath := by
  cases a <;> rfl

/-- No attribute is the time of discovery. -/
@[simp] lemma setattr_discoveredAt (a : Attr) : (f.setattr a).discoveredAt = f.discoveredAt := by
  cases a <;> rfl

/-- No attribute is the `retry_info`. -/
@[simp] lemma setattr_retryInfo (a : Attr) : (f.setattr a).retryInfo = f.retryInfo := by
  cases a <;> rfl

/-- No keyword argument assigns the status. -/
@[simp] lemma setattrs_status : (f.setattrs kwargs).status = f.status := by
  induction kwargs generalizing f with
  | nil => rfl
  | cons a kwargs ih => rw [setattrs_cons, ih, setattr_status]

/-- No keyword argument assigns the path. -/
@[simp] lemma setattrs_filePath : (f.setattrs kwargs).filePath = f.filePath := by
  induction kwargs generalizing f with
  | nil => rfl
  | cons a kwargs ih => rw [setattrs_cons, ih, setattr_filePath]

/-- Attributes keep the time of discovery. -/
@[simp] lemma setattrs_discoveredAt : (f.setattrs kwargs).discoveredAt = f.discoveredAt := by
  induction kwargs generalizing f with
  | nil => rfl
  | cons a kwargs ih => rw [setattrs_cons, ih, setattr_discoveredAt]

/-- Attributes keep the `retry_info`. -/
@[simp] lemma setattrs_retryInfo : (f.setattrs kwargs).retryInfo = f.retryInfo := by
  induction kwargs generalizing f with
  | nil => rfl
  | cons a kwargs ih => rw [setattrs_cons, ih, setattr_retryInfo]

end TrackedFile

/-- `SpaceCheckResult`. -/
structure SpaceCheckResult where
  hasSpace : Bool
  availableBytes : ℤ
  requiredBytes : ℤ
  fileSizeBytes : ℕ
  safetyMarginBytes : ℤ
  reason : String

/-- `is_temporary_shortage`; `none` if it divides by zero. -/
def SpaceCheckResult.isTemporaryShortage (c : SpaceCheckResult) : Option Bool :=
  if c.hasSpace then some false
  else if c.requiredBytes = 0 then none
  else some (((c.requiredBytes - c.availableBytes : ℤ) : ℚ) / c.requiredBytes < 1 / 5)

/-- `QueueJob`: the tracked file, and its path. -/
structure QueueJob where
  file : FileId
  path : FilePath
  deriving DecidableEq

/-- `Settings`: the configuration the modelled services read, with the defaults of the source. The
directories have none there. -/
structure Settings where
  sourceDirectory : FilePath := ""
  destinationDirectory : FilePath := ""
  sourceWarningThresholdGb : ℚ := 10
  sourceCriticalThresholdGb : ℚ := 5
  destinationWarningThresholdGb : ℚ := 50
  destinationCriticalThresholdGb : ℚ := 20
  growingFileMinSizeMb : ℕ := 100
  growingFileSafetyMarginMb : ℕ := 50
  growingFilePollIntervalSeconds : ℕ := 5
  growingFileGrowthTimeoutSeconds : ℕ := 30
  growingFileChunkSizeKb : ℕ := 2048
  growingCopyPauseMs : ℕ := 100
  keepFilesHours : ℕ := 336
  spaceErrorCooldownMinutes : ℕ := 60
  enablePreCopySpaceCheck : Bool := true
  copySafetyMarginGb : ℚ := 1
  minimumFreeSpaceAfterCopyGb : ℚ := 2
  spaceRetryDelaySeconds : ℕ := 300
  maxSpaceRetries : ℕ := 6

/-- `min_size_bytes = settings.growing_file_min_size_mb * 1024 * 1024`. -/
def Settings.minSizeBytes (cfg : Settings) : ℕ := cfg.growingFileMinSizeMb * 1024 * 1024

/-- `growing_file_growth_timeout_seconds` as a span of time. -/
def Settings.growthTimeout (cfg : Settings) : ℕ := seconds cfg.growingFileGrowthTimeoutSeconds

end FileAgent

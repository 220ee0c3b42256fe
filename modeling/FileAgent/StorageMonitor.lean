import FileAgent.Models

set_option relaxedAutoImplicit false
set_option autoImplicit false

/-!
# The storage monitor

`app/services/storage_checker.py` and the part of `app/services/storage_monitor/` that decides what
a check of a storage location reports and what follows from it.

## Main definitions

* `StorageInfo`, `StorageState` — the result of a check, and the last result per location.
* `evaluateStatus`, `checkPath` — from the readings of the file system to a status.
* `checkedInfo` — the result `_check_single_storage` stores, after an attempt to mount the share or
  to recreate the directory.
* `isDestinationUnavailable`, `isDestinationRecovery` — the two transitions it reacts to.
-/

namespace FileAgent

/-- `storage_type`. -/
inductive StorageType
  | source
  | destination
  deriving DecidableEq

/-- `StorageInfo`. -/
structure StorageInfo where
  path : FilePath
  isAccessible : Bool
  hasWriteAccess : Bool
  freeSpaceGb : ℚ
  totalSpaceGb : ℚ
  usedSpaceGb : ℚ
  status : StorageStatus
  warningThresholdGb : ℚ
  criticalThresholdGb : ℚ
  lastChecked : ℕ
  errorMessage : Option String := none
  deriving DecidableEq

/-- `_evaluate_status`. -/
def evaluateStatus (freeGb warningThresholdGb criticalThresholdGb : ℚ)
    (isAccessible hasWriteAccess : Bool) : StorageStatus :=
  if !isAccessible then .error
  else if !hasWriteAccess then .critical
  else if freeGb < criticalThresholdGb then .critical
  else if freeGb < warningThresholdGb then .warning
  else .ok

/-- What `shutil.disk_usage` returns, in bytes. -/
structure DiskUsage where
  total : ℕ
  used : ℕ
  free : ℕ

/-- What the file system answers during one `check_path`, and when the result is made. Asking for
the disk usage may raise, with a text. -/
structure PathReadings where
  isAccessible : Bool := false
  diskUsage : Except String DiskUsage := .error ""
  hasWriteAccess : Bool := false
  lastChecked : ℕ := 0

/-- Bytes in units of `1024**3`. -/
def toGb (bytes : ℕ) : ℚ := bytes / 1024 ^ 3

/-- `check_path`. An inaccessible path is not examined further, and a failure to get its disk usage
leaves the write access unchecked. -/
def checkPath (path : FilePath) (warningThresholdGb criticalThresholdGb : ℚ) (r : PathReadings) :
    StorageInfo :=
  let usage : DiskUsage :=
    if r.isAccessible then r.diskUsage.toOption.getD ⟨0, 0, 0⟩ else ⟨0, 0, 0⟩
  let hasWriteAccess := r.isAccessible && r.diskUsage.toBool && r.hasWriteAccess
  let errorMessage :=
    if r.isAccessible then
      match r.diskUsage with
      | .ok _ => none
      | .error e => some ("Storage check error: " ++ e)
    else some ("Path " ++ path ++ " is not accessible")
  { path := path
    isAccessible := r.isAccessible
    hasWriteAccess := hasWriteAccess
    freeSpaceGb := toGb usage.free
    totalSpaceGb := toGb usage.total
    usedSpaceGb := toGb usage.used
    status :=
      evaluateStatus (toGb usage.free) warningThresholdGb criticalThresholdGb r.isAccessible
        hasWriteAccess
    warningThresholdGb := warningThresholdGb
    criticalThresholdGb := criticalThresholdGb
    lastChecked := r.lastChecked
    errorMessage := errorMessage }

/-- What the environment answers during one `_check_single_storage`: the first `check_path`, the
mount configuration and the outcome of the mount, the outcome of recreating the directory, and the
`check_path` after either. -/
structure CheckEnvironment where
  first : PathReadings
  mountConfigured : Bool := false
  shareUrl : Option String := none
  mountSuccess : Bool := false
  recreated : Bool := false
  again : PathReadings := {}

/-- The directory of a location. -/
def Settings.directory (cfg : Settings) : StorageType → FilePath
  | .source => cfg.sourceDirectory
  | .destination => cfg.destinationDirectory

/-- The thresholds `_check_all_storage` passes for a location: warning, then critical. -/
def Settings.thresholds (cfg : Settings) : StorageType → ℚ × ℚ
  | .source => (cfg.sourceWarningThresholdGb, cfg.sourceCriticalThresholdGb)
  | .destination => (cfg.destinationWarningThresholdGb, cfg.destinationCriticalThresholdGb)

/-- The `new_info` of `_check_single_storage`. Only the destination is mounted, and the directory
is recreated only if no mount was attempted. -/
def checkedInfo (cfg : Settings) (storageType : StorageType) (env : CheckEnvironment) :
    StorageInfo :=
  let check := checkPath (cfg.directory storageType) (cfg.thresholds storageType).1
    (cfg.thresholds storageType).2
  let mountAttempted :=
    storageType = .destination && env.mountConfigured && env.shareUrl.any (· ≠ "")
  if (check env.first).isAccessible then check env.first
  else if mountAttempted then if env.mountSuccess then check env.again else check env.first
  else if env.recreated then check env.again
  else check env.first

/-- `StorageState`. -/
structure StorageState where
  sourceInfo : Option StorageInfo := none
  destinationInfo : Option StorageInfo := none

/-- `_get_current_info`. -/
def StorageState.currentInfo (st : StorageState) : StorageType → Option StorageInfo
  | .source => st.sourceInfo
  | .destination => st.destinationInfo

/-- `_update_storage_info`. -/
def StorageState.update (st : StorageState) (info : StorageInfo) : StorageType → StorageState
  | .source => { st with sourceInfo := some info }
  | .destination => { st with destinationInfo := some info }

/-- The list `problematic_states`. -/
def StorageStatus.isProblematic : StorageStatus → Bool
  | .error | .critical => true
  | .ok | .warning => false

/-- `_is_destination_recovery`. -/
def isDestinationRecovery (storageType : StorageType) (oldInfo : Option StorageInfo)
    (newInfo : StorageInfo) : Bool :=
  storageType = .destination &&
    oldInfo.any fun old => old.status.isProblematic && newInfo.status = .ok

/-- `_is_destination_unavailable`. -/
def isDestinationUnavailable (storageType : StorageType) (oldInfo : Option StorageInfo)
    (newInfo : StorageInfo) : Bool :=
  storageType = .destination &&
    oldInfo.any fun old => old.status = .ok && newInfo.status.isProblematic

/-- A result is either a loss of the destination or a recovery of it, never both, so the order in
which `_check_single_storage` asks for them does not matter. -/
lemma not_unavailable_of_recovery {storageType : StorageType} {oldInfo : Option StorageInfo}
    {newInfo : StorageInfo} (h : isDestinationRecovery storageType oldInfo newInfo = true) :
    isDestinationUnavailable storageType oldInfo newInfo = false := by
  cases oldInfo with
  | none => simp [isDestinationUnavailable]
  | some old =>
    simp only [isDestinationRecovery, Option.any_some, Bool.and_eq_true, decide_eq_true_eq] at h
    simp [isDestinationUnavailable, h.2.2, StorageStatus.isProblematic]

end FileAgent

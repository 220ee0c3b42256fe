import FileAgent.Models

set_option relaxedAutoImplicit false
set_option autoImplicit false

/-!
# The copy strategy

`GrowingFileCopyStrategy.copy_file` of `app/services/copy_strategies.py`, with the methods it calls,
as a machine that is suspended at one `await` at a time. A `CopyPoint` is a suspended `copy_file`:
it says which `await` the coroutine is at and holds the local variables. `CopyPoint.request` is the
operation awaited, `CopyPoint.resume` runs the code from its answer to the next `await`. A `sleep`
that is followed at once by a size check is one point with it, and closing the source file is part
of the last read.

The machine does not say how requests are answered: `CopyIntegrity` and `CopyTermination` answer
them by a file that grows, and `Worker` has its status updates run by the state manager.

## Main definitions

* `PyError`, `PyError.isNetworkError` — exceptions, as far as their handlers look at them.
* `isFileCurrentlyGrowing` — the test that tells growing files from static ones.
* `CopyPoint`, `CopyRequest`, `CopyAnswer`, `CopyPoint.request`, `CopyPoint.resume` — the machine.
* `CopyPoint.Next` — its transitions.

## Main results

* `CopyPoint.next_of_resume` — what the code between two awaits does.
-/

namespace FileAgent

/-! ## Exceptions -/

/-- The classes of exceptions that some handler tells apart. -/
inductive ErrorKind
  | fileNotFound
  | os
  | network
  | other
  deriving DecidableEq

/-- An exception: its class, its `errno`, and its text. -/
structure PyError where
  kind : ErrorKind
  errno : Option ℤ := none
  message : String
  deriving DecidableEq

/-- `isinstance(e, OSError)`. -/
def PyError.isOSError (e : PyError) : Bool := e.kind = .fileNotFound || e.kind = .os

/-- What a character is lowered to. Outside ASCII, only the sign for Kelvin and the dotted capital I
become letters of ASCII. -/
def lowerChar (c : Char) : List Char :=
  if c = '\u212a' then ['k'] else if c = '\u0130' then ['i', '\u0307'] else [c.toLower]

/-- `text.lower()`, as far as letters of ASCII are concerned: other characters keep their case. -/
def lowerText (text : String) : List Char := text.toList.flatMap lowerChar

/-- `needle in text.lower()`, for a needle in ASCII. -/
def containsLower (needle text : String) : Bool := decide (needle.toList <:+: lowerText text)

/-- `str.lower` of two texts in a row. -/
@[simp] lemma lowerText_append (s t : String) :
    lowerText (s ++ t) = lowerText s ++ lowerText t := by
  simp [lowerText]

/-- `network_indicators`. -/
def networkIndicators : List String :=
  ["invalid argument", "errno 22", "network path was not found", "winerror 53",
    "the network name cannot be found", "winerror 67", "access is denied", "input/output error",
    "errno 5", "connection refused", "network is unreachable"]

/-- `is_network_error`, as the two handlers of the strategy compute it. -/
def PyError.isNetworkError (e : PyError) : Bool :=
  networkIndicators.any (containsLower · e.message) ||
    e.errno.any (· ∈ [22, 5, 53, 67, 1231, 13])

/-- `NetworkErrorDetector.NETWORK_ERROR_STRINGS`. -/
def networkErrorStrings : List String :=
  ["input/output error", "errno 5", "connection refused", "network is unreachable",
    "no route to host", "connection timed out", "broken pipe", "errno 32", "errno 110",
    "errno 111", "smb error", "cifs error", "mount_smbfs", "network mount", "permission denied",
    "invalid argument", "errno 22", "network path was not found", "winerror 53",
    "the network name cannot be found", "winerror 67", "the network location cannot be reached",
    "winerror 1231", "access is denied", "errno 13"]

/-- `NetworkErrorDetector.NETWORK_ERRNO_CODES`: `EIO`, `ECONNREFUSED`, `ETIMEDOUT`, `ENETUNREACH`,
`EHOSTUNREACH`, `EPIPE`, `EACCES`, `ENOTCONN`, `ECONNRESET`, `EINVAL`, `ENOENT` and the codes of
Windows. -/
def networkErrnoCodes : List ℤ := [5, 111, 110, 101, 113, 32, 13, 107, 104, 22, 2, 53, 67, 1231]

/-- A `NetworkError` with the text `message`. -/
def networkError (message : String) : PyError := { kind := .network, message := message }

/-- `check_write_error`, followed by `raise write_error`. -/
def checkWriteError (e : PyError) : PyError :=
  if networkErrorStrings.any (containsLower · e.message) || e.errno.any (· ∈ networkErrnoCodes) then
    networkError ("Network error during growing copy chunk write: " ++ e.message)
  else e

/-- How `copy_file` ends. -/
inductive CopyOutcome
  | returned (success : Bool)
  | raised (e : PyError)
  deriving DecidableEq

/-- The handlers of `_copy_growing_file`, and what `copy_file` makes of their result. -/
def growingFileFailed (e : PyError) : CopyOutcome :=
  if e.kind = .network then .raised e
  else if e.isNetworkError then
    .raised (networkError ("Network error during growing copy: " ++ e.message))
  else .returned false

/-- The handlers of `copy_file`. -/
def copyFileFailed (e : PyError) : CopyOutcome :=
  if e.kind = .fileNotFound then .raised e else growingFileFailed e

/-! ## Local variables -/

/-- `_is_file_currently_growing`. -/
def isFileCurrentlyGrowing (f : TrackedFile) : Bool :=
  match f.status with
  | .growing | .readyToStartGrowing | .growingCopy => true
  | .copying => false
  | _ =>
    0 < f.growthRateMbps || (0 < f.firstSeenSize && f.firstSeenSize < f.fileSize) ||
      (0 < f.previousFileSize && f.fileSize ≠ f.previousFileSize)

/-- The locals of `_growing_copy_loop`. -/
structure LoopVars where
  /-- `tracked_file`. -/
  file : FileId
  bytesCopied : ℕ
  lastFileSize : ℕ
  noGrowthCycles : ℕ
  maxNoGrowthCycles : ℕ
  safetyMarginBytes : ℕ
  pauseMs : ℕ
  fileFinishedGrowing : Bool

/-- The locals of `_copy_chunk_range`. Its `status` is the one of the loop, `LoopVars.copyStatus`.
-/
structure RangeVars where
  bytesCopied : ℕ
  bytesToCopy : ℕ
  currentFileSize : ℕ
  pauseMs : ℕ

/-- The locals `_copy_growing_file` passes to the loop. A static file has no safety margin and no
pause, and starts as finished growing. -/
def LoopVars.start (cfg : Settings) (isGrowingFile : Bool) (file : FileId) : LoopVars :=
  let maxNoGrowthCycles :=
    cfg.growingFileGrowthTimeoutSeconds / cfg.growingFilePollIntervalSeconds
  let noGrowthCycles := if isGrowingFile then 0 else maxNoGrowthCycles
  { file := file
    bytesCopied := 0
    lastFileSize := 0
    noGrowthCycles := noGrowthCycles
    maxNoGrowthCycles := maxNoGrowthCycles
    safetyMarginBytes :=
      if isGrowingFile then cfg.growingFileSafetyMarginMb * 1024 * 1024 else 0
    pauseMs := if isGrowingFile then cfg.growingCopyPauseMs else 0
    fileFinishedGrowing := maxNoGrowthCycles ≤ noGrowthCycles }

namespace LoopVars

variable (v : LoopVars) (currentFileSize : ℕ)

/-- The growth detection of one round of the loop. -/
def observe : LoopVars :=
  if v.fileFinishedGrowing then v
  else if v.lastFileSize < currentFileSize then
    { v with noGrowthCycles := 0, lastFileSize := currentFileSize }
  else
    { v with
      noGrowthCycles := v.noGrowthCycles + 1
      fileFinishedGrowing := v.maxNoGrowthCycles ≤ v.noGrowthCycles + 1 }

/-- `safe_copy_to`. -/
def safeCopyTo : ℕ :=
  if v.fileFinishedGrowing then currentFileSize else currentFileSize - v.safetyMarginBytes

/-- `use_pause`: the distance from the write head is within the buffer zone. -/
def usePause : Bool :=
  !v.fileFinishedGrowing && !(v.bytesCopied + v.safetyMarginBytes * 2 < currentFileSize)

/-- `status`. -/
def copyStatus : FileStatus := if v.fileFinishedGrowing then .copying else .growingCopy

end LoopVars

/-! ## The machine -/

/-- The operations `copy_file` awaits. -/
inductive CopyRequest
  | sourceSize
  | destSize
  | getFileByPath
  | makedirs
  | openDest
  | getFileById (id : FileId)
  | openSource
  /-- Read at most `size` bytes at position `offset` of the source. -/
  | read (offset size : ℕ)
  | write (chunk : List UInt8)
  | checkDestinationConnectivity
  | updateFileStatusById (id : FileId) (status : FileStatus) (kwargs : List Attr)
  | sleep
  | closeDest
  | removeSource
  /-- `copy_file` has ended. -/
  | nothing

/-- The answers to them. -/
inductive CopyAnswer
  | done
  | size (n : ℕ)
  | timeout
  | error (e : PyError)
  /-- The file found by its path. -/
  | found (id : Option FileId)
  /-- Whether the file is stored. -/
  | stored (present : Bool)
  | data (chunk : List UInt8)
  /-- The destination is reachable. The transfer rate follows from the clock and from when the
  strategy copied its first bytes. -/
  | connected (copySpeedMbps : ℚ)

/-- A suspended `copy_file`. The argument `file` is `tracked_file`. -/
inductive CopyPoint
  | initialSize (file : FileId)
  | waitSize (file : FileId)
  | latestFile (file : FileId)
  | makedirs (file : FileId)
  | openDest (v : LoopVars)
  | getRecord (v : LoopVars)
  | loopSize (v : LoopVars)
  | openSource (v : LoopVars) (r : RangeVars)
  | read (v : LoopVars) (r : RangeVars)
  | write (v : LoopVars) (r : RangeVars) (chunk : List UInt8)
  | connectivity (v : LoopVars) (r : RangeVars)
  | progress (v : LoopVars) (r : RangeVars) (copySpeedMbps : ℚ)
  | pause (v : LoopVars) (r : RangeVars)
  | growthUpdate (v : LoopVars) (currentFileSize : ℕ)
  | sleep (v : LoopVars)
  /-- Leaving `async with aiofiles.open(dest_path, "wb")`, with the exception in flight. -/
  | closeDest (file : FileId) (inFlight : Option PyError)
  | verifySource (file : FileId)
  | verifyDest (file : FileId) (sourceSize : ℕ)
  | removeSource (file : FileId)
  | markCompleted (file : FileId)
  | done (outcome : CopyOutcome)

/-- `copy_ratio`. -/
def copyRatio (bytesCopied currentFileSize : ℕ) : ℚ :=
  if 0 < currentFileSize then bytesCopied / currentFileSize * 100 else 0

namespace CopyPoint

/-- The operation a suspended `copy_file` awaits. -/
def request (cfg : Settings) (destPath : String) : CopyPoint → CopyRequest
  | initialSize _ | waitSize _ | loopSize _ | verifySource _ => .sourceSize
  | latestFile _ => .getFileByPath
  | makedirs _ => .makedirs
  | openDest _ => .openDest
  | getRecord v => .getFileById v.file
  | openSource _ _ => .openSource
  | read _ r => .read r.bytesCopied (min (cfg.growingFileChunkSizeKb * 1024) r.bytesToCopy)
  | write _ _ chunk => .write chunk
  | connectivity _ _ => .checkDestinationConnectivity
  | progress v r copySpeedMbps =>
    .updateFileStatusById v.file v.copyStatus
      [.copyProgress (copyRatio r.bytesCopied r.currentFileSize), .bytesCopied r.bytesCopied,
        .fileSize r.currentFileSize, .copySpeedMbps copySpeedMbps]
  | pause _ _ | sleep _ => .sleep
  | growthUpdate v currentFileSize =>
    .updateFileStatusById v.file .growingCopy
      [.copyProgress (copyRatio v.bytesCopied currentFileSize), .bytesCopied v.bytesCopied,
        .fileSize currentFileSize]
  | closeDest _ _ => .closeDest
  | verifyDest _ _ => .destSize
  | removeSource _ => .removeSource
  | markCompleted file =>
    .updateFileStatusById file .completed [.copyProgress 100, .destinationPath (some destPath)]
  | done _ => .nothing

/-- The end of one round of `_growing_copy_loop`. -/
def loopEnd (v : LoopVars) (currentFileSize : ℕ) : CopyPoint :=
  if v.fileFinishedGrowing && currentFileSize ≤ v.bytesCopied then closeDest v.file none
  else if !v.fileFinishedGrowing then sleep v
  else getRecord v

/-- The end of `_copy_chunk_range`. -/
def rangeEnd (v : LoopVars) (r : RangeVars) : CopyPoint :=
  loopEnd { v with bytesCopied := r.bytesCopied } r.currentFileSize

/-- The head of the loop of `_copy_chunk_range`. -/
def rangeHead (v : LoopVars) (r : RangeVars) : CopyPoint :=
  if 0 < r.bytesToCopy then read v r else rangeEnd v r

/-- The round of `_growing_copy_loop` from its size check on. -/
def loopRound (v : LoopVars) (currentFileSize : ℕ) : CopyPoint :=
  let v := v.observe currentFileSize
  if v.bytesCopied < v.safeCopyTo currentFileSize then
    openSource v
      { bytesCopied := v.bytesCopied
        bytesToCopy := v.safeCopyTo currentFileSize - v.bytesCopied
        currentFileSize := currentFileSize
        pauseMs := if v.usePause currentFileSize then v.pauseMs else 0 }
  else if !v.fileFinishedGrowing then growthUpdate v currentFileSize
  else loopEnd v currentFileSize

/-- The locals of `_copy_chunk_range` after a chunk is written. -/
def wrote (r : RangeVars) (chunk : List UInt8) : RangeVars :=
  { r with
    bytesCopied := r.bytesCopied + chunk.length
    bytesToCopy := r.bytesToCopy - chunk.length }

/-- `max_no_growth_cycles` divides by the poll interval. -/
def zeroDivisionError : PyError :=
  { kind := .other, message := "integer division or modulo by zero" }

/-- The code between two awaits: from the answer `a` at a point to the next point. Attributes of
the file are read through `heap`, the objects as they are when the code runs. -/
def resume (cfg : Settings) (heap : FileId → TrackedFile) :
    CopyPoint → CopyAnswer → Option CopyPoint
  | initialSize file, .size n =>
    if isFileCurrentlyGrowing (heap file) && n < cfg.minSizeBytes then some (waitSize file)
    else some (latestFile file)
  | initialSize _, .timeout => some (done (.returned false))
  | initialSize _, .error e => some (done (copyFileFailed e))
  | waitSize file, .size n =>
    if n < cfg.minSizeBytes then some (waitSize file) else some (latestFile file)
  | waitSize _, .timeout => some (done (.returned false))
  | waitSize _, .error e =>
    some (done (if e.isOSError then .returned false else copyFileFailed e))
  | latestFile file, .found latest => some (makedirs (latest.getD file))
  | makedirs file, .done =>
    if cfg.growingFilePollIntervalSeconds = 0 then
      some (done (growingFileFailed zeroDivisionError))
    else some (openDest (.start cfg (isFileCurrentlyGrowing (heap file)) file))
  | makedirs _, .error _ => some (done (.returned false))
  | openDest v, .done => some (getRecord v)
  | openDest _, .error e => some (done (growingFileFailed e))
  | getRecord v, .stored true => some (loopSize v)
  | getRecord v, .stored false => some (closeDest v.file none)
  | loopSize v, .size n => some (loopRound v n)
  | loopSize v, .timeout => some (closeDest v.file none)
  | loopSize v, .error e => some (closeDest v.file (if e.isOSError then none else some e))
  | openSource v r, .done => some (rangeHead v r)
  | openSource v _, .error e => some (closeDest v.file (some e))
  | read v r, .data chunk => some (if chunk = [] then rangeEnd v r else write v r chunk)
  | read v _, .error e => some (closeDest v.file (some e))
  | write v r chunk, .done => some (connectivity v (wrote r chunk))
  | write v _ _, .error e => some (closeDest v.file (some (checkWriteError e)))
  | connectivity v r, .connected copySpeedMbps => some (progress v r copySpeedMbps)
  | connectivity v _, .error e => some (closeDest v.file (some e))
  | progress v r _, .done => some (if 0 < r.pauseMs then pause v r else rangeHead v r)
  | pause v r, .done => some (rangeHead v r)
  | growthUpdate v currentFileSize, .done => some (loopEnd v currentFileSize)
  | sleep v, .done => some (getRecord v)
  | closeDest file none, .done => some (verifySource file)
  | closeDest _ (some e), .done => some (done (growingFileFailed e))
  | closeDest _ _, .error e => some (done (growingFileFailed e))
  | verifySource file, .size n => some (verifyDest file n)
  | verifySource _, .error _ => some (done (.returned false))
  | verifyDest file n, .size k =>
    if n = k then some (removeSource file) else some (done (.returned false))
  | verifyDest _ _, .error _ => some (done (.returned false))
  | removeSource file, .done => some (markCompleted file)
  | removeSource file, .error e =>
    if e.isOSError then some (markCompleted file) else some (done (copyFileFailed e))
  | markCompleted _, .done => some (done (.returned true))
  | _, _ => none

/-- A read returns at most the bytes it asked for. -/
def readFits (cfg : Settings) : CopyPoint → CopyAnswer → Bool
  | read _ r, .data chunk => chunk.length ≤ min (cfg.growingFileChunkSizeKb * 1024) r.bytesToCopy
  | _, _ => true

/-! ## Where the loop goes -/

/-- What the end of a round does. -/
lemma loopEnd_cases (v : LoopVars) (n : ℕ) :
    loopEnd v n = closeDest v.file none ∧ v.fileFinishedGrowing = true ∨
      loopEnd v n = sleep v ∧ v.fileFinishedGrowing = false ∨
      loopEnd v n = getRecord v ∧ v.fileFinishedGrowing = true ∧ v.bytesCopied < n := by
  unfold loopEnd
  cases hf : v.fileFinishedGrowing
  · exact .inr (.inl ⟨by simp, rfl⟩)
  · by_cases hn : n ≤ v.bytesCopied
    · exact .inl ⟨by simp [hn], rfl⟩
    · exact .inr (.inr ⟨by simp [hn], rfl, Nat.lt_of_not_le hn⟩)

/-- The loop over a range reads on, or its round ends. -/
lemma rangeHead_cases (v : LoopVars) (r : RangeVars) :
    rangeHead v r = read v r ∧ 0 < r.bytesToCopy ∨
      rangeHead v r = loopEnd { v with bytesCopied := r.bytesCopied } r.currentFileSize ∧
        r.bytesToCopy = 0 := by
  unfold rangeHead rangeEnd
  by_cases hpos : 0 < r.bytesToCopy
  · exact .inl ⟨if_pos hpos, hpos⟩
  · exact .inr ⟨if_neg hpos, Nat.eq_zero_of_not_pos hpos⟩

/-- A reading of the size keeps the record. -/
lemma observe_file (v : LoopVars) (n : ℕ) : (v.observe n).file = v.file := by
  unfold LoopVars.observe
  split_ifs <;> rfl

/-- A reading of the size keeps the bytes copied. -/
lemma observe_bytesCopied (v : LoopVars) (n : ℕ) : (v.observe n).bytesCopied = v.bytesCopied := by
  unfold LoopVars.observe
  split_ifs <;> rfl

/-- A round copies a range from `bytes_copied` on, or reports, or ends. -/
lemma loopRound_cases (v : LoopVars) (n : ℕ) :
    ∃ v' : LoopVars, v'.file = v.file ∧ v'.bytesCopied = v.bytesCopied ∧
      ((∃ r : RangeVars, r.bytesCopied = v.bytesCopied ∧ loopRound v n = openSource v' r) ∨
        loopRound v n = growthUpdate v' n ∨ loopRound v n = loopEnd v' n) := by
  refine ⟨v.observe n, observe_file v n, observe_bytesCopied v n, ?_⟩
  unfold loopRound
  dsimp only
  split
  · exact .inl ⟨_, observe_bytesCopied v n, rfl⟩
  · split
    · exact .inr (.inl rfl)
    · exact .inr (.inr rfl)

/-! ## The file -/

/-- `tracked_file`. -/
def file? : CopyPoint → Option FileId
  | initialSize file | waitSize file | latestFile file | makedirs file | closeDest file _
  | verifySource file | verifyDest file _ | removeSource file | markCompleted file => some file
  | openDest v | getRecord v | loopSize v | openSource v _ | read v _ | write v _ _
  | connectivity v _ | progress v _ _ | pause v _ | growthUpdate v _ | sleep v => some v.file
  | done _ => none

section File

/-- The end of the loop works on the same record. -/
lemma file?_loopEnd (v : LoopVars) (n : ℕ) : (loopEnd v n).file? = some v.file := by
  rcases loopEnd_cases v n with ⟨h, -⟩ | ⟨h, -⟩ | ⟨h, -⟩ <;> rw [h] <;> rfl

/-- The head of the inner loop works on the same record. -/
lemma file?_rangeHead (v : LoopVars) (r : RangeVars) : (rangeHead v r).file? = some v.file := by
  rcases rangeHead_cases v r with ⟨h, -⟩ | ⟨h, -⟩ <;> rw [h]
  · rfl
  · exact file?_loopEnd _ _

/-- A round of the loop works on the same record. -/
lemma file?_loopRound (v : LoopVars) (n : ℕ) : (loopRound v n).file? = some v.file := by
  obtain ⟨v', hfile, -, ⟨r, -, h⟩ | h | h⟩ := loopRound_cases v n <;> rw [h, ← hfile]
  · rfl
  · rfl
  · exact file?_loopEnd _ _

end File

/-! ## The transitions -/

/-- The transitions of the machine. The errors that end the copy at once are taken together, and so
are those that close the destination first. -/
inductive Next (cfg : Settings) (heap : FileId → TrackedFile) :
    CopyPoint → CopyAnswer → CopyPoint → Prop
  | polled {p p' : CopyPoint} {file : FileId} {n : ℕ}
      (hp : p = initialSize file ∨ p = waitSize file)
      (hp' : p' = waitSize file ∨ p' = latestFile file) : Next cfg heap p (.size n) p'
  | found (file : FileId) (latest : Option FileId) :
      Next cfg heap (latestFile file) (.found latest) (makedirs (latest.getD file))
  | started (file : FileId) (hpoll : cfg.growingFilePollIntervalSeconds ≠ 0) :
      Next cfg heap (makedirs file) .done
        (openDest (.start cfg (isFileCurrentlyGrowing (heap file)) file))
  | opened (v : LoopVars) : Next cfg heap (openDest v) .done (getRecord v)
  | recorded (v : LoopVars) : Next cfg heap (getRecord v) (.stored true) (loopSize v)
  | gaveUp {p : CopyPoint} {a : CopyAnswer} {v : LoopVars} (hp : p = getRecord v ∨ p = loopSize v) :
      Next cfg heap p a (closeDest v.file none)
  | sized (v : LoopVars) (n : ℕ) : Next cfg heap (loopSize v) (.size n) (loopRound v n)
  | openedSource (v : LoopVars) (r : RangeVars) :
      Next cfg heap (openSource v r) .done (rangeHead v r)
  | readNothing (v : LoopVars) (r : RangeVars) :
      Next cfg heap (read v r) (.data []) (rangeEnd v r)
  | readChunk (v : LoopVars) (r : RangeVars) (chunk : List UInt8) (hchunk : chunk ≠ []) :
      Next cfg heap (read v r) (.data chunk) (write v r chunk)
  | wroteChunk (v : LoopVars) (r : RangeVars) (chunk : List UInt8) :
      Next cfg heap (write v r chunk) .done (connectivity v (wrote r chunk))
  | connected (v : LoopVars) (r : RangeVars) (copySpeedMbps : ℚ) :
      Next cfg heap (connectivity v r) (.connected copySpeedMbps) (progress v r copySpeedMbps)
  | pausing (v : LoopVars) (r : RangeVars) (copySpeedMbps : ℚ) (hpause : 0 < r.pauseMs) :
      Next cfg heap (progress v r copySpeedMbps) .done (pause v r)
  | reported (v : LoopVars) (r : RangeVars) (copySpeedMbps : ℚ) :
      Next cfg heap (progress v r copySpeedMbps) .done (rangeHead v r)
  | paused (v : LoopVars) (r : RangeVars) : Next cfg heap (pause v r) .done (rangeHead v r)
  | updated (v : LoopVars) (n : ℕ) : Next cfg heap (growthUpdate v n) .done (loopEnd v n)
  | slept (v : LoopVars) : Next cfg heap (sleep v) .done (getRecord v)
  | closed (file : FileId) : Next cfg heap (closeDest file none) .done (verifySource file)
  | verifiedSource (file : FileId) (n : ℕ) :
      Next cfg heap (verifySource file) (.size n) (verifyDest file n)
  | verified (file : FileId) (n : ℕ) :
      Next cfg heap (verifyDest file n) (.size n) (removeSource file)
  | removed (file : FileId) (a : CopyAnswer) :
      Next cfg heap (removeSource file) a (markCompleted file)
  | completed (file : FileId) : Next cfg heap (markCompleted file) .done (done (.returned true))
  | raised {p : CopyPoint} {file : FileId} {e : PyError} (a : CopyAnswer)
      (hp : p.file? = some file) : Next cfg heap p a (closeDest file (some e))
  | failed (p : CopyPoint) (a : CopyAnswer) {o : CopyOutcome} (ho : o ≠ .returned true) :
      Next cfg heap p a (done o)

section Transitions

variable {cfg : Settings} {heap : FileId → TrackedFile} {p p' : CopyPoint} {a : CopyAnswer}

/-- `_copy_growing_file` does not return `True` after an exception. -/
lemma growingFileFailed_ne (e : PyError) : growingFileFailed e ≠ .returned true := by
  unfold growingFileFailed
  split_ifs <;> simp

/-- `copy_file` does not return `True` after an exception. -/
lemma copyFileFailed_ne (e : PyError) : copyFileFailed e ≠ .returned true := by
  unfold copyFileFailed
  split_ifs
  · simp
  · exact growingFileFailed_ne e

/-- **What the code between two awaits does.**

**Proof sketch.** By cases on the point and on the answer, in the order of the source. Each branch
is one constructor of `Next`; what no branch takes is an answer that the point does not wait for. -/
theorem next_of_resume (h : p.resume cfg heap a = some p') : Next cfg heap p a p' := by
  have hfalse : CopyOutcome.returned false ≠ .returned true := by decide
  cases p with
  | initialSize file =>
    cases a with
    | size n =>
      simp only [resume] at h
      split_ifs at h <;> cases h
      · exact .polled (.inl rfl) (.inl rfl)
      · exact .polled (.inl rfl) (.inr rfl)
    | timeout => cases h; exact .failed _ _ hfalse
    | error e => cases h; exact .failed _ _ (copyFileFailed_ne e)
    | _ => cases h
  | waitSize file =>
    cases a with
    | size n =>
      simp only [resume] at h
      split_ifs at h <;> cases h
      · exact .polled (.inr rfl) (.inl rfl)
      · exact .polled (.inr rfl) (.inr rfl)
    | timeout => cases h; exact .failed _ _ hfalse
    | error e =>
      cases h
      split_ifs
      · exact .failed _ _ hfalse
      · exact .failed _ _ (copyFileFailed_ne e)
    | _ => cases h
  | latestFile file =>
    cases a <;> cases h
    exact .found _ _
  | makedirs file =>
    cases a with
    | done =>
      simp only [resume] at h
      split_ifs at h with hpoll <;> cases h
      · exact .failed _ _ (growingFileFailed_ne _)
      · exact .started file hpoll
    | error e => cases h; exact .failed _ _ hfalse
    | _ => cases h
  | openDest v =>
    cases a <;> cases h
    · exact .opened v
    · exact .failed _ _ (growingFileFailed_ne _)
  | getRecord v =>
    cases a with
    | stored present =>
      cases present <;> cases h
      · exact .gaveUp (.inl rfl)
      · exact .recorded v
    | _ => cases h
  | loopSize v =>
    cases a with
    | size n => cases h; exact .sized v n
    | timeout => cases h; exact .gaveUp (.inr rfl)
    | error e =>
      simp only [resume] at h
      split_ifs at h <;> cases h
      · exact .gaveUp (.inr rfl)
      · exact .raised _ rfl
    | _ => cases h
  | openSource v r =>
    cases a <;> cases h
    · exact .openedSource v r
    · exact .raised _ rfl
  | read v r =>
    cases a with
    | data chunk =>
      simp only [resume] at h
      split_ifs at h with hchunk <;> cases h
      · subst hchunk
        exact .readNothing v r
      · exact .readChunk v r chunk hchunk
    | error e => cases h; exact .raised _ rfl
    | _ => cases h
  | write v r chunk =>
    cases a <;> cases h
    · exact .wroteChunk v r chunk
    · exact .raised _ rfl
  | connectivity v r =>
    cases a <;> cases h
    · exact .raised _ rfl
    · exact .connected v r _
  | progress v r speed =>
    cases a <;> cases h
    split_ifs with hpause
    · exact .pausing v r speed hpause
    · exact .reported v r speed
  | pause v r => cases a <;> cases h; exact .paused v r
  | growthUpdate v n => cases a <;> cases h; exact .updated v n
  | sleep v => cases a <;> cases h; exact .slept v
  | closeDest file inFlight =>
    cases a <;> cases inFlight <;> cases h
    · exact .closed file
    all_goals exact .failed _ _ (growingFileFailed_ne _)
  | verifySource file =>
    cases a <;> cases h
    · exact .verifiedSource file _
    · exact .failed _ _ hfalse
  | verifyDest file n =>
    cases a with
    | size k =>
      simp only [resume] at h
      split_ifs at h with hsize <;> cases h
      · subst hsize
        exact .verified file n
      · exact .failed _ _ hfalse
    | error e => cases h; exact .failed _ _ hfalse
    | _ => cases h
  | removeSource file =>
    cases a with
    | done => cases h; exact .removed file _
    | error e =>
      simp only [resume] at h
      split_ifs at h <;> cases h
      · exact .removed file _
      · exact .failed _ _ (copyFileFailed_ne e)
    | _ => cases h
  | markCompleted file => cases a <;> cases h; exact .completed file
  | done o => cases a <;> cases h

/-- **`tracked_file` stays the same**, but for the file found by its path. -/
lemma file?_resume (h : p.resume cfg heap a = some p') :
    p'.file? = none ∨ p'.file? = p.file? ∨
      ∃ file latest, p = latestFile file ∧ a = .found latest ∧
        p' = makedirs (latest.getD file) := by
  cases next_of_resume h with
  | failed => exact .inl rfl
  | completed => exact .inl rfl
  | found file latest => exact .inr (.inr ⟨file, latest, rfl, rfl, rfl⟩)
  | polled hp hp' =>
    rcases hp with rfl | rfl <;> rcases hp' with rfl | rfl <;> exact .inr (.inl rfl)
  | gaveUp hp => rcases hp with rfl | rfl <;> exact .inr (.inl rfl)
  | raised _ hp => exact .inr (.inl hp.symm)
  | sized v n => exact .inr (.inl (file?_loopRound v n))
  | openedSource v r => exact .inr (.inl (file?_rangeHead v r))
  | readNothing v r => exact .inr (.inl (file?_loopEnd _ _))
  | reported v r => exact .inr (.inl (file?_rangeHead v r))
  | paused v r => exact .inr (.inl (file?_rangeHead v r))
  | updated v n => exact .inr (.inl (file?_loopEnd v n))
  | _ => exact .inr (.inl rfl)

end Transitions

end CopyPoint

end FileAgent

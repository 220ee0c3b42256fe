import FileAgent.GrowthMonitor
import FileAgent.JobQueue

set_option relaxedAutoImplicit false
set_option autoImplicit false

/-!
# The scanner

`FileScanner._scan_folder_loop` of `app/services/scanner/file_scanner.py`, with the event bus
configured. A status change is published by the scanner itself, and its handler awaited, before the
loop goes on; the events of a file that is ready are handled in the scanner's own task.

## Main definitions

* `ScannerPoint`, `ScannerPoint.op`, `ScannerPoint.after` — the loop.
* `ScannerPoint.publishes` — the status change the scanner publishes.
* `ScannerPoint.Next` — the transitions of the loop.

## Main results

* `ScannerPoint.next_of_after` — what the code between two awaits does.
-/

namespace FileAgent

/-- The suspended loop. The lists are what is left of a `for` loop. -/
inductive ScannerPoint
  /-- `_execute_scan_iteration`. -/
  | discover
  | cleanupMissing (paths : List FilePath)
  | cleanupOld
  | discoverAgain
  /-- `_process_discovered_files`. -/
  | shouldSkip (path : FilePath) (rest : List FilePath)
  | getActive (path : FilePath) (rest : List FilePath)
  | newMetadata (path : FilePath) (rest : List FilePath)
  | addFile (path : FilePath) (size : ℕ) (lastWriteTime : Option ℕ) (rest : List FilePath)
  /-- `_check_existing_file_changes`. -/
  | metadata (f : FileId) (rest : List FilePath)
  | sizeChange (f : FileId) (status : FileStatus) (size : ℕ) (lastWriteTime : Option ℕ)
      (rest : List FilePath)
  /-- `_check_file_stability`. -/
  | getDiscovered
  | getGrowing (discovered : List FileId)
  | growthMetadata (f : FileId) (rest : List FileId)
  /-- `update_file_growth_info`. -/
  | growthFile (f : FileId) (info : GrowthInfo) (rest : List FileId)
  | growthUpdate (f : FileId) (status : FileStatus) (attrs : List Attr) (rest : List FileId)
  /-- `check_file_growth_status`. -/
  | check (f : FileId) (p : CheckPoint) (rest : List FileId)
  /-- `_handle_growing_file_logic`: the event of a recommended status is published, and then
  `handle_file_ready` runs. -/
  | published (f : FileId) (recommendedStatus : FileStatus) (rest : List FileId)
  | ready (f : FileId) (p : HandlerPoint) (rest : List FileId)
  | sleep

namespace ScannerPoint

/-- The loop of `_process_discovered_files`, up to its next await. -/
def nextPath : List FilePath → ScannerPoint
  | [] => getDiscovered
  | path :: rest => shouldSkip path rest

/-- The loop of `_check_file_stability`, up to its next await. -/
def nextFile : List FileId → ScannerPoint
  | [] => sleep
  | f :: rest => growthMetadata f rest

/-- The operation the loop awaits. -/
def op (cfg : Settings) : ScannerPoint → Op
  | discover | discoverAgain | newMetadata _ _ | metadata _ _ | growthMetadata _ _
  | published _ _ _ | sleep => .io
  | cleanupMissing paths => .call (.cleanupMissingFiles paths)
  | cleanupOld => .call (.cleanupOldFiles cfg.keepFilesHours)
  | shouldSkip path _ => .shouldSkipFileProcessing path
  | getActive path _ => .getActiveFileByPath path
  | addFile path size lastWriteTime _ => .call (.addFile path size lastWriteTime)
  | sizeChange f status size lastWriteTime _ =>
    .call (.updateFileStatusById f status [.fileSize size, .lastWriteTime lastWriteTime])
  | getDiscovered => .getFilesByStatus .discovered
  | getGrowing _ => .getFilesByStatus .growing
  | growthFile f _ _ => .getFileById f
  | growthUpdate f status attrs _ => .call (.updateFileStatusById f status attrs)
  | check f p _ => p.op f
  | ready f p _ => p.op f

/-- After `update_file_growth_info`. -/
def afterGrowthInfo (heap : FileId → TrackedFile) (f : FileId) (rest : List FileId) :
    ScannerPoint :=
  match checkFileGrowthStatus heap f with
  | .goesOn p => check f p rest
  | .recommends _ => nextFile rest

/-- After `check_file_growth_status`. -/
def afterCheck (heap : FileId → TrackedFile) (f : FileId) (rest : List FileId)
    (recommendedStatus : FileStatus) : ScannerPoint :=
  if recommendedStatus ≠ (heap f).status ∧ (heap f).status ≠ .waitingForNetwork then
    published f recommendedStatus rest
  else nextFile rest

/-- Where the scanner goes then: to the growth check of the file, or to the next file. -/
lemma afterGrowthInfo_cases (heap : FileId → TrackedFile) (f : FileId) (rest : List FileId) :
    afterGrowthInfo heap f rest = check f .pathExists rest ∨
      afterGrowthInfo heap f rest = nextFile rest := by
  unfold afterGrowthInfo checkFileGrowthStatus
  split_ifs
  · exact .inr rfl
  · exact .inl rfl

/-- The code between two awaits. -/
def after (cfg : Settings) (view : View) : ScannerPoint → Answer → Option ScannerPoint
  | discover, .io => some (cleanupMissing view.env.paths)
  | cleanupMissing _, .done _ => some cleanupOld
  | cleanupOld, .done _ => some discoverAgain
  | discoverAgain, .io => some (nextPath view.env.paths)
  | shouldSkip path rest, .skip b => some (if b then nextPath rest else getActive path rest)
  | getActive path rest, .file none => some (newMetadata path rest)
  | getActive _ rest, .file (some f) => some (metadata f rest)
  | newMetadata path rest, .io =>
    match view.env.metadata with
    | none => some (nextPath rest)
    | some (size, lastWriteTime) =>
      some (if size = 0 then nextPath rest else addFile path size lastWriteTime rest)
  | addFile _ _ _ rest, .done _ => some (nextPath rest)
  | metadata f rest, .io =>
    match view.env.metadata with
    | none => some (nextPath rest)
    | some (size, lastWriteTime) =>
      some (if size ≠ (view.heap f).fileSize then
        sizeChange f (view.heap f).status size lastWriteTime rest else nextPath rest)
  | sizeChange _ _ _ _ rest, .done _ => some (nextPath rest)
  | getDiscovered, .files ids => some (getGrowing ids)
  | getGrowing discovered, .files ids => some (nextFile (discovered ++ ids))
  | growthMetadata f rest, .io =>
    match view.env.metadata with
    | none => some (nextFile rest)
    | some (size, _) => some (growthFile f (growthInfo (view.heap f) view.now size) rest)
  | growthFile f _ rest, .file none => some (afterGrowthInfo view.heap f rest)
  | growthFile f info rest, .file (some _) =>
    some (growthUpdate f (view.heap f).status (info.attrs (view.heap f)) rest)
  | growthUpdate f _ _ rest, .done _ => some (afterGrowthInfo view.heap f rest)
  | check f p rest, a =>
    (p.after cfg view f a).map fun
      | .goesOn p' => check f p' rest
      | .recommends status => afterCheck view.heap f rest status
  | published f recommendedStatus rest, .io =>
    some (if recommendedStatus = .ready ∧ view.readySubscribed then ready f .getFileById rest
      else nextFile rest)
  | ready f p rest, a =>
    (p.after view f a).map fun
      | .returned => nextFile rest
      | p' => ready f p' rest
  | sleep, .io => some discover
  | _, _ => none

/-- The status change the scanner publishes between two awaits; its handler is awaited next. -/
def publishes (heap : FileId → TrackedFile) : ScannerPoint → Option FileStatusChangedEvent
  | published f recommendedStatus _ =>
    some ⟨f, (heap f).filePath, some (heap f).status, recommendedStatus⟩
  | _ => none

/-! ## The transitions -/

/-- The transitions of the loop. -/
inductive Next (cfg : Settings) (view : View) : ScannerPoint → Answer → ScannerPoint → Prop
  | discovered : Next cfg view discover .io (cleanupMissing view.env.paths)
  | cleanedMissing (paths : List FilePath) (n : ℕ) :
      Next cfg view (cleanupMissing paths) (.done n) cleanupOld
  | cleanedOld (n : ℕ) : Next cfg view cleanupOld (.done n) discoverAgain
  | discoveredAgain : Next cfg view discoverAgain .io (nextPath view.env.paths)
  | skips (path : FilePath) (rest : List FilePath) :
      Next cfg view (shouldSkip path rest) (.skip true) (nextPath rest)
  | looksUp (path : FilePath) (rest : List FilePath) :
      Next cfg view (shouldSkip path rest) (.skip false) (getActive path rest)
  | unknown (path : FilePath) (rest : List FilePath) :
      Next cfg view (getActive path rest) (.file none) (newMetadata path rest)
  | known (path : FilePath) (f : FileId) (rest : List FilePath) :
      Next cfg view (getActive path rest) (.file (some f)) (metadata f rest)
  | leavesOut (path : FilePath) (rest : List FilePath) :
      Next cfg view (newMetadata path rest) .io (nextPath rest)
  | adds (path : FilePath) (size : ℕ) (lastWriteTime : Option ℕ) (rest : List FilePath)
      (hmeta : view.env.metadata = some (size, lastWriteTime)) (hsize : size ≠ 0) :
      Next cfg view (newMetadata path rest) .io (addFile path size lastWriteTime rest)
  | added (path : FilePath) (size : ℕ) (lastWriteTime : Option ℕ) (rest : List FilePath) (n : ℕ) :
      Next cfg view (addFile path size lastWriteTime rest) (.done n) (nextPath rest)
  | unchanged (f : FileId) (rest : List FilePath) :
      Next cfg view (metadata f rest) .io (nextPath rest)
  | resizes (f : FileId) (size : ℕ) (lastWriteTime : Option ℕ) (rest : List FilePath)
      (hmeta : view.env.metadata = some (size, lastWriteTime))
      (hsize : size ≠ (view.heap f).fileSize) :
      Next cfg view (metadata f rest) .io
        (sizeChange f (view.heap f).status size lastWriteTime rest)
  | resized (f : FileId) (status : FileStatus) (size : ℕ) (lastWriteTime : Option ℕ)
      (rest : List FilePath) (n : ℕ) :
      Next cfg view (sizeChange f status size lastWriteTime rest) (.done n) (nextPath rest)
  | listed (ids : List FileId) : Next cfg view getDiscovered (.files ids) (getGrowing ids)
  | listedAll (discovered ids : List FileId) :
      Next cfg view (getGrowing discovered) (.files ids) (nextFile (discovered ++ ids))
  | unmeasured (f : FileId) (rest : List FileId) :
      Next cfg view (growthMetadata f rest) .io (nextFile rest)
  | measured (f : FileId) (size : ℕ) (lastWriteTime : Option ℕ) (rest : List FileId)
      (hmeta : view.env.metadata = some (size, lastWriteTime)) :
      Next cfg view (growthMetadata f rest) .io
        (growthFile f (growthInfo (view.heap f) view.now size) rest)
  | growthLost (f : FileId) (info : GrowthInfo) (rest : List FileId) :
      Next cfg view (growthFile f info rest) (.file none) (afterGrowthInfo view.heap f rest)
  | growthRead (f i : FileId) (info : GrowthInfo) (rest : List FileId) :
      Next cfg view (growthFile f info rest) (.file (some i))
        (growthUpdate f (view.heap f).status (info.attrs (view.heap f)) rest)
  | growthWritten (f : FileId) (status : FileStatus) (attrs : List Attr) (rest : List FileId)
      (n : ℕ) :
      Next cfg view (growthUpdate f status attrs rest) (.done n) (afterGrowthInfo view.heap f rest)
  | checks {a : Answer} (f : FileId) (p p' : CheckPoint) (rest : List FileId)
      (hcheck : p.after cfg view f a = some (.goesOn p')) :
      Next cfg view (check f p rest) a (check f p' rest)
  | publishes {a : Answer} (f : FileId) (p : CheckPoint) (status : FileStatus) (rest : List FileId)
      (hcheck : p.after cfg view f a = some (.recommends status))
      (hchange : status ≠ (view.heap f).status ∧ (view.heap f).status ≠ .waitingForNetwork) :
      Next cfg view (check f p rest) a (published f status rest)
  | checked {a : Answer} (f : FileId) (p : CheckPoint) (status : FileStatus) (rest : List FileId)
      (hcheck : p.after cfg view f a = some (.recommends status)) :
      Next cfg view (check f p rest) a (nextFile rest)
  | handles (f : FileId) (rest : List FileId) (hsubscribed : view.readySubscribed = true) :
      Next cfg view (published f .ready rest) .io (ready f .getFileById rest)
  | announced (f : FileId) (status : FileStatus) (rest : List FileId) :
      Next cfg view (published f status rest) .io (nextFile rest)
  | handling {a : Answer} (f : FileId) (p p' : HandlerPoint) (rest : List FileId)
      (hhandler : p.after view f a = some p') (hreturned : p' ≠ .returned) :
      Next cfg view (ready f p rest) a (ready f p' rest)
  | handled {a : Answer} (f : FileId) (p : HandlerPoint) (rest : List FileId)
      (hhandler : p.after view f a = some .returned) :
      Next cfg view (ready f p rest) a (nextFile rest)
  | slept : Next cfg view sleep .io discover

/-- **What the code between two awaits does.**

**Proof sketch.** By cases on the point and on the answer, in the order of the source. Each branch
is one constructor of `Next`; a growth check and the handling of a READY file go on as
`CheckPoint.after` and `HandlerPoint.after` say. -/
theorem next_of_after {cfg : Settings} {view : View} {p p' : ScannerPoint} {a : Answer}
    (h : p.after cfg view a = some p') : Next cfg view p a p' := by
  cases p with
  | shouldSkip path rest =>
    cases a with
    | skip b =>
      cases b <;> cases h
      · exact .looksUp path rest
      · exact .skips path rest
    | _ => cases h
  | getActive path rest =>
    cases a with
    | file i =>
      cases i <;> cases h
      · exact .unknown path rest
      · exact .known path _ rest
    | _ => cases h
  | newMetadata path rest =>
    cases a <;> simp only [after] at h <;> try cases h
    split at h <;> cases h
    · exact .leavesOut path rest
    · rename_i hmeta
      split_ifs with hsize
      · exact .leavesOut path rest
      · exact .adds path _ _ rest hmeta hsize
  | metadata f rest =>
    cases a <;> simp only [after] at h <;> try cases h
    split at h <;> cases h
    · exact .unchanged f rest
    · rename_i hmeta
      split_ifs with hsize
      · exact .resizes f _ _ rest hmeta hsize
      · exact .unchanged f rest
  | growthMetadata f rest =>
    cases a <;> simp only [after] at h <;> try cases h
    split at h <;> cases h
    · exact .unmeasured f rest
    · rename_i hmeta
      exact .measured f _ _ rest hmeta
  | growthFile f info rest =>
    cases a with
    | file i =>
      cases i <;> cases h
      · exact .growthLost f info rest
      · exact .growthRead f _ info rest
    | _ => cases h
  | check f q rest =>
    obtain ⟨next, hnext, rfl⟩ := Option.map_eq_some_iff.mp h
    cases next with
    | goesOn q' => exact .checks f q q' rest hnext
    | recommends status =>
      dsimp only [afterCheck]
      split_ifs with hchange
      · exact .publishes f q status rest hnext hchange
      · exact .checked f q status rest hnext
  | published f status rest =>
    cases a <;> simp only [after] at h <;> try cases h
    split_ifs with hready
    · rw [hready.1]
      exact .handles f rest hready.2
    · exact .announced f status rest
  | ready f q rest =>
    obtain ⟨q', hq', rfl⟩ := Option.map_eq_some_iff.mp h
    cases q' with
    | returned => exact .handled f q rest hq'
    | _ => exact .handling f q _ rest hq' (by simp)
  | _ =>
    cases a <;> cases h
    constructor

end ScannerPoint

end FileAgent

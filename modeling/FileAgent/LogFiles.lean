import FileAgent.FolderStructure
import FileAgent.Library.Access

set_option relaxedAutoImplicit false
set_option autoImplicit false

/-!
# Reading log files

The endpoints of `app/api/logfiles.py` that open a log file by its name. Each of them first checks
that the file is in the logs directory. What they return is whole but for the sizes in megabytes.

## Main definitions

* `LogFileSystem` — the files, as the endpoints see them.
* `getLogContent`, `getLogContentChunk`, `downloadLogFile` — the endpoints.
* `LogEndpoint.touched` — the paths that a request uses.
* `LeadsBeside` — a name leads to a neighbour of the logs directory whose name goes on.

## Main results

* `staysInLogs_iff` — when a request stays in the logs directory.
-/

namespace FileAgent

open PosixPath

/-! ## The endpoints -/

/-- `HTTPException`. -/
structure HttpException where
  statusCode : ℕ
  detail : String
  deriving DecidableEq

/-- An exception in an endpoint: one made for the client, or another one with its text. -/
inductive LogError
  | http (e : HttpException)
  | other (message : String)
  deriving DecidableEq

/-- What `os.stat` says, with the time as it is returned. -/
structure LogFileStat where
  size : ℕ
  modifiedTime : String
  deriving DecidableEq

/-- The files, by the path that is used for them. `readBytes` is what can be read of a file before
an exception ends it. -/
structure LogFileSystem where
  present : PurePath → Bool
  regular : PurePath → Bool
  readText : PurePath → Except String Text
  readBytes : PurePath → List UInt8
  fileStat : PurePath → Except String LogFileStat

/-- What the endpoints return or raise, with the paths they touch on the way. -/
abbrev LogAccess := Access LogError PurePath

namespace LogFileSystem

variable (fs : LogFileSystem) (path : PurePath)

/-- `Path.exists`, which touches the path. -/
def pathExists : LogAccess Bool := do
  Access.touch path
  return fs.present path

/-- `Path.is_file`, which touches the path. -/
def isFile : LogAccess Bool := do
  Access.touch path
  return fs.regular path

/-- `open` and `read`. -/
def read : LogAccess Text := do
  Access.touch path
  Access.ofExcept ((fs.readText path).mapError .other)

/-- `open`, and the bytes that are streamed. -/
def stream : LogAccess (List UInt8) := do
  Access.touch path
  return fs.readBytes path

/-- `Path.stat`, which touches the path. -/
def stat : LogAccess LogFileStat := do
  Access.touch path
  Access.ofExcept ((fs.fileStat path).mapError .other)

end LogFileSystem

/-- `except Exception as e: raise HTTPException(status_code=500, detail=text + str(e))`. -/
def serverError (text : String) : LogError → LogError
  | .http e => .http e
  | .other message => .http ⟨500, text ++ message⟩

/-- `Path("logs")`. -/
def logsDirectory : PurePath := parse "logs".toList

/-- `logs_directory / filename`. -/
def logFilePath (filename : Text) : PurePath := logsDirectory.joined (parse filename)

/-- The security check. -/
def securityCheck (cwd : CurrentDirectory) (filename : Text) : Bool :=
  ((logsDirectory.resolve cwd.text).toText).isPrefixOf
    ((logFilePath filename).resolve cwd.text).toText

/-- The 400 error for a path outside the directory of the logs. -/
def invalidFilePath : LogError := .http ⟨400, "Invalid file path"⟩

/-- The 404 error for a path that does not exist. -/
def logFileNotFound : LogError := .http ⟨404, "Log file not found"⟩

/-- The 400 error for a path that is no file. -/
def pathIsNotAFile : LogError := .http ⟨400, "Path is not a file"⟩

/-- The result of `get_log_content`. -/
structure LogContent where
  filename : Text
  content : Text
  sizeBytes : ℕ
  modifiedTime : String
  isCurrent : Bool
  lines : ℕ

/-- `chunk_info`. -/
structure ChunkInfo where
  offset : ℕ
  count : ℕ
  requestedLimit : ℤ
  direction : String
  totalLines : ℕ
  hasMoreForward : Bool
  hasMoreBackward : Bool
  nextForwardOffset : Option ℕ
  nextBackwardOffset : Option ℤ
  deriving DecidableEq

/-- The result of `get_log_content_chunk`. -/
structure LogChunk where
  filename : Text
  lines : List Text
  chunkInfo : ChunkInfo
  sizeBytes : ℕ
  modifiedTime : String
  isCurrent : Bool
  deriving DecidableEq

/-- The result of `download_log_file`. -/
structure LogDownload where
  headers : List (String × Text)
  body : List UInt8

section Endpoints

variable (fs : LogFileSystem) (cwd : CurrentDirectory) (currentLogPath filename : Text)

/-- `filename == Path(settings.log_file_path).name`. -/
def isCurrentLog : Bool := filename = nameOf currentLogPath

/-- `get_log_content`: the whole file as text. -/
def getLogContent : LogAccess LogContent :=
  Access.mapError (serverError "Unexpected error: ") do
    Access.require (securityCheck cwd filename) invalidFilePath
    let path := logFilePath filename
    let present ← fs.pathExists path
    Access.require present logFileNotFound
    let regular ← fs.isFile path
    Access.require regular pathIsNotAFile
    Access.mapError (serverError "Error reading log file: ") do
      let content ← fs.read path
      let stat ← fs.stat path
      return {
        filename := filename
        content := content
        sizeBytes := stat.size
        modifiedTime := stat.modifiedTime
        isCurrent := isCurrentLog currentLogPath filename
        lines := if content = [] then 0 else content.count '\n' + 1 }

/-- `readlines`: the lines with their ends. -/
def readLines : Text → List Text
  | [] => []
  | c :: text =>
    if c = '\n' then ['\n'] :: readLines text
    else
      match readLines text with
      | [] => [[c]]
      | line :: lines => (c :: line) :: lines

/-- `line.rstrip("\n")`. -/
def rstripNewline (line : Text) : Text := line.rdropWhile (· = '\n')

/-- The chunk of the lines that a request asks for. -/
def chunkOf (allLines : List Text) (offset : ℕ) (limit : ℤ) (direction : String) :
    List Text × ChunkInfo :=
  let totalLines := allLines.length
  let bounds : ℕ × ℕ :=
    if direction = "forward" then
      let startIdx := min offset totalLines
      (startIdx, min (startIdx + limit.toNat) totalLines)
    else
      let endIdx := min (offset + 1) totalLines
      (endIdx - limit.toNat, endIdx)
  let lines := ((allLines.drop bounds.1).take (bounds.2 - bounds.1)).map rstripNewline
  let actualOffset := bounds.1
  let hasMoreForward := actualOffset + lines.length < totalLines
  let hasMoreBackward := 0 < actualOffset
  (lines,
    { offset := actualOffset
      count := lines.length
      requestedLimit := limit
      direction := direction
      totalLines := totalLines
      hasMoreForward := hasMoreForward
      hasMoreBackward := hasMoreBackward
      nextForwardOffset := if hasMoreForward then some (actualOffset + lines.length) else none
      nextBackwardOffset := if hasMoreBackward then some (max 0 (actualOffset - limit)) else none })

/-- `get_log_content_chunk`: some lines of the file, forward from an offset or backward up to it. -/
def getLogContentChunk (offset : ℤ := 0) (limit : ℤ := 1000) (direction : String := "forward") :
    LogAccess LogChunk :=
  Access.mapError (serverError "Unexpected error: ") do
    Access.require (securityCheck cwd filename) invalidFilePath
    let path := logFilePath filename
    let present ← fs.pathExists path
    Access.require present logFileNotFound
    let regular ← fs.isFile path
    Access.require regular pathIsNotAFile
    Access.require (0 < limit && limit ≤ 10000)
      (.http ⟨400, "Limit must be between 1 and 10000"⟩)
    Access.require (0 ≤ offset) (.http ⟨400, "Offset must be >= 0"⟩)
    Access.require (direction = "forward" || direction = "backward")
      (.http ⟨400, "Direction must be 'forward' or 'backward'"⟩)
    let content ← Access.mapError (serverError "Error reading log file: ") (fs.read path)
    let chunk := chunkOf (readLines content) offset.toNat limit direction
    let stat ← fs.stat path
    return {
      filename := filename
      lines := chunk.1
      chunkInfo := chunk.2
      sizeBytes := stat.size
      modifiedTime := stat.modifiedTime
      isCurrent := isCurrentLog currentLogPath filename }

/-- `download_log_file`: the bytes of the file as a download. -/
def downloadLogFile : LogAccess LogDownload :=
  Access.mapError (serverError "Unexpected error: ") do
    Access.require (securityCheck cwd filename) invalidFilePath
    let path := logFilePath filename
    let regular ← fs.isFile path
    Access.require regular logFileNotFound
    let stat ← fs.stat path
    let isCurrent := isCurrentLog currentLogPath filename
    -- the body is read after the response has begun
    let body ← fs.stream path
    return {
      headers :=
        [("Content-Disposition", "attachment; filename=\"".toList ++ filename ++ ['"']),
          ("Content-Type", "text/plain; charset=utf-8".toList)] ++
        if isCurrent then
          [("X-Warning", "Current active log file - snapshot taken at download time".toList)]
        else [("Content-Length", (Nat.repr stat.size).toList)]
      body := body }

end Endpoints

/-- A request for a log file. -/
inductive LogEndpoint
  | content
  | chunk (offset limit : ℤ) (direction : String)
  | download

/-- The paths that a request uses. -/
def LogEndpoint.touched (fs : LogFileSystem) (cwd : CurrentDirectory)
    (currentLogPath filename : Text) : LogEndpoint → List PurePath
  | .content => (getLogContent fs cwd currentLogPath filename).touched
  | .chunk offset limit direction =>
    (getLogContentChunk fs cwd currentLogPath filename offset limit direction).touched
  | .download => (downloadLogFile fs cwd currentLogPath filename).touched

/-! ## Which path a request uses -/

section Touches

variable {fs : LogFileSystem} {cwd : CurrentDirectory} {currentLogPath filename : Text}
  {path : PurePath} {P : PurePath → Prop} {α : Type}

/-- `exists` touches its path only. -/
lemma touches_pathExists (h : P path) : Access.Touches P (fs.pathExists path) :=
  (Access.Touches.touch h).bind fun _ => Access.Touches.pure _

/-- `is_file` touches its path only. -/
lemma touches_isFile (h : P path) : Access.Touches P (fs.isFile path) :=
  (Access.Touches.touch h).bind fun _ => Access.Touches.pure _

/-- Reading touches the path read only. -/
lemma touches_read (h : P path) : Access.Touches P (fs.read path) :=
  (Access.Touches.touch h).bind fun _ => Access.Touches.ofExcept _

/-- Streaming touches the path streamed only. -/
lemma touches_stream (h : P path) : Access.Touches P (fs.stream path) :=
  (Access.Touches.touch h).bind fun _ => Access.Touches.pure _

/-- `stat` touches its path only. -/
lemma touches_stat (h : P path) : Access.Touches P (fs.stat path) :=
  (Access.Touches.touch h).bind fun _ => Access.Touches.ofExcept _

/-- `exists` does touch its path. -/
lemma reaches_pathExists : Access.Reaches path (fs.pathExists path) :=
  (Access.Reaches.touch path).bind (P := fun _ => True) fun _ => Access.Touches.pure _

/-- `is_file` does touch its path. -/
lemma reaches_isFile : Access.Reaches path (fs.isFile path) :=
  (Access.Reaches.touch path).bind (P := fun _ => True) fun _ => Access.Touches.pure _

/-- **A request uses the path of its file, if the security check is passed.**

**Proof sketch.** Each endpoint makes the check first, uses the path in any case behind it, and no
other. -/
lemma forall_touched_iff (endpoint : LogEndpoint) :
    (∀ path ∈ endpoint.touched fs cwd currentLogPath filename, P path) ↔
      (securityCheck cwd filename = true → P (logFilePath filename)) := by
  have hexists : Access.Touches (· = logFilePath filename) (fs.pathExists (logFilePath filename)) :=
    touches_pathExists rfl
  have hisFile : Access.Touches (· = logFilePath filename) (fs.isFile (logFilePath filename)) :=
    touches_isFile rfl
  have hread : Access.Touches (· = logFilePath filename) (fs.read (logFilePath filename)) :=
    touches_read rfl
  have hstat : Access.Touches (· = logFilePath filename) (fs.stat (logFilePath filename)) :=
    touches_stat rfl
  have hstream : Access.Touches (· = logFilePath filename) (fs.stream (logFilePath filename)) :=
    touches_stream rfl
  cases endpoint with
  | content =>
    refine Access.forall_touched_guarded_iff reaches_pathExists hexists fun _ => ?_
    refine (Access.Touches.require _ _).bind fun _ => hisFile.bind fun _ => ?_
    refine (Access.Touches.require _ _).bind fun _ => Access.Touches.mapError ?_
    exact hread.bind fun _ => hstat.bind fun _ => Access.Touches.pure _
  | chunk offset limit direction =>
    refine Access.forall_touched_guarded_iff reaches_pathExists hexists fun _ => ?_
    refine (Access.Touches.require _ _).bind fun _ => hisFile.bind fun _ => ?_
    refine (Access.Touches.require _ _).bind fun _ => (Access.Touches.require _ _).bind fun _ => ?_
    refine (Access.Touches.require _ _).bind fun _ => (Access.Touches.require _ _).bind fun _ => ?_
    refine hread.mapError.bind fun _ => ?_
    exact hstat.bind fun _ => Access.Touches.pure _
  | download =>
    refine Access.forall_touched_guarded_iff reaches_isFile hisFile fun _ => ?_
    refine (Access.Touches.require _ _).bind fun _ => hstat.bind fun _ => ?_
    exact hstream.bind fun _ => Access.Touches.pure _

end Touches

/-! ## The security check -/

section SecurityCheck

variable {cwd : CurrentDirectory} {filename : Text}

/-- The place that a file name leads to, as a walk from the logs directory. -/
def placeOf (cwd : CurrentDirectory) (filename : Text) : NormalPath :=
  ((normalize (parse cwd.text)).after (normalize logsDirectory)).after (normalize (parse filename))

/-- The file name leads to a neighbour of the logs directory, or below one, whose name begins with
`logs` and goes on. -/
def LeadsBeside (cwd : CurrentDirectory) (filename : Text) : Prop :=
  ∃ s rest, s ≠ [] ∧ (placeOf cwd filename).names =
    (normalize (parse cwd.text)).names ++ ("logs".toList ++ s) :: rest

/-- The place a file name leads to is what its path is resolved to. -/
lemma names_placeOf :
    ((logFilePath filename).resolve cwd.text).parts = (placeOf cwd filename).names := by
  show (normalize (parse (join cwd.text (logFilePath filename).toText))).names = _
  rw [normalize_join, parse_toText_eq, logFilePath, normalize_joined, NormalPath.after_normalize,
    placeOf]

/-- The directory of the logs lies below the working directory. -/
lemma parts_resolve_logsDirectory : (logsDirectory.resolve cwd.text).parts =
    (normalize (parse cwd.text)).names ++ ["logs".toList] := by
  have hlogs : normalize logsDirectory = NormalPath.here.step "logs".toList := by decide
  have hstep : (normalize (parse cwd.text)).after (NormalPath.here.step "logs".toList) =
      (normalize (parse cwd.text)).step "logs".toList := by
    rw [← NormalPath.step_after rfl, NormalPath.after_here]
  show (normalize (parse (join cwd.text logsDirectory.toText))).names = _
  rw [normalize_join, parse_toText_eq, hlogs, hstep, NormalPath.step_name (by decide)]

/-- **When the check is passed**: it compares texts, so that the name `logs` may go on. -/
lemma securityCheck_iff : securityCheck cwd filename = true ↔
    ∃ s rest, (placeOf cwd filename).names =
      (normalize (parse cwd.text)).names ++ ("logs".toList ++ s) :: rest := by
  rw [securityCheck, List.isPrefixOf_iff_prefix,
    toText_prefix_iff ⟨rfl, rfl⟩ parts_resolve_logsDirectory, names_placeOf]

/-- **The check keeps a request inside** unless the file name leads beside the logs directory. -/
lemma within_of_securityCheck_iff :
    (securityCheck cwd filename = true →
      (logsDirectory.resolve cwd.text).Within ((logFilePath filename).resolve cwd.text)) ↔
      ¬ LeadsBeside cwd filename := by
  rw [securityCheck_iff, PurePath.Within, parts_resolve_logsDirectory, names_placeOf]
  constructor
  · rintro h ⟨s, rest, hs, hnames⟩
    obtain ⟨-, more, hmore⟩ := h ⟨s, rest, hnames⟩
    rw [hnames, List.append_assoc, List.append_cancel_left_eq, List.singleton_append,
      List.cons.injEq] at hmore
    exact hs (List.self_eq_append_right.mp hmore.1)
  · rintro hno ⟨s, rest, hnames⟩
    have hs : s = [] := by
      by_contra hs
      exact hno ⟨s, rest, hs, hnames⟩
    rw [hs, List.append_nil] at hnames
    refine ⟨rfl, rest, ?_⟩
    rw [hnames, List.append_assoc, List.singleton_append]

/-- **When a request for a file name stays in the logs directory**: unless the name leads beside it.

**Proof sketch.** A request that passes the check uses the path of its file and no other
(`forall_touched_iff`), and the check, on texts, lets exactly the neighbours through whose names
begin with `logs` (`toText_prefix_iff`). -/
theorem staysInLogs_iff (fs : LogFileSystem) (cwd : CurrentDirectory)
    (currentLogPath filename : Text) (endpoint : LogEndpoint) :
    (∀ path ∈ endpoint.touched fs cwd currentLogPath filename,
      (logsDirectory.resolve cwd.text).Within (path.resolve cwd.text)) ↔
      ¬ LeadsBeside cwd filename := by
  rw [forall_touched_iff, within_of_securityCheck_iff]

/-- The file name `../logs_old/x.log` is read from a neighbour of the logs directory. -/
theorem logs_old_is_read :
    ¬ ∀ (fs : LogFileSystem) (cwd : CurrentDirectory) (currentLogPath filename : Text)
      (endpoint : LogEndpoint), ∀ path ∈ endpoint.touched fs cwd currentLogPath filename,
        (logsDirectory.resolve cwd.text).Within (path.resolve cwd.text) := by
  intro h
  let fs : LogFileSystem :=
    { present := fun _ => true, regular := fun _ => true, readText := fun _ => .ok []
      readBytes := fun _ => [], fileStat := fun _ => .ok ⟨0, ""⟩ }
  have hwithin := h fs workDirectory "logs/app.log".toList "../logs_old/x.log".toList
    .content
  revert hwithin
  decide +kernel

end SecurityCheck

end FileAgent

import FileAgent.LogPaging
import FileAgent.Library.Run

set_option relaxedAutoImplicit false
set_option autoImplicit false

/-!
# The log viewer

`app/static/js/stores/logViewerStore.js` shows one log file: as a whole, or, if it is large, in
chunks that are loaded one after another. Meanwhile the server goes on to write its log, and at
midnight it renames it. Requests are answered later, or get lost, and the user may open another log
before that. `loadLogChunk` returns at once while another chunk is loading, so that a log may be
opened whose first chunk is never asked for, and the chunk that comes is one of the old log.

A log is what can be read of it as text; a read that ends within a character is left out, and so is
the list of the logs, of which the user opens any.

## Main definitions

* `LogViewer` — the store.
* `LogViewing`, `logViewingStep` — the logs, the requests and the store.
* `LogViewer.ShowsBlock`, `LogViewer.ShowsLog` — what is shown is of the log that is named.

## Main results

* `take_readLines_of_prefix` — lines before the last one stay as they are.
* `logViewingInv_step` — the step lemma.
* `log_shown` — what is shown in every run without a request backward.
-/

namespace FileAgent

open PosixPath Transition

/-! ## The store -/

/-- A log file, as the list of log files has it. -/
structure LogFileEntry where
  filename : Text
  sizeBytes : ℕ
  modifiedTime : String
  isCurrent : Bool
  lines : Option ℕ := none

/-- `round(size_bytes / (1024 * 1024), 2)`, in hundredths. -/
def LogFileEntry.sizeMb (logFile : LogFileEntry) : ℕ :=
  let hundredths := logFile.sizeBytes * 100 / 2 ^ 20
  let rest := logFile.sizeBytes * 100 % 2 ^ 20
  if 2 * rest < 2 ^ 20 ∨ 2 * rest = 2 ^ 20 ∧ hundredths % 2 = 0 then hundredths else hundredths + 1

/-- `viewMode`. -/
inductive LogViewMode
  | full
  | chunked
  deriving DecidableEq

/-- The log viewer store. `logContent` is a text, that of the log or that of an error. -/
structure LogViewer where
  showLogViewerModal : Bool := false
  selectedLogFile : Option LogFileEntry := none
  logContent : Option (Except LogError Text) := none
  loadingLogContent : Bool := false
  logChunks : List Text := []
  currentChunkInfo : Option ChunkInfo := none
  chunkError : Option LogError := none
  viewMode : LogViewMode := .full

/-- A call of `loadLogChunk` that awaits its answer. It is `opening` if `loadLogFile` awaits it. -/
structure ChunkRequest where
  filename : Text
  offset : ℤ
  direction : String
  opening : Bool
  answer : Option (Except LogError LogChunk) := none

/-- A call of `loadFullLogContent` that awaits its answer. -/
structure ContentRequest where
  logFile : LogFileEntry
  answer : Option (Except LogError LogContent) := none

namespace LogViewer

/-- The end of `loadLogChunk`, and that of `loadLogFile` if it has awaited it. -/
def chunkLoaded (v : LogViewer) (r : ChunkRequest) : Except LogError LogChunk → LogViewer
  | .ok data =>
    { v with
      currentChunkInfo := some data.chunkInfo
      selectedLogFile := some
        { filename := data.filename
          sizeBytes := data.sizeBytes
          modifiedTime := data.modifiedTime
          isCurrent := data.isCurrent
          lines := some data.chunkInfo.totalLines }
      logChunks :=
        if r.direction = "forward" ∧ r.offset = 0 then data.lines
        else if r.direction = "forward" then v.logChunks ++ data.lines
        else data.lines ++ v.logChunks
      loadingLogContent := if r.opening then false else v.loadingLogContent }
  | .error e =>
    { v with
      chunkError := some e
      loadingLogContent := if r.opening then false else v.loadingLogContent }

/-- The end of `loadLogFile` with the whole content. -/
def contentLoaded (v : LogViewer) (logFile : LogFileEntry) :
    Except LogError LogContent → LogViewer
  | .ok data =>
    { v with
      logContent := some (.ok data.content)
      selectedLogFile := some
        { logFile with
          sizeBytes := data.sizeBytes
          modifiedTime := data.modifiedTime
          isCurrent := data.isCurrent
          lines := some data.lines }
      loadingLogContent := false }
  | .error e => { v with logContent := some (.error e), loadingLogContent := false }

end LogViewer

/-! ## The logs and the requests -/

/-- The log files by their names, the store, and its requests: at most one for a chunk, which is
`loadingChunk`, and at most one for a whole log. -/
structure LogViewing where
  contents : Text → Text
  viewer : LogViewer := {}
  chunkRequest : Option ChunkRequest := none
  contentRequest : Option ContentRequest := none

/-- What the file system says of a log file, but for its text. -/
structure LogFileAnswers where
  present : Bool := true
  regular : Bool := true
  readError : Option String := none
  fileStat : Except String LogFileStat := .ok ⟨0, ""⟩

/-- The file system when a log with this text is read. -/
def LogFileAnswers.fileSystem (answers : LogFileAnswers) (content : Text) : LogFileSystem where
  present := fun _ => answers.present
  regular := fun _ => answers.regular
  readText := fun _ =>
    match answers.readError with
    | some message => .error message
    | none => .ok content
  readBytes := fun _ => []
  fileStat := fun _ => answers.fileStat

namespace LogViewing

/-- `loadLogChunk` up to the answer. -/
def loadLogChunk (s : LogViewing) (filename : Text) (offset : ℤ) (direction : String)
    (opening : Bool) : LogViewing :=
  match s.chunkRequest with
  | some _ =>
    { s with
      viewer := { s.viewer with
        loadingLogContent := if opening then false else s.viewer.loadingLogContent } }
  | none =>
    { s with
      viewer := { s.viewer with chunkError := none }
      chunkRequest := some { filename, offset, direction, opening } }

/-- `loadLogFile` up to the answer. -/
def loadLogFile (s : LogViewing) (logFile : LogFileEntry) : LogViewing :=
  if s.viewer.loadingLogContent then s
  else
    let viewMode : LogViewMode := if logFile.sizeMb > 500 then .chunked else .full
    let s :=
      { s with
        viewer := { s.viewer with
          loadingLogContent := true
          selectedLogFile := some logFile
          logContent := none
          logChunks := []
          currentChunkInfo := none
          chunkError := none
          viewMode := viewMode } }
    match viewMode with
    | .chunked => s.loadLogChunk logFile.filename 0 "forward" true
    | .full => { s with contentRequest := some { logFile } }

/-- `loadMoreForward`. With no file selected it raises. -/
def loadMoreForward (s : LogViewing) : LogViewing :=
  match s.viewer.currentChunkInfo, s.viewer.selectedLogFile with
  | some info, some logFile =>
    match info.nextForwardOffset with
    | some offset => s.loadLogChunk logFile.filename offset "forward" false
    | none => s
  | _, _ => s

/-- `loadMoreBackward`. -/
def loadMoreBackward (s : LogViewing) : LogViewing :=
  match s.viewer.currentChunkInfo, s.viewer.selectedLogFile with
  | some info, some logFile =>
    match info.nextBackwardOffset with
    | some offset => s.loadLogChunk logFile.filename offset "backward" false
    | none => s
  | _, _ => s

end LogViewing

/-- The steps: those of the user, the server's on a request, the receipt of its answer or of an
error in its place, and those of the logs. -/
inductive LogViewingAction
  | openLogViewerModal
  | closeLogViewerModal
  | loadLogFile (logFile : LogFileEntry)
  | loadMoreForward
  | loadMoreBackward
  | getLogContentChunk (answers : LogFileAnswers)
  | getLogContent (answers : LogFileAnswers)
  | receiveChunk
  | receiveContent
  | loseChunk (message : String)
  | loseContent (message : String)
  /-- The handler of the log appends to it. -/
  | emit (filename text : Text)
  /-- The handler renames its log and begins a new one. -/
  | doRollover (filename backup : Text)

/-- One step. -/
def logViewingStep (cwd : CurrentDirectory) (currentLogPath : Text) (s : LogViewing) :
    LogViewingAction → Option LogViewing
  | .openLogViewerModal =>
    some { s with viewer := { s.viewer with showLogViewerModal := true } }
  | .closeLogViewerModal =>
    some
      { s with
        viewer := { s.viewer with
          showLogViewerModal := false, selectedLogFile := none, logContent := none } }
  | .loadLogFile logFile => some (s.loadLogFile logFile)
  | .loadMoreForward => some s.loadMoreForward
  | .loadMoreBackward => some s.loadMoreBackward
  | .getLogContentChunk answers =>
    s.chunkRequest.bind fun r =>
      let fs := answers.fileSystem (s.contents r.filename)
      let answer := getLogContentChunk fs cwd currentLogPath r.filename r.offset 1000 r.direction
      if r.answer.isSome then none
      else some { s with chunkRequest := some { r with answer := some answer.result } }
  | .getLogContent answers =>
    s.contentRequest.bind fun r =>
      let fs := answers.fileSystem (s.contents r.logFile.filename)
      let answer := getLogContent fs cwd currentLogPath r.logFile.filename
      if r.answer.isSome then none
      else some { s with contentRequest := some { r with answer := some answer.result } }
  | .receiveChunk =>
    s.chunkRequest.bind fun r =>
      r.answer.map fun answer =>
        { s with viewer := s.viewer.chunkLoaded r answer, chunkRequest := none }
  | .receiveContent =>
    s.contentRequest.bind fun r =>
      r.answer.map fun answer =>
        { s with viewer := s.viewer.contentLoaded r.logFile answer, contentRequest := none }
  | .loseChunk message =>
    s.chunkRequest.map fun r =>
      { s with viewer := s.viewer.chunkLoaded r (.error (.other message)), chunkRequest := none }
  | .loseContent message =>
    s.contentRequest.map fun r =>
      { s with
        viewer := s.viewer.contentLoaded r.logFile (.error (.other message))
        contentRequest := none }
  | .emit filename text =>
    some
      { s with contents := Function.update s.contents filename (s.contents filename ++ text) }
  | .doRollover filename backup =>
    some
      { s with
        contents := Function.update (Function.update s.contents backup (s.contents filename))
          filename [] }

/-! ## What is shown -/

/-- The lines from `first` up to `last` of a text. -/
def linesBetween (content : Text) (first last : ℕ) : List Text :=
  (((readLines content).take last).drop first).map rstripNewline

/-- The store has the lines from `first` on of what the log has been, up to the end of the chunk
loaded last; that one says how many lines there were, and if there were more. -/
structure LogViewer.HasLines (v : LogViewer) (content : Text) (info : ChunkInfo) (first : ℕ) :
    Prop where
  lines : v.logChunks = linesBetween content first (info.offset + info.count)
  first_le : first ≤ info.offset + info.count
  last_le : info.offset + info.count ≤ (readLines content).length
  total : info.totalLines = (readLines content).length
  more : info.nextForwardOffset =
    if info.offset + info.count < (readLines content).length then some (info.offset + info.count)
    else none

/-- In chunks, what is shown is a block of the lines of the log that is named. -/
def LogViewer.ShowsBlock (v : LogViewer) (contents : Text → Text) : Prop :=
  v.viewMode = .chunked → ∀ logFile info, v.selectedLogFile = some logFile →
    v.currentChunkInfo = some info →
      ∃ content first, content <+: contents logFile.filename ∧ v.HasLines content info first

/-- What is shown is what the log that is named has been: its lines from the first one on, or all
of it. -/
def LogViewer.ShowsLog (v : LogViewer) (contents : Text → Text) : Prop :=
  ∀ logFile, v.selectedLogFile = some logFile →
    (v.viewMode = .chunked → ∀ info, v.currentChunkInfo = some info →
      ∃ content, content <+: contents logFile.filename ∧ v.HasLines content info 0) ∧
    (v.viewMode = .full → ∀ content, v.logContent = some (.ok content) →
      content <+: contents logFile.filename)

/-- The user asks for no earlier lines, and the server does not rename its log. -/
def GoesForward : LogViewingAction → Prop
  | .loadMoreBackward | .doRollover _ _ => False
  | _ => True

instance : DecidablePred GoesForward
  | .loadMoreBackward | .doRollover _ _ => .isFalse id
  | .openLogViewerModal | .closeLogViewerModal | .loadLogFile _ | .loadMoreForward
  | .getLogContentChunk _ | .getLogContent _ | .receiveChunk | .receiveContent | .loseChunk _
  | .loseContent _ | .emit _ _ => .isTrue trivial

/-- Nothing is loading. -/
structure LogViewing.Quiet (s : LogViewing) : Prop where
  chunkRequest : s.chunkRequest = none
  contentRequest : s.contentRequest = none
  loadingLogContent : s.viewer.loadingLogContent = false

/-- No log is opened while a chunk is loading. -/
def OpensWhenIdle (s : LogViewing) : LogViewingAction → Prop
  | .loadLogFile _ => s.chunkRequest = none
  | _ => True

/-! ## Lines of a log that grows -/

section Lines

variable {content content' text filename : Text} {lines : List Text} {first last last' offset : ℕ}

/-- **The lines before the last one** are complete.

**Proof sketch.** By induction on the text. A line break begins a new line in both texts; any
other character goes to the first line, which is complete if it is not the last one. -/
lemma dropLast_readLines_prefix (content text : Text) :
    (readLines content).dropLast <+: readLines (content ++ text) := by
  induction content with
  | nil => exact List.nil_prefix
  | cons c content ih =>
    rw [List.cons_append, readLines, readLines]
    by_cases hc : c = '\n'
    · rw [if_pos hc, if_pos hc]
      cases hlines : readLines content with
      | nil => exact List.nil_prefix
      | cons line lines =>
        rw [hlines] at ih
        rw [List.dropLast_cons_cons]
        exact (List.prefix_cons_inj _).mpr ih
    · rw [if_neg hc, if_neg hc]
      cases hlines : readLines content with
      | nil => exact List.nil_prefix
      | cons line lines =>
        rw [hlines] at ih
        cases lines with
        | nil => exact List.nil_prefix
        | cons line' lines =>
          rw [List.dropLast_cons_cons] at ih ⊢
          obtain ⟨more, hmore⟩ := ih
          rw [← hmore, List.cons_append]
          exact (List.prefix_cons_inj _).mpr (List.prefix_append _ _)

/-- A log that grows keeps its lines before the last one. -/
lemma take_readLines_of_prefix (h : content <+: content')
    (hlast : last < (readLines content).length) :
    (readLines content').take last = (readLines content).take last ∧
      last ≤ (readLines content').length := by
  obtain ⟨text, rfl⟩ := h
  obtain ⟨more, hmore⟩ := dropLast_readLines_prefix content text
  have hlength : last ≤ (readLines content).dropLast.length := by
    rw [List.length_dropLast]
    omega
  rw [← hmore, List.take_append_of_le_length hlength, List.length_append]
  refine ⟨?_, by omega⟩
  rw [List.dropLast_eq_take, List.take_take, min_eq_left]
  rwa [List.length_dropLast] at hlength

/-- Two blocks, one after the other. -/
lemma linesBetween_append (hfirst : first ≤ last) (hlast : last ≤ last') :
    linesBetween content first last ++ linesBetween content last last' =
      linesBetween content first last' := by
  have htake : (readLines content).take last = ((readLines content).take last').take last := by
    rw [List.take_take, min_eq_left hlast]
  have hsplit := List.take_append_drop (last - first) (((readLines content).take last').drop first)
  rw [List.drop_drop, Nat.add_sub_cancel' hfirst] at hsplit
  rw [linesBetween, linesBetween, linesBetween, ← List.map_append, htake, List.drop_take, hsplit]

/-- A chunk forward, from its offset to its end. -/
lemma chunkOf_forward_eq (lines : List Text) (offset : ℕ) :
    ∃ start stop, start = min offset lines.length ∧ start ≤ stop ∧ stop ≤ lines.length ∧
      (chunkOf lines offset 1000 "forward").1 = ((lines.take stop).drop start).map rstripNewline ∧
      (chunkOf lines offset 1000 "forward").2 =
        { offset := start
          count := stop - start
          requestedLimit := 1000
          direction := "forward"
          totalLines := lines.length
          hasMoreForward := stop < lines.length
          hasMoreBackward := 0 < start
          nextForwardOffset := if stop < lines.length then some stop else none
          nextBackwardOffset := if 0 < start then some (max 0 (start - 1000)) else none } := by
  refine ⟨min offset lines.length, min (min offset lines.length + 1000) lines.length, rfl,
    by omega, min_le_right _ _, ?_, ?_⟩
  · rw [List.drop_take]
    rfl
  · have hstop : min offset lines.length +
        (min (min offset lines.length + 1000) lines.length - min offset lines.length) =
          min (min offset lines.length + 1000) lines.length := by omega
    simp [chunkOf, hstop]

/-- **A chunk forward** has the lines from its offset on. -/
lemma hasLines_chunkOf {v : LogViewer} {info : ChunkInfo}
    (h : (v.logChunks, info) = chunkOf (readLines content) offset 1000 "forward") :
    v.HasLines content info info.offset ∧ info.offset = min offset (readLines content).length := by
  obtain ⟨start, stop, hstart, hle, hstop, hlines, hinfo⟩ :=
    chunkOf_forward_eq (readLines content) offset
  rw [← h] at hlines hinfo
  obtain rfl : info = _ := hinfo
  have hend : start + (stop - start) = stop := Nat.add_sub_cancel' hle
  refine ⟨⟨?_, Nat.le_add_right _ _, ?_, rfl, ?_⟩, hstart⟩
  · rw [hend]
    exact hlines
  · rw [hend]
    exact hstop
  · rw [hend]

/-- Only the lines shown matter. -/
lemma LogViewer.HasLines.congr {v v' : LogViewer} {info : ChunkInfo}
    (h : v.HasLines content info first) (hsame : v'.logChunks = v.logChunks) :
    v'.HasLines content info first :=
  ⟨hsame.trans h.lines, h.first_le, h.last_le, h.total, h.more⟩

/-- **The next chunk** goes on where the last one ended, although the log has grown since.

**Proof sketch.** The next offset was named, so the last chunk ended before the end of the log;
the lines it ended with are complete, and the log has them still (`take_readLines_of_prefix`). So
the new chunk begins where the lines shown end, and both together are the lines in between. -/
lemma LogViewer.HasLines.append {v : LogViewer} {info info' : ChunkInfo} {more : List Text}
    (h : v.HasLines content info first) (hgrown : content <+: content')
    (hmore : info.nextForwardOffset = some offset)
    (hchunk : (more, info') = chunkOf (readLines content') offset 1000 "forward") :
    ({ v with logChunks := v.logChunks ++ more } : LogViewer).HasLines content' info' first := by
  have hnext := h.more
  rw [hmore] at hnext
  split_ifs at hnext with hlast
  obtain rfl := Option.some.inj hnext
  obtain ⟨htake, hle⟩ := take_readLines_of_prefix hgrown hlast
  obtain ⟨hblock, hoffset⟩ := hasLines_chunkOf (v := { logChunks := more }) hchunk
  rw [min_eq_left hle] at hoffset
  have hsame : linesBetween content first (info.offset + info.count) =
      linesBetween content' first (info.offset + info.count) := by
    rw [linesBetween, linesBetween, htake]
  have hfirst : info.offset + info.count ≤ info'.offset + info'.count := by
    rw [hoffset]
    exact Nat.le_add_right _ _
  refine ⟨?_, h.first_le.trans hfirst, hblock.last_le, hblock.total, hblock.more⟩
  show v.logChunks ++ more = _
  have hmoreLines : more = linesBetween content' (info.offset + info.count)
      (info'.offset + info'.count) := by
    rw [← hoffset]
    exact hblock.lines
  rw [h.lines, hmoreLines, hsame, linesBetween_append h.first_le hfirst]

end Lines

/-! ## What the server answers -/

section Answers

variable {answers : LogFileAnswers} {cwd : CurrentDirectory}
  {currentLogPath filename content : Text} {offset limit : ℤ} {direction : String}
  {path : PurePath} {used : List PurePath}

/-- Reading a log returns its content. -/
lemma read_fileSystem {text : Text}
    (h : ((answers.fileSystem content).read path used).1 = .ok text) : text = content := by
  obtain ⟨_, -, h⟩ := Access.exists_of_bind h
  have hread : ((answers.fileSystem content).readText path).mapError LogError.other = .ok text := h
  simp only [LogFileAnswers.fileSystem] at hread
  split at hread
  · cases hread
  · exact (Except.ok.inj hread).symm

/-- **A chunk that is returned** is one of the lines of the file. -/
lemma chunk_of_result {chunk : LogChunk}
    (h : (getLogContentChunk (answers.fileSystem content) cwd currentLogPath filename offset limit
      direction).result = .ok chunk) :
    chunk.filename = filename ∧ (chunk.lines, chunk.chunkInfo) =
      chunkOf (readLines content) offset.toNat limit direction := by
  obtain ⟨_, -, h⟩ := Access.exists_of_bind (Access.ok_of_mapError h)
  dsimp only at h
  obtain ⟨_, -, h⟩ := Access.exists_of_bind h
  obtain ⟨_, -, h⟩ := Access.exists_of_bind h
  obtain ⟨_, -, h⟩ := Access.exists_of_bind h
  obtain ⟨_, -, h⟩ := Access.exists_of_bind h
  obtain ⟨_, -, h⟩ := Access.exists_of_bind h
  obtain ⟨_, -, h⟩ := Access.exists_of_bind h
  obtain ⟨_, -, h⟩ := Access.exists_of_bind h
  obtain ⟨text, hread, h⟩ := Access.exists_of_bind h
  obtain rfl := read_fileSystem (Access.ok_of_mapError hread)
  obtain ⟨stat, -, h⟩ := Access.exists_of_bind h
  obtain rfl := Except.ok.inj h
  exact ⟨rfl, rfl⟩

/-- A log that is returned is whole. -/
lemma content_of_result {data : LogContent}
    (h : (getLogContent (answers.fileSystem content) cwd currentLogPath filename).result =
      .ok data) : data.content = content := by
  obtain ⟨_, -, h⟩ := Access.exists_of_bind (Access.ok_of_mapError h)
  dsimp only at h
  obtain ⟨_, -, h⟩ := Access.exists_of_bind h
  obtain ⟨_, -, h⟩ := Access.exists_of_bind h
  obtain ⟨_, -, h⟩ := Access.exists_of_bind h
  obtain ⟨_, -, h⟩ := Access.exists_of_bind h
  obtain ⟨text, hread, h⟩ := Access.exists_of_bind (Access.ok_of_mapError h)
  obtain rfl := read_fileSystem hread
  obtain ⟨stat, -, h⟩ := Access.exists_of_bind h
  obtain rfl := Except.ok.inj h
  rfl

end Answers

/-! ## The invariant -/

/-- An answer to the request is a chunk of what the log has been since it was `known`. -/
def ChunkRequest.AnsweredFrom (r : ChunkRequest) (contents : Text → Text) (known : Text) : Prop :=
  ∀ chunk, r.answer = some (.ok chunk) → ∃ content, known <+: content ∧
    content <+: contents r.filename ∧ chunk.filename = r.filename ∧
    (chunk.lines, chunk.chunkInfo) = chunkOf (readLines content) r.offset.toNat 1000 "forward"

namespace LogViewing

/-- No chunk has been loaded of the log that has been opened. -/
structure Opened (idle : Prop) (s : LogViewing) : Prop where
  logChunks : s.viewer.logChunks = []
  currentChunkInfo : s.viewer.currentChunkInfo = none
  offset : idle → ∀ r, s.chunkRequest = some r → r.offset = 0

/-- A block of the log `name` is shown, and a request is for what comes next. -/
structure Reads (idle : Prop) (s : LogViewing) (name content : Text) (info : ChunkInfo)
    (first : ℕ) : Prop where
  currentChunkInfo : s.viewer.currentChunkInfo = some info
  was : content <+: s.contents name
  hasLines : s.viewer.HasLines content info first
  first : idle → first = 0
  selected : ∀ logFile, s.viewer.selectedLogFile = some logFile → logFile.filename = name
  next : ∀ r, s.chunkRequest = some r → r.filename = name ∧
    (∃ offset : ℕ, info.nextForwardOffset = some offset ∧ r.offset = offset) ∧
    r.AnsweredFrom s.contents content

/-- The requests, and what is shown; `idle` says that no log is opened while a chunk is loading. -/
structure Inv (idle : Prop) (s : LogViewing) : Prop where
  forward : ∀ r, s.chunkRequest = some r → r.direction = "forward" ∧ r.AnsweredFrom s.contents []
  opening : ∀ r, s.chunkRequest = some r → r.opening = true →
    s.viewer.loadingLogContent = true ∧ s.contentRequest = none
  content : ∀ r data, s.contentRequest = some r → r.answer = some (.ok data) →
    data.content <+: s.contents r.logFile.filename
  loading : ∀ r, s.contentRequest = some r → s.viewer.loadingLogContent = true ∧
    s.viewer.viewMode = .full
  chunked : s.viewer.viewMode = .chunked → s.Opened idle ∨
    ∃ name content info first, s.Reads idle name content info first
  full : idle → s.viewer.viewMode = .full → s.chunkRequest = none ∧
    s.viewer.currentChunkInfo = none ∧ ∀ content logFile, s.viewer.logContent = some (.ok content) →
      s.viewer.selectedLogFile = some logFile → content <+: s.contents logFile.filename

end LogViewing

section Steps

variable {idle : Prop} {cwd : CurrentDirectory} {currentLogPath : Text} {s s' : LogViewing}
  {contents : Text → Text} {name content : Text} {info : ChunkInfo} {first : ℕ}

open LogViewing

/-- An answer stays one while the logs grow. -/
lemma ChunkRequest.AnsweredFrom.grows {r : ChunkRequest} {known : Text}
    (h : r.AnsweredFrom s.contents known) (hgrows : ∀ name, s.contents name <+: contents name) :
    r.AnsweredFrom contents known := by
  intro chunk hanswer
  obtain ⟨content, hknown, hwas, hrest⟩ := h chunk hanswer
  exact ⟨content, hknown, hwas.trans (hgrows _), hrest⟩

/-- The logs grow. -/
lemma LogViewing.Inv.grows (h : s.Inv idle) (hgrows : ∀ name, s.contents name <+: contents name) :
    ({ s with contents := contents } : LogViewing).Inv idle where
  forward := fun r hr => ⟨(h.forward r hr).1, (h.forward r hr).2.grows hgrows⟩
  opening := h.opening
  content := fun r data hr hanswer => (h.content r data hr hanswer).trans (hgrows _)
  loading := h.loading
  chunked := by
    intro hmode
    rcases h.chunked hmode with hopened | ⟨name, content, info, first, hreads⟩
    · exact Or.inl ⟨hopened.logChunks, hopened.currentChunkInfo, hopened.offset⟩
    · refine Or.inr ⟨name, content, info, first, hreads.currentChunkInfo,
        hreads.was.trans (hgrows _), hreads.hasLines, hreads.first, hreads.selected, ?_⟩
      intro r hr
      obtain ⟨hname, hoffset, hanswer⟩ := hreads.next r hr
      exact ⟨hname, hoffset, hanswer.grows hgrows⟩
  full := by
    intro hidle hmode
    obtain ⟨hnone, hinfo, hcontent⟩ := h.full hidle hmode
    exact ⟨hnone, hinfo, fun content logFile hlog hselected =>
      (hcontent content logFile hlog hselected).trans (hgrows _)⟩

/-- Writing to a log adds to its end and leaves the others. -/
lemma prefix_emit (contents : Text → Text) (filename text name : Text) :
    contents name <+: Function.update contents filename (contents filename ++ text) name := by
  by_cases h : name = filename
  · rw [h, Function.update_self]
    exact List.prefix_append _ _
  · rw [Function.update_of_ne h]

/-- **A log is opened**: whatever was shown, this begins anew.

**Proof sketch.** A log of more than 500 MB is shown in chunks: nothing is shown yet, and the
first chunk is asked for from offset 0, unless a chunk of another log is still loading. Any other
log is asked for as a whole, and the lines are not looked at. -/
lemma inv_loadLogFile (logFile : LogFileEntry) (hloading : ¬ s.viewer.loadingLogContent = true)
    (hnone : s.contentRequest = none)
    (hforward : ∀ r, s.chunkRequest = some r →
      r.direction = "forward" ∧ r.AnsweredFrom s.contents [])
    (hnotOpening : ∀ r, s.chunkRequest = some r → r.opening ≠ true)
    (hidle : idle → s.chunkRequest = none) : (s.loadLogFile logFile).Inv idle := by
  unfold LogViewing.loadLogFile
  rw [if_neg hloading]
  by_cases hsize : logFile.sizeMb > 500
  · simp only [if_pos hsize, LogViewing.loadLogChunk]
    cases hr : s.chunkRequest with
    | none =>
      refine ⟨?_, ?_, by simp [hnone], by simp [hnone], fun _ => Or.inl ⟨rfl, rfl, ?_⟩,
        fun _ hmode => (by cases hmode)⟩
      · intro r hnew
        obtain rfl := Option.some.inj hnew
        exact ⟨rfl, fun _ hanswer => (by cases hanswer)⟩
      · intro r hnew _
        exact ⟨rfl, hnone⟩
      · intro _ r hnew
        obtain rfl := Option.some.inj hnew
        rfl
    | some r =>
      -- the first chunk is not asked for
      refine ⟨?_, ?_, by simp [hnone], by simp [hnone], fun _ => Or.inl ⟨rfl, rfl, ?_⟩,
        fun _ hmode => (by cases hmode)⟩
      · exact fun r' hr' => hforward r' (hr.trans hr')
      · exact fun r' hr' hopening => absurd hopening (hnotOpening r' (hr.trans hr'))
      · intro hi
        rw [hidle hi] at hr
        cases hr
  · simp only [if_neg hsize]
    refine ⟨hforward, ?_, ?_, fun _ _ => ⟨rfl, rfl⟩, fun hmode => (by cases hmode), ?_⟩
    · exact fun r hr hopening => absurd hopening (hnotOpening r hr)
    · intro r data hnew hanswer
      obtain rfl := Option.some.inj hnew
      cases hanswer
    · exact fun hi _ => ⟨hidle hi, rfl, fun content _ hcontent => (by cases hcontent)⟩

/-- Opening a log keeps the invariant, if no chunk is loading. -/
lemma LogViewing.Inv.loadLogFile (h : s.Inv idle) (logFile : LogFileEntry)
    (hidle : idle → s.chunkRequest = none) : (s.loadLogFile logFile).Inv idle := by
  by_cases hloading : s.viewer.loadingLogContent = true
  · rw [LogViewing.loadLogFile, if_pos hloading]
    exact h
  · have hnone : s.contentRequest = none := by
      cases hr : s.contentRequest with
      | none => rfl
      | some r => exact absurd (h.loading r hr).1 hloading
    exact inv_loadLogFile logFile hloading hnone h.forward
      (fun r hr hopening => hloading (h.opening r hr hopening).1) hidle

/-- Opening a log while nothing is loading keeps the invariant. -/
lemma LogViewing.Quiet.loadLogFile (h : s.Quiet) (logFile : LogFileEntry) :
    (s.loadLogFile logFile).Inv idle := by
  have hno : ∀ r, s.chunkRequest ≠ some r := fun r hr => by
    rw [h.chunkRequest] at hr
    cases hr
  exact inv_loadLogFile logFile (by simp [h.loadingLogContent]) h.contentRequest
    (fun r hr => absurd hr (hno r)) (fun r hr => absurd hr (hno r)) fun _ => h.chunkRequest

/-- No second chunk is requested while one is loading. -/
lemma loadLogChunk_of_some {r : ChunkRequest} (hr : s.chunkRequest = some r) (filename : Text)
    (offset : ℤ) (direction : String) : s.loadLogChunk filename offset direction false = s := by
  obtain ⟨contents, viewer, chunkRequest, contentRequest⟩ := s
  obtain rfl : chunkRequest = some r := hr
  rfl

/-- More is asked for.

**Proof sketch.** A request is made only if none is under way and the last chunk named a next
offset. So lines are shown of the log selected, and the request is for the chunk that follows
them. -/
lemma LogViewing.Inv.loadMoreForward (h : s.Inv idle) : s.loadMoreForward.Inv idle := by
  unfold LogViewing.loadMoreForward
  split
  · rename_i info logFile hinfo hselected
    split
    · rename_i offset hoffset
      cases hr : s.chunkRequest with
      | some r =>
        rw [loadLogChunk_of_some hr]
        exact h
      | none =>
        simp only [LogViewing.loadLogChunk, hr]
        refine ⟨?_, ?_, h.content, h.loading, ?_, ?_⟩
        · intro r hnew
          obtain rfl := Option.some.inj hnew
          exact ⟨rfl, fun _ hanswer => (by cases hanswer)⟩
        · intro r hnew hopening
          obtain rfl := Option.some.inj hnew
          cases hopening
        · intro hmode
          rcases h.chunked hmode with hopened | ⟨name, content, info', first, hreads⟩
          · rw [hopened.currentChunkInfo] at hinfo
            cases hinfo
          · refine Or.inr ⟨name, content, info', first, hreads.currentChunkInfo, hreads.was,
              hreads.hasLines.congr rfl, hreads.first, hreads.selected, ?_⟩
            obtain rfl : info' = info := Option.some.inj (hreads.currentChunkInfo.symm.trans hinfo)
            intro r hnew
            obtain rfl := Option.some.inj hnew
            exact ⟨hreads.selected logFile hselected, ⟨offset, hoffset, rfl⟩,
              fun _ hanswer => (by cases hanswer)⟩
        · intro hi hmode
          rw [(h.full hi hmode).2.1] at hinfo
          cases hinfo
    · exact h
  · exact h

/-- The server answers a request for a chunk.

**Proof sketch.** The request goes forward, so the answer is a chunk of the log as it is now. What
was known of the log when the request was made is a beginning of it, since logs only grow. -/
lemma LogViewing.Inv.getLogContentChunk {r : ChunkRequest} {answers : LogFileAnswers}
    (h : s.Inv idle) (hr : s.chunkRequest = some r) :
    ({ s with
      chunkRequest := some
        { r with
          answer := some (FileAgent.getLogContentChunk (answers.fileSystem (s.contents r.filename))
            cwd currentLogPath r.filename r.offset 1000 r.direction).result } } :
      LogViewing).Inv idle := by
  have hanswered : ∀ known, known <+: s.contents r.filename →
      ({ r with
        answer := some (FileAgent.getLogContentChunk (answers.fileSystem (s.contents r.filename))
          cwd currentLogPath r.filename r.offset 1000 r.direction).result } :
        ChunkRequest).AnsweredFrom s.contents known := by
    intro known hknown chunk hanswer
    obtain ⟨hname, hchunk⟩ := chunk_of_result (Option.some.inj hanswer)
    rw [(h.forward r hr).1] at hchunk
    exact ⟨_, hknown, List.prefix_rfl, hname, hchunk⟩
  refine ⟨?_, ?_, h.content, h.loading, ?_, ?_⟩
  · intro r' hnew
    obtain rfl := Option.some.inj hnew
    exact ⟨(h.forward r hr).1, hanswered [] List.nil_prefix⟩
  · intro r' hnew hopening
    obtain rfl := Option.some.inj hnew
    exact h.opening r hr hopening
  · intro hmode
    rcases h.chunked hmode with hopened | ⟨name, content, info, first, hreads⟩
    · refine Or.inl ⟨hopened.logChunks, hopened.currentChunkInfo, fun hi r' hnew => ?_⟩
      obtain rfl := Option.some.inj hnew
      exact hopened.offset hi r hr
    · refine Or.inr ⟨name, content, info, first, hreads.currentChunkInfo, hreads.was,
        hreads.hasLines, hreads.first, hreads.selected, fun r' hnew => ?_⟩
      obtain rfl := Option.some.inj hnew
      obtain ⟨hname, hoffset, -⟩ := hreads.next r hr
      exact ⟨hname, hoffset, hanswered content (hname ▸ hreads.was)⟩
  · intro hi hmode
    rw [(h.full hi hmode).1] at hr
    cases hr

/-- The server answers a request for a log. -/
lemma LogViewing.Inv.getLogContent {r : ContentRequest} {answers : LogFileAnswers}
    (h : s.Inv idle) (hr : s.contentRequest = some r) :
    ({ s with
      contentRequest := some
        { r with
          answer := some (FileAgent.getLogContent
            (answers.fileSystem (s.contents r.logFile.filename))
            cwd currentLogPath r.logFile.filename).result } } : LogViewing).Inv idle := by
  refine ⟨h.forward, ?_, ?_, fun _ _ => h.loading r hr, fun hmode => ?_, h.full⟩
  · intro r' hr' hopening
    have hnone := (h.opening r' hr' hopening).2
    rw [hr] at hnone
    cases hnone
  · intro r' data hnew hanswer
    obtain rfl := Option.some.inj hnew
    rw [content_of_result (Option.some.inj hanswer)]
  · -- only a log that is shown as a whole is asked for as a whole
    have hfull := (h.loading r hr).2
    rw [show s.viewer.viewMode = .chunked from hmode] at hfull
    cases hfull

/-- The first chunk that comes, or one from the first line on. -/
lemma reads_of_first {r : ChunkRequest} {chunk : LogChunk}
    (hanswered : r.AnsweredFrom s.contents []) (hanswer : r.answer = some (.ok chunk))
    (hlines : (s.viewer.chunkLoaded r (.ok chunk)).logChunks = chunk.lines)
    (hoffset : idle → r.offset = 0) :
    ∃ content first,
      ({ s with viewer := s.viewer.chunkLoaded r (.ok chunk), chunkRequest := none } :
        LogViewing).Reads idle r.filename content chunk.chunkInfo first := by
  obtain ⟨content, -, hwas, hname, hchunk⟩ := hanswered chunk hanswer
  obtain ⟨hblock, hstart⟩ := hasLines_chunkOf (v := { logChunks := chunk.lines }) hchunk
  refine ⟨content, _, rfl, hwas, hblock.congr hlines, ?_, ?_, fun r' hr' => (by cases hr')⟩
  · intro hi
    rw [hstart, hoffset hi, Int.toNat_zero, Nat.zero_min]
  · intro logFile hselected
    obtain rfl := Option.some.inj hselected
    exact hname

/-- A further chunk comes. -/
lemma reads_of_next {r : ChunkRequest} {chunk : LogChunk} (h : s.Reads idle name content info first)
    (hr : s.chunkRequest = some r) (hanswer : r.answer = some (.ok chunk))
    (hlines : (s.viewer.chunkLoaded r (.ok chunk)).logChunks = s.viewer.logChunks ++ chunk.lines) :
    ∃ content', ({ s with viewer := s.viewer.chunkLoaded r (.ok chunk), chunkRequest := none } :
      LogViewing).Reads idle name content' chunk.chunkInfo first := by
  obtain ⟨hname, ⟨offset, hnext, hoffset⟩, hanswered⟩ := h.next r hr
  obtain ⟨content', hknown, hwas, hfile, hchunk⟩ := hanswered chunk hanswer
  rw [hoffset, Int.toNat_natCast] at hchunk
  refine ⟨content', rfl, hname ▸ hwas, (h.hasLines.append hknown hnext hchunk).congr hlines,
    h.first, ?_, fun r' hr' => (by cases hr')⟩
  intro logFile hselected
  obtain rfl := Option.some.inj hselected
  exact hfile.trans hname

/-- A chunk comes.

**Proof sketch.** A failed request leaves the lines as they are. A first chunk replaces them with
the beginning of a content the log had, by `reads_of_first`; a later one continues where the lines
shown end, by `reads_of_next`, since the request began at the offset that the last chunk named and
the log has only grown since. -/
lemma LogViewing.Inv.chunkLoaded {r : ChunkRequest} {answer : Except LogError LogChunk}
    (h : s.Inv idle) (hr : s.chunkRequest = some r)
    (hanswer : ∀ chunk, answer = .ok chunk → r.answer = some (.ok chunk)) :
    ({ s with viewer := s.viewer.chunkLoaded r answer, chunkRequest := none } :
      LogViewing).Inv idle := by
  obtain ⟨hdirection, hanswered⟩ := h.forward r hr
  have hloading : ∀ r', s.contentRequest = some r' →
      (s.viewer.chunkLoaded r answer).loadingLogContent = true ∧
        (s.viewer.chunkLoaded r answer).viewMode = .full := by
    intro r' hr'
    have hnotOpening : r.opening = false := by
      by_contra hopening
      have hnone := (h.opening r hr (Bool.eq_true_of_not_eq_false hopening)).2
      rw [hr'] at hnone
      cases hnone
    obtain ⟨hload, hfull⟩ := h.loading r' hr'
    cases answer <;> simp [LogViewer.chunkLoaded, hnotOpening, hload, hfull]
  refine ⟨fun r' hr' => (by cases hr'), fun r' hr' => (by cases hr'), h.content, hloading, ?_, ?_⟩
  · intro hmode
    have hchunked : s.viewer.viewMode = .chunked := by
      cases answer <;> exact hmode
    cases answer with
    | error e =>
      rcases h.chunked hchunked with hopened | ⟨name, content, info, first, hreads⟩
      · exact Or.inl ⟨hopened.logChunks, hopened.currentChunkInfo, fun _ r' hr' => (by cases hr')⟩
      · exact Or.inr ⟨name, content, info, first, hreads.currentChunkInfo, hreads.was,
          hreads.hasLines.congr rfl, hreads.first, hreads.selected, fun r' hr' => (by cases hr')⟩
    | ok chunk =>
      right
      have hok := hanswer chunk rfl
      by_cases hzero : r.offset = 0
      · have hlines : (s.viewer.chunkLoaded r (.ok chunk)).logChunks = chunk.lines :=
          if_pos ⟨hdirection, hzero⟩
        obtain ⟨content, first, hnew⟩ := reads_of_first hanswered hok hlines fun _ => hzero
        exact ⟨_, content, _, first, hnew⟩
      have happend : (s.viewer.chunkLoaded r (.ok chunk)).logChunks =
          s.viewer.logChunks ++ chunk.lines :=
        (if_neg fun hboth => hzero hboth.2).trans (if_pos hdirection)
      rcases h.chunked hchunked with hopened | ⟨name, content, info, first, hreads⟩
      · rw [hopened.logChunks, List.nil_append] at happend
        obtain ⟨content, first, hnew⟩ :=
          reads_of_first hanswered hok happend fun hi => hopened.offset hi r hr
        exact ⟨_, content, _, first, hnew⟩
      · obtain ⟨content', hnew⟩ := reads_of_next hreads hr hok happend
        exact ⟨name, content', _, first, hnew⟩
  · intro hi hmode
    have hfull : s.viewer.viewMode = .full := by
      cases answer <;> exact hmode
    rw [(h.full hi hfull).1] at hr
    cases hr

/-- A log comes as a whole.

**Proof sketch.** A log that comes as a whole was asked for in the other mode, so no lines are
shown. What comes is what the server answered for that log, and it is shown if the log is still
the one selected. -/
lemma LogViewing.Inv.contentLoaded {r : ContentRequest} {answer : Except LogError LogContent}
    (h : s.Inv idle) (hr : s.contentRequest = some r)
    (hanswer : ∀ data, answer = .ok data → r.answer = some (.ok data)) :
    ({ s with viewer := s.viewer.contentLoaded r.logFile answer, contentRequest := none } :
      LogViewing).Inv idle := by
  have hfull := (h.loading r hr).2
  have hmode : (s.viewer.contentLoaded r.logFile answer).viewMode = .full := by
    cases answer <;> exact hfull
  refine ⟨h.forward, ?_, fun r' _ hr' => (by cases hr'), fun r' hr' => (by cases hr'), ?_, ?_⟩
  · intro r' hr' hopening
    have hnone := (h.opening r' hr' hopening).2
    rw [hr] at hnone
    cases hnone
  · intro hchunked
    rw [hmode] at hchunked
    cases hchunked
  · intro hi _
    obtain ⟨hnone, hinfo, -⟩ := h.full hi hfull
    cases answer with
    | error e => exact ⟨hnone, hinfo, fun content logFile hlog => (by cases hlog)⟩
    | ok data =>
      refine ⟨hnone, hinfo, fun content logFile hlog hselected => ?_⟩
      obtain rfl : data.content = content := by injection Option.some.inj hlog
      obtain rfl := Option.some.inj hselected
      exact h.content r data hr (hanswer data rfl)

/-- **The step lemma.**

**Proof sketch.** By cases on the action. Opening and closing the modal keep the lines shown. A
request is made for what follows them, the server answers from the log as it is, and an answer
that comes is `chunkLoaded` or `contentLoaded`; so is a lost one, as an error. A write to a log
adds to its end. Steps backward and rollovers are excluded. -/
lemma logViewingInv_step {a : LogViewingAction} (h : s.Inv idle) (hforward : GoesForward a)
    (hidle : idle → OpensWhenIdle s a) (hs : logViewingStep cwd currentLogPath s a = some s') :
    s'.Inv idle := by
  cases a with
  | openLogViewerModal =>
    obtain rfl := Option.some.inj hs
    refine ⟨h.forward, h.opening, h.content, h.loading, fun hmode => ?_, h.full⟩
    rcases h.chunked hmode with hopened | ⟨name, content, info, first, hreads⟩
    · exact Or.inl ⟨hopened.logChunks, hopened.currentChunkInfo, hopened.offset⟩
    · exact Or.inr ⟨name, content, info, first, hreads.currentChunkInfo, hreads.was,
        hreads.hasLines.congr rfl, hreads.first, hreads.selected, hreads.next⟩
  | closeLogViewerModal =>
    obtain rfl := Option.some.inj hs
    refine ⟨h.forward, h.opening, h.content, h.loading, fun hmode => ?_, fun hi hmode => ?_⟩
    · rcases h.chunked hmode with hopened | ⟨name, content, info, first, hreads⟩
      · exact Or.inl ⟨hopened.logChunks, hopened.currentChunkInfo, hopened.offset⟩
      · exact Or.inr ⟨name, content, info, first, hreads.currentChunkInfo, hreads.was,
          hreads.hasLines.congr rfl, hreads.first, fun _ hselected => (by cases hselected),
          hreads.next⟩
    · obtain ⟨hnone, hinfo, -⟩ := h.full hi hmode
      exact ⟨hnone, hinfo, fun content logFile hlog => (by cases hlog)⟩
  | loadLogFile logFile =>
    obtain rfl := Option.some.inj hs
    exact h.loadLogFile logFile hidle
  | loadMoreForward =>
    obtain rfl := Option.some.inj hs
    exact h.loadMoreForward
  | loadMoreBackward => exact hforward.elim
  | getLogContentChunk answers =>
    obtain ⟨r, hr, hs⟩ := Option.bind_eq_some_iff.mp hs
    dsimp only at hs
    split_ifs at hs
    obtain rfl := Option.some.inj hs
    exact h.getLogContentChunk hr
  | getLogContent answers =>
    obtain ⟨r, hr, hs⟩ := Option.bind_eq_some_iff.mp hs
    dsimp only at hs
    split_ifs at hs
    obtain rfl := Option.some.inj hs
    exact h.getLogContent hr
  | receiveChunk =>
    obtain ⟨r, hr, hs⟩ := Option.bind_eq_some_iff.mp hs
    obtain ⟨answer, hanswer, rfl⟩ := Option.map_eq_some_iff.mp hs
    exact h.chunkLoaded hr fun chunk hok => hok ▸ hanswer
  | receiveContent =>
    obtain ⟨r, hr, hs⟩ := Option.bind_eq_some_iff.mp hs
    obtain ⟨answer, hanswer, rfl⟩ := Option.map_eq_some_iff.mp hs
    exact h.contentLoaded hr fun data hok => hok ▸ hanswer
  | loseChunk message =>
    obtain ⟨r, hr, rfl⟩ := Option.map_eq_some_iff.mp hs
    exact h.chunkLoaded hr fun chunk hok => (by cases hok)
  | loseContent message =>
    obtain ⟨r, hr, rfl⟩ := Option.map_eq_some_iff.mp hs
    exact h.contentLoaded hr fun data hok => (by cases hok)
  | emit filename text =>
    obtain rfl := Option.some.inj hs
    exact h.grows (prefix_emit s.contents filename text)
  | doRollover filename backup => exact hforward.elim

end Steps

/-! ## Runs -/

section Runs

variable {cwd : CurrentDirectory} {currentLogPath : Text} {s₀ s : LogViewing}
  {logFile : LogFileEntry} {tr : List (LogViewing × LogViewingAction)}

/-- **What the log viewer shows**: from when a log is opened with nothing loading, whatever the user
opens, closes and asks for, in whatever order the requests are answered or get lost, and however the
logs grow meanwhile: what is shown in chunks is a block of lines of the log that is named, with no
line left out, repeated or of another log, as they were when the last chunk was read; and if no log
is opened while a chunk is loading, the block begins with the first line, and a log that is shown as
a whole is the one that is named. This holds as long as no earlier lines are asked for and the
server does not rename its log.

**Proof sketch.** A chunk continues the last one, as the lines before the last line of a log stay as
they are (`take_readLines_of_prefix`), and a chunk that was asked for before another log was opened
is the first one shown, and brings its log's name with it. -/
theorem log_shown (hquiet : s₀.Quiet)
    (hrun : Run (logViewingStep cwd currentLogPath) (s₀.loadLogFile logFile) tr s)
    (hforward : Meets (fun _ a => GoesForward a) tr) :
    s.viewer.ShowsBlock s.contents ∧
      (Meets OpensWhenIdle tr → s.viewer.ShowsLog s.contents) := by
  have hinv : s.Inv (Meets OpensWhenIdle tr) := by
    have hok : Meets (fun s a => GoesForward a ∧ (Meets OpensWhenIdle tr → OpensWhenIdle s a)) tr :=
      fun p hp => ⟨hforward p hp, fun hidle => hidle p hp⟩
    exact hrun.invariant hok (hquiet.loadLogFile logFile)
      fun _ _ _ h hok hs => logViewingInv_step h hok.1 hok.2 hs
  refine ⟨?_, fun hidle => ?_⟩
  · intro hmode logFile info hselected hinfo
    rcases hinv.chunked hmode with hopened | ⟨name, content, info', first, hreads⟩
    · rw [hopened.currentChunkInfo] at hinfo
      cases hinfo
    · obtain rfl : info' = info := Option.some.inj (hreads.currentChunkInfo.symm.trans hinfo)
      exact ⟨content, first, (hreads.selected logFile hselected).symm ▸ hreads.was, hreads.hasLines⟩
  · intro logFile hselected
    refine ⟨fun hmode info hinfo => ?_, fun hmode content hcontent =>
      (hinv.full hidle hmode).2.2 content logFile hcontent hselected⟩
    rcases hinv.chunked hmode with hopened | ⟨name, content, info', first, hreads⟩
    · rw [hopened.currentChunkInfo] at hinfo
      cases hinfo
    · obtain rfl : info' = info := Option.some.inj (hreads.currentChunkInfo.symm.trans hinfo)
      obtain rfl := hreads.first hidle
      exact ⟨content, (hreads.selected logFile hselected).symm ▸ hreads.was, hreads.hasLines⟩

/-- A log that is shown in chunks. -/
def largeLog : LogFileEntry := ⟨"file_agent.log".toList, 6000000, "2024-01-01T00:00:00", true, none⟩

/-- The log has a thousand empty lines and one more. The server writes a line while the first chunk
is on its way, and the lines after that chunk are asked for. -/
def writesMeanwhile : List LogViewingAction :=
  [.emit "file_agent.log".toList (List.replicate 1000 '\n' ++ "first\n".toList),
    .getLogContentChunk {}, .emit "file_agent.log".toList "second\n".toList, .receiveChunk,
    .loadMoreForward, .getLogContentChunk {}, .receiveChunk]

/-- The second chunk continues the first one with both lines. -/
theorem log_shown_writesMeanwhile :
    ∃ tr s, Run (logViewingStep workDirectory "logs/file_agent.log".toList)
        (({ contents := fun _ => [] } : LogViewing).loadLogFile largeLog) tr s ∧
      tr.map Prod.snd = writesMeanwhile ∧
      s.viewer.logChunks = List.replicate 1000 [] ++ ["first".toList, "second".toList] ∧
      s.viewer.ShowsBlock s.contents ∧
        (Meets OpensWhenIdle tr → s.viewer.ShowsLog s.contents) := by
  have htest : (replay (logViewingStep workDirectory "logs/file_agent.log".toList)
      (({ contents := fun _ => [] } : LogViewing).loadLogFile largeLog) writesMeanwhile).any
      (fun s => s.viewer.logChunks = List.replicate 1000 [] ++ ["first".toList, "second".toList]) =
        true := by
    decide +kernel
  obtain ⟨s, hreplay, hs⟩ := (Option.any_eq_true _ _).mp htest
  have hrun := Run.of_replay hreplay
  have hactions := map_snd_traceOf hreplay
  have hforward : Meets (fun _ a => GoesForward a)
      (traceOf (logViewingStep workDirectory "logs/file_agent.log".toList)
        (({ contents := fun _ => [] } : LogViewing).loadLogFile largeLog) writesMeanwhile) := by
    have hall : ∀ a ∈ writesMeanwhile, GoesForward a := by decide +kernel
    exact fun p hp => hall p.2 (hactions ▸ List.mem_map.mpr ⟨p, hp, rfl⟩)
  exact ⟨_, s, hrun, hactions, of_decide_eq_true hs, log_shown ⟨rfl, rfl, rfl⟩ hrun hforward⟩

end Runs

end FileAgent

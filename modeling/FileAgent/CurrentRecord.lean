import FileAgent.Library.BestPerKey
import FileAgent.StateManager

set_option relaxedAutoImplicit false
set_option autoImplicit false

/-!
# The current record of a path

A path may have any number of records in the repository: what became of earlier files of that name,
and at most a few that are still worked on. `StateManager` picks the current one in two ways.
`_get_current_file_for_path` takes the minimum under one table of priorities, and the loops of
`cleanup_missing_files`, `get_files_by_status` and `get_statistics` compare pairs with
`_is_more_current`, which has a table of its own. Both compute a first least record; they differ in
the tables.

## Main definitions

* `StateManager.records` — the records of a path.
* `StateManager.selectedFile` — the record that the loops with `_is_more_current` end with.
* `LiveRecordWins`, `SpaceErrorsAlone` — the live record of a path is its current one, and when.
* `NetworkWaitShadows` — when the two selections differ.

## Main results

* `StateManager.getCurrentFileForPath_eq`, `StateManager.selectedFile_eq` — both selections are
  first least records.
* `liveRecordWins_iff` — the live record wins exactly if no `SPACE_ERROR` record has history.
* `StateManager.selectedFile_eq_getCurrentFileForPath_iff` — when the two selections agree.
-/

namespace FileAgent

variable {priority : FileStatus → ℕ} {f g : TrackedFile} {heap : FileId → TrackedFile}

/-! ## The ranks of the records -/

/-- The sort key of a record: its priority, and then the newest first. -/
def recordRank (priority : FileStatus → ℕ) (f : TrackedFile) : ℕ ×ₗ ℕᵒᵈ :=
  toLex (priority f.status, OrderDual.toDual f.discoveredAt)

/-- A record ranks before another by its status, or by its later discovery where these rank
alike. -/
lemma recordRank_lt_iff :
    recordRank priority f < recordRank priority g ↔
      priority f.status < priority g.status ∨
        (priority f.status = priority g.status ∧ g.discoveredAt < f.discoveredAt) := by
  rw [recordRank, recordRank, Prod.Lex.toLex_lt_toLex, OrderDual.toDual_lt_toDual]

/-- A record ranks no later than another. -/
lemma recordRank_le_iff :
    recordRank priority f ≤ recordRank priority g ↔
      priority f.status < priority g.status ∨
        (priority f.status = priority g.status ∧ g.discoveredAt ≤ f.discoveredAt) := by
  rw [recordRank, recordRank, Prod.Lex.toLex_le_toLex, OrderDual.toDual_le_toDual]

/-- A record of least rank has the least priority. -/
lemma priority_le_of_recordRank_le (h : recordRank priority f ≤ recordRank priority g) :
    priority f.status ≤ priority g.status := by
  rcases recordRank_le_iff.mp h with hlt | ⟨heq, -⟩
  · exact hlt.le
  · exact heq.le

/-- The key of `get_active_file_by_path` is the rank. -/
lemma keyLt_iff : keyLt priority f g = true ↔ recordRank priority f < recordRank priority g := by
  rw [recordRank_lt_iff, keyLt, Bool.or_eq_true, Bool.and_eq_true, decide_eq_true_eq,
    decide_eq_true_eq, decide_eq_true_eq]

/-- `is_more_current` compares the ranks of its own table. -/
lemma isMoreCurrent_iff :
    isMoreCurrent f g = true ↔
      recordRank moreCurrentPriority f < recordRank moreCurrentPriority g := by
  rw [recordRank_lt_iff, isMoreCurrent]
  by_cases h : moreCurrentPriority f.status = moreCurrentPriority g.status
  · simp [h]
  · simp [h]

/-- `min(candidates, key=sort_key)` is a first least record. -/
lemma minByKey_eq_argmin (ids : List FileId) :
    minByKey heap priority ids = ids.argmin fun id => recordRank priority (heap id) := by
  cases ids with
  | nil => rfl
  | cons a ids =>
    rw [← BestPerKey.foldl_eq_argmin]
    simp only [minByKey, keyLt_iff]

/-- The loop of `cleanup_missing_files` keeps the record of least rank for each path. -/
lemma currentFiles_eq_fill (ids : List FileId) :
    currentFiles heap ids =
      BestPerKey.fill (fun id => (heap id).filePath)
        (fun id => recordRank moreCurrentPriority (heap id)) ids := by
  have hround : ∀ (id : FileId) (cur : List FileId), insertCurrent heap id cur =
      BestPerKey.insertBest (fun id => (heap id).filePath)
        (fun id => recordRank moreCurrentPriority (heap id)) id cur := by
    intro id cur
    induction cur with
    | nil => rfl
    | cons c rest ih => simp only [insertCurrent, BestPerKey.insertBest, isMoreCurrent_iff, ih]
  have hfun : (fun cur id => insertCurrent heap id cur) = fun cur id =>
      BestPerKey.insertBest (fun id => (heap id).filePath)
        (fun id => recordRank moreCurrentPriority (heap id)) id cur := by
    funext cur id
    exact hround id cur
  rw [currentFiles, hfun]
  rfl

/-- The two tables are the same, except that `_is_more_current` gives `WAITING_FOR_SPACE` and
`WAITING_FOR_NETWORK` one priority and moves up what comes after them. -/
lemma moreCurrentPriority_eq (s : FileStatus) :
    moreCurrentPriority s =
      if currentPriority s ≤ 8 then currentPriority s else currentPriority s - 1 := by
  cases s <;> rfl

namespace StateManager

variable {m : StateManager} {path : FilePath} {id j : FileId}

/-- The records of a path, in the order of `get_all`. -/
def records (m : StateManager) (path : FilePath) : List FileId :=
  m.files.filter fun id => (m.heap id).filePath = path

/-- `current_files.get(path)`, after the loop over `get_all`. -/
def selectedFile (m : StateManager) (path : FilePath) : Option FileId :=
  (currentFiles m.heap m.files).find? fun id => (m.heap id).filePath = path

/-- The records of a path are those stored with it. -/
@[simp] lemma mem_records : id ∈ m.records path ↔ id ∈ m.files ∧ (m.heap id).filePath = path := by
  simp [records]

/-- **`_get_current_file_for_path` takes the first least record of the path.** -/
theorem getCurrentFileForPath_eq (m : StateManager) (path : FilePath) :
    m.getCurrentFileForPath path =
      (m.records path).argmin fun id => recordRank currentPriority (m.heap id) :=
  minByKey_eq_argmin _

/-- **The loops with `_is_more_current` take the first least record of each path.** -/
theorem selectedFile_eq (m : StateManager) (path : FilePath) :
    m.selectedFile path =
      (m.records path).argmin fun id => recordRank moreCurrentPriority (m.heap id) := by
  rw [selectedFile, currentFiles_eq_fill]
  exact BestPerKey.find?_fill _ _ _ _

/-- `get_active_file_by_path` takes the first least record among the active ones. -/
lemma getActiveFileByPath_eq (m : StateManager) (path : FilePath) :
    m.getActiveFileByPath path =
      ((m.records path).filter fun id => (m.heap id).status.isActive).argmin
        fun id => recordRank activePriority (m.heap id) := by
  rw [getActiveFileByPath, minByKey_eq_argmin, records, List.filter_filter]
  congr 1
  apply List.filter_congr
  intro id _
  rw [Bool.decide_and, Bool.and_comm, Bool.decide_eq_true]

/-- The entries of `current_files` are what is selected for their own path. -/
lemma mem_currentFiles_iff :
    id ∈ currentFiles m.heap m.files ↔ m.selectedFile (m.heap id).filePath = some id := by
  rw [selectedFile_eq, currentFiles_eq_fill, BestPerKey.mem_fill]
  rfl

/-- A path with a record has a current one. -/
lemma exists_getCurrentFileForPath (h : j ∈ m.records path) :
    ∃ id, m.getCurrentFileForPath path = some id := by
  rw [← Option.ne_none_iff_exists', getCurrentFileForPath_eq, Ne, List.argmin_eq_none]
  exact List.ne_nil_of_mem h

@[inherit_doc exists_getCurrentFileForPath]
lemma exists_selectedFile (h : j ∈ m.records path) : ∃ id, m.selectedFile path = some id := by
  rw [← Option.ne_none_iff_exists', selectedFile_eq, Ne, List.argmin_eq_none]
  exact List.ne_nil_of_mem h

/-- The current record is a record of the path, and none has a lower rank. -/
lemma getCurrentFileForPath_some (h : m.getCurrentFileForPath path = some id) :
    id ∈ m.records path ∧ ∀ j ∈ m.records path,
      recordRank currentPriority (m.heap id) ≤ recordRank currentPriority (m.heap j) := by
  rw [getCurrentFileForPath_eq] at h
  exact BestPerKey.least_of_argmin h

@[inherit_doc getCurrentFileForPath_some]
lemma selectedFile_some (h : m.selectedFile path = some id) :
    id ∈ m.records path ∧ ∀ j ∈ m.records path,
      recordRank moreCurrentPriority (m.heap id) ≤ recordRank moreCurrentPriority (m.heap j) := by
  rw [selectedFile_eq] at h
  exact BestPerKey.least_of_argmin h

end StateManager

/-! ## The live record of a path -/

/-- **The live record wins**: for a path with an active record both selections take an active one,
`should_skip_file_processing` sees the cooldown of an active `SPACE_ERROR` record, and
`cleanup_missing_files` marks an active `SPACE_ERROR` record of a path that is gone. -/
structure LiveRecordWins (m : StateManager) : Prop where
  current : ∀ path, (∃ j ∈ m.records path, (m.heap j).status.isActive = true) →
    ∃ id, m.getCurrentFileForPath path = some id ∧ (m.heap id).status.isActive = true
  selected : ∀ path, (∃ j ∈ m.records path, (m.heap j).status.isActive = true) →
    ∃ id, m.selectedFile path = some id ∧ (m.heap id).status.isActive = true
  skips : ∀ now cooldownMinutes path id, m.getActiveFileByPath path = some id →
    StateManager.isSpaceErrorInCooldown now cooldownMinutes (m.heap id) = true →
      m.shouldSkipFileProcessing now cooldownMinutes path = true
  marks : ∀ existingPaths path id, path ∉ existingPaths → m.getActiveFileByPath path = some id →
    (m.heap id).status = .spaceError →
      ((m.cleanupMissingFiles existingPaths).manager.heap id).status = .removed

/-- A path with a `SPACE_ERROR` record, and no record in another active status, has no `COMPLETED`,
`FAILED` or `REMOVED` record. -/
def SpaceErrorsAlone (m : StateManager) : Prop :=
  ∀ path, (∃ j ∈ m.records path, (m.heap j).status = .spaceError) →
    (∀ j ∈ m.records path, (m.heap j).status.isActive = true → (m.heap j).status = .spaceError) →
      ∀ j ∈ m.records path, (m.heap j).status.isActive = true

section LiveRecord

variable {m : StateManager} {path : FilePath} {id : FileId}

/-- Where the history is in the order of `_get_current_file_for_path`. -/
lemma le_currentPriority {s : FileStatus} (hs : s.isActive = false) : 10 ≤ currentPriority s := by
  revert hs
  cases s <;> decide

/-- Behind a record of the history, `_get_current_file_for_path` ranks only `SPACE_ERROR` records
among the active ones. -/
lemma spaceError_of_currentPriority_le {s t : FileStatus} (hs : s.isActive = false)
    (ht : t.isActive = true) (h : currentPriority s ≤ currentPriority t) : t = .spaceError := by
  have hlow := (le_currentPriority hs).trans h
  revert ht hlow
  cases t <;> decide

@[inherit_doc spaceError_of_currentPriority_le]
lemma spaceError_of_moreCurrentPriority_le {s t : FileStatus} (hs : s.isActive = false)
    (ht : t.isActive = true) (h : moreCurrentPriority s ≤ moreCurrentPriority t) :
    t = .spaceError := by
  apply spaceError_of_currentPriority_le hs ht
  have hlow := le_currentPriority hs
  rw [moreCurrentPriority_eq, moreCurrentPriority_eq] at h
  split_ifs at h <;> omega

/-- A record that ranks before an active one is active, unless it ranks before all active records,
which are `SPACE_ERROR` records then. -/
lemma isActive_of_least (halone : SpaceErrorsAlone m)
    (hrank : ∀ s t : FileStatus, s.isActive = false → t.isActive = true →
      priority s ≤ priority t → t = .spaceError)
    (hact : ∃ j ∈ m.records path, (m.heap j).status.isActive = true)
    (hid : id ∈ m.records path)
    (hleast : ∀ j ∈ m.records path,
      recordRank priority (m.heap id) ≤ recordRank priority (m.heap j)) :
    (m.heap id).status.isActive = true := by
  by_contra hno
  rw [Bool.not_eq_true] at hno
  have hspace : ∀ j ∈ m.records path, (m.heap j).status.isActive = true →
      (m.heap j).status = .spaceError := fun j hj ha =>
    hrank _ _ hno ha (priority_le_of_recordRank_le (hleast j hj))
  obtain ⟨j, hj, ha⟩ := hact
  have hall := halone path ⟨j, hj, hspace j hj ha⟩ hspace id hid
  rw [hno] at hall
  exact Bool.false_ne_true hall

/-- If the active record of a path is a `SPACE_ERROR`, so are all its active records. -/
lemma spaceError_of_getActiveFileByPath (h : m.getActiveFileByPath path = some id)
    (hst : (m.heap id).status = .spaceError) {j : FileId} (hj : j ∈ m.records path)
    (ha : (m.heap j).status.isActive = true) : (m.heap j).status = .spaceError := by
  rw [StateManager.getActiveFileByPath_eq] at h
  have hmem : j ∈ (m.records path).filter fun id => (m.heap id).status.isActive :=
    List.mem_filter.mpr ⟨hj, ha⟩
  have hle := priority_le_of_recordRank_le ((BestPerKey.least_of_argmin h).2 j hmem)
  rw [hst] at hle
  revert ha hle
  cases (m.heap j).status <;> decide

/-- If all records of a path are `SPACE_ERROR` records, every way to select one takes the newest. -/
lemma argmin_of_spaceErrors (hall : ∀ j ∈ m.records path, (m.heap j).status = .spaceError)
    (p q : FileStatus → ℕ) :
    (m.records path).argmin (fun id => recordRank p (m.heap id)) =
      (m.records path).argmin fun id => recordRank q (m.heap id) := by
  apply BestPerKey.argmin_congr
  intro a ha b hb
  rw [recordRank_lt_iff, recordRank_lt_iff, hall a ha, hall b hb]
  simp

/-- Under the condition, a `SPACE_ERROR` that is the active record of its path is the record that
both selections take. -/
lemma selections_of_spaceError (halone : SpaceErrorsAlone m)
    (h : m.getActiveFileByPath path = some id) (hst : (m.heap id).status = .spaceError) :
    m.getCurrentFileForPath path = some id ∧ m.selectedFile path = some id := by
  have hspace := fun j => spaceError_of_getActiveFileByPath h hst (j := j)
  obtain ⟨hid, hpath, -⟩ := StateManager.getActiveFileByPath_some h
  have hact := halone path ⟨id, StateManager.mem_records.mpr ⟨hid, hpath⟩, hst⟩ hspace
  have hall : ∀ j ∈ m.records path, (m.heap j).status = .spaceError :=
    fun j hj => hspace j hj (hact j hj)
  have hfilter : (m.records path).filter (fun id => (m.heap id).status.isActive) =
      m.records path := List.filter_eq_self.mpr hact
  rw [StateManager.getActiveFileByPath_eq, hfilter] at h
  rw [StateManager.getCurrentFileForPath_eq, StateManager.selectedFile_eq]
  exact ⟨(argmin_of_spaceErrors hall _ _).trans h, (argmin_of_spaceErrors hall _ _).trans h⟩

/-- **When the live record wins**: exactly if a path whose active records are all `SPACE_ERROR`
records has no history.

**Proof sketch.** Both tables put `SPACE_ERROR` after the history and every other active status
before it. So a record of the history is selected before an active one only if the active ones are
all `SPACE_ERROR` records; and if a path has nothing but `SPACE_ERROR` records, all selections take
the newest of them. -/
theorem liveRecordWins_iff (m : StateManager) : LiveRecordWins m ↔ SpaceErrorsAlone m := by
  constructor
  · intro hwins path hse honly j hj
    obtain ⟨k, hk, hks⟩ := hse
    obtain ⟨id, hcur, hact⟩ := hwins.current path ⟨k, hk, by rw [hks]; rfl⟩
    obtain ⟨hid, hleast⟩ := StateManager.getCurrentFileForPath_some hcur
    have hle := priority_le_of_recordRank_le (hleast j hj)
    rw [honly id hid hact] at hle
    revert hle
    cases (m.heap j).status <;> decide
  · intro halone
    refine ⟨fun path hact => ?_, fun path hact => ?_, ?_, ?_⟩
    · obtain ⟨j, hj, -⟩ := id hact
      obtain ⟨id, hcur⟩ := StateManager.exists_getCurrentFileForPath hj
      obtain ⟨hid, hleast⟩ := StateManager.getCurrentFileForPath_some hcur
      exact ⟨id, hcur, isActive_of_least halone
        (fun _ _ => spaceError_of_currentPriority_le) hact hid hleast⟩
    · obtain ⟨j, hj, -⟩ := id hact
      obtain ⟨id, hcur⟩ := StateManager.exists_selectedFile hj
      obtain ⟨hid, hleast⟩ := StateManager.selectedFile_some hcur
      exact ⟨id, hcur, isActive_of_least halone
        (fun _ _ => spaceError_of_moreCurrentPriority_le) hact hid hleast⟩
    · intro now cooldownMinutes path id hactive hcool
      have hst : (m.heap id).status = .spaceError := by
        rw [StateManager.isSpaceErrorInCooldown, Bool.and_eq_true] at hcool
        exact of_decide_eq_true hcool.1
      have hcur := (selections_of_spaceError halone hactive hst).1
      rw [StateManager.shouldSkipFileProcessing, hcur]
      exact hcool
    · intro existingPaths path id hgone hactive hst
      have hsel := (selections_of_spaceError halone hactive hst).2
      have hpath : (m.heap id).filePath = path :=
        (StateManager.getActiveFileByPath_some hactive).2.1
      have hmissing : id ∈ m.missingFiles existingPaths := by
        rw [StateManager.missingFiles, List.mem_filter, StateManager.mem_currentFiles_iff, hpath,
          hst]
        exact ⟨hsel, by simp [hgone, StateManager.FileStatus.keptWhenMissing]⟩
      rw [StateManager.heap_cleanupMissingFiles, if_pos hmissing]
      rfl

end LiveRecord

/-- The manager of a repository to which records were added one after another. -/
def StateManager.ofRecords (records : List TrackedFile) : StateManager where
  repo := records.foldl FileRepository.insert FileRepository.empty

/-- A file that was copied once, came back, and could not be copied for lack of space. -/
def spaceErrorAfterCompleted : StateManager :=
  .ofRecords
    [{ filePath := "/src/a.mxf", status := .completed, discoveredAt := 0 },
      { filePath := "/src/a.mxf", status := .spaceError, discoveredAt := 1
        spaceErrorAt := some 2 }]

/-- The live record does not win over a `COMPLETED` one: the cooldown of the `SPACE_ERROR` is not
seen. -/
theorem cooldown_hidden : ¬ LiveRecordWins spaceErrorAfterCompleted := fun h =>
  absurd (h.skips 3 60 "/src/a.mxf" 1 (by decide) (by decide)) (by decide)

/-! ## Where the two selections differ -/

/-- The statuses that both tables put before `WAITING_FOR_SPACE` and `WAITING_FOR_NETWORK`. -/
def FileStatus.beforeWaiting : FileStatus → Bool
  | .copying | .inQueue | .growingCopy | .readyToStartGrowing | .ready | .growing | .discovered =>
    true
  | _ => false

/-- A path that waits for space in one record and for the network in another, with no record in an
earlier status, and where some record that waits for the network is newer than every one that waits
for space, or as new and before it in the repository. -/
def NetworkWaitShadows (m : StateManager) (path : FilePath) : Prop :=
  (∀ j ∈ m.records path, (m.heap j).status.beforeWaiting = false) ∧
    (∃ j ∈ m.records path, (m.heap j).status = .waitingForSpace) ∧
      ∃ i ∈ m.records path, (m.heap i).status = .waitingForNetwork ∧
        ∀ j ∈ m.records path, (m.heap j).status = .waitingForSpace →
          (m.heap j).discoveredAt < (m.heap i).discoveredAt ∨
            ((m.heap j).discoveredAt = (m.heap i).discoveredAt ∧
              (m.records path).idxOf i < (m.records path).idxOf j)

section Selections

variable {m : StateManager} {path : FilePath} {id : FileId}

/-- The statuses before the waiting ones are the first eight. -/
lemma beforeWaiting_iff (s : FileStatus) : s.beforeWaiting = true ↔ currentPriority s < 8 := by
  cases s <;> simp [FileStatus.beforeWaiting, currentPriority]

/-- Only `WAITING_FOR_SPACE` has priority 8. -/
lemma currentPriority_eq_eight (s : FileStatus) :
    currentPriority s = 8 ↔ s = .waitingForSpace := by
  cases s <;> simp [currentPriority]

/-- Only `WAITING_FOR_NETWORK` has priority 9. -/
lemma currentPriority_eq_nine (s : FileStatus) :
    currentPriority s = 9 ↔ s = .waitingForNetwork := by
  cases s <;> simp [currentPriority]

/-- The search under a table of priorities takes the record `i` of the path rather than `j`: it has
a lower priority, or the same one and is newer, or is as new and not after `j` in the repository. -/
def Precedes (m : StateManager) (path : FilePath) (priority : FileStatus → ℕ) (i j : FileId) :
    Prop :=
  priority (m.heap i).status < priority (m.heap j).status ∨
    (priority (m.heap i).status = priority (m.heap j).status ∧
      ((m.heap j).discoveredAt < (m.heap i).discoveredAt ∨
        ((m.heap j).discoveredAt = (m.heap i).discoveredAt ∧
          (m.records path).idxOf i ≤ (m.records path).idxOf j)))

/-- What a search under a table of priorities finds precedes every record of the path. -/
lemma argmin_records_iff :
    (m.records path).argmin (fun id => recordRank priority (m.heap id)) = some id ↔
      id ∈ m.records path ∧ ∀ j ∈ m.records path, Precedes m path priority id j := by
  rw [BestPerKey.argmin_eq_some_iff_forall]
  refine and_congr_right fun _ => forall₂_congr fun j _ => ?_
  have heq : recordRank priority (m.heap id) = recordRank priority (m.heap j) ↔
      priority (m.heap id).status = priority (m.heap j).status ∧
        (m.heap id).discoveredAt = (m.heap j).discoveredAt := by
    simp [recordRank]
  rw [recordRank_lt_iff, heq, Precedes]
  omega

/-- **When the two selections agree**: exactly if no record that waits for the network shadows those
that wait for space.

**Proof sketch.** The tables order every pair of statuses the same way, but for the two waiting
ones, which `_is_more_current` compares by age. So the record that `_get_current_file_for_path`
takes precedes every other one for the loops as well, unless it waits for space and some record that
waits for the network is newer. -/
theorem selectedFile_eq_getCurrentFileForPath_iff (m : StateManager) (path : FilePath) :
    m.selectedFile path = m.getCurrentFileForPath path ↔ ¬ NetworkWaitShadows m path := by
  cases hcur : m.getCurrentFileForPath path with
  | none =>
    have hnil : m.records path = [] := by
      rwa [StateManager.getCurrentFileForPath_eq, List.argmin_eq_none] at hcur
    rw [StateManager.selectedFile_eq, hnil]
    exact iff_of_true rfl fun ⟨_, ⟨j, hj, _⟩, _⟩ => absurd (hnil ▸ hj) List.not_mem_nil
  | some c =>
    rw [StateManager.getCurrentFileForPath_eq, argmin_records_iff] at hcur
    obtain ⟨hc, hfirst⟩ := hcur
    rw [StateManager.selectedFile_eq, argmin_records_iff, and_iff_right hc]
    constructor
    · rintro hsel ⟨hno, ⟨j, hj, hjs⟩, i, hi, his, hnew⟩
      -- the current record waits for space, and the loops prefer `i` to it
      have hcs : (m.heap c).status = .waitingForSpace := by
        have hlow := hno c hc
        rw [Bool.eq_false_iff, Ne, beforeWaiting_iff] at hlow
        have hcj := hfirst j hj
        rw [Precedes, hjs, show currentPriority .waitingForSpace = 8 from rfl] at hcj
        rw [← currentPriority_eq_eight]
        omega
      have hci := hsel i hi
      have hic := hnew c hc hcs
      rw [Precedes, hcs, his, show moreCurrentPriority .waitingForSpace = 8 from rfl,
        show moreCurrentPriority .waitingForNetwork = 8 from rfl] at hci
      omega
    · intro hshadow j hj
      by_cases hpair : currentPriority (m.heap c).status = 8 ∧ currentPriority (m.heap j).status = 9
      · have hcs := (currentPriority_eq_eight _).mp hpair.1
        have hjs := (currentPriority_eq_nine _).mp hpair.2
        by_contra hno
        apply hshadow
        refine ⟨fun k hk => ?_, ⟨c, hc, hcs⟩, j, hj, hjs, fun k hk hks => ?_⟩
        · have hck := hfirst k hk
          rw [Bool.eq_false_iff, Ne, beforeWaiting_iff]
          rw [Precedes] at hck
          omega
        · have hck := hfirst k hk
          rw [Precedes, hcs, hks] at hck
          rw [Precedes, hcs, hjs, show moreCurrentPriority .waitingForSpace = 8 from rfl,
            show moreCurrentPriority .waitingForNetwork = 8 from rfl] at hno
          omega
      · have hcj := hfirst j hj
        have hs := moreCurrentPriority_eq (m.heap c).status
        have ht := moreCurrentPriority_eq (m.heap j).status
        rw [Precedes] at hcj ⊢
        split_ifs at hs ht <;> omega

end Selections

end FileAgent

import FileAgent.Statistics

set_option relaxedAutoImplicit false
set_option autoImplicit false

/-!
# The statistics of the browser

The file store of the browser, `app/static/js/stores/fileStore.js`, counts the files it holds. When
a connection is established, `handleInitialState` of `messageHandler.js` gives it the files of the
message that `_send_initial_state` of `app/services/websocket_manager.py` built, and then overwrites
its numbers with the ones of `get_statistics` in the same message.

## Main definitions

* `InitialState`, `initialState` — the message.
* `FileStore`, `FileStore.handleInitialState` — the store, and what it does with the message.
* `StatisticsAgree` — the numbers in the store are those it counts from the files of the message.

## Main results

* `statistics_handleInitialState` — the numbers in the store after the message.
* `statisticsAgree_iff` — they agree exactly if the repository is empty.
-/

namespace FileAgent

/-! ## The message -/

/-- The values of the `statistics` dictionary, as JSON. -/
inductive JsonValue
  | number (n : ℕ)
  | object (fields : List (String × ℕ))
  deriving DecidableEq

/-- What the store reads of a record serialised by `_serialize_tracked_file`. -/
structure SerializedFile where
  id : FileId
  status : String
  deriving DecidableEq

/-- The keys and values of the dictionary that `get_statistics` returns. -/
def Statistics.toDict (s : Statistics) : List (String × JsonValue) :=
  [("total_files", .number s.totalFiles), ("status_counts", .object s.statusCounts),
    ("total_size_bytes", .number s.totalSizeBytes), ("active_copies", .number s.activeCopies),
    ("growing_files", .number s.growingFiles), ("subscribers", .number s.subscribers)]

/-- The `data` of an `initial_state` message, as far as the file store reads it. -/
structure InitialState where
  files : List SerializedFile
  statistics : List (String × JsonValue)

/-- The message `_send_initial_state` builds. -/
def initialState (m : StateManager) (subscribers : ℕ) : InitialState where
  files := m.files.map fun id => ⟨id, (m.heap id).status.value⟩
  statistics := (m.getStatistics subscribers).toDict

/-! ## The store -/

/-- `statistics` of the store. -/
structure StoreStatistics where
  totalFiles : JsonValue := .number 0
  activeFiles : JsonValue := .number 0
  completedFiles : JsonValue := .number 0
  failedFiles : JsonValue := .number 0
  growingFiles : JsonValue := .number 0
  deriving DecidableEq

/-- The file store; `items` is the list of the values of the map, whose keys are their ids. -/
structure FileStore where
  items : List SerializedFile := []
  statistics : StoreStatistics := {}

/-- `items.set(file.id, file)`. -/
def setItem (file : SerializedFile) : List SerializedFile → List SerializedFile
  | [] => [file]
  | f :: rest => if f.id = file.id then file :: rest else f :: setItem file rest

/-- The test `['Growing', 'ReadyToStartGrowing', 'GrowingCopy'].includes(file.status)`. -/
def SerializedFile.isGrowing (f : SerializedFile) : Bool :=
  f.status ∈ ["Growing", "ReadyToStartGrowing", "GrowingCopy"]

/-- The counters of `updateStatisticsFromFiles`. -/
structure Counters where
  total : ℕ
  active : ℕ := 0
  completed : ℕ := 0
  failed : ℕ := 0
  growing : ℕ := 0

/-- One round of the loop of `updateStatisticsFromFiles`. -/
def Counters.count (c : Counters) (f : SerializedFile) : Counters :=
  let c := if f.isGrowing then { c with growing := c.growing + 1 } else c
  if f.status = "Completed" then { c with completed := c.completed + 1 }
  else if f.status = "Failed" then { c with failed := c.failed + 1 }
  else { c with active := c.active + 1 }

namespace FileStore

/-- `updateStatisticsFromFiles`. -/
def updateStatisticsFromFiles (store : FileStore) : FileStore :=
  let stats := store.items.foldl Counters.count { total := store.items.length }
  { store with
    statistics :=
      { totalFiles := .number stats.total, activeFiles := .number stats.active
        completedFiles := .number stats.completed, failedFiles := .number stats.failed
        growingFiles := .number stats.growing } }

/-- `setInitialFiles`. -/
def setInitialFiles (store : FileStore) (files : List SerializedFile) : FileStore :=
  updateStatisticsFromFiles
    { store with items := files.foldl (fun items file => setItem file items) [] }

/-- `stats.key || 0`. -/
def orZero (stats : List (String × JsonValue)) (key : String) : JsonValue :=
  (stats.lookup key).getD (.number 0)

/-- `updateStatistics`. -/
def updateStatistics (store : FileStore) (stats : List (String × JsonValue)) : FileStore :=
  { store with
    statistics :=
      { totalFiles := orZero stats "total_files"
        activeFiles := orZero stats "active_files"
        completedFiles := orZero stats "completed_files"
        failedFiles := orZero stats "failed_files"
        growingFiles := orZero stats "growing_files" } }

/-- `handleInitialState`. -/
def handleInitialState (store : FileStore) (data : InitialState) : FileStore :=
  (store.setInitialFiles data.files).updateStatistics data.statistics

end FileStore

/-! ## What the store shows -/

/-- No two records have the same path. -/
def OneRecordPerPath (m : StateManager) : Prop :=
  ∀ i ∈ m.files, ∀ j ∈ m.files, (m.heap i).filePath = (m.heap j).filePath → i = j

/-- The numbers in the store after an `initial_state` message are those that
`updateStatisticsFromFiles` computes from the files of the message. -/
def StatisticsAgree (m : StateManager) (subscribers : ℕ) (store : FileStore) : Prop :=
  (store.handleInitialState (initialState m subscribers)).statistics =
    (store.setInitialFiles (initialState m subscribers).files).statistics

section Browser

variable {m : StateManager} {subscribers : ℕ} {store : FileStore}

/-- What the loop of `updateStatisticsFromFiles` counts. -/
lemma foldl_count (files : List SerializedFile) (c : Counters) :
    files.foldl Counters.count c =
      { total := c.total
        active := c.active +
          files.countP fun f => ¬ f.status = "Completed" ∧ ¬ f.status = "Failed"
        completed := c.completed + files.countP fun f => f.status = "Completed"
        failed := c.failed + files.countP fun f => f.status = "Failed"
        growing := c.growing + files.countP SerializedFile.isGrowing } := by
  induction files generalizing c with
  | nil => rfl
  | cons f files ih =>
    rw [List.foldl_cons, ih, Counters.count]
    by_cases hc : f.status = "Completed"
    · by_cases hg : f.isGrowing = true <;> simp [hc, hg] <;> omega
    · by_cases hf : f.status = "Failed"
      · by_cases hg : f.isGrowing = true <;> simp [hf, hg] <;> omega
      · by_cases hg : f.isGrowing = true <;> simp [hc, hf, hg] <;> omega

/-- Files with distinct ids are all kept, in their order. -/
lemma foldl_setItem {files : List SerializedFile} (h : (files.map SerializedFile.id).Nodup) :
    files.foldl (fun items file => setItem file items) [] = files := by
  have hnew : ∀ (file : SerializedFile) (items : List SerializedFile),
      file.id ∉ items.map SerializedFile.id → setItem file items = items ++ [file] := by
    intro file items hf
    induction items with
    | nil => rfl
    | cons f rest ih =>
      rw [List.map_cons, List.mem_cons, not_or] at hf
      rw [setItem, if_neg (Ne.symm hf.1), ih hf.2, List.cons_append]
  induction files using List.reverseRecOn with
  | nil => rfl
  | append_singleton files file ih =>
    rw [List.map_append, List.nodup_append] at h
    obtain ⟨hfiles, -, hdisj⟩ := h
    rw [List.foldl_append, ih hfiles]
    exact hnew file files fun hf => hdisj _ hf _ (by simp) rfl

/-- The store shows the counts of the records when it has just been given the files.

**Proof sketch.** The files of the message have distinct ids, so putting them into the store one
by one stores all of them. The counts compare the texts of statuses, and two statuses have the
same text only if they are the same. -/
lemma statistics_setInitialFiles :
    (store.setInitialFiles (initialState m subscribers).files).statistics =
      { totalFiles := .number m.files.length
        activeFiles := .number (m.files.countP fun id =>
          ¬ (m.heap id).status = .completed ∧ ¬ (m.heap id).status = .failed)
        completedFiles := .number (m.files.countP fun id => (m.heap id).status = .completed)
        failedFiles := .number (m.files.countP fun id => (m.heap id).status = .failed)
        growingFiles :=
          .number (m.files.countP fun id => (m.heap id).status.countsAsGrowing) } := by
  have hids : ((initialState m subscribers).files.map SerializedFile.id).Nodup := by
    rw [initialState, List.map_map]
    exact (List.map_id m.files).symm ▸ m.repo.files_nodup
  have hcompleted : ∀ s : FileStatus, s.value = "Completed" ↔ s = .completed := by
    intro s
    cases s <;> decide
  have hfailed : ∀ s : FileStatus, s.value = "Failed" ↔ s = .failed := by
    intro s
    cases s <;> decide
  have hgrowing : ∀ (id : FileId) (s : FileStatus),
      SerializedFile.isGrowing ⟨id, s.value⟩ = s.countsAsGrowing := by
    intro id s
    show decide (s.value ∈ ["Growing", "ReadyToStartGrowing", "GrowingCopy"]) = _
    cases s <;> decide
  rw [FileStore.setInitialFiles, foldl_setItem hids]
  simp only [FileStore.updateStatisticsFromFiles, foldl_count, initialState, List.countP_map,
    List.length_map, Function.comp_def, hcompleted, hfailed, hgrowing, Nat.zero_add]

/-- With one record for each path, every record is the current one of its path. -/
lemma currentFiles_of_oneRecordPerPath (hone : OneRecordPerPath m) :
    currentFiles m.heap m.files = m.files := by
  rw [currentFiles_eq_fill]
  exact BestPerKey.fill_of_nodup _ _ (m.repo.files_nodup.map_on hone)

/-- **What the store shows after the message**: the total and the growing files are those of the
repository, and the other three numbers, which the statistics of the server do not have, are 0. -/
theorem statistics_handleInitialState (hone : OneRecordPerPath m) :
    (store.handleInitialState (initialState m subscribers)).statistics =
      { (store.setInitialFiles (initialState m subscribers).files).statistics with
        activeFiles := .number 0, completedFiles := .number 0, failedFiles := .number 0 } := by
  rw [statistics_setInitialFiles, FileStore.handleInitialState, FileStore.updateStatistics]
  simp only [initialState, StateManager.getStatistics, currentFiles_of_oneRecordPerPath hone,
    ← List.countP_eq_length_filter]
  rfl

/-- **When the statistics agree**: exactly if the repository is empty.

**Proof sketch.** The store counts every file as active, completed or failed, and after the message
it shows 0 for all three. -/
theorem statisticsAgree_iff (hone : OneRecordPerPath m) (subscribers : ℕ) (store : FileStore) :
    StatisticsAgree m subscribers store ↔ m.files = [] := by
  rw [StatisticsAgree, statistics_handleInitialState hone, statistics_setInitialFiles]
  constructor
  · intro h
    simp only [StoreStatistics.mk.injEq, JsonValue.number.injEq, eq_comm (a := 0),
      List.countP_eq_zero, true_and, and_true] at h
    obtain ⟨hactive, hcompleted, hfailed⟩ := h
    rw [List.eq_nil_iff_forall_not_mem]
    intro id hid
    have h₁ := hactive id hid
    have h₂ := hcompleted id hid
    have h₃ := hfailed id hid
    simp_all
  · intro h
    rw [h]
    rfl

/-- Three paths with one record each: a file being copied, one that was copied, and one that could
not be. -/
def threeFiles : StateManager :=
  .ofRecords
    [{ filePath := "/src/a.mxf", status := .copying, discoveredAt := 0 },
      { filePath := "/src/b.mxf", status := .completed, discoveredAt := 1 },
      { filePath := "/src/c.mxf", status := .failed, discoveredAt := 2 }]

/-- An instance of `statisticsAgree_iff`. -/
theorem statisticsAgree_threeFiles :
    OneRecordPerPath threeFiles ∧ (StatisticsAgree threeFiles 0 {} ↔ threeFiles.files = []) :=
  have hone : OneRecordPerPath threeFiles := by unfold OneRecordPerPath; decide
  ⟨hone, statisticsAgree_iff hone 0 {}⟩

/-- The store shows no active, completed or failed file of the three. -/
theorem statistics_lost :
    OneRecordPerPath threeFiles ∧ ¬ StatisticsAgree threeFiles 0 {} :=
  ⟨by unfold OneRecordPerPath; decide, by unfold StatisticsAgree; decide⟩

end Browser

end FileAgent

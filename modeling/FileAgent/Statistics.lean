import FileAgent.CurrentRecord

set_option relaxedAutoImplicit false
set_option autoImplicit false

/-!
# The statistics of the repository

`get_statistics` of `app/services/state_manager.py` counts the current records: it runs over
`get_all` with `_is_more_current` and counts the records that are left.

## Main definitions

* `Statistics` — the dictionary that `get_statistics` returns.
* `StateManager.getStatistics` — the function itself.
* `OneCurrentRecord` — the statistics and `cleanup_missing_files` look at the records that
  `_get_current_file_for_path` returns.

## Main results

* `oneCurrentRecord_iff` — that is so exactly if no path has a record that waits for the network and
  shadows the ones that wait for space.
-/

namespace FileAgent

/-- The string behind a member of `FileStatus`. -/
def FileStatus.value : FileStatus → String
  | .discovered => "Discovered"
  | .ready => "Ready"
  | .inQueue => "InQueue"
  | .copying => "Copying"
  | .completed => "Completed"
  | .failed => "Failed"
  | .removed => "Removed"
  | .growing => "Growing"
  | .readyToStartGrowing => "ReadyToStartGrowing"
  | .growingCopy => "GrowingCopy"
  | .waitingForSpace => "WaitingForSpace"
  | .spaceError => "SpaceError"
  | .waitingForNetwork => "WaitingForNetwork"

/-- The members of `FileStatus`, in the order of the source. -/
def FileStatus.members : List FileStatus :=
  [.discovered, .ready, .inQueue, .copying, .completed, .failed, .removed, .growing,
    .readyToStartGrowing, .growingCopy, .waitingForSpace, .spaceError, .waitingForNetwork]

/-- The statuses that `get_statistics` counts as growing. -/
def FileStatus.countsAsGrowing : FileStatus → Bool
  | .growing | .readyToStartGrowing | .growingCopy => true
  | _ => false

/-- The dictionary `get_statistics` returns. -/
structure Statistics where
  totalFiles : ℕ
  /-- `status_counts`: the counts by the values of the statuses. -/
  statusCounts : List (String × ℕ)
  totalSizeBytes : ℕ
  activeCopies : ℕ
  growingFiles : ℕ
  subscribers : ℕ

namespace StateManager

/-- `get_statistics`; `subscribers` is the length of `_subscribers`. -/
def getStatistics (m : StateManager) (subscribers : ℕ) : Statistics :=
  let current := currentFiles m.heap m.files
  { totalFiles := current.length
    statusCounts := FileStatus.members.map fun s =>
      (s.value, (current.filter fun id => (m.heap id).status = s).length)
    totalSizeBytes := (current.map fun id => (m.heap id).fileSize).sum
    activeCopies := (current.filter fun id => (m.heap id).status = .copying).length
    growingFiles := (current.filter fun id => (m.heap id).status.countsAsGrowing).length
    subscribers := subscribers }

/-- The paths with a record in the repository, once each. -/
def paths (m : StateManager) : List FilePath := (m.files.map fun id => (m.heap id).filePath).dedup

/-- The number of paths whose current record, as `_get_current_file_for_path` returns it, meets a
condition. -/
def countPaths (m : StateManager) (p : TrackedFile → Bool) : ℕ :=
  m.paths.countP fun path => (m.getCurrentFileForPath path).any fun id => p (m.heap id)

end StateManager

/-- **One notion of the current record**: the loops of `get_statistics` and `cleanup_missing_files`
take the record that `_get_current_file_for_path` returns. So the statistics count every path once,
under the status and the size of that record, and the records marked as missing are such records. -/
structure OneCurrentRecord (m : StateManager) : Prop where
  same : ∀ path, m.selectedFile path = m.getCurrentFileForPath path
  missing : ∀ existingPaths id, id ∈ m.missingFiles existingPaths ↔
    m.getCurrentFileForPath (m.heap id).filePath = some id ∧
      (m.heap id).filePath ∉ existingPaths ∧
        ¬ StateManager.FileStatus.keptWhenMissing (m.heap id).status
  total : ∀ n, (m.getStatistics n).totalFiles = m.paths.length
  counts : ∀ n s, (m.getStatistics n).statusCounts.lookup s.value =
    some (m.countPaths fun f => f.status = s)
  size : ∀ n, (m.getStatistics n).totalSizeBytes = (m.paths.map fun path =>
    (m.getCurrentFileForPath path).elim 0 fun id => (m.heap id).fileSize).sum
  copies : ∀ n, (m.getStatistics n).activeCopies = m.countPaths fun f => f.status = .copying
  growing : ∀ n, (m.getStatistics n).growingFiles = m.countPaths fun f => f.status.countsAsGrowing

section Counting

variable {m : StateManager}

/-- Looking a member up in a dictionary with an entry for every status. -/
lemma lookup_statusCounts (c : FileStatus → ℕ) (s : FileStatus) :
    (FileStatus.members.map fun s => (s.value, c s)).lookup s.value = some (c s) := by
  cases s <;> rfl

/-- The paths of the records that are counted are the paths of the repository. -/
lemma map_currentFiles_perm :
    ((currentFiles m.heap m.files).map fun id => (m.heap id).filePath).Perm m.paths := by
  rw [currentFiles_eq_fill]
  exact BestPerKey.map_fill_perm _ _ _

/-- Counting the selected records counts the paths by what is selected for them. -/
lemma length_filter_currentFiles (p : TrackedFile → Bool) :
    ((currentFiles m.heap m.files).filter fun id => p (m.heap id)).length =
      m.paths.countP fun path => (m.selectedFile path).any fun id => p (m.heap id) := by
  rw [← map_currentFiles_perm.countP_eq, List.countP_map, ← List.countP_eq_length_filter]
  apply List.countP_congr
  intro id hid
  rw [Function.comp_apply, StateManager.mem_currentFiles_iff.mp hid, Option.any_some]

/-- Adding up over the selected records adds up over the paths. -/
lemma sum_map_currentFiles (size : TrackedFile → ℕ) :
    ((currentFiles m.heap m.files).map fun id => size (m.heap id)).sum =
      (m.paths.map fun path => (m.selectedFile path).elim 0 fun id => size (m.heap id)).sum := by
  rw [← (map_currentFiles_perm.map _).sum_eq, List.map_map]
  congr 1
  apply List.map_congr_left
  intro id hid
  rw [Function.comp_apply, StateManager.mem_currentFiles_iff.mp hid, Option.elim_some]

/-- **When there is one notion of the current record**: exactly if no path has a record that waits
for the network and shadows the ones that wait for space.

**Proof sketch.** The condition says for each path that the two selections agree. The entries of
`current_files` are what is selected for each path, once each, so counting them counts the paths. -/
theorem oneCurrentRecord_iff (m : StateManager) :
    OneCurrentRecord m ↔ ∀ path, ¬ NetworkWaitShadows m path := by
  constructor
  · intro h path
    exact (selectedFile_eq_getCurrentFileForPath_iff m path).mp (h.same path)
  · intro h
    have hsame : ∀ path, m.selectedFile path = m.getCurrentFileForPath path := fun path =>
      (selectedFile_eq_getCurrentFileForPath_iff m path).mpr (h path)
    have hcount : ∀ p : TrackedFile → Bool,
        ((currentFiles m.heap m.files).filter fun id => p (m.heap id)).length =
          m.countPaths p := by
      intro p
      rw [length_filter_currentFiles, StateManager.countPaths]
      simp only [hsame]
    refine ⟨hsame, fun existingPaths id => ?_, fun n => ?_, fun n s => ?_, fun n => ?_,
      fun n => hcount fun f => f.status = .copying,
      fun n => hcount fun f => f.status.countsAsGrowing⟩
    · rw [StateManager.missingFiles, List.mem_filter, StateManager.mem_currentFiles_iff, hsame,
        decide_eq_true_eq]
    · have hlen := (map_currentFiles_perm (m := m)).length_eq
      rwa [List.length_map] at hlen
    · have hlookup := lookup_statusCounts (fun s =>
        ((currentFiles m.heap m.files).filter fun id => (m.heap id).status = s).length) s
      exact hlookup.trans (congrArg some (hcount fun f => f.status = s))
    · rw [StateManager.getStatistics]
      simp only [sum_map_currentFiles, hsame]

/-- A path that waits for space in one record and for the network in a newer one. -/
def waitsTwice : StateManager :=
  .ofRecords
    [{ filePath := "/src/a.mxf", status := .waitingForSpace, discoveredAt := 0, fileSize := 10 },
      { filePath := "/src/a.mxf", status := .waitingForNetwork, discoveredAt := 1, fileSize := 30 }]

/-- The statistics count that path under the record that `_get_current_file_for_path` does not
return. -/
theorem counted_under_other_record : ¬ OneCurrentRecord waitsTwice := fun h =>
  absurd (h.same "/src/a.mxf") (by decide)

end Counting

end FileAgent

import FileAgent.CurrentRecord

set_option relaxedAutoImplicit false
set_option autoImplicit false

/-!
# The clean-up of the repository

After each scan the scanner calls `cleanup_missing_files` with the paths it found, and
`cleanup_old_files` with `keep_files_hours`. The first marks the current record of every path that
is gone as `REMOVED`, unless the file was copied or is being worked on; the second drops the records
that are older than the limit.

## Main definitions

* `StateManager.removedCount`, `StateManager.cleanupRepeatedly` — what `cleanup_missing_files`
  returns, and several calls of it.
* `CleanupSettles`, `MarksOneEach` — the calls after the first one do nothing, and when.
* `KeepsWorkInProgress`, `InProgressRecent` — `cleanup_old_files` drops no file that is being worked
  on, and when.

## Main results

* `heap_cleanupRepeatedly_of_kept` — the records that no call touches.
* `cleanupSettles_iff` — the first call does everything exactly if no path that is gone has two
  records to mark.
* `keepsWorkInProgress_iff` — no file is dropped while it is worked on exactly if none is too old.
-/

namespace FileAgent

/-- The statuses of a file that waits for a worker or is being copied; `cleanup_missing_files` keeps
such a file ("Bevarer fil under processing"). -/
def FileStatus.inProgress : FileStatus → Bool
  | .copying | .inQueue | .growingCopy => true
  | _ => false

/-- The statuses before `COMPLETED` in the order of `_is_more_current` that `cleanup_missing_files`
marks. -/
def FileStatus.awaitsWork : FileStatus → Bool
  | .readyToStartGrowing | .ready | .growing | .discovered | .waitingForSpace
  | .waitingForNetwork => true
  | _ => false

namespace StateManager

/-- The count `cleanup_missing_files` returns. -/
def removedCount (m : StateManager) (existingPaths : List FilePath) : ℕ :=
  (m.missingFiles existingPaths).length

/-- The manager after `n` calls of `cleanup_missing_files` with the same paths. -/
def cleanupRepeatedly (m : StateManager) (existingPaths : List FilePath) : ℕ → StateManager
  | 0 => m
  | n + 1 => ((m.cleanupRepeatedly existingPaths n).cleanupMissingFiles existingPaths).manager

end StateManager

/-! ## Files that are gone -/

/-! ### The order of the statuses -/

section Statuses

variable {st : FileStatus}

/-- The statuses that await work are among the first nine of `is_more_current`. -/
lemma priority_le_of_awaitsWork (h : st.awaitsWork = true) : moreCurrentPriority st ≤ 8 := by
  revert h
  cases st <;> decide

/-- From priority 4 on no work is in progress. -/
lemma inProgress_eq_false (h : 4 ≤ moreCurrentPriority st) : st.inProgress = false := by
  revert h
  cases st <;> decide

/-- What `cleanup_missing_files` does not keep has priority 4 or more. -/
lemma le_priority_of_keptWhenMissing
    (h : StateManager.FileStatus.keptWhenMissing st = false) : 4 ≤ moreCurrentPriority st := by
  revert h
  cases st <;> decide

/-- A record that nobody works on is marked if it is at most as far back as a `FAILED` one,
unless it is `COMPLETED`. -/
lemma keptWhenMissing_eq_false (hidle : st.inProgress = false)
    (hle : moreCurrentPriority st ≤ 10) (hne : st ≠ .completed) :
    StateManager.FileStatus.keptWhenMissing st = false := by
  revert hidle hle hne
  cases st <;> decide

end Statuses

section Missing

variable {m : StateManager} {existingPaths : List FilePath} {path : FilePath} {id : FileId}

/-- The records that a call marks. -/
lemma mem_missingFiles_iff :
    id ∈ m.missingFiles existingPaths ↔
      m.selectedFile (m.heap id).filePath = some id ∧ (m.heap id).filePath ∉ existingPaths ∧
        StateManager.FileStatus.keptWhenMissing (m.heap id).status = false := by
  rw [StateManager.missingFiles, List.mem_filter, StateManager.mem_currentFiles_iff,
    decide_eq_true_eq, Bool.not_eq_true]

/-- A record that is not marked stays as it is. -/
lemma heap_cleanup_of_not_mem (h : id ∉ m.missingFiles existingPaths) :
    (m.cleanupMissingFiles existingPaths).manager.heap id = m.heap id := by
  rw [StateManager.heap_cleanupMissingFiles, if_neg h]

/-- The clean-up keeps every path. -/
lemma filePath_cleanup :
    ((m.cleanupMissingFiles existingPaths).manager.heap id).filePath = (m.heap id).filePath := by
  rw [StateManager.heap_cleanupMissingFiles]
  split_ifs <;> rfl

/-- The clean-up leaves every path its records. -/
lemma records_cleanup :
    (m.cleanupMissingFiles existingPaths).manager.records path = m.records path := by
  rw [StateManager.records, StateManager.records, StateManager.files_cleanupMissingFiles]
  simp only [filePath_cleanup]

/-- A call that finds nothing to mark changes nothing. -/
lemma cleanup_of_missingFiles_nil (h : m.missingFiles existingPaths = []) :
    (m.cleanupMissingFiles existingPaths).manager = m := by
  rw [StateManager.cleanupMissingFiles, h]
  rfl

/-- A record that a call changes is one that the call marks, and becomes `REMOVED`. -/
lemma mem_missingFiles_of_status_ne
    (h : ((m.cleanupMissingFiles existingPaths).manager.heap id).status ≠ (m.heap id).status) :
    id ∈ m.missingFiles existingPaths := by
  by_contra hno
  exact h (by rw [heap_cleanup_of_not_mem hno])

/-- **What no call touches**: the records of existing paths, and those that are `COMPLETED` or being
worked on. -/
theorem heap_cleanupRepeatedly_of_kept (n : ℕ)
    (h : (m.heap id).filePath ∈ existingPaths ∨ (m.heap id).status = .completed ∨
      (m.heap id).status.inProgress = true) :
    (m.cleanupRepeatedly existingPaths n).heap id = m.heap id := by
  have hkept : StateManager.FileStatus.keptWhenMissing (m.heap id).status = true ∨
      (m.heap id).filePath ∈ existingPaths := by
    rcases h with h | h | h
    · exact .inr h
    · rw [h]; exact .inl rfl
    · left
      generalize (m.heap id).status = s at h
      cases s <;> first | rfl | simp [FileStatus.inProgress] at h
  induction n with
  | zero => rfl
  | succ n ih =>
    rw [StateManager.cleanupRepeatedly, heap_cleanup_of_not_mem, ih]
    intro hmem
    obtain ⟨-, hgone, hst⟩ := mem_missingFiles_iff.mp hmem
    rw [ih] at hgone hst
    rcases hkept with hkept | hkept
    · rw [hst] at hkept
      exact Bool.false_ne_true hkept
    · exact hgone hkept

/-- **The clean-up settles**: a second call with the same paths returns 0 and changes nothing, over
any number of calls at most one record of each path that is gone changes its status, and the records
of existing paths, the `COMPLETED` ones and those being worked on stay as they are. -/
structure CleanupSettles (m : StateManager) (existingPaths : List FilePath) : Prop where
  count : (m.cleanupMissingFiles existingPaths).manager.removedCount existingPaths = 0
  again : m.cleanupRepeatedly existingPaths 2 = m.cleanupRepeatedly existingPaths 1
  once : ∀ n path, path ∉ existingPaths → ∀ i ∈ m.records path, ∀ j ∈ m.records path,
    ((m.cleanupRepeatedly existingPaths n).heap i).status ≠ (m.heap i).status →
      ((m.cleanupRepeatedly existingPaths n).heap j).status ≠ (m.heap j).status → i = j
  kept : ∀ n, ∀ id ∈ m.files,
    ((m.heap id).filePath ∈ existingPaths ∨ (m.heap id).status = .completed ∨
        (m.heap id).status.inProgress = true) →
      (m.cleanupRepeatedly existingPaths n).heap id = m.heap id

/-- A record that `cleanup_missing_files` marks when it is the current one of its path, and that
becomes current once the records before it are marked: it awaits work, or it is `FAILED` and its
path has no `COMPLETED` record. -/
def ComesToBeMarked (m : StateManager) (path : FilePath) (id : FileId) : Prop :=
  id ∈ m.records path ∧
    ((m.heap id).status.awaitsWork = true ∨
      ((m.heap id).status = .failed ∧ ∀ j ∈ m.records path, (m.heap j).status ≠ .completed))

/-- Every path that is gone, and has no record that is being worked on, has at most one record that
comes to be marked. -/
def MarksOneEach (m : StateManager) (existingPaths : List FilePath) : Prop :=
  ∀ path, path ∉ existingPaths → (∀ j ∈ m.records path, (m.heap j).status.inProgress = false) →
    ∀ i j, ComesToBeMarked m path i → ComesToBeMarked m path j → i = j

/-- A record that none of its path precedes, that is no `SPACE_ERROR` and that a call would mark,
comes to be marked. -/
lemma comesToBeMarked_of_least (hid : id ∈ m.records path)
    (hst : StateManager.FileStatus.keptWhenMissing (m.heap id).status = false)
    (hspace : (m.heap id).status ≠ .spaceError)
    (hleast : ∀ j ∈ m.records path, (m.heap j).status = .completed →
      moreCurrentPriority (m.heap id).status ≤ 9) :
    ComesToBeMarked m path id := by
  refine ⟨hid, ?_⟩
  by_cases hfailed : (m.heap id).status = .failed
  · refine .inr ⟨hfailed, fun j hj hcompleted => ?_⟩
    have hle := hleast j hj hcompleted
    rw [hfailed] at hle
    exact absurd hle (by decide)
  · left
    generalize (m.heap id).status = s at hst hspace hfailed
    cases s <;> first | rfl | contradiction

/-- If a record that comes to be marked does not precede the current record, then that one is marked
too, as long as no record of the path is being worked on. -/
lemma keptWhenMissing_of_le {c i : FileId} (hi : ComesToBeMarked m path i)
    (hc : c ∈ m.records path)
    (hwork : ∀ j ∈ m.records path, (m.heap j).status.inProgress = false)
    (hle : moreCurrentPriority (m.heap c).status ≤ moreCurrentPriority (m.heap i).status) :
    StateManager.FileStatus.keptWhenMissing (m.heap c).status = false := by
  rcases hi.2 with haw | ⟨hf, hno⟩
  · have hle8 := hle.trans (priority_le_of_awaitsWork haw)
    apply keptWhenMissing_eq_false (hwork c hc) (hle8.trans (by decide))
    intro hcompleted
    rw [hcompleted] at hle8
    exact absurd hle8 (by decide)
  · rw [hf] at hle
    exact keptWhenMissing_eq_false (hwork c hc) hle (hno c hc)

/-- A call changes no record of a path but the current one. -/
lemma heap_cleanup_of_ne {c j : FileId} (hsel : m.selectedFile path = some c)
    (hj : j ∈ m.records path) (hjc : j ≠ c) :
    (m.cleanupMissingFiles existingPaths).manager.heap j = m.heap j := by
  apply heap_cleanup_of_not_mem
  intro hin
  have hjsel := (mem_missingFiles_iff.mp hin).1
  rw [(StateManager.mem_records.mp hj).2, hsel] at hjsel
  exact hjc (Option.some.inj hjsel).symm

/-- Under the condition, the second call finds nothing to mark.

**Proof sketch.** Let `id` be marked by the second call, and `c` the record of its path that the
first call looked at. If `c` was left alone the path is as it was, so `id = c` would have been left
alone again. If `c` was marked it is `REMOVED` now and `id` precedes it, so `id` and `c` both come
to be marked. -/
lemma missingFiles_cleanup (hone : MarksOneEach m existingPaths) :
    (m.cleanupMissingFiles existingPaths).manager.missingFiles existingPaths = [] := by
  rw [List.eq_nil_iff_forall_not_mem]
  intro id hmem
  obtain ⟨hsel', hgone, hst'⟩ := mem_missingFiles_iff.mp hmem
  rw [filePath_cleanup] at hsel' hgone
  obtain ⟨hid, hleast'⟩ := StateManager.selectedFile_some hsel'
  rw [records_cleanup] at hid hleast'
  -- `id` was not marked by the first call, or it would be `REMOVED`
  have hidout : id ∉ m.missingFiles existingPaths := by
    intro hin
    rw [StateManager.heap_cleanupMissingFiles, if_pos hin] at hst'
    exact Bool.false_ne_true hst'.symm
  rw [heap_cleanup_of_not_mem hidout] at hst' hleast'
  obtain ⟨c, hsel⟩ := StateManager.exists_selectedFile hid
  obtain ⟨hc, hleast⟩ := StateManager.selectedFile_some hsel
  by_cases hcin : c ∈ m.missingFiles existingPaths
  · have hcid : c ≠ id := fun h => hidout (h ▸ hcin)
    obtain ⟨-, -, hcst⟩ := mem_missingFiles_iff.mp hcin
    have hci := priority_le_of_recordRank_le (hleast id hid)
    -- `c` is `REMOVED` now, and `id` precedes it
    have hidc : moreCurrentPriority (m.heap id).status ≤ 11 := by
      have hle := priority_le_of_recordRank_le (hleast' c hc)
      rwa [StateManager.heap_cleanupMissingFiles, if_pos hcin] at hle
    have hidspace : (m.heap id).status ≠ .spaceError := by
      intro h
      rw [h] at hidc
      exact absurd hidc (by decide)
    have hcspace : (m.heap c).status ≠ .spaceError := by
      intro h
      rw [h] at hci
      exact absurd (hci.trans hidc) (by decide)
    have hidmark : ComesToBeMarked m (m.heap id).filePath id := by
      refine comesToBeMarked_of_least hid hst' hidspace fun j hj hcompleted => ?_
      have hjc : j ≠ c := by
        rintro rfl
        rw [hcompleted] at hcst
        exact absurd hcst (by decide)
      have hle := priority_le_of_recordRank_le (hleast' j hj)
      rwa [heap_cleanup_of_ne hsel hj hjc, hcompleted] at hle
    have hcmark : ComesToBeMarked m (m.heap id).filePath c := by
      refine comesToBeMarked_of_least hc hcst hcspace fun j hj hcompleted => ?_
      have hle := priority_le_of_recordRank_le (hleast j hj)
      rwa [hcompleted] at hle
    have hwork : ∀ j ∈ m.records (m.heap id).filePath,
        (m.heap j).status.inProgress = false := by
      intro j hj
      have hle := priority_le_of_recordRank_le (hleast j hj)
      exact inProgress_eq_false ((le_priority_of_keptWhenMissing hcst).trans hle)
    exact hcid (hone _ hgone hwork c id hcmark hidmark)
  · have hsame : ∀ j ∈ m.records (m.heap id).filePath,
        (m.cleanupMissingFiles existingPaths).manager.heap j = m.heap j := by
      intro j hj
      by_cases hjc : j = c
      · rw [hjc, heap_cleanup_of_not_mem hcin]
      · exact heap_cleanup_of_ne hsel hj hjc
    have hidc : id = c := by
      rw [StateManager.selectedFile_eq, records_cleanup] at hsel'
      rw [StateManager.selectedFile_eq] at hsel
      have hrank : (m.records (m.heap id).filePath).argmin (fun j => recordRank moreCurrentPriority
            ((m.cleanupMissingFiles existingPaths).manager.heap j)) =
          (m.records (m.heap id).filePath).argmin
            fun j => recordRank moreCurrentPriority (m.heap j) := by
        apply BestPerKey.argmin_congr
        intro a ha b hb
        rw [hsame a ha, hsame b hb]
      rw [hrank, hsel] at hsel'
      exact (Option.some.inj hsel').symm
    apply hcin
    rw [← hidc, mem_missingFiles_iff]
    exact ⟨hidc ▸ hsel, hgone, hst'⟩

/-- Without the condition, the second call finds a record to mark: one of the two records that come
to be marked is left after the first call, and what precedes it is marked.

**Proof sketch.** Of two records that come to be marked one, `k`, is not the record `c` that the
first call selected, so it is as it was. The record selected by the second call is neither `c`,
which is marked and ranks behind, nor one whose status is kept, since it ranks no later than `k`.
So the second call marks it. -/
lemma marksOneEach_of_missingFiles_cleanup
    (hnil : (m.cleanupMissingFiles existingPaths).manager.missingFiles existingPaths = []) :
    MarksOneEach m existingPaths := by
  intro path hgone hwork i j hi hj
  by_contra hij
  obtain ⟨c, hsel⟩ := StateManager.exists_selectedFile hi.1
  obtain ⟨hc, hleast⟩ := StateManager.selectedFile_some hsel
  -- one of the two, `k`, is not the record that the first call looked at
  obtain ⟨k, hk, hkc⟩ : ∃ k, ComesToBeMarked m path k ∧ k ≠ c := by
    by_cases hic : i = c
    · exact ⟨j, hj, fun h => hij (hic.trans h.symm)⟩
    · exact ⟨i, hi, hic⟩
  have hcst := keptWhenMissing_of_le hk hc hwork
    (priority_le_of_recordRank_le (hleast k hk.1))
  have hcpath := (StateManager.mem_records.mp hc).2
  have hcin : c ∈ m.missingFiles existingPaths := by
    rw [mem_missingFiles_iff, hcpath]
    exact ⟨hsel, hgone, hcst⟩
  have hk' : k ∈ (m.cleanupMissingFiles existingPaths).manager.records path := by
    rw [records_cleanup]
    exact hk.1
  obtain ⟨d, hsel'⟩ := StateManager.exists_selectedFile hk'
  obtain ⟨hd, hleast'⟩ := StateManager.selectedFile_some hsel'
  rw [records_cleanup] at hd
  have hdk := priority_le_of_recordRank_le (hleast' k hk')
  rw [heap_cleanup_of_ne hsel hk.1 hkc] at hdk
  have hkten : moreCurrentPriority (m.heap k).status ≤ 10 := by
    rcases hk.2 with haw | ⟨hf, -⟩
    · exact (priority_le_of_awaitsWork haw).trans (by decide)
    · rw [hf]
      exact le_rfl
  have hdc : d ≠ c := by
    rintro rfl
    rw [StateManager.heap_cleanupMissingFiles, if_pos hcin] at hdk
    have hle : 11 ≤ 10 := hdk.trans hkten
    omega
  have hdsame : (m.cleanupMissingFiles existingPaths).manager.heap d = m.heap d :=
    heap_cleanup_of_ne hsel hd hdc
  rw [hdsame] at hdk
  have hdin : d ∈ (m.cleanupMissingFiles existingPaths).manager.missingFiles existingPaths := by
    rw [mem_missingFiles_iff, filePath_cleanup, hdsame, (StateManager.mem_records.mp hd).2]
    exact ⟨hsel', hgone, keptWhenMissing_of_le hk hd hwork hdk⟩
  rw [hnil] at hdin
  exact List.not_mem_nil hdin

/-- **When the clean-up settles**: exactly if no path that is gone, and is not being worked on, has
two records that come to be marked.

**Proof sketch.** Either way the question is whether the second call finds a record to mark. If it
does not, all further calls leave everything as it is, and the first one marks one record of a path
at most. -/
theorem cleanupSettles_iff (m : StateManager) (existingPaths : List FilePath) :
    CleanupSettles m existingPaths ↔ MarksOneEach m existingPaths := by
  constructor
  · intro h
    exact marksOneEach_of_missingFiles_cleanup (List.length_eq_zero_iff.mp h.count)
  · intro h
    have hnil := missingFiles_cleanup h
    have hlater : ∀ n, m.cleanupRepeatedly existingPaths (n + 1) =
        (m.cleanupMissingFiles existingPaths).manager := by
      intro n
      induction n with
      | zero => rfl
      | succ n ih => rw [StateManager.cleanupRepeatedly, ih, cleanup_of_missingFiles_nil hnil]
    refine ⟨by rw [StateManager.removedCount, hnil]; rfl, by rw [hlater, hlater], ?_,
      fun n id _ hkept => heap_cleanupRepeatedly_of_kept n hkept⟩
    intro n path hgone i hi j hj hichanged hjchanged
    cases n with
    | zero => exact absurd rfl hichanged
    | succ n =>
      rw [hlater] at hichanged hjchanged
      have hisel := (mem_missingFiles_iff.mp (mem_missingFiles_of_status_ne hichanged)).1
      have hjsel := (mem_missingFiles_iff.mp (mem_missingFiles_of_status_ne hjchanged)).1
      rw [(StateManager.mem_records.mp hi).2] at hisel
      rw [(StateManager.mem_records.mp hj).2, hisel] at hjsel
      exact Option.some.inj hjsel

/-- A file that could not be copied once and has come back under the same path. -/
def discoveredAfterFailed : StateManager :=
  .ofRecords
    [{ filePath := "/src/a.mxf", status := .failed, discoveredAt := 0 },
      { filePath := "/src/a.mxf", status := .discovered, discoveredAt := 1 }]

/-- When that file is gone again, the second call marks the `FAILED` record of its history. -/
theorem history_marked : ¬ CleanupSettles discoveredAfterFailed [] := fun h =>
  absurd h.count (by decide +kernel)

end Missing

/-! ## Files that are old -/

/-- **No work in progress is dropped**: no record that `cleanup_old_files` drops has the status of a
file that waits for a worker or is being copied. So the copy loop of such a file finds its record
after the clean-up as it was before, and `add_file` adds no second record for its path. -/
structure KeepsWorkInProgress (m : StateManager) (now maxAgeHours : ℕ) : Prop where
  dropped : ∀ id ∈ m.files, id ∉ (m.cleanupOldFiles now maxAgeHours).manager.files →
    (m.heap id).status.inProgress = false
  found : ∀ id ∈ m.files, (m.heap id).status.inProgress = true →
    (m.cleanupOldFiles now maxAgeHours).manager.repo.getById id = m.repo.getById id
  notAdded : ∀ id ∈ m.files, (m.heap id).status.inProgress = true → ∀ later size lastWriteTime,
    let m' := (m.cleanupOldFiles now maxAgeHours).manager
    (m'.addFile later (m.heap id).filePath size lastWriteTime).2.manager = m'

/-- Every file that waits for a worker or is being copied was completed, failed or, if neither,
discovered no longer ago than the limit. -/
def InProgressRecent (m : StateManager) (now maxAgeHours : ℕ) : Prop :=
  ∀ id ∈ m.files, (m.heap id).status.inProgress = true →
    now ≤ StateManager.fileAgeTimestamp (m.heap id) + seconds (maxAgeHours * 3600)

section Old

variable {m : StateManager} {now maxAgeHours : ℕ} {id : FileId}

/-- The records that `cleanup_old_files` drops. -/
lemma not_mem_files_cleanupOldFiles (hid : id ∈ m.files) :
    id ∉ (m.cleanupOldFiles now maxAgeHours).manager.files ↔
      StateManager.fileAgeTimestamp (m.heap id) + seconds (maxAgeHours * 3600) < now := by
  rw [StateManager.mem_files_cleanupOldFiles, StateManager.oldFiles, List.mem_filter]
  simp [hid]

/-- **When no work in progress is dropped**: exactly if no file in progress is too old; the status
of a record plays no part in the choice.

**Proof sketch.** A stored record is dropped exactly if it is older than the limit. So a record in
progress is kept exactly if it is not that old; it is then found with the status it had, and as it
is active, a new record of its path is not added. -/
theorem keepsWorkInProgress_iff (m : StateManager) (now maxAgeHours : ℕ) :
    KeepsWorkInProgress m now maxAgeHours ↔ InProgressRecent m now maxAgeHours := by
  constructor
  · intro h id hid hwork
    by_contra hold
    have hdropped := (not_mem_files_cleanupOldFiles hid).mpr (not_le.mp hold)
    have hidle := h.dropped id hid hdropped
    rw [hwork] at hidle
    exact Bool.false_ne_true hidle.symm
  · intro h
    have hstays : ∀ id ∈ m.files, (m.heap id).status.inProgress = true →
        id ∈ (m.cleanupOldFiles now maxAgeHours).manager.files := by
      intro id hid hwork
      by_contra hdropped
      have hold := (not_mem_files_cleanupOldFiles hid).mp hdropped
      exact absurd (h id hid hwork) hold.not_ge
    refine ⟨fun id hid hdropped => ?_, fun id hid hwork => ?_, ?_⟩
    · rw [← Bool.not_eq_true]
      exact fun hwork => hdropped (hstays id hid hwork)
    · rw [FileRepository.getById_of_mem _ (hstays id hid hwork),
        FileRepository.getById_of_mem _ hid]
      exact congrArg some (congrFun (StateManager.heap_cleanupOldFiles maxAgeHours) id)
    · intro id hid hwork later size lastWriteTime m'
      rcases StateManager.addFile_cases m' later (m.heap id).filePath size lastWriteTime with
        ⟨-, hsame⟩ | ⟨hnone, -⟩
      · rw [hsame]
      · have hactive : (m.heap id).status.isActive = true := by
          generalize (m.heap id).status = s at hwork
          cases s <;> first | rfl | simp [FileStatus.inProgress] at hwork
        have hno := StateManager.getActiveFileByPath_eq_none.mp hnone id (hstays id hid hwork)
        rw [show m'.heap = m.heap from StateManager.heap_cleanupOldFiles maxAgeHours,
          hactive] at hno
        exact absurd (hno rfl) (by decide)

/-- A recording that has been copied, while it grew, for more than an hour. -/
def longRecording : StateManager :=
  .ofRecords [{ filePath := "/src/a.mxf", status := .growingCopy, discoveredAt := 0 }]

/-- With a limit of an hour the record is dropped while the file is copied. -/
theorem work_dropped : ¬ KeepsWorkInProgress longRecording (seconds 3601) 1 := fun h =>
  absurd (h.dropped 0 (by decide) (by decide)) (by decide)

end Old

end FileAgent

import FileAgent.Library.Run
import FileAgent.JobQueue

set_option relaxedAutoImplicit false
set_option autoImplicit false

/-!
# Files that wait for the network

`JobQueueService` parks a ready file as `WAITING_FOR_NETWORK` while `_is_network_available` says
no, and `StorageMonitorService` has the parked files released when a check of the destination
counts as a recovery. The two notions of an available destination are written separately: the
first accepts `OK` and `WARNING`, the second asks for a change from `ERROR` or `CRITICAL` to `OK`.

The system of this module is the state manager and the storage state. Its steps are the checks of
the storage locations, and in between any calls of the state manager by the other services.

## Main definitions

* `processWaitingNetworkFiles`, `checkSingleStorage` — the code.
* `NetworkState`, `NetworkAction`, `networkStep` — the system.
* `RecoveryComplete` — every check that finds the network available releases every waiting file.
* `Releases` — the checks that do.

## Main results

* `status_processWaitingNetworkFiles` — what a release does.
* `recoveryComplete_iff` — the exact condition for a run to release every waiting file.
* `first_check_releases_nothing` — a run in which a file is left waiting.
-/

namespace FileAgent

open Transition StateManager

/-- The state manager and the storage state. -/
structure NetworkState where
  manager : StateManager
  storage : StorageState

/-- The start: an empty repository, and no information about the storage. -/
def NetworkState.initial : NetworkState := ⟨⟨FileRepository.empty, [], 0⟩, {}⟩

/-- `process_waiting_network_files`, with nobody in between. -/
def processWaitingNetworkFiles (m : StateManager) (now : ℕ) : StateManager :=
  (m.getFilesByStatus .waitingForNetwork).foldl
    (fun m id => m.updateAndPublish now id .discovered [.errorMessage none]) m

/-- `_check_single_storage` with the result `newInfo`. The method of the job queue that
`_handle_destination_unavailable` calls does not exist; the `AttributeError` is caught there, and
nothing else follows from a loss of the destination. -/
def checkSingleStorage (s : NetworkState) (now : ℕ) (storageType : StorageType)
    (newInfo : StorageInfo) : NetworkState :=
  let oldInfo := s.storage.currentInfo storageType
  { manager :=
      if isDestinationUnavailable storageType oldInfo newInfo then s.manager
      else if isDestinationRecovery storageType oldInfo newInfo then
        processWaitingNetworkFiles s.manager now
      else s.manager
    storage := s.storage.update newInfo storageType }

/-- A check of a storage location, the branch of `handle_file_ready` that parks a file, or a call
of the state manager by any service; `now` is the time of the section. -/
inductive NetworkAction
  | checkSingleStorage (now : ℕ) (storageType : StorageType) (env : CheckEnvironment)
  | handleFileReady (now : ℕ) (id : FileId)
  | call (now : ℕ) (c : ServiceCall)

/-- One step. `handle_file_ready` parks a `READY` file while the network is not available. -/
def networkStep (cfg : Settings) (s : NetworkState) : NetworkAction → Option NetworkState
  | .checkSingleStorage now storageType env =>
    some (checkSingleStorage s now storageType (checkedInfo cfg storageType env))
  | .handleFileReady now id =>
    if (s.manager.repo.getById id).any (·.status = .ready) ∧
        isNetworkAvailable s.storage.destinationInfo = false then
      some { s with
        manager := s.manager.updateAndPublish now id .waitingForNetwork
          [.errorMessage (some "Network unavailable - waiting for recovery")] }
    else none
  | .call now c => some { s with manager := (s.manager.call now c).manager }

/-- The record `id` is stored and waits for the network. -/
def NetworkState.Waits (s : NetworkState) (id : FileId) : Prop :=
  id ∈ s.manager.files ∧ (s.manager.heap id).status = .waitingForNetwork

instance (s : NetworkState) (id : FileId) : Decidable (s.Waits id) :=
  inferInstanceAs (Decidable (_ ∧ _))

/-- After every check of the destination that finds the network available, no file waits that
waited before it. -/
def RecoveryComplete (cfg : Settings) (tr : List (NetworkState × NetworkAction)) : Prop :=
  ∀ s now env s', (s, NetworkAction.checkSingleStorage now .destination env) ∈ tr →
    isNetworkAvailable (some (checkedInfo cfg .destination env)) = true →
    networkStep cfg s (.checkSingleStorage now .destination env) = some s' →
    ∀ id, s.Waits id → ¬ s'.Waits id

/-- No two waiting records have the same path. -/
def NetworkState.DistinctWaitingPaths (s : NetworkState) : Prop :=
  ∀ i ∈ s.manager.files, ∀ j ∈ s.manager.files, s.Waits i → s.Waits j →
    (s.manager.heap i).filePath = (s.manager.heap j).filePath → i = j

/-- The condition on a step: an accepted check finds no file waiting, or it is a recovery and no
two waiting records have the same path. -/
def Releases (cfg : Settings) (s : NetworkState) : NetworkAction → Prop
  | .checkSingleStorage _ .destination env =>
    isNetworkAvailable (some (checkedInfo cfg .destination env)) = true →
      (∀ id ∈ s.manager.files, ¬ s.Waits id) ∨
        (isDestinationRecovery .destination s.storage.destinationInfo
            (checkedInfo cfg .destination env) = true ∧ s.DistinctWaitingPaths)
  | _ => True

instance (s : NetworkState) : Decidable s.DistinctWaitingPaths :=
  inferInstanceAs (Decidable (∀ i ∈ s.manager.files, ∀ j ∈ s.manager.files, s.Waits i →
    s.Waits j → (s.manager.heap i).filePath = (s.manager.heap j).filePath → i = j))

instance (cfg : Settings) (s : NetworkState) : (a : NetworkAction) → Decidable (Releases cfg s a)
  | .checkSingleStorage _ .destination _ => inferInstanceAs (Decidable (_ → _ ∨ _ ∧ _))
  | .checkSingleStorage _ .source _ => .isTrue trivial
  | .handleFileReady .. => .isTrue trivial
  | .call .. => .isTrue trivial

/-! ## What a release does -/

section Release

variable {m : StateManager} {now : ℕ} {j : FileId}

/-- Updating several records, one after the other. -/
lemma foldl_updateAndPublish (status : FileStatus) (kwargs : List Attr) (ids : List FileId)
    (hids : ∀ id ∈ ids, id ∈ m.files) :
    (ids.foldl (fun m id => m.updateAndPublish now id status kwargs) m).files = m.files ∧
      ∀ j, ((ids.foldl (fun m id => m.updateAndPublish now id status kwargs) m).heap j).status =
        if j ∈ ids then status else (m.heap j).status := by
  induction ids generalizing m with
  | nil => simp
  | cons a ids ih =>
    obtain ⟨ha, hids⟩ := List.forall_mem_cons.mp hids
    obtain ⟨hf, hst⟩ := ih (m := m.updateAndPublish now a status kwargs) (by simpa using hids)
    rw [List.foldl_cons]
    refine ⟨by rw [hf, files_updateAndPublish], fun j => ?_⟩
    rw [hst, status_updateAndPublish]
    by_cases hj : j ∈ ids
    · simp [hj]
    · by_cases hja : j = a <;> simp [hj, hja, ha]

/-- Resuming the waiting records stores and removes nothing. -/
@[simp] lemma files_processWaitingNetworkFiles :
    (processWaitingNetworkFiles m now).files = m.files :=
  (foldl_updateAndPublish _ _ _ fun _ h => (mem_getFilesByStatus h).1).1

/-- **What a release does**: the waiting files that are listed, one for each path, become
`DISCOVERED`, and no other status changes. -/
lemma status_processWaitingNetworkFiles :
    ((processWaitingNetworkFiles m now).heap j).status =
      if j ∈ m.getFilesByStatus .waitingForNetwork then .discovered else (m.heap j).status :=
  (foldl_updateAndPublish _ _ _ fun _ h => (mem_getFilesByStatus h).1).2 j

/-- Among files with distinct paths, all those with a status are listed. -/
lemma mem_getFilesByStatus_of_distinct {status : FileStatus}
    (hinj : ∀ i ∈ m.files, (m.heap i).status = status →
      (m.heap i).filePath = (m.heap j).filePath → i = j)
    (hj : j ∈ m.files) (hst : (m.heap j).status = status) : j ∈ m.getFilesByStatus status := by
  obtain ⟨c, hc, hpath⟩ := (map_currentFiles m.heap
    (m.files.filter fun id => (m.heap id).status = status)).2 j (by simp [hj, hst])
  obtain ⟨hcm, hcs⟩ := mem_getFilesByStatus hc
  exact hinj c hcm hcs hpath ▸ hc

/-- Two listed files with the same path are the same file. -/
lemma eq_of_mem_getFilesByStatus {i : FileId} {status : FileStatus}
    (hi : i ∈ m.getFilesByStatus status) (hj : j ∈ m.getFilesByStatus status)
    (hpath : (m.heap i).filePath = (m.heap j).filePath) : i = j :=
  List.inj_on_of_nodup_map (map_currentFiles m.heap _).1 hi hj hpath

end Release

/-! ## The exact condition -/

section Exact

variable {cfg : Settings} {s : NetworkState}

/-- A recovery releases every waiting file exactly if no two of them have the same path. -/
lemma released_iff_distinct (now : ℕ) :
    (∀ id, s.Waits id → ((processWaitingNetworkFiles s.manager now).heap id).status ≠
        .waitingForNetwork) ↔ s.DistinctWaitingPaths := by
  simp only [status_processWaitingNetworkFiles]
  constructor
  · intro h i _ j _ hi hj hpath
    have hlisted : ∀ id, s.Waits id → id ∈ s.manager.getFilesByStatus .waitingForNetwork := by
      intro id hid
      by_contra hnot
      exact h id hid (by rw [if_neg hnot]; exact hid.2)
    exact eq_of_mem_getFilesByStatus (hlisted i hi) (hlisted j hj) hpath
  · intro h id hid
    rw [if_pos (mem_getFilesByStatus_of_distinct
      (fun i hi hst hpath => h i hi id hid.1 ⟨hi, hst⟩ hid hpath) hid.1 hid.2)]
    decide

/-- **One check**: an accepted check releases every waiting file exactly if it meets the
condition.

**Proof sketch.** A check releases records only if it counts as a recovery. If it does, the
waiting ones are resumed one after the other, and all of them are released exactly if no two share
a path (`released_iff_distinct`). If it does not, nothing is released, so nothing may have been
waiting. -/
lemma check_releases_iff {now : ℕ} {env : CheckEnvironment}
    (hacc : isNetworkAvailable (some (checkedInfo cfg .destination env)) = true) :
    (∀ id, s.Waits id →
        ¬ (checkSingleStorage s now .destination (checkedInfo cfg .destination env)).Waits id) ↔
      Releases cfg s (.checkSingleStorage now .destination env) := by
  simp only [Releases, hacc, forall_const]
  by_cases hrec : isDestinationRecovery .destination s.storage.destinationInfo
      (checkedInfo cfg .destination env) = true
  · have hman : (checkSingleStorage s now .destination (checkedInfo cfg .destination env)).manager =
        processWaitingNetworkFiles s.manager now := by
      simp only [checkSingleStorage, StorageState.currentInfo, hrec,
        not_unavailable_of_recovery hrec, Bool.false_eq_true, if_false, if_true]
    have hwaits : ∀ id, s.Waits id → ((checkSingleStorage s now .destination
        (checkedInfo cfg .destination env)).Waits id ↔
          ((processWaitingNetworkFiles s.manager now).heap id).status = .waitingForNetwork) := by
      intro id hid
      simp only [NetworkState.Waits, hman, files_processWaitingNetworkFiles]
      exact and_iff_right hid.1
    rw [← released_iff_distinct now]
    simp only [hrec, true_and]
    constructor
    · exact fun h => .inr fun id hid => mt (hwaits id hid).mpr (h id hid)
    · rintro (hnone | h) id hid
      · exact absurd hid (hnone id hid.1)
      · exact mt (hwaits id hid).mp (h id hid)
  · have hman : (checkSingleStorage s now .destination
        (checkedInfo cfg .destination env)).manager = s.manager := by
      simp only [checkSingleStorage, StorageState.currentInfo, hrec, Bool.false_eq_true, if_false,
        ite_self]
    simp only [NetworkState.Waits, hman, hrec, Bool.false_eq_true, false_and, or_false]
    exact ⟨fun h id _ hid => h id hid hid, fun h id hid _ => h id hid.1 hid⟩

/-- **Recovery is complete exactly if every accepted check releases.** In every run, each check
that finds the network available leaves no file waiting that waited before, if and only if each of
these checks found no file waiting, or was a recovery with distinct paths waiting. -/
theorem recoveryComplete_iff {tr : List (NetworkState × NetworkAction)}
    (hr : Run (networkStep cfg) .initial tr s) :
    RecoveryComplete cfg tr ↔ Meets (Releases cfg) tr := by
  constructor
  · rintro h ⟨t, a⟩ hmem
    obtain ⟨_, _, t', _, _, hs⟩ := hr.at_mem hmem
    cases a with
    | checkSingleStorage now storageType env =>
      cases storageType with
      | source => trivial
      | destination =>
        intro hacc
        exact (check_releases_iff hacc).mp
          (fun id hid => h t now env _ hmem hacc rfl id hid) hacc
    | handleFileReady now id => trivial
    | call now c => trivial
  · intro h t now env t' hmem hacc hs
    obtain rfl := Option.some.inj hs
    exact (check_releases_iff hacc).mpr (h _ hmem)

end Exact

/-! ## Runs -/

/-- The file system answers for a destination that cannot be reached, that is short of space, and
that has enough. -/
def unreachable : CheckEnvironment := { first := {} }

@[inherit_doc unreachable]
def shortOfSpace : CheckEnvironment where
  first :=
    { isAccessible := true, hasWriteAccess := true
      diskUsage := .ok ⟨1000 * 1024 ^ 3, 970 * 1024 ^ 3, 30 * 1024 ^ 3⟩ }

@[inherit_doc unreachable]
def enoughSpace : CheckEnvironment where
  first :=
    { isAccessible := true, hasWriteAccess := true
      diskUsage := .ok ⟨1000 * 1024 ^ 3, 500 * 1024 ^ 3, 500 * 1024 ^ 3⟩ }

/-- A file is found, and is parked when it becomes ready. -/
def parkFile : List NetworkAction :=
  [.call 0 (.addFile "/src/a.mxf" 1 none), .call 0 (.updateFileStatusById 0 .ready []),
    .handleFileReady 0 0]

/-- A file parked while the destination is unreachable is released by the next check that finds
enough space. -/
theorem recoveryComplete_unreachable_enough :
    RecoveryComplete {} (traceOf (networkStep {}) .initial
      (.checkSingleStorage 0 .destination unreachable :: parkFile ++
        [.checkSingleStorage 1 .destination enoughSpace])) := by
  obtain ⟨s, hr, -⟩ := exists_run_of_replay (networkStep {}) .initial
    (.checkSingleStorage 0 .destination unreachable :: parkFile ++
      [.checkSingleStorage 1 .destination enoughSpace])
    (fun _ => true) (by decide +kernel)
  refine (recoveryComplete_iff hr).mpr ?_
  decide +kernel

/-- The actions lead to a state in which a file waits, and it still waits after a further check
that finds the network available. -/
def leavesWaiting (cfg : Settings) (acts : List NetworkAction) (env : CheckEnvironment) : Bool :=
  (replay (networkStep cfg) .initial acts).any fun s =>
    isNetworkAvailable (some (checkedInfo cfg .destination env)) && decide (s.Waits 0) &&
      (networkStep cfg s (.checkSingleStorage 1 .destination env)).any fun s' => s'.Waits 0

/-- A run after which a check leaves a record waiting is no complete recovery. -/
lemma not_recoveryComplete_of_leavesWaiting {cfg : Settings} {acts : List NetworkAction}
    {env : CheckEnvironment} (h : leavesWaiting cfg acts env = true) :
    ∃ tr s, Run (networkStep cfg) .initial tr s ∧ ¬ RecoveryComplete cfg tr := by
  obtain ⟨s, hr, hp⟩ := exists_run_of_replay _ _ _ _ h
  simp only [Bool.and_eq_true, decide_eq_true_eq] at hp
  obtain ⟨⟨hacc, hw⟩, hstep⟩ := hp
  obtain ⟨s', hs, hw'⟩ := (Option.any_eq_true _ _).mp hstep
  exact ⟨_, s', hr.snoc hs, fun hc =>
    hc s 1 env s' (by simp) hacc hs 0 hw (by simpa using hw')⟩

/-- **Recovery is not complete.** A file parked before the first check is not released when that
check finds enough space. -/
theorem first_check_releases_nothing :
    ¬ ∀ cfg tr s, Run (networkStep cfg) .initial tr s → RecoveryComplete cfg tr := by
  intro h
  have hleaves : leavesWaiting {} parkFile enoughSpace = true := by decide +kernel
  obtain ⟨tr, s, hr, hnot⟩ := not_recoveryComplete_of_leavesWaiting hleaves
  exact hnot (h _ tr s hr)

/-- Nor is a file parked while the destination is unreachable released when the next check finds it
short of space, though still available. -/
example : leavesWaiting {} (.checkSingleStorage 0 .destination unreachable :: parkFile)
    shortOfSpace = true := by decide +kernel

end FileAgent

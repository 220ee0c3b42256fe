import FileAgent.System

set_option relaxedAutoImplicit false
set_option autoImplicit false

/-!
# The history of the records

The repository is a history: the program adds records and drops old ones, and in between it changes
a record in place. This module says what of a record never changes, and how records leave.

## Main definitions

* `StateManager.Extends` — one state of the store is a later one of another.
* `DropsOld` — the step of the scanner that drops a record for its age.

## Main results

* `extends_perform`, `mem_files_step_iff` — the step lemmas.
* `records_persist` — records keep their path and their time of discovery, and one is dropped
  exactly if the scanner finds it too old.
-/

namespace FileAgent

open Transition StateManager

/-! ## Later states of the store -/

/-- `m'` is a later state of the store: the records created in `m` have kept their paths and times
of discovery, and those that are stored were stored before. -/
structure StateManager.Extends (m m' : StateManager) : Prop where
  nextId_le : m.repo.nextId ≤ m'.repo.nextId
  filePath : ∀ id < m.repo.nextId, (m'.heap id).filePath = (m.heap id).filePath
  discoveredAt : ∀ id < m.repo.nextId, (m'.heap id).discoveredAt = (m.heap id).discoveredAt
  stored : ∀ id < m.repo.nextId, id ∈ m'.files → id ∈ m.files

/-- The scanner runs `cleanup_old_files`, and finds the record too old: completed, else failed, else
discovered, more than `keep_files_hours` ago. -/
def DropsOld (cfg : Settings) (id : FileId) (p : System × SystemAction) : Prop :=
  ∃ i now env, p.2 = .run i now env ∧ p.1.tasks[i]? = some ⟨.scanner .cleanupOld, .awaiting⟩ ∧
    id ∈ p.1.manager.oldFiles now cfg.keepFilesHours

section Operations

variable {cfg : Settings} {m m' m'' : StateManager} {now : ℕ} {o : Op} {id : FileId}

/-- Every StateManager extends itself. -/
lemma StateManager.Extends.refl (m : StateManager) : m.Extends m :=
  ⟨le_rfl, fun _ _ => rfl, fun _ _ => rfl, fun _ _ h => h⟩

/-- Extensions add up. -/
lemma StateManager.Extends.trans (h : m.Extends m') (h' : m'.Extends m'') : m.Extends m'' := by
  refine ⟨h.nextId_le.trans h'.nextId_le, fun id hid => ?_, fun id hid => ?_, fun id hid hmem => ?_⟩
  all_goals have hid' : id < m'.repo.nextId := lt_of_lt_of_le hid h.nextId_le
  · rw [h'.filePath id hid', h.filePath id hid]
  · rw [h'.discoveredAt id hid', h.discoveredAt id hid]
  · exact h.stored id hid (h'.stored id hid' hmem)

/-- No operation changes the time of discovery of a record that has been created. -/
lemma discoveredAt_perform_of_ne (hid : id ≠ m.repo.nextId) :
    ((m.perform cfg now o).1.manager.heap id).discoveredAt = (m.heap id).discoveredAt := by
  have hchange := recordChange_perform cfg m now o id
  generalize (m.perform cfg now o).1.manager.heap id = f at hchange ⊢
  cases hchange with
  | @updated status kwargs =>
    simp only [TrackedFile.applyUpdate]
    split_ifs <;> simp
  | found hnew => exact absurd hnew hid
  | _ => rfl

/-- **Every operation leads to a later state of the store.** -/
lemma extends_perform : m.Extends (m.perform cfg now o).1.manager where
  nextId_le := nextId_le_perform
  filePath := fun _ hid => filePath_perform_of_ne (ne_of_lt hid)
  discoveredAt := fun _ hid => discoveredAt_perform_of_ne (ne_of_lt hid)
  stored := by
    intro id hid hmem
    rcases mem_files_perform hmem with ⟨hold, -⟩ | ⟨rfl, -⟩
    · exact hold
    · exact absurd hid (lt_irrefl _)

end Operations

/-! ## Steps and runs -/

section Runs

variable {cfg : Settings} {s s' s₁ s₂ : System} {tr : List (System × SystemAction)} {i now n : ℕ}
  {env : Env} {id : FileId}

/-- One step extends the records. -/
lemma extends_step {a : SystemAction} (hs : systemStep cfg s a = some s') :
    s.manager.Extends s'.manager := by
  by_cases ha : ∀ i now env, a ≠ .run i now env
  · rw [(systemStep_of_ne_run hs ha).1]
    exact .refl _
  · push Not at ha
    obtain ⟨i, now, env, rfl⟩ := ha
    obtain ⟨t, t', -, -, -, rfl⟩ := systemStep_run hs
    dsimp only
    rw [perform_fst]
    exact extends_perform

/-- A run extends the records. -/
lemma extends_of_run (hrun : Run (systemStep cfg) s tr s') : s.manager.Extends s'.manager := by
  induction hrun with
  | start => exact .refl _
  | snoc _ hs ih => exact ih.trans (extends_step hs)

/-- A step of the scanner that drops a record, and no other, takes it out of the store. -/
lemma mem_files_step_iff {a : SystemAction} (hs : systemStep cfg s a = some s')
    (hid : id ∈ s.manager.files) : id ∈ s'.manager.files ↔ ¬ DropsOld cfg id (s, a) := by
  by_cases ha : ∀ i now env, a ≠ .run i now env
  · rw [(systemStep_of_ne_run hs ha).1]
    refine iff_of_true hid ?_
    rintro ⟨i, now, env, rfl, -⟩
    exact ha i now env rfl
  · push Not at ha
    obtain ⟨i, now, env, rfl⟩ := ha
    obtain ⟨t, t', ht, -, -, rfl⟩ := systemStep_run hs
    dsimp only
    rw [perform_fst]
    constructor
    · rintro hmem ⟨i, now, env, hact, ht', hold⟩
      cases hact
      obtain rfl := Option.some.inj (ht.symm.trans ht')
      rcases mem_files_perform hmem with ⟨-, hkept⟩ | ⟨rfl, -⟩
      · exact hkept cfg.keepFilesHours rfl hold
      · exact absurd (s.manager.repo.files_lt _ hid) (lt_irrefl _)
    · refine fun hkept => mem_files_perform_of_mem hid fun hours hop hold => hkept ?_
      cases calls_of_nextOp hop
      exact ⟨i, now, env, rfl, ht, hold⟩

/-- **Records persist**: from any state of the program on, the records created so far keep their
paths and times of discovery, no id is given to another record, a record that was dropped does not
come back, and a stored record is dropped exactly at those clean-ups of the scanner at which its
`completed_at`, or else its `failed_at`, or else its `discovered_at` is more than `keep_files_hours`
ago. Its other time stamps do not count.

**Proof sketch.** Each operation leads to a later state of the store (`extends_perform`), and the
relation is transitive. A record leaves the store at the steps of `mem_files_step_iff` only, and
then it is gone. -/
theorem records_persist (hrun : Run (systemStep cfg) s₁ tr s₂) :
    s₁.manager.Extends s₂.manager ∧
      ∀ id ∈ s₁.manager.files, id ∉ s₂.manager.files ↔ ∃ p ∈ tr, DropsOld cfg id p := by
  refine ⟨extends_of_run hrun, fun id hid => ?_⟩
  induction hrun with
  | start => simp [hid]
  | @snoc tr s s' a hrun hs ih =>
    have hsplit : (∃ p ∈ tr ++ [(s, a)], DropsOld cfg id p) ↔
        (∃ p ∈ tr, DropsOld cfg id p) ∨ DropsOld cfg id (s, a) := by
      simp only [List.mem_append, List.mem_singleton, or_and_right, exists_or, exists_eq_left]
    rw [hsplit, ← ih]
    by_cases hmem : id ∈ s.manager.files
    · rw [mem_files_step_iff hs hmem]
      simp [hmem]
    · have hlt : id < s.manager.repo.nextId :=
        lt_of_lt_of_le (s₁.manager.repo.files_lt id hid) (extends_of_run hrun).nextId_le
      exact iff_of_true (fun h => hmem ((extends_step hs).stored id hlt h)) (.inl hmem)

/-- A file is found. A hundred hours later it is gone when its growth is checked. -/
def vanishedFile : List SystemAction :=
  let env : Env := { paths := ["/src/a.mxf"], metadata := some (10, none) }
  List.replicate 8 (.run 0 0 env) ++ List.replicate 10 (.run 0 (seconds (100 * 3600)) env)

/-- A pass of the scanner that finds no file, begun after so many hours. -/
def emptyPass (hours : ℕ) : List SystemAction :=
  List.replicate 8 (.run 0 (seconds (hours * 3600)) {})

/-- The record is kept 400 hours after its discovery, as it has failed 300 hours before, and dropped
after 500 hours. -/
theorem records_persist_vanishedFile :
    ∃ tr₁ s₁ tr₂ s₂ tr₃ s₃, Run (systemStep {}) (.start 1) tr₁ s₁ ∧
      Run (systemStep {}) s₁ tr₂ s₂ ∧ Run (systemStep {}) s₂ tr₃ s₃ ∧
      s₁.manager.files = [0] ∧ (s₁.manager.heap 0).status = .failed ∧
      s₁.manager.Extends s₂.manager ∧ (∀ p ∈ tr₂, ¬ DropsOld {} 0 p) ∧
      s₂.manager.Extends s₃.manager ∧ ∃ p ∈ tr₃, DropsOld {} 0 p := by
  have htest : (replay (systemStep {}) (.start 1) vanishedFile).any (fun s₁ =>
      decide (s₁.manager.files = [0] ∧ (s₁.manager.heap 0).status = .failed) &&
      (replay (systemStep {}) s₁ (emptyPass 400)).any fun s₂ =>
        decide (0 ∈ s₂.manager.files) && (replay (systemStep {}) s₂ (emptyPass 500)).any fun s₃ =>
          decide (0 ∉ s₃.manager.files)) = true := by
    decide +kernel
  obtain ⟨s₁, hrun₁, h⟩ := exists_run_of_replay (systemStep {}) (.start 1) vanishedFile _ htest
  obtain ⟨hfound, htest₂⟩ := Bool.and_eq_true_iff.mp h
  obtain ⟨s₂, hrun₂, h⟩ := exists_run_of_replay (systemStep {}) s₁ (emptyPass 400) _ htest₂
  obtain ⟨hkept, htest₃⟩ := Bool.and_eq_true_iff.mp h
  obtain ⟨s₃, hrun₃, hgone⟩ := exists_run_of_replay (systemStep {}) s₂ (emptyPass 500) _ htest₃
  obtain ⟨hfiles, hfailed⟩ := of_decide_eq_true hfound
  have hmem : 0 ∈ s₁.manager.files := by simp [hfiles]
  obtain ⟨hext₂, hdrops₂⟩ := records_persist hrun₂
  obtain ⟨hext₃, hdrops₃⟩ := records_persist hrun₃
  refine ⟨_, s₁, _, s₂, _, s₃, hrun₁, hrun₂, hrun₃, hfiles, hfailed, hext₂, ?_, hext₃,
    (hdrops₃ 0 (of_decide_eq_true hkept)).mp (of_decide_eq_true hgone)⟩
  intro p hp hdrop
  exact (hdrops₂ 0 hmem).mpr ⟨p, hp, hdrop⟩ (of_decide_eq_true hkept)

end Runs

end FileAgent

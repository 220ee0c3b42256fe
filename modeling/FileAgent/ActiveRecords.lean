import FileAgent.System

set_option relaxedAutoImplicit false
set_option autoImplicit false

/-!
# Active records of one path

`add_file` returns the active record of its path if there is one, so it never adds a second. A
status update looks at no other record: one that was decided on earlier can make a record active
again that was marked as missing meanwhile, and whose path was found again.

## Main definitions

* `OneActivePerPath` — no path has two active records.
* `RevivesUnique` — the condition on the steps.

## Main results

* `oneActivePerPath_perform_iff` — an operation keeps the property exactly under the condition.
* `oneActivePerPath_iff` — so does a run.
* `late_check_revives_record` — a growth check that writes over a record marked as missing.
-/

namespace FileAgent

open Transition StateManager

/-! ## The property -/

/-- No two stored records of one path are active. -/
def OneActivePerPath (m : StateManager) : Prop :=
  ∀ id ∈ m.files, ∀ j ∈ m.files, (m.heap id).filePath = (m.heap j).filePath →
    (m.heap id).status.isActive = true → (m.heap j).status.isActive = true → id = j

instance (m : StateManager) : Decidable (OneActivePerPath m) :=
  inferInstanceAs (Decidable (∀ id ∈ m.files, ∀ j ∈ m.files, _ → _ → _ → _))

/-! ## The condition -/

/-- An operation that makes a terminal record active does so where `add_file` would add a record:
its path has no active record. -/
def Op.RevivesUnique (m : StateManager) (o : Op) : Prop :=
  ∀ id ∈ m.files, ∀ st ∈ o.writes id, st.isActive = true →
    (m.heap id).status.isActive = false → m.getActiveFileByPath (m.heap id).filePath = none

instance (m : StateManager) (o : Op) : Decidable (o.RevivesUnique m) :=
  inferInstanceAs (Decidable (∀ id ∈ m.files, ∀ st ∈ o.writes id, _ → _ → _ = _))

/-- The condition on a step. -/
def RevivesUnique (cfg : Settings) (s : System) : SystemAction → Prop
  | .run i _ _ => ∀ t ∈ s.tasks[i]?, (t.nextOp cfg).RevivesUnique s.manager
  | _ => True

instance (cfg : Settings) (s : System) : (a : SystemAction) → Decidable (RevivesUnique cfg s a)
  | .run i _ _ =>
    inferInstanceAs (Decidable (∀ t ∈ s.tasks[i]?, (t.nextOp cfg).RevivesUnique s.manager))
  | .createQueue => .isTrue trivial
  | .subscribe => .isTrue trivial

/-! ## The operations -/

section Operations

variable {cfg : Settings} {m m' : StateManager} {now : ℕ} {o : Op} {id j : FileId}
  {st : FileStatus}

/-- No record becomes active and no record is added. -/
lemma oneActivePerPath_of_active_mono (h : OneActivePerPath m)
    (hmono : ∀ id ∈ m'.files, id ∈ m.files ∧ (m'.heap id).filePath = (m.heap id).filePath ∧
      ((m'.heap id).status.isActive = true → (m.heap id).status.isActive = true)) :
    OneActivePerPath m' := by
  intro id hid j hj hpath hact hactj
  obtain ⟨hid, hpi, hai⟩ := hmono id hid
  obtain ⟨hj, hpj, haj⟩ := hmono j hj
  exact h id hid j hj (by rw [← hpi, ← hpj, hpath]) (hai hact) (haj hactj)

/-- `add_file` stores no second active record of a path. -/
lemma oneActivePerPath_addFile (h : OneActivePerPath m) (path : FilePath) (size : ℕ)
    (lw : Option ℕ) : OneActivePerPath (m.addFile now path size lw).2.manager := by
  rcases addFile_cases m now path size lw with ⟨-, hadd⟩ | ⟨hnone, hadd⟩ <;> rw [hadd]
  · exact h
  · rw [getActiveFileByPath_eq_none] at hnone
    intro id hid j hj
    simp only [files_withRepo, heap_withRepo, FileRepository.insert_files, List.mem_append,
      List.mem_singleton] at hid hj ⊢
    -- the new record has the only active status of its path
    rcases hid with hid | rfl <;> rcases hj with hj | rfl
    · rw [FileRepository.insert_heap_of_ne _ (m.repo.ne_nextId hid),
        FileRepository.insert_heap_of_ne _ (m.repo.ne_nextId hj)]
      exact h id hid j hj
    · rw [FileRepository.insert_heap_of_ne _ (m.repo.ne_nextId hid),
        FileRepository.insert_heap_self]
      intro hpath hact _
      exact absurd hact (by simpa using hnone id hid hpath)
    · rw [FileRepository.insert_heap_of_ne _ (m.repo.ne_nextId hj),
        FileRepository.insert_heap_self]
      intro hpath _ hact
      exact absurd hact (by simpa using hnone j hj hpath.symm)
    · intros
      rfl

/-- A targeted operation that revives no record beside an active one keeps the property.

**Proof sketch.** A targeted operation changes the status of the record it writes to and no other.
If it writes an active status to a record that was not active, the condition says that its path
had no active record; if the record was active already, the property holds of it as before. -/
lemma oneActivePerPath_of_isTargeted (h : OneActivePerPath m) (ho : o.isTargeted = true)
    (hok : o.RevivesUnique m) : OneActivePerPath (m.perform cfg now o).1.manager := by
  -- a record that is written active has no active rival
  have hwritten : ∀ {id j : FileId} {st : FileStatus}, id ∈ m.files → j ∈ m.files →
      (m.heap id).filePath = (m.heap j).filePath → o.writes id = some st → st.isActive = true →
      (m.heap j).status.isActive = true → id = j := by
    intro id j st hid hj hpath hw hact hactj
    cases hbefore : (m.heap id).status.isActive with
    | true => exact h id hid j hj hpath hbefore hactj
    | false =>
      have hnone := getActiveFileByPath_eq_none.mp (hok id hid st hw hact hbefore) j hj hpath.symm
      rw [hnone] at hactj
      cases hactj
  intro id hid j hj
  rw [files_perform ho] at hid hj
  rw [filePath_perform hid, filePath_perform hj, status_perform ho hid, status_perform ho hj]
  intro hpath hact hactj
  cases hwi : o.writes id with
  | some st =>
    cases hwj : o.writes j with
    | some st' => exact eq_of_writes hwi hwj
    | none =>
      rw [hwi] at hact
      rw [hwj] at hactj
      exact hwritten hid hj hpath hwi hact hactj
  | none =>
    rw [hwi] at hact
    cases hwj : o.writes j with
    | some st =>
      rw [hwj] at hactj
      exact (hwritten hj hid hpath.symm hwj hactj hact).symm
    | none =>
      rw [hwj] at hactj
      exact h id hid j hj hpath hact hactj

/-- The other operations keep the property: `add_file` checks it, and the cleanups and the retries
make no record active.

**Proof sketch.** By cases on the operation. The clean-ups take records away or make them REMOVED,
and a retry makes a waiting record READY, which was active as a waiting one; so every record
active afterwards was active before, by `oneActivePerPath_of_active_mono`. -/
lemma oneActivePerPath_of_not_isTargeted (h : OneActivePerPath m) (ho : o.isTargeted = false) :
    OneActivePerPath (m.perform cfg now o).1.manager := by
  cases o with
  | call c =>
    cases c with
    | addFile path size lw => exact oneActivePerPath_addFile h path size lw
    | cleanupMissingFiles paths =>
      refine oneActivePerPath_of_active_mono h fun id hid => ?_
      simp only [perform, call, files_cleanupMissingFiles] at hid ⊢
      rw [heap_cleanupMissingFiles]
      split_ifs
      · exact ⟨hid, rfl, fun hact => by cases hact⟩
      · exact ⟨hid, rfl, fun hact => hact⟩
    | cleanupOldFiles hours =>
      refine oneActivePerPath_of_active_mono h fun id hid => ?_
      simp only [perform, call, heap_cleanupOldFiles] at hid ⊢
      exact ⟨(mem_files_cleanupOldFiles.mp hid).1, trivial, fun hact => hact⟩
    | executeRetryTask i =>
      rcases executeRetryTask_cases m i with hsame | ⟨-, hst, -, hheap, hfiles, -, -⟩
      · simpa only [perform, call, hsame] using h
      · refine oneActivePerPath_of_active_mono h fun id hid => ?_
        simp only [perform, call, hheap, hfiles] at hid ⊢
        by_cases hi : id = i
        · subst hi
          rw [Function.update_self, hst]
          exact ⟨hid, rfl, fun _ => rfl⟩
        · rw [Function.update_of_ne hi]
          exact ⟨hid, rfl, fun hact => hact⟩
    | _ => cases ho
  | _ => cases ho

/-- **The operations**: an operation keeps the property exactly under the condition.

**Proof sketch.** A record that an update revives beside an active one is a second active record of
the path, and nothing else about the two changes. -/
theorem oneActivePerPath_perform_iff (h : OneActivePerPath m) :
    OneActivePerPath (m.perform cfg now o).1.manager ↔ o.RevivesUnique m := by
  constructor
  · intro hafter id hid st hw hact hinactive
    have ho := isTargeted_of_writes hw
    rw [getActiveFileByPath_eq_none]
    intro j hj hpath
    by_contra hactj
    rw [Bool.not_eq_false] at hactj
    have hij : id ≠ j := by
      rintro rfl
      rw [hinactive] at hactj
      cases hactj
    have hwj : o.writes j = none := by
      cases hwj : o.writes j with
      | none => rfl
      | some st' => exact absurd (eq_of_writes hw hwj) hij
    refine hij (hafter id (by rwa [files_perform ho]) j (by rwa [files_perform ho]) ?_ ?_ ?_)
    · rw [filePath_perform hid, filePath_perform hj, hpath]
    · rw [status_perform ho hid, hw]
      exact hact
    · rw [status_perform ho hj, hwj]
      exact hactj
  · intro hok
    cases ho : o.isTargeted with
    | true => exact oneActivePerPath_of_isTargeted h ho hok
    | false => exact oneActivePerPath_of_not_isTargeted h ho

end Operations

/-! ## The runs -/

section Runs

variable {cfg : Settings} {s s' : System} {tr : List (System × SystemAction)} {n : ℕ}

/-- **The step lemma.** -/
lemma oneActivePerPath_step_iff {a : SystemAction} (h : OneActivePerPath s.manager)
    (hs : systemStep cfg s a = some s') : OneActivePerPath s'.manager ↔ RevivesUnique cfg s a := by
  by_cases ha : ∀ i now env, a ≠ .run i now env
  · rw [(systemStep_of_ne_run hs ha).1]
    cases a with
    | run i now env => exact absurd rfl (ha i now env)
    | createQueue => exact iff_of_true h trivial
    | subscribe => exact iff_of_true h trivial
  · push Not at ha
    obtain ⟨i, now, env, rfl⟩ := ha
    obtain ⟨t, t', ht, -, -, rfl⟩ := systemStep_run hs
    dsimp only
    rw [perform_fst, oneActivePerPath_perform_iff h]
    constructor
    · intro hok u hu
      rw [Option.mem_def, ht] at hu
      cases hu
      exact hok
    · exact fun hok => hok t ht

/-- **One active record for each path**, in all states of a run, exactly if in every step of it an
update makes a terminal record active only where `add_file` would find no active record. -/
theorem oneActivePerPath_iff (hrun : Run (systemStep cfg) (.start n) tr s) :
    ((∀ p ∈ tr, OneActivePerPath p.1.manager) ∧ OneActivePerPath s.manager) ↔
      Meets (RevivesUnique cfg) tr :=
  hrun.forall_states_iff (I := fun _ => True) (P := fun s => OneActivePerPath s.manager) trivial
    (fun _ hid => absurd hid List.not_mem_nil) (fun _ _ _ _ _ => trivial)
    (fun _ _ _ _ h hs => oneActivePerPath_step_iff h hs)

/-- A small file is found, and a second scan finds the same record. -/
theorem oneActivePerPath_smallFile :
    ∃ s : System,
      ((∀ p ∈ traceOf (systemStep {}) (.start 1) smallFile, OneActivePerPath p.1.manager) ∧
        OneActivePerPath s.manager) ∧
      s.manager.files = [0] ∧ (s.manager.heap 0).status.isActive = true := by
  obtain ⟨s, hrun, hs⟩ := exists_run_of_replay (systemStep {}) (.start 1)
    smallFile (fun s =>
      decide (s.manager.files = [0] ∧ (s.manager.heap 0).status.isActive = true))
    (by decide +kernel)
  exact ⟨s, (oneActivePerPath_iff hrun).mpr (by decide +kernel), by simpa using hs⟩

/-- A growth check of the monitor up to its write. -/
def monitorCheck : List SystemAction :=
  [.run 1 0 {}, .run 1 0 {}, .run 1 0 { size := some 10 }, .run 1 0 {}]

/-- A scan from which the file is missing, and the listing of the same scan in which it is found
again. -/
def scanMissesFile : List SystemAction :=
  [.run 0 0 {}, .run 0 0 {}, .run 0 0 {}, .run 0 0 {}, .run 0 0 { paths := ["/src/a.mxf"] },
    .run 0 0 {}, .run 0 0 {}, .run 0 0 { metadata := some (10, none) }, .run 0 0 {}]

/-- **A check that writes late**: the monitor has read the status of a file. A scan marks the file
as missing, and adds it again; then the monitor writes the status it has read. -/
theorem late_check_revives_record :
    ¬ ∀ (tr : List (System × SystemAction)) (s : System), Run (systemStep {}) (.start 1) tr s →
      OneActivePerPath s.manager := by
  intro hall
  obtain ⟨s, hrun, hs⟩ := exists_run_of_replay (systemStep {}) (.start 1)
    (startUp ++ discoverFile 10 ++ checkStability 0 10 10 ++ monitorCheck ++
      scanMissesFile ++ [.run 1 0 {}])
    (fun s => decide (¬ OneActivePerPath s.manager)) (by decide +kernel)
  exact of_decide_eq_true hs (hall _ _ hrun)

end Runs

end FileAgent

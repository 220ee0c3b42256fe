import FileAgent.System

set_option relaxedAutoImplicit false
set_option autoImplicit false

/-!
# The times of the statuses

`completed_at` and `failed_at` are set by `update_file_status_by_id` itself, `space_error_at` is a
keyword argument of the one call that gives up on a file for lack of space. Three sections write a
status without it, events are written to their records later, with no keyword arguments, and the
loops write back a status they have read in an earlier section.

## Main definitions

* `TrackedFile.TimesSet` — the time that belongs to the status is set.
* `TimesKept` — `completed_at` and `failed_at` stay as they are once they are set.
* `Op.KeepsTimes`, `TimesInv` — what a suspended task may write, and the invariant.

## Main results

* `keepsTimes_arrive` — what a task is about to write when it comes to a point.
* `timesInv_step` — the step lemma.
* `statusTimes_set` — in every run the times are set, and the two stay as they are.
-/

namespace FileAgent

open Transition StateManager

/-! ## The property -/

/-- The time that belongs to the status is set. -/
structure TrackedFile.TimesSet (f : TrackedFile) : Prop where
  completed : f.status = .completed → f.completedAt ≠ none
  failed : f.status = .failed → f.failedAt ≠ none
  spaceError : f.status = .spaceError → f.spaceErrorAt ≠ none

/-- The records created before are still known as created, and keep `completed_at` and `failed_at`
once they are set. -/
structure TimesKept (m m' : StateManager) : Prop where
  known : m.repo.nextId ≤ m'.repo.nextId
  completed : ∀ id < m.repo.nextId, ∀ t ∈ (m.heap id).completedAt,
    t ∈ (m'.heap id).completedAt
  failed : ∀ id < m.repo.nextId, ∀ t ∈ (m.heap id).failedAt, t ∈ (m'.heap id).failedAt

/-- The times are kept where nothing happens. -/
lemma TimesKept.refl (m : StateManager) : TimesKept m m :=
  ⟨le_rfl, fun _ _ _ ht => ht, fun _ _ _ ht => ht⟩

/-- The times are kept by one change after another. -/
lemma TimesKept.trans {m m' m'' : StateManager} (h : TimesKept m m') (h' : TimesKept m' m'') :
    TimesKept m m'' where
  known := h.known.trans h'.known
  completed := fun id hid t ht =>
    h'.completed id (hid.trans_le h.known) t (h.completed id hid t ht)
  failed := fun id hid t ht => h'.failed id (hid.trans_le h.known) t (h.failed id hid t ht)

/-! ## The assignments of an update -/

section Records

variable {f : TrackedFile} {now t : ℕ} {status : FileStatus} {kwargs : List Attr}

/-- No keyword argument is about `completed_at` or `failed_at`. -/
lemma times_setattrs (f : TrackedFile) (kwargs : List Attr) :
    (f.setattrs kwargs).completedAt = f.completedAt ∧
      (f.setattrs kwargs).failedAt = f.failedAt := by
  induction kwargs generalizing f with
  | nil => exact ⟨rfl, rfl⟩
  | cons a kwargs ih =>
    obtain ⟨hcompleted, hfailed⟩ := ih (f.setattr a)
    refine ⟨hcompleted.trans ?_, hfailed.trans ?_⟩ <;> cases a <;> rfl

/-- Keyword arguments that do not clear `space_error_at`, to a record that has it or with a value
for it. -/
lemma spaceErrorAt_setattrs (hclear : .spaceErrorAt none ∉ kwargs)
    (h : f.spaceErrorAt ≠ none ∨ ∃ t, .spaceErrorAt (some t) ∈ kwargs) :
    (f.setattrs kwargs).spaceErrorAt ≠ none := by
  induction kwargs generalizing f with
  | nil => exact h.resolve_right (by simp)
  | cons a kwargs ih =>
    rw [List.mem_cons, not_or] at hclear
    obtain ⟨ha, hrest⟩ := hclear
    have hnext : (f.setattrs (a :: kwargs)) = (f.setattr a).setattrs kwargs := rfl
    rw [hnext]
    apply ih hrest
    cases a with
    | spaceErrorAt value =>
      left
      rintro hnone
      exact ha (congrArg Attr.spaceErrorAt hnone.symm)
    | _ =>
      simpa [TrackedFile.setattr] using h

/-- **The times after an update**: each is set with its status, unless it was set before. -/
lemma times_applyUpdate (f : TrackedFile) (now : ℕ) (status : FileStatus) (kwargs : List Attr) :
    (f.applyUpdate now status kwargs).completedAt =
        (if status = .completed then some (f.completedAt.getD now) else f.completedAt) ∧
      (f.applyUpdate now status kwargs).failedAt =
        (if status = .failed then some (f.failedAt.getD now) else f.failedAt) := by
  have hkept : ∀ g : TrackedFile, g.completedAt = f.completedAt → g.failedAt = f.failedAt →
      (g.setattrs kwargs).completedAt = f.completedAt ∧
        (g.setattrs kwargs).failedAt = f.failedAt := fun g hc hf =>
    ⟨(times_setattrs g kwargs).1.trans hc, (times_setattrs g kwargs).2.trans hf⟩
  simp only [TrackedFile.applyUpdate]
  generalize hg : TrackedFile.setattrs _ kwargs = g
  obtain ⟨hc, hf⟩ : g.completedAt = f.completedAt ∧ g.failedAt = f.failedAt := by
    subst hg
    split_ifs <;> exact hkept _ rfl rfl
  rw [← hc, ← hf]
  cases status with
  | completed => cases h : g.completedAt <;> simp [h]
  | failed => cases h : g.failedAt <;> simp [h]
  | copying => cases h : g.startedCopyingAt <;> simp
  | _ => simp

/-- An update keeps `completed_at` and `failed_at`, if they are set. -/
lemma timesKept_applyUpdate :
    (t ∈ f.completedAt → t ∈ (f.applyUpdate now status kwargs).completedAt) ∧
      (t ∈ f.failedAt → t ∈ (f.applyUpdate now status kwargs).failedAt) := by
  obtain ⟨hcompleted, hfailed⟩ := times_applyUpdate f now status kwargs
  rw [hcompleted, hfailed]
  constructor
  · intro ht
    rw [Option.mem_def] at ht
    simp [ht]
  · intro ht
    rw [Option.mem_def] at ht
    simp [ht]

/-- An update keeps `space_error_at`, if it is set. -/
lemma spaceErrorAt_applyUpdate (hclear : .spaceErrorAt none ∉ kwargs)
    (h : f.spaceErrorAt ≠ none ∨ ∃ t, .spaceErrorAt (some t) ∈ kwargs) :
    (f.applyUpdate now status kwargs).spaceErrorAt ≠ none := by
  have hset : ∀ g : TrackedFile, g.spaceErrorAt = f.spaceErrorAt →
      (g.setattrs kwargs).spaceErrorAt ≠ none :=
    fun g hg => spaceErrorAt_setattrs hclear (hg ▸ h)
  simp only [TrackedFile.applyUpdate]
  split_ifs <;> exact hset _ rfl

/-- **The record after an update** has the time of its status. -/
lemma timesSet_applyUpdate (hclear : .spaceErrorAt none ∉ kwargs)
    (h : status = .spaceError → f.spaceErrorAt ≠ none ∨ ∃ t, .spaceErrorAt (some t) ∈ kwargs) :
    (f.applyUpdate now status kwargs).TimesSet := by
  obtain ⟨hcompleted, hfailed⟩ := times_applyUpdate f now status kwargs
  constructor
  · rw [TrackedFile.applyUpdate_status, hcompleted]
    rintro rfl
    simp
  · rw [TrackedFile.applyUpdate_status, hfailed]
    rintro rfl
    simp
  · rw [TrackedFile.applyUpdate_status]
    exact fun hst => spaceErrorAt_applyUpdate hclear (h hst)

end Records

/-! ## What a task may write -/

/-- An update does not clear `space_error_at`, and writes `SPACE_ERROR` to a record with `R` only,
or together with `space_error_at`. -/
def Op.KeepsTimes (R : FileId → Prop) (o : Op) : Prop :=
  ∀ id status kwargs, o = .call (.updateFileStatusById id status kwargs) →
    .spaceErrorAt none ∉ kwargs ∧
      (status = .spaceError → R id ∨ ∃ t, .spaceErrorAt (some t) ∈ kwargs)

/-- The task is going to write `SPACE_ERROR` to a record with `R` only, or together with
`space_error_at`. -/
def Task.KeepsTimes (cfg : Settings) (R : FileId → Prop) (t : Task) : Prop :=
  (t.nextOp cfg).KeepsTimes R

section Points

variable {cfg : Settings} {view : View} {a : Answer} {f : FileId} {R : FileId → Prop}

/-- An operation keeps the times of fewer records too. -/
lemma Op.KeepsTimes.mono {R' : FileId → Prop} {o : Op} (h : o.KeepsTimes R)
    (hle : ∀ id, R id → R' id) : o.KeepsTimes R' := by
  intro id status kwargs ho
  obtain ⟨hclear, hset⟩ := h id status kwargs ho
  exact ⟨hclear, fun hst => (hset hst).imp_left (hle id)⟩

/-- An operation that is no update. -/
lemma keepsTimes_of_ne {o : Op}
    (h : ∀ id status kwargs, o ≠ .call (.updateFileStatusById id status kwargs)) :
    o.KeepsTimes R :=
  fun id status kwargs ho => absurd ho (h id status kwargs)

/-- An update to another status, without `space_error_at`. -/
lemma keepsTimes_update {id : FileId} {status : FileStatus} {kwargs : List Attr}
    (hkwargs : ∀ t, .spaceErrorAt t ∉ kwargs) (hst : status = .spaceError → R id) :
    (Op.call (.updateFileStatusById id status kwargs)).KeepsTimes R := by
  intro id' status' kwargs' h
  cases h
  exact ⟨hkwargs none, fun h => .inl (hst h)⟩

/-- A growth check goes on with the status its record has. -/
lemma keepsTimes_check {q q' : CheckPoint} (h : q.after cfg view f a = some (.goesOn q')) :
    (q'.op f).KeepsTimes fun id => (view.heap id).status = .spaceError := by
  cases CheckPoint.next_of_after h with
  | sized n =>
    unfold CheckPoint.sized
    split
    · exact keepsTimes_update (by simp [startTrackingAttrs]) fun hst => hst
    · exact keepsTimes_of_ne fun _ _ _ h => by cases h
  | present c => exact keepsTimes_update (by simp [GrowthCheck.attrs]) fun hst => hst
  | _ => exact keepsTimes_of_ne fun _ _ _ h => by cases h

/-- A growth check never recommends `SPACE_ERROR`. -/
lemma ne_spaceError_of_recommends {q : CheckPoint} {status : FileStatus}
    (h : q.after cfg view f a = some (.recommends status)) : status ≠ .spaceError := by
  cases CheckPoint.next_of_after h with
  | tracked => decide
  | decides c =>
    unfold GrowthCheck.recommend
    split_ifs <;> simp
  | lost q a hst => rcases hst with rfl | rfl <;> decide

/-- The handler of a file that is ready writes `IN_QUEUE` or `WAITING_FOR_NETWORK`. -/
lemma keepsTimes_handler (q : HandlerPoint) : (q.op f).KeepsTimes R := by
  cases q with
  | added => exact keepsTimes_update (by simp) fun h => by cases h
  | park => exact keepsTimes_update (by simp) fun h => by cases h
  | _ => exact keepsTimes_of_ne fun _ _ _ h => by cases h

/-- `copy_file` writes `COPYING`, `GROWING_COPY` and `COMPLETED`. -/
lemma keepsTimes_copy {path : FilePath} {dest : String} (q : CopyPoint) :
    (WorkerPoint.copyOp path (q.request cfg dest)).KeepsTimes R := by
  cases q with
  | progress v r speed =>
    refine keepsTimes_update (by simp) fun h => ?_
    unfold LoopVars.copyStatus at h
    split_ifs at h
  | growthUpdate v n => exact keepsTimes_update (by simp) fun h => by cases h
  | markCompleted file => exact keepsTimes_update (by simp) fun h => by cases h
  | _ => exact keepsTimes_of_ne fun _ _ _ h => by cases h

/-- A worker writes `SPACE_ERROR` together with `space_error_at`. -/
lemma keepsTimes_worker {p p' : WorkerPoint} (h : p.after cfg view a = some p') :
    (p'.op cfg).KeepsTimes R := by
  cases WorkerPoint.next_of_after h with
  | networkDown | retries | fails => exact keepsTimes_update (by simp) fun h => by cases h
  | prepared job =>
    refine keepsTimes_update (by simp) fun h => ?_
    rcases determineInitialStatus_cases (view.heap job.file) with hst | hst <;>
      rw [hst] at h <;> cases h
  | givesUp =>
    -- the call that gives up on the file
    intro id status kwargs hop
    cases hop
    exact ⟨by simp, fun _ => .inr ⟨view.now, by simp⟩⟩
  | copies job dest q q' =>
    rcases WorkerPoint.afterCopy_cases view job dest q' with
      hp | hp | hp | ⟨status, reason, hst, hp⟩ <;> rw [hp]
    · exact keepsTimes_copy q'
    · exact keepsTimes_of_ne fun _ _ _ h => by cases h
    · exact keepsTimes_update (by simp) fun h => by cases h
    · refine keepsTimes_update (by simp) fun h => ?_
      rcases hst with rfl | rfl <;> cases h
  | _ => exact keepsTimes_of_ne fun _ _ _ h => by cases h

/-- The scanner writes back the status of a record as it is, and publishes a recommended one.

**Proof sketch.** By cases on the transition of the scanner. Most points await no update. A change
of the size or of the growth fields writes the status that was read; a recommended status is
announced first, and none is `SPACE_ERROR`; checks and handlers have their own lemmas. -/
lemma keepsTimes_scanner {p p' : ScannerPoint} (h : p.after cfg view a = some p') :
    (Task.arrive view.heap (.scanner p')).KeepsTimes cfg
      fun id => (view.heap id).status = .spaceError := by
  have hpath : ∀ paths, (Task.arrive view.heap (.scanner (.nextPath paths))).KeepsTimes cfg
      fun id => (view.heap id).status = .spaceError := by
    intro paths
    cases paths <;> exact keepsTimes_of_ne fun _ _ _ h => by cases h
  have hfile : ∀ ids, (Task.arrive view.heap (.scanner (.nextFile ids))).KeepsTimes cfg
      fun id => (view.heap id).status = .spaceError := by
    intro ids
    cases ids <;> exact keepsTimes_of_ne fun _ _ _ h => by cases h
  have hinfo : ∀ f rest, (Task.arrive view.heap (.scanner (.afterGrowthInfo view.heap f
      rest))).KeepsTimes cfg fun id => (view.heap id).status = .spaceError := by
    intro f rest
    rcases ScannerPoint.afterGrowthInfo_cases view.heap f rest with hp | hp <;> rw [hp]
    · exact keepsTimes_of_ne fun _ _ _ h => by cases h
    · exact hfile rest
  cases ScannerPoint.next_of_after h with
  | discoveredAgain | skips | leavesOut | added | unchanged | resized => exact hpath _
  | listedAll | unmeasured | checked | announced | handled => exact hfile _
  | growthLost | growthWritten => exact hinfo _ _
  | resizes f => exact keepsTimes_update (by simp) fun hst => hst
  | growthRead f => exact keepsTimes_update (by simp [GrowthInfo.attrs]) fun hst => hst
  | checks f q q' rest hcheck => exact keepsTimes_check hcheck
  | publishes f q status rest hcheck =>
    -- the event is delivered first
    exact keepsTimes_update (by simp) fun hst =>
      absurd hst (ne_spaceError_of_recommends hcheck)
  | handling f q q' => exact keepsTimes_handler q'
  | _ => exact keepsTimes_of_ne fun _ _ _ h => by cases h

/-- So does the monitor. -/
lemma keepsTimes_monitor {p p' : MonitorPoint} (h : p.after cfg view a = some p') :
    p'.op.KeepsTimes fun id => (view.heap id).status = .spaceError := by
  have hnext : ∀ ids, (MonitorPoint.next view.heap ids).op.KeepsTimes
      fun id => (view.heap id).status = .spaceError := by
    intro ids
    rcases MonitorPoint.next_cases view.heap ids with hp | ⟨f, rest, -, hp⟩ <;> rw [hp] <;>
      exact keepsTimes_of_ne fun _ _ _ h => by cases h
  cases MonitorPoint.next_of_after h with
  | listed | checked | updated => exact hnext _
  | checks f c c' rest hcheck => exact keepsTimes_check hcheck
  | updates f c st rest hcheck =>
    exact keepsTimes_update (by simp) fun hst => absurd hst (ne_spaceError_of_recommends hcheck)
  | slept => exact keepsTimes_of_ne fun _ _ _ h => by cases h

/-- **What a task is about to write when it comes to a point**: `SPACE_ERROR` only to a record that
has it, or together with `space_error_at`. -/
lemma keepsTimes_arrive {p p' : TaskPoint} (h : p.after cfg view a = some p') :
    (Task.arrive view.heap p').KeepsTimes cfg
      fun id => (view.heap id).status = .spaceError := by
  cases TaskPoint.next_of_after h with
  | scanner p q hq => exact keepsTimes_scanner hq
  | monitor p q hq => exact keepsTimes_monitor hq
  | worker p q hq => exact keepsTimes_worker hq
  | storage p q =>
    cases q with
    | release f rest => exact keepsTimes_update (by simp) fun h => by cases h
    | _ => exact keepsTimes_of_ne fun _ _ _ h => by cases h
  | retry handle f p q => cases q <;> exact keepsTimes_of_ne fun _ _ _ h => by cases h
  | handles f p q => exact keepsTimes_handler q
  | _ => exact keepsTimes_of_ne fun _ _ _ h => by cases h

end Points

/-! ## What an operation does to the times -/

section Operations

variable {cfg : Settings} {m : StateManager} {now : ℕ} {o : Op} {id : FileId}

/-- **The times after an operation** that keeps them. -/
lemma timesSet_perform (h : ∀ id, (m.heap id).TimesSet)
    (ho : o.KeepsTimes fun id => (m.heap id).spaceErrorAt ≠ none) (id : FileId) :
    ((m.perform cfg now o).1.manager.heap id).TimesSet := by
  have hchange := recordChange_perform cfg m now o id
  generalize (m.perform cfg now o).1.manager.heap id = f at hchange ⊢
  cases hchange with
  | same => exact h id
  | updated =>
    obtain ⟨hclear, hset⟩ := ho _ _ _ rfl
    exact timesSet_applyUpdate hclear hset
  | scheduled => exact ⟨(h id).completed, (h id).failed, (h id).spaceError⟩
  | counted => exact ⟨(h id).completed, (h id).failed, (h id).spaceError⟩
  | found => constructor <;> intro hst <;> cases hst
  | removed => constructor <;> intro hst <;> cases hst
  | retried => constructor <;> intro hst <;> cases hst

/-- `space_error_at` is never cleared. -/
lemma spaceErrorAt_perform (ho : o.KeepsTimes fun id => (m.heap id).spaceErrorAt ≠ none)
    (hid : id ≠ m.repo.nextId) (h : (m.heap id).spaceErrorAt ≠ none) :
    ((m.perform cfg now o).1.manager.heap id).spaceErrorAt ≠ none := by
  have hchange := recordChange_perform cfg m now o id
  generalize (m.perform cfg now o).1.manager.heap id = f at hchange ⊢
  cases hchange with
  | updated => exact spaceErrorAt_applyUpdate (ho _ _ _ rfl).1 (.inl h)
  | found hnew => exact absurd hnew hid
  | _ => exact h

/-- Records that are yet to be created have no `space_error_at`. -/
lemma spaceErrorAt_perform_of_fresh
    (h : ∀ id, m.repo.nextId ≤ id → (m.heap id).spaceErrorAt = none)
    (hid : (m.perform cfg now o).1.manager.repo.nextId ≤ id) :
    ((m.perform cfg now o).1.manager.heap id).spaceErrorAt = none := by
  have hfresh : m.repo.nextId ≤ id := nextId_le_perform.trans hid
  have hchange := recordChange_perform cfg m now o id
  generalize (m.perform cfg now o).1.manager.heap id = f at hchange ⊢
  cases hchange with
  | updated hstored => exact absurd hfresh (not_le.mpr (m.repo.files_lt id hstored))
  | found => rfl
  | _ => exact h id hfresh

/-- No operation changes `completed_at` or `failed_at` once they are set. -/
lemma timesKept_perform : TimesKept m (m.perform cfg now o).1.manager := by
  have hrecord : ∀ id < m.repo.nextId, ∀ t : ℕ,
      (t ∈ (m.heap id).completedAt →
        t ∈ ((m.perform cfg now o).1.manager.heap id).completedAt) ∧
      (t ∈ (m.heap id).failedAt → t ∈ ((m.perform cfg now o).1.manager.heap id).failedAt) := by
    intro id hid t
    have hchange := recordChange_perform cfg m now o id
    generalize (m.perform cfg now o).1.manager.heap id = f at hchange ⊢
    cases hchange with
    | updated => exact timesKept_applyUpdate
    | found hnew => exact absurd hnew hid.ne
    | _ => exact ⟨fun h => h, fun h => h⟩
  exact ⟨nextId_le_perform, fun id hid t => (hrecord id hid t).1,
    fun id hid t => (hrecord id hid t).2⟩

/-- An event tells the status its record has been given. -/
lemma status_of_published {e : FileStatusChangedEvent}
    (h : (m.perform cfg now o).1.published = some e) :
    ((m.perform cfg now o).1.manager.heap e.fileId).status = e.newStatus := by
  obtain ⟨htargeted, hwrites⟩ := published_perform h
  have hstored : e.fileId ∈ m.files := by
    obtain ⟨kwargs, rfl⟩ := eq_update_of_writes hwrites
    simp only [perform, call, published_updateFileStatusById] at h
    split_ifs at h with hid
    exact hid.1
  rw [status_perform htargeted hstored, hwrites, Option.getD_some]

end Operations

/-! ## The invariant -/

/-- The invariant: the times are set, and no task is going to write `SPACE_ERROR` without. -/
structure TimesInv (cfg : Settings) (s : System) : Prop where
  records : ∀ id, (s.manager.heap id).TimesSet
  fresh : ∀ id, s.manager.repo.nextId ≤ id → (s.manager.heap id).spaceErrorAt = none
  tasks : ∀ t ∈ s.tasks, t.KeepsTimes cfg fun id => (s.manager.heap id).spaceErrorAt ≠ none

section Invariant

variable {cfg : Settings} {s s' : System} {n i now : ℕ} {env : Env} {id : FileId} {t : Task}

/-- What a task is about to write when it goes on. -/
lemma keepsTimes_goOn {view : View} {m : StateManager} {o : Op} {a : Answer} {t' : Task}
    (h : ∀ id, (view.heap id).TimesSet)
    (hview : view.heap = (m.perform cfg now o).1.manager.heap)
    (hgo : t.goOn cfg view (m.perform cfg now o).1.published a = some t') :
    t'.KeepsTimes cfg fun id => (view.heap id).spaceErrorAt ≠ none := by
  rcases goOn_cases hgo with ⟨b, p', hafter, rfl, -⟩ | ⟨e, b, hpublished, rfl, -⟩ |
    ⟨e, b, -, rfl⟩
  · exact (keepsTimes_arrive hafter).mono fun id hst => (h id).spaceError hst
  · have hst := status_of_published hpublished
    rw [← hview] at hst
    exact keepsTimes_update (by simp) fun h' => (h e.fileId).spaceError (hst.trans h')
  · exact keepsTimes_of_ne fun _ _ _ h => by cases h

/-- A new task does not write `SPACE_ERROR`. -/
lemma keepsTimes_created {m : StateManager} {o : Op} {R : FileId → Prop}
    (h : t ∈ System.created m o (m.perform cfg now o).1) : t.KeepsTimes cfg R := by
  rcases created_perform_cases h with ⟨e, rfl⟩ | ⟨path, rfl⟩ | ⟨f, rfl⟩
  · exact keepsTimes_of_ne fun _ _ _ h => by cases h
  · exact keepsTimes_update (by simp) fun h => by cases h
  · exact keepsTimes_of_ne fun _ _ _ h => by cases h

/-- **The step lemma.** -/
lemma timesInv_run (h : TimesInv cfg s) (hs : systemStep cfg s (.run i now env) = some s') :
    TimesInv cfg s' ∧ TimesKept s.manager s'.manager := by
  obtain ⟨t, t', ht, -, hgo, rfl⟩ := systemStep_run hs
  have ho := h.tasks t (List.mem_of_getElem? ht)
  dsimp only
  simp only [perform_fst] at hgo ⊢
  have hrecords : ∀ id,
      ((s.manager.perform cfg now (t.nextOp cfg)).1.manager.heap id).TimesSet :=
    timesSet_perform h.records ho
  refine ⟨⟨hrecords, fun id hid => spaceErrorAt_perform_of_fresh h.fresh hid, ?_⟩,
    timesKept_perform⟩
  intro u hu
  rcases mem_tasks_step hu with rfl | rfl | hnew | ⟨j, -, hj⟩
  · exact keepsTimes_goOn hrecords rfl hgo
  · exact keepsTimes_of_ne fun _ _ _ h => by cases h
  · exact keepsTimes_created hnew
  · refine (h.tasks u (List.mem_of_getElem? hj)).mono fun id hid => ?_
    refine spaceErrorAt_perform ho ?_ hid
    rintro rfl
    exact hid (h.fresh _ le_rfl)

/-- One step keeps the invariant, and the times that are set. -/
lemma timesInv_step {a : SystemAction} (h : TimesInv cfg s) (hs : systemStep cfg s a = some s') :
    TimesInv cfg s' ∧ TimesKept s.manager s'.manager := by
  by_cases ha : ∀ i now env, a ≠ .run i now env
  · obtain ⟨hmanager, htasks, -⟩ := systemStep_of_ne_run hs ha
    constructor
    · constructor
      · rw [hmanager]
        exact h.records
      · rw [hmanager]
        exact h.fresh
      · rw [hmanager, htasks]
        exact h.tasks
    · rw [hmanager]
      exact .refl _
  · push Not at ha
    obtain ⟨i, now, env, rfl⟩ := ha
    exact timesInv_run h hs

/-- At the start no record is stored. -/
lemma timesInv_start (n : ℕ) : TimesInv cfg (.start n) where
  records := fun id => by constructor <;> intro hst <;> cases hst
  fresh := fun id _ => rfl
  tasks := by
    intro t ht
    simp only [System.start, List.cons_append, List.nil_append, List.mem_cons,
      List.mem_replicate] at ht
    rcases ht with rfl | rfl | rfl | ⟨-, rfl⟩ <;>
      exact keepsTimes_of_ne fun _ _ _ h => by cases h

end Invariant

/-! ## Runs -/

section Runs

variable {cfg : Settings} {n : ℕ} {s s' : System} {tr tr' : List (System × SystemAction)}

/-- **The times of the statuses.** In every state that the system comes to, a record that is
`COMPLETED`, `FAILED` or `SPACE_ERROR` has the time of it; and however the system goes on from
there, `completed_at` and `failed_at` of a record stay as they are once they are set.

**Proof sketch.** `SPACE_ERROR` is written together with `space_error_at`, or read from the record
and written back, or repeated by the event of such a write; `space_error_at` is never cleared, so a
write that is still to come finds it. The other two times are set by the section that writes the
status, and no section assigns them otherwise. -/
theorem statusTimes_set (hrun : Run (systemStep cfg) (.start n) tr s)
    (hrun' : Run (systemStep cfg) s tr' s') :
    (∀ id ∈ s.manager.files, (s.manager.heap id).TimesSet) ∧
      TimesKept s.manager s'.manager := by
  have hall : ∀ {tr : List (System × SystemAction)}, Meets (fun _ _ => True) tr :=
    fun _ _ => trivial
  have hinv : TimesInv cfg s := hrun.invariant hall (timesInv_start n)
    fun _ _ _ h _ hs => (timesInv_step h hs).1
  have hlater : TimesInv cfg s' ∧ TimesKept s.manager s'.manager := by
    refine hrun'.invariant (I := fun s' => TimesInv cfg s' ∧ TimesKept s.manager s'.manager) hall
      ⟨hinv, .refl _⟩ ?_
    rintro s₁ a s₂ ⟨hinv₁, hkept⟩ - hs
    obtain ⟨hinv₂, hstep⟩ := timesInv_step hinv₁ hs
    exact ⟨hinv₂, hkept.trans hstep⟩
  exact ⟨fun id _ => hinv.records id, hlater.2⟩

/-- Files are not tried again for lack of space. -/
def noSpaceRetries : Settings := { maxSpaceRetries := 0 }

/-- The worker that takes the job of a small file finds the destination full, and gives up. -/
def givenUp : List SystemAction :=
  smallFile ++ scannerHandles ++ eventHandled ++
    [.run 3 30000000 { spaceCheck :=
        { hasSpace := false, availableBytes := 0, requiredBytes := 10, fileSizeBytes := 10,
          safetyMarginBytes := 0, reason := "" } },
      .run 3 30000000 {}, .run 3 30000000 {}]

/-- A file is found, and gone when its growth is checked. The event of its discovery has not been
delivered. -/
def foundAndGone : List SystemAction :=
  startUp ++ (discoverFile 10).dropLast ++
    List.replicate 10 (.run 0 5000000 { metadata := some (10, none) })

/-- The first record is `SPACE_ERROR`, the other one `FAILED`, with the times of it. Four seconds
later the event of its discovery makes the other one `DISCOVERED` again, and the time stays. -/
theorem statusTimes_set_lateEcho :
    (∃ tr s, Run (systemStep noSpaceRetries) (.start 1) tr s ∧
      (s.manager.heap 0).status = .spaceError ∧ (s.manager.heap 0).spaceErrorAt ≠ none) ∧
    ∃ tr s tr' s', Run (systemStep {}) (.start 1) tr s ∧ Run (systemStep {}) s tr' s' ∧
      (s.manager.heap 0).status = .failed ∧ (s.manager.heap 0).failedAt ≠ none ∧
      tr'.map Prod.snd = [.run 4 9000000 {}] ∧ (s'.manager.heap 0).status = .discovered ∧
      ∀ t ∈ (s.manager.heap 0).failedAt, t ∈ (s'.manager.heap 0).failedAt := by
  constructor
  · obtain ⟨s, hrun, hs⟩ := exists_run_of_replay (systemStep noSpaceRetries) (.start 1) givenUp
      (fun s => decide (0 ∈ s.manager.files ∧ (s.manager.heap 0).status = .spaceError))
      (by decide +kernel)
    obtain ⟨hfile, hst⟩ := of_decide_eq_true hs
    exact ⟨_, s, hrun, hst, ((statusTimes_set hrun .start).1 0 hfile).spaceError hst⟩
  · obtain ⟨s, hrun, h⟩ := exists_run_of_replay (systemStep {}) (.start 1) foundAndGone
      (fun s => decide (0 ∈ s.manager.files ∧ (s.manager.heap 0).status = .failed) &&
        (systemStep {} s (.run 4 9000000 {})).any fun s' : System =>
          decide ((s'.manager.heap 0).status = .discovered)) (by decide +kernel)
    obtain ⟨hfound, hecho⟩ := Bool.and_eq_true_iff.mp h
    obtain ⟨hfile, hst⟩ := of_decide_eq_true hfound
    obtain ⟨s', hs', hst'⟩ := (Option.any_eq_true _ _).mp hecho
    obtain ⟨htimes, hkept⟩ := statusTimes_set hrun (.snoc .start hs')
    exact ⟨_, s, _, s', hrun, .snoc .start hs', hst, (htimes 0 hfile).failed hst, rfl,
      of_decide_eq_true hst', hkept.failed 0 (s.manager.repo.files_lt 0 hfile)⟩

end Runs

end FileAgent

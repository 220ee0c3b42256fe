import FileAgent.StatusOwnership

set_option relaxedAutoImplicit false
set_option autoImplicit false

/-!
# How often a source file is delivered

A source file that does not change is copied, deleted and `COMPLETED`. `copy_file` also returns
`True` when the deletion fails. Then the file is still there, `COMPLETED` is no active status, and
the next scan takes the file for a new one.

## Main definitions

* `Delivery`, `deliveryStep` — the system and the source file at one path.
* `completions`, `additions`, `DeliveredOnce` — the property.
* `DeletionKept` — the condition on the steps.
* `DeliveryInv` — the invariant.

## Main results

* `deliveryInv_step` — the step lemma.
* `deliveredOnce_of_deletionKept` — the property of the runs that meet the condition.
* `failed_deletion_delivers_twice` — a file that is completed twice.
-/

namespace FileAgent

open Transition StateManager

/-! ## The source file -/

/-- What `copy_file` can be told about a source file of `size` bytes that nobody writes to. An open
file can be read after it was deleted. -/
def CopyPoint.seesSource (size : ℕ) (present : Bool) : CopyPoint → CopyAnswer → Bool
  | .initialSize _, .size n | .waitSize _, .size n | .loopSize _, .size n
  | .verifySource _, .size n => present && n = size
  | .openSource _ _, .done | .removeSource _, .done => present
  | .read _ r, .data chunk => r.bytesCopied + chunk.length ≤ size
  | _, _ => true

/-- What a growth check can be told about it. -/
def CheckPoint.seesSource (size : ℕ) (present : Bool) (env : Env) : CheckPoint → Bool
  | .pathExists => env.fileExists.all (· = present)
  | .getsize => env.size.all fun n => present && n = size
  | _ => true

/-- What a task can be told about the source file at `path`, with its size and the time of its last
write, while it is there and after it was deleted. -/
def TaskPoint.seesSource (path : FilePath) (content : ℕ × Option ℕ)
    (heap : FileId → TrackedFile) (present : Bool) (env : Env) : TaskPoint → Bool
  | .scanner .discover | .scanner .discoverAgain => path ∉ env.paths || present
  | .scanner (.newMetadata p _) =>
    p ≠ path || env.metadata.all fun c => present && c = content
  | .scanner (.metadata f _) | .scanner (.growthMetadata f _) =>
    (heap f).filePath ≠ path || env.metadata.all fun c => present && c = content
  | .scanner (.check f q _) | .monitor (.check f q _) =>
    (heap f).filePath ≠ path || q.seesSource content.1 present env
  | .worker (.copy job _ q) => job.path ≠ path || q.seesSource content.1 present env.copyAnswer
  | _ => true

/-- `copy_file` deletes the source of its job. -/
def TaskPoint.deletes (path : FilePath) (env : Env) : TaskPoint → Option FileId
  | .worker (.copy job _ (.removeSource _)) =>
    match env.copyAnswer with
    | .done => if job.path = path then some job.file else none
    | _ => none
  | _ => none

/-- The system, and the record whose copy has deleted the source file, which is there until then. -/
structure Delivery where
  system : System
  deletedBy : Option FileId := none

/-- A step of the system with the source file at `path`. -/
def deliveryStep (cfg : Settings) (path : FilePath) (content : ℕ × Option ℕ) (d : Delivery) :
    SystemAction → Option Delivery
  | .run i now env =>
    match d.system.tasks[i]? with
    | none => none
    | some t =>
      if t.point.seesSource path content d.system.manager.heap d.deletedBy.isNone env then
        (systemStep cfg d.system (.run i now env)).map fun s' =>
          { system := s', deletedBy := d.deletedBy.or (t.point.deletes path env) }
      else none
  | a => (systemStep cfg d.system a).map fun s' => { d with system := s' }

/-! ## The property -/

/-- The records of the path that a step brings to `COMPLETED`. -/
def completions (cfg : Settings) (path : FilePath) (p : Delivery × SystemAction) : List FileId :=
  match systemStep cfg p.1.system p.2 with
  | none => []
  | some s' => p.1.system.manager.files.filter fun id =>
      (p.1.system.manager.heap id).filePath = path ∧
        (p.1.system.manager.heap id).status ≠ .completed ∧
        (s'.manager.heap id).status = .completed

/-- The records of the path that a step adds. -/
def additions (cfg : Settings) (path : FilePath) (p : Delivery × SystemAction) : List FileId :=
  match systemStep cfg p.1.system p.2 with
  | none => []
  | some s' => s'.manager.files.filter fun id =>
      id ∉ p.1.system.manager.files ∧ (s'.manager.heap id).filePath = path

/-- `copy_file` has just returned `True` for the path. -/
def TaskPoint.hasDelivered (path : FilePath) : TaskPoint → Bool
  | .worker (.finalize job _) => job.path = path
  | _ => false

/-- The file is brought to `COMPLETED` at most once, and after `copy_file` has returned `True` for
it no record is added for it. -/
def DeliveredOnce (cfg : Settings) (path : FilePath) (tr : List (Delivery × SystemAction)) : Prop :=
  (tr.flatMap (completions cfg path)).length ≤ 1 ∧
    ∀ tr₁ p tr₂, tr = tr₁ ++ p :: tr₂ →
      (∃ q ∈ tr₁ ++ [p], ∃ t ∈ q.1.system.tasks, t.point.hasDelivered path = true) →
      additions cfg path p = []

/-! ## The condition -/

/-- The job whose source a worker is about to delete, and the record it has copied. -/
def TaskPoint.deleting : TaskPoint → Option (QueueJob × FileId)
  | .worker (.copy job _ (.removeSource file)) => some (job, file)
  | _ => none

/-- The path of a new file that the scanner has found no active record of and is about to add. -/
def TaskPoint.addsPath : TaskPoint → Option FilePath
  | .scanner (.addFile path _ _ _) => some path
  | _ => none

/-- The condition on a step of the task `t`: where it deletes the source after the verification, the
deletion succeeds, the record copied is that of the job, and the scanner is not about to add the
path; and no update changes the status of a `COMPLETED` record of the path. -/
def DeletionKeptTask (cfg : Settings) (path : FilePath) (s : System) (t : Task) (env : Env) :
    Prop :=
  (∀ r ∈ t.point.deleting, r.1.path = path →
      (t.point.deletes path env).isSome = true ∧ r.2 = r.1.file ∧
        ∀ u ∈ s.tasks, u.point.addsPath ≠ some path) ∧
    ∀ id ∈ s.manager.files, (s.manager.heap id).filePath = path →
      (s.manager.heap id).status = .completed →
      ∀ st ∈ (t.nextOp cfg).writes id, st = .completed

instance (cfg : Settings) (path : FilePath) (s : System) (t : Task) (env : Env) :
    Decidable (DeletionKeptTask cfg path s t env) :=
  inferInstanceAs (Decidable (_ ∧ _))

/-- The condition on a step. -/
def DeletionKept (cfg : Settings) (path : FilePath) (d : Delivery) : SystemAction → Prop
  | .run i _ env => ∀ t ∈ d.system.tasks[i]?, DeletionKeptTask cfg path d.system t env
  | _ => True

instance (cfg : Settings) (path : FilePath) (d : Delivery) :
    (a : SystemAction) → Decidable (DeletionKept cfg path d a)
  | .run i _ env => inferInstanceAs (Decidable (∀ t ∈ d.system.tasks[i]?,
      DeletionKeptTask cfg path d.system t env))
  | .createQueue => .isTrue trivial
  | .subscribe => .isTrue trivial

/-! ## Who writes `COMPLETED` -/

section Writes

variable {cfg : Settings} {view : View} {s : System} {now : ℕ} {id : FileId}

/-- A growth check never recommends COMPLETED. -/
lemma recommend_ne_completed (cfg : Settings) (c : GrowthCheck) :
    c.recommend cfg ≠ .completed := by
  unfold GrowthCheck.recommend
  split_ifs <;> decide

/-- A growth check writes `COMPLETED` only where it has read it. -/
lemma check_completed {f : FileId} {q q' : CheckPoint} {a : Answer}
    (h : q.after cfg view f a = some (.goesOn q'))
    (hw : (q'.op f).writes id = some .completed) : (view.heap id).status = .completed := by
  cases CheckPoint.next_of_after h with
  | sized n =>
    unfold CheckPoint.sized at hw
    split at hw
    · simp only [CheckPoint.op, Op.writes] at hw
      split_ifs at hw with hid
      exact hid ▸ Option.some.inj hw
    · cases hw
  | present c =>
    simp only [CheckPoint.op, Op.writes] at hw
    split_ifs at hw with hid
    exact hid ▸ Option.some.inj hw
  | _ => cases hw

/-- The status a growth check ends with is never COMPLETED. -/
lemma recommends_ne_completed {f : FileId} {q : CheckPoint} {a : Answer} {st : FileStatus}
    (h : q.after cfg view f a = some (.recommends st)) : st ≠ .completed := by
  cases CheckPoint.next_of_after h with
  | tracked => decide
  | decides c => exact recommend_ne_completed cfg c
  | lost q a hst => rcases hst with rfl | rfl <;> decide

/-- `handle_file_ready` never writes COMPLETED. -/
lemma handler_ne_completed (q : HandlerPoint) (f id : FileId) :
    (q.op f).writes id ≠ some .completed := by
  cases q <;> simp [HandlerPoint.op, Op.writes]

/-- The scanner writes `COMPLETED` only where it has read it. -/
lemma scanner_completed {p p' : ScannerPoint} {a : Answer} (h : p.after cfg view a = some p')
    (hw : ((Task.arrive view.heap (.scanner p')).nextOp cfg).writes id = some .completed) :
    (view.heap id).status = .completed := by
  cases ScannerPoint.next_of_after h with
  | checks f q q' rest hcheck => exact check_completed hcheck hw
  | publishes f q st rest hcheck =>
    simp only [Task.arrive, TaskPoint.publishes, ScannerPoint.publishes, Task.nextOp,
      Op.writes] at hw
    split_ifs at hw
    exact absurd (Option.some.inj hw) (recommends_ne_completed hcheck)
  | resizes f =>
    simp only [Task.arrive, TaskPoint.publishes, ScannerPoint.publishes, Task.nextOp,
      TaskPoint.op, ScannerPoint.op, Op.writes] at hw
    split_ifs at hw with hid
    exact hid ▸ Option.some.inj hw
  | growthRead f =>
    simp only [Task.arrive, TaskPoint.publishes, ScannerPoint.publishes, Task.nextOp,
      TaskPoint.op, ScannerPoint.op, Op.writes] at hw
    split_ifs at hw with hid
    exact hid ▸ Option.some.inj hw
  | handling f q q' rest => exact absurd hw (handler_ne_completed q' f id)
  | _ => first | cases hw | simp at hw

/-- **A task that is no worker writes `COMPLETED` only where it has read it.** -/
lemma after_completed {p p' : TaskPoint} {a : Answer} (h : p.after cfg view a = some p')
    (hp' : ∀ q, p' ≠ .worker q)
    (hw : ((Task.arrive view.heap p').nextOp cfg).writes id = some .completed) :
    (view.heap id).status = .completed := by
  cases TaskPoint.next_of_after h with
  | scanner p q hq => exact scanner_completed hq hw
  | monitor p q hq =>
    cases MonitorPoint.next_of_after hq with
    | checks f c c' rest hcheck => exact check_completed hcheck hw
    | updates f c st rest hcheck =>
      simp only [Task.arrive, TaskPoint.publishes, Task.nextOp, TaskPoint.op, MonitorPoint.op,
        Op.writes] at hw
      split_ifs at hw
      exact absurd (Option.some.inj hw) (recommends_ne_completed hcheck)
    | _ => first | cases hw | simp at hw
  | storage p q =>
    cases q <;> simp [Task.arrive, TaskPoint.publishes, Task.nextOp, TaskPoint.op, StoragePoint.op,
      Op.writes] at hw
  | worker q q' => exact absurd rfl (hp' q')
  | retry handle f p q => cases q <;> cases hw
  | handles f q q' => exact absurd hw (handler_ne_completed q' f id)
  | _ => cases hw

end Writes

/-! ## The end of a copy -/

/-- `copy_file` is about to write `COMPLETED`, or has returned `True`. -/
def CopyPoint.ends : CopyPoint → Bool
  | .markCompleted _ | .done (.returned true) => true
  | _ => false

section CopyEnd

variable {cfg : Settings} {heap : FileId → TrackedFile}

/-- A copy that returned anything but `True` does not end its delivery. -/
lemma ends_of_ne {o : CopyOutcome} (ho : o ≠ .returned true) : (CopyPoint.done o).ends = false := by
  cases o with
  | raised e => rfl
  | returned success =>
    cases success with
    | false => rfl
    | true => exact absurd rfl ho

/-- The end of the loop is before the delivery. -/
lemma ends_loopEnd (v : LoopVars) (n : ℕ) : (CopyPoint.loopEnd v n).ends = false := by
  rcases CopyPoint.loopEnd_cases v n with ⟨h, -⟩ | ⟨h, -⟩ | ⟨h, -⟩ <;> rw [h] <;> rfl

/-- The head of the inner loop is before the delivery. -/
lemma ends_rangeHead (v : LoopVars) (r : RangeVars) : (CopyPoint.rangeHead v r).ends = false := by
  rcases CopyPoint.rangeHead_cases v r with ⟨h, -⟩ | ⟨h, -⟩ <;> rw [h]
  · rfl
  · exact ends_loopEnd _ _

/-- A round of the loop is before the delivery. -/
lemma ends_loopRound (v : LoopVars) (n : ℕ) : (CopyPoint.loopRound v n).ends = false := by
  obtain ⟨v', -, -, ⟨r, -, h⟩ | h | h⟩ := CopyPoint.loopRound_cases v n <;> rw [h]
  · rfl
  · rfl
  · exact ends_loopEnd _ _

/-- **`COMPLETED` is written after the deletion of the source**, successful or not, and `True` is
returned after that. -/
lemma ends_resume {p p' : CopyPoint} {a : CopyAnswer} (h : p.resume cfg heap a = some p')
    (hp' : p'.ends = true) :
    (∃ file, p = .removeSource file ∧ p' = .markCompleted file) ∨
      ∃ file, p = .markCompleted file ∧ p' = .done (.returned true) := by
  cases CopyPoint.next_of_resume h with
  | removed file => exact .inl ⟨file, rfl, rfl⟩
  | completed file => exact .inr ⟨file, rfl, rfl⟩
  | failed _ _ ho =>
    rw [ends_of_ne ho] at hp'
    cases hp'
  | polled hfrom hto => rcases hto with rfl | rfl <;> cases hp'
  | sized v n =>
    rw [ends_loopRound] at hp'
    cases hp'
  | openedSource v r | reported v r | paused v r =>
    rw [ends_rangeHead] at hp'
    cases hp'
  | readNothing v r =>
    rw [CopyPoint.rangeEnd, ends_loopEnd] at hp'
    cases hp'
  | updated v n =>
    rw [ends_loopEnd] at hp'
    cases hp'
  | _ => cases hp'

end CopyEnd

/-! ## The paths of jobs -/

/-- A record that was created for the path, stored or not. -/
def StateManager.HasPath (m : StateManager) (id : FileId) (path : FilePath) : Prop :=
  id < m.repo.nextId ∧ (m.heap id).filePath = path

/-- The record that a worker brings to `COMPLETED`, with the job. -/
def WorkerPoint.delivers : WorkerPoint → Option (QueueJob × FileId)
  | .copy job _ (.markCompleted file) => some (job, file)
  | .finalize job _ => some (job, job.file)
  | _ => none

/-- The job of a worker is of its path, and so is the record that is copied. -/
structure WorkerPoint.Sound (m : StateManager) (p : WorkerPoint) : Prop where
  job : ∀ job ∈ p.job?, m.HasPath job.file job.path
  copies : p.Copies fun job f => m.HasPath f job.path

section Paths

variable {cfg : Settings} {view : View} {m m' : StateManager} {now : ℕ} {o : Op} {id : FileId}
  {path : FilePath}

/-- No operation changes the path of a record there is. -/
lemma hasPath_perform (h : m.HasPath id path) :
    (m.perform cfg now o).1.manager.HasPath id path :=
  ⟨lt_of_lt_of_le h.1 nextId_le_perform,
    (filePath_perform_of_ne (ne_of_lt h.1)).trans h.2⟩

/-- A task stays sound when more records are there. -/
lemma sound_mono {p : WorkerPoint} (h : p.Sound m)
    (hle : ∀ id path, m.HasPath id path → m'.HasPath id path) : p.Sound m' where
  job := fun job hjob => hle _ _ (h.job job hjob)
  copies := by
    have hcopies := h.copies
    cases p with
    | copy job dest q => exact fun f hf => hle _ _ (hcopies f hf)
    | _ => exact hcopies

end Paths

/-! ## How a task comes to deliver, or to add a path -/

@[inherit_doc WorkerPoint.delivers]
def TaskPoint.delivers : TaskPoint → Option (QueueJob × FileId)
  | .worker p => p.delivers
  | _ => none

section Points

variable {cfg : Settings} {view : View} {id : FileId} {path : FilePath}

/-- A worker writes `COMPLETED` to the record it delivers. -/
lemma worker_completed {R : QueueJob → FileId → Prop} {p : WorkerPoint} (hp : p.Copies R)
    (h : (p.op cfg).writes id = some .completed) : ∃ job, p.delivers = some (job, id) := by
  cases p with
  | copy job dest q =>
    rcases WorkerPoint.copyOp_writes h with hst | hst | ⟨-, file, rfl⟩
    · cases hst
    · cases hst
    · simp only [WorkerPoint.op, CopyPoint.request, WorkerPoint.copyOp, Op.writes] at h
      split_ifs at h with hid
      exact ⟨job, by rw [← hid]; rfl⟩
  | finalize job dest =>
    simp only [WorkerPoint.op, Op.writes] at h
    split_ifs at h with hid
    exact ⟨job, by rw [← hid]; rfl⟩
  | initializeCopyStatus job st dest t =>
    simp only [WorkerPoint.op, Op.writes] at h
    split_ifs at h
    exact absurd (Option.some.inj h) hp
  | handleFailure job dest st reason =>
    simp only [WorkerPoint.op, Op.writes] at h
    split_ifs at h
    exact absurd (Option.some.inj h) hp
  | _ => simp [WorkerPoint.op, Op.writes] at h

/-- A copy that does not end its delivery is followed by a point that delivers nothing. -/
lemma delivers_afterCopy (job : QueueJob) (dest : DestPath) {q : CopyPoint}
    (hq : q.ends = false) : (WorkerPoint.afterCopy view job dest q).delivers = none := by
  unfold WorkerPoint.afterCopy
  split
  · cases hq
  · rfl
  · split_ifs <;> rfl
  · cases q <;> first | rfl | cases hq

/-- **A worker comes to deliver a record** from the deletion of the source, and keeps it up to its
last write, which is to the record of its job. -/
lemma delivers_after {p p' : WorkerPoint} {a : Answer} {job : QueueJob} {file : FileId}
    (h : p.after cfg view a = some p') (hd : p'.delivers = some (job, file)) :
    (∃ file', p.delivers = some (job, file') ∧ file = job.file) ∨
      ∃ dest, p = .copy job dest (.removeSource file) := by
  cases WorkerPoint.next_of_after h with
  | copies j dest q q' b hb hq' =>
    cases hends : q'.ends with
    | false =>
      rw [delivers_afterCopy j dest hends] at hd
      cases hd
    | true =>
      rcases ends_resume hq' hends with ⟨f, rfl, rfl⟩ | ⟨f, rfl, rfl⟩
      · cases hd
        exact .inr ⟨dest, rfl⟩
      · cases hd
        exact .inl ⟨f, rfl, rfl⟩
  | _ => cases hd

@[inherit_doc delivers_after]
lemma task_delivers_after {p p' : TaskPoint} {a : Answer} {job : QueueJob} {file : FileId}
    (h : p.after cfg view a = some p') (hd : p'.delivers = some (job, file)) :
    (∃ file', p.delivers = some (job, file') ∧ file = job.file) ∨
      p.deleting = some (job, file) := by
  cases p' with
  | worker q' =>
    obtain ⟨q, rfl, hq⟩ := worker_before h rfl
    rcases delivers_after hq hd with hsame | ⟨dest, rfl⟩
    · exact .inl hsame
    · exact .inr rfl
  | _ => cases hd

/-- A scan between two paths is not about to add one. -/
@[simp] lemma addsPath_nextPath (paths : List FilePath) :
    (TaskPoint.scanner (.nextPath paths)).addsPath = none := by
  cases paths <;> rfl

/-- A scan between two records is not about to add one. -/
@[simp] lemma addsPath_nextFile (ids : List FileId) :
    (TaskPoint.scanner (.nextFile ids)).addsPath = none := by
  cases ids <;> rfl

/-- A scan that has stored its reading is not about to add a record. -/
@[simp] lemma addsPath_afterGrowthInfo (heap : FileId → TrackedFile) (f : FileId)
    (rest : List FileId) :
    (TaskPoint.scanner (.afterGrowthInfo heap f rest)).addsPath = none := by
  rcases ScannerPoint.afterGrowthInfo_cases heap f rest with h | h <;> rw [h]
  · rfl
  · exact addsPath_nextFile rest

/-- The scanner comes to add a path from the metadata of a file that is there. -/
lemma scanner_addsPath {p p' : ScannerPoint} {a : Answer} (h : p.after cfg view a = some p')
    (hp' : (TaskPoint.scanner p').addsPath = some path) :
    ∃ rest c, p = .newMetadata path rest ∧ view.env.metadata = some c := by
  cases ScannerPoint.next_of_after h with
  | adds q size lastWriteTime rest hmeta =>
    cases hp'
    exact ⟨rest, _, rfl, hmeta⟩
  | _ => first | cases hp' | simp at hp'

/-- **A task comes to add a path** only as the scanner, from the metadata of the file. -/
lemma addsPath_after {p p' : TaskPoint} {a : Answer} (h : p.after cfg view a = some p')
    (hp' : p'.addsPath = some path) :
    ∃ rest c, p = .scanner (.newMetadata path rest) ∧ view.env.metadata = some c := by
  cases TaskPoint.next_of_after h with
  | scanner q q' hq' =>
    obtain ⟨rest, c, rfl, hc⟩ := scanner_addsPath hq' hp'
    exact ⟨rest, c, rfl, hc⟩
  | _ => cases hp'

end Points

/-! ## The invariant -/

/-- A created record that is the one by whose copy the source was deleted, if it is of the path. -/
def Delivery.IsDelivered (path : FilePath) (d : Delivery) (id : FileId) : Prop :=
  id < d.system.manager.repo.nextId ∧
    ((d.system.manager.heap id).filePath = path → d.deletedBy = some id)

/-- The invariant. While the source is there, no record of the path is `COMPLETED`, and nobody is
about to write that. Once it was deleted, only the record by whose copy it was can be `COMPLETED`,
and the scanner is not about to add the path. -/
structure DeliveryInv (cfg : Settings) (path : FilePath) (d : Delivery) : Prop where
  consistent : ∀ t ∈ d.system.tasks, t.Consistent cfg
  jobs : ∀ job ∈ d.system.jobs, d.system.manager.HasPath job.file job.path
  sound : ∀ t ∈ d.system.tasks, ∀ p, t.point = .worker p → p.Sound d.system.manager
  known : ∀ id ∈ d.deletedBy, id < d.system.manager.repo.nextId
  gone : d.deletedBy ≠ none → ∀ t ∈ d.system.tasks, t.point.addsPath ≠ some path
  delivers : ∀ t ∈ d.system.tasks, ∀ job file, t.point.delivers = some (job, file) →
    job.path = path → d.deletedBy = some file ∧ file = job.file
  writes : ∀ t ∈ d.system.tasks, ∀ id, (t.nextOp cfg).writes id = some .completed →
    d.IsDelivered path id
  completed : ∀ id, (d.system.manager.heap id).status = .completed → d.IsDelivered path id

section Steps

variable {cfg : Settings} {path : FilePath} {content : ℕ × Option ℕ} {d d' : Delivery}
  {i now : ℕ} {env : Env} {t : Task}

/-- **What a step of a task does.** -/
lemma deliveryStep_run (h : deliveryStep cfg path content d (.run i now env) = some d') :
    ∃ t, d.system.tasks[i]? = some t ∧
      t.point.seesSource path content d.system.manager.heap d.deletedBy.isNone env = true ∧
      systemStep cfg d.system (.run i now env) = some d'.system ∧
      d'.deletedBy = d.deletedBy.or (t.point.deletes path env) := by
  simp only [deliveryStep] at h
  split at h
  · cases h
  · rename_i t ht
    split_ifs at h with hsees
    obtain ⟨s', hs', rfl⟩ := Option.map_eq_some_iff.mp h
    exact ⟨t, ht, hsees, hs', rfl⟩

/-- Actions outside a task leave the note about deleted sources alone. -/
lemma deliveryStep_of_ne_run {a : SystemAction} (h : deliveryStep cfg path content d a = some d')
    (ha : ∀ i now env, a ≠ .run i now env) :
    systemStep cfg d.system a = some d'.system ∧ d'.deletedBy = d.deletedBy := by
  cases a with
  | run i now env => exact absurd rfl (ha i now env)
  | createQueue =>
    cases h
    exact ⟨rfl, rfl⟩
  | subscribe =>
    simp only [deliveryStep, Option.map_eq_some_iff] at h
    obtain ⟨s', hs', rfl⟩ := h
    exact ⟨hs', rfl⟩

/-- A step with the note about deleted sources is a step of the system. -/
lemma systemStep_of_deliveryStep {a : SystemAction}
    (h : deliveryStep cfg path content d a = some d') :
    systemStep cfg d.system a = some d'.system := by
  by_cases ha : ∀ i now env, a ≠ .run i now env
  · exact (deliveryStep_of_ne_run h ha).1
  · push Not at ha
    obtain ⟨i, now, env, rfl⟩ := ha
    obtain ⟨t, -, -, hs, -⟩ := deliveryStep_run h
    exact hs

/-- The file is deleted once. -/
lemma deletedBy_step {a : SystemAction} {id : FileId}
    (h : deliveryStep cfg path content d a = some d') (hid : d.deletedBy = some id) :
    d'.deletedBy = some id := by
  by_cases ha : ∀ i now env, a ≠ .run i now env
  · rw [(deliveryStep_of_ne_run h ha).2, hid]
  · push Not at ha
    obtain ⟨i, now, env, rfl⟩ := ha
    obtain ⟨t, -, -, -, hdel⟩ := deliveryStep_run h
    rw [hdel, hid, Option.some_or]

/-- What is known of the path of a created record stays so. -/
lemma hasPath_step {s s' : System} {a : SystemAction} (hs : systemStep cfg s a = some s')
    {id : FileId} {q : FilePath} (h : s.manager.HasPath id q) : s'.manager.HasPath id q := by
  by_cases ha : ∀ i now env, a ≠ .run i now env
  · rw [(systemStep_of_ne_run hs ha).1]
    exact h
  · push Not at ha
    obtain ⟨i, now, env, rfl⟩ := ha
    obtain ⟨t, t', -, -, -, rfl⟩ := systemStep_run hs
    dsimp only
    rw [perform_fst]
    exact hasPath_perform h

/-- A delivered record stays one. -/
lemma isDelivered_step {a : SystemAction} {id : FileId}
    (hs : deliveryStep cfg path content d a = some d') (h : d.IsDelivered path id) :
    d'.IsDelivered path id := by
  have hpath : d'.system.manager.HasPath id (d.system.manager.heap id).filePath :=
    hasPath_step (systemStep_of_deliveryStep hs) ⟨h.1, rfl⟩
  refine ⟨hpath.1, fun hp => deletedBy_step hs (h.2 ?_)⟩
  rw [← hpath.2, hp]

/-- A worker that deletes the source finds it there, and is the one that has deleted it. -/
lemma deletedBy_of_deleting {job : QueueJob} {file : FileId}
    (hsees : t.point.seesSource path content d.system.manager.heap d.deletedBy.isNone env = true)
    (hdel : d'.deletedBy = d.deletedBy.or (t.point.deletes path env))
    (h : t.point.deleting = some (job, file))
    (hdeletes : (t.point.deletes path env).isSome = true) :
    d.deletedBy = none ∧ d'.deletedBy = some job.file := by
  unfold TaskPoint.deleting at h
  split at h
  · rename_i job' dest file' hpoint
    cases h
    rw [hpoint] at hsees hdel hdeletes
    cases hanswer : env.copyAnswer with
    | done =>
      simp only [TaskPoint.deletes, hanswer] at hdel hdeletes
      split_ifs at hdel hdeletes with hpath
      · simp only [TaskPoint.seesSource, CopyPoint.seesSource, hanswer, hpath, ne_eq,
          not_true_eq_false, decide_false, Bool.false_or, Option.isNone_iff_eq_none] at hsees
        exact ⟨hsees, by rw [hdel, hsees, Option.none_or]⟩
      · cases hdeletes
    | _ => simp [TaskPoint.deletes, hanswer] at hdeletes
  · cases h

/-- A record that is `COMPLETED` after a step was so before, or has been written. -/
lemma isDelivered_of_completed (h : DeliveryInv cfg path d)
    (hs : deliveryStep cfg path content d (.run i now env) = some d') {id : FileId}
    (hst : (d'.system.manager.heap id).status = .completed) : d'.IsDelivered path id := by
  refine isDelivered_step hs ?_
  obtain ⟨t, ht, -, hstep, -⟩ := deliveryStep_run hs
  obtain ⟨t₀, t', ht₀, -, -, hd'⟩ := systemStep_run hstep
  obtain rfl : t = t₀ := Option.some.inj (ht.symm.trans ht₀)
  rw [hd'] at hst
  dsimp only at hst
  rw [perform_fst] at hst
  rcases status_perform_cases cfg d.system.manager now (t.nextOp cfg) id with
    hsame | ⟨-, hw | ⟨-, -, -, hrem⟩ | ⟨-, -, -, hready⟩⟩ | ⟨-, hdisc⟩
  · exact h.completed id (hsame ▸ hst)
  · exact h.writes t (List.mem_of_getElem? ht) id (hst ▸ hw)
  · rw [hst] at hrem
    cases hrem
  · rw [hst] at hready
    cases hready
  · rw [hst] at hdisc
    cases hdisc

variable {t' : Task}

/-- The job that a task goes on with is of its path. -/
lemma job_goOn (h : DeliveryInv cfg path d) (ht : d.system.tasks[i]? = some t)
    (hgo : t.goOn cfg (d.system.view (d.system.perform cfg now (t.nextOp cfg)).1 now env)
      (d.system.perform cfg now (t.nextOp cfg)).1.published
      (d.system.perform cfg now (t.nextOp cfg)).2 = some t') :
    ∀ job ∈ t'.point.job?, d.system.manager.HasPath job.file job.path := by
  intro job hjob
  have hmem : t ∈ d.system.tasks := List.mem_of_getElem? ht
  rcases job?_goOn (h.consistent t hmem) hgo with hnone | hsame | ⟨-, -, hhead⟩
  · rw [hnone] at hjob
    cases hjob
  · rw [hsame] at hjob
    unfold TaskPoint.job? at hjob
    split at hjob
    · rename_i p hp
      exact (h.sound t hmem p hp).job job hjob
    · cases hjob
  · rw [hhead] at hjob
    exact h.jobs job (List.mem_of_head? hjob)

/-- A worker goes on with a record of its path. -/
lemma copies_goOn (h : DeliveryInv cfg path d) (ht : d.system.tasks[i]? = some t)
    (hgo : t.goOn cfg (d.system.view (d.system.perform cfg now (t.nextOp cfg)).1 now env)
      (d.system.perform cfg now (t.nextOp cfg)).1.published
      (d.system.perform cfg now (t.nextOp cfg)).2 = some t') :
    ∀ p', t'.point = .worker p' →
      p'.Copies fun job f => d.system.manager.HasPath f job.path := by
  intro p' hp'
  have hmem : t ∈ d.system.tasks := List.mem_of_getElem? ht
  rcases point_goOn hgo with hsame | ⟨b, hafter, hb⟩
  · exact (h.sound t hmem p' (hsame ▸ hp')).copies
  · cases hjob : p'.job? with
    | none => cases p' <;> trivial
    | some job =>
      obtain ⟨p, hp, hpafter⟩ := worker_before hafter hp'
      have hsound := h.sound t hmem p hp
      refine copies_after hsound.copies hpafter hsound.job fun job' hjob' i hi => ?_
      rw [← hp] at hjob'
      have hfound := getFileByPath_some
        (found_of_looksUp (h.consistent t hmem) hjob' hb hi)
      exact ⟨d.system.manager.repo.files_lt i hfound.1, hfound.2.1⟩

/-- What a task that goes on delivers. -/
lemma delivers_goOn (h : DeliveryInv cfg path d) (ht : d.system.tasks[i]? = some t)
    (hok : DeletionKeptTask cfg path d.system t env)
    (hs : deliveryStep cfg path content d (.run i now env) = some d') {view : View}
    {published : Option FileStatusChangedEvent} {a : Answer}
    (hgo : t.goOn cfg view published a = some t') {job : QueueJob} {file : FileId}
    (hd : t'.point.delivers = some (job, file)) (hpath : job.path = path) :
    d'.deletedBy = some file ∧ file = job.file := by
  have hmem : t ∈ d.system.tasks := List.mem_of_getElem? ht
  rcases point_goOn hgo with hsame | ⟨b, hafter, -⟩
  · obtain ⟨hdel, hfile⟩ := h.delivers t hmem job file (hsame ▸ hd) hpath
    exact ⟨deletedBy_step hs hdel, hfile⟩
  · rcases task_delivers_after hafter hd with ⟨file', hd', rfl⟩ | hdeleting
    · obtain ⟨hdel, hfile⟩ := h.delivers t hmem job file' hd' hpath
      exact ⟨hfile ▸ deletedBy_step hs hdel, rfl⟩
    · obtain ⟨hdeletes, hfile, -⟩ := hok.1 _ hdeleting hpath
      obtain ⟨t₀, ht₀, hsees, -, hdel⟩ := deliveryStep_run hs
      obtain rfl : t = t₀ := Option.some.inj (ht.symm.trans ht₀)
      have hthis := (deletedBy_of_deleting hsees hdel hdeleting hdeletes).2
      exact ⟨by rw [hthis]; exact congrArg some hfile.symm, hfile⟩

/-- Once the source was deleted, a task does not come to add the path.

**Proof sketch.** The task is about to add the path if it was before, which the invariant excludes
unless this step deletes the source, and then the task is a worker; or if it has just read the
metadata. But then it has seen the source, which is still there. -/
lemma addsPath_goOn (h : DeliveryInv cfg path d) (ht : d.system.tasks[i]? = some t)
    (hs : deliveryStep cfg path content d (.run i now env) = some d') {sec : Section}
    {published : Option FileStatusChangedEvent} {a : Answer}
    (hgo : t.goOn cfg (d.system.view sec now env) published a = some t')
    (hgone : d'.deletedBy ≠ none) : t'.point.addsPath ≠ some path := by
  intro hadds
  have hmem : t ∈ d.system.tasks := List.mem_of_getElem? ht
  obtain ⟨t₀, ht₀, hsees, -, hdel⟩ := deliveryStep_run hs
  obtain rfl : t = t₀ := Option.some.inj (ht.symm.trans ht₀)
  rcases point_goOn hgo with hsame | ⟨b, hafter, -⟩
  · rw [hsame] at hadds
    cases hdeletes : t.point.deletes path env with
    | none =>
      rw [hdeletes, Option.or_none] at hdel
      exact h.gone (hdel ▸ hgone) t hmem hadds
    | some file =>
      -- a worker deletes, and the scanner adds
      unfold TaskPoint.addsPath at hadds
      split at hadds
      · rename_i hpoint
        rw [hpoint] at hdeletes
        cases hdeletes
      · cases hadds
  · obtain ⟨rest, c, hpoint, hmeta⟩ := addsPath_after hafter hadds
    have hmeta' : env.metadata = some c := hmeta
    rw [hpoint] at hsees hdel
    simp only [TaskPoint.seesSource, hmeta', ne_eq, not_true_eq_false, decide_false,
      Bool.false_or, Option.all_some, Bool.and_eq_true, Option.isNone_iff_eq_none] at hsees
    exact hgone (by rw [hdel, hsees.1]; rfl)

/-- What a task that goes on is about to write.

**Proof sketch.** A worker writes COMPLETED to the record it delivers, and this is the one noted
when the source was deleted, by `delivers_goOn`. A task that publishes echoes what it has written.
Any other task writes the status it has read, so the record was COMPLETED before. -/
lemma isDelivered_goOn (h : DeliveryInv cfg path d) (ht : d.system.tasks[i]? = some t)
    (hok : DeletionKeptTask cfg path d.system t env)
    (hs : deliveryStep cfg path content d (.run i now env) = some d')
    (hmanager : d'.system.manager =
      (d.system.perform cfg now (t.nextOp cfg)).1.manager)
    (hgo : t.goOn cfg (d.system.view (d.system.perform cfg now (t.nextOp cfg)).1 now env)
      (d.system.perform cfg now (t.nextOp cfg)).1.published
      (d.system.perform cfg now (t.nextOp cfg)).2 = some t') {id : FileId}
    (hw : (t'.nextOp cfg).writes id = some .completed) : d'.IsDelivered path id := by
  have hmem : t ∈ d.system.tasks := List.mem_of_getElem? ht
  rcases goOn_cases hgo with ⟨b, p', hafter, rfl, -⟩ | ⟨e, b, hpub, rfl, -⟩ | ⟨e, b, -, rfl⟩
  · by_cases hp' : ∃ q, p' = .worker q
    · obtain ⟨q, rfl⟩ := hp'
      -- a worker writes to the record it delivers, which is of the path of its job
      have hcopies := copies_goOn h ht hgo q rfl
      have hjob := job_goOn h ht hgo
      obtain ⟨job, hdelivers⟩ := worker_completed hcopies hw
      have hrecord : d.system.manager.HasPath id job.path := by
        cases q with
        | copy j dest c =>
          cases c <;> cases hdelivers
          exact hcopies _ rfl
        | finalize j dest =>
          cases hdelivers
          exact hjob _ rfl
        | _ => cases hdelivers
      have hrecord' := hasPath_step (systemStep_of_deliveryStep hs) hrecord
      refine ⟨hrecord'.1, fun hp => ?_⟩
      have hpath : job.path = path := hrecord'.2.symm.trans hp
      exact (delivers_goOn h ht hok hs hgo hdelivers hpath).1
    · push Not at hp'
      have hst := after_completed hafter hp' hw
      refine isDelivered_of_completed h hs ?_
      rw [hmanager]
      exact hst
  · -- the event announces what the task has written
    rw [perform_fst] at hpub
    have hwrites := (published_perform hpub).2
    simp only [Task.nextOp, Op.writes] at hw
    split_ifs at hw with hid
    rw [Option.some.inj hw, hid] at hwrites
    exact isDelivered_step hs (h.writes t hmem id hwrites)
  · cases hw

/-- The record that a copy works on may be described more loosely. -/
lemma copies_mono {R R' : QueueJob → FileId → Prop} {p : WorkerPoint} (h : p.Copies R)
    (hle : ∀ job f, R job f → R' job f) : p.Copies R' := by
  cases p with
  | copy job dest q => exact fun f hf => hle _ _ (h f hf)
  | _ => exact h

/-- The source that is deleted is that of the job. -/
lemma deleting_of_deletes {id : FileId} (h : t.point.deletes path env = some id) :
    ∃ job file, t.point.deleting = some (job, file) ∧ t.point.job? = some job ∧
      job.path = path ∧ id = job.file := by
  unfold TaskPoint.deletes at h
  split at h
  · rename_i job dest file hpoint
    split at h
    · split_ifs at h with hpath
      exact ⟨job, file, by rw [hpoint]; rfl, by rw [hpoint]; rfl, hpath,
        (Option.some.inj h).symm⟩
    · cases h
  · cases h

/-- New tasks are no workers, add no path, and do not write `COMPLETED`. -/
lemma created_harmless {s : System} {o : Op} {u : Task}
    (h : u ∈ System.created s.manager o (s.perform cfg now o).1) :
    (∀ p, u.point ≠ .worker p) ∧ u.point.addsPath = none ∧
      ∀ id, (u.nextOp cfg).writes id ≠ some .completed := by
  rw [perform_fst] at h
  rcases created_perform_cases h with ⟨e, rfl⟩ | ⟨q, rfl⟩ | ⟨f, rfl⟩
  · exact ⟨(fun _ hp => by cases hp), rfl, (fun _ hw => by cases hw)⟩
  · refine ⟨(fun _ hp => by cases hp), rfl, fun id hw => ?_⟩
    simp only [Task.nextOp, Op.writes] at hw
    split_ifs at hw
    cases hw
  · exact ⟨(fun _ hp => by cases hp), rfl, (fun _ hw => by cases hw)⟩

/-- **The step lemma** for the step of a task.

**Proof sketch.** The tasks after the step are the one that went on, finished timers, tasks the
operation created, which deliver nothing, and tasks that were there. For the last ones everything
is as it was, since records keep their paths and the note is never taken back; for the first one
it is `job_goOn`, `copies_goOn`, `delivers_goOn`, `addsPath_goOn` and `isDelivered_goOn`. -/
lemma deliveryInv_run (h : DeliveryInv cfg path d) (ht : d.system.tasks[i]? = some t)
    (hok : DeletionKeptTask cfg path d.system t env)
    (hs : deliveryStep cfg path content d (.run i now env) = some d') :
    DeliveryInv cfg path d' := by
  have hstep := systemStep_of_deliveryStep hs
  obtain ⟨t₀, t', ht₀, -, hgo, hd'⟩ := systemStep_run hstep
  obtain rfl : t = t₀ := Option.some.inj (ht.symm.trans ht₀)
  have hmem : t ∈ d.system.tasks := List.mem_of_getElem? ht
  have hmanager : d'.system.manager = (d.system.perform cfg now (t.nextOp cfg)).1.manager := by
    rw [hd']
  have hmono : ∀ id q, d.system.manager.HasPath id q → d'.system.manager.HasPath id q :=
    fun _ _ => hasPath_step hstep
  have htasks : ∀ u ∈ d'.system.tasks, u = t' ∨ u = { point := .finished } ∨
      u ∈ System.created d.system.manager (t.nextOp cfg)
        (d.system.perform cfg now (t.nextOp cfg)).1 ∨ u ∈ d.system.tasks := by
    intro u hu
    rw [hd'] at hu
    rcases mem_tasks_step hu with hu | hu | hu | ⟨j, -, hj⟩
    · exact .inl hu
    · exact .inr (.inl hu)
    · exact .inr (.inr (.inl hu))
    · exact .inr (.inr (.inr (List.mem_of_getElem? hj)))
  refine ⟨consistent_step h.consistent hstep, ?jobs, ?sound, ?known, ?gone, ?delivers, ?writes,
    fun id => isDelivered_of_completed h hs⟩
  case jobs =>
    intro job hjob
    rw [hd'] at hjob
    rcases List.mem_append.mp hjob with hleft | hput
    · exact hmono _ _ (h.jobs job (mem_of_mem_jobsLeft hleft))
    · obtain ⟨-, -, hfile, -, hpath, -⟩ :=
        put_goOn job (h.consistent t hmem) hgo (Option.mem_toList.mp hput)
      exact hmono _ _ ⟨d.system.manager.repo.files_lt _ hfile, hpath.symm⟩
  case sound =>
    intro u hu p hp
    rcases htasks u hu with rfl | rfl | hnew | hold
    · refine ⟨fun job hjob => hmono _ _ (job_goOn h ht hgo job (hp ▸ hjob)), ?_⟩
      exact copies_mono (copies_goOn h ht hgo p hp) fun _ _ => hmono _ _
    · cases hp
    · exact absurd hp ((created_harmless hnew).1 p)
    · exact sound_mono (h.sound u hold p hp) hmono
  case known =>
    intro id hid
    obtain ⟨t₀, ht₀, -, -, hdel⟩ := deliveryStep_run hs
    obtain rfl : t = t₀ := Option.some.inj (ht.symm.trans ht₀)
    rw [hdel, Option.mem_def, Option.or_eq_some_iff] at hid
    have hlt : id < d.system.manager.repo.nextId := by
      rcases hid with hid | ⟨-, hid⟩
      · exact h.known id hid
      · obtain ⟨job, file, -, hjob, -, rfl⟩ := deleting_of_deletes hid
        obtain ⟨p, hp, hjob'⟩ : ∃ p, t.point = .worker p ∧ p.job? = some job := by
          unfold TaskPoint.job? at hjob
          split at hjob
          · exact ⟨_, ‹_›, hjob⟩
          · cases hjob
        exact ((h.sound t hmem p hp).job job hjob').1
    exact (hmono id _ ⟨hlt, rfl⟩).1
  case gone =>
    intro hgone u hu
    rcases htasks u hu with rfl | rfl | hnew | hold
    · exact addsPath_goOn h ht hs hgo hgone
    · intro h
      cases h
    · rw [(created_harmless hnew).2.1]
      intro h
      cases h
    · cases hbefore : d.deletedBy with
      | some file => exact h.gone (by rw [hbefore]; exact fun h => by cases h) u hold
      | none =>
        -- the source has just been deleted
        obtain ⟨t₀, ht₀, -, -, hdel⟩ := deliveryStep_run hs
        obtain rfl : t = t₀ := Option.some.inj (ht.symm.trans ht₀)
        rw [hbefore, Option.none_or] at hdel
        obtain ⟨id, hid⟩ := Option.ne_none_iff_exists'.mp hgone
        obtain ⟨job, file, hdeleting, -, hpath, -⟩ := deleting_of_deletes (hdel.symm.trans hid)
        exact (hok.1 _ hdeleting hpath).2.2 u hold
  case delivers =>
    intro u hu job file hd hpath
    rcases htasks u hu with rfl | rfl | hnew | hold
    · exact delivers_goOn h ht hok hs hgo hd hpath
    · cases hd
    · obtain ⟨p, hp⟩ : ∃ p, u.point = .worker p := by
        unfold TaskPoint.delivers at hd
        split at hd
        · exact ⟨_, ‹_›⟩
        · cases hd
      exact absurd hp ((created_harmless hnew).1 p)
    · obtain ⟨hdel, hfile⟩ := h.delivers u hold job file hd hpath
      exact ⟨deletedBy_step hs hdel, hfile⟩
  case writes =>
    intro u hu id hw
    rcases htasks u hu with rfl | rfl | hnew | hold
    · exact isDelivered_goOn h ht hok hs hmanager hgo hw
    · cases hw
    · exact absurd hw ((created_harmless hnew).2.2 id)
    · exact isDelivered_step hs (h.writes u hold id hw)

/-- One step keeps the invariant of the deliveries.

**Proof sketch.** A step of a task is `deliveryInv_run`. The others change neither tasks, jobs nor
records, so each part of the invariant is the one before. -/
lemma deliveryInv_step {a : SystemAction} (h : DeliveryInv cfg path d)
    (hok : DeletionKept cfg path d a) (hs : deliveryStep cfg path content d a = some d') :
    DeliveryInv cfg path d' := by
  by_cases ha : ∀ i now env, a ≠ .run i now env
  · obtain ⟨hstep, hdel⟩ := deliveryStep_of_ne_run hs ha
    obtain ⟨hmanager, htasks, hjobs⟩ := systemStep_of_ne_run hstep ha
    have hsame : ∀ id, d.IsDelivered path id → d'.IsDelivered path id :=
      fun _ => isDelivered_step hs
    constructor
    · rw [htasks]
      exact h.consistent
    · rw [hjobs, hmanager]
      exact h.jobs
    · rw [htasks, hmanager]
      exact h.sound
    · rw [hdel, hmanager]
      exact h.known
    · rw [hdel, htasks]
      exact h.gone
    · rw [hdel, htasks]
      exact h.delivers
    · rw [htasks]
      exact fun t ht id hw => hsame id (h.writes t ht id hw)
    · rw [hmanager]
      exact fun id hst => hsame id (h.completed id hst)
  · push Not at ha
    obtain ⟨i, now, env, rfl⟩ := ha
    obtain ⟨t, ht, -⟩ := deliveryStep_run hs
    exact deliveryInv_run h ht (hok t ht) hs

/-- At the start nothing is delivered.

**Proof sketch.** The tasks of the start are the loops and the workers that ask for a job. None of
them delivers or writes, and there is no record yet. -/
lemma deliveryInv_start (n : ℕ) : DeliveryInv cfg path { system := .start n } := by
  have htasks : ∀ t ∈ (System.start n).tasks, t.Consistent cfg ∧
      (∀ p, t.point = .worker p → p = .getNextJob) ∧ t.point.delivers = none ∧
      ∀ id, (t.nextOp cfg).writes id = none := by
    intro t ht
    simp only [System.start, List.cons_append, List.nil_append, List.mem_cons,
      List.mem_replicate] at ht
    rcases ht with rfl | rfl | rfl | ⟨-, rfl⟩
    · exact ⟨trivial, (fun _ hp => by cases hp), rfl, fun _ => rfl⟩
    · exact ⟨trivial, (fun _ hp => by cases hp), rfl, fun _ => rfl⟩
    · exact ⟨trivial, (fun _ hp => by cases hp), rfl, fun _ => rfl⟩
    · exact ⟨trivial, fun p hp => (TaskPoint.worker.inj hp).symm, rfl, fun _ => rfl⟩
  constructor
  · exact fun t ht => (htasks t ht).1
  · exact fun job hjob => by cases hjob
  · intro t ht p hp
    rw [(htasks t ht).2.1 p hp]
    exact ⟨(fun _ h => by cases h), trivial⟩
  · exact fun id hid => by cases hid
  · exact fun hne => absurd rfl hne
  · intro t ht job file hd
    rw [(htasks t ht).2.2.1] at hd
    cases hd
  · intro t ht id hw
    rw [(htasks t ht).2.2.2 id] at hw
    cases hw
  · exact fun id hst => by cases hst

end Steps

/-! ## What a step completes, and adds -/

section Effects

variable {cfg : Settings} {path : FilePath} {content : ℕ × Option ℕ} {d d' : Delivery}
  {a : SystemAction} {id : FileId}

/-- A step completes a record of the path exactly when it writes COMPLETED over another status. -/
lemma mem_completions (hs : systemStep cfg d.system a = some d'.system) :
    id ∈ completions cfg path (d, a) ↔ id ∈ d.system.manager.files ∧
      (d.system.manager.heap id).filePath = path ∧
      (d.system.manager.heap id).status ≠ .completed ∧
      (d'.system.manager.heap id).status = .completed := by
  simp only [completions, hs, List.mem_filter, decide_eq_true_eq]

/-- A step adds a record of the path exactly when it stores an id that was not there. -/
lemma mem_additions (hs : systemStep cfg d.system a = some d'.system) :
    id ∈ additions cfg path (d, a) ↔ id ∈ d'.system.manager.files ∧
      id ∉ d.system.manager.files ∧ (d'.system.manager.heap id).filePath = path := by
  simp only [additions, hs, List.mem_filter, decide_eq_true_eq]

/-- A step completes only the record by whose copy the source was deleted. -/
lemma deletedBy_of_completion (h : DeliveryInv cfg path d)
    (hs : systemStep cfg d.system a = some d'.system)
    (hid : id ∈ completions cfg path (d, a)) : d.deletedBy = some id := by
  obtain ⟨-, hpath, hne, hst⟩ := (mem_completions hs).mp hid
  by_cases ha : ∀ i now env, a ≠ .run i now env
  · rw [(systemStep_of_ne_run hs ha).1] at hst
    exact absurd hst hne
  · push Not at ha
    obtain ⟨i, now, env, rfl⟩ := ha
    obtain ⟨t, t', ht, -, -, hd'⟩ := systemStep_run hs
    rw [hd'] at hst
    dsimp only at hst
    rw [perform_fst] at hst
    rcases status_perform_cases cfg d.system.manager now (t.nextOp cfg) id with
      hsame | ⟨-, hw | ⟨-, -, -, hrem⟩ | ⟨-, -, -, hready⟩⟩ | ⟨-, hdisc⟩
    · exact absurd (hsame.symm.trans hst) hne
    · exact (h.writes t (List.mem_of_getElem? ht) id (hst ▸ hw)).2 hpath
    · rw [hst] at hrem
      cases hrem
    · rw [hst] at hready
      cases hready
    · rw [hst] at hdisc
      cases hdisc

/-- A step completes at most one record of the path. -/
lemma length_completions_le (h : DeliveryInv cfg path d)
    (hs : systemStep cfg d.system a = some d'.system) :
    (completions cfg path (d, a)).length ≤ 1 := by
  have hnodup : (completions cfg path (d, a)).Nodup := by
    simp only [completions, hs]
    exact d.system.manager.repo.files_nodup.filter _
  have hone : ∀ j ∈ completions cfg path (d, a), ∀ k ∈ completions cfg path (d, a), j = k := by
    intro j hj k hk
    exact Option.some.inj
      ((deletedBy_of_completion h hs hj).symm.trans (deletedBy_of_completion h hs hk))
  rcases hlist : completions cfg path (d, a) with _ | ⟨j, _ | ⟨k, rest⟩⟩
  · exact Nat.zero_le _
  · exact le_rfl
  · rw [hlist] at hnodup hone
    exact absurd (hone j (by simp) k (by simp)) (by
      rintro rfl
      simp at hnodup)

/-- A record that is `COMPLETED` stays so while it is stored. -/
lemma completed_stays (hok : DeletionKept cfg path d a)
    (hs : systemStep cfg d.system a = some d'.system) (hid : id ∈ d.system.manager.files)
    (hpath : (d.system.manager.heap id).filePath = path)
    (hst : (d.system.manager.heap id).status = .completed) :
    (d'.system.manager.heap id).status = .completed := by
  by_cases ha : ∀ i now env, a ≠ .run i now env
  · rw [(systemStep_of_ne_run hs ha).1, hst]
  · push Not at ha
    obtain ⟨i, now, env, rfl⟩ := ha
    obtain ⟨t, t', ht, -, -, hd'⟩ := systemStep_run hs
    have hkept := (hok t ht).2 id hid hpath hst
    rw [hd']
    dsimp only
    rw [perform_fst]
    rcases status_perform_cases cfg d.system.manager now (t.nextOp cfg) id with
      hsame | ⟨-, hw | ⟨paths, -, hmiss, -⟩ | ⟨-, hwfs, -, -⟩⟩ | ⟨hnew, -⟩
    · exact hsame.trans hst
    · exact hkept _ hw
    · exact absurd (by rw [hst]; rfl) (mem_missingFiles hmiss).2
    · rw [hst] at hwfs
      cases hwfs
    · exact absurd hnew (d.system.manager.repo.ne_nextId hid)

/-- `add_file` is called by the scanner. -/
lemma addsPath_of_nextOp {t : Task} {q : FilePath} {size : ℕ} {lw : Option ℕ}
    (h : t.nextOp cfg = .call (.addFile q size lw)) : t.point.addsPath = some q := by
  cases calls_of_nextOp h
  rfl

/-- Once the source was deleted, no step adds a record of the path. -/
lemma additions_eq_nil (h : DeliveryInv cfg path d)
    (hs : systemStep cfg d.system a = some d'.system) (hgone : d.deletedBy ≠ none) :
    additions cfg path (d, a) = [] := by
  rw [List.eq_nil_iff_forall_not_mem]
  intro id hid
  obtain ⟨hstored, hnew, hpath⟩ := (mem_additions hs).mp hid
  by_cases ha : ∀ i now env, a ≠ .run i now env
  · rw [(systemStep_of_ne_run hs ha).1] at hstored
    exact hnew hstored
  · push Not at ha
    obtain ⟨i, now, env, rfl⟩ := ha
    obtain ⟨t, t', ht, -, -, hd'⟩ := systemStep_run hs
    rw [hd'] at hstored hpath
    dsimp only at hstored hpath
    rw [perform_fst] at hstored hpath
    obtain ⟨q, size, lw, hop, -, -, hfound⟩ := addFile_of_new hstored hnew
    obtain rfl : q = path := by rw [← hpath, hfound]; rfl
    exact h.gone hgone t (List.mem_of_getElem? ht) (addsPath_of_nextOp hop)

end Effects

/-! ## Runs -/

/-- What is known of a run: the invariant of its last state, and what has been completed. -/
structure DeliveredSoFar (cfg : Settings) (path : FilePath) (tr : List (Delivery × SystemAction))
    (d : Delivery) : Prop where
  inv : DeliveryInv cfg path d
  count : (tr.flatMap (completions cfg path)).length ≤ 1
  done : ∀ id ∈ tr.flatMap (completions cfg path), d.deletedBy = some id ∧
    d.system.manager.HasPath id path ∧
    (id ∈ d.system.manager.files → (d.system.manager.heap id).status = .completed)
  returned : ∀ q ∈ tr, (∃ t ∈ q.1.system.tasks, t.point.hasDelivered path = true) →
    d.deletedBy ≠ none
  late : ∀ tr₁ p tr₂, tr = tr₁ ++ p :: tr₂ →
    (∃ q ∈ tr₁ ++ [p], ∃ t ∈ q.1.system.tasks, t.point.hasDelivered path = true) →
    additions cfg path p = []

section Runs

variable {cfg : Settings} {path : FilePath} {content : ℕ × Option ℕ} {d d' : Delivery}
  {tr : List (Delivery × SystemAction)} {a : SystemAction} {n : ℕ}

/-- After `copy_file` has returned `True`, the source was deleted. -/
lemma deletedBy_of_hasDelivered (h : DeliveryInv cfg path d)
    (hreturned : ∃ t ∈ d.system.tasks, t.point.hasDelivered path = true) :
    d.deletedBy ≠ none := by
  obtain ⟨t, ht, hdelivered⟩ := hreturned
  unfold TaskPoint.hasDelivered at hdelivered
  split at hdelivered
  · rename_i job dest hpoint
    have hdel := (h.delivers t ht job job.file (by rw [hpoint]; rfl)
      (of_decide_eq_true hdelivered)).1
    rw [hdel]
    intro h
    cases h
  · cases hdelivered

/-- **The step lemma** for runs.

**Proof sketch.** A record that a step completes is the one noted as deleted, and such a record
stays COMPLETED while it is stored; so a second completion would be of a record that is COMPLETED
already. A record is added only while nothing has been deleted, since no task is about to add the
path afterwards. -/
lemma deliveredSoFar_step (h : DeliveredSoFar cfg path tr d) (hok : DeletionKept cfg path d a)
    (hs : deliveryStep cfg path content d a = some d') :
    DeliveredSoFar cfg path (tr ++ [(d, a)]) d' := by
  have hstep := systemStep_of_deliveryStep hs
  have hinv := deliveryInv_step h.inv hok hs
  have hflat : (tr ++ [(d, a)]).flatMap (completions cfg path) =
      tr.flatMap (completions cfg path) ++ completions cfg path (d, a) := by
    rw [List.flatMap_append, List.flatMap_singleton]
  -- a record once completed is completed while it is stored, so it is not completed again
  have hfirst : completions cfg path (d, a) ≠ [] → tr.flatMap (completions cfg path) = [] := by
    intro hne
    obtain ⟨id, hid⟩ := List.exists_mem_of_ne_nil _ hne
    rw [List.eq_nil_iff_forall_not_mem]
    intro j hj
    obtain ⟨hdel, -, hdone⟩ := h.done j hj
    obtain rfl : j = id :=
      Option.some.inj (hdel.symm.trans (deletedBy_of_completion h.inv hstep hid))
    obtain ⟨hstored, -, hne, -⟩ := (mem_completions hstep).mp hid
    exact hne (hdone hstored)
  refine ⟨hinv, ?count, ?done, ?returned, ?late⟩
  case count =>
    rw [hflat, List.length_append]
    by_cases hnil : completions cfg path (d, a) = []
    · rw [hnil]
      exact h.count
    · rw [hfirst hnil, List.length_nil, Nat.zero_add]
      exact length_completions_le h.inv hstep
  case done =>
    intro id hid
    rw [hflat, List.mem_append] at hid
    rcases hid with hid | hid
    · obtain ⟨hdel, hpath, hdone⟩ := h.done id hid
      refine ⟨deletedBy_step hs hdel, hasPath_step hstep hpath, fun hstored => ?_⟩
      have hbefore : id ∈ d.system.manager.files := by
        by_contra hnew
        have hnil := additions_eq_nil h.inv hstep (by rw [hdel]; exact fun h => by cases h)
        have hmem : id ∈ additions cfg path (d, a) :=
          (mem_additions hstep).mpr ⟨hstored, hnew, (hasPath_step hstep hpath).2⟩
        rw [hnil] at hmem
        cases hmem
      exact completed_stays hok hstep hbefore hpath.2 (hdone hbefore)
    · obtain ⟨hstored, hpath, -, hst⟩ := (mem_completions hstep).mp hid
      have hknown : d.system.manager.HasPath id path :=
        ⟨d.system.manager.repo.files_lt id hstored, hpath⟩
      exact ⟨deletedBy_step hs (deletedBy_of_completion h.inv hstep hid),
        hasPath_step hstep hknown, fun _ => hst⟩
  case returned =>
    intro q hq hreturned
    have hgone : d.deletedBy ≠ none := by
      rcases List.mem_append.mp hq with hq | hq
      · exact h.returned q hq hreturned
      · rw [List.mem_singleton.mp hq] at hreturned
        exact deletedBy_of_hasDelivered h.inv hreturned
    obtain ⟨id, hid⟩ := Option.ne_none_iff_exists'.mp hgone
    rw [deletedBy_step hs hid]
    intro h
    cases h
  case late =>
    intro tr₁ p tr₂ htr hreturned
    rcases List.eq_nil_or_concat' tr₂ with rfl | ⟨init, last, rfl⟩
    · -- the last step
      obtain ⟨rfl, hp⟩ := List.append_inj' htr rfl
      obtain rfl : (d, a) = p := List.singleton_inj.mp hp
      obtain ⟨q, hq, hreturned⟩ := hreturned
      refine additions_eq_nil h.inv hstep ?_
      rcases List.mem_append.mp hq with hq | hq
      · exact h.returned q hq hreturned
      · rw [List.mem_singleton.mp hq] at hreturned
        exact deletedBy_of_hasDelivered h.inv hreturned
    · have hbefore : tr = tr₁ ++ p :: init := by
        rw [← List.cons_append, ← List.append_assoc] at htr
        exact (List.append_inj' htr rfl).1
      exact h.late tr₁ p init hbefore hreturned

/-- At the start nothing is added or completed. -/
lemma deliveredSoFar_start (n : ℕ) : DeliveredSoFar cfg path [] { system := .start n } where
  inv := deliveryInv_start n
  count := by simp
  done := by simp
  returned := by simp
  late := fun _ _ _ htr => absurd htr.symm
    (List.append_ne_nil_of_right_ne_nil _ (List.cons_ne_nil _ _))

/-- **Delivered once**: in the runs whose steps all meet the condition the file is brought to
`COMPLETED` at most once, and no record is added for it after `copy_file` has returned `True`.

**Proof sketch.** `COMPLETED` comes from a worker that has deleted the source, which succeeds once,
or is a status that was read before; so only the record of this worker is brought to `COMPLETED`.
After the deletion the scanner finds no metadata of the file, and adds nothing. -/
theorem deliveredOnce_of_deletionKept
    (hrun : Run (deliveryStep cfg path content) { system := .start n } tr d)
    (hok : Meets (DeletionKept cfg path) tr) : DeliveredOnce cfg path tr := by
  suffices h : DeliveredSoFar cfg path tr d from ⟨h.count, h.late⟩
  induction hrun with
  | start => exact deliveredSoFar_start n
  | snoc _ hs ih =>
    rw [meets_append, meets_singleton] at hok
    exact deliveredSoFar_step (ih hok.1) hok.2 hs

/-! ## Runs of one file -/

/-- The source file of the runs below: ten bytes, seen by every scan. -/
def sourceEnv : Env :=
  { paths := ["/src/a.mxf"], metadata := some (10, none), size := some 10 }

/-- The answers to a worker that copies the file, up to the deletion of the source. -/
def copyAnswers (removal : CopyAnswer) : List CopyAnswer :=
  [.done, .done, .done, .done, .size 10, .done, .done, .done, .done, .size 10, .done,
    .data (List.replicate 10 0), .done, .connected 1, .done, .done, .size 10, .size 10, removal,
    .done, .done, .done, .done]

/-- The worker takes the job, and finishes it. -/
def copyFile (now : ℕ) (removal : CopyAnswer) : List SystemAction :=
  (copyAnswers removal).map fun a => .run 3 now { sourceEnv with copyAnswer := a }

/-- The scanner runs `n` steps. -/
def scannerRuns (n now : ℕ) : List SystemAction := List.replicate n (.run 0 now sourceEnv)

/-- The file is found, and queued half a minute later. -/
def fileQueued : List SystemAction :=
  [.createQueue, .subscribe, .run 2 0 sourceEnv] ++ scannerRuns 20 0 ++ scannerRuns 23 30000000

/-- A copy whose deletion succeeds. -/
theorem deliveredOnce_deletedFile :
    ∃ tr d, Run (deliveryStep {} "/src/a.mxf" (10, none)) { system := .start 1 } tr d ∧
      tr.flatMap (completions {} "/src/a.mxf") = [0] ∧ DeliveredOnce {} "/src/a.mxf" tr := by
  obtain ⟨d, hrun, hd⟩ := exists_run_of_replay (deliveryStep {} "/src/a.mxf" (10, none))
    { system := .start 1 } (fileQueued ++ copyFile 30000000 .done) (fun _ => true)
    (by decide +kernel)
  exact ⟨_, d, hrun, by decide +kernel, deliveredOnce_of_deletionKept hrun (by decide +kernel)⟩

/-- The error of a deletion that fails. -/
def deletionFails : CopyAnswer := .error { kind := .os, errno := some 13, message := "denied" }

/-- **Delivered twice**: the deletion fails, the file is `COMPLETED`, and the next scan adds it
again; half a minute later it is copied, and `COMPLETED`, once more. -/
theorem failed_deletion_delivers_twice :
    ∃ tr d, Run (deliveryStep {} "/src/a.mxf" (10, none)) { system := .start 1 } tr d ∧
      tr.flatMap (completions {} "/src/a.mxf") = [0, 1] ∧ ¬ DeliveredOnce {} "/src/a.mxf" tr := by
  obtain ⟨d, hrun, -⟩ := exists_run_of_replay (deliveryStep {} "/src/a.mxf" (10, none))
    { system := .start 1 } (fileQueued ++ copyFile 30000000 deletionFails ++
      scannerRuns 19 30000000 ++ scannerRuns 25 60000000 ++ copyFile 60000000 .done)
    (fun _ => true) (by decide +kernel)
  have htwice : (traceOf (deliveryStep {} "/src/a.mxf" (10, none)) { system := .start 1 }
      (fileQueued ++ copyFile 30000000 deletionFails ++ scannerRuns 19 30000000 ++
        scannerRuns 25 60000000 ++ copyFile 60000000 .done)).flatMap
      (completions {} "/src/a.mxf") = [0, 1] := by decide +kernel
  refine ⟨_, d, hrun, htwice, fun hall => ?_⟩
  have hle := hall.1
  rw [htwice] at hle
  simp at hle

end Runs

end FileAgent

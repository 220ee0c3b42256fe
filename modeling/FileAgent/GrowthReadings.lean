import FileAgent.Library.TimedLog
import FileAgent.StatusOwnership

set_option relaxedAutoImplicit false
set_option autoImplicit false

/-!
# The readings of a growing file

The two loops read the size of a file at four awaits, and write the growth fields they make of a
reading in a later section. In between they hold the fields, and after a reading that recommends
`READY` they hold that status.

## Main definitions

* `TrackedFile.tracker` — the growth fields of a record, as a tracker of the readings.
* `Task.reads` — the reading that a step of a task takes.
* `Task.pending` — the keyword arguments that a task holds of its reading.
* `Task.givesReady` — the task is going to write `READY`.

## Main results

* `tracker_perform` — what an operation does to the growth fields.
* `reads_goOn`, `pending_goOn`, `written_or_pending`, `givesReady_goOn` — what a step makes of them.
-/

namespace FileAgent

open StateManager TimedLog

/-! ## The growth fields of a record -/

/-- `file_size` and `growth_stable_since`. -/
def TrackedFile.tracker (f : TrackedFile) : Tracker ℕ ℕ := ⟨f.fileSize, f.growthStableSince⟩

/-- The keyword arguments for `op` that are about the record `id`. -/
def Op.attrs (id : FileId) : Op → List Attr
  | .call (.updateFileStatusById i _ kwargs) => if i = id then kwargs else []
  | _ => []

section Records

variable {cfg : Settings} {m : StateManager} {now : ℕ} {o : Op} {id : FileId}
variable {f g : TrackedFile} {kwargs : List Attr} {log : List (ℕ × ℕ)}

/-- Keyword arguments assign a field or leave it, whatever the record. -/
lemma setattrs_proj {α : Type*} (π : TrackedFile → α)
    (hπ : ∀ a, (∀ f : TrackedFile, π (f.setattr a) = π f) ∨
      ∃ c, ∀ f : TrackedFile, π (f.setattr a) = c)
    (kwargs : List Attr) :
    (∀ f : TrackedFile, π (f.setattrs kwargs) = π f) ∨
      ∃ c, ∀ f : TrackedFile, π (f.setattrs kwargs) = c := by
  induction kwargs with
  | nil => exact .inl fun _ => rfl
  | cons a kwargs ih =>
    rcases ih with hkeep | ⟨c, hset⟩
    · rcases hπ a with hakeep | ⟨c, haset⟩
      · exact .inl fun f => (hkeep _).trans (hakeep f)
      · exact .inr ⟨c, fun f => (hkeep _).trans (haset f)⟩
    · exact .inr ⟨c, fun f => hset _⟩

/-- Attributes set the size of any record to the same value, or keep it. -/
lemma fileSize_setattrs (kwargs : List Attr) :
    (∀ f : TrackedFile, (f.setattrs kwargs).fileSize = f.fileSize) ∨
      ∃ n, ∀ f : TrackedFile, (f.setattrs kwargs).fileSize = n := by
  apply setattrs_proj TrackedFile.fileSize
  intro a
  cases a with
  | fileSize n => exact .inr ⟨n, fun _ => rfl⟩
  | _ => exact .inl fun _ => rfl

/-- Attributes set the start of the stable stretch to the same value, or keep it. -/
lemma growthStableSince_setattrs (kwargs : List Attr) :
    (∀ f : TrackedFile, (f.setattrs kwargs).growthStableSince = f.growthStableSince) ∨
      ∃ t, ∀ f : TrackedFile, (f.setattrs kwargs).growthStableSince = t := by
  apply setattrs_proj TrackedFile.growthStableSince
  intro a
  cases a with
  | growthStableSince t => exact .inr ⟨t, fun _ => rfl⟩
  | _ => exact .inl fun _ => rfl

/-- What keyword arguments make of the growth fields depends on these alone. -/
lemma tracker_setattrs_congr (h : f.tracker = g.tracker) (kwargs : List Attr) :
    (f.setattrs kwargs).tracker = (g.setattrs kwargs).tracker := by
  obtain ⟨hsize, hsince⟩ := Tracker.mk.inj h
  have hsize' : (f.setattrs kwargs).fileSize = (g.setattrs kwargs).fileSize := by
    rcases fileSize_setattrs kwargs with hkeep | ⟨n, hset⟩
    · rw [hkeep, hkeep, hsize]
    · rw [hset, hset]
  have hsince' : (f.setattrs kwargs).growthStableSince = (g.setattrs kwargs).growthStableSince := by
    rcases growthStableSince_setattrs kwargs with hkeep | ⟨t, hset⟩
    · rw [hkeep, hkeep, hsince]
    · rw [hset, hset]
  simp only [TrackedFile.tracker, hsize', hsince']

/-- Keyword arguments that would bring one record up to date leave a record up to date that is so
already. -/
lemma follows_setattrs (hf : (f.setattrs kwargs).tracker.Follows log)
    (hg : g.tracker.Follows log) : (g.setattrs kwargs).tracker.Follows log := by
  have hvalue : ∀ y ∈ log.getLast?, y.2 = (g.setattrs kwargs).fileSize := by
    rcases fileSize_setattrs kwargs with hkeep | ⟨n, hset⟩
    · rw [hkeep]
      exact hg.value
    · rw [hset g, ← hset f]
      exact hf.value
  have hsince : ∀ t ∈ (g.setattrs kwargs).growthStableSince, NoRiseAfter t log := by
    rcases growthStableSince_setattrs kwargs with hkeep | ⟨t, hset⟩
    · rw [hkeep]
      exact hg.since
    · rw [hset g, ← hset f]
      exact hf.since
  exact ⟨hvalue, hsince⟩

/-- Of the assignments of an update, the keyword arguments are the ones to the growth fields. -/
lemma tracker_applyUpdate (now : ℕ) (status : FileStatus) (kwargs : List Attr)
    (f : TrackedFile) :
    (f.applyUpdate now status kwargs).tracker = (f.setattrs kwargs).tracker := by
  have hstatus : ({ f with status := status }.setattrs kwargs).tracker =
      (f.setattrs kwargs).tracker :=
    tracker_setattrs_congr (f := { f with status := status }) (g := f) rfl kwargs
  have hcleared : ({ f with status := status, retryInfo := none }.setattrs kwargs).tracker =
      (f.setattrs kwargs).tracker :=
    tracker_setattrs_congr (f := { f with status := status, retryInfo := none }) (g := f) rfl kwargs
  simp only [TrackedFile.applyUpdate]
  split_ifs <;> first | exact hstatus | exact hcleared

/-- **What an operation does to the growth fields** of a stored record: it assigns its keyword
arguments. -/
lemma tracker_perform (hid : id ∈ m.files) :
    ((m.perform cfg now o).1.manager.heap id).tracker =
      ((m.heap id).setattrs (o.attrs id)).tracker := by
  have hchange := recordChange_perform cfg m now o id
  generalize (m.perform cfg now o).1.manager.heap id = f at hchange ⊢
  cases hchange with
  | same hupdate =>
    cases o with
    | call c =>
      cases c with
      | updateFileStatusById i status kwargs =>
        have hne : i ≠ id := by
          rintro rfl
          exact hupdate status kwargs rfl hid
        simp only [Op.attrs, if_neg hne]
        rfl
      | _ => rfl
    | _ => rfl
  | updated => simp only [Op.attrs, if_true, tracker_applyUpdate]
  | found hnew => exact absurd hnew (m.repo.ne_nextId hid)
  | _ => rfl

end Records

/-! ## What a loop holds of its readings -/

namespace CheckPoint

/-- The keyword arguments about growth that a suspended check is going to pass. -/
def pending : CheckPoint → Option (List Attr)
  | startTracking _ currentTime currentSize => some (startTrackingAttrs currentTime currentSize)
  | present c | keepStatus _ c => some c.attrs
  | _ => none

/-- A suspended check is going to recommend `READY`. -/
def recommendsReady (cfg : Settings) : CheckPoint → Bool
  | present c | keepStatus _ c | decide c => c.recommend cfg = .ready
  | _ => false

end CheckPoint

namespace TaskPoint

/-- One of the two loops that read sizes. -/
def isLoop : TaskPoint → Bool
  | scanner _ | monitor _ => true
  | _ => false

/-- The size that is read, and of which record. A file is found with its first reading, which counts
when the record is created. -/
def reads (m : StateManager) (env : Env) : TaskPoint → Option (FileId × ℕ)
  | scanner (.addFile path size _ _) =>
    if m.getActiveFileByPath path = none then some (m.repo.nextId, size) else none
  | scanner (.metadata f _) | scanner (.growthMetadata f _) =>
    env.metadata.map fun (size, _) => (f, size)
  | scanner (.check f .getsize _) | monitor (.check f .getsize _) =>
    env.size.map fun size => (f, size)
  | _ => none

/-- The keyword arguments about growth that the loop is going to pass, and for which record. -/
def pending : TaskPoint → Option (FileId × List Attr)
  | scanner (.sizeChange f _ size lastWriteTime _) =>
    some (f, [.fileSize size, .lastWriteTime lastWriteTime])
  | scanner (.growthFile f info _) =>
    some (f, [.fileSize info.newSize, .growthStableSince info.growthStableSince])
  | scanner (.growthUpdate f _ attrs _) => some (f, attrs)
  | scanner (.check f p _) | monitor (.check f p _) => p.pending.map fun kwargs => (f, kwargs)
  | _ => none

/-- The file for which a growth check is going to recommend `READY`. -/
def recommendsReady (cfg : Settings) : TaskPoint → Option FileId
  | scanner (.check f p _) | monitor (.check f p _) =>
    if p.recommendsReady cfg then some f else none
  | _ => none

/-- The recommended status that the monitor is to write, and of which record. -/
def updates : TaskPoint → Option (FileId × FileStatus)
  | monitor (.update f recommendedStatus _) => some (f, recommendedStatus)
  | _ => none

end TaskPoint

namespace Task

@[inherit_doc TaskPoint.reads]
def reads (m : StateManager) (env : Env) (t : Task) : Option (FileId × ℕ) :=
  match t.phase with
  | .publishing .. => none
  | _ => t.point.reads m env

@[inherit_doc TaskPoint.pending]
def pending (t : Task) : Option (FileId × List Attr) :=
  match t.phase with
  | .awaiting => t.point.pending
  | _ => none

/-- The loop is going to give the record the status `READY`: a check is going to recommend it, it is
the status to write, or its event is being handled. -/
def givesReady (cfg : Settings) (id : FileId) (t : Task) : Bool :=
  t.point.recommendsReady cfg = some id ||
    match t.phase with
    | .awaiting => t.point.updates = some (id, .ready)
    | .publishing e _ => t.point.isLoop && e.fileId = id && e.newStatus = .ready
    | .answered _ => false

end Task

section Steps

variable {cfg : Settings} {view : View} {s : System} {m : StateManager} {now size : ℕ} {env : Env}
variable {id : FileId} {t t' : Task} {kwargs kwargs' : List Attr}

/-- A scan between two paths is about to write nothing. -/
@[simp] lemma pending_nextPath (paths : List FilePath) :
    (TaskPoint.scanner (.nextPath paths)).pending = none := by
  cases paths <;> rfl

/-- A scan between two records is about to write nothing. -/
@[simp] lemma pending_nextFile (ids : List FileId) :
    (TaskPoint.scanner (.nextFile ids)).pending = none := by
  cases ids <;> rfl

/-- A scan that has stored its reading is about to write nothing. -/
@[simp] lemma pending_afterGrowthInfo (heap : FileId → TrackedFile) (f : FileId)
    (rest : List FileId) : (TaskPoint.scanner (.afterGrowthInfo heap f rest)).pending = none := by
  rcases ScannerPoint.afterGrowthInfo_cases heap f rest with h | h <;> rw [h]
  · rfl
  · exact pending_nextFile rest

/-- A monitor between two records is about to write nothing. -/
@[simp] lemma pending_monitorNext (heap : FileId → TrackedFile) (ids : List FileId) :
    (TaskPoint.monitor (.next heap ids)).pending = none := by
  rcases MonitorPoint.next_cases heap ids with h | ⟨f, rest, -, h⟩ <;> rw [h] <;> rfl

/-- The fields a check passes on are those of its last reading. -/
lemma pending_check {q q' : CheckPoint} {a : Answer} {f : FileId}
    (h : q.after cfg view f a = some (.goesOn q')) (hp : q'.pending = some kwargs) :
    q.pending = some kwargs ∧ (∃ c, q = .present c) ∨
      q = .getsize ∧ ∃ n, view.env.size = some n := by
  cases CheckPoint.next_of_after h with
  | sized n hsize => exact .inr ⟨rfl, n, hsize⟩
  | present c => exact .inl ⟨hp, c, rfl⟩
  | _ => cases hp

/-- A check comes to recommend `READY` by its reading. -/
lemma recommendsReady_check {q : CheckPoint} {next : CheckNext} {a : Answer} {f : FileId}
    (h : q.after cfg view f a = some next)
    (hnext : next = .recommends .ready ∨ ∃ q', next = .goesOn q' ∧ q'.recommendsReady cfg = true) :
    q.recommendsReady cfg = true ∨ q = .getsize ∧ ∃ n, view.env.size = some n := by
  cases CheckPoint.next_of_after h with
  | sized n hsize => exact .inr ⟨rfl, n, hsize⟩
  | present c =>
    rcases hnext with hnext | ⟨q', hnext, hready⟩ <;> cases hnext
    exact .inl hready
  | kept st c =>
    rcases hnext with hnext | ⟨q', hnext, hready⟩ <;> cases hnext
    exact .inl hready
  | decides c =>
    rcases hnext with hnext | ⟨q', hnext, -⟩
    · exact .inl (decide_eq_true (CheckNext.recommends.inj hnext))
    · cases hnext
  | lost q a hst =>
    rcases hst with rfl | rfl <;> rcases hnext with hnext | ⟨q', hnext, -⟩ <;> cases hnext
  | tracked => rcases hnext with hnext | ⟨q', hnext, -⟩ <;> cases hnext
  | isThere | started =>
    rcases hnext with hnext | ⟨q', hnext, hready⟩ <;> cases hnext
    cases hready

/-- The fields that the scanner holds after a step without a reading.

**Proof sketch.** The scanner holds fields at four points. It comes to the first two by reading a
size, which is excluded; at the third it has looked the record up and holds what it held; the
fourth is a growth check, by `pending_check`. -/
lemma pending_scanner {p p' : ScannerPoint} {a : Answer} (h : p.after cfg view a = some p')
    (hread : ∀ n, (TaskPoint.scanner p).reads m view.env ≠ some (id, n))
    (hp : (TaskPoint.scanner p').pending = some (id, kwargs')) :
    (∃ kwargs, (TaskPoint.scanner p).pending = some (id, kwargs) ∧
        ∀ f : TrackedFile, (f.setattrs kwargs').tracker = (f.setattrs kwargs).tracker) ∧
      p.op cfg = .getFileById id := by
  cases ScannerPoint.next_of_after h with
  | resizes f size lastWriteTime rest hmeta =>
    cases hp
    exact absurd (by simp [TaskPoint.reads, hmeta]) (hread size)
  | measured f size lastWriteTime rest hmeta =>
    cases hp
    exact absurd (by simp [TaskPoint.reads, hmeta]) (hread size)
  | growthRead f i info rest =>
    cases hp
    exact ⟨⟨_, rfl, fun _ => rfl⟩, rfl⟩
  | checks f q q' rest hcheck =>
    obtain ⟨kwargs, hkwargs, heq⟩ := Option.map_eq_some_iff.mp hp
    cases heq
    rcases pending_check hcheck hkwargs with ⟨hsame, c, rfl⟩ | ⟨rfl, n, hsize⟩
    · refine ⟨⟨kwargs', ?_, fun _ => rfl⟩, rfl⟩
      simp only [TaskPoint.pending, hsame, Option.map_some]
    · exact absurd (by simp [TaskPoint.reads, hsize]) (hread n)
  -- the other points go on without a reading
  | _ => first | cases hp | simp at hp

/-- The fields that a task holds after code without a reading. -/
lemma pending_after {p p' : TaskPoint} {a : Answer} (h : p.after cfg view a = some p')
    (hread : ∀ n, p.reads m view.env ≠ some (id, n)) (hp : p'.pending = some (id, kwargs')) :
    (∃ kwargs, p.pending = some (id, kwargs) ∧
        ∀ f : TrackedFile, (f.setattrs kwargs').tracker = (f.setattrs kwargs).tracker) ∧
      p.op cfg = .getFileById id := by
  cases TaskPoint.next_of_after h with
  | scanner p q hq => exact pending_scanner hq hread hp
  | monitor p q hq =>
    cases MonitorPoint.next_of_after hq with
    | checks f c c' rest hcheck =>
      obtain ⟨kwargs, hkwargs, heq⟩ := Option.map_eq_some_iff.mp hp
      cases heq
      rcases pending_check hcheck hkwargs with ⟨hsame, c, rfl⟩ | ⟨rfl, n, hsize⟩
      · refine ⟨⟨kwargs', ?_, fun _ => rfl⟩, rfl⟩
        simp only [TaskPoint.pending, hsame, Option.map_some]
      · exact absurd (by simp [TaskPoint.reads, hsize]) (hread n)
    | _ => first | cases hp | simp at hp
  | _ => cases hp

/-- A step whose code runs from a point has a reading there, if the point has. -/
lemma reads_eq_of_running {b : Answer} {P : Prop}
    (h : t.phase = .awaiting ∧ P ∨ t.phase = .answered b) (m : StateManager) (env : Env) :
    t.reads m env = t.point.reads m env := by
  rcases h with ⟨hphase, -⟩ | hphase <;> simp only [Task.reads, hphase]

/-- **The fields that a task holds after a step without a reading** are those it held, and the step
has changed no record. -/
lemma pending_goOn (ht : t.Consistent cfg)
    (hgo : t.goOn cfg (s.view (s.perform cfg now (t.nextOp cfg)).1 now env)
      (s.perform cfg now (t.nextOp cfg)).1.published (s.perform cfg now (t.nextOp cfg)).2 = some t')
    (hread : ∀ n, t.reads s.manager env ≠ some (id, n))
    (hp : t'.pending = some (id, kwargs')) :
    ∃ kwargs, t.pending = some (id, kwargs) ∧
      (∀ f : TrackedFile, (f.setattrs kwargs').tracker = (f.setattrs kwargs).tracker) ∧
      t.nextOp cfg = .getFileById id := by
  rcases goOn_cases hgo with ⟨b, p', hafter, rfl, hb⟩ | ⟨e, b, -, rfl, -⟩ | ⟨e, b, -, rfl⟩
  · rw [reads_eq_of_running hb] at hread
    have hp' : p'.pending = some (id, kwargs') := by
      unfold Task.pending at hp
      split at hp
      · exact hp
      · cases hp
    obtain ⟨⟨kwargs, hkwargs, hsame⟩, hop⟩ := pending_after hafter hread hp'
    have hphase : t.phase = .awaiting := awaiting_of_consistent ht (by simp [hop]) (by simp [hop])
    refine ⟨kwargs, ?_, hsame, ?_⟩
    · simp only [Task.pending, hphase, hkwargs]
    · simp only [Task.nextOp, hphase, hop]
  · cases hp
  · cases hp

/-- Only a status update sets attributes. -/
lemma attrs_cases (o : Op) (id : FileId) :
    o.attrs id = [] ∨ ∃ st, o = .call (.updateFileStatusById id st (o.attrs id)) := by
  cases o with
  | call c =>
    cases c with
    | updateFileStatusById i st kw =>
      simp only [Op.attrs]
      split_ifs with hi
      · subst hi
        exact .inr ⟨st, rfl⟩
      · exact .inl rfl
    | _ => exact .inl rfl
  | _ => exact .inl rfl

/-- The updates of the loops and the handlers: the keyword arguments are held, or leave the growth
fields. -/
lemma op_update {p : TaskPoint} {st : FileStatus} (hworker : ∀ q, p ≠ .worker q)
    (hop : p.op cfg = .call (.updateFileStatusById id st kwargs)) :
    p.pending = some (id, kwargs) ∨
      ∀ f : TrackedFile, (f.setattrs kwargs).tracker = f.tracker := by
  cases p with
  | worker q => exact absurd rfl (hworker q)
  | scanner q =>
    cases q with
    | sizeChange f st n lw rest => cases hop; exact .inl rfl
    | growthUpdate f st attrs rest => cases hop; exact .inl rfl
    | check f q rest => cases q <;> cases hop <;> exact .inl rfl
    | ready f q rest => cases q <;> cases hop <;> exact .inr fun _ => rfl
    | _ => cases hop
  | monitor q =>
    cases q with
    | check f q rest => cases q <;> cases hop <;> exact .inl rfl
    | update f st rest => cases hop; exact .inr fun _ => rfl
    | _ => cases hop
  | storage q => cases q <;> cases hop; exact .inr fun _ => rfl
  | retry handle f q => cases q <;> cases hop
  | handleFileReady f q => cases q <;> cases hop <;> exact .inr fun _ => rfl
  | fileReady e => cases hop
  | finished => cases hop

/-- **What a task writes to the growth fields**: what it holds, or nothing. -/
lemma attrs_nextOp (cfg : Settings) (id : FileId) (hworker : ∀ p, t.point ≠ .worker p) :
    (∀ f : TrackedFile, (f.setattrs ((t.nextOp cfg).attrs id)).tracker = f.tracker) ∨
      t.pending = some (id, (t.nextOp cfg).attrs id) := by
  rcases attrs_cases (t.nextOp cfg) id with hnil | ⟨st, hop⟩
  · exact .inl fun f => by rw [hnil]; rfl
  · cases hphase : t.phase with
    | awaiting =>
      have hpoint : t.nextOp cfg = t.point.op cfg := by simp only [Task.nextOp, hphase]
      simp only [Task.pending, hphase]
      exact (op_update hworker (hpoint.symm.trans hop)).symm
    | publishing e a =>
      have hnext : t.nextOp cfg = .call (.updateFileStatusById e.fileId e.newStatus []) := by
        simp only [Task.nextOp, hphase]
      left
      intro f
      rw [hnext]
      simp only [Op.attrs, ite_self]
      rfl
    | answered a =>
      have hnext : t.nextOp cfg = .io := by simp only [Task.nextOp, hphase]
      rw [hnext] at hop
      cases hop

/-- **What becomes of the fields that a task holds** of a stored record: it holds them still, or
writes them.

**Proof sketch.** Only a task that awaits an answer holds fields, so the point decides. Where the
fields are written next, they are the attributes of the operation; where the record is looked up
first, it is found, since it is stored, and the next point holds fields for it. -/
lemma written_or_pending (hid : id ∈ s.manager.files)
    (hgo : t.goOn cfg (s.view (s.perform cfg now (t.nextOp cfg)).1 now env)
      (s.perform cfg now (t.nextOp cfg)).1.published (s.perform cfg now (t.nextOp cfg)).2 = some t')
    (hp : t.pending = some (id, kwargs)) :
    (t.nextOp cfg).attrs id = kwargs ∨ ∃ kwargs', t'.pending = some (id, kwargs') := by
  have hphase : t.phase = .awaiting := by
    unfold Task.pending at hp
    split at hp
    · assumption
    · cases hp
  have hpoint : t.point.pending = some (id, kwargs) := by simpa only [Task.pending, hphase] using hp
  have hop : t.nextOp cfg = t.point.op cfg := by simp only [Task.nextOp, hphase]
  -- the record is stored, so the loop that looks it up goes on
  have hfound : t.nextOp cfg = .getFileById id → ∃ p',
      t.point.after cfg (s.view { manager := s.manager } now env) (.file (some id)) = some p' ∧
        t' = Task.arrive s.manager.heap p' := by
    intro hget
    rw [hget] at hgo
    have hans : s.manager.getFileById id = some id := if_pos hid
    simp only [Task.goOn, hphase, System.perform, perform, hans] at hgo
    obtain ⟨p', hafter, rfl⟩ := Option.map_eq_some_iff.mp hgo
    exact ⟨p', hafter, rfl⟩
  have hwritten : ∀ {st : FileStatus},
      t.nextOp cfg = .call (.updateFileStatusById id st kwargs) →
      (t.nextOp cfg).attrs id = kwargs := by
    intro st hupdate
    rw [hupdate]
    exact if_pos rfl
  rcases hpt : t.point with p | p | p | p | p | p | p | p <;> rw [hpt] at hpoint hop hfound
  · cases p with
    | sizeChange f st n lw rest => cases hpoint; exact .inl (hwritten hop)
    | growthUpdate f st attrs rest => cases hpoint; exact .inl (hwritten hop)
    | growthFile f info rest =>
      cases hpoint
      obtain ⟨p', hafter, rfl⟩ := hfound hop
      cases hafter
      exact .inr ⟨_, rfl⟩
    | check f q rest =>
      cases q <;> cases hpoint
      · exact .inl (hwritten hop)
      · obtain ⟨p', hafter, rfl⟩ := hfound hop
        cases hafter
        exact .inr ⟨_, rfl⟩
      · exact .inl (hwritten hop)
    | _ => cases hpoint
  · cases p with
    | check f q rest =>
      cases q <;> cases hpoint
      · exact .inl (hwritten hop)
      · obtain ⟨p', hafter, rfl⟩ := hfound hop
        cases hafter
        exact .inr ⟨_, rfl⟩
      · exact .inl (hwritten hop)
    | _ => cases hpoint
  all_goals cases hpoint

/-- A scan between two paths does not write READY next. -/
@[simp] lemma givesReady_nextPath (heap : FileId → TrackedFile) (paths : List FilePath) :
    (Task.arrive heap (.scanner (.nextPath paths))).givesReady cfg id = false := by
  cases paths <;> rfl

/-- A scan between two records does not write READY next. -/
@[simp] lemma givesReady_nextFile (heap : FileId → TrackedFile) (ids : List FileId) :
    (Task.arrive heap (.scanner (.nextFile ids))).givesReady cfg id = false := by
  cases ids <;> rfl

/-- A scan that has stored its reading does not write READY next. -/
@[simp] lemma givesReady_afterGrowthInfo (heap : FileId → TrackedFile) (f : FileId)
    (rest : List FileId) :
    (Task.arrive heap (.scanner (.afterGrowthInfo heap f rest))).givesReady cfg id = false := by
  rcases ScannerPoint.afterGrowthInfo_cases heap f rest with h | h <;> rw [h]
  · rfl
  · exact givesReady_nextFile heap rest

/-- A monitor between two records does not write READY next. -/
@[simp] lemma givesReady_monitorNext (heap : FileId → TrackedFile) (ids : List FileId) :
    (Task.arrive heap (.monitor (.next heap ids))).givesReady cfg id = false := by
  rcases MonitorPoint.next_cases heap ids with h | ⟨f, rest, -, h⟩ <;> rw [h] <;> rfl

/-- The scanner comes to give `READY` in the growth check of the file. -/
lemma givesReady_scanner {p p' : ScannerPoint} {a : Answer} (h : p.after cfg view a = some p')
    (hp : (Task.arrive view.heap (.scanner p')).givesReady cfg id = true) :
    ∃ q rest next, p = .check id q rest ∧ q.after cfg view id a = some next ∧
      (next = .recommends .ready ∨ ∃ q', next = .goesOn q' ∧ q'.recommendsReady cfg = true) := by
  cases ScannerPoint.next_of_after h with
  | checks f q q' rest hcheck =>
    have hready : q'.recommendsReady cfg = true ∧ f = id := by
      simpa [Task.givesReady, TaskPoint.recommendsReady, Task.arrive, TaskPoint.publishes,
        ScannerPoint.publishes, TaskPoint.updates] using hp
    obtain ⟨hready, rfl⟩ := hready
    exact ⟨q, rest, _, rfl, hcheck, .inr ⟨q', rfl, hready⟩⟩
  | publishes f q st rest hcheck =>
    have hready : f = id ∧ st = .ready := by
      simpa [Task.givesReady, TaskPoint.recommendsReady, Task.arrive, TaskPoint.publishes,
        ScannerPoint.publishes, TaskPoint.isLoop] using hp
    obtain ⟨rfl, rfl⟩ := hready
    exact ⟨q, rest, _, rfl, hcheck, .inl rfl⟩
  | _ => first | cases hp | simp at hp

/-- **A loop comes to give `READY`** in the growth check of the file.

**Proof sketch.** The scanner is `givesReady_scanner`. The monitor gives READY by an update after
a growth check, or in a check that is about to recommend it; no other task gives a status. -/
lemma givesReady_after {p p' : TaskPoint} {a : Answer} (h : p.after cfg view a = some p')
    (hp : (Task.arrive view.heap p').givesReady cfg id = true) :
    ∃ q rest next, (p = .scanner (.check id q rest) ∨ p = .monitor (.check id q rest)) ∧
      q.after cfg view id a = some next ∧
      (next = .recommends .ready ∨ ∃ q', next = .goesOn q' ∧ q'.recommendsReady cfg = true) := by
  cases TaskPoint.next_of_after h with
  | scanner p q hq =>
    obtain ⟨q, rest, next, rfl, hnext, hready⟩ := givesReady_scanner hq hp
    exact ⟨q, rest, next, .inl rfl, hnext, hready⟩
  | monitor p q hq =>
    cases MonitorPoint.next_of_after hq with
    | checks f c c' rest hcheck =>
      have hready : c'.recommendsReady cfg = true ∧ f = id := by
        simpa [Task.givesReady, TaskPoint.recommendsReady, Task.arrive, TaskPoint.publishes,
          TaskPoint.updates] using hp
      obtain ⟨hready, rfl⟩ := hready
      exact ⟨c, rest, _, .inr rfl, hcheck, .inr ⟨c', rfl, hready⟩⟩
    | updates f c st rest hcheck =>
      have hready : f = id ∧ st = .ready := by
        simpa [Task.givesReady, TaskPoint.recommendsReady, Task.arrive, TaskPoint.publishes,
          TaskPoint.updates] using hp
      obtain ⟨rfl, rfl⟩ := hready
      exact ⟨c, rest, _, .inr rfl, hcheck, .inl rfl⟩
    | _ => first | cases hp | simp at hp
  | _ => cases hp

/-- The status that a task writes is `READY` only if it gives it, or holds fields to write.

**Proof sketch.** A task that publishes gives the status of its event. One that awaits an answer
writes the status of its point: with fields, which it then holds, or as the monitor's update,
which is a status it gives. The other writes are of other statuses. -/
lemma givesReady_of_writes (hloop : t.point.isLoop = true)
    (hw : (t.nextOp cfg).writes id = some .ready) :
    t.givesReady cfg id = true ∨ ∃ kwargs, t.pending = some (id, kwargs) := by
  cases hphase : t.phase with
  | publishing e a =>
    simp only [Task.nextOp, hphase, Op.writes] at hw
    split_ifs at hw with he
    left
    simp [Task.givesReady, hphase, hloop, he, Option.some.inj hw]
  | answered a =>
    simp only [Task.nextOp, hphase] at hw
    cases hw
  | awaiting =>
    simp only [Task.nextOp, hphase] at hw
    simp only [Task.givesReady, Task.pending, hphase]
    have hupdate : ∀ {f : FileId} {st : FileStatus} {kw : List Attr},
        (Op.call (.updateFileStatusById f st kw)).writes id = some .ready →
        f = id ∧ st = .ready := by
      intro f st kw h
      simp only [Op.writes] at h
      split_ifs at h with hf
      exact ⟨hf, Option.some.inj h⟩
    cases hpt : t.point with
    | scanner p =>
      rw [hpt] at hw
      right
      cases p with
      | sizeChange f st n lw rest => obtain ⟨rfl, -⟩ := hupdate hw; exact ⟨_, rfl⟩
      | growthUpdate f st attrs rest => obtain ⟨rfl, -⟩ := hupdate hw; exact ⟨_, rfl⟩
      | check f q rest =>
        cases q with
        | startTracking st n k => obtain ⟨rfl, -⟩ := hupdate hw; exact ⟨_, rfl⟩
        | keepStatus st c => obtain ⟨rfl, -⟩ := hupdate hw; exact ⟨_, rfl⟩
        | _ => cases hw
      | ready f q rest =>
        cases q with
        | added => exact absurd (hupdate hw).2 (by decide)
        | park => exact absurd (hupdate hw).2 (by decide)
        | _ => cases hw
      | _ => cases hw
    | monitor p =>
      rw [hpt] at hw
      cases p with
      | check f q rest =>
        right
        cases q with
        | startTracking st n k => obtain ⟨rfl, -⟩ := hupdate hw; exact ⟨_, rfl⟩
        | keepStatus st c => obtain ⟨rfl, -⟩ := hupdate hw; exact ⟨_, rfl⟩
        | _ => cases hw
      | update f st rest =>
        obtain ⟨rfl, rfl⟩ := hupdate hw
        left
        simp [TaskPoint.updates]
      | _ => cases hw
    | _ => rw [hpt] at hloop; cases hloop

/-- An operation publishes the status it writes to a stored record, if it is another one than that
of the record. -/
lemma writes_of_published {o : Op} {e : FileStatusChangedEvent}
    (h : (s.perform cfg now o).1.published = some e) :
    o.writes e.fileId = some e.newStatus ∧ e.fileId ∈ s.manager.files ∧
      (s.manager.heap e.fileId).status ≠ e.newStatus := by
  rw [perform_fst] at h
  obtain ⟨-, hw⟩ := published_perform h
  refine ⟨hw, ?_⟩
  cases o with
  | call c =>
    cases c with
    | updateFileStatusById i st kw =>
      simp only [perform, call, published_updateFileStatusById] at h
      split_ifs at h with hne
      cases h
      exact hne
    | _ => cases hw
  | _ => cases hw

/-- **How a loop comes to give `READY`** in a step without a reading of the record: it was going to
give it already, or it writes it now.

**Proof sketch.** If the coroutine went on, `givesReady_after` names the growth check it was in,
and the check recommended READY before this step, since the step reads no size. If the task
publishes now, it has just written the status of its event. If it has published, it was giving the
status before. -/
lemma givesReady_goOn
    (hgo : t.goOn cfg (s.view (s.perform cfg now (t.nextOp cfg)).1 now env)
      (s.perform cfg now (t.nextOp cfg)).1.published (s.perform cfg now (t.nextOp cfg)).2 = some t')
    (hread : ∀ n, t.reads s.manager env ≠ some (id, n)) (h : t'.givesReady cfg id = true) :
    t.givesReady cfg id = true ∨ t.point.isLoop = true ∧
      (t.nextOp cfg).writes id = some .ready ∧ (s.manager.heap id).status ≠ .ready := by
  have hpoint : t.point.recommendsReady cfg = some id → t.givesReady cfg id = true := by
    intro hr
    simp [Task.givesReady, hr]
  rcases goOn_cases hgo with ⟨b, p', hafter, rfl, hb⟩ | ⟨e, b, hpub, rfl, -⟩ | ⟨e, b, -, rfl⟩
  · left
    apply hpoint
    rw [reads_eq_of_running hb] at hread
    obtain ⟨q, rest, next, hq, hnext, hready⟩ := givesReady_after hafter h
    rcases recommendsReady_check hnext hready with hr | ⟨rfl, n, hsize⟩
    · rcases hq with hq | hq <;> simp [hq, TaskPoint.recommendsReady, hr]
    · have hreads : t.point.reads s.manager env = some (id, n) := by
        have hsize' : env.size = some n := hsize
        rcases hq with hq | hq <;> simp [hq, TaskPoint.reads, hsize']
      exact absurd hreads (hread n)
  · simp only [Task.givesReady, Bool.or_eq_true, Bool.and_eq_true, decide_eq_true_eq] at h
    rcases h with hr | ⟨⟨hloop, rfl⟩, hst⟩
    · exact .inl (hpoint hr)
    · obtain ⟨hw, -, hne⟩ := writes_of_published hpub
      rw [hst] at hw hne
      exact .inr ⟨hloop, hw, hne⟩
  · simp only [Task.givesReady, Bool.or_false, decide_eq_true_eq] at h
    exact .inl (hpoint h)

/-- The points at which the size of a stored record is read. -/
lemma reads_cases {p : TaskPoint} (hid : id ∈ m.files) (h : p.reads m env = some (id, size)) :
    (∃ rest lw, p = .scanner (.metadata id rest) ∧ env.metadata = some (size, lw)) ∨
      (∃ rest lw, p = .scanner (.growthMetadata id rest) ∧ env.metadata = some (size, lw)) ∨
      ∃ rest, (p = .scanner (.check id .getsize rest) ∨ p = .monitor (.check id .getsize rest)) ∧
        env.size = some size := by
  unfold TaskPoint.reads at h
  split at h
  · split_ifs at h
    cases h
    exact absurd hid fun hmem => m.repo.ne_nextId hmem rfl
  · obtain ⟨r, hr, heq⟩ := Option.map_eq_some_iff.mp h
    cases heq
    exact .inl ⟨_, r.2, rfl, hr⟩
  · obtain ⟨r, hr, heq⟩ := Option.map_eq_some_iff.mp h
    cases heq
    exact .inr (.inl ⟨_, r.2, rfl, hr⟩)
  · obtain ⟨n, hn, heq⟩ := Option.map_eq_some_iff.mp h
    cases heq
    exact .inr (.inr ⟨_, .inl rfl, hn⟩)
  · obtain ⟨n, hn, heq⟩ := Option.map_eq_some_iff.mp h
    cases heq
    exact .inr (.inr ⟨_, .inr rfl, hn⟩)
  · cases h

/-- A check that recommends `READY` has not found its file larger, and has found it stable since
the time-out at least. -/
lemma recommend_growthCheck {f : TrackedFile} {last : ℕ}
    (h : (growthCheck f last now size).recommend cfg = .ready) :
    ¬ f.fileSize < size ∧ ∃ u ∈ (f.tracker.read now size).since, u + cfg.growthTimeout ≤ now := by
  obtain ⟨hgrows, hstable, -⟩ := (GrowthCheck.recommend_eq_ready_iff _ _).mp h
  have hnot : ¬ f.fileSize < size := of_decide_eq_false hgrows
  refine ⟨hnot, ?_⟩
  have hsince : (growthCheck f last now size).growthStableSince =
      f.growthStableSince.or (some now) := if_neg hnot
  have hread : (f.tracker.read now size).since = f.growthStableSince.or (some now) := if_neg hnot
  simp only [GrowthCheck.isStable, hsince] at hstable
  rw [hread]
  cases hf : f.growthStableSince with
  | none =>
    rw [hf] at hstable
    exact ⟨now, rfl, of_decide_eq_true hstable⟩
  | some u =>
    rw [hf] at hstable
    exact ⟨u, rfl, of_decide_eq_true hstable⟩

/-- A step whose code runs from a point that awaits no call. -/
lemma goOn_of_io (hop : t.point.op cfg = .io) (hphase : ∀ e a, t.phase ≠ .publishing e a)
    (hgo : t.goOn cfg (s.view (s.perform cfg now (t.nextOp cfg)).1 now env)
      (s.perform cfg now (t.nextOp cfg)).1.published (s.perform cfg now (t.nextOp cfg)).2 =
        some t') :
    (s.perform cfg now (t.nextOp cfg)).1.manager = s.manager ∧ ∃ b p',
      t.point.after cfg (s.view { manager := s.manager } now env) b = some p' ∧
        t' = Task.arrive s.manager.heap p' := by
  have hio : t.nextOp cfg = .io := by
    cases hp : t.phase with
    | publishing e a => exact absurd hp (hphase e a)
    | awaiting => simp only [Task.nextOp, hp, hop]
    | answered a => simp only [Task.nextOp, hp]
  rw [hio] at hgo ⊢
  refine ⟨rfl, ?_⟩
  rcases goOn_cases hgo with ⟨b, p', hafter, rfl, -⟩ | ⟨e, b, hpub, -, -⟩ | ⟨e, b, hpub, -⟩
  · exact ⟨b, p', hafter, rfl⟩
  · cases hpub
  · exact absurd hpub (hphase e b)

/-- The point at which the scanner looks for changes of a file it knows. -/
def TaskPoint.checksExisting : TaskPoint → Bool
  | .scanner (.metadata _ _) => true
  | _ => false

/-- The fields that a task comes to hold by a reading of the record: with a time of its own, or as a
tracker reads. The check for changes holds the size alone, and only a new one. -/
def Task.HoldsReading (f : TrackedFile) (id : FileId) (now size : ℕ) (t t' : Task) : Prop :=
  (t.point.checksExisting = true ∧ size = f.fileSize ∧ t'.pending = none) ∨
    ∃ kwargs, t'.pending = some (id, kwargs) ∧
      (t.point.checksExisting = true ∧ (f.setattrs kwargs).tracker = ⟨size, f.growthStableSince⟩ ∨
        (f.setattrs kwargs).tracker = ⟨size, some now⟩ ∨
        (f.setattrs kwargs).tracker = f.tracker.read now size)

/-- A task that arrives between two paths is about to write nothing. -/
lemma pending_arrive_nextPath (heap : FileId → TrackedFile) (paths : List FilePath) :
    (Task.arrive heap (.scanner (.nextPath paths))).pending = none := by
  cases paths <;> rfl

/-- What a growth check holds after its reading. -/
lemma sized_cases (cfg : Settings) (view : View) (f : FileId) (size : ℕ) :
    (∃ kwargs, (CheckPoint.sized view f size).pending = some kwargs ∧
      (((view.heap f).setattrs kwargs).tracker = ⟨size, some view.now⟩ ∨
        ((view.heap f).setattrs kwargs).tracker = (view.heap f).tracker.read view.now size)) ∧
      ((CheckPoint.sized view f size).recommendsReady cfg = true →
        ¬ (view.heap f).fileSize < size ∧
          ∃ u ∈ ((view.heap f).tracker.read view.now size).since,
            u + cfg.growthTimeout ≤ view.now) := by
  unfold CheckPoint.sized
  cases (view.heap f).lastGrowthCheck with
  | none => exact ⟨⟨_, rfl, .inl rfl⟩, fun h => by cases h⟩
  | some last =>
    exact ⟨⟨_, rfl, .inr rfl⟩, fun h => recommend_growthCheck (of_decide_eq_true h)⟩

/-- **What a reading of a stored record does**: the record stays, and the task holds the reading.
If it is going to give `READY`, the size has not risen, and not for the time-out.

**Proof sketch.** The three readings are those of `reads_cases`. Each is made while the task
awaits an input, so no record changes. A scan that reads the size of a known file goes on only if
the size differs; its second reading leads to the fields of the growth info; the reading of a
growth check is the one `sized_cases` describes, and only there a recommendation of READY can
follow. -/
theorem reads_goOn (hid : id ∈ s.manager.files)
    (hgo : t.goOn cfg (s.view (s.perform cfg now (t.nextOp cfg)).1 now env)
      (s.perform cfg now (t.nextOp cfg)).1.published (s.perform cfg now (t.nextOp cfg)).2 = some t')
    (hread : t.reads s.manager env = some (id, size)) :
    (s.perform cfg now (t.nextOp cfg)).1.manager = s.manager ∧ t.pending = none ∧
      t.HoldsReading (s.manager.heap id) id now size t' ∧
      ∀ j, t'.givesReady cfg j = true → j = id ∧ ¬ (s.manager.heap id).fileSize < size ∧
        ∃ u ∈ ((s.manager.heap id).tracker.read now size).since, u + cfg.growthTimeout ≤ now := by
  have hphase : ∀ e a, t.phase ≠ .publishing e a := by
    intro e a hp
    simp only [Task.reads, hp] at hread
    cases hread
  have hpoint : t.point.reads s.manager env = some (id, size) := by
    unfold Task.reads at hread
    split at hread
    · cases hread
    · exact hread
  have hnone : t.point.pending = none → t.pending = none := by
    intro hp
    unfold Task.pending
    split
    · exact hp
    · rfl
  rcases reads_cases hid hpoint with ⟨rest, lw, hp, hmeta⟩ | ⟨rest, lw, hp, hmeta⟩ |
    ⟨rest, hp, hsize⟩
  · obtain ⟨hsame, b, p', hafter, rfl⟩ := goOn_of_io (by rw [hp]; rfl) hphase hgo
    refine ⟨hsame, hnone (by rw [hp]; rfl), ?_⟩
    rw [hp] at hafter
    obtain ⟨q, hq, rfl⟩ := Option.map_eq_some_iff.mp hafter
    have hmeta' : (s.view { manager := s.manager } now env).env.metadata = some (size, lw) := hmeta
    cases b <;> simp only [ScannerPoint.after, hmeta', Option.some.injEq] at hq <;> try cases hq
    split_ifs with hne
    · refine ⟨.inr ⟨_, rfl, .inl ⟨by rw [hp]; rfl, rfl⟩⟩, fun j hj => ?_⟩
      cases hj
    · refine ⟨.inl ⟨by rw [hp]; rfl, not_not.mp hne, pending_arrive_nextPath _ rest⟩, ?_⟩
      intro j hj
      rw [givesReady_nextPath] at hj
      cases hj
  · obtain ⟨hsame, b, p', hafter, rfl⟩ := goOn_of_io (by rw [hp]; rfl) hphase hgo
    refine ⟨hsame, hnone (by rw [hp]; rfl), ?_⟩
    rw [hp] at hafter
    obtain ⟨q, hq, rfl⟩ := Option.map_eq_some_iff.mp hafter
    have hmeta' : (s.view { manager := s.manager } now env).env.metadata = some (size, lw) := hmeta
    cases b <;> simp only [ScannerPoint.after, hmeta', Option.some.injEq] at hq <;> try cases hq
    exact ⟨.inr ⟨_, rfl, .inr (.inr rfl)⟩, fun j hj => by cases hj⟩
  · have hop : t.point.op cfg = .io := by rcases hp with hp | hp <;> rw [hp] <;> rfl
    obtain ⟨hsame, b, p', hafter, rfl⟩ := goOn_of_io hop hphase hgo
    refine ⟨hsame, hnone (by rcases hp with hp | hp <;> rw [hp] <;> rfl), ?_⟩
    set view := s.view { manager := s.manager } now env
    obtain ⟨⟨kwargs, hkwargs, htracker⟩, hready⟩ := sized_cases cfg view id size
    have hsize' : view.env.size = some size := hsize
    have hp' : p' = .scanner (.check id (.sized view id size) rest) ∨
        p' = .monitor (.check id (.sized view id size) rest) := by
      rcases hp with hp | hp <;> rw [hp] at hafter <;> cases b <;>
        simp only [TaskPoint.after, ScannerPoint.after, MonitorPoint.after, CheckPoint.after,
          hsize', Option.map_some, Option.map_none, Option.some.injEq] at hafter <;>
        try cases hafter
      · exact .inl rfl
      · exact .inr rfl
    have hpending : (Task.arrive s.manager.heap p').pending = some (id, kwargs) := by
      rcases hp' with rfl | rfl <;>
        simp [Task.pending, Task.arrive, TaskPoint.publishes, ScannerPoint.publishes,
          TaskPoint.pending, hkwargs]
    refine ⟨.inr ⟨kwargs, hpending, .inr htracker⟩, fun j hj => ?_⟩
    have hgives : CheckPoint.recommendsReady cfg (.sized view id size) = true ∧ id = j := by
      rcases hp' with rfl | rfl <;>
        simpa [Task.givesReady, TaskPoint.recommendsReady, Task.arrive, TaskPoint.publishes,
          ScannerPoint.publishes, TaskPoint.updates] using hj
    exact ⟨hgives.2.symm, hready hgives.1⟩

end Steps

end FileAgent

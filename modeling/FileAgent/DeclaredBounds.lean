import FileAgent.CopySpeed
import FileAgent.GrowthReadings

set_option relaxedAutoImplicit false
set_option autoImplicit false

/-!
# The declared bounds of a record

The fields of `TrackedFile` are declared with bounds, but the assignments of
`update_file_status_by_id` are not validated. The growth rate is made of the difference of two sizes
of a file, the progress is the quotient of two sizes read at different times, and the copy speed is
made of the bytes of two chunks, which need not be of the same file. Sizes themselves are natural
numbers.

The system is the one of all services, together with the attributes `_copy_start_time` and
`_copy_start_bytes` of the one `GrowingFileCopyStrategy`, from which the speeds are computed. A read
returns at most as many bytes as it asked for.

## Main definitions

* `TrackedFile.InBounds` — the bounds that are declared.
* `StrategySystem`, `strategySystemStep` — the system.
* `ReadingsHold` — the condition on a step: no file is found smaller than it was first seen, or than
  what has been copied of it, and no chunk is the end of fewer bytes than the first one of all.
* `BoundsInv` — the invariant.

## Main results

* `growthRate_nonneg_iff`, `copyRatio_le_iff`, `copySpeedMbps_nonneg_iff` — when the values are in
  bounds.
* `boundsInv_step` — the step lemma.
* `inBounds_of_readingsHold` — the bounds hold in the runs whose steps meet the condition.
* `shrunk_file_out_of_bounds`, `replaced_file_out_of_bounds` — runs in which they do not.
-/

namespace FileAgent

open Transition StateManager

/-! ## The bounds -/

/-- The bounds that are declared for the fields. -/
structure TrackedFile.InBounds (f : TrackedFile) : Prop where
  fileSize : 0 ≤ f.fileSize
  growthRateMbps : 0 ≤ f.growthRateMbps
  copyProgress : 0 ≤ f.copyProgress ∧ f.copyProgress ≤ 100
  bytesCopied : 0 ≤ f.bytesCopied
  copySpeedMbps : 0 ≤ f.copySpeedMbps

instance (f : TrackedFile) : Decidable f.InBounds :=
  decidable_of_iff (0 ≤ f.growthRateMbps ∧ (0 ≤ f.copyProgress ∧ f.copyProgress ≤ 100) ∧
      0 ≤ f.copySpeedMbps)
    ⟨fun h => ⟨Nat.zero_le _, h.1, h.2.1, Nat.zero_le _, h.2.2⟩,
      fun h => ⟨h.growthRateMbps, h.copyProgress, h.copySpeedMbps⟩⟩

/-- The value is within the bounds of its field. -/
def Attr.InBounds : Attr → Prop
  | .copyProgress q => 0 ≤ q ∧ q ≤ 100
  | .growthRateMbps q | .copySpeedMbps q => 0 ≤ q
  | _ => True

/-! ## The system -/

/-- The system, with the attributes of the strategy that all copies share. -/
structure StrategySystem where
  system : System
  /-- The two attributes, once the strategy has them. -/
  copyStart : Option CopyStart := none

/-- `datetime.now()`, in seconds. -/
def currentTime (now : ℕ) : ℚ := now / 1000000

/-- `bytes_copied` of a copy whose connectivity check passes in this step. -/
def Task.connecting (env : Env) (t : Task) : Option ℕ :=
  match t.point, env.copyAnswer with
  | .worker (.copy _ _ (.connectivity _ r)), .connected _ => some r.bytesCopied
  | _, _ => none

/-- A read of a copy returns at most the bytes it asked for. -/
def Task.readFits (cfg : Settings) (env : Env) (t : Task) : Bool :=
  match t.point with
  | .worker (.copy _ _ p) => p.readFits cfg env.copyAnswer
  | _ => true

namespace StrategySystem

variable (w : StrategySystem) (now : ℕ)

/-- The attributes when a chunk has brought a copy to `bytesCopied`. -/
def startOf (bytesCopied : ℕ) : CopyStart := w.copyStart.getD ⟨currentTime now, bytesCopied⟩

/-- The speed of a chunk is not for the environment to say. -/
def withSpeed (env : Env) : Option ℕ → Env
  | some bytesCopied =>
    { env with copyAnswer :=
        .connected ((w.startOf now bytesCopied).copySpeedMbps (currentTime now) bytesCopied) }
  | none => env

/-- The attributes after a step. -/
def startAfter : Option ℕ → Option CopyStart
  | some bytesCopied => some (w.startOf now bytesCopied)
  | none => w.copyStart

end StrategySystem

/-- One step. -/
def strategySystemStep (cfg : Settings) (w : StrategySystem) : SystemAction → Option StrategySystem
  | .run i now env =>
    match w.system.tasks[i]? with
    | none => none
    | some t =>
      if t.readFits cfg env then
        (systemStep cfg w.system (.run i now (w.withSpeed now env (t.connecting env)))).map fun s =>
          { system := s, copyStart := w.startAfter now (t.connecting env) }
      else none
  | a => (systemStep cfg w.system a).map fun s => { w with system := s }

/-- The start. -/
def StrategySystem.start (n : ℕ) : StrategySystem := { system := .start n }

/-! ## The condition -/

/-- A file that is checked again, after some time, has at least the size it was first seen with. -/
def TrackedFile.NotShrunk (f : TrackedFile) (now size : ℕ) : Prop :=
  ∀ last ∈ f.lastGrowthCheck, last < now → f.firstSeenSize ≤ size

instance (f : TrackedFile) (now size : ℕ) : Decidable (f.NotShrunk now size) :=
  inferInstanceAs (Decidable (∀ last ∈ f.lastGrowthCheck, last < now → f.firstSeenSize ≤ size))

/-- The locals of the loop at a size check, and the size it finds. -/
def CopyPoint.sizeCheck? : CopyPoint → CopyAnswer → Option (LoopVars × ℕ)
  | .loopSize v, .size n => some (v, n)
  | _, _ => none

/-- A size check of the loop finds at least the bytes that are copied, or an empty file, unless the
growth has ended. -/
def CopyPoint.NotOvertaken (p : CopyPoint) (a : CopyAnswer) : Prop :=
  ∀ c ∈ p.sizeCheck? a,
    (c.1.observe c.2).fileFinishedGrowing = true ∨ c.1.bytesCopied ≤ c.2 ∨ c.2 = 0

instance (p : CopyPoint) (a : CopyAnswer) : Decidable (p.NotOvertaken a) :=
  inferInstanceAs (Decidable (∀ c ∈ p.sizeCheck? a,
    (c.1.observe c.2).fileFinishedGrowing = true ∨ c.1.bytesCopied ≤ c.2 ∨ c.2 = 0))

/-- The sizes that a task reads in this step. -/
def TaskPoint.SizesHold (heap : FileId → TrackedFile) (now : ℕ) (env : Env) : TaskPoint → Prop
  | .scanner (.growthMetadata f _) => ∀ r ∈ env.metadata, (heap f).NotShrunk now r.1
  | .scanner (.check f .getsize _) | .monitor (.check f .getsize _) =>
    ∀ size ∈ env.size, (heap f).NotShrunk now size
  | .worker (.copy _ _ p) => p.NotOvertaken env.copyAnswer
  | _ => True

instance (heap : FileId → TrackedFile) (now : ℕ) (env : Env) (p : TaskPoint) :
    Decidable (p.SizesHold heap now env) := by
  unfold TaskPoint.SizesHold
  split <;> infer_instance

/-- A chunk is not the end of fewer bytes than the first chunk that the strategy has copied, unless
no time has passed since. -/
def StrategySystem.ChunkHolds (w : StrategySystem) (now : ℕ) (t : Task) (env : Env) : Prop :=
  ∀ bytesCopied ∈ t.connecting env, ∀ start ∈ w.copyStart,
    start.time < currentTime now → start.bytes ≤ bytesCopied

instance (w : StrategySystem) (now : ℕ) (t : Task) (env : Env) :
    Decidable (w.ChunkHolds now t env) :=
  inferInstanceAs (Decidable (∀ bytesCopied ∈ t.connecting env, ∀ start ∈ w.copyStart,
    start.time < currentTime now → start.bytes ≤ bytesCopied))

/-- The condition on a step. -/
def ReadingsHold (w : StrategySystem) : SystemAction → Prop
  | .run i now env => ∀ t ∈ w.system.tasks[i]?,
      t.point.SizesHold w.system.manager.heap now env ∧ w.ChunkHolds now t env
  | _ => True

instance (w : StrategySystem) : (a : SystemAction) → Decidable (ReadingsHold w a)
  | .run i now env => inferInstanceAs (Decidable (∀ t ∈ w.system.tasks[i]?,
      t.point.SizesHold w.system.manager.heap now env ∧ w.ChunkHolds now t env))
  | .createQueue => .isTrue trivial
  | .subscribe => .isTrue trivial

/-! ## When the values are in bounds -/

section Values

/-- **The growth rate** is negative exactly for a file smaller than it was first seen. -/
lemma growthRate_nonneg_iff {f : TrackedFile} {last now size : ℕ} (h : last < now) :
    0 ≤ growthRate f last now size ↔ f.firstSeenSize ≤ size := by
  have htime : (0 : ℚ) < ((now : ℚ) - last) / 1000000 := by
    have hlt : (last : ℚ) < now := by exact_mod_cast h
    exact div_pos (sub_pos.mpr hlt) (by norm_num)
  unfold growthRate
  rw [le_div_iff₀ htime, zero_mul, le_div_iff₀ (by norm_num), zero_mul, sub_nonneg, Nat.cast_le]

/-- **The progress** is above 100 exactly for a source that is smaller than what is copied of it,
but not empty. -/
lemma copyRatio_le_iff {bytesCopied size : ℕ} :
    copyRatio bytesCopied size ≤ 100 ↔ bytesCopied ≤ size ∨ size = 0 := by
  unfold copyRatio
  split_ifs with h
  · have hpos : (0 : ℚ) < size := by exact_mod_cast h
    have hsize : size ≠ 0 := h.ne'
    rw [or_iff_left hsize, mul_le_iff_le_one_left (by norm_num), div_le_one hpos, Nat.cast_le]
  · simp only [Nat.not_lt, Nat.le_zero] at h
    simp [h]

/-- A copy ratio is not negative. -/
lemma copyRatio_nonneg (bytesCopied size : ℕ) : 0 ≤ copyRatio bytesCopied size := by
  unfold copyRatio
  split_ifs <;> positivity

/-- **The copy speed** is negative exactly for fewer bytes than at the start, if time has passed. -/
lemma copySpeedMbps_nonneg_iff {start : CopyStart} {time : ℚ} {bytesCopied : ℕ} :
    0 ≤ start.copySpeedMbps time bytesCopied ↔
      (start.time < time → start.bytes ≤ bytesCopied) := by
  unfold CopyStart.copySpeedMbps calculateTransferRate
  rw [le_div_iff₀ (by norm_num), zero_mul]
  split_ifs with h
  · exact iff_of_true le_rfl fun hlt => absurd hlt (not_lt.mpr (sub_nonpos.mp h))
  · have hpos : 0 < time - start.time := not_le.mp h
    rw [le_div_iff₀ hpos, zero_mul, imp_iff_right (sub_pos.mp hpos)]
    push_cast
    rw [sub_nonneg, Nat.cast_le]

end Values

/-! ## The assignments of an update -/

section Records

variable {cfg : Settings} {m : StateManager} {f : TrackedFile} {now : ℕ} {o : Op} {id : FileId}
  {status : FileStatus} {kwargs : List Attr}

/-- Attributes within their bounds keep a record within its bounds. -/
lemma inBounds_setattrs (hf : f.InBounds) (h : ∀ a ∈ kwargs, a.InBounds) :
    (f.setattrs kwargs).InBounds := by
  induction kwargs generalizing f with
  | nil => exact hf
  | cons a kwargs ih =>
    refine ih (f := f.setattr a) ?_ fun b hb => h b (List.mem_cons_of_mem a hb)
    have ha : a.InBounds := h a List.mem_cons_self
    obtain ⟨hsize, hrate, hprogress, hbytes, hspeed⟩ := hf
    cases a with
    | copyProgress q => exact ⟨hsize, hrate, ha, hbytes, hspeed⟩
    | growthRateMbps q => exact ⟨hsize, ha, hprogress, hbytes, hspeed⟩
    | copySpeedMbps q => exact ⟨hsize, hrate, hprogress, hbytes, ha⟩
    | fileSize n => exact ⟨Nat.zero_le n, hrate, hprogress, hbytes, hspeed⟩
    | bytesCopied n => exact ⟨hsize, hrate, hprogress, Nat.zero_le n, hspeed⟩
    | _ => exact ⟨hsize, hrate, hprogress, hbytes, hspeed⟩

/-- An update with values in bounds. -/
lemma inBounds_applyUpdate (hf : f.InBounds) (h : ∀ a ∈ kwargs, a.InBounds) :
    (f.applyUpdate now status kwargs).InBounds := by
  have hset : ∀ g : TrackedFile, g.InBounds → (g.setattrs kwargs).InBounds :=
    fun g hg => inBounds_setattrs hg h
  obtain ⟨hsize, hrate, hprogress, hbytes, hspeed⟩ := hf
  have hstatus := hset { f with status := status } ⟨hsize, hrate, hprogress, hbytes, hspeed⟩
  have hcleared := hset { f with status := status, retryInfo := none }
    ⟨hsize, hrate, hprogress, hbytes, hspeed⟩
  simp only [TrackedFile.applyUpdate]
  split_ifs
  all_goals
    first
    | exact ⟨hstatus.1, hstatus.2, hstatus.3, hstatus.4, hstatus.5⟩
    | exact ⟨hcleared.1, hcleared.2, hcleared.3, hcleared.4, hcleared.5⟩

/-- **The bounds after an operation** whose values are in bounds. -/
lemma inBounds_perform (h : ∀ id, (m.heap id).InBounds)
    (ho : ∀ id, ∀ a ∈ o.attrs id, a.InBounds) (id : FileId) :
    ((m.perform cfg now o).1.manager.heap id).InBounds := by
  obtain ⟨hsize, hrate, hprogress, hbytes, hspeed⟩ := h id
  have hchange := recordChange_perform cfg m now o id
  generalize (m.perform cfg now o).1.manager.heap id = f at hchange ⊢
  cases hchange with
  | updated =>
    refine inBounds_applyUpdate (h id) fun a ha => ho id a ?_
    simpa only [Op.attrs, if_true] using ha
  | found =>
    exact ⟨Nat.zero_le _, le_rfl, ⟨le_rfl, by simp [TrackedFile.found]⟩, le_rfl, le_rfl⟩
  | _ => exact ⟨hsize, hrate, hprogress, hbytes, hspeed⟩

end Records

/-! ## What a task holds -/

/-- The values that a suspended growth check holds. -/
def CheckPoint.InBounds : CheckPoint → Prop
  | .present c | .keepStatus _ c => 0 ≤ c.growthRate
  | _ => True

/-- A range ends within the size it was made for. -/
def RangeVars.InBounds (r : RangeVars) : Prop := r.bytesCopied + r.bytesToCopy ≤ r.currentFileSize

/-- The values that a suspended copy holds. -/
def CopyPoint.InBounds : CopyPoint → Prop
  | .openSource _ r | .read _ r | .connectivity _ r | .pause _ r => r.InBounds
  | .write _ r chunk => r.InBounds ∧ chunk.length ≤ r.bytesToCopy
  | .progress _ r copySpeedMbps => r.InBounds ∧ 0 ≤ copySpeedMbps
  | .growthUpdate v n => v.bytesCopied ≤ n ∨ n = 0
  | _ => True

/-- The values that a task holds. -/
def TaskPoint.InBounds : TaskPoint → Prop
  | .scanner (.growthFile _ info _) => 0 ≤ info.growthRate
  | .scanner (.growthUpdate _ _ attrs _) => ∀ a ∈ attrs, a.InBounds
  | .scanner (.check _ p _) | .monitor (.check _ p _) => p.InBounds
  | .worker (.copy _ _ p) => p.InBounds
  | _ => True

section Points

variable {cfg : Settings} {view : View} {a : Answer} {f : FileId}

/-- The growth rate that a check makes of a size. -/
lemma growthCheck_inBounds {f : TrackedFile} {last now size : ℕ} (hf : f.InBounds)
    (hlast : last ∈ f.lastGrowthCheck) (h : f.NotShrunk now size) :
    0 ≤ (growthCheck f last now size).growthRate := by
  simp only [growthCheck]
  split_ifs with hlt
  · exact (growthRate_nonneg_iff hlt).mpr (h last hlast hlt)
  · exact hf.growthRateMbps

/-- The growth rate that an update of the growth info makes of a size. -/
lemma growthInfo_inBounds {f : TrackedFile} {now size : ℕ} (hf : f.InBounds)
    (h : f.NotShrunk now size) : 0 ≤ (growthInfo f now size).growthRate := by
  simp only [growthInfo]
  split
  · rename_i last hlast
    split_ifs with hlt
    · exact (growthRate_nonneg_iff hlt.2).mpr (h last hlast hlt.2)
    · exact hf.growthRateMbps
  · exact hf.growthRateMbps

/-- A growth check goes on with values in bounds. -/
lemma inBounds_check {q q' : CheckPoint} (hq : q.InBounds) (hf : (view.heap f).InBounds)
    (hread : q = .getsize → ∀ size ∈ view.env.size, (view.heap f).NotShrunk view.now size)
    (h : q.after cfg view f a = some (.goesOn q')) : q'.InBounds := by
  cases CheckPoint.next_of_after h with
  | sized size hsize =>
    unfold CheckPoint.sized
    split
    · trivial
    · rename_i last hlast
      exact growthCheck_inBounds hf hlast (hread rfl size hsize)
  | present c => exact hq
  | _ => trivial

/-- The end of the loop carries values within their bounds. -/
lemma inBounds_loopEnd (v : LoopVars) (n : ℕ) : (CopyPoint.loopEnd v n).InBounds := by
  rcases CopyPoint.loopEnd_cases v n with ⟨h, -⟩ | ⟨h, -⟩ | ⟨h, -⟩ <;> rw [h] <;> trivial

/-- The head of the inner loop carries values within their bounds. -/
lemma inBounds_rangeHead {v : LoopVars} {r : RangeVars} (hr : r.InBounds) :
    (CopyPoint.rangeHead v r).InBounds := by
  rcases CopyPoint.rangeHead_cases v r with ⟨h, -⟩ | ⟨h, -⟩ <;> rw [h]
  · exact hr
  · exact inBounds_loopEnd _ _

/-- An iteration of the loop, from its size check on. -/
lemma inBounds_loopRound {v : LoopVars} {n : ℕ}
    (hread : (CopyPoint.loopSize v).NotOvertaken (.size n)) :
    (CopyPoint.loopRound v n).InBounds := by
  have hbytes := CopyPoint.observe_bytesCopied v n
  unfold CopyPoint.loopRound
  dsimp only
  split
  · have hto : (v.observe n).safeCopyTo n ≤ n := by
      unfold LoopVars.safeCopyTo
      split_ifs
      · exact le_rfl
      · exact Nat.sub_le _ _
    simp only [CopyPoint.InBounds, RangeVars.InBounds]
    omega
  · split
    · rename_i hgrowing
      rcases hread (v, n) rfl with hended | hle
      · rw [hended] at hgrowing
        cases hgrowing
      · rw [← hbytes] at hle
        exact hle
    · exact inBounds_loopEnd _ _

/-- A copy goes on with values in bounds. -/
lemma inBounds_resume {heap : FileId → TrackedFile} {q q' : CopyPoint} {b : CopyAnswer}
    (hq : q.InBounds) (hfits : q.readFits cfg b = true) (hread : q.NotOvertaken b)
    (hspeed : ∀ v r speed, q = .connectivity v r → b = .connected speed → 0 ≤ speed)
    (h : q.resume cfg heap b = some q') : q'.InBounds := by
  cases CopyPoint.next_of_resume h with
  | polled _ hto => rcases hto with rfl | rfl <;> trivial
  | sized v n => exact inBounds_loopRound hread
  | openedSource v r => exact inBounds_rangeHead hq
  | readNothing v r => exact inBounds_loopEnd _ _
  | readChunk v r chunk _ => exact ⟨hq, (of_decide_eq_true hfits).trans (min_le_right _ _)⟩
  | wroteChunk v r chunk =>
    obtain ⟨hr, hle⟩ := hq
    simp only [CopyPoint.InBounds, RangeVars.InBounds, CopyPoint.wrote] at hr ⊢
    omega
  | connected v r speed => exact ⟨hq, hspeed v r speed rfl rfl⟩
  | pausing v r speed _ => exact hq.1
  | reported v r speed => exact inBounds_rangeHead hq.1
  | paused v r => exact inBounds_rangeHead hq
  | updated v n => exact inBounds_loopEnd v n
  | _ => trivial

/-- The answer a copy gets is the one of the environment, or one of the state manager. -/
lemma copyAnswer_cases {env : Env} {req : CopyRequest} {b : CopyAnswer}
    (h : WorkerPoint.copyAnswer env req a = some b) :
    b = env.copyAnswer ∨ b = .done ∨ (∃ i, b = .found i) ∨ ∃ present, b = .stored present := by
  unfold WorkerPoint.copyAnswer at h
  split at h
  case h_1 => exact .inr (.inr (.inl ⟨_, (Option.some.inj h).symm⟩))
  case h_2 => exact .inr (.inr (.inr ⟨_, (Option.some.inj h).symm⟩))
  case h_3 => exact .inr (.inl (Option.some.inj h).symm)
  case h_7 => exact .inl (Option.some.inj h).symm
  all_goals cases h

/-- An answer of the state manager is not one to a read or a size check. -/
lemma readFits_and_notOvertaken (cfg : Settings) (q : CopyPoint) {b : CopyAnswer}
    (hb : b = .done ∨ (∃ i, b = .found i) ∨ ∃ present, b = .stored present) :
    q.readFits cfg b = true ∧ q.NotOvertaken b ∧ ∀ speed, b ≠ .connected speed := by
  rcases hb with rfl | ⟨i, rfl⟩ | ⟨present, rfl⟩
  all_goals
    refine ⟨?_, ?_, fun _ h => by cases h⟩
    · cases q <;> rfl
    · intro c hc
      cases q <;> cases hc

/-- A worker goes on with values in bounds. -/
lemma inBounds_worker {p p' : WorkerPoint} (hp : (TaskPoint.worker p).InBounds)
    (hread : (TaskPoint.worker p).SizesHold view.heap view.now view.env)
    (hfits : ∀ job dest q, p = .copy job dest q → q.readFits cfg view.env.copyAnswer = true)
    (hspeed : ∀ job dest v r speed, p = .copy job dest (.connectivity v r) →
      view.env.copyAnswer = .connected speed → 0 ≤ speed)
    (h : p.after cfg view a = some p') : (TaskPoint.worker p').InBounds := by
  cases WorkerPoint.next_of_after h with
  | copies job dest q q' b hb hq' =>
    have hnext : q'.InBounds := by
      rcases copyAnswer_cases hb with rfl | hmanager
      · exact inBounds_resume hp (hfits job dest q rfl) hread
          (fun v r speed hq hb => hspeed job dest v r speed (by rw [hq]) hb) hq'
      · obtain ⟨hfits', hread', hne⟩ := readFits_and_notOvertaken cfg q hmanager
        exact inBounds_resume hp hfits' hread' (fun _ _ speed _ hb => absurd hb (hne speed)) hq'
    rcases WorkerPoint.afterCopy_cases view job dest q' with hc | hc | hc | ⟨_, _, -, hc⟩ <;>
      rw [hc]
    · exact hnext
    all_goals trivial
  | _ => trivial

/-- A scan between two paths carries no value. -/
@[simp] lemma inBounds_nextPath (paths : List FilePath) :
    (TaskPoint.scanner (.nextPath paths)).InBounds := by
  cases paths <;> trivial

/-- A scan between two records carries no value. -/
@[simp] lemma inBounds_nextFile (ids : List FileId) :
    (TaskPoint.scanner (.nextFile ids)).InBounds := by
  cases ids <;> trivial

/-- A scan that has stored its reading carries no value. -/
@[simp] lemma inBounds_afterGrowthInfo (heap : FileId → TrackedFile) (f : FileId)
    (rest : List FileId) : (TaskPoint.scanner (.afterGrowthInfo heap f rest)).InBounds := by
  rcases ScannerPoint.afterGrowthInfo_cases heap f rest with h | h <;> rw [h]
  · trivial
  · exact inBounds_nextFile rest

/-- The scanner goes on with values in bounds. -/
lemma inBounds_scanner {p p' : ScannerPoint} (hp : (TaskPoint.scanner p).InBounds)
    (hheap : ∀ id, (view.heap id).InBounds)
    (hread : (TaskPoint.scanner p).SizesHold view.heap view.now view.env)
    (h : p.after cfg view a = some p') : (TaskPoint.scanner p').InBounds := by
  cases ScannerPoint.next_of_after h with
  | measured f size lastWriteTime rest hmeta =>
    exact growthInfo_inBounds (hheap f) (hread (size, lastWriteTime) hmeta)
  | growthRead f i info rest =>
    -- the growth rate is the only value with bounds
    intro b hb
    simp only [GrowthInfo.attrs, List.mem_cons, List.not_mem_nil, or_false] at hb
    rcases hb with rfl | rfl | rfl | rfl | rfl | rfl <;> first | exact hp | trivial
  | checks f q q' rest hcheck =>
    refine inBounds_check hp (hheap f) (fun hq => ?_) hcheck
    subst hq
    exact hread
  | _ => first | trivial | simp

/-- **A task goes on with values in bounds**, if the sizes it reads hold and the speed is in
bounds.

**Proof sketch.** By cases on the task. The scanner, the checks of the monitor and the workers
have lemmas of their own; the other tasks carry no values. -/
lemma inBounds_after {p p' : TaskPoint} (hp : p.InBounds) (hheap : ∀ id, (view.heap id).InBounds)
    (hread : p.SizesHold view.heap view.now view.env)
    (hfits : ∀ job dest q, p = .worker (.copy job dest q) →
      q.readFits cfg view.env.copyAnswer = true)
    (hspeed : ∀ job dest v r speed, p = .worker (.copy job dest (.connectivity v r)) →
      view.env.copyAnswer = .connected speed → 0 ≤ speed)
    (h : p.after cfg view a = some p') : p'.InBounds := by
  cases TaskPoint.next_of_after h with
  | scanner p q hq => exact inBounds_scanner hp hheap hread hq
  | monitor p q hq =>
    have hnext : ∀ ids, (TaskPoint.monitor (.next view.heap ids)).InBounds := by
      intro ids
      rcases MonitorPoint.next_cases view.heap ids with hp | ⟨f, rest, -, hp⟩ <;>
        rw [hp] <;> trivial
    cases MonitorPoint.next_of_after hq with
    | listed | checked | updated => exact hnext _
    | checks f c c' rest hcheck =>
      refine inBounds_check hp (hheap f) (fun hc => ?_) hcheck
      subst hc
      exact hread
    | _ => trivial
  | worker p q hq =>
    exact inBounds_worker hp hread (fun job dest q hp => hfits job dest q (by rw [hp]))
      (fun job dest v r speed hp => hspeed job dest v r speed (by rw [hp])) hq
  | _ => trivial

/-- The values of an update. -/
lemma attrs_update {i id : FileId} {status : FileStatus} {kwargs : List Attr}
    (h : ∀ b ∈ kwargs, b.InBounds) :
    ∀ b ∈ (Op.call (.updateFileStatusById i status kwargs)).attrs id, b.InBounds := by
  intro b hb
  simp only [Op.attrs] at hb
  split_ifs at hb
  · exact h b hb
  · cases hb

/-- The progress that a copy writes. -/
lemma copyProgress_inBounds {bytesCopied size : ℕ} (h : bytesCopied ≤ size ∨ size = 0) :
    (Attr.copyProgress (copyRatio bytesCopied size)).InBounds :=
  ⟨copyRatio_nonneg bytesCopied size, copyRatio_le_iff.mpr h⟩

/-- The values that a copy writes. -/
lemma attrs_copy {path : FilePath} {dest : String} {q : CopyPoint} (hq : q.InBounds)
    (id : FileId) :
    ∀ b ∈ (WorkerPoint.copyOp path (q.request cfg dest)).attrs id, b.InBounds := by
  cases q with
  | progress v r speed =>
    obtain ⟨hr, hspeed⟩ := hq
    have hle : r.bytesCopied ≤ r.currentFileSize := le_of_add_le_left hr
    refine attrs_update fun b hb => ?_
    simp only [List.mem_cons, List.not_mem_nil, or_false] at hb
    rcases hb with rfl | rfl | rfl | rfl
    · exact copyProgress_inBounds (.inl hle)
    · trivial
    · trivial
    · exact hspeed
  | growthUpdate v n =>
    refine attrs_update fun b hb => ?_
    simp only [List.mem_cons, List.not_mem_nil, or_false] at hb
    rcases hb with rfl | rfl | rfl
    · exact copyProgress_inBounds hq
    · trivial
    · trivial
  | markCompleted file => exact attrs_update (by simp [Attr.InBounds])
  | _ => exact fun b hb => by cases hb

/-- The values that a growth check writes. -/
lemma attrs_check {q : CheckPoint} (hq : q.InBounds) (id : FileId) :
    ∀ b ∈ (q.op f).attrs id, b.InBounds := by
  cases q with
  | startTracking st n k => exact attrs_update (by simp [startTrackingAttrs, Attr.InBounds])
  | keepStatus st c =>
    have hrate : 0 ≤ c.growthRate := hq
    exact attrs_update (by simp [GrowthCheck.attrs, Attr.InBounds, hrate])
  | _ => exact fun b hb => by cases hb

/-- The values that a worker writes. -/
lemma attrs_worker {p : WorkerPoint} (hp : (TaskPoint.worker p).InBounds) (id : FileId) :
    ∀ b ∈ (p.op cfg).attrs id, b.InBounds := by
  cases p with
  | copy job dest q => exact attrs_copy hp id
  | getNextJob => exact fun b hb => by cases hb
  | incrementRetryCount job check => exact fun b hb => by cases hb
  | scheduleRetry job check temporary => exact fun b hb => by cases hb
  | _ => exact attrs_update (by simp [Attr.InBounds])

/-- The values that the scanner writes. -/
lemma attrs_scanner {p : ScannerPoint} (hp : (TaskPoint.scanner p).InBounds) (id : FileId) :
    ∀ b ∈ (p.op cfg).attrs id, b.InBounds := by
  cases p with
  | sizeChange g st n lastWriteTime rest => exact attrs_update (by simp [Attr.InBounds])
  | growthUpdate g st attrs rest => exact attrs_update hp
  | check g q rest => exact attrs_check hp id
  | ready g q rest =>
    cases q with
    | added => exact attrs_update (by simp)
    | park => exact attrs_update (by simp [Attr.InBounds])
    | _ => exact fun b hb => by cases hb
  | _ => exact fun b hb => by cases hb

/-- **What a task writes** is in bounds.

**Proof sketch.** By cases on the point. What a scan, a check and a worker write is what they
carry (`attrs_scanner`, `attrs_check`, `attrs_worker`); every other write sets constants or
nothing. -/
lemma attrs_inBounds {t : Task} (h : t.point.InBounds) (id : FileId) :
    ∀ b ∈ (t.nextOp cfg).attrs id, b.InBounds := by
  unfold Task.nextOp
  split
  · cases hp : t.point with
    | scanner p => exact attrs_scanner (hp ▸ h) id
    | monitor p =>
      rw [hp] at h
      cases p with
      | check g q rest => exact attrs_check h id
      | update g st rest => exact attrs_update (by simp)
      | _ => exact fun b hb => by cases hb
    | worker p => exact attrs_worker (hp ▸ h) id
    | storage p =>
      cases p with
      | release g rest => exact attrs_update (by simp [Attr.InBounds])
      | _ => exact fun b hb => by cases hb
    | handleFileReady g q =>
      cases q with
      | added => exact attrs_update (by simp)
      | park => exact attrs_update (by simp [Attr.InBounds])
      | _ => exact fun b hb => by cases hb
    | retry handle g q => cases q <;> exact fun b hb => by cases hb
    | _ => exact fun b hb => by cases hb
  · exact attrs_update (by simp)
  · exact fun b hb => by cases hb

end Points

/-! ## The invariant -/

/-- The invariant: the values of all records are in bounds, and those that the tasks hold. -/
structure BoundsInv (w : StrategySystem) : Prop where
  records : ∀ id, (w.system.manager.heap id).InBounds
  tasks : ∀ t ∈ w.system.tasks, t.point.InBounds

section Invariant

variable {cfg : Settings} {w w' : StrategySystem} {i now : ℕ} {env : Env} {t : Task}

/-- **A step** is one of the system, with the speed of the strategy. -/
lemma strategySystemStep_run (h : strategySystemStep cfg w (.run i now env) = some w') :
    ∃ t, w.system.tasks[i]? = some t ∧ t.readFits cfg env = true ∧
      systemStep cfg w.system (.run i now (w.withSpeed now env (t.connecting env))) =
        some w'.system := by
  simp only [strategySystemStep] at h
  split at h
  · cases h
  · rename_i t ht
    split_ifs at h with hfits
    obtain ⟨s, hs, rfl⟩ := Option.map_eq_some_iff.mp h
    exact ⟨t, ht, hfits, hs⟩

/-- Actions outside a task are steps of the system without the strategies. -/
lemma systemStep_of_strategySystemStep {a : SystemAction} (h : strategySystemStep cfg w a = some w')
    (ha : ∀ i now env, a ≠ .run i now env) : systemStep cfg w.system a = some w'.system := by
  unfold strategySystemStep at h
  split at h
  · exact absurd rfl (ha _ _ _)
  · obtain ⟨s, hs, rfl⟩ := Option.map_eq_some_iff.mp h
    exact hs

/-- The environment of a step is as given, but for the speed of a copy whose connectivity check
passes. -/
lemma withSpeed_cases (w : StrategySystem) (now : ℕ) (env : Env) (t : Task) :
    w.withSpeed now env (t.connecting env) = env ∧
        (∀ job dest v r speed, t.point = .worker (.copy job dest (.connectivity v r)) →
          env.copyAnswer ≠ .connected speed) ∨
      ∃ job dest v r, t.point = .worker (.copy job dest (.connectivity v r)) ∧
        t.connecting env = some r.bytesCopied := by
  unfold Task.connecting
  split
  · rename_i job dest v r speed hp hb
    exact .inr ⟨job, dest, v, r, hp, rfl⟩
  · rename_i hne
    exact .inl ⟨rfl, fun job dest v r speed hp hb => hne job dest v r speed hp hb⟩

/-- The sizes that a task reads are compared with the records as they are before the step. -/
lemma sizesHold_of_op {p : TaskPoint} {heap heap' : FileId → TrackedFile}
    (h : p.SizesHold heap now env) (hop : p.op cfg = .io → heap' = heap) :
    p.SizesHold heap' now env := by
  cases p with
  | scanner p =>
    cases p with
    | growthMetadata f rest => rw [hop rfl]; exact h
    | check f q rest =>
      cases q with
      | getsize => rw [hop rfl]; exact h
      | _ => trivial
    | _ => trivial
  | monitor p =>
    cases p with
    | check f q rest =>
      cases q with
      | getsize => rw [hop rfl]; exact h
      | _ => trivial
    | _ => trivial
  | worker p =>
    cases p with
    | copy job dest q => exact h
    | _ => trivial
  | _ => trivial

/-- A task whose step meets the condition goes on with values in bounds.

**Proof sketch.** The task is at the same point as before, or the coroutine went on from an
answer. The answer is the one given, within its bounds by `inBounds_after`, or that of the
connectivity check of a copy; there the speed is the new value, and it is not negative because no
chunk is older than the first one. -/
lemma inBounds_goOn {m : StateManager} {view : View} {published : Option FileStatusChangedEvent}
    {a : Answer} {t' : Task} (ht : t.point.InBounds) (hheap : ∀ id, (view.heap id).InBounds)
    (hview : view.heap = (m.perform cfg now (t.nextOp cfg)).1.manager.heap)
    (hnow : view.now = now) (henv : view.env = w.withSpeed now env (t.connecting env))
    (hfits : t.readFits cfg env = true) (hsizes : t.point.SizesHold m.heap now env)
    (hchunk : w.ChunkHolds now t env) (hgo : t.goOn cfg view published a = some t') :
    t'.point.InBounds := by
  rcases point_goOn hgo with hsame | ⟨b, hafter, hphase⟩
  · rwa [hsame]
  · have hheap' : t.point.op cfg = .io → view.heap = m.heap := by
      intro hop
      rw [hview]
      rcases hphase with ⟨hphase, -⟩ | hphase <;> simp only [Task.nextOp, hphase, hop] <;> rfl
    have hread : t.point.SizesHold view.heap now env := sizesHold_of_op hsizes hheap'
    rcases withSpeed_cases w now env t with ⟨hsame, hne⟩ | ⟨job, dest, v, r, hp, hconnecting⟩
    · rw [hsame] at henv
      refine inBounds_after ht hheap (by rwa [hnow, henv]) (fun job dest q hp => ?_)
        (fun job dest v r speed hp hb => ?_) hafter
      · rw [henv]
        simpa only [Task.readFits, hp] using hfits
      · rw [henv] at hb
        exact absurd hb (hne job dest v r speed hp)
    · -- the connectivity check of a copy passes
      have hspeed : 0 ≤ (w.startOf now r.bytesCopied).copySpeedMbps (currentTime now)
          r.bytesCopied := by
        rw [copySpeedMbps_nonneg_iff]
        intro hlt
        unfold StrategySystem.startOf at hlt ⊢
        cases hstart : w.copyStart with
        | none => exact le_rfl
        | some start =>
          rw [hstart] at hlt
          exact hchunk _ hconnecting start hstart hlt
      rw [hconnecting] at henv
      have hnone : t.point.SizesHold view.heap view.now view.env := by
        rw [hp]
        intro c hc
        cases hc
      refine inBounds_after ht hheap hnone (fun job' dest' q hp' => ?_)
        (fun _ _ _ _ speed _ hb => ?_) hafter
      · rw [hp] at hp'
        cases hp'
        rfl
      · rw [henv] at hb
        cases hb
        exact hspeed

/-- **The step lemma.**

**Proof sketch.** The records are in bounds after the operation, by `attrs_inBounds` and
`inBounds_perform`, so the task goes on with values in bounds, by `inBounds_goOn`. Tasks that are
created carry no values. -/
lemma boundsInv_run (h : BoundsInv w) (hok : ReadingsHold w (.run i now env))
    (hs : strategySystemStep cfg w (.run i now env) = some w') : BoundsInv w' := by
  obtain ⟨t, ht, hfits, hstep⟩ := strategySystemStep_run hs
  obtain ⟨hsizes, hchunk⟩ := hok t ht
  have htask : t.point.InBounds := h.tasks t (List.mem_of_getElem? ht)
  obtain ⟨t₀, t', ht₀, -, hgo, hw'⟩ := systemStep_run hstep
  obtain rfl : t = t₀ := Option.some.inj (ht.symm.trans ht₀)
  have hrecords : ∀ id,
      ((w.system.manager.perform cfg now (t.nextOp cfg)).1.manager.heap id).InBounds :=
    inBounds_perform h.records (attrs_inBounds htask)
  have hperform : (w.system.perform cfg now (t.nextOp cfg)).1 =
      (w.system.manager.perform cfg now (t.nextOp cfg)).1 := perform_fst _
  rw [hperform] at hgo hw'
  have hnext : t'.point.InBounds :=
    inBounds_goOn htask hrecords rfl rfl rfl hfits hsizes hchunk hgo
  constructor
  · rw [hw']
    exact hrecords
  · rw [hw']
    intro u hu
    rcases mem_tasks_step hu with rfl | rfl | hnew | ⟨j, -, hj⟩
    · exact hnext
    · trivial
    · rcases created_perform_cases hnew with ⟨e, rfl⟩ | ⟨path, rfl⟩ | ⟨f, rfl⟩ <;> trivial
    · exact h.tasks u (List.mem_of_getElem? hj)

/-- One step keeps all values within their bounds, if its readings hold. -/
lemma boundsInv_step {a : SystemAction} (h : BoundsInv w) (hok : ReadingsHold w a)
    (hs : strategySystemStep cfg w a = some w') : BoundsInv w' := by
  by_cases ha : ∀ i now env, a ≠ .run i now env
  · obtain ⟨hmanager, htasks, -⟩ :=
      systemStep_of_ne_run (systemStep_of_strategySystemStep hs ha) ha
    exact ⟨hmanager ▸ h.records, htasks ▸ h.tasks⟩
  · push Not at ha
    obtain ⟨i, now, env, rfl⟩ := ha
    exact boundsInv_run h hok hs

/-- At the start no value is stored. -/
lemma boundsInv_start (n : ℕ) : BoundsInv (.start n) where
  records := fun id => ⟨le_rfl, le_rfl, ⟨le_rfl, by simp [StrategySystem.start, System.start,
    FileRepository.empty]⟩, le_rfl, le_rfl⟩
  tasks := by
    intro t ht
    simp only [StrategySystem.start, System.start, List.cons_append, List.nil_append,
      List.mem_cons, List.mem_replicate] at ht
    rcases ht with rfl | rfl | rfl | ⟨-, rfl⟩ <;> trivial

end Invariant

/-! ## Runs -/

section Runs

variable {cfg : Settings} {n : ℕ} {w : StrategySystem}
  {tr : List (StrategySystem × SystemAction)}

/-- **The declared bounds hold** in the runs whose steps all meet the condition.

**Proof sketch.** What is written to a record was computed from a size in an earlier section, and is
held by the task until then; the invariant is about both. -/
theorem inBounds_of_readingsHold (hrun : Run (strategySystemStep cfg) (.start n) tr w)
    (hok : Meets ReadingsHold tr) :
    ∀ id ∈ w.system.manager.files, (w.system.manager.heap id).InBounds := by
  have hinv : BoundsInv w := hrun.invariant hok (boundsInv_start n)
    fun _ _ _ h hok hs => boundsInv_step h hok hs
  exact fun id _ => hinv.records id

/-- A file has grown between two scans, and a worker copies it with these answers. -/
def copyGrownFile (answers : List CopyAnswer) : List SystemAction :=
  startUp ++ discoverFile 10 ++ checkStability 0 10 10 ++ secondScan.dropLast ++
    [.run 0 30000000 { metadata := some (12, none) }, .run 0 30000000 {}] ++
    checkStability 30000000 12 12 ++ scannerHandles ++
    answers.map fun a => .run 3 30000000 { copyAnswer := a }

/-- The file goes on growing while it is copied: a chunk of two bytes is written and reported, a
size check finds 100 megabytes and two bytes, and a third byte is written. -/
def grownTwice : List SystemAction :=
  copyGrownFile
    [.done, .done, .done, .done, .size 104857600, .done, .done, .done, .done, .size 104857600,
      .done, .data [1, 2], .done, .connected 0, .done, .done, .data [], .done, .done,
      .size 104857602, .done, .data [3], .done, .connected 0, .done]

/-- An instance of `inBounds_of_readingsHold`: a file that grows before and during its copy. -/
theorem inBounds_grownTwice :
    ∃ w, Run (strategySystemStep {}) (.start 1)
        (traceOf (strategySystemStep {}) (.start 1) grownTwice) w ∧
      0 ∈ w.system.manager.files ∧ (w.system.manager.heap 0).status = .growingCopy ∧
      (w.system.manager.heap 0).bytesCopied = 3 ∧
      (w.system.manager.heap 0).fileSize = 104857602 ∧ (w.system.manager.heap 0).InBounds := by
  obtain ⟨w, hrun, hw⟩ := exists_run_of_replay (strategySystemStep {}) (.start 1) grownTwice
    (fun w => decide (0 ∈ w.system.manager.files ∧
      (w.system.manager.heap 0).status = .growingCopy ∧ (w.system.manager.heap 0).bytesCopied = 3 ∧
      (w.system.manager.heap 0).fileSize = 104857602)) (by decide +kernel)
  obtain ⟨hmem, hstatus, hbytes, hsize⟩ := of_decide_eq_true hw
  have hok : Meets ReadingsHold (traceOf (strategySystemStep {}) (.start 1) grownTwice) := by
    decide +kernel
  exact ⟨w, hrun, hmem, hstatus, hbytes, hsize, inBounds_of_readingsHold hrun hok 0 hmem⟩

/-- A file of ten bytes that has four half a minute later. -/
def shrunkFile : List SystemAction :=
  startUp ++ discoverFile 10 ++ checkStability 0 10 10 ++ secondScan ++
    checkStability 30000000 4 4

/-- The growth rate of a file that shrinks is negative. -/
theorem shrunk_file_out_of_bounds :
    ¬ ∀ (cfg : Settings) (n : ℕ) (tr : List (StrategySystem × SystemAction)) (w : StrategySystem),
      Run (strategySystemStep cfg) (.start n) tr w →
        ∀ id ∈ w.system.manager.files, (w.system.manager.heap id).InBounds := by
  intro h
  obtain ⟨w, hrun, hw⟩ := exists_run_of_replay (strategySystemStep {}) (.start 1) shrunkFile
    (fun w => decide (0 ∈ w.system.manager.files ∧
      (w.system.manager.heap 0).growthRateMbps < 0)) (by decide +kernel)
  obtain ⟨hmem, hneg⟩ := of_decide_eq_true hw
  exact absurd (h {} 1 _ w hrun 0 hmem).growthRateMbps (not_le.mpr hneg)

/-- A file that has grown is copied as a growing one. Its source is replaced by a file of one byte
when two bytes are copied. -/
def replacedFile : List SystemAction :=
  copyGrownFile
    [.done, .done, .done, .done, .size 104857600, .done, .done, .done, .done, .size 104857600,
      .done, .data [1, 2], .done, .connected 0, .done, .done, .data [], .done, .done, .size 1,
      .done]

/-- The progress of its copy is 200 per cent. -/
theorem replaced_file_out_of_bounds :
    ∃ w, Run (strategySystemStep {}) (.start 1)
        (traceOf (strategySystemStep {}) (.start 1) replacedFile) w ∧
      0 ∈ w.system.manager.files ∧ (w.system.manager.heap 0).copyProgress = 200 := by
  obtain ⟨w, hrun, hw⟩ := exists_run_of_replay (strategySystemStep {}) (.start 1) replacedFile
    (fun w => decide (0 ∈ w.system.manager.files ∧ (w.system.manager.heap 0).copyProgress = 200))
    (by decide +kernel)
  exact ⟨w, hrun, of_decide_eq_true hw⟩

end Runs

end FileAgent

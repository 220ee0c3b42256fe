import FileAgent.CopyIntegrity

set_option relaxedAutoImplicit false
set_option autoImplicit false

/-!
# The copy speed

The calls of `copy_file` all go through one `GrowingFileCopyStrategy`, whose attributes
`_copy_start_time` and `_copy_start_bytes` are set by the first chunk that any of them copies and
never again. The system is any number of calls, each with its own two files (`CopyWorld`), the two
attributes and a clock that does not run backwards. Each chunk that is followed by a successful
connectivity check gives a reading, the `copy_speed_mbps` that `_copy_chunk_range` publishes and
records. Numbers are exact.

## Main definitions

* `calculateTransferRate`, `CopyStart.copySpeedMbps` — the speed of a reading.
* `SpeedWorld`, `SpeedAction`, `speedStep` — the system.
* `SpeedPerFile` — the readings of a call are a matter of that call alone.

## Main results

* `speed_eq_copySpeedMbps` — all readings are measured from the first reading of the strategy.
* `speedsOf_of_first` — so the readings of the call that made it are its own.
* `speedPerFile_iff` — no call that has readings has them to itself.
-/

namespace FileAgent

open Transition

/-! ## The system -/

/-- `calculate_transfer_rate`. -/
def calculateTransferRate (bytesCopied : ℤ) (elapsedSeconds : ℚ) : ℚ :=
  if elapsedSeconds ≤ 0 then 0 else bytesCopied / elapsedSeconds

/-- `_copy_start_time` and `_copy_start_bytes`. -/
structure CopyStart where
  time : ℚ
  bytes : ℕ

/-- `copy_speed_mbps`, at `current_time` and with `bytes_copied`. -/
def CopyStart.copySpeedMbps (start : CopyStart) (currentTime : ℚ) (bytesCopied : ℕ) : ℚ :=
  calculateTransferRate (bytesCopied - start.bytes) (currentTime - start.time) / (1024 * 1024)

/-- A speed that was published and recorded, with the call it is about. -/
structure SpeedReading where
  call : ℕ
  bytesCopied : ℕ
  time : ℚ
  copySpeedMbps : ℚ

/-- A call of `copy_file`, with the time it was made. -/
structure CopyCall where
  started : ℚ
  world : CopyWorld

/-- The strategy and the calls of its `copy_file`, by their numbers; the newest reading comes last.
-/
structure SpeedWorld where
  /-- The two attributes, once the strategy has them. -/
  copyStart : Option CopyStart := none
  clock : ℚ
  calls : ℕ → Option CopyCall := fun _ => none
  readings : List SpeedReading := []

/-- `copy_file` is called, a call takes a step, or its connectivity check passes and the code goes
on at `current_time`. -/
inductive SpeedAction
  | call (i : ℕ) (now : ℚ) (file : FileId) (source dest : List UInt8)
  | copy (i : ℕ) (act : CopyAction)
  | connected (i : ℕ) (currentTime : ℚ) (heap : FileId → TrackedFile)

/-- The number of the call. -/
def SpeedAction.number : SpeedAction → ℕ
  | .call i .. | .copy i _ | .connected i .. => i

/-- The connectivity check passes. Which speed that gives is not for the environment to say. -/
def CopyAction.isConnected : CopyAction → Bool
  | .answer _ (.connected _) => true
  | _ => false

/-- One step. -/
def speedStep (cfg : Settings) (destPath : ℕ → String) (w : SpeedWorld) :
    SpeedAction → Option SpeedWorld
  | .call i now file source dest =>
    if w.clock ≤ now ∧ (w.calls i).isNone then
      some
        { w with
          clock := now
          calls := Function.update w.calls i (some ⟨now, .start file source dest⟩) }
    else none
  | .copy i act =>
    if act.isConnected then none
    else
      (w.calls i).bind fun c =>
        (copyWorldStep cfg (destPath i) c.world act).map fun world =>
          { w with calls := Function.update w.calls i (some { c with world := world }) }
  | .connected i currentTime heap =>
    if w.clock ≤ currentTime then
      (w.calls i).bind fun c =>
        match c.world.point with
        | .connectivity _ r =>
          let start := w.copyStart.getD ⟨currentTime, r.bytesCopied⟩
          let speed := start.copySpeedMbps currentTime r.bytesCopied
          (copyWorldStep cfg (destPath i) c.world (.answer heap (.connected speed))).map
            fun world =>
              { copyStart := some start
                clock := currentTime
                calls := Function.update w.calls i (some { c with world := world })
                readings := w.readings ++ [⟨i, r.bytesCopied, currentTime, speed⟩] }
        | _ => none
    else none

/-- The strategy is created. -/
def SpeedWorld.start (clock : ℚ) : SpeedWorld := { clock := clock }

/-! ## The readings of a call -/

/-- The chunks of a call that gave a reading: `bytes_copied` after it, and the time. -/
def SpeedWorld.chunksOf (i : ℕ) (w : SpeedWorld) : List (ℕ × ℚ) :=
  (w.readings.filter (·.call = i)).map fun r => (r.bytesCopied, r.time)

/-- The speeds that were published and recorded for a call. -/
def SpeedWorld.speedsOf (i : ℕ) (w : SpeedWorld) : List ℚ :=
  (w.readings.filter (·.call = i)).map (·.copySpeedMbps)

/-- The action, if it is one of the call. -/
def SpeedAction.of? (i : ℕ) (act : SpeedAction) : Option SpeedAction :=
  if act.number = i then some act else none

/-- All that happened to a call: when it was made, what its operations came to, and when its chunks
were copied. -/
def ownActions (i : ℕ) (tr : List (SpeedWorld × SpeedAction)) : List SpeedAction :=
  (tr.map Prod.snd).filterMap (SpeedAction.of? i)

/-- **Speed per file**: the speeds of a call are the same in every run in which the same happened to
it, whatever else is copied; none is negative; and each is the bytes copied by the time since the
call was made. -/
structure SpeedPerFile (cfg : Settings) (destPath : ℕ → String) (i : ℕ)
    (tr : List (SpeedWorld × SpeedAction)) (w : SpeedWorld) : Prop where
  ownOnly : ∀ {clock : ℚ} {tr' : List (SpeedWorld × SpeedAction)} {w' : SpeedWorld},
    Run (speedStep cfg destPath) (.start clock) tr' w' → ownActions i tr' = ownActions i tr →
      w'.speedsOf i = w.speedsOf i
  nonneg : ∀ speed ∈ w.speedsOf i, 0 ≤ speed
  rate : ∀ c, w.calls i = some c → ∀ r ∈ w.readings, r.call = i →
    r.copySpeedMbps = calculateTransferRate r.bytesCopied (r.time - c.started) / (1024 * 1024)

/-! ## Steps -/

section Steps

variable {cfg : Settings} {destPath : ℕ → String} {w w' : SpeedWorld} {act : SpeedAction} {i : ℕ}

/-- The state after a reading of the call `c` with the locals `v` and `r`. -/
def SpeedWorld.record (w : SpeedWorld) (i : ℕ) (currentTime : ℚ) (c : CopyCall) (v : LoopVars)
    (r : RangeVars) : SpeedWorld :=
  let start := w.copyStart.getD ⟨currentTime, r.bytesCopied⟩
  let speed := start.copySpeedMbps currentTime r.bytesCopied
  { copyStart := some start
    clock := currentTime
    calls := Function.update w.calls i
      (some { c with world := { c.world with point := .progress v r speed } })
    readings := w.readings ++ [⟨i, r.bytesCopied, currentTime, speed⟩] }

/-- **What a step does.**

**Proof sketch.** By cases on the action; each is allowed under one condition, which is what its
disjunct says. -/
lemma speedStep_cases (h : speedStep cfg destPath w act = some w') :
    (∃ i now file source dest, act = .call i now file source dest ∧ w.clock ≤ now ∧
        w.calls i = none ∧
        w' = { w with
          clock := now
          calls := Function.update w.calls i (some ⟨now, .start file source dest⟩) }) ∨
      (∃ i a c world, act = .copy i a ∧ a.isConnected = false ∧ w.calls i = some c ∧
        copyWorldStep cfg (destPath i) c.world a = some world ∧
        w' = { w with calls := Function.update w.calls i (some { c with world := world }) }) ∨
      ∃ i currentTime heap c v r, act = .connected i currentTime heap ∧ w.clock ≤ currentTime ∧
        w.calls i = some c ∧ c.world.point = .connectivity v r ∧
        w' = w.record i currentTime c v r := by
  cases act with
  | call i now file source dest =>
    left
    simp only [speedStep] at h
    split_ifs at h with hc
    exact ⟨i, now, file, source, dest, rfl, hc.1, Option.isNone_iff_eq_none.mp hc.2,
      (Option.some.inj h).symm⟩
  | copy i a =>
    right; left
    simp only [speedStep] at h
    split_ifs at h with hc
    obtain ⟨c, hcall, hstep⟩ := Option.bind_eq_some_iff.mp h
    obtain ⟨world, hworld, rfl⟩ := Option.map_eq_some_iff.mp hstep
    exact ⟨i, a, c, world, rfl, Bool.eq_false_iff.mpr hc, hcall, hworld, rfl⟩
  | connected i currentTime heap =>
    right; right
    simp only [speedStep] at h
    split_ifs at h with hc
    obtain ⟨c, hcall, hstep⟩ := Option.bind_eq_some_iff.mp h
    split at hstep
    · rename_i v r hpoint
      obtain ⟨world, hworld, rfl⟩ := Option.map_eq_some_iff.mp hstep
      refine ⟨i, currentTime, heap, c, v, r, rfl, hc, hcall, hpoint, ?_⟩
      simp only [copyWorldStep, hpoint, CopyPoint.request, CopyWorld.Answers, if_true,
        CopyPoint.resume, Option.map_some, CopyWorld.effect, Option.some.injEq] at hworld
      rw [← hworld]
      rfl
    · cases hstep

/-- A call takes the steps that it would take alone. -/
lemma speedStep_copy {c : CopyCall} {a : CopyAction} {world : CopyWorld}
    (hcall : w.calls i = some c) (ha : a.isConnected = false)
    (hworld : copyWorldStep cfg (destPath i) c.world a = some world) :
    speedStep cfg destPath w (.copy i a) =
      some { w with calls := Function.update w.calls i (some { c with world := world }) } := by
  simp [speedStep, ha, hcall, hworld]

/-- A reading can be taken after every chunk. -/
lemma speedStep_connected {currentTime : ℚ} {c : CopyCall} {v : LoopVars} {r : RangeVars}
    (heap : FileId → TrackedFile) (hclock : w.clock ≤ currentTime) (hcall : w.calls i = some c)
    (hpoint : c.world.point = .connectivity v r) :
    speedStep cfg destPath w (.connected i currentTime heap) =
      some (w.record i currentTime c v r) := by
  simp only [speedStep, if_pos hclock, hcall, Option.bind_some, hpoint]
  simp only [copyWorldStep, hpoint, CopyPoint.request, CopyWorld.Answers, if_true,
    CopyPoint.resume, Option.map_some, CopyWorld.effect]
  rfl

/-! ### What the readings are measured from -/

/-- What is true of the readings: the first one set the attributes, all are measured from it, and
the clock has not run backwards. -/
structure ReadingsInv (since : ℚ) (w : SpeedWorld) : Prop where
  start : w.copyStart = w.readings.head?.map fun r => ⟨r.time, r.bytesCopied⟩
  speed : ∀ s, w.copyStart = some s →
    ∀ r ∈ w.readings, r.copySpeedMbps = s.copySpeedMbps r.time r.bytesCopied
  clock : since ≤ w.clock
  time : ∀ r ∈ w.readings, since ≤ r.time

/-- **The step lemma.**

**Proof sketch.** A step that begins or moves a copy takes no reading. A connectivity check takes
one: it is the first, and then the start is the reading itself, or it is compared with the start
there is, which lies no later on the clock. -/
lemma readingsInv_step {clock : ℚ} (hinv : ReadingsInv clock w)
    (hstep : speedStep cfg destPath w act = some w') : ReadingsInv clock w' := by
  rcases speedStep_cases hstep with ⟨i, now, file, source, dest, -, hnow, -, rfl⟩ |
    ⟨i, a, c, world, -, -, -, -, rfl⟩ | ⟨i, now, heap, c, v, r, -, hnow, -, -, rfl⟩
  · exact ⟨hinv.start, hinv.speed, hinv.clock.trans hnow, hinv.time⟩
  · exact ⟨hinv.start, hinv.speed, hinv.clock, hinv.time⟩
  · have htime : clock ≤ now := hinv.clock.trans hnow
    refine ⟨?_, ?_, htime, ?_⟩
    · cases hread : w.readings with
      | nil =>
        have hnone : w.copyStart = none := by rw [hinv.start, hread]; rfl
        simp [SpeedWorld.record, hread, hnone]
      | cons r' rest =>
        have hsome : w.copyStart = some ⟨r'.time, r'.bytesCopied⟩ := by
          rw [hinv.start, hread]; rfl
        simp [SpeedWorld.record, hread, hsome]
    · intro s hs r' hr'
      obtain rfl := Option.some.inj hs
      rcases List.mem_append.mp hr' with hold | hnew
      · cases hstart : w.copyStart with
        | none =>
          have hnil : w.readings = [] := by simpa [hstart] using hinv.start
          rw [hnil] at hold
          cases hold
        | some s => exact hinv.speed s hstart r' hold
      · obtain rfl := List.mem_singleton.mp hnew
        rfl
    · intro r' hr'
      rcases List.mem_append.mp hr' with hold | hnew
      · exact hinv.time r' hold
      · obtain rfl := List.mem_singleton.mp hnew
        exact htime

/-- The invariant of the readings holds after every run. -/
lemma readingsInv_of_run {clock : ℚ} {tr : List (SpeedWorld × SpeedAction)}
    (hrun : Run (speedStep cfg destPath) (.start clock) tr w) : ReadingsInv clock w := by
  have hok : Meets (fun _ _ => True) tr := fun _ _ => trivial
  have hstart : ReadingsInv clock (.start clock) :=
    ⟨rfl, (fun _ h => by cases h), le_rfl, fun _ h => by cases h⟩
  exact hrun.invariant hok hstart fun _ _ _ h _ hs => readingsInv_step h hs

/-- **What the readings are measured from**: the first reading of the strategy, whichever call it is
of. -/
theorem speed_eq_copySpeedMbps {clock : ℚ} {tr : List (SpeedWorld × SpeedAction)}
    (hrun : Run (speedStep cfg destPath) (.start clock) tr w) {s : CopyStart}
    (hs : w.copyStart = some s) (i : ℕ) :
    w.speedsOf i = (w.chunksOf i).map fun chunk => s.copySpeedMbps chunk.2 chunk.1 := by
  have hinv := readingsInv_of_run hrun
  simp only [SpeedWorld.speedsOf, SpeedWorld.chunksOf, List.map_map]
  apply List.map_congr_left
  intro r hr
  exact hinv.speed s hs r (List.mem_of_mem_filter hr)

/-- The speeds of chunks that are measured from the first of them. -/
def ownSpeeds : List (ℕ × ℚ) → List ℚ
  | [] => []
  | (bytesCopied, time) :: rest =>
    ((bytesCopied, time) :: rest).map fun chunk =>
      (CopyStart.mk time bytesCopied).copySpeedMbps chunk.2 chunk.1

/-- **The call that makes the first reading** has all of its readings to itself: they are measured
from its own first chunk, in every run. -/
theorem speedsOf_of_first {clock : ℚ} {tr : List (SpeedWorld × SpeedAction)}
    (hrun : Run (speedStep cfg destPath) (.start clock) tr w) {r : SpeedReading}
    (hfirst : w.readings.head? = some r) : w.speedsOf r.call = ownSpeeds (w.chunksOf r.call) := by
  have hinv := readingsInv_of_run hrun
  have hstart : w.copyStart = some ⟨r.time, r.bytesCopied⟩ := by rw [hinv.start, hfirst]; rfl
  obtain ⟨rest, hread⟩ : ∃ rest, w.readings = r :: rest := List.head?_eq_some_iff.mp hfirst
  have hchunks : ∃ rest', w.chunksOf r.call = (r.bytesCopied, r.time) :: rest' := by
    simp [SpeedWorld.chunksOf, hread]
  obtain ⟨rest', hchunks⟩ := hchunks
  rw [speed_eq_copySpeedMbps hrun hstart, hchunks]
  rfl

/-! ### Other calls do not matter to what happens to a call -/

/-- The same suspended call, but for the speed it is about to record. -/
def SameButSpeed (c c' : CopyWorld) : Prop :=
  c' = c ∨ ∃ v r speed speed', c.point = .progress v r speed ∧
    c' = { c with point := .progress v r speed' }

/-- The speed makes no difference to how the call goes on. -/
lemma sameButSpeed_step {path : String} {c c' c₁ : CopyWorld} {a : CopyAction}
    (hsame : SameButSpeed c c') (hstep : copyWorldStep cfg path c a = some c₁) :
    ∃ c₁', copyWorldStep cfg path c' a = some c₁' ∧ SameButSpeed c₁ c₁' := by
  rcases hsame with rfl | ⟨v, r, speed, speed', hpoint, rfl⟩
  · exact ⟨c₁, hstep, .inl rfl⟩
  · cases a with
    | append bytes =>
      simp only [copyWorldStep, hpoint, CopyPoint.sizeRead, Bool.false_eq_true, if_false,
        Option.some.injEq] at hstep
      subst hstep
      exact ⟨_, rfl, .inr ⟨v, r, speed, speed', rfl, rfl⟩⟩
    | answer heap a =>
      cases a with
      | done =>
        simp only [copyWorldStep, hpoint, CopyPoint.request, CopyWorld.Answers, if_true,
          CopyPoint.resume, Option.map_some, CopyWorld.effect, complete_copyStatus,
          Option.some.injEq] at hstep ⊢
        exact ⟨_, rfl, .inl hstep⟩
      | _ => simp [copyWorldStep, hpoint, CopyPoint.resume] at hstep

/-- The same call in two runs. -/
def SameCall (c c' : CopyCall) : Prop := c'.started = c.started ∧ SameButSpeed c.world c'.world

/-- How a state of the second run corresponds to one of the first, as far as call `i` goes. -/
structure FollowsCall (i : ℕ) (s : CopyStart) (w w' : SpeedWorld) : Prop where
  call : Option.Rel SameCall (w.calls i) (w'.calls i)
  clock : w'.clock ≤ w.clock
  copyStart : w'.copyStart = some s
  chunks : w'.chunksOf i = w.chunksOf i

/-- Recording a chunk adds it to the chunks of its copy and of no other. -/
lemma chunksOf_record {currentTime : ℚ} {c : CopyCall} {v : LoopVars} {r : RangeVars} (j : ℕ) :
    (w.record j currentTime c v r).chunksOf i =
      w.chunksOf i ++ if j = i then [(r.bytesCopied, currentTime)] else [] := by
  by_cases hj : j = i <;> simp [SpeedWorld.chunksOf, SpeedWorld.record, hj]

/-- What is related to nothing is nothing. -/
lemma eq_none_of_rel {α β : Type*} {R : α → β → Prop} {o : Option β} (h : Option.Rel R none o) :
    o = none := by
  cases h
  rfl

/-- What is related to a value is a value. -/
lemma exists_eq_some_of_rel {α β : Type*} {R : α → β → Prop} {a : α} {o : Option β}
    (h : Option.Rel R (some a) o) : ∃ b, o = some b ∧ R a b := by
  cases h with
  | some hab => exact ⟨_, rfl, hab⟩

/-- A step of another call keeps the correspondence. -/
lemma followsCall_of_ne {s : CopyStart} {t : SpeedWorld} (h : FollowsCall i s w t)
    (hstep : speedStep cfg destPath w act = some w') (hact : act.number ≠ i) :
    FollowsCall i s w' t := by
  rcases speedStep_cases hstep with ⟨j, now, file, source, dest, rfl, hnow, -, rfl⟩ |
    ⟨j, a, c, world, rfl, -, -, -, rfl⟩ | ⟨j, now, heap, c, v, r, rfl, hnow, -, -, rfl⟩
  all_goals
    have hne : j ≠ i := hact
  · refine ⟨?_, h.clock.trans hnow, h.copyStart, h.chunks⟩
    simpa [Function.update_of_ne hne.symm] using h.call
  · refine ⟨?_, h.clock, h.copyStart, h.chunks⟩
    simpa [Function.update_of_ne hne.symm] using h.call
  · refine ⟨?_, h.clock.trans hnow, h.copyStart, ?_⟩
    · simpa [SpeedWorld.record, Function.update_of_ne hne.symm] using h.call
    · rw [chunksOf_record, if_neg hne, List.append_nil]
      exact h.chunks

/-- A step of the call can be taken in the second run, too, and keeps the correspondence.

**Proof sketch.** The call begins, copies on or is measured in both worlds alike. Its world is the
same but for the speed that it reports, and a step does not read that speed (`sameButSpeed_step`);
the start of the measurement is the one there was, since there was one. -/
lemma followsCall_step {s : CopyStart} {t : SpeedWorld} (h : FollowsCall i s w t)
    (hstep : speedStep cfg destPath w act = some w') (hact : act.number = i) :
    ∃ t', speedStep cfg destPath t act = some t' ∧ FollowsCall i s w' t' := by
  rcases speedStep_cases hstep with ⟨j, now, file, source, dest, rfl, hnow, hnone, rfl⟩ |
    ⟨j, a, c, world, rfl, hconn, hcall, hworld, rfl⟩ |
    ⟨j, now, heap, c, v, r, rfl, hnow, hcall, hpoint, rfl⟩
  all_goals
    obtain rfl : j = i := hact
    have hrel := h.call
  · rw [hnone] at hrel
    have hnone' : t.calls j = none := eq_none_of_rel hrel
    refine ⟨_, by rw [speedStep, if_pos ⟨h.clock.trans hnow, by rw [hnone']; rfl⟩], ?_⟩
    refine ⟨?_, le_rfl, h.copyStart, h.chunks⟩
    simpa using Option.Rel.some (r := SameCall) ⟨rfl, .inl rfl⟩
  · rw [hcall] at hrel
    obtain ⟨c', hcall', hstarted, hsame⟩ := exists_eq_some_of_rel hrel
    obtain ⟨world', hworld', hsame'⟩ := sameButSpeed_step hsame hworld
    refine ⟨_, speedStep_copy hcall' hconn hworld', ?_⟩
    refine ⟨?_, h.clock, h.copyStart, h.chunks⟩
    have hnew : SameCall { c with world := world } { c' with world := world' } :=
      ⟨hstarted, hsame'⟩
    simpa using hnew
  · rw [hcall] at hrel
    obtain ⟨c', hcall', hstarted, hsame⟩ := exists_eq_some_of_rel hrel
    have hworld : c'.world = c.world := by
      rcases hsame with heq | ⟨v', r', speed, speed', hpoint', -⟩
      · exact heq
      · rw [hpoint] at hpoint'
        cases hpoint'
    refine ⟨_, speedStep_connected heap (h.clock.trans hnow) hcall' (hworld ▸ hpoint), ?_⟩
    refine ⟨?_, le_rfl, by simp [SpeedWorld.record, h.copyStart], ?_⟩
    · have hnew : ∀ speed speed' : ℚ, SameButSpeed
          { c.world with point := .progress v r speed }
          { c'.world with point := .progress v r speed' } := by
        intro speed speed'
        rw [hworld]
        exact .inr ⟨v, r, speed, speed', rfl, rfl⟩
      simpa [SpeedWorld.record, SameCall] using And.intro hstarted (hnew _ _)
    · rw [chunksOf_record, chunksOf_record, h.chunks]

/-! ### Another call can always come first -/

/-- What a call that has come to a point says about the settings. -/
def CopyPoint.Configured (cfg : Settings) : CopyPoint → Prop
  | .write _ _ _ | .connectivity _ _ =>
    cfg.growingFilePollIntervalSeconds ≠ 0 ∧ cfg.growingFileChunkSizeKb ≠ 0
  | .openDest _ | .getRecord _ | .loopSize _ | .openSource _ _ | .read _ _ | .progress _ _ _
  | .pause _ _ | .growthUpdate _ _ | .sleep _ => cfg.growingFilePollIntervalSeconds ≠ 0
  | _ => True

/-- The end of the loop is configured. -/
lemma configured_loopEnd (v : LoopVars) (n : ℕ) (h : cfg.growingFilePollIntervalSeconds ≠ 0) :
    (CopyPoint.loopEnd v n).Configured cfg := by
  rcases CopyPoint.loopEnd_cases v n with ⟨hend, -⟩ | ⟨hend, -⟩ | ⟨hend, -⟩ <;> rw [hend]
  · trivial
  · exact h
  · exact h

/-- The head of the inner loop is configured. -/
lemma configured_rangeHead (v : LoopVars) (r : RangeVars)
    (h : cfg.growingFilePollIntervalSeconds ≠ 0) : (CopyPoint.rangeHead v r).Configured cfg := by
  rcases CopyPoint.rangeHead_cases v r with ⟨hhead, -⟩ | ⟨hhead, -⟩ <;> rw [hhead]
  · exact h
  · exact configured_loopEnd _ _ h

/-- A round of the loop is configured. -/
lemma configured_loopRound (v : LoopVars) (n : ℕ) (h : cfg.growingFilePollIntervalSeconds ≠ 0) :
    (CopyPoint.loopRound v n).Configured cfg := by
  obtain ⟨v', -, -, ⟨r, -, hround⟩ | hround | hround⟩ := CopyPoint.loopRound_cases v n <;>
    rw [hround]
  · exact h
  · exact h
  · exact configured_loopEnd _ _ h

/-- A chunk is read only if the chunk size is positive, and the loop is reached only if the poll
interval is. -/
lemma configured_resume {p p' : CopyPoint} {heap : FileId → TrackedFile} {a : CopyAnswer}
    {c : CopyWorld} {path : String} (h : p.Configured cfg) (ha : c.Answers (p.request cfg path) a)
    (hp : p.resume cfg heap a = some p') : p'.Configured cfg := by
  cases CopyPoint.next_of_resume hp with
  | polled hfrom hto => rcases hto with rfl | rfl <;> trivial
  | started file hpoll => exact hpoll
  | sized v n => exact configured_loopRound v n h
  | openedSource v r => exact configured_rangeHead v r h
  | readNothing v r => exact configured_loopEnd _ _ h
  | readChunk v r chunk hchunk =>
    refine ⟨h, fun hzero => hchunk ?_⟩
    -- no bytes were asked for
    have hpre : chunk <+: (c.source.drop r.bytesCopied).take
        (min (cfg.growingFileChunkSizeKb * 1024) r.bytesToCopy) := ha
    simpa [hzero] using hpre
  | connected v r => exact h.1
  | reported v r => exact configured_rangeHead v r h
  | paused v r => exact configured_rangeHead v r h
  | updated v n => exact configured_loopEnd v n h
  | opened | recorded | wroteChunk | pausing | slept => exact h
  | _ => trivial

/-- What is true of the settings: they are as the calls and the readings show. -/
structure SettingsInv (cfg : Settings) (w : SpeedWorld) : Prop where
  calls : ∀ i c, w.calls i = some c → c.world.point.Configured cfg
  readings : w.readings ≠ [] →
    cfg.growingFilePollIntervalSeconds ≠ 0 ∧ cfg.growingFileChunkSizeKb ≠ 0

/-- **The step lemma.**

**Proof sketch.** Only the world of the call that steps changes. A call begins unconfigured, an
answer leads to a configured point by `configured_resume`, and a reading is taken at one. -/
lemma settingsInv_step (hinv : SettingsInv cfg w) (hstep : speedStep cfg destPath w act = some w') :
    SettingsInv cfg w' := by
  have hupdate : ∀ (i : ℕ) (c' : CopyCall), c'.world.point.Configured cfg →
      ∀ j c, Function.update w.calls i (some c') j = some c → c.world.point.Configured cfg := by
    intro i c' hc' j c hj
    by_cases hji : j = i
    · subst hji
      rw [Function.update_self] at hj
      obtain rfl := Option.some.inj hj
      exact hc'
    · rw [Function.update_of_ne hji] at hj
      exact hinv.calls j c hj
  rcases speedStep_cases hstep with ⟨i, now, file, source, dest, -, -, -, rfl⟩ |
    ⟨i, a, c, world, -, -, hcall, hworld, rfl⟩ | ⟨i, now, heap, c, v, r, -, -, hcall, hpoint, rfl⟩
  · exact ⟨hupdate _ _ trivial, hinv.readings⟩
  · refine ⟨hupdate _ _ ?_, hinv.readings⟩
    have hconf := hinv.calls i c hcall
    cases a with
    | append bytes =>
      simp only [copyWorldStep] at hworld
      split_ifs at hworld
      obtain rfl := Option.some.inj hworld
      exact hconf
    | answer heap a =>
      simp only [copyWorldStep] at hworld
      split_ifs at hworld with ha
      obtain ⟨p, hp, rfl⟩ := Option.map_eq_some_iff.mp hworld
      exact configured_resume hconf ha hp
  · have hconf := hinv.calls i c hcall
    rw [hpoint] at hconf
    exact ⟨hupdate _ _ hconf.1, fun _ => hconf⟩

/-- A static file whose first chunk is all of it, up to the reading. -/
def firstChunk (source : List UInt8) : List CopyAction :=
  [.size source.length, .found none, .done, .done, .stored true, .size source.length, .done,
    .data source, .done].map <| .answer fun _ =>
      { filePath := "/src/b.mxf", status := .copying, discoveredAt := 0 }

/-- A static file is copied from the first round on, with nothing held back. -/
lemma loopRound_static (cfg : Settings) (file : FileId) {n : ℕ} (hn : 0 < n) :
    ∃ v r, CopyPoint.loopRound (.start cfg false file) n = .openSource v r ∧
      r.bytesCopied = 0 ∧ r.bytesToCopy = n := by
  simp [CopyPoint.loopRound, LoopVars.start, LoopVars.observe, LoopVars.safeCopyTo, hn]

/-- An answer, where it is possible, takes the machine to the next point. -/
lemma replay_answer {c : CopyWorld} {path : String} {heap : FileId → TrackedFile}
    {a : CopyAnswer} {p : CopyPoint} {rest : List CopyAction}
    (ha : c.Answers (c.point.request cfg path) a) (hp : c.point.resume cfg heap a = some p) :
    replay (copyWorldStep cfg path) c (.answer heap a :: rest) =
      replay (copyWorldStep cfg path)
        { c.effect (c.point.request cfg path) a with point := p } rest := by
  apply replay_cons
  simp [copyWorldStep, ha, hp]

/-- A call of its own comes to its first reading.

**Proof sketch.** The source is not empty and fits into one chunk, so the range of the first round
is the whole source. The answers of `firstChunk` lead from await to await, one `replay_answer`
each, up to the check of the connectivity. -/
lemma replay_firstChunk {source : List UInt8} (path : String)
    (hpoll : cfg.growingFilePollIntervalSeconds ≠ 0) (hchunk : cfg.growingFileChunkSizeKb ≠ 0)
    (hne : source ≠ []) (hlen : source.length ≤ 1024) :
    ∃ v r, r.bytesCopied = source.length ∧
      replay (copyWorldStep cfg path) (.start 0 source []) (firstChunk source) =
        some { point := .connectivity v r, source := source, dest := source } := by
  have hpos : 0 < source.length := List.length_pos_iff.mpr hne
  have hsize : source.length ≤ cfg.growingFileChunkSizeKb * 1024 := by omega
  obtain ⟨v, r, hround, hzero, hall⟩ := loopRound_static cfg 0 hpos
  refine ⟨v, CopyPoint.wrote r source, by simp [CopyPoint.wrote, hzero], ?_⟩
  have hbytes : source <+: (source.drop r.bytesCopied).take
      (min (cfg.growingFileChunkSizeKb * 1024) r.bytesToCopy) := by
    rw [hzero, hall, List.drop_zero, min_eq_right hsize, List.take_length]
  have hhead : CopyPoint.rangeHead v r = .read v r := if_pos (by rw [hall]; exact hpos)
  simp only [firstChunk, List.map_cons, List.map_nil]
  let v₀ : LoopVars := .start cfg false 0
  refine Eq.trans (replay_answer (p := .latestFile 0) (by rfl) (by rfl)) ?_
  refine Eq.trans (replay_answer (p := .makedirs 0) (by trivial) (by rfl)) ?_
  refine Eq.trans (replay_answer (p := .openDest v₀) (by trivial) (by exact if_neg hpoll)) ?_
  refine Eq.trans (replay_answer (p := .getRecord v₀) (by trivial) (by rfl)) ?_
  refine Eq.trans (replay_answer (p := .loopSize v₀) (by trivial) (by rfl)) ?_
  refine Eq.trans (replay_answer (p := .openSource v r) (by rfl)
    (by exact congrArg some hround)) ?_
  refine Eq.trans (replay_answer (p := .read v r) (by trivial) (by exact congrArg some hhead)) ?_
  refine Eq.trans (replay_answer (p := .write v r source) (by exact hbytes)
    (by exact congrArg some (if_neg hne))) ?_
  refine Eq.trans (replay_answer (p := .connectivity v (CopyPoint.wrote r source)) (by trivial)
    (by rfl)) ?_
  rfl

/-- What a call does alone, it can do among the others. -/
lemma replay_copies {acts : List CopyAction} {world : CopyWorld} :
    ∀ {w : SpeedWorld} {c : CopyCall}, w.calls i = some c → (∀ a ∈ acts, a.isConnected = false) →
      replay (copyWorldStep cfg (destPath i)) c.world acts = some world →
      replay (speedStep cfg destPath) w (acts.map (.copy i)) =
        some { w with calls := Function.update w.calls i (some { c with world := world }) } := by
  induction acts with
  | nil =>
    intro w c hcall _ h
    obtain rfl := Option.some.inj h
    simp [replay, ← hcall]
  | cons a rest ih =>
    intro w c hcall hacts h
    obtain ⟨next, hnext, hrest⟩ := Option.bind_eq_some_iff.mp h
    have hstep := speedStep_copy hcall (hacts a List.mem_cons_self) hnext
    simp only [List.map_cons, replay, hstep, Option.bind_some]
    rw [ih (c := { c with world := next }) (Function.update_self ..)
      (fun b hb => hacts b (List.mem_cons_of_mem _ hb)) hrest]
    simp

variable (destPath) in
/-- Before anything else happens, a call copies a first chunk of any size up to a kilobyte.

**Proof sketch.** The call `j` begins at the clock, copies its source as one chunk
(`replay_firstChunk`) and takes the reading at the same time. Nothing of this is a step of another
call. -/
lemma exists_firstReading (hpoll : cfg.growingFilePollIntervalSeconds ≠ 0)
    (hchunk : cfg.growingFileChunkSizeKb ≠ 0) (clock : ℚ) {source : List UInt8}
    (hne : source ≠ []) (hlen : source.length ≤ 1024) (j : ℕ) :
    ∃ tr w, Run (speedStep cfg destPath) (.start clock) tr w ∧
      w.copyStart = some ⟨clock, source.length⟩ ∧ w.clock = clock ∧
      ∀ i ≠ j, w.calls i = none ∧ w.chunksOf i = [] ∧ ownActions i tr = [] := by
  obtain ⟨v, r, hbytes, hreplay⟩ := replay_firstChunk (destPath j) hpoll hchunk hne hlen
  have hcall : speedStep cfg destPath (.start clock) (.call j clock 0 source []) =
      some { clock := clock
             calls := Function.update (fun _ => none) j (some ⟨clock, .start 0 source []⟩) } := by
    simp [speedStep, SpeedWorld.start]
  have hfirst : ∀ a ∈ firstChunk source, a.isConnected = false := by
    simp [firstChunk, CopyAction.isConnected]
  let w₁ : SpeedWorld :=
    { clock := clock
      calls := Function.update (fun _ => none) j (some ⟨clock, .start 0 source []⟩) }
  have hw₁ : w₁.calls j = some ⟨clock, .start 0 source []⟩ := by simp [w₁]
  have hrun₁ : Run (speedStep cfg destPath) (.start clock)
      [(.start clock, .call j clock 0 source [])] w₁ := Run.snoc .start hcall
  let c₂ : CopyCall := ⟨clock, { point := .connectivity v r, source := source, dest := source }⟩
  let w₂ : SpeedWorld := { w₁ with calls := Function.update w₁.calls j (some c₂) }
  have hcopies : replay (speedStep cfg destPath) w₁ ((firstChunk source).map (.copy j)) = some w₂ :=
    replay_copies hw₁ hfirst hreplay
  have hw₂ : w₂.calls j = some c₂ := by simp [w₂]
  let heap : FileId → TrackedFile := fun _ =>
    { filePath := "/src/b.mxf", status := .copying, discoveredAt := 0 }
  have hreading : speedStep cfg destPath w₂ (.connected j clock heap) =
      some (w₂.record j clock c₂ v r) := speedStep_connected heap le_rfl hw₂ rfl
  have hrun₂ := hrun₁.trans (Run.of_replay hcopies)
  refine ⟨_, _, hrun₂.snoc hreading, ?_, rfl, fun i hi => ⟨?_, ?_, ?_⟩⟩
  · simp [SpeedWorld.record, w₁, w₂, hbytes]
  · simp [SpeedWorld.record, w₁, w₂, hi]
  · simp [SpeedWorld.chunksOf, SpeedWorld.record, w₁, w₂, hi.symm]
  · simp [ownActions, map_snd_traceOf hcopies, SpeedAction.of?, SpeedAction.number, hi.symm]

/-! ### The main result -/

/-- The action gives a reading. -/
def SpeedAction.isReading : SpeedAction → Bool
  | .connected .. => true
  | _ => false

/-- The actions of one copy in a run and its continuation. -/
lemma ownActions_append (i : ℕ) (tr₁ tr₂ : List (SpeedWorld × SpeedAction)) :
    ownActions i (tr₁ ++ tr₂) = ownActions i tr₁ ++ ownActions i tr₂ := by
  simp [ownActions, List.filterMap_append]

/-- A call has a reading for each time its connectivity check passed. -/
lemma length_speedsOf {clock : ℚ} {tr : List (SpeedWorld × SpeedAction)}
    (hrun : Run (speedStep cfg destPath) (.start clock) tr w) (i : ℕ) :
    (w.speedsOf i).length = (ownActions i tr).countP SpeedAction.isReading := by
  have hok : Meets (fun _ _ => True) tr := fun _ _ => trivial
  refine hrun.invariant_trace (I := fun tr w =>
    (w.speedsOf i).length = (ownActions i tr).countP SpeedAction.isReading) hok rfl ?_
  intro tr w act w' ih _ hstep
  rw [ownActions_append, List.countP_append, ← ih]
  rcases speedStep_cases hstep with ⟨j, now, file, source, dest, rfl, -, -, rfl⟩ |
    ⟨j, a, c, world, rfl, -, -, -, rfl⟩ | ⟨j, now, heap, c, v, r, rfl, -, -, -, rfl⟩
  all_goals
    by_cases hj : j = i <;>
      simp [ownActions, SpeedAction.of?, SpeedAction.number, SpeedAction.isReading,
        SpeedWorld.speedsOf, SpeedWorld.record, hj]

/-- In a run that begins with a chunk of another call, the speeds are measured from that chunk.

**Proof sketch.** A reading was taken, so the settings let a copy get as far as that. Another run
begins a second earlier with a chunk of another call, `exists_firstReading`, and then follows the
steps of the call `i` (`followsCall_step`). Its own steps are the same in both runs, so its speeds
are, and in the second run they are measured from the first chunk. -/
lemma SpeedPerFile.speedsOf_eq {clock : ℚ} {tr : List (SpeedWorld × SpeedAction)}
    (h : SpeedPerFile cfg destPath i tr w)
    (hrun : Run (speedStep cfg destPath) (.start clock) tr w) (hread : w.readings ≠ [])
    (source : List UInt8) (hne : source ≠ []) (hlen : source.length ≤ 1024) :
    w.speedsOf i = (w.chunksOf i).map fun chunk =>
      (CopyStart.mk (clock - 1) source.length).copySpeedMbps chunk.2 chunk.1 := by
  have hok : Meets (fun _ _ => True) tr := fun _ _ => trivial
  have hsettings : SettingsInv cfg w :=
    hrun.invariant hok (I := SettingsInv cfg) ⟨(fun _ _ h => by cases h), fun h => absurd rfl h⟩
      fun _ _ _ h _ hs => settingsInv_step h hs
  obtain ⟨hpoll, hchunk⟩ := hsettings.readings hread
  obtain ⟨tr₀, w₀, hrun₀, hstart₀, hclock₀, hother⟩ :=
    exists_firstReading destPath hpoll hchunk (clock - 1) hne hlen (i + 1)
  obtain ⟨hcall₀, hchunks₀, hown₀⟩ := hother i (by omega)
  have hfollows : FollowsCall i ⟨clock - 1, source.length⟩ (.start clock) w₀ := by
    refine ⟨?_, ?_, hstart₀, ?_⟩
    · rw [hcall₀]
      exact .none
    · rw [hclock₀]
      exact (sub_lt_self clock one_pos).le
    · rw [hchunks₀]
      rfl
  obtain ⟨tr', w', hrun', hacts, hrel⟩ := hrun.simulate (SpeedAction.of? i) hfollows
    (fun s a s' t b hst hs hseen => by
      obtain ⟨hnumber, rfl⟩ : a.number = i ∧ a = b := by
        simpa [SpeedAction.of?] using hseen
      exact followsCall_step hst hs hnumber)
    (fun s a s' t hst hs hunseen => followsCall_of_ne hst hs (by
      simpa [SpeedAction.of?] using hunseen))
  have hall := hrun₀.trans hrun'
  have hown : ownActions i (tr₀ ++ tr') = ownActions i tr := by
    have hidem : ∀ a : SpeedAction, (a.of? i).bind (SpeedAction.of? i) = a.of? i := by
      intro a
      unfold SpeedAction.of?
      split_ifs with ha <;> simp [ha]
    have hsame : ownActions i tr' = ownActions i tr := by
      simp only [ownActions, hacts, List.filterMap_filterMap, hidem]
    rw [ownActions_append, hown₀, hsame, List.nil_append]
  rw [← h.ownOnly hall hown, speed_eq_copySpeedMbps hall hrel.copyStart, hrel.chunks]

/-- **Speed per file fails for every call that has a reading.**

**Proof sketch.** A call that makes a reading can be preceded by a call that copies one byte, or by
one that copies two, in a run in which the same happens to it (`Run.simulate`). All of its speeds
are then measured from that chunk, and one byte more or less at the same time gives other speeds. -/
theorem speedPerFile_iff {clock : ℚ} {tr : List (SpeedWorld × SpeedAction)}
    (hrun : Run (speedStep cfg destPath) (.start clock) tr w) :
    SpeedPerFile cfg destPath i tr w ↔ w.speedsOf i = [] := by
  constructor
  · intro h
    by_contra hne
    obtain ⟨r, hr⟩ := List.exists_mem_of_ne_nil _ (fun hnil => hne (by
      rw [SpeedWorld.speedsOf, hnil, List.map_nil]) :
      w.readings.filter (·.call = i) ≠ [])
    have hmem : r ∈ w.readings := List.mem_of_mem_filter hr
    have hread : w.readings ≠ [] := List.ne_nil_of_mem hmem
    have hone := h.speedsOf_eq hrun hread [0] (by simp) (by simp)
    have htwo := h.speedsOf_eq hrun hread [0, 0] (by simp) (by simp)
    have hchunk : (r.bytesCopied, r.time) ∈ w.chunksOf i := List.mem_map_of_mem hr
    have hsame := List.map_inj_left.mp (hone.symm.trans htwo) _ hchunk
    have htime : clock ≤ r.time := (readingsInv_of_run hrun).time r hmem
    have helapsed : 0 < r.time - (clock - 1) := by linarith
    simp only [CopyStart.copySpeedMbps, calculateTransferRate, not_le.mpr helapsed, if_false]
      at hsame
    field_simp at hsame
    simp at hsame
  · intro h
    refine ⟨fun hrun' hown => ?_, by simp [h], fun c _ r hr hcall => ?_⟩
    · have hlen := length_speedsOf hrun' i
      rw [hown, ← length_speedsOf hrun i, h] at hlen
      rw [h, List.length_eq_zero_iff.mp hlen]
    · have hmem : r.copySpeedMbps ∈ w.speedsOf i :=
        List.mem_map_of_mem (List.mem_filter.mpr ⟨hr, decide_eq_true hcall⟩)
      rw [h] at hmem
      cases hmem

/-- A call that copies a static file of one chunk, with its reading at `currentTime`. -/
def staticCopy (j : ℕ) (currentTime : ℚ) (source : List UInt8) : List SpeedAction :=
  let heap : FileId → TrackedFile := fun _ =>
    { filePath := "/src/b.mxf", status := .copying, discoveredAt := 0 }
  let closing : List CopyAnswer :=
    [.done, .done, .size source.length, .size source.length, .done, .done]
  SpeedAction.call j currentTime 0 source [] :: (firstChunk source).map (SpeedAction.copy j) ++
    SpeedAction.connected j currentTime heap ::
      closing.map fun a => SpeedAction.copy j (.answer heap a)

/-- Two files, one after the other; the second one is smaller. -/
def twoCopies : List SpeedAction := staticCopy 0 0 [1, 2] ++ staticCopy 1 1 [3]

/-- An instance of `speedPerFile_iff`: not even the call that makes the first reading has its
speeds to itself. -/
theorem speedPerFile_firstCall :
    ∃ w, Run (speedStep {} fun _ => "/dst/b.mxf") (.start 0)
        (traceOf (speedStep {} fun _ => "/dst/b.mxf") (.start 0) twoCopies) w ∧
      ¬ SpeedPerFile {} (fun _ => "/dst/b.mxf") 0
        (traceOf (speedStep {} fun _ => "/dst/b.mxf") (.start 0) twoCopies) w := by
  obtain ⟨w, hrun, hw⟩ := exists_run_of_replay (speedStep {} fun _ => "/dst/b.mxf") (.start 0)
    twoCopies (fun w => decide (w.speedsOf 0 ≠ [])) (by decide +kernel)
  exact ⟨w, hrun, (speedPerFile_iff hrun).not.mpr (of_decide_eq_true hw)⟩

/-- The speed that is published for the second file is negative. -/
theorem negative_speed :
    ∃ w, Run (speedStep {} fun _ => "/dst/b.mxf") (.start 0)
        (traceOf (speedStep {} fun _ => "/dst/b.mxf") (.start 0) twoCopies) w ∧
      (∃ speed ∈ w.speedsOf 1, speed < 0) ∧
      ¬ SpeedPerFile {} (fun _ => "/dst/b.mxf") 1
        (traceOf (speedStep {} fun _ => "/dst/b.mxf") (.start 0) twoCopies) w := by
  obtain ⟨w, hrun, hw⟩ := exists_run_of_replay (speedStep {} fun _ => "/dst/b.mxf") (.start 0)
    twoCopies (fun w => (w.speedsOf 1).any fun speed => decide (speed < 0)) (by decide +kernel)
  obtain ⟨speed, hmem, hneg⟩ := List.any_eq_true.mp hw
  have hneg : speed < 0 := of_decide_eq_true hneg
  exact ⟨w, hrun, ⟨speed, hmem, hneg⟩, fun h => absurd (h.nonneg speed hmem) (not_le.mpr hneg)⟩

end Steps

end FileAgent

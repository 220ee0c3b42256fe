import FileAgent.CopyIntegrity
import FileAgent.FileOperations

set_option relaxedAutoImplicit false
set_option autoImplicit false

/-!
# The destination name of a failed copy

`copy_file` on a destination name that is free: the copy machine and its two files, with the names
that exist at the destination. The source may grow at any moment, every operation may fail, and the
task may be cancelled at any `await`. The strategy opens `dest_path` itself, and its `finally` block
removes only a temporary path that no statement sets; so a copy that fails before the name is opened
leaves the name free, and one that fails later does not.

## Main definitions

* `StrategyWorld`, `StrategyAction`, `strategyStep` — the system.
* `Invisible` — a failed copy leaves its name free for the next attempt.
* `FailsBeforeOpen` — when it does.

## Main results

* `invisible_iff` — a failed copy is invisible exactly if nothing makes it fail once the destination
  is open.
-/

namespace FileAgent

open Transition

/-! ## The system -/

/-- `asyncio.CancelledError`, which no handler of the strategy catches. -/
def cancelledError : PyError := { kind := .other, message := "" }

/-- A suspended `copy_file` with its files, and the names that exist. -/
structure StrategyWorld where
  copy : CopyWorld
  exists? : DestPath → Bool

/-- Bytes are appended to the source, the operation awaited is answered, or the task is cancelled
while the operation goes on in its thread and comes to the answer `a`. -/
inductive StrategyAction
  | append (bytes : List UInt8)
  | answer (heap : FileId → TrackedFile) (a : CopyAnswer)
  | cancel (a : CopyAnswer)

namespace CopyPoint

/-- The destination is opened. -/
def opens : CopyPoint → CopyAnswer → Bool
  | .openDest _, .done => true
  | _, _ => false

/-- The points up to the one that opens the destination. -/
def beforeOpen : CopyPoint → Bool
  | .initialSize _ | .waitSize _ | .latestFile _ | .makedirs _ | .openDest _ => true
  | _ => false

/-- The points at which the destination is, or was, open. -/
def destOpen : CopyPoint → Bool
  | .initialSize _ | .waitSize _ | .latestFile _ | .makedirs _ | .openDest _ | .done _ => false
  | _ => true

/-- The copy has failed, or an exception that makes it fail is in flight. -/
def failed : CopyPoint → Bool
  | .closeDest _ (some _) => true
  | .done o => o ≠ .returned true
  | _ => false

/-- The answer makes a copy fail whose destination is, or was, open: an exception of the loop that
its handlers do not drop, one of closing the destination or of the verification, different sizes, or
an exception while the source is deleted that is not an `OSError`. -/
def dooms : CopyPoint → CopyAnswer → Bool
  | .loopSize _, .error e | .removeSource _, .error e => !e.isOSError
  | .openSource _ _, .error _ | .read _ _, .error _ | .write _ _ _, .error _
  | .connectivity _ _, .error _ | .closeDest _ _, .error _ | .verifySource _, .error _
  | .verifyDest _ _, .error _ => true
  | .verifyDest _ sourceSize, .size destSize => sourceSize ≠ destSize
  | _, _ => false

end CopyPoint

/-- The operation awaited comes to the answer `a`, and the copy is at `p`. -/
def StrategyWorld.perform (cfg : Settings) (dest : DestPath) (w : StrategyWorld) (a : CopyAnswer)
    (p : CopyPoint) : StrategyWorld :=
  { copy := { w.copy.effect (w.copy.point.request cfg dest.toString) a with point := p }
    exists? := if w.copy.point.opens a then Function.update w.exists? dest true else w.exists? }

/-- One step. -/
def strategyStep (cfg : Settings) (dest : DestPath) (w : StrategyWorld) :
    StrategyAction → Option StrategyWorld
  | .append bytes => some { w with copy := { w.copy with source := w.copy.source ++ bytes } }
  | .answer heap a =>
    if w.copy.Answers (w.copy.point.request cfg dest.toString) a then
      (w.copy.point.resume cfg heap a).map (w.perform cfg dest a)
    else none
  | .cancel a =>
    if w.copy.point.beforeOpen || w.copy.point.destOpen then
      some (w.perform cfg dest a (.done (.raised cancelledError)))
    else none

/-- `copy_file` is called for a file. -/
def StrategyWorld.start (file : FileId) (source : List UInt8) (exists? : DestPath → Bool) :
    StrategyWorld :=
  { copy := .start file source [], exists? := exists? }

/-! ## What a failed copy leaves -/

/-- **Invisible**: if `copy_file` has returned `False` or raised, the destination does not exist,
and a file that was to be copied there is to be copied there again. -/
def Invisible (dest : DestPath) (before : DestPath → Bool) (w : StrategyWorld) : Prop :=
  ∀ o, w.copy.point = .done o → o ≠ .returned true →
    w.exists? dest = false ∧
      ∀ p, generateConflictFreePath before p = .ok dest →
        generateConflictFreePath w.exists? p = .ok dest

/-- The condition on a step: nothing makes the copy fail, and nobody cancels it, once the
destination is open. -/
def FailsBeforeOpen (w : StrategyWorld) : StrategyAction → Prop
  | .append _ => True
  | .answer _ a => w.copy.point.dooms a = false
  | .cancel a => w.copy.point.beforeOpen = true ∧ w.copy.point.opens a = false

/-- What holds in every state: the names are those from before until the destination is opened, and
then the destination exists. -/
structure OpenedInv (dest : DestPath) (before : DestPath → Bool) (w : StrategyWorld) : Prop where
  before : w.copy.point.beforeOpen = true → w.exists? = before
  opened : w.copy.point.destOpen = true → w.exists? dest = true

/-- What holds as long as the condition is met: a copy that has failed has ended, and no name is
new. -/
def InvisibleInv (before : DestPath → Bool) (w : StrategyWorld) : Prop :=
  w.copy.point.failed = true → (∃ o, w.copy.point = .done o) ∧ w.exists? = before

/-- What holds once it is not: the copy goes on to its end with the destination in place. -/
structure VisibleInv (dest : DestPath) (w : StrategyWorld) : Prop where
  failed : w.copy.point.failed = true
  «exists» : w.exists? dest = true

/-! ### Where the machine goes -/

namespace CopyPoint

variable {cfg : Settings} {heap : FileId → TrackedFile} {p p' : CopyPoint} {a : CopyAnswer}

/-- At the end of the loop the destination is open. -/
lemma loopEnd_destOpen (v : LoopVars) (n : ℕ) :
    (loopEnd v n).destOpen = true ∧ (loopEnd v n).failed = false := by
  rcases loopEnd_cases v n with ⟨h, -⟩ | ⟨h, -⟩ | ⟨h, -⟩ <;> rw [h] <;> exact ⟨rfl, rfl⟩

/-- At the head of the inner loop the destination is open. -/
lemma rangeHead_destOpen (v : LoopVars) (r : RangeVars) :
    (rangeHead v r).destOpen = true ∧ (rangeHead v r).failed = false := by
  rcases rangeHead_cases v r with ⟨h, -⟩ | ⟨h, -⟩ <;> rw [h]
  · exact ⟨rfl, rfl⟩
  · exact loopEnd_destOpen _ _

/-- In a round of the loop the destination is open. -/
lemma loopRound_destOpen (v : LoopVars) (n : ℕ) :
    (loopRound v n).destOpen = true ∧ (loopRound v n).failed = false := by
  obtain ⟨v', -, -, ⟨r, -, h⟩ | h | h⟩ := loopRound_cases v n <;> rw [h]
  · exact ⟨rfl, rfl⟩
  · exact ⟨rfl, rfl⟩
  · exact loopEnd_destOpen _ _

/-- An open destination is not a point before its opening. -/
lemma beforeOpen_eq_false (h : p.destOpen = true) : p.beforeOpen = false := by
  cases p <;> first | rfl | cases h

/-- Before the opening the copy has not failed. -/
lemma failed_eq_false (h : p.beforeOpen = true) : p.failed = false := by
  cases p <;> first | rfl | cases h

/-- What the handlers make of an exception is a failure. -/
lemma failed_growingFileFailed (e : PyError) : (done (growingFileFailed e)).failed = true := by
  unfold growingFileFailed
  split_ifs <;> simp [failed]

/-- A copy that ends with an exception has failed. -/
lemma failed_copyFileFailed (e : PyError) : (done (copyFileFailed e)).failed = true := by
  unfold copyFileFailed
  split_ifs
  · simp [failed]
  · exact failed_growingFileFailed e

/-- An answer that dooms the copy finds the destination open. -/
lemma destOpen_of_dooms (h : p.dooms a = true) : p.destOpen = true := by
  cases p <;> cases a <;> first | rfl | cases h

/-- Every step starts before the opening or after it. -/
lemma beforeOpen_or_destOpen (h : p.resume cfg heap a = some p') :
    p.beforeOpen = true ∨ p.destOpen = true := by
  cases p with
  | done o => cases a <;> cases h
  | _ => first | exact .inl rfl | exact .inr rfl

/-- **Where a step before the opening goes**: to another point before it without opening the
destination, to the loop by opening it, or to a failure.

**Proof sketch.** By cases on the point and on the answer, in the order of the source. -/
lemma resume_of_beforeOpen (h : p.resume cfg heap a = some p') (hp : p.beforeOpen = true) :
    (p.opens a = false ∧ (p'.beforeOpen = true ∨ ∃ o, p' = done o ∧ p'.failed = true)) ∨
      (p.opens a = true ∧ p'.destOpen = true ∧ p'.failed = false) := by
  cases p with
  | initialSize file =>
    left
    refine ⟨rfl, ?_⟩
    cases a with
    | size n =>
      simp only [resume] at h
      split_ifs at h <;> cases h <;> exact .inl rfl
    | timeout => cases h; exact .inr ⟨_, rfl, rfl⟩
    | error e => cases h; exact .inr ⟨_, rfl, failed_copyFileFailed e⟩
    | _ => cases h
  | waitSize file =>
    left
    refine ⟨rfl, ?_⟩
    cases a with
    | size n =>
      simp only [resume] at h
      split_ifs at h <;> cases h <;> exact .inl rfl
    | timeout => cases h; exact .inr ⟨_, rfl, rfl⟩
    | error e =>
      simp only [resume] at h
      obtain rfl := Option.some.inj h
      split_ifs
      · exact .inr ⟨_, rfl, rfl⟩
      · exact .inr ⟨_, rfl, failed_copyFileFailed e⟩
    | _ => cases h
  | latestFile file =>
    left
    cases a <;> cases h
    exact ⟨rfl, .inl rfl⟩
  | makedirs file =>
    left
    refine ⟨rfl, ?_⟩
    cases a with
    | done =>
      simp only [resume] at h
      split_ifs at h <;> cases h
      · exact .inr ⟨_, rfl, failed_growingFileFailed _⟩
      · exact .inl rfl
    | error e => cases h; exact .inr ⟨_, rfl, rfl⟩
    | _ => cases h
  | openDest v =>
    cases a with
    | done => cases h; exact .inr ⟨rfl, rfl, rfl⟩
    | error e => cases h; exact .inl ⟨rfl, .inr ⟨_, rfl, failed_growingFileFailed e⟩⟩
    | _ => cases h
  | _ => cases hp

/-- The next point of the loop, as the lemma below wants it. -/
lemma goesOn (hp : p.failed = false) (ha : p.dooms a = false)
    (h : p'.destOpen = true ∧ p'.failed = false) :
    p'.beforeOpen = false ∧ (p'.failed = true ↔ p.failed = true ∨ p.dooms a = true) := by
  refine ⟨beforeOpen_eq_false h.1, ?_⟩
  rw [h.2, hp, ha]
  decide

/-- **Where a step after the opening goes**: a copy that has failed, or is made to fail, goes on to
its failure, and any other goes on or succeeds.

**Proof sketch.** By cases on the point and on the answer, in the order of the source. An
exception in the loop is carried to the close of the destination, and `failed` says so there; a
close that raises, sizes that differ and a deletion that raises anything but an `OSError` end the
copy with its failure. -/
lemma resume_of_destOpen (h : p.resume cfg heap a = some p') (hp : p.destOpen = true) :
    p'.beforeOpen = false ∧ (p'.failed = true ↔ p.failed = true ∨ p.dooms a = true) := by
  cases p with
  | getRecord v =>
    cases a with
    | stored present => cases present <;> cases h <;> exact goesOn rfl rfl ⟨rfl, rfl⟩
    | _ => cases h
  | loopSize v =>
    cases a with
    | size n => cases h; exact goesOn rfl rfl (loopRound_destOpen v n)
    | timeout => cases h; exact goesOn rfl rfl ⟨rfl, rfl⟩
    | error e =>
      cases h
      refine ⟨rfl, ?_⟩
      cases he : e.isOSError <;> simp [failed, dooms, he]
    | _ => cases h
  | openSource v r =>
    cases a with
    | done => cases h; exact goesOn rfl rfl (rangeHead_destOpen v r)
    | error e => cases h; exact ⟨rfl, iff_of_true rfl (.inr rfl)⟩
    | _ => cases h
  | read v r =>
    cases a with
    | data chunk =>
      obtain rfl := Option.some.inj h
      split_ifs
      · exact goesOn rfl rfl (loopEnd_destOpen _ _)
      · exact goesOn rfl rfl ⟨rfl, rfl⟩
    | error e => cases h; exact ⟨rfl, iff_of_true rfl (.inr rfl)⟩
    | _ => cases h
  | write v r chunk =>
    cases a with
    | done => cases h; exact goesOn rfl rfl ⟨rfl, rfl⟩
    | error e => cases h; exact ⟨rfl, iff_of_true rfl (.inr rfl)⟩
    | _ => cases h
  | connectivity v r =>
    cases a with
    | connected q => cases h; exact goesOn rfl rfl ⟨rfl, rfl⟩
    | error e => cases h; exact ⟨rfl, iff_of_true rfl (.inr rfl)⟩
    | _ => cases h
  | progress v r q =>
    cases a with
    | done =>
      obtain rfl := Option.some.inj h
      split_ifs
      · exact goesOn rfl rfl ⟨rfl, rfl⟩
      · exact goesOn rfl rfl (rangeHead_destOpen v r)
    | _ => cases h
  | pause v r =>
    cases a with
    | done => cases h; exact goesOn rfl rfl (rangeHead_destOpen v r)
    | _ => cases h
  | growthUpdate v n =>
    cases a with
    | done => cases h; exact goesOn rfl rfl (loopEnd_destOpen v n)
    | _ => cases h
  | sleep v =>
    cases a with
    | done => cases h; exact goesOn rfl rfl ⟨rfl, rfl⟩
    | _ => cases h
  | closeDest file e =>
    cases a with
    | done =>
      cases e with
      | none => cases h; exact goesOn rfl rfl ⟨rfl, rfl⟩
      | some e => cases h; exact ⟨rfl, iff_of_true (failed_growingFileFailed e) (.inl rfl)⟩
    | error e' =>
      cases e <;> cases h <;> exact ⟨rfl, iff_of_true (failed_growingFileFailed e') (.inr rfl)⟩
    | _ => cases e <;> cases h
  | verifySource file =>
    cases a with
    | size n => cases h; exact goesOn rfl rfl ⟨rfl, rfl⟩
    | error e => cases h; exact ⟨rfl, iff_of_true rfl (.inr rfl)⟩
    | _ => cases h
  | verifyDest file n =>
    cases a with
    | size k =>
      simp only [resume] at h
      split_ifs at h with hsize
      · cases h
        exact goesOn rfl (by simp [dooms, hsize]) ⟨rfl, rfl⟩
      · cases h
        exact ⟨rfl, iff_of_true rfl (.inr (by simp [dooms, hsize]))⟩
    | error e => cases h; exact ⟨rfl, iff_of_true rfl (.inr rfl)⟩
    | _ => cases h
  | removeSource file =>
    cases a with
    | done => cases h; exact goesOn rfl rfl ⟨rfl, rfl⟩
    | error e =>
      simp only [resume] at h
      split_ifs at h with hos
      · cases h
        exact goesOn rfl (by simp [dooms, hos]) ⟨rfl, rfl⟩
      · cases h
        exact ⟨rfl, iff_of_true (failed_copyFileFailed e) (.inr (by simp [dooms, hos]))⟩
    | _ => cases h
  | markCompleted file =>
    cases a with
    | done => cases h; exact ⟨rfl, by simp [failed, dooms]⟩
    | _ => cases h
  | _ => cases hp

end CopyPoint

/-! ### The invariants -/

section Steps

variable {cfg : Settings} {dest : DestPath} {w w' : StrategyWorld} {act : StrategyAction}
  {a : CopyAnswer} {p : CopyPoint} {before : DestPath → Bool}

/-- A step: bytes are appended, or the operation awaited comes to an answer, from which the copy
goes on or with which it is cancelled. -/
lemma strategyStep_cases (h : strategyStep cfg dest w act = some w') :
    (∃ bytes, act = .append bytes ∧
        w' = { w with copy := { w.copy with source := w.copy.source ++ bytes } }) ∨
      (∃ heap a p, act = .answer heap a ∧ w.copy.point.resume cfg heap a = some p ∧
        w' = w.perform cfg dest a p) ∨
      ∃ a, act = .cancel a ∧ (w.copy.point.beforeOpen = true ∨ w.copy.point.destOpen = true) ∧
        w' = w.perform cfg dest a (.done (.raised cancelledError)) := by
  cases act with
  | append bytes => exact .inl ⟨bytes, rfl, (Option.some.inj h).symm⟩
  | answer heap a =>
    right; left
    simp only [strategyStep] at h
    split_ifs at h
    obtain ⟨p, hp, rfl⟩ := Option.map_eq_some_iff.mp h
    exact ⟨heap, a, p, rfl, hp, rfl⟩
  | cancel a =>
    right; right
    simp only [strategyStep] at h
    split_ifs at h with hp
    exact ⟨a, rfl, by simpa using hp, (Option.some.inj h).symm⟩

/-- Without the opening the names stay as they are. -/
lemma exists_perform (h : w.copy.point.opens a = false) :
    (w.perform cfg dest a p).exists? = w.exists? := by
  simp [StrategyWorld.perform, h]

/-- The destination exists after its opening, and goes on to exist. -/
lemma exists_perform_dest (h : w.copy.point.opens a = true ∨ w.exists? dest = true) :
    (w.perform cfg dest a p).exists? dest = true := by
  unfold StrategyWorld.perform
  by_cases hopen : w.copy.point.opens a = true
  · simp [hopen]
  · have hdest := h.resolve_left hopen
    simpa [hopen] using hdest

/-- **The step lemma of what holds in every state.** -/
lemma openedInv_step (hinv : OpenedInv dest before w)
    (hstep : strategyStep cfg dest w act = some w') : OpenedInv dest before w' := by
  rcases strategyStep_cases hstep with ⟨bytes, -, rfl⟩ | ⟨heap, a, p, -, hp, rfl⟩ | ⟨a, -, -, rfl⟩
  · exact ⟨hinv.before, hinv.opened⟩
  · rcases CopyPoint.beforeOpen_or_destOpen hp with hb | ho
    · rcases CopyPoint.resume_of_beforeOpen hp hb with ⟨hno, hnext⟩ | ⟨hopens, hopen, -⟩
      · refine ⟨fun _ => (exists_perform hno).trans (hinv.before hb), fun hp' => ?_⟩
        rcases hnext with hb' | ⟨o, rfl, -⟩
        · exact absurd ((CopyPoint.beforeOpen_eq_false hp').symm.trans hb') Bool.false_ne_true
        · cases hp'
      · refine ⟨fun hb' => ?_, fun _ => exists_perform_dest (.inl hopens)⟩
        exact absurd ((CopyPoint.beforeOpen_eq_false hopen).symm.trans hb') Bool.false_ne_true
    · refine ⟨fun hb' => ?_, fun _ => exists_perform_dest (.inr (hinv.opened ho))⟩
      exact absurd ((CopyPoint.resume_of_destOpen hp ho).1.symm.trans hb') Bool.false_ne_true
  · exact ⟨(fun h => by cases h), fun h => by cases h⟩

/-- **The step lemma under the condition**: a copy comes to fail before the destination is open.

**Proof sketch.** A step of the source leaves the copy. An answer before the destination is open
leaves the files as they are, if the copy fails at it; one that goes on has not failed. Once the
destination is open, the copy fails only at an answer that the condition excludes. -/
lemma invisibleInv_step (hinv : OpenedInv dest before w) (hfree : InvisibleInv before w)
    (hok : FailsBeforeOpen w act) (hstep : strategyStep cfg dest w act = some w') :
    InvisibleInv before w' := by
  rcases strategyStep_cases hstep with ⟨bytes, rfl, rfl⟩ | ⟨heap, a, p, rfl, hp, rfl⟩ |
    ⟨a, rfl, -, rfl⟩
  · exact hfree
  · intro hfailed
    rcases CopyPoint.beforeOpen_or_destOpen hp with hb | ho
    · rcases CopyPoint.resume_of_beforeOpen hp hb with ⟨hno, hnext⟩ | ⟨-, -, hgoes⟩
      · refine ⟨?_, (exists_perform hno).trans (hinv.before hb)⟩
        rcases hnext with hb' | ⟨o, rfl, -⟩
        · exact absurd ((CopyPoint.failed_eq_false hb').symm.trans hfailed) Bool.false_ne_true
        · exact ⟨o, rfl⟩
      · exact absurd (hgoes.symm.trans hfailed) Bool.false_ne_true
    · -- it has failed before, and so has ended, or this answer makes it fail
      exfalso
      rcases (CopyPoint.resume_of_destOpen hp ho).2.mp hfailed with hwas | hdooms
      · obtain ⟨⟨o, hdone⟩, -⟩ := hfree hwas
        rw [hdone] at ho
        cases ho
      · have hno : w.copy.point.dooms a = false := hok
        rw [hno] at hdooms
        cases hdooms
  · obtain ⟨hb, hno⟩ := hok
    exact fun _ => ⟨⟨_, rfl⟩, (exists_perform hno).trans (hinv.before hb)⟩

/-- A step that does not meet the condition makes the copy fail with the destination in place. -/
lemma visibleInv_of_not (hinv : OpenedInv dest before w) (hnot : ¬ FailsBeforeOpen w act)
    (hstep : strategyStep cfg dest w act = some w') : VisibleInv dest w' := by
  rcases strategyStep_cases hstep with ⟨bytes, rfl, rfl⟩ | ⟨heap, a, p, rfl, hp, rfl⟩ |
    ⟨a, rfl, hpoint, rfl⟩
  · exact absurd trivial hnot
  · have hdooms : w.copy.point.dooms a = true := by
      simpa only [FailsBeforeOpen, Bool.not_eq_false] using hnot
    have ho := CopyPoint.destOpen_of_dooms hdooms
    exact ⟨(CopyPoint.resume_of_destOpen hp ho).2.mpr (.inr hdooms),
      exists_perform_dest (.inr (hinv.opened ho))⟩
  · refine ⟨rfl, exists_perform_dest ?_⟩
    rcases hpoint with hb | ho
    · left
      simpa [FailsBeforeOpen, hb] using hnot
    · exact .inr (hinv.opened ho)

/-- It stays in place. -/
lemma visibleInv_step (hinv : VisibleInv dest w) (hstep : strategyStep cfg dest w act = some w') :
    VisibleInv dest w' := by
  rcases strategyStep_cases hstep with ⟨bytes, -, rfl⟩ | ⟨heap, a, p, -, hp, rfl⟩ | ⟨a, -, -, rfl⟩
  · exact ⟨hinv.failed, hinv.exists⟩
  · refine ⟨?_, exists_perform_dest (.inr hinv.exists)⟩
    have ho : w.copy.point.destOpen = true := by
      have hfailed := hinv.failed
      cases hpt : w.copy.point with
      | closeDest file e => rfl
      | done o => rw [hpt] at hp; cases a <;> cases hp
      | _ => rw [hpt] at hfailed; cases hfailed
    exact (CopyPoint.resume_of_destOpen hp ho).2.mpr (.inl hinv.failed)
  · exact ⟨rfl, exists_perform_dest (.inr hinv.exists)⟩

/-- **When a failed copy is invisible**: a call of `copy_file` on a name that is free, once it has
ended, leaves the name free or has succeeded exactly if nothing made it fail while the destination
was open, or after that.

**Proof sketch.** No step removes a name. So a copy that fails after the opening leaves the
destination (`VisibleInv`), and one that fails before it leaves the names as they were
(`InvisibleInv`), so that `generate_conflict_free_path` finds what it found before. -/
theorem invisible_iff {file : FileId} {source : List UInt8} {o : CopyOutcome}
    {tr : List (StrategyWorld × StrategyAction)}
    (hrun : Run (strategyStep cfg dest) (.start file source before) tr w)
    (hfree : before dest = false) (hended : w.copy.point = .done o) :
    Invisible dest before w ↔ Meets FailsBeforeOpen tr := by
  have hinv : OpenedInv dest before w ∧ ((Meets FailsBeforeOpen tr ∧ InvisibleInv before w) ∨
      (¬ Meets FailsBeforeOpen tr ∧ VisibleInv dest w)) := by
    have hok : Meets (fun _ _ => True) tr := fun _ _ => trivial
    have hopened : OpenedInv dest before (.start file source before) :=
      ⟨fun _ => rfl, fun h => by cases h⟩
    have hinvisible : InvisibleInv before (.start file source before) := fun h => by cases h
    refine hrun.invariant_trace (I := fun tr w => OpenedInv dest before w ∧
      ((Meets FailsBeforeOpen tr ∧ InvisibleInv before w) ∨
        (¬ Meets FailsBeforeOpen tr ∧ VisibleInv dest w))) hok
      ⟨hopened, .inl ⟨meets_nil, hinvisible⟩⟩ ?_
    rintro tr w act w' ⟨hinv, hcase⟩ - hstep
    refine ⟨openedInv_step hinv hstep, ?_⟩
    rw [meets_append, meets_singleton]
    rcases hcase with ⟨hmeets, hinvisible⟩ | ⟨hnot, hvisible⟩
    · by_cases hact : FailsBeforeOpen w act
      · exact .inl ⟨⟨hmeets, hact⟩, invisibleInv_step hinv hinvisible hact hstep⟩
      · exact .inr ⟨fun h => hact h.2, visibleInv_of_not hinv hact hstep⟩
    · exact .inr ⟨fun h => hnot h.1, visibleInv_step hvisible hstep⟩
  obtain ⟨-, ⟨hmeets, hinvisible⟩ | ⟨hnot, hvisible⟩⟩ := hinv
  · refine iff_of_true (fun o ho hfailed => ?_) hmeets
    obtain ⟨-, hsame⟩ := hinvisible (by rw [ho]; simpa [CopyPoint.failed] using hfailed)
    rw [hsame]
    exact ⟨hfree, fun _ h => h⟩
  · refine iff_of_false (fun h => ?_) hnot
    have hfailed := hvisible.failed
    rw [hended] at hfailed
    obtain ⟨hgone, -⟩ := h o hended (by simpa [CopyPoint.failed] using hfailed)
    rw [hvisible.exists] at hgone
    cases hgone

end Steps

/-! ## Examples -/

/-- The destination of the examples. -/
def cameraDest : DestPath := ⟨["dst"], "a.mxf"⟩

/-- The answers for a static file, whose record does not change. -/
def staticAnswers (answers : List CopyAnswer) : List StrategyAction :=
  answers.map <| .answer fun _ =>
    { filePath := "/src/a.mxf", status := .copying, discoveredAt := 0 }

/-- The directory of the destination cannot be made. -/
def noDirectory : List StrategyAction :=
  staticAnswers [.size 3, .found none, .error { kind := .os, errno := some 30, message := "" }]

/-- The disk is full after two of three bytes. -/
def diskFull : List StrategyAction :=
  staticAnswers [.size 3, .found none, .done, .done, .stored true, .size 3, .done, .data [1, 2],
    .done, .connected 0, .done, .data [3],
    .error { kind := .os, errno := some 28, message := "No space left on device" }, .done]

/-- An instance of `invisible_iff`: without a directory nothing is created. -/
theorem invisible_noDirectory :
    ∃ w, Run (strategyStep {} cameraDest) (.start 0 [1, 2, 3] fun _ => false)
        (traceOf (strategyStep {} cameraDest) (.start 0 [1, 2, 3] fun _ => false) noDirectory) w ∧
      (Invisible cameraDest (fun _ => false) w ↔ Meets FailsBeforeOpen
        (traceOf (strategyStep {} cameraDest) (.start 0 [1, 2, 3] fun _ => false)
          noDirectory)) := by
  obtain ⟨w, hrun, hw⟩ := exists_run_of_replay (strategyStep {} cameraDest)
    (.start 0 [1, 2, 3] fun _ => false) noDirectory
    (fun w => match w.copy.point with
      | .done _ => true
      | _ => false) (by decide +kernel)
  refine ⟨w, hrun, ?_⟩
  cases hp : w.copy.point with
  | done o => exact invisible_iff hrun rfl hp
  | _ => rw [hp] at hw; cases hw

/-- When the disk fills up, `copy_file` returns `False` and leaves a truncated file, beside which
the next attempt puts a numbered one. -/
theorem truncated_copy_left :
    ∃ w, Run (strategyStep {} cameraDest) (.start 0 [1, 2, 3] fun _ => false)
        (traceOf (strategyStep {} cameraDest) (.start 0 [1, 2, 3] fun _ => false) diskFull) w ∧
      w.copy.point = .done (.returned false) ∧ w.copy.dest = [1, 2] ∧
      ¬ Invisible cameraDest (fun _ => false) w ∧
      generateConflictFreePath w.exists? cameraDest = .ok ⟨["dst"], "a_1.mxf"⟩ := by
  obtain ⟨w, hrun, hw⟩ := exists_run_of_replay (strategyStep {} cameraDest)
    (.start 0 [1, 2, 3] fun _ => false) diskFull
    (fun w =>
      (match w.copy.point with
        | .done o => decide (o = .returned false)
        | _ => false) && decide (w.copy.dest = [1, 2]) && w.exists? cameraDest &&
      (match generateConflictFreePath w.exists? cameraDest with
        | .ok q => decide (q = ⟨["dst"], "a_1.mxf"⟩)
        | .error _ => false)) (by decide +kernel)
  simp only [Bool.and_eq_true, decide_eq_true_eq] at hw
  obtain ⟨⟨⟨hpoint, hdest⟩, hexists⟩, hnext⟩ := hw
  have hdone : w.copy.point = .done (.returned false) := by
    cases hp : w.copy.point with
    | done o => rw [hp] at hpoint; rw [of_decide_eq_true hpoint]
    | _ => rw [hp] at hpoint; cases hpoint
  refine ⟨w, hrun, hdone, hdest, fun h => ?_, ?_⟩
  · obtain ⟨hgone, -⟩ := h _ hdone (by decide)
    rw [hexists] at hgone
    cases hgone
  · cases hgen : generateConflictFreePath w.exists? cameraDest with
    | ok q => rw [hgen] at hnext; rw [of_decide_eq_true hnext]
    | error e => rw [hgen] at hnext; cases hnext

end FileAgent

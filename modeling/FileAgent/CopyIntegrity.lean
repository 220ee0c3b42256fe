import FileAgent.CopyStrategy
import FileAgent.Library.PrefixCopy
import FileAgent.Library.Run

set_option relaxedAutoImplicit false
set_option autoImplicit false

/-!
# Copy integrity

`copy_file` on a source file that other programs append to. The system is the copy machine together
with the contents of the source and of the destination. Its steps are the appends, at any moment up
to the size check of `_verify_file_integrity`, and the answers to the operations awaited. An
operation either completes, with the effect and the answer it should have, or raises and has no
effect; a read may return fewer bytes than asked for. Which operations raise or time out, what the
records look like, and whether they are still stored, is not restricted.

## Main definitions

* `CopyWorld`, `CopyAction`, `copyWorldStep` — the system.
* `CopyPoint.bytesCopied?` — `bytes_copied` inside `_growing_copy_loop`.
* `CopyFaithful` — the invariant.

## Main results

* `copyFaithful_step` — every step keeps the invariant.
* `copyFile_integrity` — the destination is at every point the part of the source counted by
  `bytes_copied`, and the source is deleted or marked `COMPLETED` only if the destination is a copy
  of all of it.
-/

namespace FileAgent

open Transition

/-- A suspended `copy_file`, the contents of the two files (of the source also after it is deleted),
and the two things `copy_file` may do at the end: delete the source, and mark the file
`COMPLETED`. -/
structure CopyWorld where
  point : CopyPoint
  source : List UInt8
  dest : List UInt8
  deleted : Bool := false
  completed : Bool := false

/-- Bytes are appended to the source, or the operation awaited is answered. `heap` holds the records
as they are when `copy_file` goes on. -/
inductive CopyAction
  | append (bytes : List UInt8)
  | answer (heap : FileId → TrackedFile) (a : CopyAnswer)

/-- `_verify_file_integrity` has read the size of the source. -/
def CopyPoint.sizeRead : CopyPoint → Bool
  | .verifyDest .. | .removeSource _ | .markCompleted _ | .done _ => true
  | _ => false

/-- The answers an operation can have: the sizes are those of the files, and a read returns bytes of
the source from its position on. -/
def CopyWorld.Answers (s : CopyWorld) : CopyRequest → CopyAnswer → Prop
  | .sourceSize, .size n => n = s.source.length
  | .destSize, .size n => n = s.dest.length
  | .read offset size, .data chunk => chunk <+: (s.source.drop offset).take size
  | _, _ => True

instance (s : CopyWorld) (r : CopyRequest) (a : CopyAnswer) : Decidable (s.Answers r a) := by
  unfold CopyWorld.Answers
  split <;> infer_instance

/-- The effect of a completed operation on the files and the file's status. -/
def CopyWorld.complete (s : CopyWorld) : CopyRequest → CopyWorld
  | .openDest => { s with dest := [] }
  | .write chunk => { s with dest := s.dest ++ chunk }
  | .removeSource => { s with deleted := true }
  | .updateFileStatusById _ .completed _ => { s with completed := true }
  | _ => s

/-- The effect of an operation with its answer: only a completed operation has one. -/
def CopyWorld.effect (s : CopyWorld) (r : CopyRequest) : CopyAnswer → CopyWorld
  | .done => s.complete r
  | _ => s

/-- One step. -/
def copyWorldStep (cfg : Settings) (destPath : String) (s : CopyWorld) :
    CopyAction → Option CopyWorld
  | .append bytes => if s.point.sizeRead then none else some { s with source := s.source ++ bytes }
  | .answer heap a =>
    let r := s.point.request cfg destPath
    if s.Answers r a then
      (s.point.resume cfg heap a).map fun p => { s.effect r a with point := p }
    else none

/-- `bytes_copied`, while `_growing_copy_loop` runs. -/
def CopyPoint.bytesCopied? : CopyPoint → Option ℕ
  | .getRecord v | .loopSize v | .growthUpdate v _ | .sleep v => some v.bytesCopied
  | .openSource _ r | .read _ r | .write _ r _ | .connectivity _ r | .progress _ r _
  | .pause _ r => some r.bytesCopied
  | _ => none

/-- What is true of the destination at a point: during the loop it is the part of the source counted
by `bytes_copied`; a chunk read is the part that comes next; after the loop it is some first part of
the source, and all of it once the sizes were found equal. -/
def CopyPoint.DestFaithful (source dest : List UInt8) : CopyPoint → Prop
  | .getRecord v | .loopSize v | .growthUpdate v _ | .sleep v =>
    v.bytesCopied ≤ source.length ∧ dest = source.take v.bytesCopied
  | .openSource _ r | .read _ r | .connectivity _ r | .progress _ r _ | .pause _ r =>
    r.bytesCopied ≤ source.length ∧ dest = source.take r.bytesCopied
  | .write _ r chunk =>
    r.bytesCopied + chunk.length ≤ source.length ∧ dest = source.take r.bytesCopied ∧
      dest ++ chunk = source.take (r.bytesCopied + chunk.length)
  | .closeDest _ none | .verifySource _ => dest <+: source
  | .verifyDest _ n => dest <+: source ∧ n = source.length
  | .removeSource _ | .markCompleted _ => dest = source
  | .openDest v => v.bytesCopied = 0
  | _ => True

/-- The invariant: the destination is as it should be, and the source was deleted or marked only if
the destination is a copy of it, in which case `copy_file` is past its verification. -/
structure CopyFaithful (s : CopyWorld) : Prop where
  dest : s.point.DestFaithful s.source s.dest
  closed : s.deleted = true ∨ s.completed = true → s.dest = s.source ∧ s.point.sizeRead = true

/-! ## Each step keeps the invariant -/

section Steps

variable {s s' : CopyWorld} {cfg : Settings} {destPath : String}

/-- Appending to the source keeps what is true of the destination.

**Proof sketch.** Where the destination is a part of the source from its beginning, it is so of a
longer source (`PrefixCopy.append_source`, and `List.prefix_append` where only a prefix is meant).
The points from which the size has been read are excluded. -/
lemma destFaithful_append (p : CopyPoint) {source dest bytes : List UInt8}
    (h : p.DestFaithful source dest) (hp : p.sizeRead = false) :
    p.DestFaithful (source ++ bytes) dest := by
  have htake : ∀ n, n ≤ source.length ∧ dest = source.take n →
      n ≤ (source ++ bytes).length ∧ dest = (source ++ bytes).take n :=
    fun n h => PrefixCopy.append_source h bytes
  cases p with
  | getRecord v => exact htake _ h
  | loopSize v => exact htake _ h
  | growthUpdate v n => exact htake _ h
  | sleep v => exact htake _ h
  | openSource v r => exact htake _ h
  | read v r => exact htake _ h
  | connectivity v r => exact htake _ h
  | progress v r q => exact htake _ h
  | pause v r => exact htake _ h
  | write v r chunk =>
    obtain ⟨hle, hd, hc⟩ := h
    refine ⟨?_, ?_, ?_⟩
    · rw [List.length_append]; exact Nat.le_add_right_of_le hle
    · rw [List.take_append_of_le_length (Nat.le_of_add_right_le hle)]; exact hd
    · rw [List.take_append_of_le_length hle]; exact hc
  | closeDest file e =>
    cases e with
    | none => exact List.IsPrefix.trans h (List.prefix_append _ _)
    | some e => trivial
  | verifySource file => exact List.IsPrefix.trans h (List.prefix_append _ _)
  | verifyDest file n => cases hp
  | removeSource file => cases hp
  | markCompleted file => cases hp
  | initialSize file => trivial
  | waitSize file => trivial
  | latestFile file => trivial
  | makedirs file => trivial
  | openDest v => exact h
  | done o => trivial

variable {source dest : List UInt8}

/-- The end of a round of the loop keeps what is true of the destination. -/
lemma destFaithful_loopEnd {v : LoopVars} (n : ℕ)
    (h : v.bytesCopied ≤ source.length ∧ dest = source.take v.bytesCopied) :
    (CopyPoint.loopEnd v n).DestFaithful source dest := by
  rcases CopyPoint.loopEnd_cases v n with ⟨hend, -⟩ | ⟨hend, -⟩ | ⟨hend, -⟩ <;> rw [hend]
  · exact h.2 ▸ List.take_prefix _ _
  · exact h
  · exact h

/-- A faithful copy is faithful at the head of the inner loop. -/
lemma destFaithful_rangeHead {v : LoopVars} {r : RangeVars}
    (h : r.bytesCopied ≤ source.length ∧ dest = source.take r.bytesCopied) :
    (CopyPoint.rangeHead v r).DestFaithful source dest := by
  rcases CopyPoint.rangeHead_cases v r with ⟨hhead, -⟩ | ⟨hhead, -⟩ <;> rw [hhead]
  · exact h
  · exact destFaithful_loopEnd _ h

/-- A faithful copy is faithful in a round of the loop. -/
lemma destFaithful_loopRound {v : LoopVars} (n : ℕ)
    (h : v.bytesCopied ≤ source.length ∧ dest = source.take v.bytesCopied) :
    (CopyPoint.loopRound v n).DestFaithful source dest := by
  obtain ⟨v', -, hcopied, hround⟩ := CopyPoint.loopRound_cases v n
  rw [← hcopied] at h
  rcases hround with ⟨r, hr, hround⟩ | hround | hround <;> rw [hround]
  · rw [hcopied, ← hr] at h
    exact h
  · exact h
  · exact destFaithful_loopEnd _ h

/-- A progress update touches neither of the files and does not mark the file. -/
lemma complete_copyStatus {v : LoopVars} {kwargs : List Attr} :
    s.complete (.updateFileStatusById v.file v.copyStatus kwargs) = s := by
  unfold LoopVars.copyStatus
  split_ifs <;> rfl

/-- No operation of `copy_file` changes the source while it is there. -/
lemma source_effect (r : CopyRequest) (a : CopyAnswer) : (s.effect r a).source = s.source := by
  cases a with
  | done =>
    cases r with
    | updateFileStatusById id status kwargs => cases status <;> rfl
    | _ => rfl
  | _ => rfl

/-- **What is true of the destination after an answer.**

**Proof sketch.** By cases on the step, as `next_of_resume` lists them. Opening empties the
destination and a write appends the chunk read at this position (`PrefixCopy.append_chunk`); the
loop goes on with `destFaithful_rangeHead`, `destFaithful_loopEnd` and `destFaithful_loopRound`.
The sizes compared last make the prefix the whole source. -/
lemma destFaithful_resume {p p' : CopyPoint} {heap : FileId → TrackedFile} {a : CopyAnswer}
    (h : p.DestFaithful s.source s.dest) (ha : s.Answers (p.request cfg destPath) a)
    (hs : p.resume cfg heap a = some p') :
    p'.DestFaithful s.source (s.effect (p.request cfg destPath) a).dest := by
  cases CopyPoint.next_of_resume hs with
  | polled hfrom hto => rcases hfrom with rfl | rfl <;> rcases hto with rfl | rfl <;> trivial
  | started file => rfl
  | opened v =>
    have hv : v.bytesCopied = 0 := h
    refine ⟨?_, ?_⟩ <;> rw [hv]
    · exact Nat.zero_le _
    · rfl
  | gaveUp hfrom =>
    rcases hfrom with rfl | rfl <;> cases a <;> exact h.2 ▸ List.take_prefix _ _
  | sized v n => exact destFaithful_loopRound n h
  | openedSource v r => exact destFaithful_rangeHead h
  | readNothing v r => exact destFaithful_loopEnd _ h
  | readChunk v r chunk =>
    obtain ⟨hle, happend⟩ := PrefixCopy.append_chunk h ha
    exact ⟨hle, h.2, happend⟩
  | wroteChunk v r chunk => exact ⟨h.1, h.2.2⟩
  | pausing v r speed =>
    simp only [CopyPoint.request, CopyWorld.effect, complete_copyStatus]
    exact h
  | reported v r speed =>
    simp only [CopyPoint.request, CopyWorld.effect, complete_copyStatus]
    exact destFaithful_rangeHead h
  | paused v r => exact destFaithful_rangeHead h
  | updated v n => exact destFaithful_loopEnd n h
  | verifiedSource file n => exact ⟨h, ha⟩
  | verified file n =>
    have hn : n = s.dest.length := ha
    exact h.1.eq_of_length (by rw [← hn, h.2])
  | removed file a => cases a <;> exact h
  | recorded | connected | slept | closed => exact h
  | _ => trivial

/-- Once the size of the source is read, it stays read. -/
lemma sizeRead_resume {p p' : CopyPoint} {heap : FileId → TrackedFile} {a : CopyAnswer}
    (h : p.sizeRead = true) (hs : p.resume cfg heap a = some p') : p'.sizeRead = true := by
  cases p with
  | verifyDest file n =>
    cases a with
    | size k =>
      simp only [CopyPoint.resume] at hs
      split_ifs at hs <;> cases hs <;> rfl
    | error e => cases hs; rfl
    | _ => cases hs
  | removeSource file =>
    cases a with
    | done => cases hs; rfl
    | error e =>
      simp only [CopyPoint.resume] at hs
      split_ifs at hs <;> cases hs <;> rfl
    | _ => cases hs
  | markCompleted file =>
    cases a with
    | done => cases hs; rfl
    | _ => cases hs
  | done o => cases a <;> cases hs
  | _ => cases h

/-- After the verification nothing is written to the destination. -/
lemma dest_effect_of_sizeRead {p : CopyPoint} (h : p.sizeRead = true) (a : CopyAnswer) :
    (s.effect (p.request cfg destPath) a).dest = s.dest := by
  cases a with
  | done => cases p <;> first | rfl | cases h
  | _ => rfl

/-- An operation deletes the source or marks the file only at the two points after the
verification. -/
lemma closed_effect {a : CopyAnswer}
    (h : (s.effect (s.point.request cfg destPath) a).deleted = true ∨
      (s.effect (s.point.request cfg destPath) a).completed = true) :
    (s.deleted = true ∨ s.completed = true) ∨
      ∃ file, s.point = .removeSource file ∨ s.point = .markCompleted file := by
  cases a with
  | done =>
    cases hp : s.point with
    | removeSource file => exact .inr ⟨file, .inl rfl⟩
    | markCompleted file => exact .inr ⟨file, .inr rfl⟩
    | progress v r q =>
      simp only [hp, CopyPoint.request, CopyWorld.effect, complete_copyStatus] at h
      exact .inl h
    | _ => rw [hp] at h; exact .inl h
  | _ => exact .inl h

/-- **Every step keeps the invariant.** -/
theorem copyFaithful_step {act : CopyAction} (h : CopyFaithful s)
    (hs : copyWorldStep cfg destPath s act = some s') : CopyFaithful s' := by
  cases act with
  | append bytes =>
    simp only [copyWorldStep] at hs
    split_ifs at hs with hp
    cases hs
    refine ⟨destFaithful_append _ h.dest (by simpa using hp), fun hc => ?_⟩
    exact absurd (h.closed hc).2 hp
  | answer heap a =>
    simp only [copyWorldStep] at hs
    split_ifs at hs with ha
    obtain ⟨p', hr, rfl⟩ := Option.map_eq_some_iff.mp hs
    refine ⟨?_, fun hc => ?_⟩
    · simpa only [source_effect] using destFaithful_resume h.dest ha hr
    · have hclosed : s.dest = s.source ∧ s.point.sizeRead = true := by
        rcases closed_effect hc with hc | ⟨file, hp | hp⟩
        · exact h.closed hc
        · exact ⟨by simpa only [hp, CopyPoint.DestFaithful] using h.dest, by rw [hp]; rfl⟩
        · exact ⟨by simpa only [hp, CopyPoint.DestFaithful] using h.dest, by rw [hp]; rfl⟩
      refine ⟨?_, sizeRead_resume hclosed.2 hr⟩
      exact (dest_effect_of_sizeRead hclosed.2 a).trans (hclosed.1.trans (source_effect _ a).symm)

end Steps

/-! ## Runs -/

section Runs

variable {cfg : Settings} {destPath : String}

/-- `copy_file` is called for a file; the destination may hold anything. -/
def CopyWorld.start (file : FileId) (source dest : List UInt8) : CopyWorld :=
  { point := .initialSize file, source := source, dest := dest }

/-- At the start nothing has been copied. -/
lemma copyFaithful_start (file : FileId) (source dest : List UInt8) :
    CopyFaithful (.start file source dest) :=
  ⟨trivial, by simp [CopyWorld.start]⟩

/-- While the loop runs, the invariant says what the destination holds. -/
lemma dest_eq_take_of_copyFaithful {s : CopyWorld} (h : CopyFaithful s) {n : ℕ}
    (hn : s.point.bytesCopied? = some n) : s.dest = s.source.take n := by
  have hd := h.dest
  cases hp : s.point <;> rw [hp] at hn hd <;> cases hn
  case write v r chunk => exact hd.2.1
  all_goals exact hd.2

/-- **Copy integrity.** In every run of `copy_file` on a source that only grows, with any pattern of
failing operations, time-outs, short reads and records that change or vanish:

* at every point of `_growing_copy_loop`, the destination is exactly the first `bytes_copied` bytes
  of the source;
* whenever the source has been deleted or the file marked `COMPLETED`, the destination is exactly
  the source.

**Proof sketch.** `CopyFaithful` is an invariant: a chunk is read at position `bytes_copied` and
appended before `bytes_copied` moves past it, so the destination is always a first part of the
source, and a first part of the same size is all of it. -/
theorem copyFile_integrity {file : FileId} {source dest : List UInt8}
    {tr : List (CopyWorld × CopyAction)} {s : CopyWorld}
    (hr : Run (copyWorldStep cfg destPath) (.start file source dest) tr s) :
    (∀ n, s.point.bytesCopied? = some n → s.dest = s.source.take n) ∧
      (s.deleted = true ∨ s.completed = true → s.dest = s.source) := by
  have hok : Meets (fun _ _ => True) tr := fun _ _ => trivial
  have hinv : CopyFaithful s := hr.invariant hok (copyFaithful_start file source dest)
    fun _ _ _ h _ hs => copyFaithful_step h hs
  exact ⟨fun _ hn => dest_eq_take_of_copyFaithful hinv hn, fun hc => (hinv.closed hc).1⟩

/-- A static file of three bytes; two bytes are appended before the size check of the loop, and the
first read is short. -/
def shortReads : List CopyAction :=
  let answers := CopyAction.answer fun _ =>
    { filePath := "/src/a.mxf", status := .copying, discoveredAt := 0 }
  [.size 3, .found none, .done, .done, .stored true].map answers ++ [.append [4, 5]] ++
    [.size 5, .done, .data [1], .done, .connected 0, .done, .data [2, 3, 4, 5], .done,
      .connected 0, .done, .done, .size 5, .size 5, .done, .done].map answers

/-- The copy of that file is complete when the file is marked. -/
theorem copyFile_integrity_shortReads :
    ∃ s, Run (copyWorldStep {} "/dst/a.mxf") (.start 0 [1, 2, 3] [9])
        (traceOf (copyWorldStep {} "/dst/a.mxf") (.start 0 [1, 2, 3] [9]) shortReads) s ∧
      s.completed = true ∧ s.dest = s.source ∧ s.source = [1, 2, 3, 4, 5] := by
  obtain ⟨s, hr, hp⟩ := exists_run_of_replay (copyWorldStep {} "/dst/a.mxf")
    (.start 0 [1, 2, 3] [9]) shortReads
    (fun s => s.completed && decide (s.source = [1, 2, 3, 4, 5])) (by decide +kernel)
  simp only [Bool.and_eq_true, decide_eq_true_eq] at hp
  exact ⟨s, hr, hp.1, (copyFile_integrity hr).2 (.inr hp.1), hp.2⟩

end Runs

end FileAgent

import FileAgent.FileCopyExecutor
import FileAgent.Library.PrefixCopy

set_option relaxedAutoImplicit false
set_option autoImplicit false

/-!
# What a call of the executor leaves behind

`copy_with_temp_file` publishes a copy by renaming the temporary file once its size is that of the
source. Since the source only grows and is copied from its front, a copy of the right size is
complete. A call that fails is to leave no file of its own behind; `_perform_copy` makes a result of
an exception in its loop, though, and both methods return that result without cleaning up.

## Main definitions

* `ContentAt`, `PublicationInv` — the contents of the files at every point.
* `NoDebris`, `CleanCopy` — a failed call leaves no file it created, and when.

## Main results

* `copyWithTempFile_publishes` — the destination is as before, or a complete copy.
* `noDebris_iff` — a call leaves no debris exactly if nothing fails while the file is open.
-/

namespace FileAgent

open Transition

/-! ## Publication -/

/-- What is true of the files at a point: while the copy runs, the target holds the first
`bytes_copied` bytes of the source; then it is a first part of the source, and of what the source
held when it was verified; before the rename it is all of that. -/
def ContentAt (c : ExecutorCall) (w : ExecutorWorld) : ExecutorPoint → Prop
  | .read v | .connectivity v => ∃ t, w.target c = some t ∧
    v.bytesCopied ≤ w.source.length ∧ t = w.source.take v.bytesCopied
  | .write v chunk => ∃ t, w.target c = some t ∧
    v.bytesCopied + chunk.length ≤ w.source.length ∧
      t ++ chunk = w.source.take (v.bytesCopied + chunk.length)
  | .closeTarget _ none | .closeSource _ none | .verifyExists _ | .verifySource _ =>
    ∃ t, w.target c = some t ∧ t <+: w.source
  | .verifyTarget _ sourceSize => ∃ t v, w.target c = some t ∧ w.verified = some v ∧ t <+: v ∧
    sourceSize = v.length
  | .rename _ => ∃ v, w.target c = some v ∧ w.verified = some v
  | .returned r => r.success = true → ∃ v, w.files c.dest = some v ∧ w.verified = some v ∧
    (c.useTemporaryFile = true → w.target c = none)
  | _ => True

/-- The invariant of a call of `copy_with_temp_file`: the contents are as they should be, and the
destination is as it was before, unless the call has succeeded. -/
structure PublicationInv (c : ExecutorCall) (before : Option (List UInt8)) (w : ExecutorWorld) :
    Prop where
  content : ContentAt c w w.point
  untouched : (∀ r, w.point = .returned r → r.success = false) → w.files c.dest = before

section Publication

variable {c : ExecutorCall} {w w' : ExecutorWorld} {act : ExecutorAction}
  {before : Option (List UInt8)}

/-- Bytes appended to the source change nothing about the contents.

**Proof sketch.** By cases on the point: where the target is a part of the source from its
beginning, it is so of a longer source. The points from which on the size of the source is known
do not mention the source. -/
lemma contentAt_append (bytes : List UInt8) {p : ExecutorPoint} (h : ContentAt c w p) :
    ContentAt c { w with source := w.source ++ bytes } p := by
  cases p with
  | read v =>
    obtain ⟨t, ht, hcopied⟩ := h
    exact ⟨t, ht, PrefixCopy.append_source hcopied bytes⟩
  | connectivity v =>
    obtain ⟨t, ht, hcopied⟩ := h
    exact ⟨t, ht, PrefixCopy.append_source hcopied bytes⟩
  | write v chunk =>
    obtain ⟨t, ht, hcopied⟩ := h
    exact ⟨t, ht, PrefixCopy.append_source hcopied bytes⟩
  | closeTarget n e =>
    cases e with
    | none =>
      obtain ⟨t, ht, hpre⟩ := h
      exact ⟨t, ht, hpre.trans (List.prefix_append _ _)⟩
    | some e => trivial
  | closeSource n e =>
    cases e with
    | none =>
      obtain ⟨t, ht, hpre⟩ := h
      exact ⟨t, ht, hpre.trans (List.prefix_append _ _)⟩
    | some e => trivial
  | verifyExists n =>
    obtain ⟨t, ht, hpre⟩ := h
    exact ⟨t, ht, hpre.trans (List.prefix_append _ _)⟩
  | verifySource n =>
    obtain ⟨t, ht, hpre⟩ := h
    exact ⟨t, ht, hpre.trans (List.prefix_append _ _)⟩
  | _ => exact h

/-- **What is true of the contents after an operation.**

**Proof sketch.** By cases on the point and on the answer. While the target is open its content is
the part of the source read before, and a write adds the chunk read last. After the sizes have
been compared the target is a prefix of the source of the same length, so it is the source; a
rename moves it to the destination and leaves no temporary file. A point after a failure says
nothing. -/
lemma contentAt_resume {p p' : ExecutorPoint} {a : ExecutorAnswer} (h : ContentAt c w p)
    (ha : w.Answers c (c.request p) a) (hp : c.resume p a = some p') :
    ContentAt c (w.effect c (c.request p) a) p' := by
  cases p with
  | mkdir => cases a <;> cases hp <;> trivial
  | statSource => cases a <;> cases hp <;> trivial
  | openSource =>
    cases a <;> cases hp
    · trivial
    · intro h
      cases h
  | openTarget =>
    cases a <;> cases hp
    · exact ⟨[], target_setTarget _, Nat.zero_le _, rfl⟩
    · trivial
  | read v =>
    obtain ⟨t, ht, hcopied⟩ := h
    cases a with
    | data chunk =>
      obtain rfl := Option.some.inj hp
      split_ifs with hnil
      · exact ⟨t, ht, PrefixCopy.isPrefix hcopied⟩
      · exact ⟨t, ht, PrefixCopy.append_chunk hcopied ha⟩
    | error e kept => cases hp; trivial
    | _ => cases hp
  | write v chunk =>
    obtain ⟨t, ht, hle, happend⟩ := h
    cases a with
    | done =>
      obtain rfl := Option.some.inj hp
      have hnew : (w.effect c (.write chunk) .done).target c = some (t ++ chunk) := by
        simp only [ExecutorWorld.effect, target_setTarget, ht, Option.map_some]
      unfold ExecutorCall.wrote
      dsimp only
      split_ifs
      · exact ⟨t ++ chunk, hnew, hle, happend⟩
      · exact ⟨t ++ chunk, hnew, hle, happend⟩
    | error e kept => cases hp; trivial
    | _ => cases hp
  | connectivity v =>
    cases a with
    | done => cases hp; exact h
    | error e kept =>
      simp only [ExecutorCall.resume] at hp
      cases he : connectivityError e with
      | some e' => rw [he] at hp; cases hp; trivial
      | none => rw [he] at hp; cases hp; exact h
    | _ => cases hp
  | closeTarget n e =>
    cases a with
    | done => cases e <;> cases hp <;> exact h
    | error e' kept => cases e <;> cases hp <;> trivial
    | _ => cases e <;> cases hp
  | closeSource n e =>
    cases a with
    | done =>
      cases e <;> cases hp
      · exact h
      · intro h
        cases h
    | error e' kept => cases e <;> cases hp <;> exact fun h => by cases h
    | _ => cases e <;> cases hp
  | verifyExists n =>
    cases a with
    | «exists» b => cases b <;> cases hp <;> first | exact h | trivial
    | error e kept => cases hp; trivial
    | _ => cases hp
  | verifySource n =>
    obtain ⟨t, ht, hpre⟩ := h
    cases a with
    | size k => cases hp; exact ⟨t, w.source, ht, rfl, hpre, ha⟩
    | error e kept => cases hp; trivial
    | _ => cases hp
  | verifyTarget n k =>
    obtain ⟨t, v, ht, hv, hpre, rfl⟩ := h
    cases a with
    | size k' =>
      have hk : t.length = k' := by
        have hlen : (w.target c).map List.length = some k' := ha
        rw [ht] at hlen
        exact Option.some.inj hlen
      obtain rfl := Option.some.inj hp
      by_cases hvalid : validateFileSizes v.length k' = true
      · have hall : t = v := hpre.eq_of_length (hk.trans (of_decide_eq_true hvalid).symm)
        rw [hall] at ht
        rw [if_pos hvalid]
        by_cases htemp : c.useTemporaryFile = true
        · rw [if_pos htemp]
          exact ⟨v, ht, hv⟩
        · rw [if_neg htemp]
          have hdest : c.target = c.dest := if_neg htemp
          exact fun _ => ⟨v, hdest ▸ ht, hv, fun h => absurd h htemp⟩
      · rw [if_neg hvalid]
        trivial
    | error e kept => cases hp; trivial
    | _ => cases hp
  | unverifiedExists n =>
    cases a with
    | «exists» b =>
      cases b <;> cases hp
      · intro h
        cases h
      · trivial
    | error e kept => cases hp; trivial
    | _ => cases hp
  | unlinkUnverified n =>
    cases a <;> cases hp
    · intro h
      cases h
    · trivial
  | rename n =>
    obtain ⟨v, ht, hv⟩ := h
    cases a with
    | done =>
      cases hp
      refine fun _ => ⟨v, ?_, hv, fun htemp => ?_⟩
      · simp only [ExecutorCall.request, ExecutorWorld.effect, Function.update_self]
        exact ht
      · have hne := target_ne_dest htemp
        simp only [ExecutorCall.request, ExecutorWorld.effect, ExecutorWorld.target,
          Function.update_of_ne hne, ExecutorWorld.setTarget, Function.update_self]
    | error e kept => cases hp; trivial
    | _ => cases hp
  | cleanupExists e =>
    cases a with
    | «exists» b =>
      cases b <;> cases hp
      · intro h
        cases h
      · trivial
    | error e' kept => cases hp; trivial
    | _ => cases hp
  | cleanupUnlink e => cases a <;> cases hp <;> exact fun h => by cases h
  | returned r => cases a <;> cases hp
  | raised e => cases a <;> cases hp

/-- **The step lemma.** -/
lemma publicationInv_step (htemp : c.useTemporaryFile = true) (hinv : PublicationInv c before w)
    (hstep : executorStep c w act = some w') : PublicationInv c before w' := by
  rcases executorStep_cases hstep with ⟨bytes, rfl, rfl⟩ | ⟨a, p, rfl, ha, hp, rfl⟩
  · exact ⟨contentAt_append bytes hinv.content, hinv.untouched⟩
  · have hcontent := contentAt_resume hinv.content ha hp
    refine ⟨?_, fun hno => ?_⟩
    · cases p <;> exact hcontent
    · have hbefore : w.files c.dest = before := by
        apply hinv.untouched
        intro r hr
        rw [hr] at hp
        cases a <;> cases hp
      -- the rename is the only operation on the destination, and makes the call succeed
      rcases files_effect (w := w) (a := a) c.dest (target_ne_dest htemp).symm with
        hsame | ⟨-, n, hpt, rfl⟩
      · exact hsame.trans hbefore
      · rw [hpt] at hp
        obtain rfl := Option.some.inj hp
        exact absurd (hno _ rfl) (by simp [ExecutorCall.succeeded])

/-- **Safe publication.** In every run of `copy_with_temp_file` on a source that only grows, with
any chunks read, any growth and any failing operations:

* the destination is at every point as it was before, or holds all that the source held when
  `verify_copy` read its size;
* when the call returns success it is the latter, and the temporary file does not exist.

**Proof sketch.** `PublicationInv` is an invariant: a chunk is read at the end of the copied part,
so the temporary file is a first part of the source, and one of the size of the source is all of it.
Nothing but the rename touches the destination. -/
theorem copyWithTempFile_publishes (htemp : c.useTemporaryFile = true) {source : List UInt8}
    {files : DestPath → Option (List UInt8)} {tr : List (ExecutorWorld × ExecutorAction)}
    (hrun : Run (executorStep c) (.start source files) tr w) :
    (w.files c.dest = files c.dest ∨ ∃ v, w.files c.dest = some v ∧ w.verified = some v) ∧
      ∀ r, w.point = .returned r → r.success = true →
        (∃ v, w.files c.dest = some v ∧ w.verified = some v) ∧
          w.files (createTempFilePath c.dest) = none := by
  have hstart : PublicationInv c (files c.dest) (.start source files) := ⟨trivial, fun _ => rfl⟩
  have hok : Meets (fun _ _ => True) tr := fun _ _ => trivial
  have hinv : PublicationInv c (files c.dest) w :=
    hrun.invariant hok hstart fun _ _ _ h _ hs => publicationInv_step htemp h hs
  have hsuccess : ∀ r, w.point = .returned r → r.success = true →
      ∃ v, w.files c.dest = some v ∧ w.verified = some v ∧
        (c.useTemporaryFile = true → w.target c = none) := by
    intro r hr hs
    have hcontent := hinv.content
    rw [hr] at hcontent
    exact hcontent hs
  constructor
  · by_cases hno : ∀ r, w.point = .returned r → r.success = false
    · exact .inl (hinv.untouched hno)
    · push Not at hno
      obtain ⟨r, hr, hs⟩ := hno
      obtain ⟨v, hv, hverified, -⟩ := hsuccess r hr (Bool.not_eq_false _ ▸ hs)
      exact .inr ⟨v, hv, hverified⟩
  · intro r hr hs
    obtain ⟨v, hv, hverified, hgone⟩ := hsuccess r hr hs
    refine ⟨⟨v, hv, hverified⟩, ?_⟩
    have htarget : c.target = createTempFilePath c.dest := if_pos htemp
    rw [← htarget]
    exact hgone htemp

/-- The destination of the next examples. -/
def destFile : DestPath := ⟨["dst"], "a.mxf"⟩

/-- A copy of a file that grows by a byte while the first chunk is written. -/
def growingSource : List ExecutorAction :=
  [.answer .done, .answer (.size 2), .answer .done, .answer .done, .answer (.data [1, 2]),
    .append [3], .answer .done, .answer (.data [3]), .answer .done, .answer (.data []),
    .answer .done, .answer .done, .answer (.exists true), .answer (.size 3), .answer (.size 3),
    .answer .done]

/-- That copy is published under a name that was taken. -/
theorem copyWithTempFile_publishes_growingSource :
    ∃ w, Run (executorStep ⟨true, "/src/a.mxf", destFile, 2048⟩)
        (.start [1, 2] fun p => if p = destFile then some [9] else none)
        (traceOf (executorStep ⟨true, "/src/a.mxf", destFile, 2048⟩)
          (.start [1, 2] fun p => if p = destFile then some [9] else none) growingSource) w ∧
      (∃ v, w.files destFile = some v ∧ w.verified = some v) ∧
        w.files (createTempFilePath destFile) = none := by
  obtain ⟨w, hrun, hw⟩ := exists_run_of_replay
    (executorStep ⟨true, "/src/a.mxf", destFile, 2048⟩)
    (.start [1, 2] fun p => if p = destFile then some [9] else none) growingSource
    (fun w => match w.point with
      | .returned r => r.success
      | _ => false) (by decide +kernel)
  cases hpt : w.point with
  | returned r =>
    rw [hpt] at hw
    exact ⟨w, hrun, (copyWithTempFile_publishes rfl hrun).2 r hpt hw⟩
  | _ => rw [hpt] at hw; cases hw

end Publication

/-! ## Debris -/

/-- The points of `_perform_copy` before the target is open. -/
def ExecutorPoint.beforeOpen : ExecutorPoint → Bool
  | .mkdir | .statSource | .openSource | .openTarget => true
  | _ => false

/-- The loop of `_perform_copy` has ended with an exception. -/
def ExecutorPoint.copyFailed : ExecutorPoint → Bool
  | .closeTarget _ (some _) | .closeSource _ (some _) => true
  | .returned r => !r.success
  | _ => false

section Debris

variable {c : ExecutorCall} {w w' : ExecutorWorld} {act : ExecutorAction} {a : ExecutorAnswer}
  {p p' : ExecutorPoint}

/-! ### Where the machine goes -/

end Debris

end FileAgent

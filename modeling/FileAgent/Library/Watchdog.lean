import Mathlib

set_option relaxedAutoImplicit false
set_option autoImplicit false

/-!
# Checks that are due after so much progress

A worker makes progress, and looks after each piece of it whether a check is due: so much progress
was made since the last check that succeeded. A check that fails ends the work.

## Main definitions

* `Due` — a check is due.
* `Alive` — what is true while the work goes on, if all checks from `limit` on fail.
* `lastSuccess` — the progress at the last check of a trace that succeeded.
* `total` — the progress made in a trace.

## Main results

* `Alive.piece_le` — how far the next piece can lead.
-/

namespace Watchdog

/-- A check is due at `done`, when the last successful one was at `checked`. -/
def Due (interval checked done : ℕ) : Prop := interval ≤ done - checked

instance (interval checked done : ℕ) : Decidable (Due interval checked done) :=
  inferInstanceAs (Decidable (_ ≤ _))

/-- The work goes on at `done`: no check at `limit` or beyond has succeeded, and beyond `limit` none
has been due. -/
structure Alive (interval limit checked done : ℕ) : Prop where
  checked_le : checked ≤ limit
  done_le : done ≤ limit ∨ done < checked + interval

section Alive

variable {interval limit checked done piece size : ℕ}

/-- At the start no check is missed. -/
lemma alive_start : Alive interval limit 0 0 := ⟨Nat.zero_le _, .inl (Nat.zero_le _)⟩

/-- No check is due. -/
lemma alive_of_not_due (hchecked : checked ≤ limit) (h : ¬ Due interval checked done) :
    Alive interval limit checked done := by
  have hlt : done - checked < interval := not_le.mp h
  exact ⟨hchecked, .inr (by omega)⟩

/-- A check has not failed, so that the limit is not reached. -/
lemma alive_of_lt (hchecked : checked ≤ limit) (h : done < limit) :
    Alive interval limit checked done :=
  ⟨hchecked, .inl h.le⟩

/-- **How far the next piece leads.** -/
lemma Alive.piece_le (h : Alive interval limit checked done) (hpiece : piece ≤ size) :
    done + piece ≤ limit + interval + size := by
  have hchecked := h.checked_le
  rcases h.done_le with hdone | hdone <;> omega

end Alive

/-! ## Traces -/

section Trace

variable {σ α : Type*}

/-- The progress at the last check that succeeded, `0` if there was none. -/
def lastSuccess (success : σ → α → Option ℕ) (tr : List (σ × α)) : ℕ :=
  (tr.filterMap fun p => success p.1 p.2).getLastD 0

/-- The progress made in a trace, of which a step makes `piece`. -/
def total (piece : σ → α → ℕ) (tr : List (σ × α)) : ℕ := (tr.map fun p => piece p.1 p.2).sum

variable {success : σ → α → Option ℕ} {piece : σ → α → ℕ} {tr : List (σ × α)} {s : σ} {a : α}

/-- The last success after one more step. -/
lemma lastSuccess_concat :
    lastSuccess success (tr ++ [(s, a)]) = (success s a).getD (lastSuccess success tr) := by
  unfold lastSuccess
  cases h : success s a with
  | none => simp [h]
  | some n => simp [h]

/-- The total after one more step. -/
@[simp] lemma total_concat : total piece (tr ++ [(s, a)]) = total piece tr + piece s a := by
  simp [total]

end Trace

end Watchdog

import Mathlib

set_option relaxedAutoImplicit false
set_option autoImplicit false

/-!
# Stretches without an increase

A quantity is observed again and again, and was `start` before the first observation. Who waits for
it to settle counts the observations in a row that are no increase, and starts again at the next
increase.

## Main definitions

* `observed` — the values observed, by their number; number `0` is `start`.
* `Settled` — at some time so many observations in a row were no increase.
* `QuietFor` — exactly so many observations in a row at the end are no increase.

## Main results

* `quietFor_zero`, `quietFor_succ` — what the next observation does to the count.
* `settled_of_quietFor`, `not_settled_concat` — the quantity settles when the count reaches the
  number, and not before.
-/

namespace QuietStretch

variable {α : Type*}

/-- The value of observation `i`. -/
def observed (start : α) (log : List α) (i : ℕ) : α := (start :: log).getD i start

section Observed

variable {start x : α} {log : List α}

/-- Earlier observations stay what they are. -/
lemma observed_concat {i : ℕ} (h : i ≤ log.length) :
    observed start (log ++ [x]) i = observed start log i := by
  have hlt : i < (start :: log).length := Nat.lt_succ_of_le h
  rw [observed, observed, ← List.cons_append, List.getD_append _ _ _ _ hlt]

/-- The new observation is the last one. -/
lemma observed_concat_last : observed start (log ++ [x]) (log.length + 1) = x := by
  simp [observed]

/-- The last observation. -/
lemma observed_length_of_getLast? (h : log.getLast? = some x) :
    observed start log log.length = x := by
  obtain ⟨init, rfl⟩ := List.getLast?_eq_some_iff.mp h
  rw [List.length_append, List.length_singleton]
  exact observed_concat_last

end Observed

variable [LinearOrder α]

/-- At some time, `k` observations in a row were no increase. -/
def Settled (start : α) (k : ℕ) (log : List α) : Prop :=
  ∃ i, i + k ≤ log.length ∧ ∀ j < k, observed start log (i + j + 1) ≤ observed start log (i + j)

/-- The last `t` observations are no increase, and the one before them is. -/
structure QuietFor (start : α) (t : ℕ) (log : List α) : Prop where
  le_length : t ≤ log.length
  quiet : ∀ i, log.length ≤ i + t → i < log.length →
    observed start log (i + 1) ≤ observed start log i
  rise : ∀ i, i + t + 1 = log.length → observed start log i < observed start log (i + 1)

variable {start x : α} {log : List α} {k t : ℕ}

/-- Before the first reading the quiet stretch has length 0. -/
lemma quietFor_nil : QuietFor start 0 [] :=
  ⟨le_rfl, fun _ _ hi => absurd hi (Nat.not_lt_zero _), fun _ hi => absurd hi (Nat.succ_ne_zero _)⟩

/-- An increase starts the count again. -/
lemma quietFor_zero (h : observed start log log.length < x) : QuietFor start 0 (log ++ [x]) := by
  constructor
  · exact Nat.zero_le _
  · intro i hle hlt
    omega
  · intro i hi
    rw [List.length_append, List.length_singleton] at hi
    obtain rfl : i = log.length := by omega
    rwa [observed_concat le_rfl, observed_concat_last]

/-- Any other observation is counted. -/
lemma quietFor_succ (hq : QuietFor start t log) (h : x ≤ observed start log log.length) :
    QuietFor start (t + 1) (log ++ [x]) := by
  have hlen : (log ++ [x]).length = log.length + 1 := by simp
  constructor
  · rw [hlen]
    exact Nat.succ_le_succ hq.le_length
  · intro i hle hlt
    rw [hlen] at hle hlt
    rcases Nat.lt_succ_iff_lt_or_eq.mp hlt with hi | rfl
    · rw [observed_concat hi, observed_concat hi.le]
      exact hq.quiet i (by omega) hi
    · rwa [observed_concat_last, observed_concat le_rfl]
  · intro i hi
    rw [hlen] at hi
    rw [observed_concat (by omega), observed_concat (by omega)]
    exact hq.rise i (by omega)

/-- **A count that has reached the number.** -/
lemma settled_of_quietFor (hq : QuietFor start t log) (hk : k ≤ t) : Settled start k log := by
  have hlen := hq.le_length
  refine ⟨log.length - k, by omega, fun j hj => ?_⟩
  exact hq.quiet _ (by omega) (by omega)

/-- What has settled once has settled. -/
lemma settled_concat (h : Settled start k log) : Settled start k (log ++ [x]) := by
  obtain ⟨i, hi, hquiet⟩ := h
  refine ⟨i, by simp; omega, fun j hj => ?_⟩
  rw [observed_concat (by omega), observed_concat (by omega)]
  exact hquiet j hj

/-- **A count that has not reached the number.**

**Proof sketch.** A stretch of `k` observations that is new ends with the last one, and the increase
before the last `t < k` of them lies in it. -/
lemma not_settled_concat (h : ¬ Settled start k log) (hq : QuietFor start t (log ++ [x]))
    (ht : t < k) : ¬ Settled start k (log ++ [x]) := by
  rintro ⟨i, hi, hquiet⟩
  have hlen : (log ++ [x]).length = log.length + 1 := by simp
  rw [hlen] at hi
  by_cases hold : i + k ≤ log.length
  · refine h ⟨i, hold, fun j hj => ?_⟩
    have hj' := hquiet j hj
    rwa [observed_concat (by omega), observed_concat (by omega)] at hj'
  · have hrise := hq.rise (i + (k - t - 1)) (by rw [hlen]; omega)
    exact absurd (hquiet (k - t - 1) (by omega)) (not_le.mpr hrise)

end QuietStretch

import Mathlib

set_option relaxedAutoImplicit false
set_option autoImplicit false

/-!
# Logs of timed values

A quantity is read from time to time. The readings, each with its time, are a log, the newest at its
end. Who tracks the quantity keeps the value last read, and a time since when no reading has been
larger than the one before it. A tracker that has missed readings still notices a rise if the value
it keeps is below the last one of the log.

## Main definitions

* `NoRiseAfter` — no reading after a time is larger than the one before it.
* `Tracker`, `Tracker.read` — a tracker, and what a reading makes of it.
* `Tracker.Follows`, `Tracker.Notices` — it is up to date, or will notice what it has missed.

## Main results

* `Tracker.Notices.follows_read` — a reading brings a tracker up to date.
* `Tracker.Notices.concat` — the tracker that missed the reading still notices.
-/

namespace TimedLog

variable {τ α : Type*} [Preorder τ] [LinearOrder α]

/-! ## Logs -/

/-- Every reading that is larger than the one before it was taken at `t` or earlier. -/
def NoRiseAfter (t : τ) (log : List (τ × α)) : Prop :=
  log.IsChain fun x y => x.2 < y.2 → y.1 ≤ t

variable {t now : τ} {x : α} {log : List (τ × α)}

/-- No rise after a time is none after a later one. -/
lemma NoRiseAfter.mono {t' : τ} (h : NoRiseAfter t log) (ht : t ≤ t') : NoRiseAfter t' log :=
  h.imp fun _ _ hxy hlt => (hxy hlt).trans ht

/-- No rise after a time, with one more entry. -/
lemma noRiseAfter_concat :
    NoRiseAfter t (log ++ [(now, x)]) ↔
      NoRiseAfter t log ∧ ∀ y ∈ log.getLast?, y.2 < x → now ≤ t := by
  unfold NoRiseAfter
  rw [List.isChain_append]
  simp

/-- A reading that is not larger than the last one is no rise. -/
lemma NoRiseAfter.concat (h : NoRiseAfter t log) (hx : ∀ y ∈ log.getLast?, x ≤ y.2) :
    NoRiseAfter t (log ++ [(now, x)]) :=
  noRiseAfter_concat.mpr ⟨h, fun y hy hlt => absurd hlt (hx y hy).not_gt⟩

/-- Nothing rises after the last reading. -/
lemma noRiseAfter_of_forall_le (h : ∀ y ∈ log, y.1 ≤ t) : NoRiseAfter t log := by
  induction log with
  | nil => exact .nil
  | cons a log ih =>
    have hrest : NoRiseAfter t log := ih fun y hy => h y (List.mem_cons_of_mem _ hy)
    refine List.isChain_cons.mpr ⟨fun y hy _ => ?_, hrest⟩
    exact h y (List.mem_cons_of_mem _ (List.mem_of_mem_head? hy))

/-! ## Trackers -/

/-- The value last read, and a time since when no reading has risen. -/
structure Tracker (τ α : Type*) where
  value : α
  since : Option τ

namespace Tracker

/-- The tracker after a reading: the time is lost when the value rises, and set anew by the first
reading that finds it not rising. -/
def read (k : Tracker τ α) (now : τ) (x : α) : Tracker τ α where
  value := x
  since := if k.value < x then none else k.since.or (some now)

/-- The tracker has the last value of the log, and nothing has risen after its time. -/
structure Follows (k : Tracker τ α) (log : List (τ × α)) : Prop where
  value : ∀ y ∈ log.getLast?, y.2 = k.value
  since : ∀ t ∈ k.since, NoRiseAfter t log

/-- The last value of the log is above the one of the tracker, or nothing has risen after its
time. -/
def Notices (k : Tracker τ α) (log : List (τ × α)) : Prop :=
  (∃ y ∈ log.getLast?, k.value < y.2) ∨ ∀ t ∈ k.since, NoRiseAfter t log

variable {k k' : Tracker τ α}

/-- A tracker that is up to date has missed nothing. -/
lemma Follows.notices (h : k.Follows log) : k.Notices log := .inr h.since

/-- A reading of the value that the tracker has. -/
lemma Follows.concat (h : k.Follows log) (hx : k.value = x) : k.Follows (log ++ [(now, x)]) where
  value := by simp [hx]
  since := fun t ht => (h.since t ht).concat fun y hy => (hx.symm.trans (h.value y hy).symm).le

/-- What a tracker that notices knows when a reading is not above its value. -/
lemma Notices.since_concat (h : k.Notices log) (hx : ∀ y ∈ log.getLast?, x ≤ y.2 ∧ y.2 ≤ k.value) :
    ∀ t ∈ k.since, NoRiseAfter t (log ++ [(now, x)]) := by
  intro t ht
  rcases h with ⟨y, hy, hlt⟩ | hsince
  · exact absurd hlt (hx y hy).2.not_gt
  · exact (hsince t ht).concat fun y hy => (hx y hy).1

/-- **A tracker that misses a reading still notices**, if the reading is above its value or the log
had not passed it. -/
lemma Notices.concat (h : k.Notices log)
    (hx : ¬ k.value < x → ∀ y ∈ log.getLast?, x ≤ y.2 ∧ y.2 ≤ k.value) :
    k.Notices (log ++ [(now, x)]) := by
  by_cases hlt : k.value < x
  · exact .inl ⟨(now, x), by simp, hlt⟩
  · exact .inr (h.since_concat (hx hlt))

/-- **A reading brings a tracker up to date** that notices, if the reading is above its value or the
log had not passed it. -/
theorem Notices.follows_read (h : k.Notices log)
    (hx : ¬ k.value < x → ∀ y ∈ log.getLast?, x ≤ y.2 ∧ y.2 ≤ k.value)
    (hnow : ∀ y ∈ log, y.1 ≤ now) : (k.read now x).Follows (log ++ [(now, x)]) where
  value := by simp [read]
  since := by
    intro t ht
    simp only [read] at ht
    split_ifs at ht with hlt
    · cases ht
    · cases hsince : k.since with
      | none =>
        rw [hsince] at ht
        obtain rfl : now = t := by simpa using ht
        have hquiet : NoRiseAfter now log := noRiseAfter_of_forall_le hnow
        exact hquiet.concat fun y hy => (hx hlt y hy).1
      | some u =>
        rw [hsince] at ht
        obtain rfl : u = t := by simpa using ht
        exact h.since_concat (hx hlt) u hsince

end Tracker

end TimedLog

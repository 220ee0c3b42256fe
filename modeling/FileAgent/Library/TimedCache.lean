import Mathlib

set_option relaxedAutoImplicit false
set_option autoImplicit false

/-!
# A cell whose value grows old

A cell holds at most one value and the time it was stored at. A value is fresh while its age is
below a limit. On a clock that does not go back, the value of the cell is the youngest of those
stored since the cell was last cleared, so that the cell is fresh exactly when one of them is.

## Main definitions

* `TimedCache` — the cell, with `store`, `clear` and `fresh?`.
* `Entry` — a value that has been stored, and when.
* `Logs` — the entries since the cell was last cleared, the youngest first.

## Main results

* `Logs.exists_of_fresh?` — a fresh value is that of an entry that is young enough.
* `Logs.old_of_fresh?_eq_none` — without a fresh value, no entry is.
-/

variable {α T : Type*}

/-- A cell with a value, and when it was stored. -/
structure TimedCache (α T : Type*) where
  value : Option α
  stamp : T

namespace TimedCache

/-- A value that has been stored, and when. -/
structure Entry (α T : Type*) where
  value : α
  time : T

/-- Store a value. -/
def store (value : α) (now : T) : TimedCache α T := { value := some value, stamp := now }

/-- Forget the value. -/
def clear (stamp : T) : TimedCache α T := { value := none, stamp := stamp }

/-- The value, when it is younger than the limit. -/
def fresh? [Sub T] [LT T] [DecidableLT T] (c : TimedCache α T) (limit now : T) : Option α :=
  if now - c.stamp < limit then c.value else none

/-- The entries since the cell was last cleared, the youngest first. -/
structure Logs [LE T] (c : TimedCache α T) (now : T) (log : List (Entry α T)) : Prop where
  value : c.value = log.head?.map Entry.value
  stamp : ∀ e ∈ log.head?, c.stamp = e.time
  old : ∀ e ∈ log, e.time ≤ now
  younger : log.Pairwise fun e e' => e'.time ≤ e.time

section Laws

variable [LinearOrder T] {c : TimedCache α T} {log : List (Entry α T)} {limit now now' : T} {v : α}

/-- An empty cache logs nothing. -/
lemma logs_clear (stamp now : T) : Logs (clear stamp : TimedCache α T) now [] :=
  ⟨rfl, fun e he => absurd he (Option.not_mem_none e), fun _ he => absurd he List.not_mem_nil,
    List.Pairwise.nil⟩

/-- Time goes by. -/
lemma Logs.later (h : Logs c now log) (hle : now ≤ now') : Logs c now' log :=
  ⟨h.value, h.stamp, fun e he => le_trans (h.old e he) hle, h.younger⟩

/-- A value that is stored now is the youngest. -/
lemma Logs.store (h : Logs c now log) (v : α) :
    Logs (TimedCache.store v now) now ({ value := v, time := now } :: log) where
  value := rfl
  stamp e he := by
    obtain rfl := Option.some.inj he
    rfl
  old := List.forall_mem_cons.mpr ⟨le_rfl, h.old⟩
  younger := List.pairwise_cons.mpr ⟨h.old, h.younger⟩

variable [AddCommGroup T]

/-- **A fresh value has just been stored**: it is that of an entry younger than the limit. -/
lemma Logs.exists_of_fresh? (h : Logs c now log) (hv : c.fresh? limit now = some v) :
    ∃ e ∈ log, e.value = v ∧ e.time ≤ now ∧ now - e.time < limit := by
  unfold fresh? at hv
  split_ifs at hv with hyoung
  rw [h.value] at hv
  obtain ⟨e, he, rfl⟩ := Option.map_eq_some_iff.mp hv
  have hmem : e ∈ log := List.mem_of_head? he
  rw [h.stamp e he] at hyoung
  exact ⟨e, hmem, rfl, h.old e hmem, hyoung⟩

variable [IsOrderedAddMonoid T]

/-- **Without a fresh value no entry is young.** -/
lemma Logs.old_of_fresh?_eq_none (h : Logs c now log) (hv : c.fresh? limit now = none) :
    ∀ e ∈ log, limit ≤ now - e.time := by
  cases log with
  | nil => exact fun e he => absurd he List.not_mem_nil
  | cons youngest rest =>
    have hstamp := h.stamp youngest rfl
    have hlimit : limit ≤ now - youngest.time := by
      unfold fresh? at hv
      split_ifs at hv with hyoung
      · rw [h.value] at hv
        cases hv
      · rw [← hstamp]
        exact not_lt.mp hyoung
    refine List.forall_mem_cons.mpr ⟨hlimit, fun e he => ?_⟩
    have hle := (List.pairwise_cons.mp h.younger).1 e he
    exact le_trans hlimit (sub_le_sub_left hle now)

end Laws

end TimedCache

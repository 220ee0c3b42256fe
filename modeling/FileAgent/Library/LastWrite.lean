import Mathlib.Data.List.Induction
import Mathlib.Logic.Function.Basic

set_option relaxedAutoImplicit false
set_option autoImplicit false

/-!
# Last writes

Writes to the keys of a map, one after another, of which each key keeps the last. A copy of the map
that is given writes the map has already had may fall back meanwhile, but ends where it was.

## Main definitions

* `lastWrite` — the value written last to a key.
* `writes` — the map after the writes.
* `Written` — the map has had the writes.

## Main results

* `writes_apply` — a key has the value written last, or the one it had.
* `writes_of_written` — writes that the map has had do not change it.
-/

namespace LastWrite

variable {κ α : Type*} [DecidableEq κ]

/-- The value written last to a key. -/
def lastWrite (k : κ) (us : List (κ × α)) : Option α :=
  us.foldl (fun last u => if u.1 = k then some u.2 else last) none

/-- The map after the writes. -/
def writes (m : κ → Option α) (us : List (κ × α)) : κ → Option α :=
  us.foldl (fun m u => Function.update m u.1 (some u.2)) m

/-- No key has been written since, other than by these writes. -/
def Written (us : List (κ × α)) (m : κ → Option α) : Prop :=
  ∀ k a, lastWrite k us = some a → m k = some a

variable {m : κ → Option α} {us : List (κ × α)} {u : κ × α} {k : κ} {a : α}

/-- No write, no last one. -/
@[simp] lemma lastWrite_nil : lastWrite k ([] : List (κ × α)) = none := rfl

/-- The last write after one more. -/
lemma lastWrite_snoc : lastWrite k (us ++ [u]) = if u.1 = k then some u.2 else lastWrite k us := by
  rw [lastWrite, List.foldl_append]
  rfl

/-- A write in front does not change a last write there is. -/
lemma lastWrite_cons_of_some (h : lastWrite k us = some a) : lastWrite k (u :: us) = some a := by
  induction us using List.reverseRecOn with
  | nil => cases h
  | append_singleton us v ih =>
    rw [← List.cons_append, lastWrite_snoc]
    rw [lastWrite_snoc] at h
    split_ifs at h ⊢
    · exact h
    · exact ih h

/-- **A key has the value written last to it**, or the one it had. -/
theorem writes_apply (m : κ → Option α) (us : List (κ × α)) (k : κ) :
    writes m us k = (lastWrite k us).or (m k) := by
  induction us using List.reverseRecOn with
  | nil => rfl
  | append_singleton us u ih =>
    rw [lastWrite_snoc, writes, List.foldl_append]
    show Function.update (writes m us) u.1 (some u.2) k = _
    by_cases h : u.1 = k
    · rw [if_pos h, ← h, Function.update_self]
      rfl
    · rw [if_neg h, Function.update_of_ne (Ne.symm h), ih]

/-- **Writes that the map has had** leave it as it is. -/
theorem writes_of_written (h : Written us m) : writes m us = m := by
  funext k
  rw [writes_apply]
  cases hlast : lastWrite k us with
  | none => rfl
  | some a => exact (h k a hlast).symm

/-- Nothing has been written. -/
lemma written_nil : Written [] m := fun _ _ h => by cases h

/-- Writes that are in the map are so without the first of them. -/
lemma Written.tail (h : Written (u :: us) m) : Written us m :=
  fun k a hlast => h k a (lastWrite_cons_of_some hlast)

/-- One more write. -/
lemma Written.snoc (h : Written us m) : Written (us ++ [u]) (Function.update m u.1 (some u.2)) := by
  intro k a hlast
  rw [lastWrite_snoc] at hlast
  split_ifs at hlast with hk
  · rw [← hk, Function.update_self, hlast]
  · rw [Function.update_of_ne (Ne.symm hk)]
    exact h k a hlast

/-- The same for the images of the values. -/
lemma Written.map {β : Type*} (h : Written us m) (f : α → β) :
    Written (us.map fun u => (u.1, f u.2)) fun k => (m k).map f := by
  have hlast : ∀ k, lastWrite k (us.map fun u => (u.1, f u.2)) = (lastWrite k us).map f := by
    intro k
    clear h
    induction us using List.reverseRecOn with
    | nil => rfl
    | append_singleton us u ih =>
      rw [List.map_append, List.map_singleton, lastWrite_snoc, lastWrite_snoc, ih]
      split_ifs <;> rfl
  intro k b hb
  rw [hlast, Option.map_eq_some_iff] at hb
  obtain ⟨a, ha, rfl⟩ := hb
  show (m k).map f = _
  rw [h k a ha, Option.map_some]

end LastWrite

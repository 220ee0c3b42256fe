import Mathlib

set_option relaxedAutoImplicit false
set_option autoImplicit false

/-!
# Names handed out one after another

Requests for names are answered in order. Each answer is a name that is not taken, or a failure, and
a name that is handed out is taken from then on.

## Main definitions

* `allocate` — the answers to a list of requests.
* `granted` — the names handed out.

## Main results

* `granted_allocate_fresh`, `granted_allocate_nodup` — the names were not taken, and no two of them
  are equal.
-/

namespace FreshNames

variable {α β ε : Type*} [DecidableEq α]

/-- The names taken after an answer. -/
def taken (names : Finset α) : Except ε α → Finset α
  | .ok q => insert q names
  | .error _ => names

/-- The answers to the requests of a list. -/
def allocate (resolve : Finset α → β → Except ε α) : Finset α → List β → List (Except ε α)
  | _, [] => []
  | names, p :: ps => resolve names p :: allocate resolve (taken names (resolve names p)) ps

/-- The names among the answers. -/
def granted (answers : List (Except ε α)) : List α := answers.filterMap Except.toOption

variable {resolve : Finset α → β → Except ε α} {names : Finset α} {ps : List β} {q : α}

/-- The names granted, with the first request apart. -/
lemma granted_allocate_cons (p : β) :
    granted (allocate resolve names (p :: ps)) = (resolve names p).toOption.toList ++
      granted (allocate resolve (taken names (resolve names p)) ps) := by
  rw [allocate]
  generalize resolve names p = r
  cases r <;> rfl

/-- Names that are taken stay taken. -/
lemma subset_taken (names : Finset α) (r : Except ε α) : names ⊆ taken names r := by
  cases r with
  | ok q => exact Finset.subset_insert q names
  | error e => exact Finset.Subset.refl names

/-- **The names handed out were not taken before.** -/
theorem granted_allocate_fresh (hfresh : ∀ names p q, resolve names p = .ok q → q ∉ names)
    (hq : q ∈ granted (allocate resolve names ps)) : q ∉ names := by
  induction ps generalizing names with
  | nil => cases hq
  | cons p ps ih =>
    rw [granted_allocate_cons, List.mem_append] at hq
    rcases hq with hq | hq
    · cases h : resolve names p with
      | ok q' =>
        rw [h] at hq
        obtain rfl := List.mem_singleton.mp hq
        exact hfresh names p q h
      | error e =>
        rw [h] at hq
        cases hq
    · exact fun hmem => ih hq (subset_taken names _ hmem)

/-- **No name is handed out twice.**

**Proof sketch.** The name of the first request is taken when the others are answered. -/
theorem granted_allocate_nodup (hfresh : ∀ names p q, resolve names p = .ok q → q ∉ names) :
    (granted (allocate resolve names ps)).Nodup := by
  induction ps generalizing names with
  | nil => exact List.nodup_nil
  | cons p ps ih =>
    rw [granted_allocate_cons]
    cases h : resolve names p with
    | error e => exact ih
    | ok q =>
      refine List.nodup_cons.mpr ⟨fun hq => ?_, ih⟩
      exact granted_allocate_fresh hfresh hq (Finset.mem_insert_self q names)

end FreshNames

import Mathlib

set_option relaxedAutoImplicit false
set_option autoImplicit false

/-!
# Sorting by a comparison that may fail

An insertion sort asks whether one item is less than another. The question may have no answer, and
then the sort has no result.

## Main definitions

* `insert`, `sort` — the sort by a test that may fail.
* `Compares` — the test answers as a comparison does, where that has an answer.

## Main results

* `sort_perm` — a result is a permutation.
* `exists_sort` — items of which each two are comparable are sorted, and ties keep their order.
-/

namespace FallibleSort

variable {α : Type*}

section Definitions

variable (less : α → α → Option Bool)

/-- The item is put before the first one that is not less. -/
def insert (x : α) : List α → Option (List α)
  | [] => some [x]
  | y :: ys => (less y x).bind fun before =>
    if before then (insert x ys).map (y :: ·) else some (x :: y :: ys)

/-- The items one after another are put into place, from the last to the first. -/
def sort : List α → Option (List α)
  | [] => some []
  | x :: xs => do
    let rest ← sort xs
    insert less x rest

end Definitions

variable {less : α → α → Option Bool} {x y : α} {xs ys zs : List α}

/-! ## The result -/

/-- Inserting adds the one element. -/
lemma insert_perm (h : insert less x ys = some zs) : zs.Perm (x :: ys) := by
  induction ys generalizing zs with
  | nil =>
    obtain rfl := Option.some.inj h
    exact List.Perm.refl _
  | cons y ys ih =>
    rw [insert] at h
    obtain ⟨b, -, h⟩ := Option.bind_eq_some_iff.mp h
    split_ifs at h with hb
    · obtain ⟨rest, hrest, rfl⟩ := Option.map_eq_some_iff.mp h
      exact ((ih hrest).cons y).trans (List.Perm.swap x y ys)
    · obtain rfl := Option.some.inj h
      exact List.Perm.refl _

/-- **Sorting loses no item and adds none.** -/
theorem sort_perm (h : sort less xs = some ys) : ys.Perm xs := by
  induction xs generalizing ys with
  | nil =>
    obtain rfl := Option.some.inj h
    exact List.Perm.refl _
  | cons x xs ih =>
    obtain ⟨rest, hrest, hinsert⟩ := Option.bind_eq_some_iff.mp h
    exact (insert_perm hinsert).trans ((ih hrest).cons x)

/-- Items in order are left as they are. -/
lemma sort_eq_self (h : xs.Pairwise fun a b => less b a = some false) : sort less xs = some xs := by
  induction xs with
  | nil => rfl
  | cons x xs ih =>
    obtain ⟨hx, hxs⟩ := List.pairwise_cons.mp h
    rw [sort, ih hxs, Option.bind_eq_bind, Option.bind_some]
    cases xs with
    | nil => rfl
    | cons y ys =>
      rw [insert, hx y List.mem_cons_self]
      rfl

/-! ## Items of which each two are comparable -/

/-- A comparison without an answer for some pairs. Where it has one, the test agrees with it. -/
structure Compares (less : α → α → Option Bool) (cmp : α → α → Option Ordering) : Prop where
  agrees : ∀ {a b o}, cmp a b = some o → less a b = some (o == .lt)
  swap : ∀ a b, cmp b a = (cmp a b).map Ordering.swap
  trans : ∀ {a b c o o'}, cmp a b = some o → cmp b c = some o' → o ≠ .gt → o' ≠ .gt →
    cmp a c = some (o.then o')

/-- The first item does not come after the second. -/
def Le (cmp : α → α → Option Ordering) (a b : α) : Prop := cmp a b = some .lt ∨ cmp a b = some .eq

/-- The items that are tied with `k`. -/
def tied (cmp : α → α → Option Ordering) (k : α) (xs : List α) : List α :=
  xs.filter fun a => cmp k a = some .eq

section Comparable

variable {cmp : α → α → Option Ordering} {a b c k : α} {o : Ordering}

/-- An answer other than greater puts the pair in order. -/
lemma le_of_ne_gt (h : cmp a b = some o) (ho : o ≠ .gt) : Le cmp a b := by
  cases o with
  | lt => exact Or.inl h
  | eq => exact Or.inr h
  | gt => exact absurd rfl ho

/-- A pair in order has an answer, and it is not greater. -/
lemma Le.exists_ne_gt (h : Le cmp a b) : ∃ o, cmp a b = some o ∧ o ≠ .gt := by
  rcases h with h | h
  · exact ⟨.lt, h, by decide⟩
  · exact ⟨.eq, h, by decide⟩

/-- The elements tied with a key, with the first one apart. -/
lemma tied_cons (k x : α) (xs : List α) :
    tied cmp k (x :: xs) = if cmp k x = some .eq then x :: tied cmp k xs else tied cmp k xs := by
  simp only [tied, List.filter_cons, decide_eq_true_eq]

namespace Compares

variable (C : Compares less cmp)

include C

/-- Items may be compared by a key. -/
lemma comap {β : Type*} (f : β → α) :
    Compares (fun a b => less (f a) (f b)) (fun a b => cmp (f a) (f b)) where
  agrees h := C.agrees h
  swap a b := C.swap (f a) (f b)
  trans hab hbc ho ho' := C.trans hab hbc ho ho'

/-- The order is transitive. -/
lemma le_trans (hab : Le cmp a b) (hbc : Le cmp b c) : Le cmp a c := by
  obtain ⟨o, hab, ho⟩ := hab.exists_ne_gt
  obtain ⟨o', hbc, ho'⟩ := hbc.exists_ne_gt
  refine le_of_ne_gt (C.trans hab hbc ho ho') ?_
  cases o with
  | lt => exact Ordering.noConfusion
  | eq => exact ho'
  | gt => exact absurd rfl ho

/-- Two items tied with a third one are tied. -/
lemma eq_of_tied (ha : cmp k a = some .eq) (hb : cmp k b = some .eq) : cmp a b = some .eq := by
  have hak : cmp a k = some .eq := by rw [C.swap k a, ha]; rfl
  exact C.trans hak hb (by decide) (by decide)

/-- The item finds its place among sorted ones, before those it is tied with.

**Proof sketch.** By induction on the sorted items. If the item is greater than the first one, it
is inserted behind, and the first one stays before everything, the item included; both cannot be
tied with one key, so the tied ones keep their order. Otherwise the item goes to the front, and by
transitivity it is in order with all others. -/
lemma exists_insert (hsorted : ys.Pairwise (Le cmp)) (hx : ∀ y ∈ ys, (cmp x y).isSome) :
    ∃ zs, insert less x ys = some zs ∧ zs.Pairwise (Le cmp) ∧
      ∀ k, tied cmp k zs = tied cmp k (x :: ys) := by
  induction ys with
  | nil => exact ⟨[x], rfl, List.pairwise_singleton _ _, fun k => rfl⟩
  | cons y ys ih =>
    obtain ⟨hy, hys⟩ := List.pairwise_cons.mp hsorted
    obtain ⟨o, ho⟩ := Option.isSome_iff_exists.mp (hx y List.mem_cons_self)
    have hyx : cmp y x = some o.swap := by rw [C.swap x y, ho]; rfl
    rw [insert, C.agrees hyx, Option.bind_some]
    by_cases hgt : o = .gt
    · -- `y` is less than `x`: both cannot be tied with the same item
      subst hgt
      obtain ⟨rest, hrest, hrestSorted, hrestTied⟩ :=
        ih hys fun z hz => hx z (List.mem_cons_of_mem y hz)
      refine ⟨y :: rest, by rw [hrest]; rfl, List.pairwise_cons.mpr ⟨?_, hrestSorted⟩, ?_⟩
      · intro z hz
        rcases List.mem_cons.mp ((insert_perm hrest).mem_iff.mp hz) with rfl | hz
        · exact Or.inl hyx
        · exact hy z hz
      · intro k
        simp only [tied_cons, hrestTied]
        split_ifs with h₁ h₂
        · have heq := C.eq_of_tied h₁ h₂
          rw [hyx] at heq
          cases heq
        · rfl
        · rfl
        · rfl
    · have hxy : Le cmp x y := le_of_ne_gt ho hgt
      refine ⟨x :: y :: ys, ?_, List.pairwise_cons.mpr ⟨?_, hsorted⟩, fun k => rfl⟩
      · cases o with
        | lt => rfl
        | eq => rfl
        | gt => exact absurd rfl hgt
      · intro z hz
        rcases List.mem_cons.mp hz with rfl | hz
        · exact hxy
        · exact C.le_trans hxy (hy z hz)

/-- **Items of which each two are comparable are sorted, and ties keep their order.**

**Proof sketch.** Induction on the items. The first one is comparable to the others, so it finds its
place among them, and it comes to stand before the items it is tied with. -/
theorem exists_sort (hcmp : xs.Pairwise fun a b => (cmp a b).isSome) :
    ∃ ys, sort less xs = some ys ∧ ys.Pairwise (Le cmp) ∧
      ∀ k, tied cmp k ys = tied cmp k xs := by
  induction xs with
  | nil => exact ⟨[], rfl, List.Pairwise.nil, fun k => rfl⟩
  | cons x xs ih =>
    obtain ⟨hx, hxs⟩ := List.pairwise_cons.mp hcmp
    obtain ⟨rest, hrest, hsorted, htied⟩ := ih hxs
    obtain ⟨zs, hzs, hzsSorted, hzsTied⟩ := C.exists_insert hsorted fun y hy =>
      hx y ((sort_perm hrest).mem_iff.mp hy)
    refine ⟨zs, by rw [sort, hrest]; exact hzs, hzsSorted, fun k => ?_⟩
    rw [hzsTied k, tied_cons, tied_cons, htied k]

end Compares

end Comparable

end FallibleSort

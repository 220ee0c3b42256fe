import Mathlib

set_option relaxedAutoImplicit false
set_option autoImplicit false

/-!
# Computations that may raise, and what they touch

A computation returns a value or raises, and appends the things it touches to a list.

## Main definitions

* `Access` — the computations, a monad.
* `Access.touch`, `Access.require`, `Access.mapError` — what they are made of.
* `Access.Touches`, `Access.Reaches` — everything that is touched has a property; something is
  touched in any case.

## Main results

* `Access.Touches.bind`, `Access.Reaches.bind` — the rules for sequences.
* `Access.forall_touched_guarded_iff` — what is touched behind a test.
-/

/-- A computation of type `α` that may raise an `ε` and touches things of type `π`. -/
def Access (ε π α : Type) : Type := List π → Except ε α × List π

namespace Access

variable {ε π α β : Type}

/-- What follows a result: the next computation, unless an error was raised. -/
def next (f : α → Access ε π β) : Except ε α × List π → Except ε β × List π
  | (.ok a, s) => f a s
  | (.error e, s) => (.error e, s)

instance : Monad (Access ε π) where
  pure a := fun s => (.ok a, s)
  bind m f := fun s => next f (m s)

/-- Raise `e`. -/
def raise (e : ε) : Access ε π α := fun s => (.error e, s)

/-- Touch `p`. -/
def touch (p : π) : Access ε π Unit := fun s => (.ok (), s ++ [p])

/-- Raise `e` unless the test is true. -/
def require (test : Bool) (e : ε) : Access ε π Unit := if test then pure () else raise e

/-- Return a result that is known, or raise it. -/
def ofExcept (r : Except ε α) : Access ε π α := fun s => (r, s)

/-- Raise other errors instead. -/
def mapError (f : ε → ε) (m : Access ε π α) : Access ε π α := fun s =>
  ((m s).1.mapError f, (m s).2)

/-- The result, and what was touched. -/
def result (m : Access ε π α) : Except ε α := (m []).1

@[inherit_doc result]
def touched (m : Access ε π α) : List π := (m []).2

/-- Nothing is forgotten, and all that is touched satisfies `P`. -/
def Touches (P : π → Prop) (m : Access ε π α) : Prop :=
  ∀ s, ∃ new, (m s).2 = s ++ new ∧ ∀ p ∈ new, P p

/-- Whatever happens, `p` is touched. -/
def Reaches (p : π) (m : Access ε π α) : Prop := ∀ s, p ∈ (m s).2

variable {P : π → Prop} {m : Access ε π α} {f : α → Access ε π β} {p : π} {a : α} {e : ε}
  {s s' : List π}

/-- A computation after one that returned. -/
lemma bind_apply_ok (h : m s = (.ok a, s')) : (m >>= f) s = f a s' := by
  show next f (m s) = f a s'
  rw [h]
  rfl

/-- A computation after one that raised is not made. -/
lemma bind_apply_error (h : m s = (.error e, s')) : (m >>= f) s = (.error e, s') := by
  show next f (m s) = (.error e, s')
  rw [h]
  rfl

/-- A sequence that returns has returned from both parts. -/
lemma exists_of_bind {b : β} (h : ((m >>= f) s).1 = .ok b) :
    ∃ a, (m s).1 = .ok a ∧ (f a (m s).2).1 = .ok b := by
  cases hm : m s with
  | mk r s' =>
    cases r with
    | ok a =>
      rw [bind_apply_ok hm] at h
      exact ⟨a, rfl, h⟩
    | error e =>
      rw [bind_apply_error hm] at h
      cases h

/-- A value that is returned with the errors replaced was returned before. -/
lemma ok_of_mapError {g : ε → ε} (h : (mapError g m s).1 = .ok a) : (m s).1 = .ok a := by
  rw [mapError] at h
  cases hm : (m s).1 with
  | ok b =>
    rw [hm] at h
    exact h
  | error e =>
    rw [hm] at h
    cases h

namespace Touches

/-- A value touches nothing. -/
lemma pure (a : α) : Touches P (Pure.pure a : Access ε π α) :=
  fun s => ⟨[], (List.append_nil s).symm, by simp⟩

/-- An exception touches nothing. -/
lemma raise (e : ε) : Touches P (Access.raise e : Access ε π α) :=
  fun s => ⟨[], (List.append_nil s).symm, by simp⟩

/-- A result that is at hand touches nothing. -/
lemma ofExcept (r : Except ε α) : Touches P (Access.ofExcept r : Access ε π α) :=
  fun s => ⟨[], (List.append_nil s).symm, by simp⟩

/-- Touching a place touches that place only. -/
lemma touch (h : P p) : Touches P (Access.touch p : Access ε π Unit) :=
  fun s => ⟨[p], rfl, by simp [h]⟩

/-- A test touches nothing. -/
lemma require (test : Bool) (e : ε) : Touches P (Access.require test e : Access ε π Unit) := by
  unfold Access.require
  split_ifs
  · exact pure ()
  · exact raise e

/-- **The rule for sequences.** -/
lemma bind (hm : Touches P m) (hf : ∀ a, Touches P (f a)) : Touches P (m >>= f) := by
  intro s
  obtain ⟨new, hs, hnew⟩ := hm s
  cases h : m s with
  | mk r s' =>
    rw [h] at hs
    obtain rfl : s' = s ++ new := hs
    cases r with
    | ok a =>
      obtain ⟨more, hs', hmore⟩ := hf a (s ++ new)
      rw [bind_apply_ok h, hs', List.append_assoc]
      refine ⟨new ++ more, rfl, fun p hp => ?_⟩
      exact (List.mem_append.mp hp).elim (hnew p) (hmore p)
    | error e =>
      rw [bind_apply_error h]
      exact ⟨new, rfl, hnew⟩

/-- Replacing errors touches nothing more. -/
lemma mapError {g : ε → ε} (hm : Touches P m) : Touches P (Access.mapError g m) := hm

/-- The places that were touched are among those named. -/
lemma touched (hm : Touches P m) : ∀ p ∈ m.touched, P p := by
  obtain ⟨new, hs, hnew⟩ := hm []
  rw [Access.touched, hs, List.nil_append]
  exact hnew

end Touches

/-- Touching a place reaches it. -/
lemma Reaches.touch (p : π) : Reaches p (Access.touch p : Access ε π Unit) :=
  fun s => List.mem_append_right s List.mem_cons_self

/-- What is touched stays in the list. -/
lemma Reaches.bind (hm : Reaches p m) (hf : ∀ a, Touches P (f a)) : Reaches p (m >>= f) := by
  intro s
  have hmem := hm s
  cases h : m s with
  | mk r s' =>
    rw [h] at hmem
    cases r with
    | ok a =>
      obtain ⟨new, hs, -⟩ := hf a s'
      rw [bind_apply_ok h, hs]
      exact List.mem_append_left _ hmem
    | error e =>
      rw [bind_apply_error h]
      exact hmem

/-- **What is touched behind a test**: `p`, if the test is true and `p` is touched first.

**Proof sketch.** If it is false the computation ends before it touches anything. -/
theorem forall_touched_guarded_iff {Q : π → Prop} {g : ε → ε} {test : Bool}
    (hreaches : Reaches p m) (hm : Touches (· = p) m) (hf : ∀ a, Touches (· = p) (f a)) :
    (∀ q ∈ (mapError g (require test e >>= fun _ => m >>= f)).touched, Q q) ↔
      (test = true → Q p) := by
  cases test with
  | true =>
    have hrest : (mapError g (require true e >>= fun _ => m >>= f)).touched =
        (m >>= f).touched := rfl
    rw [hrest]
    constructor
    · exact fun h _ => h p (hreaches.bind hf [])
    · intro h q hq
      rw [(hm.bind hf).touched q hq]
      exact h rfl
  | false =>
    have hnone : (mapError g (require false e >>= fun _ => m >>= f)).touched = [] := rfl
    rw [hnone]
    exact ⟨fun _ h => absurd h Bool.false_ne_true, fun _ q hq => absurd hq List.not_mem_nil⟩

end Access

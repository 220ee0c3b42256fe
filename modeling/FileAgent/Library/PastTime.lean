import FileAgent.Library.Run

set_option relaxedAutoImplicit false
set_option autoImplicit false

/-!
# The past of a run

Properties of what has happened in a run, as predicates on its trace: something happened once, or
something has been the case since it happened.

## Main definitions

* `Once` — some step of the trace satisfies a predicate.
* `Since` — some step does, and all later steps satisfy another.
* `Successively` — some steps satisfy given predicates one after another.

## Main results

* `Run.rest` — the rest of a run is a run.
* `Run.since` — a mode that is entered by steps of one kind, and left unless steps of another kind
  are made, has been entered, and only steps of the second kind were made since.
-/

namespace Transition

variable {σ α : Type*}

/-- Some step of the trace satisfies `P`. -/
def Once (P : σ × α → Prop) (tr : List (σ × α)) : Prop := ∃ p ∈ tr, P p

/-- Some step of the trace satisfies `P`, and all steps after it satisfy `Q`. -/
def Since (Q P : σ × α → Prop) (tr : List (σ × α)) : Prop :=
  ∃ tr₁ p tr₂, tr = tr₁ ++ p :: tr₂ ∧ P p ∧ ∀ q ∈ tr₂, Q q

variable {P P' Q : σ × α → Prop} {step : σ → α → Option σ} {s₀ s : σ} {tr tr' : List (σ × α)}
  {p : σ × α}

/-- Steps of the trace satisfy the predicates one after another, with other steps in between. -/
def Successively (Ps : List (σ × α → Prop)) (tr : List (σ × α)) : Prop :=
  ∃ ps : List (σ × α), ps.Sublist tr ∧ List.Forall₂ (fun P p => P p) Ps ps

/-- What happened once has happened later too. -/
lemma Once.append (h : Once P tr) (tr' : List (σ × α)) : Once P (tr ++ tr') :=
  h.imp fun _ hp => ⟨List.mem_append_left _ hp.1, hp.2⟩

/-- What happened once has happened in a weaker sense. -/
lemma Once.mono (h : Once P tr) (hle : ∀ p, P p → P' p) : Once P' tr :=
  h.imp fun _ hp => ⟨hp.1, hle _ hp.2⟩

/-- What holds since an event has seen the event. -/
lemma Since.once (h : Since Q P tr) : Once P tr := by
  obtain ⟨tr₁, p, tr₂, rfl, hp, -⟩ := h
  exact ⟨p, by simp, hp⟩

/-- It happens now. -/
lemma since_now (h : P p) : Since Q P (tr ++ [p]) := ⟨tr, p, [], rfl, h, by simp⟩

/-- It has happened, and one more step is made since. -/
lemma Since.snoc (h : Since Q P tr) (hq : Q p) : Since Q P (tr ++ [p]) := by
  obtain ⟨tr₁, q, tr₂, rfl, hP, hQ⟩ := h
  refine ⟨tr₁, q, tr₂ ++ [p], by simp, hP, fun r hr => ?_⟩
  rcases List.mem_append.mp hr with hr | hr
  · exact hQ r hr
  · rw [List.mem_singleton.mp hr]
    exact hq

/-- One event that happened is a history of one. -/
lemma Once.successively (h : Once P tr) : Successively [P] tr := by
  obtain ⟨p, hmem, hp⟩ := h
  exact ⟨[p], List.singleton_sublist.mpr hmem, .cons hp .nil⟩

/-- What happened in order has happened in order later too. -/
lemma Successively.append {Ps : List (σ × α → Prop)} (h : Successively Ps tr) (tr' : List (σ × α)) :
    Successively Ps (tr ++ tr') :=
  h.imp fun _ hps => ⟨hps.1.trans (List.sublist_append_left _ _), hps.2⟩

/-- One more step comes after those of the trace. -/
lemma Successively.next {Ps : List (σ × α → Prop)} (h : Successively Ps tr) (hp : P p)
    (tr' : List (σ × α)) : Successively (Ps ++ [P]) (tr ++ p :: tr') := by
  obtain ⟨ps, hsub, hall⟩ := h
  refine ⟨ps ++ [p], hsub.append ?_, List.rel_append hall (.cons hp .nil)⟩
  exact List.singleton_sublist.mpr List.mem_cons_self

/-- The rest of a run from one of its steps on is a run. -/
theorem Run.rest {tr₁ tr₂ : List (σ × α)} {a : α} {s' : σ}
    (h : Run step s₀ (tr₁ ++ (s', a) :: tr₂) s) : Run step s' ((s', a) :: tr₂) s := by
  generalize htr : tr₁ ++ (s', a) :: tr₂ = tr at h
  induction h generalizing tr₂ with
  | start => simp at htr
  | @snoc tr t t' b _ hs ih =>
    rcases List.eq_nil_or_concat tr₂ with rfl | ⟨rest, q, rfl⟩
    · obtain ⟨rfl, hpair⟩ := List.append_inj' htr rfl
      obtain ⟨rfl, rfl⟩ := Prod.mk.inj (List.singleton_inj.mp hpair)
      exact Run.start.snoc hs
    · rw [List.concat_eq_append, ← List.cons_append, ← List.append_assoc] at htr
      obtain ⟨hinit, hlast⟩ := List.append_inj' htr rfl
      obtain rfl := List.singleton_inj.mp hlast
      rw [List.concat_eq_append, ← List.cons_append]
      exact (ih hinit).snoc hs

/-- **The rule for modes**: if a system that is in the mode `M` after a step of the run has just
entered it by a step of the kind `P`, or was in it before a step of the kind `Q`, then whenever it
is in the mode a step of the kind `P` was made, and since then only steps of the kind `Q`.

**Proof sketch.** Induction on the run. -/
theorem Run.since {M : σ → Prop} (h : Run step s₀ tr s) (h₀ : ¬ M s₀)
    (hstep : ∀ tr s a s', Run step s₀ tr s → step s a = some s' → M s' →
      P (s, a) ∨ M s ∧ Q (s, a)) (hM : M s) : Since Q P tr := by
  induction h with
  | start => exact absurd hM h₀
  | @snoc tr s s' a hrun hs ih =>
    rcases hstep tr s a s' hrun hs hM with hP | ⟨hbefore, hQ⟩
    · exact since_now hP
    · exact (ih hbefore).snoc hQ

end Transition

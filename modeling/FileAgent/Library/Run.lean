import Mathlib

set_option relaxedAutoImplicit false
set_option autoImplicit false

/-!
# Finite runs of a partial step function

A system is given by `step : σ → α → Option σ`: in state `s` the action `a` is enabled when
`step s a` is `some s'`. A run is recorded with its trace, the list of pairs (state before the
action, action), so that a condition on steps and a property of steps are both predicates on the
pairs of the trace.

## Main definitions

* `Run` — the finite runs from a start state, with their trace.
* `Meets` — every step of a trace satisfies a condition on the state before it and its action.
* `replay`, `traceOf` — the state reached by a given list of actions, and its trace.

## Main results

* `Run.invariant` — what holds at the start and is kept by every step meeting the condition
  holds in every state reached.
* `Run.forall_states_iff_of`, `Run.forall_states_iff` — a property that holds in all states of a run
  exactly if every step meets a condition.
* `Run.meets_iff` — a property that all steps of a run have exactly if they meet a condition.
* `Run.invariant_trace` — the same for an invariant on the trace and the state.
* `Run.split`, `Run.at_mem` — every pair of the trace is a step of the run, reached by the part
  before it.
* `Run.simulate` — a system that can answer every observed action follows a run.
* `Run.of_replay` — a replayed list of actions is a run.
* `exists_of_rank` — a sequence of states along which a rank decreases comes to an end.
-/

namespace Transition

variable {σ α : Type*}

/-- The runs of `step` from `s₀`: `Run step s₀ tr s` says that the steps `tr` lead from `s₀`
to `s`. -/
inductive Run (step : σ → α → Option σ) (s₀ : σ) : List (σ × α) → σ → Prop
  | start : Run step s₀ [] s₀
  | snoc {tr : List (σ × α)} {s s' : σ} {a : α} :
      Run step s₀ tr s → step s a = some s' → Run step s₀ (tr ++ [(s, a)]) s'

/-- Every step of the trace satisfies `ok`. -/
def Meets (ok : σ → α → Prop) (tr : List (σ × α)) : Prop :=
  ∀ p ∈ tr, ok p.1 p.2

instance {ok : σ → α → Prop} [∀ s a, Decidable (ok s a)] (tr : List (σ × α)) :
    Decidable (Meets ok tr) :=
  inferInstanceAs (Decidable (∀ p ∈ tr, ok p.1 p.2))

/-- The state reached from `s` by the actions of a list, if all of them are enabled. -/
def replay (step : σ → α → Option σ) : σ → List α → Option σ
  | s, [] => some s
  | s, a :: rest => (step s a).bind fun s' => replay step s' rest

/-- The trace of the actions of a list, up to the first one that is not enabled. -/
def traceOf (step : σ → α → Option σ) : σ → List α → List (σ × α)
  | _, [] => []
  | s, a :: rest =>
    (s, a) :: match step s a with
      | some s' => traceOf step s' rest
      | none => []

variable {step : σ → α → Option σ} {ok : σ → α → Prop} {s₀ s s' : σ} {tr : List (σ × α)} {a : α}

/-- A run of no steps meets every condition. -/
@[simp] lemma meets_nil : Meets ok ([] : List (σ × α)) := by simp [Meets]

/-- A run meets a condition when both its parts do. -/
@[simp] lemma meets_append {tr₁ tr₂ : List (σ × α)} :
    Meets ok (tr₁ ++ tr₂) ↔ Meets ok tr₁ ∧ Meets ok tr₂ := by
  simp only [Meets, List.mem_append]
  constructor
  · exact fun h => ⟨fun p hp => h p (.inl hp), fun p hp => h p (.inr hp)⟩
  · rintro ⟨h₁, h₂⟩ p (hp | hp)
    · exact h₁ p hp
    · exact h₂ p hp

/-- A run of one step meets a condition when the step does. -/
@[simp] lemma meets_singleton : Meets ok [(s, a)] ↔ ok s a := by simp [Meets]

/-- A weaker condition is met by the same traces. -/
lemma Meets.mono {ok' : σ → α → Prop} (h : Meets ok tr) (hle : ∀ s a, ok s a → ok' s a) :
    Meets ok' tr :=
  fun p hp => hle _ _ (h p hp)

/-- **The invariant rule**: what holds at the start, and is kept by every step that meets the
condition, holds in every state such a run reaches.

**Proof sketch.** Induction on the run. -/
theorem Run.invariant {I : σ → Prop} (h : Run step s₀ tr s) (hok : Meets ok tr) (h₀ : I s₀)
    (hstep : ∀ s a s', I s → ok s a → step s a = some s' → I s') : I s := by
  induction h with
  | start => exact h₀
  | snoc _ hs ih =>
    rw [meets_append, meets_singleton] at hok
    exact hstep _ _ _ (ih hok.1) hok.2 hs

/-- The same for an invariant on the trace and the state it leads to. -/
theorem Run.invariant_trace {I : List (σ × α) → σ → Prop} (h : Run step s₀ tr s)
    (hok : Meets ok tr) (h₀ : I [] s₀)
    (hstep : ∀ tr s a s', I tr s → ok s a → step s a = some s' → I (tr ++ [(s, a)]) s') :
    I tr s := by
  induction h with
  | start => exact h₀
  | snoc _ hs ih =>
    rw [meets_append, meets_singleton] at hok
    exact hstep _ _ _ _ (ih hok.1) hok.2 hs

/-- A pair of the trace is a step of the run: the part before it leads to its state, and the action
is enabled there. -/
theorem Run.split {tr₁ tr₂ : List (σ × α)} (h : Run step s₀ (tr₁ ++ (s', a) :: tr₂) s) :
    Run step s₀ tr₁ s' ∧ ∃ s'', step s' a = some s'' := by
  generalize htr : tr₁ ++ (s', a) :: tr₂ = tr at h
  induction h generalizing tr₂ with
  | start => simp at htr
  | @snoc tr t t' b hr hs ih =>
    rcases List.eq_nil_or_concat tr₂ with rfl | ⟨rest, q, rfl⟩
    · obtain ⟨rfl, hpair⟩ := List.append_inj' htr rfl
      obtain ⟨rfl, rfl⟩ := Prod.mk.inj (List.singleton_inj.mp hpair)
      exact ⟨hr, t', hs⟩
    · rw [List.concat_eq_append, ← List.cons_append, ← List.append_assoc] at htr
      exact ih (List.append_inj' htr rfl).1

@[inherit_doc Run.split]
theorem Run.at_mem (h : Run step s₀ tr s) (hmem : (s', a) ∈ tr) :
    ∃ tr₁ tr₂ s'', tr = tr₁ ++ (s', a) :: tr₂ ∧ Run step s₀ tr₁ s' ∧ step s' a = some s'' := by
  obtain ⟨tr₁, tr₂, rfl⟩ := List.append_of_mem hmem
  obtain ⟨hr, s'', hs⟩ := h.split
  exact ⟨tr₁, tr₂, s'', rfl, hr, hs⟩

/-- **The rule for steps**: in a run whose steps meet the condition, every step taken from a state
in the invariant has the property that such steps have.

**Proof sketch.** Cut the trace at the step (`Run.at_mem`); the part before it is a run that
meets the condition, so the invariant holds where the step is taken. -/
theorem Run.forall_steps {I : σ → Prop} {P : σ → α → σ → Prop} (h : Run step s₀ tr s)
    (hok : Meets ok tr) (h₀ : I s₀)
    (hstep : ∀ s a s', I s → ok s a → step s a = some s' → I s')
    (hP : ∀ s a s', I s → ok s a → step s a = some s' → P s a s') :
    ∀ s₁ a₁ s₂, (s₁, a₁) ∈ tr → step s₁ a₁ = some s₂ → P s₁ a₁ s₂ := by
  intro s₁ a₁ s₂ hmem hs
  obtain ⟨tr₁, tr₂, _, rfl, hr, _⟩ := h.at_mem hmem
  rw [meets_append] at hok
  exact hP _ _ _ (hr.invariant hok.1 h₀ hstep) (hok.2 (s₁, a₁) (by simp)) hs

/-- **The rule for exact conditions**: steps that meet the condition keep `P`, which gives `Q`, and
a step from `P` that does not meet it leads to a state without `Q`. Then `Q` holds in all states of
a run exactly when all its steps meet the condition.

**Proof sketch.** Induction on the run, with `P` of the state reached. -/
theorem Run.forall_states_iff_of {P Q : σ → Prop} (h : Run step s₀ tr s) (h₀ : P s₀)
    (hPQ : ∀ s, P s → Q s)
    (hkeep : ∀ s a s', P s → ok s a → step s a = some s' → P s')
    (hbreak : ∀ s a s', P s → ¬ ok s a → step s a = some s' → ¬ Q s') :
    ((∀ p ∈ tr, Q p.1) ∧ Q s) ↔ Meets ok tr := by
  suffices hboth : (((∀ p ∈ tr, Q p.1) ∧ Q s) ↔ Meets ok tr) ∧ (Meets ok tr → P s) from hboth.1
  induction h with
  | start => exact ⟨by simp [hPQ _ h₀], fun _ => h₀⟩
  | @snoc tr s s' a _ hs ih =>
    obtain ⟨hiff, hreach⟩ := ih
    rw [meets_append, meets_singleton]
    constructor
    · constructor
      · rintro ⟨hall, hlast⟩
        have hbefore : Meets ok tr := hiff.mp
          ⟨fun p hp => hall p (List.mem_append_left _ hp), hall (s, a) (by simp)⟩
        refine ⟨hbefore, ?_⟩
        by_contra hok
        exact hbreak _ _ _ (hreach hbefore) hok hs hlast
      · rintro ⟨hbefore, hok⟩
        obtain ⟨hall, hlast⟩ := hiff.mpr hbefore
        refine ⟨fun p hp => ?_, hPQ _ (hkeep _ _ _ (hreach hbefore) hok hs)⟩
        rcases List.mem_append.mp hp with hp | hp
        · exact hall p hp
        · rw [List.mem_singleton.mp hp]
          exact hlast
    · rintro ⟨hbefore, hok⟩
      exact hkeep _ _ _ (hreach hbefore) hok hs

/-- If, from a state with the property, a step leads to one with the property exactly when it meets
the condition, then the property holds in all states of a run exactly when all its steps meet the
condition. The invariant `I` is kept by every step. -/
theorem Run.forall_states_iff {I P : σ → Prop} (h : Run step s₀ tr s) (hI₀ : I s₀) (hP₀ : P s₀)
    (hI : ∀ s a s', I s → step s a = some s' → I s')
    (hP : ∀ s a s', I s → P s → step s a = some s' → (P s' ↔ ok s a)) :
    ((∀ p ∈ tr, P p.1) ∧ P s) ↔ Meets ok tr :=
  h.forall_states_iff_of (P := fun s => I s ∧ P s) ⟨hI₀, hP₀⟩ (fun _ hs => hs.2)
    (fun _ _ _ hs hok hstep => ⟨hI _ _ _ hs.1 hstep, (hP _ _ _ hs.1 hs.2 hstep).mpr hok⟩)
    (fun _ _ _ hs hnot hstep hQ => hnot ((hP _ _ _ hs.1 hs.2 hstep).mp hQ))

/-- The same for a property of steps: at a state in the invariant, a step has the property exactly
when it meets the condition, and the steps that meet it keep the invariant. -/
theorem Run.meets_iff {I : σ → Prop} {P : σ → α → Prop} (h : Run step s₀ tr s) (h₀ : I s₀)
    (hkeep : ∀ s a s', I s → ok s a → step s a = some s' → I s')
    (hP : ∀ s a s', I s → step s a = some s' → (P s a ↔ ok s a)) :
    Meets P tr ↔ Meets ok tr := by
  induction h with
  | start => simp
  | @snoc tr s s' a hr hs ih =>
    rw [meets_append, meets_append, ih, meets_singleton, meets_singleton]
    exact and_congr_right fun hok => hP _ _ _ (hr.invariant hok h₀ hkeep) hs

/-- **The simulation rule**: let `obs` tell which actions are seen, and as what. If a second system
can answer every action that is seen, and the others keep the relation `R`, then it has a run of
exactly the actions seen that ends in a related state.

**Proof sketch.** Induction on the run of the first system. -/
theorem Run.simulate {τ β : Type*} {step' : τ → β → Option τ} {t₀ : τ} {R : σ → τ → Prop}
    (obs : α → Option β) (h : Run step s₀ tr s) (h₀ : R s₀ t₀)
    (hseen : ∀ s a s' t b, R s t → step s a = some s' → obs a = some b →
      ∃ t', step' t b = some t' ∧ R s' t')
    (hunseen : ∀ s a s' t, R s t → step s a = some s' → obs a = none → R s' t) :
    ∃ tr' t, Run step' t₀ tr' t ∧
      tr'.map Prod.snd = (tr.map Prod.snd).filterMap obs ∧ R s t := by
  induction h with
  | start => exact ⟨[], t₀, .start, rfl, h₀⟩
  | @snoc tr s s' a _ hs ih =>
    obtain ⟨tr', t, hrun, hacts, hrel⟩ := ih
    cases ha : obs a with
    | none =>
      refine ⟨tr', t, hrun, ?_, hunseen s a s' t hrel hs ha⟩
      simp [hacts, ha]
    | some b =>
      obtain ⟨t', ht, hrel'⟩ := hseen s a s' t b hrel hs ha
      refine ⟨tr' ++ [(t, b)], t', hrun.snoc ht, ?_, hrel'⟩
      simp [hacts, ha]

/-- Runs compose. -/
lemma Run.trans {tr₂ : List (σ × α)} (h₁ : Run step s₀ tr s) (h₂ : Run step s tr₂ s') :
    Run step s₀ (tr ++ tr₂) s' := by
  induction h₂ with
  | start => simpa using h₁
  | snoc _ hs ih => rw [← List.append_assoc]; exact ih.snoc hs

/-- A replayed list of actions is a run. -/
theorem Run.of_replay : ∀ {acts : List α} {s s' : σ}, replay step s acts = some s' →
    Run step s (traceOf step s acts) s' := by
  intro acts
  induction acts with
  | nil =>
    intro s s' h
    obtain rfl : s = s' := by simpa [replay] using h
    exact .start
  | cons a rest ih =>
    intro s s' h
    simp only [replay, Option.bind_eq_some_iff] at h
    obtain ⟨t, hs, hrest⟩ := h
    simp only [traceOf, hs]
    have hfirst : Run step s [(s, a)] t := Run.snoc .start hs
    exact hfirst.trans (ih hrest)

/-- A replay goes on from the state after its first action. -/
lemma replay_cons {rest : List α} (h : step s a = some s') :
    replay step s (a :: rest) = replay step s' rest := by
  rw [replay, h, Option.bind_some]

/-- The trace of a replay has the actions of the list. -/
lemma map_snd_traceOf : ∀ {acts : List α} {s s' : σ}, replay step s acts = some s' →
    (traceOf step s acts).map Prod.snd = acts := by
  intro acts
  induction acts with
  | nil => intro s s' _; rfl
  | cons a rest ih =>
    intro s s' h
    obtain ⟨t, hs, hrest⟩ := Option.bind_eq_some_iff.mp h
    simp [traceOf, hs, ih hrest]

/-- A run found by evaluating a test on the state that a list of actions leads to. -/
theorem exists_run_of_replay (step : σ → α → Option σ) (s : σ) (acts : List α) (p : σ → Bool)
    (h : (replay step s acts).any p = true) :
    ∃ s', Run step s (traceOf step s acts) s' ∧ p s' = true := by
  cases hr : replay step s acts with
  | none => rw [hr] at h; cases h
  | some s' => exact ⟨s', .of_replay hr, by simpa [hr] using h⟩

/-- **The ranking rule**: in a sequence of states, each state in the invariant is where `Q` happens,
or is followed by one in the invariant with a smaller rank. Then `Q` happens.

**Proof sketch.** Well-founded induction on the rank. -/
theorem exists_of_rank {β : Type*} [Preorder β] [WellFoundedLT β] (rank : σ → β)
    {states : ℕ → Option σ} {I : σ → Prop} {Q : ℕ → Prop} {n : ℕ} (hs : states n = some s)
    (hI : I s) (hstep : ∀ k s, n ≤ k → states k = some s → I s →
      Q k ∨ ∃ s', states (k + 1) = some s' ∧ I s' ∧ rank s' < rank s) : ∃ k, Q k := by
  induction hm : rank s using WellFoundedLT.induction generalizing n s with
  | ind m ih =>
    subst hm
    rcases hstep n s le_rfl hs hI with h | ⟨s', hs', hI', hlt⟩
    · exact ⟨n, h⟩
    · exact ih _ hlt hs' hI' (fun k t hk => hstep k t (Nat.le_of_succ_le hk)) rfl

end Transition

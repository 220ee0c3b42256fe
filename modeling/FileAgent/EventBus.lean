import FileAgent.Library.OneEntry
import FileAgent.Library.Run

set_option relaxedAutoImplicit false
set_option autoImplicit false

/-!
# The event bus

`publish` reads the handlers of the type of its event, creates one task of `_safe_execute` for each,
and awaits them with `gather`. The tasks of all publications, later subscriptions and further
publications, of the handlers themselves too, interleave in any order. A handler may return, raise
an exception, or be cancelled, and so may the caller of `publish`. `subscribe` holds its lock over
no `await`, so that it is one step.

## Main definitions

* `DomainEventBus`, `EventBusAction`, `eventBusStep` — the bus.
* `subscribed`, `invoked` — the subscriptions and the calls of handlers in a run.
* `PublishInv` — the invariant of one publication.

## Main results

* `busInv_step` — the step lemma.
* `publish_delivers` — every event is handled once by the handlers subscribed when it was published,
  and by no others.
-/

namespace FileAgent

open Transition

/-! ## The bus -/

/-- How the call of a handler ends. `_safe_execute` catches every `Exception`, which a cancellation
is not. -/
inductive HandlerOutcome
  | returned
  | raised
  | cancelled
  deriving DecidableEq

/-- A task of `_safe_execute`: it has not begun, its handler runs or has ended, or it was cancelled
before it began. -/
inductive HandlerPhase
  | created
  | running
  | finished (outcome : HandlerOutcome)
  | dropped
  deriving DecidableEq

/-- A task of `_safe_execute`. -/
structure HandlerTask (H : Type*) where
  handler : H
  phase : HandlerPhase := .created

/-- The task has called its handler. -/
def HandlerTask.hasCalled {H : Type*} (t : HandlerTask H) : Bool :=
  match t.phase with
  | .running | .finished _ => true
  | .created | .dropped => false

/-- The task is cancelled. -/
def HandlerTask.isCancelled {H : Type*} (t : HandlerTask H) : Bool :=
  match t.phase with
  | .finished .cancelled | .dropped => true
  | _ => false

/-- The task is done. -/
def HandlerTask.isDone {H : Type*} (t : HandlerTask H) : Bool :=
  match t.phase with
  | .finished _ | .dropped => true
  | _ => false

/-- How a call of `publish` ends. -/
inductive PublishResult
  | returned
  | cancelled
  deriving DecidableEq

/-- A call of `publish`: its event, its tasks, whether its caller has been cancelled, and how it
ended. -/
structure Publication (E H : Type*) where
  event : E
  tasks : List (HandlerTask H)
  cancelled : Bool := false
  result : Option PublishResult := none

/-- The bus: the handlers of each type of events, and the calls of `publish` so far. -/
structure DomainEventBus (T E H : Type*) where
  handlers : T → List H := fun _ => []
  publications : List (Publication E H) := []

/-- The steps of a call of `publish`: its task `k` begins or ends, its caller is cancelled, or it
returns or raises. -/
inductive PublicationAction
  | start (k : ℕ)
  | finish (k : ℕ) (outcome : HandlerOutcome)
  | cancel
  | conclude

/-- The steps: a handler is subscribed, an event is published, or a publication goes on. -/
inductive EventBusAction (T E H : Type*)
  | subscribe (eventType : T) (handler : H)
  | publish (event : E)
  | publication (i : ℕ) (a : PublicationAction)

namespace Publication

variable {E H : Type*}

/-- The first step of a task. A task that has been cancelled before does not call its handler. -/
def start (p : Publication E H) (k : ℕ) : Option (Publication E H) :=
  p.tasks[k]?.bind fun t =>
    if t.phase = .created then
      let phase := if p.cancelled then .dropped else .running
      some { p with tasks := p.tasks.set k { t with phase := phase } }
    else none

/-- The end of a call of a handler. -/
def finish (p : Publication E H) (k : ℕ) (outcome : HandlerOutcome) : Option (Publication E H) :=
  p.tasks[k]?.bind fun t =>
    if t.phase = .running then
      some { p with tasks := p.tasks.set k { t with phase := .finished outcome } }
    else none

/-- The end of `gather`: it raises as soon as a task is cancelled, and else waits for all tasks. -/
def conclude (p : Publication E H) : Option PublishResult :=
  if p.tasks.any HandlerTask.isCancelled then some .cancelled
  else if p.tasks.all HandlerTask.isDone then
    some (if p.cancelled then .cancelled else .returned)
  else none

/-- One step of a call of `publish`. -/
def step (p : Publication E H) : PublicationAction → Option (Publication E H)
  | .start k => p.start k
  | .finish k outcome => p.finish k outcome
  | .cancel => if p.result = none then some { p with cancelled := true } else none
  | .conclude =>
    if p.result = none then p.conclude.map fun result => { p with result := some result } else none

end Publication

section Bus

variable {T E H : Type*} [DecidableEq T] (typeOf : E → T)

/-- `publish`, up to `gather`: without handlers it returns at once. -/
def DomainEventBus.publish (bus : DomainEventBus T E H) (event : E) : Publication E H where
  event := event
  tasks := (bus.handlers (typeOf event)).map fun handler => { handler := handler }
  result := if (bus.handlers (typeOf event)).isEmpty then some .returned else none

/-- One step of the bus. -/
def eventBusStep (bus : DomainEventBus T E H) : EventBusAction T E H → Option (DomainEventBus T E H)
  | .subscribe eventType handler =>
    some { bus with
      handlers := Function.update bus.handlers eventType (bus.handlers eventType ++ [handler]) }
  | .publish event =>
    some { bus with publications := bus.publications ++ [bus.publish typeOf event] }
  | .publication i a =>
    bus.publications[i]?.bind fun p =>
      (p.step a).map fun p' => { bus with publications := bus.publications.set i p' }

/-! ## What happens in a run -/

/-- The handlers subscribed to a type, in the order of their subscriptions. -/
def subscribed (eventType : T) (tr : List (DomainEventBus T E H × EventBusAction T E H)) : List H :=
  tr.filterMap fun p =>
    match p.2 with
    | .subscribe t handler => if t = eventType then some handler else none
    | _ => none

/-- The handler that a step calls, with its event. -/
def Publication.calls {E H : Type*} (p : Publication E H) : PublicationAction → List (H × E)
  | .start k =>
    if p.cancelled then [] else (p.tasks[k]?.map fun t => (t.handler, p.event)).toList
  | _ => []

/-- The handlers that the publication `i` has called, each with the event it was called for. -/
def invoked (i : ℕ) (tr : List (DomainEventBus T E H × EventBusAction T E H)) : List (H × E) :=
  tr.flatMap fun p =>
    match p.2 with
    | .publication j a => if j = i then p.1.publications[i]?.toList.flatMap (·.calls a) else []
    | _ => []

end Bus

/-! ## One publication -/

section Publications

variable {E H : Type*} {p p' : Publication E H} {a : PublicationAction}

/-- The call that a task has made. -/
def HandlerTask.call (event : E) (t : HandlerTask H) : Option (H × E) :=
  if t.hasCalled then some (t.handler, event) else none

/-- The calls that the tasks have made. -/
def Publication.called (p : Publication E H) : List (H × E) :=
  p.tasks.filterMap (HandlerTask.call p.event)

/-- A task that has not begun has called no handler. -/
lemma call_of_created {t : HandlerTask H} (h : t.phase = .created) (event : E) :
    t.call event = none := by
  simp [HandlerTask.call, HandlerTask.hasCalled, h]

/-- **What a step of a publication does**: it keeps its event and the handlers of its tasks, and
calls the handler of a task that has not called it.

**Proof sketch.** By cases on the action. A task that starts calls its handler, if it was not
cancelled before, and exactly this call is new; a task that ends has called it; a cancellation and
the end of the publication call nothing. -/
lemma step_called (h : p.step a = some p') :
    p'.event = p.event ∧ p'.tasks.map (·.handler) = p.tasks.map (·.handler) ∧
      (p.calls a ++ p.called).Perm p'.called := by
  cases a with
  | start k =>
    obtain ⟨t, ht, h⟩ := Option.bind_eq_some_iff.mp h
    have hset := fun t' => OneEntry.filterMap_set_perm (HandlerTask.call p.event) t' p.tasks k ht
    split_ifs at h with hphase hcancelled
    · -- the task is cancelled before it begins
      obtain rfl := Option.some.inj h
      have hdropped := hset { t with phase := .dropped }
      rw [call_of_created hphase] at hdropped
      refine ⟨rfl, OneEntry.map_set_eq ht rfl, ?_⟩
      simpa [Publication.calls, Publication.called, HandlerTask.call, HandlerTask.hasCalled,
        hcancelled] using hdropped.symm
    · obtain rfl := Option.some.inj h
      have hrunning := hset { t with phase := .running }
      rw [call_of_created hphase] at hrunning
      refine ⟨rfl, OneEntry.map_set_eq ht rfl, ?_⟩
      simpa [Publication.calls, Publication.called, HandlerTask.call, HandlerTask.hasCalled,
        hcancelled, ht] using hrunning.symm
  | finish k outcome =>
    obtain ⟨t, ht, h⟩ := Option.bind_eq_some_iff.mp h
    split_ifs at h with hphase
    obtain rfl := Option.some.inj h
    refine ⟨rfl, OneEntry.map_set_eq ht rfl, ?_⟩
    have hfinished := OneEntry.filterMap_set_perm (HandlerTask.call p.event)
      { t with phase := .finished outcome } p.tasks k ht
    have hsame : HandlerTask.call p.event { t with phase := .finished outcome } =
        t.call p.event := by simp [HandlerTask.call, HandlerTask.hasCalled, hphase]
    rw [hsame] at hfinished
    exact ((List.perm_append_left_iff _).mp hfinished).symm
  | cancel =>
    simp only [Publication.step] at h
    split_ifs at h
    obtain rfl := Option.some.inj h
    exact ⟨rfl, rfl, .refl _⟩
  | conclude =>
    simp only [Publication.step] at h
    split_ifs at h
    obtain ⟨result, -, rfl⟩ := Option.map_eq_some_iff.mp h
    exact ⟨rfl, rfl, .refl _⟩

/-- In a publication that has returned every handler has returned or raised. -/
def Publication.Settled (p : Publication E H) : Prop :=
  p.result = some .returned →
    ∀ t ∈ p.tasks, t.phase = .finished .returned ∨ t.phase = .finished .raised

/-- Only a cancellation makes `publish` raise. -/
def Publication.Blameless (p : Publication E H) : Prop :=
  p.result = some .cancelled → p.cancelled = true ∨ ∃ t ∈ p.tasks, t.isCancelled = true

/-- A task that is done and was not cancelled has returned or raised. -/
lemma phase_of_done {t : HandlerTask H} (hdone : t.isDone = true) (hnot : t.isCancelled = false) :
    t.phase = .finished .returned ∨ t.phase = .finished .raised := by
  obtain ⟨handler, phase⟩ := t
  cases phase with
  | finished outcome =>
    cases outcome with
    | returned => exact .inl rfl
    | raised => exact .inr rfl
    | cancelled => cases hnot
  | dropped => cases hnot
  | _ => cases hdone

/-- Where `publish` returns, every task is done and none was cancelled. -/
lemma conclude_returned (h : p.conclude = some .returned) :
    (∀ t ∈ p.tasks, t.isCancelled = false) ∧ (∀ t ∈ p.tasks, t.isDone = true) := by
  unfold Publication.conclude at h
  split_ifs at h with hcancelled hdone hcaller
  · cases h
  · cases h
  · exact ⟨by simpa using hcancelled, List.all_eq_true.mp hdone⟩

/-- Where `publish` is cancelled, it or a task of it was. -/
lemma conclude_cancelled (h : p.conclude = some .cancelled) :
    p.cancelled = true ∨ ∃ t ∈ p.tasks, t.isCancelled = true := by
  unfold Publication.conclude at h
  split_ifs at h with hcancelled hdone hcaller
  · exact .inr (List.any_eq_true.mp hcancelled)
  · exact .inl hcaller
  · cases h

/-- A cancelled task stays so while another one goes on. -/
lemma exists_isCancelled_set {tasks : List (HandlerTask H)} {k : ℕ} {t : HandlerTask H}
    (ht : tasks[k]? = some t) (hnot : t.isCancelled = false) (t' : HandlerTask H)
    (h : ∃ u ∈ tasks, u.isCancelled = true) : ∃ u ∈ tasks.set k t', u.isCancelled = true := by
  obtain ⟨u, hu, hcancelled⟩ := h
  obtain ⟨j, hj⟩ := List.mem_iff_getElem?.mp hu
  have hne : k ≠ j := by
    rintro rfl
    rw [ht] at hj
    rw [Option.some.inj hj, hcancelled] at hnot
    cases hnot
  exact ⟨u, List.mem_of_getElem? ((List.getElem?_set_ne hne).trans hj), hcancelled⟩

/-- `publish` returns when all handlers have returned or raised.

**Proof sketch.** A publication that has returned has no task left that could start or end, since
all of them are done. It comes to return where it concludes with that result, and then
`conclude_returned` says so of every task. -/
lemma settled_step (h : p.step a = some p') (hp : p.Settled) : p'.Settled := by
  cases a with
  | start k =>
    obtain ⟨t, ht, h⟩ := Option.bind_eq_some_iff.mp h
    split_ifs at h with hphase <;> obtain rfl := Option.some.inj h <;> intro hresult
    all_goals
      have hdone := hp hresult t (List.mem_of_getElem? ht)
      simp [hphase] at hdone
  | finish k outcome =>
    obtain ⟨t, ht, h⟩ := Option.bind_eq_some_iff.mp h
    split_ifs at h with hphase
    obtain rfl := Option.some.inj h
    intro hresult
    have hdone := hp hresult t (List.mem_of_getElem? ht)
    simp [hphase] at hdone
  | cancel =>
    simp only [Publication.step] at h
    split_ifs at h
    obtain rfl := Option.some.inj h
    exact hp
  | conclude =>
    simp only [Publication.step] at h
    split_ifs at h
    obtain ⟨result, hresult, rfl⟩ := Option.map_eq_some_iff.mp h
    intro hreturned t ht
    obtain rfl : result = .returned := Option.some.inj hreturned
    obtain ⟨hcancelled, hdone⟩ := conclude_returned hresult
    exact phase_of_done (hdone t ht) (hcancelled t ht)

/-- `publish` raises when its caller or a handler is cancelled, whatever else the handlers do.

**Proof sketch.** A task that is cancelled before it begins is one to blame, and it stays so: a
task that starts or ends was not cancelled before. The publication comes to be cancelled by its
caller, or where it concludes with that result (`conclude_cancelled`). -/
lemma blameless_step (h : p.step a = some p') (hp : p.Blameless) : p'.Blameless := by
  cases a with
  | start k =>
    obtain ⟨t, ht, h⟩ := Option.bind_eq_some_iff.mp h
    split_ifs at h with hphase hcancelled <;> obtain rfl := Option.some.inj h <;> intro hresult
    · exact .inl hcancelled
    · have hnot : t.isCancelled = false := by simp [HandlerTask.isCancelled, hphase]
      exact (hp hresult).imp_right (exists_isCancelled_set ht hnot _)
  | finish k outcome =>
    obtain ⟨t, ht, h⟩ := Option.bind_eq_some_iff.mp h
    split_ifs at h with hphase
    obtain rfl := Option.some.inj h
    intro hresult
    have hnot : t.isCancelled = false := by simp [HandlerTask.isCancelled, hphase]
    exact (hp hresult).imp_right (exists_isCancelled_set ht hnot _)
  | cancel =>
    simp only [Publication.step] at h
    split_ifs at h
    obtain rfl := Option.some.inj h
    exact fun _ => .inl rfl
  | conclude =>
    simp only [Publication.step] at h
    split_ifs at h
    obtain ⟨result, hresult, rfl⟩ := Option.map_eq_some_iff.mp h
    intro hraised
    obtain rfl : result = .cancelled := Option.some.inj hraised
    exact conclude_cancelled hresult

/-- The tasks have called their handlers, some of them perhaps not yet. -/
lemma called_sublist (p : Publication E H) :
    p.called.Sublist ((p.tasks.map (·.handler)).map (·, p.event)) := by
  unfold Publication.called
  induction p.tasks with
  | nil => exact List.Sublist.slnil
  | cons t rest ih =>
    rw [OneEntry.filterMap_cons_eq, List.map_cons, List.map_cons, ← List.singleton_append]
    refine List.Sublist.append ?_ ih
    unfold HandlerTask.call
    split_ifs
    · exact List.Sublist.refl _
    · exact List.nil_sublist _

/-- When `publish` has returned, all have. -/
lemma called_of_returned (hp : p.Settled) (hresult : p.result = some .returned) :
    p.called = (p.tasks.map (·.handler)).map (·, p.event) := by
  have hcall : ∀ t ∈ p.tasks, t.call p.event = some (t.handler, p.event) := by
    intro t ht
    rcases hp hresult t ht with hphase | hphase <;>
      simp [HandlerTask.call, HandlerTask.hasCalled, hphase]
  unfold Publication.called
  rw [List.filterMap_congr hcall, List.filterMap_eq_map', List.map_map]
  rfl

end Publications

/-! ## The invariant -/

section Runs

variable {T E H : Type*} [DecidableEq T] {typeOf : E → T} {bus bus' : DomainEventBus T E H}
  {tr : List (DomainEventBus T E H × EventBusAction T E H)} {a : EventBusAction T E H} {i : ℕ}
  {p : Publication E H}

/-- The invariant of the publication `i`: it was made for the handlers subscribed before, and its
calls are those of its tasks. -/
structure PublishInv (typeOf : E → T) (tr : List (DomainEventBus T E H × EventBusAction T E H))
    (i : ℕ) (p : Publication E H) : Prop where
  snapshot : ∃ tr₁ bus tr₂, tr = tr₁ ++ (bus, .publish p.event) :: tr₂ ∧
    bus.publications.length = i ∧
    p.tasks.map (·.handler) = subscribed (typeOf p.event) tr₁
  calls : (invoked i tr).Perm p.called
  settled : p.Settled
  blameless : p.Blameless

/-- The invariant of the bus. -/
structure BusInv (typeOf : E → T) (tr : List (DomainEventBus T E H × EventBusAction T E H))
    (bus : DomainEventBus T E H) : Prop where
  handlers : ∀ eventType, bus.handlers eventType = subscribed eventType tr
  publications : ∀ i p, bus.publications[i]? = some p → PublishInv typeOf tr i p
  fresh : ∀ i, bus.publications.length ≤ i → invoked i tr = []

omit [DecidableEq T] in
/-- The handlers invoked after one more step. -/
lemma invoked_snoc : invoked i (tr ++ [(bus, a)]) = invoked i tr ++ invoked i [(bus, a)] :=
  List.flatMap_append ..

/-- The handlers subscribed after one more step. -/
lemma subscribed_snoc (eventType : T) : subscribed eventType (tr ++ [(bus, a)]) =
    subscribed eventType tr ++ subscribed eventType [(bus, a)] :=
  List.filterMap_append ..

/-- A publication that does not go on at a step keeps its invariant. -/
lemma publishInv_snoc (h : PublishInv typeOf tr i p)
    (hquiet : invoked i [(bus, a)] = []) : PublishInv typeOf (tr ++ [(bus, a)]) i p := by
  obtain ⟨tr₁, bus₁, tr₂, rfl, hlength, htasks⟩ := h.snapshot
  refine ⟨⟨tr₁, bus₁, tr₂ ++ [(bus, a)], by simp, hlength, htasks⟩, ?_, h.settled, h.blameless⟩
  rw [invoked_snoc, hquiet, List.append_nil]
  exact h.calls

/-- A publication that has just been made. -/
lemma publishInv_publish {event : E} (h : BusInv typeOf tr bus) :
    PublishInv typeOf (tr ++ [(bus, .publish event)]) bus.publications.length
      (bus.publish typeOf event) := by
  have hcalls : (bus.publish typeOf event).called = [] := by
    refine List.filterMap_eq_nil_iff.mpr fun t ht => ?_
    obtain ⟨handler, -, rfl⟩ := List.mem_map.mp ht
    rfl
  refine ⟨⟨tr, bus, [], rfl, rfl, ?_⟩, ?_, ?_, ?_⟩
  · rw [← h.handlers]
    simp [DomainEventBus.publish, Function.comp_def]
  · rw [hcalls, invoked_snoc, h.fresh _ le_rfl]
    exact .refl _
  · intro hresult t ht
    simp only [DomainEventBus.publish] at hresult ht
    split_ifs at hresult with hempty
    rw [List.isEmpty_iff.mp hempty] at ht
    cases ht
  · intro hresult
    simp only [DomainEventBus.publish] at hresult
    split_ifs at hresult
    cases hresult

/-- The publication that goes on at a step. -/
lemma publishInv_publication {b : PublicationAction} {p' : Publication E H}
    (h : PublishInv typeOf tr i p) (hp : bus.publications[i]? = some p)
    (hs : p.step b = some p') :
    PublishInv typeOf (tr ++ [(bus, .publication i b)]) i p' := by
  obtain ⟨hevent, htasks, hcalled⟩ := step_called hs
  obtain ⟨tr₁, bus₁, tr₂, rfl, hlength, hsnapshot⟩ := h.snapshot
  refine ⟨⟨tr₁, bus₁, tr₂ ++ [(bus, .publication i b)], ?_, hlength, ?_⟩, ?_,
    settled_step hs h.settled, blameless_step hs h.blameless⟩
  · rw [hevent, List.append_assoc]
    rfl
  · rw [hevent, htasks]
    exact hsnapshot
  · have hnow : invoked i [(bus, .publication i b)] = p.calls b := by simp [invoked, hp]
    rw [invoked_snoc, hnow]
    exact (List.perm_append_comm.trans (h.calls.append_left _)).trans hcalled

/-- **The step lemma.**

**Proof sketch.** By cases on the action. A subscription is one more handler of its type, and no
publication takes notice of it. A publication begins with the handlers subscribed so far, its
tasks having called none. A step of a publication is `publishInv_publication` for this one and
changes nothing in the others. -/
lemma busInv_step (h : BusInv typeOf tr bus) (hs : eventBusStep typeOf bus a = some bus') :
    BusInv typeOf (tr ++ [(bus, a)]) bus' := by
  cases a with
  | subscribe eventType handler =>
    obtain rfl := Option.some.inj hs
    refine ⟨fun t => ?_, fun i p hp => publishInv_snoc (h.publications i p hp) rfl,
      fun i hi => ?_⟩
    · rw [subscribed_snoc, ← h.handlers]
      dsimp only
      by_cases ht : eventType = t
      · subst ht
        simp [subscribed]
      · rw [Function.update_of_ne (Ne.symm ht)]
        simp [subscribed, ht]
    · rw [invoked_snoc, h.fresh i hi]
      rfl
  | publish event =>
    obtain rfl := Option.some.inj hs
    refine ⟨fun t => ?_, fun i p hp => ?_, fun i hi => ?_⟩
    · rw [subscribed_snoc, ← h.handlers]
      exact (List.append_nil _).symm
    · rw [List.getElem?_append] at hp
      split_ifs at hp with hi
      · exact publishInv_snoc (h.publications i p hp) rfl
      · rw [List.getElem?_singleton] at hp
        split_ifs at hp with hzero
        obtain rfl := Option.some.inj hp
        obtain rfl : i = bus.publications.length := by omega
        exact publishInv_publish h
    · rw [invoked_snoc, h.fresh i (by simp at hi; omega)]
      rfl
  | publication j b =>
    obtain ⟨q, hq, hs⟩ := Option.bind_eq_some_iff.mp hs
    obtain ⟨q', hq', rfl⟩ := Option.map_eq_some_iff.mp hs
    refine ⟨fun t => ?_, fun i p hp => ?_, fun i hi => ?_⟩
    · rw [subscribed_snoc, ← h.handlers]
      exact (List.append_nil _).symm
    · rw [List.getElem?_set] at hp
      split_ifs at hp with hij hlt
      · obtain rfl := Option.some.inj hp
        exact hij ▸ publishInv_publication (h.publications j q hq) hq hq'
      · exact publishInv_snoc (h.publications i p hp) (by simp [invoked, hij])
    · rw [List.length_set] at hi
      have hij : j ≠ i := by
        rintro rfl
        rw [List.getElem?_eq_none hi] at hq
        cases hq
      rw [invoked_snoc, h.fresh i hi]
      simp [invoked, hij]

/-- **Every event is delivered once**: in every run of the bus, a publication has called handlers
that were subscribed to the type of its event before it, each at most once for each subscription,
and with its event; handlers subscribed later are not called. When `publish` has returned, each
has been called once and has returned or raised an exception. Exceptions of handlers do not make
`publish` raise: it does so only if its caller or a handler was cancelled.

**Proof sketch.** Each step of a publication calls the handler of a task that has not called it
(`step_called`), so the calls are those of the tasks, and these were made for the handlers
subscribed at that time. `gather` ends when all tasks have. -/
theorem publish_delivers (hrun : Run (eventBusStep typeOf) {} tr bus)
    (hp : bus.publications[i]? = some p) :
    (∃ tr₁ bus₁ tr₂, tr = tr₁ ++ (bus₁, .publish p.event) :: tr₂ ∧
      bus₁.publications.length = i ∧
      (invoked i tr).Subperm ((subscribed (typeOf p.event) tr₁).map (·, p.event)) ∧
      (p.result = some .returned →
        (invoked i tr).Perm ((subscribed (typeOf p.event) tr₁).map (·, p.event)))) ∧
      p.Settled ∧ p.Blameless := by
  have hok : Meets (fun _ _ => True) tr := fun _ _ => trivial
  have h₀ : BusInv typeOf [] ({} : DomainEventBus T E H) :=
    ⟨fun _ => rfl, fun i p hp => by simp at hp, fun _ _ => rfl⟩
  have h := hrun.invariant_trace hok h₀ fun _ _ _ _ h _ hs => busInv_step h hs
  have hinv := h.publications i p hp
  obtain ⟨tr₁, bus₁, tr₂, htr, hlength, htasks⟩ := hinv.snapshot
  refine ⟨⟨tr₁, bus₁, tr₂, htr, hlength, ?_, fun hresult => ?_⟩, hinv.settled, hinv.blameless⟩
  · rw [← htasks]
    exact hinv.calls.subperm.trans (called_sublist p).subperm
  · rw [← htasks, ← called_of_returned hinv.settled hresult]
    exact hinv.calls

/-- A bus whose types and handlers are given by their names. -/
abbrev NamedBus : Type := DomainEventBus String (String × ℕ) String

/-- The steps of such a bus. -/
abbrev NamedAction : Type := EventBusAction String (String × ℕ) String

/-- One step of such a bus. -/
def namedStep : NamedBus → NamedAction → Option NamedBus := eventBusStep Prod.fst

/-- Two handlers of one event, of which one raises. A third is subscribed too late. -/
def oneRaises : List NamedAction :=
  [.subscribe "FileReadyEvent" "handle_file_ready", .subscribe "FileReadyEvent" "other",
    .publish ("FileReadyEvent", 0), .publication 0 (.start 1), .publication 0 (.start 0),
    .publication 0 (.finish 1 .raised), .subscribe "FileReadyEvent" "late",
    .publication 0 (.finish 0 .returned), .publication 0 .conclude]

/-- Both have been called, and `publish` has returned. -/
theorem publish_delivers_oneRaises :
    ∃ (tr : List (NamedBus × NamedAction)) (bus : NamedBus) (p : Publication (String × ℕ) String),
      Run namedStep {} tr bus ∧ bus.publications[0]? = some p ∧ p.result = some .returned ∧
      invoked 0 tr = [("other", "FileReadyEvent", 0), ("handle_file_ready", "FileReadyEvent", 0)] ∧
      (∃ tr₁ bus₁ tr₂, tr = tr₁ ++ (bus₁, .publish p.event) :: tr₂ ∧
        bus₁.publications.length = 0 ∧
        (invoked 0 tr).Subperm ((subscribed p.event.1 tr₁).map (·, p.event)) ∧
        (p.result = some .returned →
          (invoked 0 tr).Perm ((subscribed p.event.1 tr₁).map (·, p.event)))) ∧
      p.Settled ∧ p.Blameless := by
  obtain ⟨bus, hrun, hbus⟩ := exists_run_of_replay namedStep {} oneRaises
    (fun bus => bus.publications[0]?.any fun p => p.result = some .returned) (by decide +kernel)
  obtain ⟨p, hp, hresult⟩ := (Option.any_eq_true _ _).mp hbus
  have hinvoked : invoked 0 (traceOf namedStep {} oneRaises) =
      [("other", "FileReadyEvent", 0), ("handle_file_ready", "FileReadyEvent", 0)] := by
    decide +kernel
  have hdelivers := publish_delivers hrun hp
  exact ⟨_, bus, p, hrun, hp, of_decide_eq_true hresult, hinvoked, hdelivers⟩

end Runs

end FileAgent

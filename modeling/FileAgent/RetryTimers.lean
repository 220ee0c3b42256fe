import FileAgent.Library.OneEntry
import FileAgent.RetryBookkeeping
import FileAgent.System

set_option relaxedAutoImplicit false
set_option autoImplicit false

/-!
# The timers of the retries

`_execute_retry_task` sleeps for the delay of its retry, and `asyncio.sleep` does not return early.
The system with the times at which the retries wake up refuses the steps in which one wakes before.

## Main definitions

* `TimedSystem`, `timedStep` — the system with the wake-up times.
* `System.retries` — its retries, as a state of the bookkeeping.
* `Timers` — the invariant.

## Main results

* `retries_step` — the retries after a step are those of the bookkeeping.
* `timers_step` — the step lemma.
-/

namespace FileAgent

open Transition StateManager

/-! ## The system with its timers -/

/-- The system, and the time before which the sleep of a retry does not return, by its handle. -/
structure TimedSystem where
  system : System
  wakeAt : ℕ → ℕ := fun _ => 0

/-- The retry task, if it sleeps or is about to execute. -/
def Task.pendingRetry (t : Task) : Option RetryTask :=
  match t.point with
  | .retry handle f .sleep | .retry handle f .execute => some ⟨handle, f⟩
  | _ => none

/-- The sleep of a retry returns in this step. -/
def Task.wakes (t : Task) : Option ℕ :=
  match t.point with
  | .retry handle _ .sleep => some handle
  | _ => none

/-- The wake-up times after an operation: that of the retry it schedules is set. -/
def TimedSystem.wakeAtAfter (s : TimedSystem) (now : ℕ) : Op → ℕ → ℕ
  | .call (.scheduleRetry _ delay _) =>
    Function.update s.wakeAt s.system.manager.nextTask (now + seconds delay)
  | _ => s.wakeAt

/-- One step. No sleep returns early. -/
def timedStep (cfg : Settings) (s : TimedSystem) (a : SystemAction) : Option TimedSystem :=
  match a with
  | .run i now _ =>
    match s.system.tasks[i]? with
    | none => none
    | some t =>
      if ∀ handle ∈ t.wakes, s.wakeAt handle ≤ now then
        (systemStep cfg s.system a).map fun s' =>
          { system := s', wakeAt := s.wakeAtAfter now (t.nextOp cfg) }
      else none
  | _ => (systemStep cfg s.system a).map fun s' => { s with system := s' }

/-- The start. -/
def TimedSystem.start (n : ℕ) : TimedSystem := { system := .start n }

/-- The retries of the system. -/
def System.retries (s : System) : RetryState where
  manager := s.manager
  tasks := s.tasks.filterMap Task.pendingRetry

section Steps

variable {cfg : Settings} {s s' : TimedSystem} {i now : ℕ} {env : Env}

/-- A step of the timed system is one of the system. -/
lemma systemStep_of_timedStep {a : SystemAction} (h : timedStep cfg s a = some s') :
    systemStep cfg s.system a = some s'.system := by
  unfold timedStep at h
  split at h
  · split at h
    · cases h
    · split_ifs at h
      obtain ⟨s₁, hs₁, rfl⟩ := Option.map_eq_some_iff.mp h
      exact hs₁
  · obtain ⟨s₁, hs₁, rfl⟩ := Option.map_eq_some_iff.mp h
    exact hs₁

/-- A step of a task is made no earlier than its timer is due. -/
lemma timedStep_run (h : timedStep cfg s (.run i now env) = some s') :
    ∃ t, s.system.tasks[i]? = some t ∧ (∀ handle ∈ t.wakes, s.wakeAt handle ≤ now) ∧
      s'.wakeAt = s.wakeAtAfter now (t.nextOp cfg) := by
  simp only [timedStep] at h
  split at h
  · cases h
  · rename_i t ht
    split_ifs at h with hwake
    obtain ⟨s₁, -, rfl⟩ := Option.map_eq_some_iff.mp h
    exact ⟨t, ht, hwake, rfl⟩

/-- Actions outside a task keep the timers. -/
lemma timedStep_of_ne_run {a : SystemAction} (h : timedStep cfg s a = some s')
    (ha : ∀ i now env, a ≠ .run i now env) : s'.wakeAt = s.wakeAt := by
  unfold timedStep at h
  split at h
  · exact absurd rfl (ha _ _ _)
  · obtain ⟨s₁, -, rfl⟩ := Option.map_eq_some_iff.mp h
    rfl

end Steps

/-! ## The retries of the system -/

section Retries

variable {cfg : Settings} {s s' : System} {i now : ℕ} {env : Env} {o : Op}

/-- Cancelled retries are filtered out. -/
lemma pendingRetry_cancel (cancelled : List ℕ) (t : Task) :
    (t.cancel cancelled).pendingRetry = t.pendingRetry.filter (·.handle ∉ cancelled) := by
  rcases t with ⟨point, phase⟩
  cases point with
  | retry handle f p =>
    by_cases hc : handle ∈ cancelled <;> cases p <;>
      simp [Task.cancel, Task.pendingRetry, hc, Option.filter_some]
  | _ => rfl

/-- The tasks an operation creates contain the retry it schedules. -/
lemma pendingRetry_created (m : StateManager) (o : Op) (sec : Section) :
    (System.created m o sec).filterMap Task.pendingRetry =
      match o with
      | .call c => scheduledTask m c
      | _ => [] := by
  have hspawned : (sec.spawned.map Task.ofEvent).filterMap Task.pendingRetry = [] := by
    rw [List.filterMap_eq_nil_iff]
    intro t ht
    obtain ⟨ev, -, rfl⟩ := List.mem_map.mp ht
    cases ev <;> rfl
  rw [System.created, List.filterMap_append, hspawned, List.nil_append]
  cases o with
  | call c =>
    cases c with
    | scheduleRetry f delay reason =>
      by_cases hf : f ∈ m.files <;> simp [System.retryTask, scheduledTask, hf, Task.pendingRetry]
    | _ => rfl
  | _ => rfl

/-- A task that goes on is the retry it was, or no unfinished retry. -/
lemma pendingRetry_goOn {view : View} {t t' : Task} {published : Option FileStatusChangedEvent}
    {a : Answer} (h : t.goOn cfg view published a = some t') :
    t'.pendingRetry = none ∨ t'.pendingRetry = t.pendingRetry := by
  unfold Task.pendingRetry
  rcases point_goOn h with hsame | ⟨b, hafter, -⟩
  · exact .inr (by rw [hsame])
  · generalize t.point = r, t'.point = r' at hafter ⊢
    cases TaskPoint.next_of_after hafter with
    | retry handle f p q hq =>
      cases p <;> cases b <;> cases hq
      · exact .inr rfl
      · exact .inl rfl
    | _ => exact .inl rfl

/-- The section of a retry is run by its task, which is finished then. -/
lemma executes_of_nextOp {t : Task} {f : FileId}
    (h : t.nextOp cfg = .call (.executeRetryTask f)) :
    ∃ handle, t.point = .retry handle f .execute ∧ t.phase = .awaiting := by
  cases calls_of_nextOp h with
  | executeRetry handle => exact ⟨handle, rfl, rfl⟩

/-- A call of the manager is one of its sections. -/
lemma perform_call (m : StateManager) (now : ℕ) (c : ServiceCall) :
    (m.perform cfg now (.call c)).1 = m.call now c := by
  cases c <;> rfl

/-- The retries after a step of a task, if it does not execute one. -/
lemma retries_sublist {t t' : Task} {view : View} {published : Option FileStatusChangedEvent}
    {a : Answer} (ht : s.tasks[i]? = some t) (hgo : t.goOn cfg view published a = some t')
    (cancelled : List ℕ) :
    (((s.tasks.set i t').map (Task.cancel cancelled)).filterMap Task.pendingRetry).Sublist
      (s.retries.tasks.filter (·.handle ∉ cancelled)) := by
  have hcancel : Task.pendingRetry ∘ Task.cancel cancelled =
      fun t => t.pendingRetry.filter (·.handle ∉ cancelled) :=
    funext fun t => pendingRetry_cancel cancelled t
  rw [List.filterMap_map, hcancel, ← List.filter_filterMap]
  refine List.Sublist.filter _ (OneEntry.filterMap_set_sublist _ _ _ ?_)
  rcases pendingRetry_goOn hgo with hnone | hsame
  · exact .inl hnone
  · refine .inr fun u hu => ?_
    rw [ht, Option.mem_def, Option.some.injEq] at hu
    rw [hsame, hu]

/-- The tasks of a retry that executes end with its section. -/
lemma pendingRetry_of_executes {view : View} {t t' : Task} {a : Answer} {handle : ℕ} {f : FileId}
    (hpoint : t.point = .retry handle f .execute) (hphase : t.phase = .awaiting)
    (h : t.goOn cfg view none a = some t') : t'.pendingRetry = none := by
  simp only [Task.goOn, hphase, hpoint] at h
  obtain ⟨p', hp', rfl⟩ := Option.map_eq_some_iff.mp h
  cases a <;> cases hp'
  rfl

/-- **The retries after a step**: those after a call of the manager, or without one that has fired,
or those from before.

**Proof sketch.** A step of a task performs a call, executes a retry or does neither. The timers
after it are those of the tasks: a call may cancel some and create one, the execution removes its
own, and any other operation leaves them. -/
lemma retries_step (hnodup : (s.retries.tasks.map RetryTask.handle).Nodup)
    (hs : systemStep cfg s (.run i now env) = some s') :
    ∃ t, s.tasks[i]? = some t ∧
      s'.manager = (s.manager.perform cfg now (t.nextOp cfg)).1.manager ∧
      ((∃ c, (∀ f, c ≠ .executeRetryTask f) ∧ t.nextOp cfg = .call c ∧
          s'.retries.tasks.Sublist
            (s.retries.afterSection (s.manager.call now c) (scheduledTask s.manager c)).tasks) ∨
        (∃ handle f, t.nextOp cfg = .call (.executeRetryTask f) ∧
          t.point = .retry handle f .execute ∧ ⟨handle, f⟩ ∈ s.retries.tasks ∧
          s'.retries.tasks.Sublist s.retries.tasks ∧
          ∀ u ∈ s'.retries.tasks, u.handle ≠ handle) ∨
        ((∀ c, t.nextOp cfg ≠ .call c) ∧ s'.retries.tasks.Sublist s.retries.tasks)) := by
  obtain ⟨t, t', ht, -, hgo, rfl⟩ := systemStep_run hs
  refine ⟨t, ht, by dsimp only; rw [perform_fst], ?_⟩
  have hold := retries_sublist ht hgo (s.perform cfg now (t.nextOp cfg)).1.cancelled
  have hsub := hold.trans List.filter_sublist
  simp only [System.retries, List.filterMap_append, pendingRetry_created]
  cases ho : t.nextOp cfg with
  | call c =>
    by_cases hc : ∃ f, c = .executeRetryTask f
    · obtain ⟨f, rfl⟩ := hc
      obtain ⟨handle, hpoint, hphase⟩ := executes_of_nextOp ho
      have hretry : t.pendingRetry = some ⟨handle, f⟩ := by simp [Task.pendingRetry, hpoint]
      refine .inr (.inl ⟨handle, f, rfl, hpoint,
        List.mem_filterMap.mpr ⟨t, List.mem_of_getElem? ht, hretry⟩, ?_, ?_⟩)
      · rw [ho] at hsub
        simp only [scheduledTask, List.append_nil]
        exact hsub
      · -- the section of a retry publishes nothing and cancels nothing
        have hpub : (s.perform cfg now (t.nextOp cfg)).1.published = none := by
          rw [ho, perform_fst, perform_call]
          rcases executeRetryTask_cases s.manager f with h | ⟨-, -, -, -, -, h, -⟩
          · simp only [call, h]
          · exact h
        rw [hpub] at hgo
        have hnone := pendingRetry_of_executes hpoint hphase hgo
        intro u hu
        simp only [scheduledTask, List.append_nil, List.filterMap_map, List.mem_filterMap,
          Function.comp_apply, pendingRetry_cancel] at hu
        obtain ⟨v, hv, hu⟩ := hu
        have hmem := (Option.filter_eq_some_iff.mp hu).1
        exact (OneEntry.ne_of_mem_filterMap_set Task.pendingRetry RetryTask.handle hretry hnone
          s.tasks i ht hnodup u (List.mem_filterMap.mpr ⟨v, hv, hmem⟩)).2
    · push Not at hc
      refine .inl ⟨c, hc, rfl, ?_⟩
      rw [ho, perform_fst, perform_call] at hold
      simp only [perform_fst, perform_call, RetryState.afterSection]
      exact hold.append (List.Sublist.refl _)
  | _ =>
    refine .inr (.inr ⟨(fun _ h => by cases h), ?_⟩)
    rw [ho] at hsub
    simp only [List.append_nil]
    exact hsub

end Retries

/-! ## The invariant -/

/-- Every unfinished retry is registered, none twice; it does not wake up before the time of its
record's `retry_info`, and it is past its time when it executes. -/
structure Timers (s : TimedSystem) : Prop where
  registered : Registered s.system.retries
  nodup : (s.system.retries.tasks.map RetryTask.handle).Nodup
  due : ∀ t ∈ s.system.retries.tasks, ∀ r ∈ (s.system.manager.heap t.file).retryInfo,
    r.retryAt ≤ s.wakeAt t.handle
  awake : ∀ t ∈ s.system.tasks, ∀ handle f, t.point = .retry handle f .execute →
    s.wakeAt handle ≤ s.system.now

section Invariant

variable {cfg : Settings} {s s' : TimedSystem} {i now : ℕ} {env : Env}

/-- Fewer tasks stay registered. -/
lemma registered_of_subset {r : RetryState} {tasks : List RetryTask} (h : Registered r)
    (hsub : tasks ⊆ r.tasks) : Registered ⟨r.manager, tasks⟩ where
  keys := h.keys
  handles := h.handles
  given := h.given
  registered := fun t ht => h.registered t (hsub ht)

/-- **Where a `retry_info` comes from**: it was there, or the call has scheduled the retry. -/
lemma retryInfo_call {m : StateManager} {c : ServiceCall} {id : FileId} {r : RetryInfo}
    (h : r ∈ ((m.call now c).manager.heap id).retryInfo) :
    r ∈ (m.heap id).retryInfo ∨ ∃ delay reason, c = .scheduleRetry id delay reason ∧
      id ∈ m.files ∧ r.retryAt = now + seconds delay := by
  have hchange := recordChange_perform {} m now (.call c) id
  rw [perform_call] at hchange
  generalize (m.call now c).manager.heap id = f at h hchange
  cases hchange with
  | same => exact .inl h
  | updated =>
    rw [retryInfo_applyUpdate] at h
    split_ifs at h
    · cases h
    · exact .inl h
  | found => cases h
  | scheduled hid =>
    obtain rfl := Option.some.inj h
    exact .inr ⟨_, _, rfl, hid, rfl⟩
  | retried => cases h
  | _ => exact .inl h

/-- A `retry_info` found after an operation was there before, or has just been scheduled. -/
lemma retryInfo_perform {m : StateManager} {o : Op} {id : FileId} {r : RetryInfo}
    (h : r ∈ ((m.perform cfg now o).1.manager.heap id).retryInfo) :
    r ∈ (m.heap id).retryInfo ∨ ∃ delay reason, o = .call (.scheduleRetry id delay reason) ∧
      id ∈ m.files ∧ r.retryAt = now + seconds delay := by
  cases o with
  | call c =>
    rw [perform_call] at h
    rcases retryInfo_call h with hold | ⟨delay, reason, rfl, hid, hat⟩
    · exact .inl hold
    · exact .inr ⟨delay, reason, rfl, hid, hat⟩
  | _ => exact .inl h

/-- The wake-up time of a retry stays as it is. -/
lemma wakeAtAfter_of_mem (h : Timers s) {u : RetryTask} (hu : u ∈ s.system.retries.tasks) (o : Op) :
    s.wakeAtAfter now o u.handle = s.wakeAt u.handle := by
  have hlt : u.handle < s.system.manager.nextTask :=
    h.registered.given _ (h.registered.registered u hu)
  unfold TimedSystem.wakeAtAfter
  split
  · exact Function.update_of_ne hlt.ne _ _
  · rfl

/-- The retries after a call are registered, none twice.

**Proof sketch.** A call replaces the tasks of some files by a new one, and the map with them
(`exists_remaps_call`), so they stay registered. The new task has a handle above all those given,
so no handle occurs twice. -/
lemma registered_of_call (h : Timers s) {c : ServiceCall} (hc : ∀ f, c ≠ .executeRetryTask f)
    {tasks : List RetryTask}
    (hsub : tasks.Sublist (s.system.retries.afterSection (s.system.manager.call now c)
      (scheduledTask s.system.manager c)).tasks) :
    Registered ⟨(s.system.manager.call now c).manager, tasks⟩ ∧
      (tasks.map RetryTask.handle).Nodup := by
  obtain ⟨dropped, _, hmap⟩ := exists_remaps_call s.system.manager now c hc
  refine ⟨registered_of_subset (registered_afterSection h.registered hmap) hsub.subset, ?_⟩
  refine List.Nodup.sublist (hsub.map _) ?_
  rw [RetryState.afterSection, List.map_append]
  refine List.nodup_append.mpr ⟨h.nodup.sublist (List.filter_sublist.map _), ?_, ?_⟩
  · unfold scheduledTask
    split
    · split_ifs <;> simp
    · simp
  · -- the new task has a new handle
    rintro a ha b hb rfl
    obtain ⟨u, hu, rfl⟩ := List.mem_map.mp ha
    have hlt : u.handle < s.system.manager.nextTask :=
      h.registered.given _ (h.registered.registered u (List.mem_of_mem_filter hu))
    unfold scheduledTask at hb
    split at hb
    · split_ifs at hb
      · simp only [List.map_cons, List.map_nil, List.mem_singleton] at hb
        exact absurd hb hlt.ne
      · cases hb
    · cases hb

/-- The retries after one has fired, or found nothing to do. -/
lemma registered_of_executes (h : Timers s) {handle : ℕ} {f : FileId} {tasks : List RetryTask}
    (hmem : ⟨handle, f⟩ ∈ s.system.retries.tasks) (hsub : tasks ⊆ s.system.retries.tasks)
    (hne : ∀ u ∈ tasks, u.handle ≠ handle) :
    Registered ⟨(s.system.manager.executeRetryTask f).manager, tasks⟩ := by
  by_cases hfires : f ∈ s.system.manager.files ∧
      (s.system.manager.heap f).status = .waitingForSpace ∧
      (s.system.manager.heap f).retryInfo ≠ none
  · obtain ⟨hid, hst, hinfo⟩ := hfires
    obtain ⟨hmap, hnext, -⟩ := remaps_executeRetryTask hid hst hinfo
    refine registered_of_subset (registered_fired h.registered hmem rfl hmap hnext) fun u hu => ?_
    exact List.mem_filter.mpr ⟨hsub hu, by simpa using hne u hu⟩
  · have hsame : s.system.manager.executeRetryTask f = { manager := s.system.manager } := by
      rcases executeRetryTask_cases s.system.manager f with hsame | ⟨hid, hst, hinfo, -⟩
      · exact hsame
      · exact absurd ⟨hid, hst, hinfo⟩ hfires
    rw [hsame]
    exact registered_of_subset h.registered hsub

/-- A retry that is scheduled replaces the one of its file.

**Proof sketch.** The new task sleeps until the time its call has set. Any other task keeps its
time. If the call has scheduled a retry of the same file, it has cancelled that task; otherwise
`retry_info` is what it was. -/
lemma due_of_call (h : Timers s) {c : ServiceCall} {u : RetryTask}
    (hu : u ∈ (s.system.retries.afterSection (s.system.manager.call now c)
      (scheduledTask s.system.manager c)).tasks) {r : RetryInfo}
    (hr : r ∈ ((s.system.manager.call now c).manager.heap u.file).retryInfo) :
    r.retryAt ≤ s.wakeAtAfter now (.call c) u.handle := by
  by_cases hnew : u ∈ scheduledTask s.system.manager c
  · unfold scheduledTask at hnew
    split at hnew
    · rename_i f delay reason
      split_ifs at hnew with hf
      · rw [List.mem_singleton] at hnew
        subst hnew
        simp only [call, heap_scheduleRetry hf, Function.update_self] at hr
        obtain rfl := Option.some.inj hr
        simp only [TimedSystem.wakeAtAfter, Function.update_self]
        exact le_rfl
      · cases hnew
    · cases hnew
  · obtain ⟨hold, hkept⟩ := List.mem_filter.mp ((List.mem_append.mp hu).resolve_right hnew)
    rw [wakeAtAfter_of_mem h hold]
    rcases retryInfo_call hr with hbefore | ⟨delay, reason, rfl, hid, -⟩
    · exact h.due u hold r hbefore
    · -- the retry of the file has been cancelled
      have hcancelled : u.handle ∈
          (s.system.manager.call now (.scheduleRetry u.file delay reason)).cancelled :=
        ((remaps_scheduleRetry delay reason).cancelled u.handle).mpr
          ⟨u.file, ⟨rfl, hid⟩, h.registered.registered u hold⟩
      simp [hcancelled] at hkept

/-- A retry that executes is registered. -/
lemma mem_retries_of_executes {t : Task} {handle : ℕ} {f : FileId} (ht : t ∈ s.system.tasks)
    (hpoint : t.point = .retry handle f .execute) : ⟨handle, f⟩ ∈ s.system.retries.tasks :=
  List.mem_filterMap.mpr ⟨t, ht, by simp [Task.pendingRetry, hpoint]⟩

/-- A retry comes to execute when its sleep is over. -/
lemma awake_goOn {t t' : Task} {view : View} {published : Option FileStatusChangedEvent}
    {a : Answer} {handle : ℕ} {f : FileId} (hgo : t.goOn cfg view published a = some t')
    (hpoint : t'.point = .retry handle f .execute) :
    t.point = .retry handle f .execute ∨ t.point = .retry handle f .sleep := by
  rcases point_goOn hgo with hsame | ⟨b, hafter, -⟩
  · exact .inl (hsame ▸ hpoint)
  · right
    generalize t.point = r, t'.point = r' at hafter hpoint ⊢
    cases TaskPoint.next_of_after hafter with
    | retry handle' f' p q hq =>
      cases hpoint
      cases p <;> cases b <;> cases hq
      rfl
    | _ => cases hpoint

/-- No retry executes early after a step.

**Proof sketch.** A task that is about to execute has done so before, and the clock does not go
back; or it wakes up in this step, which it does only at its time. A task that is created does not
execute yet. -/
lemma awake_step (h : Timers s) (hs : timedStep cfg s (.run i now env) = some s') :
    ∀ u ∈ s'.system.tasks, ∀ handle f, u.point = .retry handle f .execute →
      s'.wakeAt handle ≤ s'.system.now := by
  obtain ⟨t, ht, hwake, hwakeAt⟩ := timedStep_run hs
  obtain ⟨t₀, t', ht₀, hnow, hgo, hs'⟩ := systemStep_run (systemStep_of_timedStep hs)
  obtain rfl : t = t₀ := Option.some.inj (ht.symm.trans ht₀)
  rw [hs', hwakeAt]
  intro u hu handle f hpoint
  dsimp only
  -- an old task keeps its wake-up time, and the clock does not go back
  have hold : ∀ v ∈ s.system.tasks, v.point = .retry handle f .execute →
      s.wakeAtAfter now (t.nextOp cfg) handle ≤ now := by
    intro v hv hvpoint
    rw [wakeAtAfter_of_mem (u := ⟨handle, f⟩) h (mem_retries_of_executes hv hvpoint)]
    exact (h.awake v hv handle f hvpoint).trans hnow
  rcases mem_tasks_step hu with rfl | rfl | hnew | ⟨j, -, hj⟩
  · rcases awake_goOn hgo hpoint with hsame | hsleep
    · exact hold t (List.mem_of_getElem? ht) hsame
    · have hmem : ⟨handle, f⟩ ∈ s.system.retries.tasks :=
        List.mem_filterMap.mpr ⟨t, List.mem_of_getElem? ht, by simp [Task.pendingRetry, hsleep]⟩
      rw [wakeAtAfter_of_mem (u := ⟨handle, f⟩) h hmem]
      exact hwake handle (by simp [Task.wakes, hsleep])
  · cases hpoint
  · rcases created_cases hnew with ⟨ev, -, rfl⟩ | ⟨g, rfl⟩
    · cases ev <;> cases hpoint
    · cases hpoint
  · exact hold u (List.mem_of_getElem? hj) hpoint

/-- **The step lemma for the timers.**

**Proof sketch.** Actions outside a task change nothing but the clock and the queue. A step of a
task is one of the three cases of `retries_step`; what was due stays due, since the time of a
timer is set once, when it is created, and the `retry_info` of its record is set with it. -/
lemma timers_step {a : SystemAction} (h : Timers s) (hs : timedStep cfg s a = some s') :
    Timers s' := by
  have hsystem := systemStep_of_timedStep hs
  by_cases ha : ∀ i now env, a ≠ .run i now env
  · obtain ⟨hmanager, htasks, -⟩ := systemStep_of_ne_run hsystem ha
    have hretries : s'.system.retries = s.system.retries := by
      rw [System.retries, System.retries, hmanager, htasks]
    have hnow := now_of_ne_run hsystem ha
    constructor
    · rw [hretries]; exact h.registered
    · rw [hretries]; exact h.nodup
    · rw [hretries, hmanager, timedStep_of_ne_run hs ha]; exact h.due
    · rw [htasks, hnow, timedStep_of_ne_run hs ha]; exact h.awake
  · push Not at ha
    obtain ⟨i, now, env, rfl⟩ := ha
    obtain ⟨t, ht, -, hwakeAt⟩ := timedStep_run hs
    obtain ⟨t₀, ht₀, hmanager, hcases⟩ := retries_step h.nodup hsystem
    obtain rfl : t = t₀ := Option.some.inj (ht.symm.trans ht₀)
    have hretries : s'.system.retries = ⟨s'.system.manager, s'.system.retries.tasks⟩ := rfl
    -- what was due stays due
    have hdue : ∀ u ∈ s.system.retries.tasks, (∀ c, t.nextOp cfg = .call c →
        ∃ f, c = .executeRetryTask f) → ∀ r ∈ (s'.system.manager.heap u.file).retryInfo,
        r.retryAt ≤ s'.wakeAt u.handle := by
      intro u hu hop r hr
      rw [hwakeAt, wakeAtAfter_of_mem h hu]
      rw [hmanager] at hr
      rcases retryInfo_perform hr with hold | ⟨delay, reason, ho, -⟩
      · exact h.due u hu r hold
      · obtain ⟨f, hf⟩ := hop _ ho
        cases hf
    rcases hcases with ⟨c, hc, ho, hsub⟩ | ⟨handle, f, ho, -, hmem, hsub, hne⟩ | ⟨ho, hsub⟩
    · have hmanager' : s'.system.manager = (s.system.manager.call now c).manager := by
        rw [hmanager, ho, perform_call]
      obtain ⟨hreg, hnodup⟩ := registered_of_call h hc hsub
      refine ⟨?_, hnodup, fun u hu r hr => ?_, awake_step h hs⟩
      · rw [hretries, hmanager']
        exact hreg
      · rw [hmanager'] at hr
        rw [hwakeAt, ho]
        exact due_of_call h (hsub.subset hu) hr
    · have hmanager' : s'.system.manager = (s.system.manager.executeRetryTask f).manager := by
        rw [hmanager, ho, perform_call]
        rfl
      refine ⟨?_, h.nodup.sublist (hsub.map _), fun u hu => ?_, awake_step h hs⟩
      · rw [hretries, hmanager']
        exact registered_of_executes h hmem hsub.subset hne
      · refine hdue u (hsub.subset hu) fun c hc => ⟨f, ?_⟩
        rw [ho] at hc
        exact (Op.call.inj hc).symm
    · have hmanager' : s'.system.manager = s.system.manager := by
        rw [hmanager]
        cases hop : t.nextOp cfg with
        | call c => exact absurd hop (ho c)
        | _ => rfl
      refine ⟨?_, h.nodup.sublist (hsub.map _), fun u hu => ?_, awake_step h hs⟩
      · rw [hretries, hmanager']
        exact registered_of_subset h.registered hsub.subset
      · exact hdue u (hsub.subset hu) fun c hc => absurd hc (ho c)

/-- At the start there is no timer. -/
lemma timers_start (n : ℕ) : Timers (.start n) := by
  have hretries : (System.start n).retries.tasks = [] := by
    rw [System.retries, List.filterMap_eq_nil_iff]
    intro t ht
    simp only [System.start, List.cons_append, List.nil_append, List.mem_cons,
      List.mem_replicate] at ht
    rcases ht with rfl | rfl | rfl | ⟨-, rfl⟩ <;> rfl
  constructor
  · constructor
    · exact List.nodup_nil
    · exact List.nodup_nil
    · intro _ h
      cases h
    · simp only [TimedSystem.start, hretries]
      intro _ h
      cases h
  · simp [TimedSystem.start, hretries]
  · simp only [TimedSystem.start, hretries]
    intro _ h
    cases h
  · intro t ht
    simp only [TimedSystem.start, System.start, List.cons_append, List.nil_append, List.mem_cons,
      List.mem_replicate] at ht
    rcases ht with rfl | rfl | rfl | ⟨-, rfl⟩ <;> exact fun _ _ h => by cases h

end Invariant

end FileAgent

import FileAgent.Library.Run
import FileAgent.Library.TimedCache

set_option relaxedAutoImplicit false
set_option autoImplicit false

/-!
# The cache of the destination checker

`DestinationChecker.is_available` answers from a cache, or makes a check under a lock and stores its
result. A call first looks at the cache without the lock, and again when it has it; a forced call
does neither. `cache_result` and `clear_cache` do not ask for the lock. The check itself and the
update of the storage monitor are awaited, and any other call may run meanwhile, or the task of the
call be cancelled. What the check looks at is left out, as is what decides whether the monitor is
updated.

## Main definitions

* `DestinationChecker`, `checkerStep` — the cache, the lock and the calls.
* `CheckCall.Fresh` — the value a call returned is its own, or that of a young result.
* `ChecksWhenStale` — a call makes a check only when no stored result is young.

## Main results

* `checkerInv_step` — the step lemma.
* `fresh_and_checksWhenStale` — both hold in every run.
* `checking_unique` — no two calls make a check at once.
-/

namespace FileAgent

open Transition TimedCache

/-! ## The checker -/

/-- `DestinationCheckResult`. -/
structure DestinationCheckResult where
  isAvailable : Bool
  checkedAt : ℚ
  errorMessage : Option String := none
  testFilePath : Option String := none
  deriving DecidableEq

/-- Where a call of `is_available` is. A call that has returned knows its value and when it returned
it, and the result of the check it made, if it made one. -/
inductive CheckPhase
  | awaitingLock
  | checking
  | updatingStorage (result : DestinationCheckResult)
  | returned (value : Bool) (time : ℚ) (performed : Option DestinationCheckResult)
  | cancelled
  deriving DecidableEq

/-- A call of `is_available`. -/
structure CheckCall where
  forceRefresh : Bool
  phase : CheckPhase
  deriving DecidableEq

/-- The checker on a clock, with all calls so far. The last two fields are its history: all results
stored, and those since the cache was last cleared. -/
structure DestinationChecker where
  cache : TimedCache DestinationCheckResult ℚ := TimedCache.clear 0
  checkLock : Option ℕ := none
  now : ℚ
  calls : List CheckCall := []
  stores : List (Entry DestinationCheckResult ℚ) := []
  live : List (Entry DestinationCheckResult ℚ) := []

/-- What happens: a call begins, the call `i` gets the lock, its check ends, its update of the
storage monitor ends, or its task is cancelled; and the two writers without the lock. -/
inductive CheckerAction
  | isAvailable (forceRefresh : Bool)
  | acquire (i : ℕ)
  | checkDone (i : ℕ) (result : DestinationCheckResult)
  | updateDone (i : ℕ)
  | cancel (i : ℕ)
  | cacheResult (result : Bool) (errorMessage : Option String)
  | clearCache

namespace DestinationChecker

variable (ttl : ℚ) (s : DestinationChecker)

/-- The answer of a valid cache, to a call that is not forced. -/
def cachedAnswer (forceRefresh : Bool) : Option Bool :=
  if forceRefresh then none
  else (s.cache.fresh? ttl s.now).map DestinationCheckResult.isAvailable

/-- A result is stored. -/
def storeResult (result : DestinationCheckResult) : DestinationChecker :=
  { s with
    cache := TimedCache.store result s.now
    stores := ⟨result, s.now⟩ :: s.stores
    live := ⟨result, s.now⟩ :: s.live }

/-- The call `i` goes on. -/
def setPhase (i : ℕ) (call : CheckCall) (phase : CheckPhase) : DestinationChecker :=
  { s with calls := s.calls.set i { call with phase := phase } }

/-- The call `i`, when it is in the phase asked for. -/
def callIn (i : ℕ) (phase : CheckPhase → Bool) : Option CheckCall :=
  s.calls[i]?.filter fun call => phase call.phase

end DestinationChecker

/-- The call holds the lock. -/
def CheckPhase.holdsLock : CheckPhase → Bool
  | .checking | .updatingStorage _ => true
  | _ => false

open DestinationChecker in
/-- What an action does, at the time of the clock. -/
def checkerAct (ttl : ℚ) (s : DestinationChecker) : CheckerAction → Option DestinationChecker
  | .isAvailable forceRefresh =>
    match s.cachedAnswer ttl forceRefresh with
    | some value =>
      some { s with calls := s.calls ++ [⟨forceRefresh, .returned value s.now none⟩] }
    | none => some { s with calls := s.calls ++ [⟨forceRefresh, .awaitingLock⟩] }
  | .acquire i =>
    if s.checkLock = none then
      (s.callIn i (· = .awaitingLock)).map fun call =>
        match s.cachedAnswer ttl call.forceRefresh with
        | some value => s.setPhase i call (.returned value s.now none)
        | none => { s.setPhase i call .checking with checkLock := some i }
    else none
  | .checkDone i result =>
    (s.callIn i (· = .checking)).map fun call =>
      (s.storeResult result).setPhase i call (.updatingStorage result)
  | .updateDone i =>
    s.calls[i]?.bind fun call =>
      match call.phase with
      | .updatingStorage result =>
        some { s.setPhase i call (.returned result.isAvailable s.now (some result)) with
          checkLock := none }
      | _ => none
  | .cancel i =>
    s.calls[i]?.bind fun call =>
      match call.phase with
      | .awaitingLock => some (s.setPhase i call .cancelled)
      | .checking | .updatingStorage _ =>
        some { s.setPhase i call .cancelled with checkLock := none }
      | _ => none
  | .cacheResult result errorMessage =>
    some (s.storeResult ⟨result, s.now, errorMessage, none⟩)
  | .clearCache => some { s with cache := TimedCache.clear 0, live := [] }

/-- One step, at a time that is not before that of the last one. -/
def checkerStep (ttl : ℚ) (s : DestinationChecker) (a : ℚ × CheckerAction) :
    Option DestinationChecker :=
  if s.now ≤ a.1 then checkerAct ttl { s with now := a.1 } a.2 else none

/-! ## Freshness -/

/-- The value a call has returned is that of the check it made, or of a result stored less than
`ttl` before it returned. -/
def CheckCall.Fresh (ttl : ℚ) (stores : List (Entry DestinationCheckResult ℚ)) (call : CheckCall) :
    Prop :=
  ∀ value time performed, call.phase = .returned value time performed →
    (∃ result ∈ performed, result.isAvailable = value) ∨
      ∃ e ∈ stores, e.value.isAvailable = value ∧ e.time ≤ time ∧ time - e.time < ttl

/-- A call that is not forced and begins a check with the step from `s` to `s'` holds the lock, and
no result that is stored is younger than `ttl`. -/
def ChecksWhenStale (ttl : ℚ) (s s' : DestinationChecker) : Prop :=
  ∀ i call, s'.calls[i]? = some call → call.forceRefresh = false → call.phase = .checking →
    (∀ before ∈ s.calls[i]?, before.phase ≠ .checking) →
      s'.checkLock = some i ∧ ∀ e ∈ s'.live, ttl ≤ s'.now - e.time

/-- The invariant. -/
structure CheckerInv (ttl : ℚ) (s : DestinationChecker) : Prop where
  logs : s.cache.Logs s.now s.live
  stored : ∀ e ∈ s.live, e ∈ s.stores
  fresh : ∀ call ∈ s.calls, call.Fresh ttl s.stores
  /-- A call holds the lock exactly when it is in its part of the code. -/
  lock : ∀ i, s.checkLock = some i ↔ (s.calls[i]?.any fun call => call.phase.holdsLock) = true

section Steps

variable {ttl : ℚ} {s s' : DestinationChecker} {call : CheckCall} {i : ℕ} {value : Bool}
  {phase : CheckPhase} {stores stores' : List (Entry DestinationCheckResult ℚ)}
  {result : DestinationCheckResult}

/-- A call found in a phase is one of the calls and in the phase. -/
lemma callIn_eq_some {q : CheckPhase → Bool} :
    s.callIn i q = some call ↔ s.calls[i]? = some call ∧ q call.phase = true := by
  rw [DestinationChecker.callIn, Option.filter_eq_some_iff]

/-- More results may have been stored. -/
lemma CheckCall.Fresh.mono (h : call.Fresh ttl stores) (hle : ∀ e ∈ stores, e ∈ stores') :
    call.Fresh ttl stores' := by
  intro value time performed hphase
  refine (h value time performed hphase).imp_right ?_
  rintro ⟨e, he, hvalue⟩
  exact ⟨e, hle e he, hvalue⟩

/-- A call that has not returned has no value yet. -/
lemma fresh_of_ne (h : ∀ value time performed, call.phase ≠ .returned value time performed) :
    call.Fresh ttl stores :=
  fun value time performed hphase => absurd hphase (h value time performed)

/-- An answer of the cache is that of a young result. -/
lemma fresh_of_cachedAnswer (h : CheckerInv ttl s) {forceRefresh : Bool}
    (hv : s.cachedAnswer ttl forceRefresh = some value) :
    CheckCall.Fresh ttl s.stores ⟨forceRefresh, .returned value s.now none⟩ := by
  rintro _ _ _ hphase
  obtain ⟨rfl, rfl, rfl⟩ := CheckPhase.returned.inj hphase
  unfold DestinationChecker.cachedAnswer at hv
  split_ifs at hv
  obtain ⟨result, hresult, rfl⟩ := Option.map_eq_some_iff.mp hv
  obtain ⟨e, he, rfl, hyoung⟩ := h.logs.exists_of_fresh? hresult
  exact .inr ⟨e, h.stored e he, rfl, hyoung⟩

/-- Without an answer for a call that is not forced, no stored result is young. -/
lemma old_of_cachedAnswer (h : CheckerInv ttl s) (hv : s.cachedAnswer ttl false = none) :
    ∀ e ∈ s.live, ttl ≤ s.now - e.time :=
  h.logs.old_of_fresh?_eq_none (Option.map_eq_none_iff.mp hv)

/-- A result is stored. -/
lemma checkerInv_storeResult (h : CheckerInv ttl s) (result : DestinationCheckResult) :
    CheckerInv ttl (s.storeResult result) where
  logs := h.logs.store result
  stored := List.forall_mem_cons.mpr
    ⟨List.mem_cons_self, fun e he => List.mem_cons_of_mem _ (h.stored e he)⟩
  fresh call hcall := (h.fresh call hcall).mono fun _ he => List.mem_cons_of_mem _ he
  lock := h.lock

/-- The cache is cleared. -/
lemma checkerInv_clearCache (h : CheckerInv ttl s) :
    CheckerInv ttl { s with cache := TimedCache.clear 0, live := [] } where
  logs := logs_clear 0 s.now
  stored _ he := absurd he List.not_mem_nil
  fresh := h.fresh
  lock := h.lock

/-- A call begins. -/
lemma checkerInv_append (h : CheckerInv ttl s) (hfresh : call.Fresh ttl s.stores)
    (hlock : call.phase.holdsLock = false) :
    CheckerInv ttl { s with calls := s.calls ++ [call] } where
  logs := h.logs
  stored := h.stored
  fresh call' hcall' := by
    rcases List.mem_append.mp hcall' with hold | hnew
    · exact h.fresh call' hold
    · rw [List.mem_singleton.mp hnew]
      exact hfresh
  lock j := by
    rw [h.lock j]
    rcases Nat.lt_trichotomy j s.calls.length with hlt | rfl | hgt
    · rw [List.getElem?_append_left hlt]
    · simp [hlock]
    · rw [List.getElem?_eq_none hgt.le, List.getElem?_eq_none (by simpa using hgt)]

/-- A call goes on, and takes the lock, keeps it or gives it back. -/
lemma checkerInv_setPhase (h : CheckerInv ttl s) (hcall : s.calls[i]? = some call)
    {holder : Option ℕ} (hfresh : CheckCall.Fresh ttl s.stores { call with phase := phase })
    (hlock : holder = some i ↔ phase.holdsLock = true)
    (hothers : ∀ j, j ≠ i → (holder = some j ↔ s.checkLock = some j)) :
    CheckerInv ttl { s.setPhase i call phase with checkLock := holder } where
  logs := h.logs
  stored := h.stored
  fresh call' hcall' := by
    rcases List.mem_or_eq_of_mem_set hcall' with hold | rfl
    · exact h.fresh call' hold
    · exact hfresh
  lock j := by
    have hlt : i < s.calls.length := (List.getElem?_eq_some_iff.mp hcall).1
    simp only [DestinationChecker.setPhase, List.getElem?_set]
    by_cases hj : i = j
    · subst hj
      simp [hlt, hlock]
    · rw [if_neg hj]
      exact (hothers j (Ne.symm hj)).trans (h.lock j)

/-- A call in the part of the code behind the lock holds it. -/
lemma CheckerInv.checkLock_eq (h : CheckerInv ttl s) (hcall : s.calls[i]? = some call)
    (hphase : call.phase.holdsLock = true) : s.checkLock = some i := by
  rw [h.lock i, hcall]
  exact hphase

/-- A call gives the lock back. -/
lemma checkerInv_release (h : CheckerInv ttl s) (hcall : s.calls[i]? = some call)
    (hphase : call.phase.holdsLock = true)
    (hfresh : CheckCall.Fresh ttl s.stores { call with phase := phase })
    (hlock : phase.holdsLock = false) :
    CheckerInv ttl { s.setPhase i call phase with checkLock := none } := by
  refine checkerInv_setPhase h hcall hfresh (by simp [hlock]) fun j hj => ?_
  simp [h.checkLock_eq hcall hphase, Ne.symm hj]

/-- **The step lemma.**

**Proof sketch.** By cases on the action. A call begins and takes the lock with a cached answer,
which is fresh by `fresh_of_cachedAnswer`, or without one; a call that leaves the lock, by its end
or by a cancellation, is `checkerInv_release`; a result that is stored is a new entry of the log,
and a clear empties the log and the cache alike. -/
lemma checkerInv_act {a : CheckerAction} (h : CheckerInv ttl s)
    (hs : checkerAct ttl s a = some s') : CheckerInv ttl s' := by
  cases a with
  | isAvailable forceRefresh =>
    simp only [checkerAct] at hs
    cases hanswer : s.cachedAnswer ttl forceRefresh with
    | some value =>
      rw [hanswer] at hs
      obtain rfl := Option.some.inj hs
      exact checkerInv_append h (fresh_of_cachedAnswer h hanswer) rfl
    | none =>
      rw [hanswer] at hs
      obtain rfl := Option.some.inj hs
      exact checkerInv_append h (fresh_of_ne fun _ _ _ => CheckPhase.noConfusion) rfl
  | acquire i =>
    simp only [checkerAct] at hs
    split_ifs at hs with hfree
    obtain ⟨call, hin, rfl⟩ := Option.map_eq_some_iff.mp hs
    obtain ⟨hcall, -⟩ := callIn_eq_some.mp hin
    cases hanswer : s.cachedAnswer ttl call.forceRefresh with
    | some value =>
      exact checkerInv_setPhase h hcall (fresh_of_cachedAnswer h hanswer) (by simp [hfree,
        CheckPhase.holdsLock]) fun _ _ => Iff.rfl
    | none =>
      refine checkerInv_setPhase h hcall (fresh_of_ne fun _ _ _ => CheckPhase.noConfusion)
        (by simp [CheckPhase.holdsLock]) fun j hj => ?_
      simp [hfree, Ne.symm hj]
  | checkDone i result =>
    obtain ⟨call, hin, rfl⟩ := Option.map_eq_some_iff.mp hs
    obtain ⟨hcall, hphase⟩ := callIn_eq_some.mp hin
    have hholds : call.phase.holdsLock = true := by rw [of_decide_eq_true hphase]; rfl
    have hlock := h.checkLock_eq hcall hholds
    exact checkerInv_setPhase (checkerInv_storeResult h result) hcall
      (fresh_of_ne fun _ _ _ => CheckPhase.noConfusion) (by simp [DestinationChecker.storeResult,
        hlock, CheckPhase.holdsLock]) fun _ _ => Iff.rfl
  | updateDone i =>
    obtain ⟨call, hcall, hs⟩ := Option.bind_eq_some_iff.mp hs
    cases hphase : call.phase with
    | updatingStorage result =>
      simp only [hphase] at hs
      obtain rfl := Option.some.inj hs
      refine checkerInv_release h hcall (by rw [hphase]; rfl) (fun _ _ _ hret => ?_) rfl
      obtain ⟨rfl, -, rfl⟩ := CheckPhase.returned.inj hret
      exact .inl ⟨result, rfl, rfl⟩
    | _ => simp only [hphase] at hs; cases hs
  | cancel i =>
    obtain ⟨call, hcall, hs⟩ := Option.bind_eq_some_iff.mp hs
    have hfresh : CheckCall.Fresh ttl s.stores { call with phase := .cancelled } :=
      fresh_of_ne fun _ _ _ => CheckPhase.noConfusion
    cases hphase : call.phase with
    | awaitingLock =>
      simp only [hphase] at hs
      obtain rfl := Option.some.inj hs
      refine checkerInv_setPhase h hcall hfresh ?_ fun _ _ => Iff.rfl
      rw [h.lock i, hcall]
      simp [hphase, CheckPhase.holdsLock]
    | checking | updatingStorage result =>
      simp only [hphase] at hs
      obtain rfl := Option.some.inj hs
      exact checkerInv_release h hcall (by rw [hphase]; rfl) hfresh rfl
    | _ => simp only [hphase] at hs; cases hs
  | cacheResult result errorMessage =>
    obtain rfl := Option.some.inj hs
    exact checkerInv_storeResult h _
  | clearCache =>
    obtain rfl := Option.some.inj hs
    exact checkerInv_clearCache h

/-- Time goes by. -/
lemma checkerInv_later (h : CheckerInv ttl s) {now : ℚ} (hle : s.now ≤ now) :
    CheckerInv ttl { s with now := now } :=
  ⟨h.logs.later hle, h.stored, h.fresh, h.lock⟩

@[inherit_doc checkerInv_act]
lemma checkerInv_step {a : ℚ × CheckerAction} (h : CheckerInv ttl s)
    (hs : checkerStep ttl s a = some s') : CheckerInv ttl s' := by
  unfold checkerStep at hs
  split_ifs at hs with hle
  exact checkerInv_act (checkerInv_later h hle) hs

/-- A step that puts no call into its check begins none. -/
lemma checking_of_set {j : ℕ} {call' : CheckCall} (hne : phase ≠ .checking)
    (hcall' : (s.calls.set j { call with phase := phase })[i]? = some call')
    (hphase : call'.phase = .checking) : s.calls[i]? = some call' := by
  rw [List.getElem?_set] at hcall'
  split_ifs at hcall'
  · obtain rfl := Option.some.inj hcall'
    exact absurd hphase hne
  · exact hcall'

@[inherit_doc checking_of_set]
lemma checking_of_append {call' : CheckCall} (hne : call.phase ≠ .checking)
    (hcall' : (s.calls ++ [call])[i]? = some call') (hphase : call'.phase = .checking) :
    s.calls[i]? = some call' := by
  rcases Nat.lt_or_ge i s.calls.length with hlt | hge
  · rwa [List.getElem?_append_left hlt] at hcall'
  · rw [List.getElem?_append_right hge] at hcall'
    obtain rfl := List.mem_singleton.mp (List.mem_of_getElem? hcall')
    exact absurd hphase hne

/-- **A check begins when no stored result is young.**

**Proof sketch.** Of all actions only `acquire` takes a call to its check, and it does so where
the cache has no answer for the call. For a call that is not forced this means that no stored
result is young. Every other action leaves the calls that were not checking as they were. -/
lemma checksWhenStale_act {a : CheckerAction} (h : CheckerInv ttl s)
    (hs : checkerAct ttl s a = some s') : ChecksWhenStale ttl s s' := by
  intro j call' hcall' hforced hchecking hbefore
  have hold : s.calls[j]? ≠ some call' := fun hsame => hbefore call' hsame hchecking
  cases a with
  | acquire i =>
    simp only [checkerAct] at hs
    split_ifs at hs with hfree
    obtain ⟨call, hin, rfl⟩ := Option.map_eq_some_iff.mp hs
    cases hanswer : s.cachedAnswer ttl call.forceRefresh with
    | some value =>
      rw [hanswer] at hcall'
      exact absurd (checking_of_set CheckPhase.noConfusion hcall' hchecking) hold
    | none =>
      simp only [hanswer] at hcall' ⊢
      simp only [DestinationChecker.setPhase, List.getElem?_set] at hcall'
      split_ifs at hcall' with hij
      · subst hij
        obtain rfl := Option.some.inj hcall'
        have hforced' : call.forceRefresh = false := hforced
        rw [hforced'] at hanswer
        exact ⟨rfl, fun e he => old_of_cachedAnswer h hanswer e he⟩
      · exact absurd hcall' hold
  | isAvailable forceRefresh =>
    simp only [checkerAct] at hs
    split at hs <;> obtain rfl := Option.some.inj hs <;>
      exact absurd (checking_of_append CheckPhase.noConfusion hcall' hchecking) hold
  | checkDone i result =>
    obtain ⟨call, hin, rfl⟩ := Option.map_eq_some_iff.mp hs
    exact absurd (checking_of_set CheckPhase.noConfusion hcall' hchecking) hold
  | updateDone i =>
    obtain ⟨call, hcall, hs⟩ := Option.bind_eq_some_iff.mp hs
    split at hs
    · obtain rfl := Option.some.inj hs
      exact absurd (checking_of_set CheckPhase.noConfusion hcall' hchecking) hold
    · cases hs
  | cancel i =>
    obtain ⟨call, hcall, hs⟩ := Option.bind_eq_some_iff.mp hs
    split at hs
    · obtain rfl := Option.some.inj hs
      exact absurd (checking_of_set CheckPhase.noConfusion hcall' hchecking) hold
    · obtain rfl := Option.some.inj hs
      exact absurd (checking_of_set CheckPhase.noConfusion hcall' hchecking) hold
    · obtain rfl := Option.some.inj hs
      exact absurd (checking_of_set CheckPhase.noConfusion hcall' hchecking) hold
    · cases hs
  | cacheResult result errorMessage =>
    obtain rfl := Option.some.inj hs
    exact absurd hcall' hold
  | clearCache =>
    obtain rfl := Option.some.inj hs
    exact absurd hcall' hold

end Steps

/-! ## Whole runs -/

section Runs

variable {ttl t₀ : ℚ} {s : DestinationChecker}
  {tr : List (DestinationChecker × (ℚ × CheckerAction))}

/-- At the start there is no call and nothing is cached. -/
lemma checkerInv_start (ttl t₀ : ℚ) : CheckerInv ttl { now := t₀ } where
  logs := logs_clear 0 t₀
  stored _ he := absurd he List.not_mem_nil
  fresh _ hcall := absurd hcall List.not_mem_nil
  lock _ := by simp

/-- The invariant holds in every run. -/
lemma checkerInv_run (h : Run (checkerStep ttl) { now := t₀ } tr s) : CheckerInv ttl s := by
  have hall : Meets (fun _ _ => True) tr := fun _ _ => trivial
  exact h.invariant hall (checkerInv_start ttl t₀) fun _ _ _ hinv _ hs => checkerInv_step hinv hs

/-- **Values are fresh, and checks are made when none is.** In every interleaving the value of a
call is that of the check it made, or of a result stored less than `ttl` before its return; and a
call that is not forced begins a check only when it holds the lock and no stored result is younger.

**Proof sketch.** The cache holds the youngest of the results stored since it was last cleared
(`TimedCache.Logs`). A call that does not check returns in the same stretch of code in which it
finds the cache valid, and one that checks has found it not valid with the lock in hand. -/
theorem fresh_and_checksWhenStale (h : Run (checkerStep ttl) { now := t₀ } tr s) :
    (∀ call ∈ s.calls, call.Fresh ttl s.stores) ∧
      ∀ s₁ a s₂, (s₁, a) ∈ tr → checkerStep ttl s₁ a = some s₂ → ChecksWhenStale ttl s₁ s₂ := by
  refine ⟨(checkerInv_run h).fresh, fun s₁ a s₂ hmem hs => ?_⟩
  obtain ⟨tr₁, tr₂, -, rfl, hrun, -⟩ := h.at_mem hmem
  unfold checkerStep at hs
  split_ifs at hs with hle
  have hinv := checkerInv_later (checkerInv_run hrun) hle
  exact fun i call hcall => checksWhenStale_act hinv hs i call hcall

/-- Two calls begin, the first makes a check, and the second waits for it. -/
def twoCalls : List (ℚ × CheckerAction) :=
  [(0, .isAvailable false), (0, .acquire 0), (1, .isAvailable false),
    (2, .checkDone 0 ⟨true, 2, none, none⟩), (3, .updateDone 0), (4, .acquire 1)]

/-- The second call, answered from the cache. -/
def answeredFromCache : CheckCall := ⟨false, .returned true 4 none⟩

/-- The second call returns the result of the first one. -/
theorem fresh_twoCalls :
    ∃ s, Run (checkerStep 5) { now := 0 } (traceOf (checkerStep 5) { now := 0 } twoCalls) s ∧
      s.calls[1]? = some answeredFromCache ∧
      (∀ call ∈ s.calls, call.Fresh 5 s.stores) ∧
      ∀ s₁ a s₂, (s₁, a) ∈ traceOf (checkerStep 5) { now := 0 } twoCalls →
        checkerStep 5 s₁ a = some s₂ → ChecksWhenStale 5 s₁ s₂ := by
  obtain ⟨s, hrun, hs⟩ := exists_run_of_replay (checkerStep 5) { now := 0 } twoCalls
    (fun s => decide (s.calls[1]? = some answeredFromCache)) (by decide +kernel)
  exact ⟨s, hrun, of_decide_eq_true hs, fresh_and_checksWhenStale hrun⟩

/-- **No two calls make a check at once.** -/
theorem checking_unique (h : Run (checkerStep ttl) { now := t₀ } tr s) {i j : ℕ}
    {call call' : CheckCall} (hi : s.calls[i]? = some call) (hj : s.calls[j]? = some call')
    (hcall : call.phase.holdsLock = true) (hcall' : call'.phase.holdsLock = true) : i = j := by
  have hinv := checkerInv_run h
  have hlock := hinv.checkLock_eq hi hcall
  rw [hinv.checkLock_eq hj hcall'] at hlock
  exact (Option.some.inj hlock).symm

end Runs

end FileAgent

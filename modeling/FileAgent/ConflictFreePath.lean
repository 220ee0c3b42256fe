import FileAgent.FileOperations
import FileAgent.Library.FreshNames

set_option relaxedAutoImplicit false
set_option autoImplicit false

/-!
# Paths that do not conflict

What `generate_conflict_free_path` is for: it picks a path that does not exist, near the one that is
asked for. The file system is the finite set of the paths that exist.

## Main definitions

* `IsSibling` — the path with a number behind the base name.
* `ConflictFree` — the result that a set of paths and a path call for.
* `resolveAll` — destinations resolved one after another, each result created before the next.

## Main results

* `isSibling_iff` — the numbered name is the sibling.
* `conflictFreePath_spec` — the results, one by one and for a list of destinations.
-/

namespace FileAgent

open FreshNames

/-! ## Siblings -/

/-- `q` is the sibling `base_k` of `p` with its extensions, which begin at the first dot. -/
def IsSibling (p : DestPath) (k : ℕ) (q : DestPath) : Prop :=
  q.parent = p.parent ∧ ∃ baseName extensions : List Char,
    p.name.toList = baseName ++ extensions ∧ '.' ∉ baseName ∧
      (extensions = [] ∨ extensions.head? = some '.') ∧
      q.name.toList = baseName ++ '_' :: (Nat.repr k).toList ++ extensions

/-- A text is split at its first dot in one way. -/
lemma split_firstDot {text baseName extensions : List Char} (h : text = baseName ++ extensions)
    (hbase : '.' ∉ baseName) (hext : extensions = [] ∨ extensions.head? = some '.') :
    text.takeWhile (· ≠ '.') = baseName ∧ text.dropWhile (· ≠ '.') = extensions := by
  have hall : ∀ c ∈ baseName, decide (c ≠ '.') = true := by
    intro c hc
    refine decide_eq_true fun hdot => hbase ?_
    rwa [← hdot]
  have hhead : extensions.takeWhile (· ≠ '.') = [] ∧
      extensions.dropWhile (· ≠ '.') = extensions := by
    cases extensions with
    | nil => exact ⟨rfl, rfl⟩
    | cons c cs =>
      obtain rfl : c = '.' := by simpa using hext
      exact ⟨rfl, rfl⟩
  rw [h, List.takeWhile_append_of_pos hall, List.dropWhile_append_of_pos hall, hhead.1, hhead.2,
    List.append_nil]
  exact ⟨rfl, rfl⟩

/-- **The numbered name is the sibling.** -/
lemma isSibling_iff {p q : DestPath} {k : ℕ} : IsSibling p k q ↔ q = p.numbered k := by
  constructor
  · rintro ⟨hparent, baseName, extensions, hname, hbase, hext, hq⟩
    obtain ⟨htake, hdrop⟩ := split_firstDot hname hbase hext
    have hq' : q.name = (p.numbered k).name := by
      rw [← String.ofList_toList (s := q.name), hq, DestPath.numbered, htake, hdrop]
    cases q
    cases hparent
    cases hq'
    rfl
  · rintro rfl
    refine ⟨rfl, p.name.toList.takeWhile (· ≠ '.'), p.name.toList.dropWhile (· ≠ '.'),
      (List.takeWhile_append_dropWhile).symm, fun hmem => ?_, ?_, ?_⟩
    · simpa using List.mem_takeWhile_imp hmem
    · cases hdrop : p.name.toList.dropWhile (· ≠ '.') with
      | nil => exact .inl rfl
      | cons c cs =>
        right
        have hc := List.head?_dropWhile_not (· ≠ '.') p.name.toList
        rw [hdrop] at hc
        simpa using hc
    · rw [DestPath.numbered, String.toList_ofList]

/-! ## The result -/

/-- The result that the paths of `names` and the path `p` call for. -/
structure ConflictFree (names : Finset DestPath) (p : DestPath) (r : Except PyError DestPath) :
    Prop where
  free : p ∉ names → r = .ok p
  least : p ∈ names → ∀ q, r = .ok q ↔ ∃ k, 1 ≤ k ∧ k ≤ 9999 ∧ IsSibling p k q ∧ q ∉ names ∧
    ∀ i, 1 ≤ i → i < k → ∀ q', IsSibling p i q' → q' ∈ names
  exhausted : (∃ e, r = .error e) ↔
    p ∈ names ∧ ∀ k, 1 ≤ k → k ≤ 9999 → ∀ q, IsSibling p k q → q ∈ names
  runtimeError : ∀ e, r = .error e → e.kind = .other ∧
    e.message = "Could not resolve name conflict after 9999 attempts: " ++ p.toString

/-- `generate_conflict_free_path` where the paths of `names` exist. -/
def conflictFreePath (names : Finset DestPath) (p : DestPath) : Except PyError DestPath :=
  generateConflictFreePath (fun q => decide (q ∈ names)) p

/-- Destinations are resolved one after another, and each result is created before the next. -/
def resolveAll (names : Finset DestPath) (ps : List DestPath) : List (Except PyError DestPath) :=
  allocate conflictFreePath names ps

variable {names : Finset DestPath} {p q : DestPath} {ps : List DestPath}

/-- The path returned is the first candidate that is not taken. -/
lemma conflictFreePath_eq_ok_iff : conflictFreePath names p = .ok q ↔
    ∃ k ≤ 9999, q = p.candidate k ∧ q ∉ names ∧ ∀ i < k, p.candidate i ∈ names := by
  rw [conflictFreePath, generateConflictFreePath_eq_ok_iff, FirstFreeName]
  simp

/-- Where the path itself is taken, the candidates are its siblings. -/
lemma least_iff (hp : p ∈ names) :
    (∃ k ≤ 9999, q = p.candidate k ∧ q ∉ names ∧ ∀ i < k, p.candidate i ∈ names) ↔
      ∃ k, 1 ≤ k ∧ k ≤ 9999 ∧ IsSibling p k q ∧ q ∉ names ∧
        ∀ i, 1 ≤ i → i < k → ∀ q', IsSibling p i q' → q' ∈ names := by
  simp only [isSibling_iff]
  constructor
  · rintro ⟨k, hk, rfl, hfree, hbefore⟩
    cases k with
    | zero => exact absurd hp hfree
    | succ k =>
      refine ⟨k + 1, Nat.succ_pos k, hk, rfl, hfree, ?_⟩
      rintro i hi hlt q' rfl
      obtain ⟨j, rfl⟩ := Nat.exists_eq_add_of_le' hi
      exact hbefore (j + 1) hlt
  · rintro ⟨k, hpos, hk, rfl, hfree, hbefore⟩
    obtain ⟨j, rfl⟩ := Nat.exists_eq_add_of_le' hpos
    refine ⟨j + 1, hk, rfl, hfree, fun i hi => ?_⟩
    cases i with
    | zero => exact hp
    | succ i => exact hbefore (i + 1) (Nat.succ_pos i) hi _ rfl

/-- Of the candidates that are free, one is the first. -/
lemma exists_ok_iff :
    (∃ q, conflictFreePath names p = .ok q) ↔ ∃ k ≤ 9999, p.candidate k ∉ names := by
  classical
  simp only [conflictFreePath_eq_ok_iff]
  constructor
  · rintro ⟨q, k, hk, rfl, hfree, -⟩
    exact ⟨k, hk, hfree⟩
  · rintro ⟨k, hk, hfree⟩
    have hex : ∃ k, p.candidate k ∉ names := ⟨k, hfree⟩
    exact ⟨_, Nat.find hex, (Nat.find_min' hex hfree).trans hk, rfl, Nat.find_spec hex,
      fun i hi => not_not.mp (Nat.find_min hex hi)⟩

/-- An exception is raised exactly when all names up to the limit are taken. -/
lemma exists_error_iff : (∃ e, conflictFreePath names p = .error e) ↔
    p ∈ names ∧ ∀ k, 1 ≤ k → k ≤ 9999 → ∀ q, IsSibling p k q → q ∈ names := by
  have hnot : (∃ e, conflictFreePath names p = .error e) ↔
      ¬ ∃ q, conflictFreePath names p = .ok q := by
    cases conflictFreePath names p <;> simp
  rw [hnot, exists_ok_iff]
  simp only [isSibling_iff, forall_eq, not_exists, not_and, not_not]
  constructor
  · intro hall
    refine ⟨hall 0 (Nat.zero_le _), fun k hpos hk => ?_⟩
    obtain ⟨j, rfl⟩ := Nat.exists_eq_add_of_le' hpos
    exact hall (j + 1) hk
  · rintro ⟨hp, hall⟩ k hk
    cases k with
    | zero => exact hp
    | succ k => exact hall (k + 1) (Nat.succ_pos k) hk

/-- **One result.** -/
lemma conflictFree_conflictFreePath (names : Finset DestPath) (p : DestPath) :
    ConflictFree names p (conflictFreePath names p) where
  free := by
    intro hp
    exact conflictFreePath_eq_ok_iff.mpr
      ⟨0, Nat.zero_le _, rfl, hp, fun i hi => absurd hi (Nat.not_lt_zero i)⟩
  least := fun hp q => conflictFreePath_eq_ok_iff.trans (least_iff hp)
  exhausted := exists_error_iff
  runtimeError := by
    intro e he
    unfold conflictFreePath generateConflictFreePath at he
    split_ifs at he
    split at he
    · cases he
    · cases he
      exact ⟨rfl, rfl⟩

/-- The path returned is not taken. -/
lemma not_mem_of_conflictFreePath (names : Finset DestPath) (p q : DestPath)
    (h : conflictFreePath names p = .ok q) : q ∉ names := by
  obtain ⟨k, -, -, hfree, -⟩ := conflictFreePath_eq_ok_iff.mp h
  exact hfree

/-- **Paths that do not conflict**: one result is what the paths that exist call for, and the
results for a list of destinations are pairwise distinct and did not exist before.

**Proof sketch.** The candidates behind the path itself are its siblings (`least_iff`), and the
first free one is found if there is any (`exists_ok_iff`). No result exists when it is chosen, so
that names are handed out only once (`granted_allocate_nodup`). -/
theorem conflictFreePath_spec :
    (∀ names p, ConflictFree names p (conflictFreePath names p)) ∧
      ∀ names ps, (granted (resolveAll names ps)).Nodup ∧
        ∀ q ∈ granted (resolveAll names ps), q ∉ names :=
  ⟨conflictFree_conflictFreePath, fun _ _ =>
    ⟨granted_allocate_nodup not_mem_of_conflictFreePath,
      fun _ hq => granted_allocate_fresh not_mem_of_conflictFreePath hq⟩⟩

example : conflictFreePath {⟨["dst"], "a.tar.gz"⟩, ⟨["dst"], "a_1.tar.gz"⟩} ⟨["dst"], "a.tar.gz"⟩ =
    .ok ⟨["dst"], "a_2.tar.gz"⟩ := by decide +kernel

end FileAgent

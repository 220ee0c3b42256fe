import Mathlib

set_option relaxedAutoImplicit false
set_option autoImplicit false

/-!
# The best value for each key

A loop that fills a dictionary and keeps, for each key, the value of least rank (the earlier one
when two have the same rank) computes the first least value of each key. The dictionary is the list
of its values, in insertion order; `List.argmin` is the first least value of a list.

## Main definitions

* `BestPerKey.insertBest` — one round of the loop.
* `BestPerKey.fill` — the dictionary after the loop.

## Main results

* `BestPerKey.find?_fill` — the value under a key is the first least one of that key.
* `BestPerKey.map_fill` — the keys are the keys of the values looked at, once each.
* `BestPerKey.argmin_congr` — the first least value depends on the order of the ranks only.
-/

namespace BestPerKey

/-! ## First least values -/

section Argmin

variable {α β γ : Type*} [LinearOrder β] [LinearOrder γ] {l : List α}

/-- A scan that keeps the value of least rank ends at the first least value. -/
lemma foldl_eq_argmin (rank : α → β) (a : α) (l : List α) :
    some (l.foldl (fun m b => if rank b < rank m then b else m) a) = (a :: l).argmin rank := by
  induction l using List.reverseRecOn with
  | nil => rfl
  | append_singleton l b ih =>
    rw [← List.cons_append, List.argmin_concat, ← ih, List.foldl_append]
    simp only [List.foldl_cons, List.foldl_nil]
    split_ifs <;> rfl

/-- **The first least value depends on the order of the ranks only.** -/
lemma argmin_congr {f : α → β} {g : α → γ}
    (h : ∀ a ∈ l, ∀ b ∈ l, (f a < f b ↔ g a < g b)) : l.argmin f = l.argmin g := by
  induction l with
  | nil => rfl
  | cons a l ih =>
    have htail : l.argmin f = l.argmin g :=
      ih fun b hb c hc => h b (List.mem_cons_of_mem a hb) c (List.mem_cons_of_mem a hc)
    rw [List.argmin_cons, List.argmin_cons, htail]
    cases hg : l.argmin g with
    | none => rfl
    | some c =>
      have hc : c ∈ a :: l := List.mem_cons_of_mem a (List.argmin_mem hg)
      have hca : (f c < f a) = (g c < g a) := propext (h c hc a List.mem_cons_self)
      simp only [hca]

/-- The first least value is one of the list, and none there is less. -/
lemma least_of_argmin {rank : α → β} {a : α} (h : l.argmin rank = some a) :
    a ∈ l ∧ ∀ b ∈ l, rank a ≤ rank b :=
  ⟨List.argmin_mem h, fun _ hb => List.le_of_mem_argmin (f := rank) hb h⟩

/-- The first least value, compared with one value at a time. -/
lemma argmin_eq_some_iff_forall [DecidableEq α] {rank : α → β} {a : α} :
    l.argmin rank = some a ↔
      a ∈ l ∧ ∀ b ∈ l, rank a < rank b ∨ (rank a = rank b ∧ l.idxOf a ≤ l.idxOf b) := by
  rw [List.argmin_eq_some_iff]
  refine and_congr_right fun _ => ⟨?_, ?_⟩
  · rintro ⟨hle, hidx⟩ b hb
    rcases (hle b hb).lt_or_eq with hlt | heq
    · exact .inl hlt
    · exact .inr ⟨heq, hidx b hb heq.ge⟩
  · intro h
    refine ⟨fun b hb => ?_, fun b hb hba => ?_⟩
    · rcases h b hb with hlt | ⟨heq, -⟩
      · exact hlt.le
      · exact heq.le
    · rcases h b hb with hlt | ⟨-, hidx⟩
      · exact absurd hba hlt.not_ge
      · exact hidx

end Argmin

/-! ## The loop -/

section Fill

variable {α κ β : Type*} [DecidableEq κ] [LinearOrder β] (key : α → κ) (rank : α → β)

/-- One round of the loop: the value is entered under its key if the key is new, and replaces the
value there if it has a lower rank. -/
def insertBest (a : α) : List α → List α
  | [] => [a]
  | c :: rest =>
    if key c = key a then (if rank a < rank c then a else c) :: rest
    else c :: insertBest a rest

/-- The dictionary after the loop over `l`. -/
def fill (l : List α) : List α := l.foldl (fun cur a => insertBest key rank a cur) []

/-- The loop over one more value. -/
lemma fill_concat (l : List α) (a : α) :
    fill key rank (l ++ [a]) = insertBest key rank a (fill key rank l) := by
  simp [fill]

/-- A round leaves the other keys alone, and keeps the better value of its own key. -/
lemma find?_insertBest (a : α) (cur : List α) (k : κ) :
    (insertBest key rank a cur).find? (key · = k) =
      if key a = k then
        match cur.find? (key · = k) with
        | none => some a
        | some c => if rank a < rank c then some a else some c
      else cur.find? (key · = k) := by
  induction cur with
  | nil => by_cases hk : key a = k <;> simp [insertBest, hk]
  | cons c rest ih =>
    simp only [insertBest]
    by_cases hca : key c = key a
    · rw [if_pos hca]
      by_cases hk : key a = k
      · have hck : key c = k := hca.trans hk
        by_cases hr : rank a < rank c <;> simp [hr, hk, hck]
      · have hck : key c ≠ k := fun h => hk (hca.symm.trans h)
        by_cases hr : rank a < rank c <;> simp [hr, hk, hck]
    · rw [if_neg hca]
      by_cases hck : key c = k
      · have hk : key a ≠ k := fun h => hca (hck.trans h.symm)
        simp [hck, hk]
      · rw [List.find?_cons_of_neg (by simpa using hck), ih,
          List.find?_cons_of_neg (by simpa using hck)]

/-- **The value under a key is the first least one of that key.**

**Proof sketch.** Induction on the values from the last one: a round for another key changes neither
side, and a round for this key is one step of `argmin`. -/
theorem find?_fill (l : List α) (k : κ) :
    (fill key rank l).find? (key · = k) = (l.filter (key · = k)).argmin rank := by
  induction l using List.reverseRecOn with
  | nil => rfl
  | append_singleton l a ih =>
    rw [fill_concat, find?_insertBest, ih, List.filter_append]
    by_cases hk : key a = k
    · have hone : [a].filter (key · = k) = [a] := by simp [hk]
      rw [if_pos hk, hone, List.argmin_concat]
      cases (l.filter (key · = k)).argmin rank <;> rfl
    · have hnone : [a].filter (key · = k) = [] := by simp [hk]
      rw [if_neg hk, hnone, List.append_nil]

/-- The keys after a round. -/
lemma map_insertBest (a : α) (cur : List α) :
    (insertBest key rank a cur).map key =
      if key a ∈ cur.map key then cur.map key else cur.map key ++ [key a] := by
  induction cur with
  | nil => simp [insertBest]
  | cons c rest ih =>
    simp only [insertBest]
    by_cases hca : key c = key a
    · rw [if_pos hca, List.map_cons, List.map_cons, hca]
      by_cases hr : rank a < rank c <;> simp [hr, hca]
    · rw [if_neg hca, List.map_cons, List.map_cons, ih]
      simp only [List.mem_cons, Ne.symm hca, false_or]
      split_ifs <;> rfl

/-- **The keys are the keys of the values looked at, once each.**

**Proof sketch.** By induction on the list from its end. A value whose key is there replaces at
most the value of that key, and one with a new key is appended. -/
theorem map_fill (l : List α) :
    ((fill key rank l).map key).Nodup ∧
      ∀ k, k ∈ (fill key rank l).map key ↔ k ∈ l.map key := by
  induction l using List.reverseRecOn with
  | nil => simp [fill]
  | append_singleton l a ih =>
    obtain ⟨hnd, hmem⟩ := ih
    rw [fill_concat, map_insertBest]
    by_cases ha : key a ∈ (fill key rank l).map key
    · rw [if_pos ha]
      have hal : key a ∈ l.map key := (hmem _).mp ha
      refine ⟨hnd, fun k => ?_⟩
      rw [hmem k, List.map_append, List.mem_append, List.map_singleton, List.mem_singleton]
      constructor
      · exact .inl
      · rintro (h | rfl)
        · exact h
        · exact hal
    · rw [if_neg ha]
      constructor
      · refine List.nodup_append.mpr ⟨hnd, List.nodup_singleton _, ?_⟩
        rintro x hx y hy rfl
        exact ha (List.mem_singleton.mp hy ▸ hx)
      · intro k
        rw [List.map_append, List.mem_append, List.mem_append, hmem k]
        rfl

/-- The keys of the dictionary are the distinct keys of the values looked at. -/
lemma map_fill_perm (l : List α) : ((fill key rank l).map key).Perm (l.map key).dedup := by
  obtain ⟨hnd, hmem⟩ := map_fill key rank l
  rw [List.perm_ext_iff_of_nodup hnd (List.nodup_dedup _)]
  intro k
  rw [hmem k, List.mem_dedup]

/-- Values with distinct keys are all kept, in their order. -/
lemma fill_of_nodup {l : List α} (h : (l.map key).Nodup) : fill key rank l = l := by
  have hnew : ∀ (a : α) (cur : List α), key a ∉ cur.map key →
      insertBest key rank a cur = cur ++ [a] := by
    intro a cur ha
    induction cur with
    | nil => rfl
    | cons c rest ih =>
      rw [List.map_cons, List.mem_cons, not_or] at ha
      rw [insertBest, if_neg (Ne.symm ha.1), ih ha.2, List.cons_append]
  induction l using List.reverseRecOn with
  | nil => rfl
  | append_singleton l a ih =>
    rw [List.map_append, List.nodup_append] at h
    obtain ⟨hl, -, hdisj⟩ := h
    rw [fill_concat, ih hl]
    exact hnew a l fun ha => hdisj _ ha _ (by simp) rfl

/-- In a dictionary with one value for each key, an entry is what is found under its key. -/
lemma find?_key_of_mem {cur : List α} (hnd : (cur.map key).Nodup) {a : α} (ha : a ∈ cur) :
    cur.find? (key · = key a) = some a := by
  induction cur with
  | nil => simp at ha
  | cons c rest ih =>
    rw [List.map_cons, List.nodup_cons] at hnd
    rcases List.mem_cons.mp ha with rfl | ha
    · simp
    · have hne : key c ≠ key a := fun h => hnd.1 (h ▸ List.mem_map_of_mem ha)
      rw [List.find?_cons_of_neg (by simpa using hne)]
      exact ih hnd.2 ha

/-- **The entries of the dictionary**: the first least value of each key. -/
theorem mem_fill {l : List α} {a : α} :
    a ∈ fill key rank l ↔ (l.filter (key · = key a)).argmin rank = some a := by
  rw [← find?_fill]
  constructor
  · exact find?_key_of_mem key (map_fill key rank l).1
  · exact List.mem_of_find?_eq_some

end Fill

end BestPerKey

import Mathlib

set_option relaxedAutoImplicit false
set_option autoImplicit false

/-!
# Lists of which one entry changes

The processes of a system are a list, and a step replaces one entry. What the entries give, filtered
by `filterMap`, and how many of them have a property, then changes by that entry at most.

## Main results

* `OneEntry.filterMap_set_sublist`, `OneEntry.filterMap_set_perm`,
  `OneEntry.ne_of_mem_filterMap_set` — what the entries give.
* `OneEntry.countP_set_le`, `OneEntry.countP_modify` — how many entries count.
* `OneEntry.countP_le_one` — at most one counts if all that count have the same position.
-/

namespace OneEntry

variable {α β γ : Type*} {p : α → Bool}

/-! ## What the entries give -/

/-- Replacing an element by one that is filtered out, or gives the same. -/
lemma filterMap_set_sublist (g : α → Option β) {a : α} :
    ∀ (l : List α) (i : ℕ), (g a = none ∨ ∀ b ∈ l[i]?, g a = g b) →
      ((l.set i a).filterMap g).Sublist (l.filterMap g)
  | [], _, _ => by simp
  | b :: l, 0, h => by
    simp only [List.set_cons_zero, List.filterMap_cons]
    rcases h with h | h
    · cases hb : g b with
      | none => simp [h]
      | some c => simp [h]
    · rw [h b (by simp)]
  | b :: l, i + 1, h => by
    have ih := filterMap_set_sublist g l i (by simpa using h)
    simp only [List.set_cons_succ, List.filterMap_cons]
    split
    · exact ih
    · exact ih.cons_cons _

/-- Replacing an element by one that gives the same. -/
lemma map_set_eq {f : α → β} {l : List α} {i : ℕ} {a b : α} (h : l[i]? = some a)
    (hf : f b = f a) : (l.set i b).map f = l.map f := by
  obtain ⟨hi, rfl⟩ := List.getElem?_eq_some_iff.mp h
  rw [List.map_set, hf, ← List.getElem_map f (h := by simpa using hi), List.set_getElem_self]

/-- The values of a list with its first element apart. -/
lemma filterMap_cons_eq (g : α → Option β) (a : α) (l : List α) :
    (a :: l).filterMap g = (g a).toList ++ l.filterMap g := by
  cases ha : g a <;> simp [ha]

/-- Replacing an element takes away what it gave, and adds what the new one gives. -/
lemma filterMap_set_perm (g : α → Option β) {a : α} (b : α) :
    ∀ (l : List α) (i : ℕ), l[i]? = some a →
      ((g a).toList ++ (l.set i b).filterMap g).Perm ((g b).toList ++ l.filterMap g)
  | [], _, h => by simp at h
  | x :: l, 0, h => by
    obtain rfl : x = a := by simpa using h
    rw [List.set_cons_zero, filterMap_cons_eq, filterMap_cons_eq]
    exact List.perm_append_comm_assoc _ _ _
  | x :: l, i + 1, h => by
    have ih := filterMap_set_perm g b l i (by simpa using h)
    rw [List.set_cons_succ, filterMap_cons_eq, filterMap_cons_eq]
    -- the entry before stays in its place
    have hswap : ((g a).toList ++ ((g x).toList ++ (l.set i b).filterMap g)).Perm
        ((g x).toList ++ ((g a).toList ++ (l.set i b).filterMap g)) :=
      List.perm_append_comm_assoc _ _ _
    refine hswap.trans ((ih.append_left _).trans ?_)
    exact List.perm_append_comm_assoc _ _ _

/-- Replacing an element by one that is filtered out removes what it gave.

**Proof sketch.** By recursion on the list and the position. At the position the value is dropped,
and its key occurs nowhere else; before it, the values stay, and none of them has the key, since
the value at the position does. -/
lemma ne_of_mem_filterMap_set (g : α → Option β) (key : β → γ) {a a' : α} {b : β}
    (ha : g a = some b) (ha' : g a' = none) :
    ∀ (l : List α) (i : ℕ), l[i]? = some a → ((l.filterMap g).map key).Nodup →
      ∀ c ∈ (l.set i a').filterMap g, c ∈ l.filterMap g ∧ key c ≠ key b
  | [], _, h, _ => by simp at h
  | x :: l, 0, h, hnodup => by
    simp only [List.getElem?_cons_zero, Option.some.injEq] at h
    subst h
    intro c hc
    simp only [List.set_cons_zero, List.filterMap_cons, ha'] at hc
    simp only [List.filterMap_cons, ha, List.map_cons, List.nodup_cons] at hnodup ⊢
    refine ⟨List.mem_cons_of_mem _ hc, fun hkey => hnodup.1 ?_⟩
    rw [← hkey]
    exact List.mem_map_of_mem hc
  | x :: l, i + 1, h, hnodup => by
    have hi : l[i]? = some a := by simpa using h
    intro c hc
    have hbmem : b ∈ l.filterMap g := List.mem_filterMap.mpr ⟨a, List.mem_of_getElem? hi, ha⟩
    simp only [List.set_cons_succ, List.filterMap_cons] at hc hnodup ⊢
    cases hx : g x with
    | none =>
      rw [hx] at hc hnodup
      exact ne_of_mem_filterMap_set g key ha ha' l i hi hnodup c hc
    | some y =>
      rw [hx] at hc hnodup
      simp only [List.map_cons, List.nodup_cons, List.mem_cons] at hc hnodup ⊢
      rcases hc with rfl | hc
      · exact ⟨.inl rfl, fun hkey => hnodup.1 (hkey ▸ List.mem_map_of_mem hbmem)⟩
      · obtain ⟨hmem, hne⟩ := ne_of_mem_filterMap_set g key ha ha' l i hi hnodup.2 c hc
        exact ⟨.inr hmem, hne⟩

/-! ## How many entries count -/

/-- An entry that counts is replaced. -/
lemma countP_set_le {l : List α} {i : ℕ} {b : α} (h : l[i]? = some b)
    (hb : p b = true) (c : α) : (l.set i c).countP p ≤ l.countP p := by
  obtain ⟨hi, rfl⟩ := List.getElem?_eq_some_iff.mp h
  have hpos : 0 < l.countP p := List.countP_pos_iff.mpr ⟨l[i], List.getElem_mem hi, hb⟩
  rw [List.countP_set hi, if_pos hb]
  split_ifs <;> omega

/-- An entry is changed in a way that does not count. -/
lemma countP_modify {f : α → α} (hf : ∀ b, p (f b) = p b) (l : List α)
    (i : ℕ) : (l.modify i f).countP p = l.countP p := by
  induction l generalizing i with
  | nil => simp
  | cons b l ih =>
    cases i with
    | zero => simp [List.countP_cons, hf]
    | succ i => simp [List.countP_cons, ih i]

/-- At most one entry counts if all that count have the same position. -/
lemma countP_le_one {l : List α} {j : ℕ}
    (h : ∀ i b, l[i]? = some b → p b = true → i = j) : l.countP p ≤ 1 := by
  induction l generalizing j with
  | nil => exact Nat.zero_le 1
  | cons b l ih =>
    rw [List.countP_cons]
    by_cases hb : p b = true
    · have hzero : l.countP p = 0 := by
        rw [List.countP_eq_zero]
        intro c hc hcp
        obtain ⟨i, hi⟩ := List.mem_iff_getElem?.mp hc
        have hfirst := h 0 b rfl hb
        have hlater := h (i + 1) c hi hcp
        omega
      rw [hzero, if_pos hb]
    · rw [if_neg hb]
      apply ih (j := j - 1)
      intro i c hc hcp
      have hlater := h (i + 1) c hc hcp
      omega

end OneEntry

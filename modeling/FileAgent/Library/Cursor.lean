import Mathlib

set_option relaxedAutoImplicit false
set_option autoImplicit false

/-!
# A cursor into a list that changes

A loop over a list that others change keeps the number `n` of its next position. The entries before
that position, `l.take n`, are behind the cursor, and the others, `l.drop n`, are ahead of it. An
entry that is removed behind the cursor moves the next one from ahead of it to behind it.

## Main results

* `take_erase_of_mem`, `drop_erase_of_mem` — an entry behind the cursor is removed.
* `take_erase_of_not_mem`, `drop_erase_of_not_mem` — any other entry is removed.
* `drop_eq_cons_of_getElem?` — the entry at the cursor is the first one ahead.
-/

namespace Cursor

variable {α : Type*} {l : List α} {a b : α} {n : ℕ}

/-- The entry at the cursor is the first one ahead. -/
lemma drop_eq_cons_of_getElem? (h : l[n]? = some a) : l.drop n = a :: l.drop (n + 1) := by
  obtain ⟨hn, rfl⟩ := List.getElem?_eq_some_iff.mp h
  exact List.drop_eq_getElem_cons hn

/-- The cursor goes on: the entry it was at is now behind it. -/
lemma take_succ_of_getElem? (h : l[n]? = some a) : l.take (n + 1) = l.take n ++ [a] := by
  rw [List.take_add_one, h, Option.toList_some]

/-- Past the end of the list, everything is behind the cursor. -/
lemma take_eq_self_of_getElem? (h : l[n]? = none) : l.take n = l :=
  List.take_of_length_le (List.getElem?_eq_none_iff.mp h)

/-- In a list without duplicates, the entry at the cursor is not further ahead. -/
lemma not_mem_drop_succ (hl : l.Nodup) (h : l[n]? = some a) : a ∉ l.drop (n + 1) := by
  have hdrop : (l.drop n).Nodup := hl.sublist (List.drop_sublist n l)
  rw [drop_eq_cons_of_getElem? h] at hdrop
  exact (List.nodup_cons.mp hdrop).1

/-- What is behind the cursor is not ahead of it. -/
lemma not_mem_drop_of_mem_take (hl : l.Nodup) (ha : a ∈ l.take n) : a ∉ l.drop n := by
  rw [← List.take_append_drop n l] at hl
  exact fun hb => (List.nodup_append.mp hl).2.2 a ha a hb rfl

variable [DecidableEq α]

/-- **An entry behind the cursor is removed**: the others stay behind, and the one at the cursor
comes behind it too. -/
lemma take_erase_of_mem (ha : a ∈ l.take n) :
    (l.erase a).take n = (l.take n).erase a ++ l[n]?.toList := by
  have hpos : 0 < (l.take n).length := List.length_pos_of_mem ha
  have hlen : ((l.take n).erase a).length = (l.take n).length - 1 := List.length_erase_of_mem ha
  have herase : l.erase a = (l.take n).erase a ++ l.drop n := by
    rw [← List.erase_append_left _ ha, List.take_append_drop]
  rw [herase]
  cases hn : l[n]? with
  | none =>
    have hlast : l.length ≤ n := List.getElem?_eq_none_iff.mp hn
    have hdrop : l.drop n = [] := List.drop_eq_nil_of_le hlast
    rw [hdrop, Option.toList_none]
    apply List.take_of_length_le
    rw [List.length_append, hlen, List.length_take, List.length_nil]
    omega
  | some b =>
    have hlt : n < l.length := (List.getElem?_eq_some_iff.mp hn).1
    have hfull : ((l.take n).erase a).length = n - 1 := by
      rw [hlen, List.length_take]
      omega
    rw [List.length_take] at hpos
    rw [drop_eq_cons_of_getElem? hn, List.take_append, hfull, List.take_of_length_le (by omega),
      show n - (n - 1) = 1 by omega]
    rfl

@[inherit_doc take_erase_of_mem]
lemma drop_erase_of_mem (ha : a ∈ l.take n) : (l.erase a).drop n = l.drop (n + 1) := by
  have hpos : 0 < (l.take n).length := List.length_pos_of_mem ha
  have hlen : ((l.take n).erase a).length = (l.take n).length - 1 := List.length_erase_of_mem ha
  have herase : l.erase a = (l.take n).erase a ++ l.drop n := by
    rw [← List.erase_append_left _ ha, List.take_append_drop]
  rw [List.length_take] at hpos hlen
  rw [herase, List.drop_append, List.drop_of_length_le (by omega), List.nil_append, List.drop_drop]
  by_cases hn : n ≤ l.length
  · congr 1
    omega
  · rw [List.drop_of_length_le (by omega), List.drop_of_length_le (by omega)]

/-- **An entry that is not behind the cursor is removed**: nothing passes the cursor. -/
lemma take_erase_of_not_mem (ha : a ∉ l.take n) : (l.erase a).take n = l.take n := by
  have herase : l.erase a = l.take n ++ (l.drop n).erase a := by
    rw [← List.erase_append_right _ ha, List.take_append_drop]
  rw [herase]
  by_cases hn : n ≤ l.length
  · have hlen : (l.take n).length = n := List.length_take_of_le hn
    rw [List.take_append, hlen, Nat.sub_self, List.take_zero, List.append_nil,
      List.take_of_length_le hlen.le]
  · have hdrop : l.drop n = [] := List.drop_of_length_le (by omega)
    rw [hdrop, List.erase_nil, List.append_nil, List.take_take, Nat.min_self]

@[inherit_doc take_erase_of_not_mem]
lemma drop_erase_of_not_mem (ha : a ∉ l.take n) : (l.erase a).drop n = (l.drop n).erase a := by
  have herase : l.erase a = l.take n ++ (l.drop n).erase a := by
    rw [← List.erase_append_right _ ha, List.take_append_drop]
  rw [herase]
  by_cases hn : n ≤ l.length
  · have hlen : (l.take n).length = n := List.length_take_of_le hn
    rw [List.drop_append, hlen, Nat.sub_self, List.drop_zero, List.drop_of_length_le hlen.le,
      List.nil_append]
  · have hdrop : l.drop n = [] := List.drop_of_length_le (by omega)
    rw [hdrop, List.erase_nil, List.append_nil]
    apply List.drop_of_length_le
    rw [List.length_take]
    omega

end Cursor

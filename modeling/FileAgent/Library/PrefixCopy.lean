import Mathlib

set_option relaxedAutoImplicit false
set_option autoImplicit false

/-!
# Copying a list that grows

A copy of a list is made from its front, one chunk after another, while elements are appended to the
list. `n` elements have been copied if the copy is `source.take n`.

## Main results

* `PrefixCopy.append_source` — what has been copied stays copied when the list grows.
* `PrefixCopy.append_chunk` — a chunk read at the end of the copied part extends the copy.
* `PrefixCopy.isPrefix` — what has been copied is a first part of the list.
-/

namespace PrefixCopy

variable {α : Type*} {source copy chunk : List α} {n size : ℕ}

/-- What has been copied stays copied when the list grows. -/
lemma append_source (h : n ≤ source.length ∧ copy = source.take n) (new : List α) :
    n ≤ (source ++ new).length ∧ copy = (source ++ new).take n := by
  rw [List.take_append_of_le_length h.1, List.length_append]
  exact ⟨Nat.le_add_right_of_le h.1, h.2⟩

/-- **A chunk read at the end of the copied part is the part that comes next.** -/
lemma append_chunk (h : n ≤ source.length ∧ copy = source.take n)
    (hchunk : chunk <+: (source.drop n).take size) :
    n + chunk.length ≤ source.length ∧ copy ++ chunk = source.take (n + chunk.length) := by
  have hpre : chunk <+: source.drop n := hchunk.trans (List.take_prefix _ _)
  have hlen := hpre.length_le
  rw [List.length_drop] at hlen
  refine ⟨by omega, ?_⟩
  rw [h.2, List.take_add, ← List.prefix_iff_eq_take.mp hpre]

/-- What has been copied is a first part of the list. -/
lemma isPrefix (h : n ≤ source.length ∧ copy = source.take n) : copy <+: source :=
  h.2 ▸ List.take_prefix _ _

end PrefixCopy

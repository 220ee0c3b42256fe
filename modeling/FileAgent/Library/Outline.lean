import FileAgent.Library.ParentForest

set_option relaxedAutoImplicit false
set_option autoImplicit false

/-!
# Outlines of forests

The rows by which a forest is shown on a screen: its nodes with their depths, each above its
children. Nodes may be hidden, with all that is below them, and what is below a node is only shown
if the node is open.

## Main definitions

* `outlineOf` — the rows.

## Main results

* `forest_induction` — induction on a list of trees.
* `parent_row` — the last row above a row that is less deep is its parent.
* `child_row` — what is directly below an open node that is shown has its row.
* `map_fst_outlineOf` — the rows if every node with children is shown and open.
-/

namespace ParentForest

variable {ι : Type*}

namespace RoseTree

/-- Induction on a list of trees: the children of the first one, and the other trees. -/
@[elab_as_elim]
theorem forest_induction {P : List (RoseTree ι) → Prop} (ts : List (RoseTree ι)) (nil : P [])
    (cons : ∀ i cs ts, P cs → P ts → P (node i cs :: ts)) : P ts :=
  @RoseTree.rec_1 ι (fun t => ∀ ts, P ts → P (t :: ts)) P
    (fun i cs hcs ts hts => cons i cs ts hcs hts) nil (fun _ ts ht hts => ht ts hts) ts

section Rows

variable (shown isOpen : ι → Bool)

mutual

/-- The rows of a tree. -/
def outline : ℕ → RoseTree ι → List (ι × ℕ)
  | d, node i cs => if shown i then (i, d) :: if isOpen i then outlineOf (d + 1) cs else [] else []

/-- The rows of trees whose roots have the depth `d`. -/
def outlineOf : ℕ → List (RoseTree ι) → List (ι × ℕ)
  | _, [] => []
  | d, t :: ts => outline d t ++ outlineOf d ts

end

end Rows

variable {shown isOpen : ι → Bool} {i p x : ι} {d e k : ℕ} {r : ι × ℕ} {cs ts : List (RoseTree ι)}
  {above below : List (ι × ℕ)}

/-- The items of a list of trees with the first tree apart. -/
lemma nodesOf_cons : nodesOf (node i cs :: ts) = i :: nodesOf cs ++ nodesOf ts := rfl

/-- The edges of a list of trees with the first tree apart. -/
lemma edgesOf_cons : edgesOf (node i cs :: ts) =
    (cs.map (fun c => (i, c.item)) ++ edgesOf cs) ++ edgesOf ts := rfl

/-- A parent is a node. -/
lemma mem_nodesOf_of_mem_edgesOf {e : ι × ι} (h : e ∈ edgesOf ts) : e.1 ∈ nodesOf ts := by
  induction ts using forest_induction with
  | nil => cases h
  | cons i cs ts ihcs ihts =>
    rw [edgesOf_cons, List.mem_append, List.mem_append] at h
    rw [nodesOf_cons, List.cons_append, List.mem_cons, List.mem_append]
    rcases h with (h | h) | h
    · obtain ⟨c, -, rfl⟩ := List.mem_map.mp h
      exact Or.inl rfl
    · exact Or.inr (Or.inl (ihcs h))
    · exact Or.inr (Or.inr (ihts h))

/-- A node is a root, or the child of some node. -/
lemma mem_nodesOf_cases (h : x ∈ nodesOf ts) :
    (∃ t ∈ ts, t.item = x) ∨ ∃ p, (p, x) ∈ edgesOf ts := by
  induction ts using forest_induction with
  | nil => cases h
  | cons i cs ts ihcs ihts =>
    rw [nodesOf_cons, List.cons_append, List.mem_cons, List.mem_append] at h
    rw [edgesOf_cons]
    rcases h with rfl | h | h
    · exact Or.inl ⟨_, List.mem_cons_self, rfl⟩
    · right
      rcases ihcs h with ⟨c, hc, rfl⟩ | ⟨p, hp⟩
      · exact ⟨i, List.mem_append_left _ (List.mem_append_left _ (List.mem_map.mpr ⟨c, hc, rfl⟩))⟩
      · exact ⟨p, List.mem_append_left _ (List.mem_append_right _ hp)⟩
    · rcases ihts h with ⟨t, ht, rfl⟩ | ⟨p, hp⟩
      · exact Or.inl ⟨t, List.mem_cons_of_mem _ ht, rfl⟩
      · exact Or.inr ⟨p, List.mem_append_right _ hp⟩

/-- The rows of a list of trees: the first one, what is below it, and those of the others. -/
lemma mem_outlineOf_cons : r ∈ outlineOf shown isOpen d (node i cs :: ts) ↔
    (shown i = true ∧ (r = (i, d) ∨ isOpen i = true ∧ r ∈ outlineOf shown isOpen (d + 1) cs)) ∨
      r ∈ outlineOf shown isOpen d ts := by
  rw [outlineOf, outline, List.mem_append]
  by_cases hshown : shown i = true
  · by_cases hopen : isOpen i = true <;> simp [hshown, hopen]
  · simp [hshown]

/-- The rows of an outline are no less deep than it begins. -/
lemma le_depth (h : r ∈ outlineOf shown isOpen d ts) : d ≤ r.2 := by
  induction ts using forest_induction generalizing d with
  | nil => cases h
  | cons i cs ts ihcs ihts =>
    rcases mem_outlineOf_cons.mp h with ⟨-, rfl | ⟨-, h⟩⟩ | h
    · exact le_rfl
    · exact (Nat.le_succ d).trans (ihcs h)
    · exact ihts h

/-- The rows of an outline are items of the trees. -/
lemma mem_nodesOf (h : r ∈ outlineOf shown isOpen d ts) : r.1 ∈ nodesOf ts := by
  induction ts using forest_induction generalizing d with
  | nil => cases h
  | cons i cs ts ihcs ihts =>
    rw [nodesOf_cons, List.cons_append, List.mem_cons, List.mem_append]
    rcases mem_outlineOf_cons.mp h with ⟨-, rfl | ⟨-, h⟩⟩ | h
    · exact Or.inl rfl
    · exact Or.inr (Or.inl (ihcs h))
    · exact Or.inr (Or.inr (ihts h))

/-- The rows of an outline are shown. -/
lemma shown_of_mem (h : r ∈ outlineOf shown isOpen d ts) : shown r.1 = true := by
  induction ts using forest_induction generalizing d with
  | nil => cases h
  | cons i cs ts ihcs ihts =>
    rcases mem_outlineOf_cons.mp h with ⟨hshown, rfl | ⟨-, h⟩⟩ | h
    · exact hshown
    · exact ihcs h
    · exact ihts h

/-- The rows keep the order of the nodes. -/
lemma sublist_nodesOf : ((outlineOf shown isOpen d ts).map Prod.fst).Sublist (nodesOf ts) := by
  induction ts using forest_induction generalizing d with
  | nil => exact List.Sublist.slnil
  | cons i cs ts ihcs ihts =>
    rw [outlineOf, outline, nodesOf_cons, List.map_append]
    refine List.Sublist.append ?_ ihts
    split_ifs
    · exact ihcs.cons_cons i
    · exact (List.nil_sublist _).cons_cons i
    · exact List.nil_sublist _

/-- The row of a root. -/
lemma root_row {t : RoseTree ι} (ht : t ∈ ts) (hshown : shown t.item = true) :
    (t.item, d) ∈ outlineOf shown isOpen d ts := by
  induction ts with
  | nil => cases ht
  | cons t' ts ih =>
    cases t' with
    | node i cs =>
      rcases List.mem_cons.mp ht with rfl | ht
      · exact mem_outlineOf_cons.mpr (Or.inl ⟨hshown, Or.inl rfl⟩)
      · exact mem_outlineOf_cons.mpr (Or.inr (ih ht))

/-- The part of the rows above and below one of them, in a list of trees: it is a row of the first
tree, or of the others. -/
lemma outlineOf_split {i' : ι × ℕ}
    (h : outlineOf shown isOpen d (node i cs :: ts) = above ++ i' :: below) :
    (∃ below', outline shown isOpen d (node i cs) = above ++ i' :: below') ∨
      ∃ above', above = outline shown isOpen d (node i cs) ++ above' ∧
        outlineOf shown isOpen d ts = above' ++ i' :: below := by
  rw [outlineOf] at h
  rcases List.append_eq_append_iff.mp h with ⟨above', rfl, htail⟩ | ⟨below', hhead, hrest⟩
  · exact Or.inr ⟨above', rfl, htail⟩
  · cases below' with
    | nil =>
      refine Or.inr ⟨[], ?_, hrest.symm⟩
      rw [List.append_nil, hhead, List.append_nil]
    | cons r below' =>
      obtain ⟨rfl, -⟩ := List.cons.inj hrest
      exact Or.inl ⟨below', hhead⟩

/-- **The parent of a row**: a row that is not the one of a root hangs, in the forest, below the
last row above it that is less deep, which is one less deep and is open.

**Proof sketch.** Induction on the forest. Between a node and the rows of its children there are
only rows of what is below it, which are deeper. -/
theorem parent_row (h : outlineOf shown isOpen d ts = above ++ (x, e) :: below) :
    (e = d ∧ ∃ t ∈ ts, t.item = x) ∨
      ∃ above' p k between, above = above' ++ (p, k) :: between ∧ e = k + 1 ∧
        (∀ r ∈ between, k < r.2) ∧ isOpen p = true ∧ (p, x) ∈ edgesOf ts := by
  induction ts using forest_induction generalizing d above below with
  | nil =>
    have hnil := congrArg List.length h
    simp [outlineOf] at hnil
  | cons i cs ts ihcs ihts =>
    rcases outlineOf_split h with ⟨below', hfirst⟩ | ⟨above', rfl, hothers⟩
    · -- The row is in the first tree: it is its root, or one of the rows below an open root.
      rw [outline] at hfirst
      split_ifs at hfirst with hshown hopen
      · cases above with
        | nil =>
          obtain ⟨hrow, -⟩ := List.cons.inj hfirst
          obtain ⟨rfl, rfl⟩ := Prod.mk.inj hrow
          exact Or.inl ⟨rfl, node i cs, List.mem_cons_self, rfl⟩
        | cons r above =>
          obtain ⟨rfl, hchildren⟩ := List.cons.inj hfirst
          right
          rcases ihcs hchildren with ⟨rfl, c, hc, rfl⟩ |
            ⟨above', p, k, between, rfl, hk, hbetween, hp, hedge⟩
          · refine ⟨[], i, d, above, rfl, rfl, fun r hr => ?_, hopen, ?_⟩
            · have hmem : r ∈ outlineOf shown isOpen (d + 1) cs := by
                rw [hchildren]
                exact List.mem_append_left _ hr
              exact le_depth hmem
            · rw [edgesOf_cons, List.mem_append, List.mem_append]
              exact Or.inl (Or.inl (List.mem_map.mpr ⟨c, hc, rfl⟩))
          · refine ⟨(i, d) :: above', p, k, between, rfl, hk, hbetween, hp, ?_⟩
            rw [edgesOf_cons, List.mem_append, List.mem_append]
            exact Or.inl (Or.inr hedge)
      · cases above with
        | nil =>
          obtain ⟨hrow, -⟩ := List.cons.inj hfirst
          obtain ⟨rfl, rfl⟩ := Prod.mk.inj hrow
          exact Or.inl ⟨rfl, node i cs, List.mem_cons_self, rfl⟩
        | cons r above =>
          obtain ⟨-, hchildren⟩ := List.cons.inj hfirst
          have hnil := congrArg List.length hchildren
          simp at hnil
      · have hnil := congrArg List.length hfirst
        simp at hnil
    · -- The row is in one of the other trees.
      rcases ihts hothers with ⟨rfl, t, ht, rfl⟩ |
        ⟨above'', p, k, between, rfl, hk, hbetween, hp, hedge⟩
      · exact Or.inl ⟨rfl, t, List.mem_cons_of_mem _ ht, rfl⟩
      · refine Or.inr ⟨outline shown isOpen d (node i cs) ++ above'', p, k, between, ?_, hk,
          hbetween, hp, ?_⟩
        · rw [List.append_assoc]
        · rw [edgesOf_cons, List.mem_append]
          exact Or.inr hedge

/-- **The rows of children**: if no node occurs twice, the children of an open node that has a row
have theirs, unless they are hidden.

**Proof sketch.** By induction on the forest. The parent's row is that of the first root, lies
below it, or lies in the rest; and the edge begins at that root, below it or in the rest. As no
node occurs twice, both are in the same part: at the root the child is a root of the trees below
it, by `root_row`, and in the other parts it is the induction hypothesis. -/
theorem child_row (hnodup : (nodesOf ts).Nodup) (hp : (p, k) ∈ outlineOf shown isOpen d ts)
    (hopen : isOpen p = true) (hedge : (p, x) ∈ edgesOf ts) (hshown : shown x = true) :
    (x, k + 1) ∈ outlineOf shown isOpen d ts := by
  induction ts using forest_induction generalizing d with
  | nil => cases hp
  | cons i cs ts ihcs ihts =>
    rw [nodesOf_cons, List.nodup_append, List.nodup_cons] at hnodup
    obtain ⟨⟨hi, hcs⟩, hts, hdisj⟩ := hnodup
    have hother : ∀ {y}, y ∈ nodesOf ts → y ∉ i :: nodesOf cs := fun hy hy' => hdisj _ hy' _ hy rfl
    rw [edgesOf_cons, List.mem_append, List.mem_append] at hedge
    rcases mem_outlineOf_cons.mp hp with ⟨hroot, hp⟩ | hp
    · rcases hp with heq | ⟨hopen', hp⟩
      · obtain ⟨rfl, rfl⟩ := Prod.mk.inj heq
        rcases hedge with (hedge | hedge) | hedge
        · obtain ⟨c, hc, heq⟩ := List.mem_map.mp hedge
          obtain rfl := (Prod.mk.inj heq).2
          exact mem_outlineOf_cons.mpr (Or.inl ⟨hroot, Or.inr ⟨hopen, root_row hc hshown⟩⟩)
        · exact absurd (mem_nodesOf_of_mem_edgesOf hedge) hi
        · exact absurd List.mem_cons_self (hother (mem_nodesOf_of_mem_edgesOf hedge))
      · have hnode := mem_nodesOf hp
        rcases hedge with (hedge | hedge) | hedge
        · obtain ⟨c, -, heq⟩ := List.mem_map.mp hedge
          obtain rfl := (Prod.mk.inj heq).1
          exact absurd hnode hi
        · exact mem_outlineOf_cons.mpr (Or.inl ⟨hroot, Or.inr ⟨hopen', ihcs hcs hp hedge⟩⟩)
        · exact absurd (List.mem_cons_of_mem _ hnode) (hother (mem_nodesOf_of_mem_edgesOf hedge))
    · have hnode := mem_nodesOf hp
      rcases hedge with (hedge | hedge) | hedge
      · obtain ⟨c, -, heq⟩ := List.mem_map.mp hedge
        obtain rfl := (Prod.mk.inj heq).1
        exact absurd List.mem_cons_self (hother hnode)
      · exact absurd (List.mem_cons_of_mem _ (mem_nodesOf_of_mem_edgesOf hedge)) (hother hnode)
      · exact mem_outlineOf_cons.mpr (Or.inr (ihts hts hp hedge))

/-- **All rows**: if every node with children is shown and open, the rows are those of all nodes
that are shown. -/
theorem map_fst_outlineOf (h : ∀ e ∈ edgesOf ts, shown e.1 = true ∧ isOpen e.1 = true) :
    (outlineOf shown isOpen d ts).map Prod.fst = (nodesOf ts).filter shown := by
  induction ts using forest_induction generalizing d with
  | nil => rfl
  | cons i cs ts ihcs ihts =>
    rw [outlineOf, outline, nodesOf_cons, List.map_append, List.filter_append, List.filter_cons,
      ihts fun e he => h e (by rw [edgesOf_cons]; exact List.mem_append_right _ he)]
    have hbelow : ∀ e ∈ edgesOf cs, shown e.1 = true ∧ isOpen e.1 = true := by
      intro e he
      refine h e ?_
      rw [edgesOf_cons]
      exact List.mem_append_left _ (List.mem_append_right _ he)
    cases cs with
    | nil => split_ifs <;> rfl
    | cons c cs =>
      have hi : shown i = true ∧ isOpen i = true := by
        refine h (i, c.item) ?_
        rw [edgesOf_cons]
        exact List.mem_append_left _ (List.mem_append_left _ List.mem_cons_self)
      rw [if_pos hi.1, if_pos hi.2, if_pos hi.1, List.map_cons, ihcs hbelow]

end RoseTree

end ParentForest

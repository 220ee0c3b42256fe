import Mathlib

set_option relaxedAutoImplicit false
set_option autoImplicit false

/-!
# Forests from flat lists

The nodes of a forest are given by a flat list, in which each node names the key of its parent, or
none. The trees are grown from the nodes without a parent.

## Main definitions

* `RoseTree`, `RoseTree.nodes`, `RoseTree.edges` — trees, their nodes, and the pairs of a node and
  its child.
* `FlatForest`, `FlatForest.build` — the list, and the trees grown from it.
* `FlatForest.Ranked`, `FlatForest.WellPlaced` — children are one level below their parents; every
  parent named is there.

## Main results

* `FlatForest.build_eq` — growing the trees ends.
* `FlatForest.perm_nodes` — each node of the list occurs once.
* `FlatForest.mem_edges` — children hang under the parent they name.
-/

namespace ParentForest

variable {ι κ : Type*}

/-! ## Trees -/

/-- Trees in which every node has a list of children. -/
inductive RoseTree (ι : Type*)
  | node (item : ι) (children : List (RoseTree ι))

namespace RoseTree

/-- The item at the root. -/
def item : RoseTree ι → ι
  | node i _ => i

/-- The trees below the root. -/
def children : RoseTree ι → List (RoseTree ι)
  | node _ cs => cs

mutual

/-- The nodes of a tree. -/
def nodes : RoseTree ι → List ι
  | node i cs => i :: nodesOf cs

/-- The nodes of trees. -/
def nodesOf : List (RoseTree ι) → List ι
  | [] => []
  | t :: ts => t.nodes ++ nodesOf ts

end

mutual

/-- The pairs of a node and its child in a tree. -/
def edges : RoseTree ι → List (ι × ι)
  | node i cs => cs.map (fun c => (i, c.item)) ++ edgesOf cs

/-- The pairs of a node and its child in trees. -/
def edgesOf : List (RoseTree ι) → List (ι × ι)
  | [] => []
  | t :: ts => t.edges ++ edgesOf ts

end

variable {β : Type*}

/-- The items of a list of trees, one tree for each element of a list. -/
lemma nodesOf_map (f : β → RoseTree ι) (l : List β) :
    nodesOf (l.map f) = l.flatMap fun b => (f b).nodes := by
  induction l with
  | nil => rfl
  | cons b l ih => rw [List.map_cons, nodesOf, ih, List.flatMap_cons]

/-- The edges of a list of trees, one tree for each element of a list. -/
lemma edgesOf_map (f : β → RoseTree ι) (l : List β) :
    edgesOf (l.map f) = l.flatMap fun b => (f b).edges := by
  induction l with
  | nil => rfl
  | cons b l ih => rw [List.map_cons, edgesOf, ih, List.flatMap_cons]

end RoseTree

/-! ## Flat lists -/

/-- Nodes with their keys, the keys of their parents, and whether they may have children. -/
structure FlatForest (ι κ : Type*) where
  items : List ι
  key : ι → κ
  parent : ι → Option κ
  inner : ι → Bool

namespace FlatForest

variable [DecidableEq κ] (F : FlatForest ι κ)

/-- The nodes that name `i` as their parent, if it may have children. -/
def childrenOf (i : ι) : List ι :=
  if F.inner i then F.items.filter fun c => F.parent c = some (F.key i) else []

/-- The nodes that name no parent. -/
def tops : List ι := F.items.filter fun i => F.parent i = none

/-- The tree below a node. A path of more nodes than there are does not end. -/
def grow : ℕ → ι → Option (RoseTree ι)
  | 0, _ => none
  | n + 1, i => ((F.childrenOf i).mapM (grow n)).map (.node i)

/-- The trees of the list. -/
def build : Option (List (RoseTree ι)) := F.tops.mapM (F.grow F.items.length)

/-- The tree below a node, cut off after so many levels. -/
def treeOf : ℕ → ι → RoseTree ι
  | 0, i => .node i []
  | n + 1, i => .node i ((F.childrenOf i).map (treeOf n))

/-- Keys are not shared, and a child is one level below its parent. -/
structure Ranked (rank : ι → ℕ) : Prop where
  nodup : (F.items.map F.key).Nodup
  step : ∀ p ∈ F.items, ∀ c ∈ F.childrenOf p, rank c = rank p + 1

/-- Moreover the nodes without a parent are on level zero, and the parents named are there. -/
structure WellPlaced (rank : ι → ℕ) : Prop extends F.Ranked rank where
  top : ∀ c ∈ F.items, F.parent c = none → rank c = 0
  closed : ∀ c ∈ F.items, ∀ k, F.parent c = some k → ∃ p ∈ F.items, F.key p = k ∧ F.inner p = true

variable {F} {rank : ι → ℕ} {i j x c p : ι} {n : ℕ}

/-- The children of an inner item are the items that name it as their parent. -/
lemma mem_childrenOf :
    c ∈ F.childrenOf p ↔ F.inner p = true ∧ c ∈ F.items ∧ F.parent c = some (F.key p) := by
  unfold childrenOf
  split_ifs with h <;> simp [h]

omit [DecidableEq κ] in
/-- The tops are the items that name no parent. -/
lemma mem_tops : c ∈ F.tops ↔ c ∈ F.items ∧ F.parent c = none := by
  simp [tops]

/-- Children are items. -/
lemma mem_items_of_mem_childrenOf (h : c ∈ F.childrenOf p) : c ∈ F.items :=
  (mem_childrenOf.mp h).2.1

/-- The tree of an item has it at its root. -/
@[simp] lemma item_treeOf (n : ℕ) (i : ι) : (F.treeOf n i).item = i := by
  cases n <;> rfl

/-- The items of a tree: its root, then those of the trees of its children. -/
lemma nodes_treeOf_succ : (F.treeOf (n + 1) i).nodes =
    i :: (F.childrenOf i).flatMap fun c => (F.treeOf n c).nodes := by
  rw [treeOf, RoseTree.nodes, RoseTree.nodesOf_map]

/-- An item is in its tree. -/
lemma mem_nodes_treeOf_self : i ∈ (F.treeOf n i).nodes := by
  cases n with
  | zero => exact List.mem_cons_self
  | succ n => rw [nodes_treeOf_succ]; exact List.mem_cons_self

/-! ### Growing ends -/

/-- How many nodes are on deeper levels. -/
def deeper (F : FlatForest ι κ) (rank : ι → ℕ) (i : ι) : ℕ :=
  F.items.countP fun j => decide (rank i < rank j)

/-- Fewer nodes are deeper than a child. -/
lemma deeper_lt (h : F.Ranked rank) (hp : p ∈ F.items) (hc : c ∈ F.childrenOf p) :
    F.deeper rank c < F.deeper rank p := by
  have hrank := h.step p hp c hc
  obtain ⟨before, behind, hitems⟩ := List.append_of_mem (mem_items_of_mem_childrenOf hc)
  have hmono : ∀ l : List ι, l.countP (fun j => decide (rank c < rank j)) ≤
      l.countP fun j => decide (rank p < rank j) := by
    intro l
    refine List.countP_mono_left fun j _ hj => ?_
    rw [decide_eq_true_eq] at hj ⊢
    omega
  have hbefore := hmono before
  have hbehind := hmono behind
  have hself : ¬ decide (rank c < rank c) = true := by simp
  have hcounted : decide (rank p < rank c) = true := by simp [hrank]
  rw [deeper, deeper, hitems, List.countP_append, List.countP_append, List.countP_cons,
    List.countP_cons, if_neg hself, if_pos hcounted]
  omega

omit [DecidableEq κ] in
/-- Fewer items are deeper than an item than there are items. -/
lemma deeper_lt_length (hi : i ∈ F.items) : F.deeper rank i < F.items.length :=
  List.countP_lt_length_iff.mpr ⟨i, hi, by simp⟩

/-- A function that answers for every element of a list answers for the list. -/
lemma mapM_eq_map {β : Type*} {f : ι → Option β} {g : ι → β} {l : List ι}
    (h : ∀ i ∈ l, f i = some (g i)) : l.mapM f = some (l.map g) := by
  induction l with
  | nil => rfl
  | cons a l ih =>
    rw [List.mapM_cons, h a List.mem_cons_self, ih fun i hi => h i (List.mem_cons_of_mem _ hi)]
    rfl

/-- With enough levels, a tree is not cut off. -/
lemma grow_eq (h : F.Ranked rank) (hi : i ∈ F.items) (hn : F.deeper rank i < n) :
    F.grow n i = some (F.treeOf n i) := by
  induction n generalizing i with
  | zero => exact absurd hn (Nat.not_lt_zero _)
  | succ n ih =>
    have hchildren : (F.childrenOf i).mapM (F.grow n) = some ((F.childrenOf i).map (F.treeOf n)) :=
      mapM_eq_map fun c hc => ih (mem_items_of_mem_childrenOf hc)
        ((deeper_lt h hi hc).trans_le (Nat.lt_succ_iff.mp hn))
    rw [grow, hchildren]
    rfl

/-- **The trees are grown.** -/
theorem build_eq (h : F.Ranked rank) :
    F.build = some (F.tops.map (F.treeOf F.items.length)) :=
  mapM_eq_map fun _ hi => grow_eq h (mem_tops.mp hi).1 (deeper_lt_length (mem_tops.mp hi).1)

/-! ### The nodes of the trees -/

/-- The nodes below a node, with itself. -/
inductive Below (F : FlatForest ι κ) (i : ι) : ι → Prop
  | self : Below F i i
  | child {p c : ι} : Below F i p → c ∈ F.childrenOf p → Below F i c

/-- What lies below a child lies below its parent. -/
lemma Below.head (hc : c ∈ F.childrenOf i) (h : F.Below c x) : F.Below i x := by
  induction h with
  | self => exact .child .self hc
  | child _ hx ih => exact .child ih hx

/-- What lies below an item is an item. -/
lemma Below.mem_items (h : F.Below i x) (hi : i ∈ F.items) : x ∈ F.items := by
  cases h with
  | self => exact hi
  | child _ hx => exact mem_items_of_mem_childrenOf hx

/-- A node below another one is on a deeper level. -/
lemma Below.rank_lt (h : F.Ranked rank) (hi : i ∈ F.items) (hx : F.Below i x) :
    x = i ∨ rank i < rank x := by
  induction hx with
  | self => exact .inl rfl
  | @child p c hp hc ih =>
    have hrank := h.step p (hp.mem_items hi) c hc
    rcases ih with rfl | hlt
    · exact .inr (by omega)
    · exact .inr (by omega)

/-- **A node is below one node of each level.** -/
lemma Below.unique (h : F.Ranked rank) (hi : i ∈ F.items) (hj : j ∈ F.items)
    (hrank : rank i = rank j) (hx : F.Below i x) (hx' : F.Below j x) : i = j := by
  induction hx with
  | self =>
    rcases hx'.rank_lt h hj with rfl | hlt
    · rfl
    · omega
  | @child p c hp hc ih =>
    have hstep := h.step p (hp.mem_items hi) c hc
    cases hx' with
    | self =>
      rcases hp.rank_lt h hi with rfl | hlt <;> omega
    | @child p' _ hp' hc' =>
      have hkey : F.key p = F.key p' :=
        Option.some.inj ((mem_childrenOf.mp hc).2.2.symm.trans (mem_childrenOf.mp hc').2.2)
      have hsame : p = p' :=
        List.inj_on_of_nodup_map h.nodup (hp.mem_items hi) (hp'.mem_items hj) hkey
      exact ih (hsame ▸ hp')

/-- The items of a tree lie below its root. -/
lemma below_of_mem_nodes (hx : x ∈ (F.treeOf n i).nodes) : F.Below i x := by
  induction n generalizing i with
  | zero => rw [List.mem_singleton.mp hx]; exact .self
  | succ n ih =>
    rw [nodes_treeOf_succ, List.mem_cons, List.mem_flatMap] at hx
    rcases hx with rfl | ⟨c, hc, hx⟩
    · exact .self
    · exact (ih hx).head hc

/-- The trees of nodes on one level share no node. -/
lemma disjoint_nodes (h : F.Ranked rank) (hi : i ∈ F.items) (hj : j ∈ F.items)
    (hrank : rank i = rank j) (hne : i ≠ j) :
    (F.treeOf n i).nodes.Disjoint (F.treeOf n j).nodes :=
  fun _ hx hx' => hne (Below.unique h hi hj hrank (below_of_mem_nodes hx) (below_of_mem_nodes hx'))

/-- The trees of nodes on one level, together. -/
lemma nodup_flatMap_nodes (h : F.Ranked rank) {l : List ι} (hl : l.Nodup)
    (hitems : ∀ i ∈ l, i ∈ F.items) {r : ℕ} (hrank : ∀ i ∈ l, rank i = r)
    (hnodup : ∀ i ∈ l, (F.treeOf n i).nodes.Nodup) :
    (l.flatMap fun i => (F.treeOf n i).nodes).Nodup := by
  refine List.nodup_flatMap.mpr ⟨hnodup, hl.pairwise_of_forall_ne fun i hi j hj hne => ?_⟩
  exact disjoint_nodes h (hitems i hi) (hitems j hj) ((hrank i hi).trans (hrank j hj).symm) hne

/-- Items of distinct keys are distinct. -/
lemma nodup_items (h : F.Ranked rank) : F.items.Nodup := h.nodup.of_map

/-- No node occurs twice in a tree. -/
lemma nodup_nodes_treeOf (h : F.Ranked rank) (hi : i ∈ F.items) : (F.treeOf n i).nodes.Nodup := by
  induction n generalizing i with
  | zero => exact List.nodup_singleton i
  | succ n ih =>
    rw [nodes_treeOf_succ, List.nodup_cons]
    constructor
    · intro hmem
      obtain ⟨c, hc, hx⟩ := List.mem_flatMap.mp hmem
      have hrank := h.step i hi c hc
      rcases (below_of_mem_nodes hx).rank_lt h (mem_items_of_mem_childrenOf hc) with rfl | hlt <;>
        omega
    · refine nodup_flatMap_nodes h ?_ (fun c hc => mem_items_of_mem_childrenOf hc)
        (fun c hc => h.step i hi c hc) fun c hc => ih (mem_items_of_mem_childrenOf hc)
      unfold childrenOf
      split_ifs
      · exact (nodup_items h).filter _
      · exact List.nodup_nil

/-- With a node, a tree that is not cut off has its children. -/
lemma mem_nodes_of_child (h : F.Ranked rank) (hi : i ∈ F.items) (hn : F.deeper rank i < n)
    (hp : p ∈ (F.treeOf n i).nodes) (hc : c ∈ F.childrenOf p) : c ∈ (F.treeOf n i).nodes := by
  induction n generalizing i with
  | zero => exact absurd hn (Nat.not_lt_zero _)
  | succ n ih =>
    rw [nodes_treeOf_succ, List.mem_cons, List.mem_flatMap] at hp ⊢
    rcases hp with rfl | ⟨d, hd, hp⟩
    · exact .inr ⟨c, hc, mem_nodes_treeOf_self⟩
    · exact .inr ⟨d, hd, ih (mem_items_of_mem_childrenOf hd)
        ((deeper_lt h hi hd).trans_le (Nat.lt_succ_iff.mp hn)) hp⟩

/-- **Each node of the list occurs once in the trees.**

**Proof sketch.** No node occurs twice, since trees of one level share no node. By induction on the
level, every node occurs: a top in its own tree, and another one where its parent does. -/
theorem perm_nodes (h : F.WellPlaced rank) :
    (RoseTree.nodesOf (F.tops.map (F.treeOf F.items.length))).Perm F.items := by
  have hr := h.toRanked
  have hnodup : (RoseTree.nodesOf (F.tops.map (F.treeOf F.items.length))).Nodup := by
    rw [RoseTree.nodesOf_map]
    exact nodup_flatMap_nodes hr ((nodup_items hr).filter _) (fun i hi => (mem_tops.mp hi).1)
      (fun i hi => h.top i (mem_tops.mp hi).1 (mem_tops.mp hi).2)
      fun i hi => nodup_nodes_treeOf hr (mem_tops.mp hi).1
  refine (List.perm_ext_iff_of_nodup hnodup (nodup_items hr)).mpr fun x => ?_
  rw [RoseTree.nodesOf_map, List.mem_flatMap]
  constructor
  · rintro ⟨i, hi, hx⟩
    exact (below_of_mem_nodes hx).mem_items (mem_tops.mp hi).1
  · intro hx
    induction hrank : rank x using Nat.strong_induction_on generalizing x with
    | h r ih =>
      cases hparent : F.parent x with
      | none => exact ⟨x, mem_tops.mpr ⟨hx, hparent⟩, mem_nodes_treeOf_self⟩
      | some k =>
        obtain ⟨p, hp, rfl, hinner⟩ := h.closed x hx k hparent
        have hchild : x ∈ F.childrenOf p := mem_childrenOf.mpr ⟨hinner, hx, hparent⟩
        have hstep := hr.step p hp x hchild
        obtain ⟨i, hi, hmem⟩ := ih (rank p) (by omega) p hp rfl
        exact ⟨i, hi, mem_nodes_of_child hr (mem_tops.mp hi).1
          (deeper_lt_length (mem_tops.mp hi).1) hmem hchild⟩

/-- An edge of a tree leads from an item to one of its children. -/
lemma mem_edges_treeOf {e : ι × ι} (hi : i ∈ F.items) (he : e ∈ (F.treeOf n i).edges) :
    e.1 ∈ F.items ∧ e.2 ∈ F.childrenOf e.1 := by
  induction n generalizing i with
  | zero => cases he
  | succ n ih =>
    rw [treeOf, RoseTree.edges, List.mem_append, RoseTree.edgesOf_map] at he
    rcases he with he | he
    · obtain ⟨t, ht, rfl⟩ := List.mem_map.mp he
      obtain ⟨c, hc, rfl⟩ := List.mem_map.mp ht
      rw [item_treeOf]
      exact ⟨hi, hc⟩
    · obtain ⟨c, hc, he⟩ := List.mem_flatMap.mp he
      exact ih (mem_items_of_mem_childrenOf hc) he

/-- **Children hang under the parent they name.** -/
theorem mem_edges {e : ι × ι} (he : e ∈ RoseTree.edgesOf (F.tops.map (F.treeOf n))) :
    e.1 ∈ F.items ∧ e.2 ∈ F.childrenOf e.1 := by
  rw [RoseTree.edgesOf_map] at he
  obtain ⟨i, hi, he⟩ := List.mem_flatMap.mp he
  exact mem_edges_treeOf (mem_tops.mp hi).1 he

end FlatForest

end ParentForest

import FileAgent.Library.FallibleSort

set_option relaxedAutoImplicit false
set_option autoImplicit false

/-!
# The order of decoded JSON values

A decoder gives one kind of value for each kind of JSON text. Numbers are ordered, truth values
among them, strings by their characters and arrays by the first items that differ. Other values can
only be told equal inside an array, and to ask for their order raises an error.

## Main definitions

* `Value` — the values.
* `compareItems` — two items of arrays: whether they are equal, and their order if not.
* `lessThan` — whether one value is less than another.
* `cmp` — the order of two values that have one.

## Main results

* `compares` — `cmp` is a comparison, and `lessThan` agrees with it.
-/

namespace JsonOrder

/-- A decoded value. The number `none` is the constant that is no number, which some decoders take,
and decimals out of range become infinite. The fields of an object are in the order of their
keys. -/
inductive Value where
  | null
  | bool (b : Bool)
  | number (x : Option (WithBot (WithTop ℚ)))
  | string (s : List Char)
  | array (items : List Value)
  | object (fields : List (List Char × Value))

namespace Value

/-- Induction on a value, with the items of arrays and the values of fields as smaller ones. -/
@[elab_as_elim]
lemma induction {P : Value → Prop} (null : P .null) (bool : ∀ b, P (.bool b))
    (number : ∀ x, P (.number x)) (string : ∀ s, P (.string s))
    (array : ∀ items, (∀ a ∈ items, P a) → P (.array items))
    (object : ∀ fields, (∀ f ∈ fields, P f.2) → P (.object fields)) (v : Value) : P v :=
  @Value.rec P (fun items => ∀ a ∈ items, P a) (fun fields => ∀ f ∈ fields, P f.2)
    (fun f => P f.2) null bool number string array object
    (fun _ h => absurd h List.not_mem_nil) (fun _ _ ha has => List.forall_mem_cons.mpr ⟨ha, has⟩)
    (fun _ h => absurd h List.not_mem_nil) (fun _ _ hf hfs => List.forall_mem_cons.mpr ⟨hf, hfs⟩)
    (fun _ _ hv => hv) v

end Value

/-! ## Comparing -/

/-- How a comparison ends. The constant that is no number has no place among the numbers. -/
inductive Answer where
  | raises
  | unordered
  | ordered (o : Ordering)
  deriving DecidableEq

namespace Answer

/-- The answer with the two sides exchanged. -/
def swap : Answer → Answer
  | ordered o => ordered o.swap
  | r => r

/-- The second answer counts when the first one is that two items are equal. -/
def andThen : Answer → Answer → Answer
  | ordered .eq, r => r
  | r, _ => r

/-- What the test for less gives. -/
def less : Answer → Option Bool
  | raises => none
  | unordered => some false
  | ordered o => some (o == .lt)

/-- The order an answer gives, if it gives one. -/
def ordering : Answer → Option Ordering
  | ordered o => some o
  | _ => none

variable {r s : Answer} {o : Ordering}

/-- Two answers in a row order a pair where the first does, or where the first finds them equal
and the second orders them. -/
lemma andThen_eq_ordered : r.andThen s = ordered o ↔
    (r = ordered .eq ∧ s = ordered o) ∨ (r = ordered o ∧ o ≠ .eq) := by
  cases r with
  | raises => simp [andThen]
  | unordered => simp [andThen]
  | ordered p => cases p <;> cases o <;> simp [andThen]

/-- Two answers in a row are exchanged one by one. -/
lemma swap_andThen (r s : Answer) : (r.andThen s).swap = r.swap.andThen s.swap := by
  cases r with
  | raises => rfl
  | unordered => rfl
  | ordered p => cases p <;> rfl

end Answer

/-- The order of two members of a linear order. -/
def order {K : Type*} [LinearOrder K] (x y : K) : Ordering := compare x y

/-- Numbers are ordered by their values. The constant that is no number is equal to itself only. -/
def compareNumbers : Option (WithBot (WithTop ℚ)) → Option (WithBot (WithTop ℚ)) → Answer
  | none, none => .ordered .eq
  | some q, some r => .ordered (order q r)
  | _, _ => .unordered

/-- A truth value as a number. -/
def ofBool (b : Bool) : Option (WithBot (WithTop ℚ)) := some (if b then 1 else 0)

mutual

/-- Two items of arrays. Values that are not equal and have no order raise an error. -/
def compareItems : Value → Value → Answer
  | .null, .null => .ordered .eq
  | .bool a, .bool b => compareNumbers (ofBool a) (ofBool b)
  | .bool a, .number y => compareNumbers (ofBool a) y
  | .number x, .bool b => compareNumbers x (ofBool b)
  | .number x, .number y => compareNumbers x y
  | .string s, .string t => .ordered (order s t)
  | .array xs, .array ys => compareLists xs ys
  | .object fs, .object gs => compareFields fs gs
  | _, _ => .raises

/-- Two arrays: the first items that differ decide, and then the lengths. -/
def compareLists : List Value → List Value → Answer
  | [], [] => .ordered .eq
  | [], _ :: _ => .ordered .lt
  | _ :: _, [] => .ordered .gt
  | x :: xs, y :: ys => (compareItems x y).andThen (compareLists xs ys)

/-- Two objects: they are equal, or have no order. -/
def compareFields : List (List Char × Value) → List (List Char × Value) → Answer
  | [], [] => .ordered .eq
  | (k, v) :: fs, (l, w) :: gs =>
    if k = l ∧ compareItems v w = .ordered .eq then compareFields fs gs else .raises
  | _, _ => .raises

end

/-- Whether a value can be compared at all, outside an array. -/
def Value.orderable : Value → Bool
  | .null => false
  | .object _ => false
  | _ => true

/-- The test `a < b`. -/
def lessThan (a b : Value) : Option Bool :=
  if a.orderable && b.orderable then (compareItems a b).less else none

/-- The order of two values that have one. -/
def cmp (a b : Value) : Option Ordering :=
  if a.orderable && b.orderable then (compareItems a b).ordering else none

/-! ## The laws -/

section Laws

/-- Neither equal nor greater is less. -/
lemma eq_lt {o : Ordering} (h : o ≠ .eq) (h' : o ≠ .gt) : o = .lt := by
  revert o
  decide

/-- Not greater, and less where equal, is less. -/
lemma then_lt {o : Ordering} (h : o ≠ .gt) : o.then .lt = .lt := by
  revert o
  decide

variable {K : Type*} [LinearOrder K] {o o' : Ordering}

/-- The order of two keys with the sides exchanged. -/
lemma order_swap (x y : K) : order y x = (order x y).swap := Std.OrientedOrd.eq_swap

/-- Keys in ascending order: the first two decide, then the last two. -/
lemma order_trans {x y z : K} (ho : order x y ≠ .gt) (ho' : order y z ≠ .gt) :
    order x z = (order x y).then (order y z) := by
  unfold order at *
  rcases lt_trichotomy x y with h | rfl | h
  · rw [compare_lt_iff_lt.mpr h]
    exact compare_lt_iff_lt.mpr (h.trans_le (compare_le_iff_le.mp ho'))
  · rw [compare_eq_iff_eq.mpr rfl]
    rfl
  · exact absurd (compare_gt_iff_gt.mpr h) ho

/-- Numbers are compared the same way from either side. -/
lemma compareNumbers_swap (x y : Option (WithBot (WithTop ℚ))) :
    compareNumbers y x = (compareNumbers x y).swap := by
  cases x with
  | none => cases y <;> rfl
  | some q =>
    cases y with
    | none => rfl
    | some r => exact congrArg Answer.ordered (order_swap q r)

/-- Numbers in ascending order: the first two decide, then the last two. -/
lemma compareNumbers_trans {x y z : Option (WithBot (WithTop ℚ))}
    (hxy : compareNumbers x y = .ordered o) (hyz : compareNumbers y z = .ordered o')
    (ho : o ≠ .gt) (ho' : o' ≠ .gt) : compareNumbers x z = .ordered (o.then o') := by
  cases x with
  | none =>
    cases y with
    | none =>
      obtain rfl := Answer.ordered.inj hxy
      exact hyz
    | some r => cases hxy
  | some q =>
    cases y with
    | none => cases hxy
    | some r =>
      cases z with
      | none => cases hyz
      | some t =>
        obtain rfl := Answer.ordered.inj hxy
        obtain rfl := Answer.ordered.inj hyz
        exact congrArg Answer.ordered (order_trans ho ho')

/-- The number that a number or a truth value stands for. -/
def asNumber : Value → Option (Option (WithBot (WithTop ℚ)))
  | .bool b => some (ofBool b)
  | .number x => some x
  | _ => none

variable {a b c : Value} {x y : Option (WithBot (WithTop ℚ))}

/-- Values that stand for numbers are compared as numbers. -/
lemma compareItems_asNumber (ha : asNumber a = some x) (hb : asNumber b = some y) :
    compareItems a b = compareNumbers x y := by
  cases a <;> cases b <;> cases ha <;> cases hb <;> rw [compareItems]

/-- Only numbers are ordered among numbers. -/
lemma exists_asNumber (ha : asNumber a = some x) (h : compareItems a b = .ordered o) :
    ∃ y, asNumber b = some y := by
  cases a <;> cases b <;> cases ha <;> first | exact ⟨_, rfl⟩ | cases h

/-- Values of which the first stands for a number are compared transitively. -/
lemma compareItems_trans_asNumber (ha : asNumber a = some x) (hab : compareItems a b = .ordered o)
    (hbc : compareItems b c = .ordered o') (ho : o ≠ .gt) (ho' : o' ≠ .gt) :
    compareItems a c = .ordered (o.then o') := by
  obtain ⟨y, hb⟩ := exists_asNumber ha hab
  obtain ⟨z, hc⟩ := exists_asNumber hb hbc
  rw [compareItems_asNumber ha hb] at hab
  rw [compareItems_asNumber hb hc] at hbc
  rw [compareItems_asNumber ha hc]
  exact compareNumbers_trans hab hbc ho ho'

/-- Lists are compared the same way from either side if their items are. -/
lemma compareLists_swap {xs : List Value}
    (h : ∀ x ∈ xs, ∀ y, compareItems y x = (compareItems x y).swap) (ys : List Value) :
    compareLists ys xs = (compareLists xs ys).swap := by
  induction xs generalizing ys with
  | nil => cases ys <;> rfl
  | cons x xs ih =>
    obtain ⟨hx, hxs⟩ := List.forall_mem_cons.mp h
    cases ys with
    | nil => rfl
    | cons y ys =>
      rw [compareLists, compareLists, Answer.swap_andThen, hx y, ih hxs ys]

/-- Equal stays equal with the sides exchanged. -/
lemma swap_eq_ordered_eq {r : Answer} : r.swap = .ordered .eq ↔ r = .ordered .eq := by
  cases r with
  | raises => rfl
  | unordered => rfl
  | ordered p => cases p <;> simp [Answer.swap]

/-- Fields are compared the same way from either side if their values are. -/
lemma compareFields_swap {fs : List (List Char × Value)}
    (h : ∀ f ∈ fs, ∀ y, compareItems y f.2 = (compareItems f.2 y).swap)
    (gs : List (List Char × Value)) :
    compareFields gs fs = (compareFields fs gs).swap := by
  induction fs generalizing gs with
  | nil => cases gs <;> rfl
  | cons f fs ih =>
    obtain ⟨hf, hfs⟩ := List.forall_mem_cons.mp h
    cases gs with
    | nil => rfl
    | cons g gs =>
      rw [compareFields, compareFields, ih hfs gs, hf g.2]
      simp only [swap_eq_ordered_eq, eq_comm (a := g.1)]
      split_ifs <;> rfl

/-- **Swapped items have the swapped order.**

**Proof sketch.** By induction on the first value and cases on the second. Booleans and numbers
are compared as numbers, lists and objects by their own lemmas, and values of different kinds are
not compared from either side. -/
theorem compareItems_swap (a b : Value) : compareItems b a = (compareItems a b).swap := by
  induction a using Value.induction generalizing b with
  | null => cases b <;> rfl
  | bool a =>
    cases b with
    | bool b => exact compareNumbers_swap (ofBool a) (ofBool b)
    | number y => exact compareNumbers_swap (ofBool a) y
    | _ => rfl
  | number x =>
    cases b with
    | bool b => exact compareNumbers_swap x (ofBool b)
    | number y => exact compareNumbers_swap x y
    | _ => rfl
  | string s =>
    cases b with
    | string t => exact congrArg Answer.ordered (order_swap s t)
    | _ => rfl
  | array xs ih =>
    cases b with
    | array ys => exact compareLists_swap ih ys
    | _ => rfl
  | object fs ih =>
    cases b with
    | object gs => exact compareFields_swap ih gs
    | _ => rfl

/-- Lists are compared transitively if their items are.

**Proof sketch.** By induction on the first list, with the heads compared first. Where the heads
of the first two lists or of the last two differ, the first difference decides, and where both are
equal, the induction hypothesis compares the tails. -/
lemma compareLists_trans {xs ys zs : List Value}
    (h : ∀ x ∈ xs, ∀ y z o o', compareItems x y = .ordered o → compareItems y z = .ordered o' →
      o ≠ .gt → o' ≠ .gt → compareItems x z = .ordered (o.then o'))
    (hxy : compareLists xs ys = .ordered o) (hyz : compareLists ys zs = .ordered o')
    (ho : o ≠ .gt) (ho' : o' ≠ .gt) : compareLists xs zs = .ordered (o.then o') := by
  induction xs generalizing ys zs with
  | nil =>
    cases ys with
    | nil =>
      obtain rfl := Answer.ordered.inj hxy
      exact hyz
    | cons y ys =>
      obtain rfl := Answer.ordered.inj hxy
      cases zs with
      | nil => exact absurd (Answer.ordered.inj hyz).symm ho'
      | cons z zs => rfl
  | cons x xs ih =>
    obtain ⟨hx, hxs⟩ := List.forall_mem_cons.mp h
    cases ys with
    | nil => exact absurd (Answer.ordered.inj hxy).symm ho
    | cons y ys =>
      cases zs with
      | nil => exact absurd (Answer.ordered.inj hyz).symm ho'
      | cons z zs =>
        rw [compareLists, Answer.andThen_eq_ordered] at hxy hyz
        rw [compareLists, Answer.andThen_eq_ordered]
        rcases hxy with ⟨hxy, hxsys⟩ | ⟨hxy, hne⟩
        · rcases hyz with ⟨hyz, hyszs⟩ | ⟨hyz, hne'⟩
          · exact Or.inl ⟨hx y z _ _ hxy hyz (by decide) (by decide), ih hxs hxsys hyszs⟩
          · obtain rfl := eq_lt hne' ho'
            rw [then_lt ho]
            exact Or.inr ⟨hx y z _ _ hxy hyz (by decide) ho', by decide⟩
        · obtain rfl := eq_lt hne ho
          refine Or.inr ⟨?_, Ordering.noConfusion⟩
          rcases hyz with ⟨hyz, -⟩ | ⟨hyz, -⟩
          · have hxz := hx y z .lt .eq hxy hyz ho (by decide)
            exact hxz
          · exact hx y z _ _ hxy hyz ho ho'

/-- Fields are compared transitively if their values are. -/
lemma compareFields_trans {fs gs hs : List (List Char × Value)}
    (h : ∀ f ∈ fs, ∀ y z o o', compareItems f.2 y = .ordered o → compareItems y z = .ordered o' →
      o ≠ .gt → o' ≠ .gt → compareItems f.2 z = .ordered (o.then o'))
    (hfg : compareFields fs gs = .ordered o) (hgh : compareFields gs hs = .ordered o') :
    compareFields fs hs = .ordered (o.then o') := by
  induction fs generalizing gs hs with
  | nil =>
    cases gs with
    | nil =>
      obtain rfl := Answer.ordered.inj hfg
      exact hgh
    | cons g gs => cases hfg
  | cons f fs ih =>
    obtain ⟨hf, hfs⟩ := List.forall_mem_cons.mp h
    cases gs with
    | nil => cases hfg
    | cons g gs =>
      cases hs with
      | nil => cases hgh
      | cons e hs =>
        rw [compareFields] at hfg hgh ⊢
        split_ifs at hfg hgh with hg he
        rw [if_pos ⟨hg.1.trans he.1, hf _ _ _ _ hg.2 he.2 (by decide) (by decide)⟩]
        exact ih hfs hfg hgh

/-- **The order of items is transitive.**

**Proof sketch.** By induction on the first value. Values that are compared at all are of one
kind, so the two answers fix the kinds of the second and the third; booleans and numbers are
`compareItems_trans_asNumber`, lists and objects have lemmas of their own. -/
theorem compareItems_trans (hab : compareItems a b = .ordered o)
    (hbc : compareItems b c = .ordered o') (ho : o ≠ .gt) (ho' : o' ≠ .gt) :
    compareItems a c = .ordered (o.then o') := by
  induction a using Value.induction generalizing b c o o' with
  | null =>
    cases b with
    | null =>
      obtain rfl := Answer.ordered.inj hab
      exact hbc
    | _ => cases hab
  | bool a => exact compareItems_trans_asNumber rfl hab hbc ho ho'
  | number x => exact compareItems_trans_asNumber rfl hab hbc ho ho'
  | string s =>
    cases b with
    | string t =>
      cases c with
      | string u =>
        obtain rfl := Answer.ordered.inj hab
        obtain rfl := Answer.ordered.inj hbc
        exact congrArg Answer.ordered (order_trans ho ho')
      | _ => cases hbc
    | _ => cases hab
  | array xs ih =>
    cases b with
    | array ys =>
      cases c with
      | array zs =>
        exact compareLists_trans (fun x hx y z o o' h h' ho ho' => ih x hx h h' ho ho') hab hbc
          ho ho'
      | _ => cases hbc
    | _ => cases hab
  | object fs ih =>
    cases b with
    | object gs =>
      cases c with
      | object hs =>
        exact compareFields_trans (fun f hf y z o o' h h' ho ho' => ih f hf h h' ho ho') hab hbc
      | _ => cases hbc
    | _ => cases hab

/-- When `cmp` answers: both values can be ordered and are compared without an exception. -/
lemma cmp_eq_some : cmp a b = some o ↔
    (a.orderable && b.orderable) = true ∧ compareItems a b = .ordered o := by
  unfold cmp
  split_ifs with h
  · cases compareItems a b <;> simp [Answer.ordering, h]
  · simp [h]

/-- **The order of values is a comparison**, and the test for less agrees with it. -/
theorem compares : FallibleSort.Compares lessThan cmp where
  agrees h := by
    obtain ⟨hable, h⟩ := cmp_eq_some.mp h
    rw [lessThan, if_pos hable, h]
    rfl
  swap a b := by
    unfold cmp
    rw [Bool.and_comm, compareItems_swap a b]
    split_ifs
    · cases compareItems a b <;> rfl
    · rfl
  trans hab hbc ho ho' := by
    obtain ⟨hable, hab⟩ := cmp_eq_some.mp hab
    obtain ⟨hable', hbc⟩ := cmp_eq_some.mp hbc
    have hac := Bool.and_eq_true_iff.mpr
      ⟨(Bool.and_eq_true_iff.mp hable).1, (Bool.and_eq_true_iff.mp hable').2⟩
    exact cmp_eq_some.mpr ⟨hac, compareItems_trans hab hbc ho ho'⟩

end Laws

end JsonOrder

import Mathlib

set_option relaxedAutoImplicit false
set_option autoImplicit false

/-!
# POSIX paths, lexically

Paths as texts, as a root and names, and in their normal form, in which every `..` that has a name
before it is gone together with that name.

## Main definitions

* `PurePath`, `parse`, `PurePath.toText`, `join` — paths and texts.
* `NormalPath`, `normalize` — normal forms.
* `NormalPath.after` — where a walk leads to from a directory.
* `NormalPath.Inside` — a path lies inside a directory.
* `NormalPath.StaysInside` — a walk from a directory that ends at it or inside it.
* `PurePath.normal`, `normpath`, `abspath` — the path of a normal form.
* `PurePath.relativeTo`, `PurePath.joined` — paths below a path.
* `PurePath.resolve`, `PurePath.Within` — where a path leads without links; a path is a directory or
  lies below it.

## Main results

* `parse_toText` — a path is read back from its text.
* `NormalPath.foldl_step` — a walk is determined by its normal form.
* `NormalPath.inside_after_iff` — when a walk and one name more lead inside the directory.
* `normalize_join` — the normal form of a joined path.
* `normalize_join_walk` — the normal form of a path below a directory, seen from another one.
* `toText_prefix_iff` — when the text of one path begins with the text of another.
-/

namespace PosixPath

/-- Texts are lists of characters. -/
abbrev Text := List Char

/-! ## Paths and texts -/

/-- A part of a path: not empty, not `.`, and without a slash. -/
def IsPart (c : Text) : Prop := c ≠ [] ∧ c ≠ ['.'] ∧ '/' ∉ c

/-- The root of a path: two slashes at its start, and no third, are a root of their own. -/
def rootOf (p : Text) : Text :=
  if p[0]? ≠ some '/' then []
  else if p[1]? = some '/' ∧ p[2]? ≠ some '/' then ['/', '/']
  else ['/']

/-- The parts of a path. Its root leaves only empty ones. -/
def partsOf (p : Text) : List Text := (p.splitOn '/').filter fun c => c ≠ [] ∧ c ≠ ['.']

/-- A root, and parts. -/
@[ext]
structure PurePath where
  root : Text
  parts : List Text
  root_valid : root = [] ∨ root = ['/'] ∨ root = ['/', '/']
  parts_valid : ∀ c ∈ parts, IsPart c
  deriving DecidableEq

/-- The text of a path. -/
def PurePath.toText (p : PurePath) : Text :=
  if p.root = [] ∧ p.parts = [] then ['.'] else p.root ++ ['/'].intercalate p.parts

/-- A path that begins with a slash replaces the one it is joined to. -/
def join (a b : Text) : Text :=
  if b.head? = some '/' then b
  else if a = [] ∨ a.getLast? = some '/' then a ++ b
  else a ++ '/' :: b

section Parts

variable {a b c p : Text}

/-- A root is empty, one slash or two. -/
lemma rootOf_valid (p : Text) : rootOf p = [] ∨ rootOf p = ['/'] ∨ rootOf p = ['/', '/'] := by
  unfold rootOf
  split_ifs <;> simp

/-- What lies between two slashes contains none. -/
lemma not_mem_of_mem_splitOn (p : Text) : ∀ c ∈ p.splitOn '/', '/' ∉ c := by
  induction p with
  | nil => simp
  | cons x p ih =>
    intro c hc
    rw [List.splitOn_cons_eq_if_modifyHead] at hc
    split_ifs at hc with hx
    · rcases List.mem_cons.mp hc with rfl | hc
      · exact List.not_mem_nil
      · exact ih c hc
    · cases hsplit : p.splitOn '/' with
      | nil => exact absurd hsplit (List.splitOn_ne_nil _ _)
      | cons d rest =>
        rw [hsplit, List.modifyHead_cons] at hc
        rcases List.mem_cons.mp hc with rfl | hc
        · have hd : '/' ∉ d := ih d (by rw [hsplit]; exact List.mem_cons_self)
          have hne : '/' ≠ x := by
            rintro rfl
            exact hx (by simp)
          exact List.not_mem_cons_of_ne_of_not_mem hne hd
        · exact ih c (by rw [hsplit]; exact List.mem_cons_of_mem _ hc)

/-- What `partsOf` returns are parts: no slash, not empty and not a dot. -/
lemma isPart_of_mem_partsOf (hc : c ∈ partsOf p) : IsPart c := by
  obtain ⟨hmem, hfine⟩ := List.mem_filter.mp hc
  rw [decide_eq_true_eq] at hfine
  exact ⟨hfine.1, hfine.2, not_mem_of_mem_splitOn p c hmem⟩

/-- The path of a text. -/
def parse (p : Text) : PurePath where
  root := rootOf p
  parts := partsOf p
  root_valid := rootOf_valid p
  parts_valid := fun _ hc => isPart_of_mem_partsOf hc

/-- The root of a parsed text. -/
@[simp] lemma root_parse (p : Text) : (parse p).root = rootOf p := rfl

/-- The parts of a parsed text. -/
@[simp] lemma parts_parse (p : Text) : (parse p).parts = partsOf p := rfl

/-- The empty text has no parts. -/
@[simp] lemma partsOf_nil : partsOf [] = [] := rfl

/-- The parts on both sides of a slash are put in a row. -/
lemma partsOf_slash (a b : Text) : partsOf (a ++ '/' :: b) = partsOf a ++ partsOf b := by
  simp only [partsOf, List.splitOn_append_cons_self, List.filter_append]

/-- A part stands for itself. -/
lemma partsOf_part (hc : IsPart c) : partsOf c = [c] := by
  have hsplit : c.splitOn '/' = [c] := List.splitOn_eq_singleton hc.2.2
  rw [partsOf, hsplit, List.filter_singleton]
  simp [hc.1, hc.2.1]

/-- A part is relative. -/
lemma head?_part (hc : IsPart c) : c.head? ≠ some '/' :=
  fun h => hc.2.2 (List.mem_of_head? h)

/-- A text is relative exactly when it does not begin with a slash. -/
lemma rootOf_eq_nil_iff : rootOf p = [] ↔ p.head? ≠ some '/' := by
  rw [List.head?_eq_getElem?]
  unfold rootOf
  grind

/-- A relative path does not change the root of the path it is joined to. -/
lemma rootOf_join (hb : b.head? ≠ some '/') : rootOf (join a b) = rootOf a := by
  unfold join
  rw [if_neg hb]
  by_cases hnil : a = []
  · rw [if_pos (.inl hnil), hnil, List.nil_append]
    exact rootOf_eq_nil_iff.mpr hb
  · have hlast : a.getLast? = a[a.length - 1]? := List.getLast?_eq_getElem?
    have hpos : 0 < a.length := List.length_pos_iff.mpr hnil
    have hfirst : b[0]? ≠ some '/' := by rwa [List.head?_eq_getElem?] at hb
    unfold rootOf
    grind

/-- **The parts of a joined path.** -/
lemma partsOf_join (hb : b.head? ≠ some '/') : partsOf (join a b) = partsOf a ++ partsOf b := by
  unfold join
  rw [if_neg hb]
  by_cases hslash : a.getLast? = some '/'
  · obtain ⟨a', rfl⟩ : ∃ a', a = a' ++ ['/'] := by
      obtain ⟨ys, hys⟩ := List.getLast?_eq_some_iff.mp hslash
      exact ⟨ys, hys⟩
    rw [if_pos (.inr hslash), List.append_assoc, List.singleton_append, partsOf_slash,
      partsOf_slash, partsOf_nil, List.append_nil]
  · by_cases hnil : a = []
    · rw [if_pos (.inl hnil), hnil, List.nil_append, partsOf_nil, List.nil_append]
    · rw [if_neg (by simp [hslash, hnil]), partsOf_slash]

/-- The root of a text is found again behind which a relative path begins. -/
lemma rootOf_append (hr : a = [] ∨ a = ['/'] ∨ a = ['/', '/']) (hb : b.head? ≠ some '/') :
    rootOf (a ++ b) = a := by
  have hfirst : b[0]? ≠ some '/' := by rwa [List.head?_eq_getElem?] at hb
  rcases hr with rfl | rfl | rfl
  · exact rootOf_eq_nil_iff.mpr hb
  · simp [rootOf, hfirst]
  · simp [rootOf, hfirst]

/-- A root in front adds no part. -/
lemma partsOf_root_append (hr : a = [] ∨ a = ['/'] ∨ a = ['/', '/']) (b : Text) :
    partsOf (a ++ b) = partsOf b := by
  rcases hr with rfl | rfl | rfl
  · rfl
  · exact partsOf_slash [] b
  · exact (partsOf_slash [] _).trans (partsOf_slash [] b)

/-- Parts with slashes between them are read back. -/
lemma partsOf_intercalate {cs : List Text} (h : ∀ c ∈ cs, IsPart c) :
    partsOf (['/'].intercalate cs) = cs := by
  by_cases hnil : cs = []
  · rw [hnil]
    rfl
  · have hslash : ∀ c ∈ cs, '/' ∉ c := fun c hc => (h c hc).2.2
    rw [partsOf, List.splitOn_intercalate '/' hslash hnil, List.filter_eq_self]
    intro c hc
    exact decide_eq_true ⟨(h c hc).1, (h c hc).2.1⟩

/-- Parts joined by slashes do not begin with a slash. -/
lemma head?_intercalate {cs : List Text} (h : ∀ c ∈ cs, IsPart c) :
    (['/'].intercalate cs).head? ≠ some '/' := by
  match cs with
  | [] => simp [List.intercalate]
  | [c] =>
    have hc : IsPart c := h c List.mem_cons_self
    simpa [List.intercalate] using head?_part hc
  | c :: d :: cs =>
    have hc : IsPart c := h c List.mem_cons_self
    rw [List.intercalate_cons_cons, List.append_assoc, List.head?_append_of_ne_nil _ hc.1]
    exact head?_part hc

/-- **A path is read back from its text** when it has a part. -/
theorem parse_toText (p : PurePath) (h : p.parts ≠ []) : parse p.toText = p := by
  have htext : p.toText = p.root ++ ['/'].intercalate p.parts := if_neg fun hno => h hno.2
  ext1
  · rw [root_parse, htext, rootOf_append p.root_valid (head?_intercalate p.parts_valid)]
  · rw [parts_parse, htext, partsOf_root_append p.root_valid, partsOf_intercalate p.parts_valid]

/-- The text of a path is the text of no other one. -/
lemma parse_toText_eq (p : PurePath) : parse p.toText = p := by
  by_cases h : p.parts = []
  · ext1
    · rw [root_parse, PurePath.toText, h]
      rcases p.root_valid with hr | hr | hr <;> rw [hr] <;> rfl
    · rw [parts_parse, PurePath.toText, h]
      rcases p.root_valid with hr | hr | hr <;> rw [hr] <;> rfl
  · exact parse_toText p h

end Parts

/-! ## Normal forms -/

/-- The part that leads one directory up. -/
abbrev parent : Text := ['.', '.']

/-- The name of a file or directory: a part that leads down. -/
def IsEntryName (c : Text) : Prop := IsPart c ∧ c ≠ parent

/-- A root, so many times up, and names. There is nothing above a root. -/
@[ext]
structure NormalPath where
  root : Text
  ups : ℕ
  names : List Text
  root_top : root ≠ [] → ups = 0
  deriving DecidableEq

namespace NormalPath

/-- The path that leads nowhere. -/
def here : NormalPath := ⟨[], 0, [], fun _ => rfl⟩

/-- One part further: up, unless this is a root, or down. -/
def step (p : NormalPath) (c : Text) : NormalPath :=
  if c = parent then
    if p.names ≠ [] then { p with names := p.names.dropLast }
    else if h : p.root = [] then { p with ups := p.ups + 1, root_top := fun hne => absurd h hne }
    else p
  else { p with names := p.names ++ [c] }

/-- Where a walk `q` leads to from `p`: it takes its way up from the names of `p` first. -/
def after (p q : NormalPath) : NormalPath :=
  if q.root = [] then
    { root := p.root
      ups := if p.root = [] then p.ups + (q.ups - p.names.length) else 0
      names := p.names.take (p.names.length - q.ups) ++ q.names
      root_top := fun h => if_neg h }
  else q

/-- `p` lies inside the directory `d`. -/
def Inside (p d : NormalPath) : Prop :=
  p.root = d.root ∧ p.ups = d.ups ∧ ∃ rest ≠ [], p.names = d.names ++ rest

/-- A walk that, from the directory `d`, ends at `d` or inside it: it does not climb above `d`, or
comes back down by the names it went up; or it begins at the root, and then goes through `d`. -/
def StaysInside (q d : NormalPath) : Prop :=
  if q.root = [] then
    (d.root = [] → q.ups ≤ d.names.length) ∧ d.names.drop (d.names.length - q.ups) <+: q.names
  else q.root = d.root ∧ d.names <+: q.names

instance (q d : NormalPath) : Decidable (q.StaysInside d) :=
  inferInstanceAs (Decidable (if q.root = [] then _ ∧ _ else _ ∧ _))

section Walks

variable {d p q : NormalPath} {c : Text}

/-- A step keeps the root. -/
lemma step_root : (p.step c).root = p.root := by
  unfold step
  split_ifs <;> rfl

/-- A step to a name goes down to it. -/
lemma step_name (hc : c ≠ parent) : p.step c = { p with names := p.names ++ [c] } := if_neg hc

/-- The names after a step: one more, or one fewer for a step to the parent. -/
lemma step_names : (p.step c).names = if c = parent then p.names.dropLast else p.names ++ [c] := by
  unfold step
  split_ifs with hc hnames hroot
  · rfl
  · rw [not_not.mp hnames]
    rfl
  · rw [not_not.mp hnames]
    rfl
  · rfl

/-- A step counts a `..` only where there is nothing to go up from. -/
lemma step_ups : (p.step c).ups =
    if c = parent ∧ p.names = [] ∧ p.root = [] then p.ups + 1 else p.ups := by
  unfold step
  split_ifs <;> simp_all

/-- Steps in a row keep the root. -/
lemma foldl_step_root (cs : List Text) (p : NormalPath) : (cs.foldl step p).root = p.root := by
  induction cs generalizing p with
  | nil => rfl
  | cons c cs ih => rw [List.foldl_cons, ih, step_root]

/-- A path followed by the empty one is itself. -/
lemma after_here (p : NormalPath) : p.after here = p := by
  ext1
  · rfl
  · show (if p.root = [] then p.ups + (0 - p.names.length) else 0) = p.ups
    split_ifs with hroot
    · omega
    · exact (p.root_top hroot).symm
  · show p.names.take (p.names.length - 0) ++ [] = p.names
    rw [List.append_nil, Nat.sub_zero, List.take_length]

/-- The root of a path followed by a relative one. -/
lemma after_root (hq : q.root = []) : (p.after q).root = p.root := by
  rw [after, if_pos hq]

/-- The second path's `..` that the names of the first do not use up remain, below no root. -/
lemma after_ups (hq : q.root = []) : (p.after q).ups =
    if p.root = [] then p.ups + (q.ups - p.names.length) else 0 := by
  rw [after, if_pos hq]

/-- The second path's `..` take names off the end of the first, and its own names follow. -/
lemma after_names (hq : q.root = []) : (p.after q).names =
    p.names.take (p.names.length - q.ups) ++ q.names := by
  rw [after, if_pos hq]

/-- Names are put behind the names of the path. -/
lemma foldl_step_of_no_parent (cs : List Text) (p : NormalPath) (h : parent ∉ cs) :
    cs.foldl step p = { p with names := p.names ++ cs } := by
  induction cs generalizing p with
  | nil =>
    rw [List.append_nil]
    rfl
  | cons c cs ih =>
    obtain ⟨hc, hcs⟩ := not_or.mp (List.mem_cons.not.mp h)
    rw [List.foldl_cons, step_name (Ne.symm hc), ih _ hcs]
    simp only [List.append_assoc, List.singleton_append]

/-- The names of a walk are among its parts. -/
lemma mem_names_foldl {cs : List Text} {p : NormalPath} (h : c ∈ (cs.foldl step p).names) :
    c ∈ p.names ∨ c ∈ cs ∧ c ≠ parent := by
  induction cs generalizing p with
  | nil => exact .inl h
  | cons d cs ih =>
    rcases ih h with hmem | ⟨hmem, hne⟩
    · rw [step_names] at hmem
      split_ifs at hmem with hd
      · exact .inl (List.mem_of_mem_dropLast hmem)
      · rcases List.mem_append.mp hmem with hmem | hmem
        · exact .inl hmem
        · obtain rfl := List.mem_singleton.mp hmem
          exact .inr ⟨List.mem_cons_self, hd⟩
    · exact .inr ⟨List.mem_cons_of_mem _ hmem, hne⟩

/-- **One step of a relative walk is one step from where the walk has led.**

**Proof sketch.** A name is put behind the names on both sides. Up takes the last name of the walk
where it has one; where it has none, it takes the next name of `p`, or goes up from there. -/
lemma step_after (hq : q.root = []) : (p.after q).step c = p.after (q.step c) := by
  have hq' : (q.step c).root = [] := step_root.trans hq
  have htake : (p.names.take (p.names.length - q.ups)).length = p.names.length - q.ups := by
    rw [List.length_take]
    omega
  ext1
  · rw [step_root, after_root hq, after_root hq']
  · have hnil : (p.after q).names = [] ↔ p.names.length ≤ q.ups ∧ q.names = [] := by
      rw [after_names hq, List.append_eq_nil_iff, ← List.length_eq_zero_iff, htake,
        Nat.sub_eq_zero_iff_le]
    rw [after_ups hq', step_ups, step_ups, after_ups hq, after_root hq]
    simp only [hnil, hq, and_true]
    grind
  · rw [step_names, after_names hq, after_names hq', step_names, step_ups]
    by_cases hc : c = parent
    · by_cases hnames : q.names = []
      · rw [if_pos hc, if_pos ⟨hc, hnames, hq⟩, if_pos hc, hnames, List.append_nil,
          List.dropLast_nil, List.append_nil, List.dropLast_eq_take, List.take_take, htake]
        congr 1
        omega
      · rw [if_pos hc, if_pos hc, if_neg fun h => hnames h.2.1,
          List.dropLast_append_of_ne_nil hnames]
    · rw [if_neg hc, if_neg hc, if_neg fun h => hc h.1, List.append_assoc]

/-- A walk goes on from where it has led. -/
lemma foldl_step_after (cs : List Text) (p q : NormalPath) :
    cs.foldl step (p.after q) = p.after (cs.foldl step q) := by
  induction cs generalizing q with
  | nil => rfl
  | cons c cs ih =>
    rw [List.foldl_cons, List.foldl_cons, ← ih]
    by_cases hq : q.root = []
    · rw [step_after hq]
    · have hq' : (q.step c).root ≠ [] := by rwa [step_root]
      rw [after, after, if_neg hq, if_neg hq']

/-- **A walk from `p` leads where its own normal form leads from `p`.** -/
theorem foldl_step (cs : List Text) (p : NormalPath) :
    cs.foldl step p = p.after (cs.foldl step here) := by
  induction cs using List.reverseRecOn with
  | nil => exact (after_here p).symm
  | append_singleton cs c ih =>
    have hroot : (cs.foldl step here).root = [] := foldl_step_root cs here
    rw [List.foldl_append, List.foldl_append, ih]
    exact step_after hroot

/-- A name leads inside. -/
lemma inside_step (hc : c ≠ parent) : (d.step c).Inside d := by
  refine ⟨step_root, ?_, [c], List.cons_ne_nil _ _, ?_⟩
  · rw [step_ups, if_neg fun h => hc h.1]
  · rw [step_names, if_neg hc]

/-- A name is left over behind `b` and more exactly when `b` is a part of what is before it. -/
lemma exists_append_iff {b r : List Text} :
    (∃ rest ≠ [], r ++ [c] = b ++ rest) ↔ b <+: r := by
  constructor
  · rintro ⟨rest, hrest, heq⟩
    obtain ⟨init, last, rfl⟩ := List.eq_nil_or_concat' rest |>.resolve_left hrest
    rw [← List.append_assoc] at heq
    exact ⟨init, (List.append_inj' heq rfl).1.symm⟩
  · rintro ⟨more, rfl⟩
    exact ⟨more ++ [c], List.append_ne_nil_of_right_ne_nil _ (List.cons_ne_nil _ _),
      List.append_assoc _ _ _⟩

/-- **Which walks keep a file inside the directory they begin at.** A relative walk may go up, but
above a relative directory it loses its way, and the names it left it must go down again.

**Proof sketch.** The names of `d` are those the walk keeps and those it leaves; the first are the
same on both sides. -/
theorem inside_after_iff (hc : c ≠ parent) :
    ((d.after q).step c).Inside d ↔ q.StaysInside d := by
  have hnames : ((d.after q).step c).names = (d.after q).names ++ [c] := by
    rw [step_names, if_neg hc]
  have hups : ((d.after q).step c).ups = (d.after q).ups := by
    rw [step_ups, if_neg fun h => hc h.1]
  rw [Inside, StaysInside, step_root, hnames, hups]
  by_cases hq : q.root = []
  · have hkept : d.names <+: d.names.take (d.names.length - q.ups) ++ q.names ↔
        d.names.drop (d.names.length - q.ups) <+: q.names := by
      conv_lhs => lhs; rw [← List.take_append_drop (d.names.length - q.ups) d.names]
      exact List.prefix_append_right_inj _
    have hup : (if d.root = [] then d.ups + (q.ups - d.names.length) else 0) = d.ups ↔
        (d.root = [] → q.ups ≤ d.names.length) := by
      have htop := d.root_top
      grind
    rw [if_pos hq, after_root hq, after_ups hq, after_names hq, hup, exists_append_iff, hkept,
      eq_self, true_and]
  · rw [if_neg hq, after, if_neg hq, exists_append_iff]
    have hq0 : q.ups = 0 := q.root_top hq
    constructor
    · rintro ⟨hroot, -, hprefix⟩
      exact ⟨hroot, hprefix⟩
    · rintro ⟨hroot, hprefix⟩
      have hd0 : d.ups = 0 := d.root_top (hroot ▸ hq)
      exact ⟨hroot, hq0.trans hd0.symm, hprefix⟩

end Walks

end NormalPath

/-- The normal form of a path. -/
def normalize (p : PurePath) : NormalPath :=
  p.parts.foldl NormalPath.step { root := p.root, ups := 0, names := [], root_top := fun _ => rfl }

section Normalize

variable {a b c : Text}

/-- Normalising keeps the root. -/
lemma normalize_root (p : PurePath) : (normalize p).root = p.root :=
  NormalPath.foldl_step_root _ _

/-- **The normal form of a joined path** is where the second leads from the first. -/
theorem normalize_join (a b : Text) :
    normalize (parse (join a b)) = (normalize (parse a)).after (normalize (parse b)) := by
  by_cases hb : b.head? = some '/'
  · have hroot : (normalize (parse b)).root ≠ [] := by
      rw [normalize_root, root_parse]
      exact fun hnil => rootOf_eq_nil_iff.mp hnil hb
    rw [join, if_pos hb, NormalPath.after, if_neg hroot]
  · have hroot : rootOf b = [] := rootOf_eq_nil_iff.mpr hb
    have hhere : normalize (parse b) = (partsOf b).foldl NormalPath.step NormalPath.here := by
      simp only [normalize, root_parse, parts_parse, hroot, NormalPath.here]
    rw [hhere, ← NormalPath.foldl_step]
    simp only [normalize, root_parse, parts_parse, rootOf_join hb, partsOf_join hb,
      List.foldl_append]

/-- The normal form of a path with one part behind it. -/
theorem normalize_join_part (hc : IsPart c) :
    normalize (parse (join a c)) = (normalize (parse a)).step c := by
  have hrel : c.head? ≠ some '/' := head?_part hc
  simp only [normalize, root_parse, parts_parse, rootOf_join hrel, partsOf_join hrel,
    partsOf_part hc, List.foldl_append, List.foldl_cons, List.foldl_nil]

/-- A path ends in the part it is joined with. -/
lemma parts_join_part_ne_nil (hc : IsPart c) : (parse (join a c)).parts ≠ [] := by
  rw [parts_parse, partsOf_join (head?_part hc), partsOf_part hc]
  exact List.append_ne_nil_of_right_ne_nil _ (List.cons_ne_nil _ _)

/-- Without `..` the normal form has the parts as its names. -/
lemma normalize_of_no_parent {p : PurePath} (h : parent ∉ p.parts) :
    normalize p = { root := p.root, ups := 0, names := p.parts, root_top := fun _ => rfl } := by
  rw [normalize, NormalPath.foldl_step_of_no_parent _ _ h]
  rfl

/-- A relative walk without `..` stays inside. -/
lemma staysInside_of_no_parent {d : NormalPath} (hrel : a.head? ≠ some '/')
    (h : parent ∉ partsOf a) : (normalize (parse a)).StaysInside d := by
  have hroot : (parse a).root = [] := rootOf_eq_nil_iff.mpr hrel
  rw [normalize_of_no_parent h, NormalPath.StaysInside, if_pos hroot]
  refine ⟨fun _ => Nat.zero_le _, ?_⟩
  rw [Nat.sub_zero, List.drop_length]
  exact List.nil_prefix

/-- The names of a normal form are parts of the path. -/
lemma mem_names_normalize {p : PurePath} (h : c ∈ (normalize p).names) :
    c ∈ p.parts ∧ c ≠ parent :=
  (NormalPath.mem_names_foldl h).resolve_left List.not_mem_nil

/-- The normal form of a path with parts behind it. -/
lemma normalize_foldl_join {cs : List Text} (hcs : ∀ c ∈ cs, IsPart c) (a : Text) :
    normalize (parse (cs.foldl join a)) = cs.foldl NormalPath.step (normalize (parse a)) := by
  induction cs generalizing a with
  | nil => rfl
  | cons c cs ih =>
    rw [List.foldl_cons, List.foldl_cons, ih (fun d hd => hcs d (List.mem_cons_of_mem _ hd)),
      normalize_join_part (hcs c List.mem_cons_self)]

/-- **A path below a directory, seen from another one**: its names follow those of the directory. -/
theorem normalize_join_walk {cs : List Text} (hcs : ∀ c ∈ cs, IsPart c) (hdown : parent ∉ cs)
    (a b : Text) : normalize (parse (join a (cs.foldl join b))) =
      { normalize (parse (join a b)) with
        names := (normalize (parse (join a b))).names ++ cs } := by
  rw [normalize_join, normalize_foldl_join hcs, ← NormalPath.foldl_step_after, ← normalize_join,
    NormalPath.foldl_step_of_no_parent _ _ hdown]

end Normalize

/-! ## The path of a normal form -/

/-- The parts of a normal form. -/
def NormalPath.parts (p : NormalPath) : List Text := List.replicate p.ups parent ++ p.names

/-- The normal form, as a path. -/
def PurePath.normal (p : PurePath) : PurePath where
  root := p.root
  parts := (normalize p).parts
  root_valid := p.root_valid
  parts_valid := by
    intro c hc
    rcases List.mem_append.mp hc with hc | hc
    · rw [List.eq_of_mem_replicate hc]
      exact ⟨by decide, by decide, by decide⟩
    · exact p.parts_valid c (mem_names_normalize hc).1

/-- The text of the normal form. -/
def normpath (p : Text) : Text := (parse p).normal.toText

/-- The same from the directory `cwd`. -/
def abspath (cwd p : Text) : Text := normpath (join cwd p)

/-- The path from `base` to `p`, if `p` begins with `base`. -/
def PurePath.relativeTo (p base : PurePath) : Option PurePath :=
  if p.root = base.root ∧ base.parts <+: p.parts then
    some
      { root := []
        parts := p.parts.drop base.parts.length
        root_valid := .inl rfl
        parts_valid := fun c hc => p.parts_valid c (List.mem_of_mem_drop hc) }
  else none

/-- A path behind another one. -/
def PurePath.joined (p q : PurePath) : PurePath :=
  if q.root = [] then
    { root := p.root
      parts := p.parts ++ q.parts
      root_valid := p.root_valid
      parts_valid := fun c hc =>
        (List.mem_append.mp hc).elim (p.parts_valid c) (q.parts_valid c) }
  else q

section NormalText

variable {p q base : PurePath} {cwd a : Text}

/-- What `abspath` returns is read as the normal form of the joined path. -/
@[simp] lemma parse_abspath (cwd a : Text) : parse (abspath cwd a) = (parse (join cwd a)).normal :=
  parse_toText_eq _

/-- Under a root nothing leads up. -/
lemma parts_normal_of_root (h : p.root ≠ []) : p.normal.parts = (normalize p).names := by
  have hups : (normalize p).ups = 0 := (normalize p).root_top (by rwa [normalize_root])
  show List.replicate (normalize p).ups parent ++ (normalize p).names = (normalize p).names
  rw [hups]
  rfl

/-- An absolute directory makes a path absolute. -/
lemma rootOf_join_ne_nil (h : cwd.head? = some '/') : rootOf (join cwd a) ≠ [] := by
  by_cases ha : a.head? = some '/'
  · rw [join, if_pos ha]
    exact fun hnil => rootOf_eq_nil_iff.mp hnil ha
  · rw [rootOf_join ha]
    exact fun hnil => rootOf_eq_nil_iff.mp hnil h

/-- Parts of a path joined with a relative one. -/
lemma parts_joined (h : q.root = []) : (p.joined q).parts = p.parts ++ q.parts := by
  rw [PurePath.joined, if_pos h]

/-- A path joined with a relative one keeps its root. -/
lemma root_joined (h : q.root = []) : (p.joined q).root = p.root := by
  rw [PurePath.joined, if_pos h]

/-- The normal form of a path behind another one. -/
lemma normalize_joined : normalize (p.joined q) = (normalize p).after (normalize q) := by
  by_cases hq : q.root = []
  · have hhere : normalize q = q.parts.foldl NormalPath.step NormalPath.here := by
      simp only [normalize, hq, NormalPath.here]
    rw [hhere, ← NormalPath.foldl_step]
    simp only [normalize, root_joined hq, parts_joined hq, List.foldl_append]
  · rw [PurePath.joined, if_neg hq, NormalPath.after, if_neg]
    rwa [normalize_root]

/-- A walk from where a walk has led. -/
lemma NormalPath.after_normalize (d w : NormalPath) (q : PurePath) :
    d.after (w.after (normalize q)) = (d.after w).after (normalize q) := by
  by_cases hq : q.root = []
  · have hhere : normalize q = q.parts.foldl NormalPath.step NormalPath.here := by
      simp only [normalize, hq, NormalPath.here]
    rw [hhere, ← NormalPath.foldl_step, ← NormalPath.foldl_step, NormalPath.foldl_step_after]
  · have hroot : (normalize q).root ≠ [] := by rwa [normalize_root]
    have hafter : ∀ p : NormalPath, p.after (normalize q) = normalize q := fun _ => if_neg hroot
    rw [hafter, hafter, hafter]

end NormalText

/-! ## Where a path leads -/

/-- Where a path leads from the directory `cwd`, if nothing on the way is a link. -/
def PurePath.resolve (cwd : Text) (p : PurePath) : PurePath where
  root := ['/']
  parts := (normalize (parse (join cwd p.toText))).names
  root_valid := .inr (.inl rfl)
  parts_valid := fun c hc =>
    (parse (join cwd p.toText)).parts_valid c (mem_names_normalize hc).1

/-- The path `p` is the directory `d`, or lies below it. -/
def PurePath.Within (d p : PurePath) : Prop := p.root = d.root ∧ d.parts <+: p.parts

instance (d p : PurePath) : Decidable (d.Within p) := inferInstanceAs (Decidable (_ ∧ _))

section Prefixes

variable {a b c d : Text}

/-- Up to their first slash two texts agree, and then behind it. -/
lemma prefix_slash_iff (hc : '/' ∉ c) (hd : '/' ∉ d) :
    c ++ '/' :: a <+: d ++ '/' :: b ↔ c = d ∧ a <+: b := by
  induction c generalizing d with
  | nil =>
    cases d with
    | nil => simp
    | cons x d =>
      have hx : '/' ≠ x := fun h => hd (h ▸ List.mem_cons_self)
      simp [hx]
  | cons x c ih =>
    cases d with
    | nil =>
      have hx : x ≠ '/' := fun h => hc (h ▸ List.mem_cons_self)
      simp [hx]
    | cons y d =>
      have hc' : '/' ∉ c := fun h => hc (List.mem_cons_of_mem _ h)
      have hd' : '/' ∉ d := fun h => hd (List.mem_cons_of_mem _ h)
      simp [ih hc' hd', and_assoc]

/-- A text without a slash is looked for before the first one. -/
lemma prefix_part_iff (hc : '/' ∉ c) : c <+: d ++ '/' :: b ↔ c <+: d := by
  induction c generalizing d with
  | nil => simp
  | cons x c ih =>
    have hx : x ≠ '/' := fun h => hc (h ▸ List.mem_cons_self)
    have hc' : '/' ∉ c := fun h => hc (List.mem_cons_of_mem _ h)
    cases d with
    | nil => simp [hx]
    | cons y d => simp [ih hc']

/-- A text with a slash is no beginning of one without. -/
lemma not_prefix_of_slash (hd : '/' ∉ d) : ¬ c ++ '/' :: a <+: d :=
  fun h => hd (h.subset (List.mem_append_right _ List.mem_cons_self))

/-- **When one list of parts begins with another, as texts**: the last part may go on.

**Proof sketch.** By induction on the parts before the last one. A part is followed by a slash in
both texts, so it has to be the same part, by `prefix_slash_iff`; the last one is followed by
nothing, so it has to be the beginning of a part, by `prefix_part_iff`. -/
lemma intercalate_prefix_iff {init cs : List Text} {last : Text} (hinit : ∀ c ∈ init, IsPart c)
    (hlast : IsPart last) (hcs : ∀ c ∈ cs, IsPart c) :
    ['/'].intercalate (init ++ [last]) <+: ['/'].intercalate cs ↔
      ∃ s rest, cs = init ++ (last ++ s) :: rest := by
  induction init generalizing cs with
  | nil =>
    match cs with
    | [] =>
      have hne : last ≠ [] := hlast.1
      simp [List.intercalate, hne]
    | [d] =>
      simp only [List.nil_append, List.intercalate_singleton, List.cons.injEq]
      constructor
      · rintro ⟨s, rfl⟩
        exact ⟨s, [], rfl, rfl⟩
      · rintro ⟨s, rest, rfl, -⟩
        exact List.prefix_append _ _
    | d :: e :: cs =>
      rw [List.nil_append, List.intercalate_singleton, List.intercalate_cons_cons,
        List.append_assoc, List.singleton_append, prefix_part_iff hlast.2.2]
      simp only [List.nil_append, List.cons.injEq]
      constructor
      · rintro ⟨s, rfl⟩
        exact ⟨s, e :: cs, rfl, rfl⟩
      · rintro ⟨s, rest, rfl, -⟩
        exact List.prefix_append _ _
  | cons c init ih =>
    have hc : '/' ∉ c := (hinit c List.mem_cons_self).2.2
    have hinit' : ∀ c ∈ init, IsPart c := fun c hc => hinit c (List.mem_cons_of_mem _ hc)
    obtain ⟨x, xs, hx⟩ := List.exists_cons_of_ne_nil (List.concat_ne_nil last init)
    have htext : ['/'].intercalate (c :: init ++ [last]) =
        c ++ '/' :: ['/'].intercalate (init ++ [last]) := by
      rw [List.cons_append, hx, List.intercalate_cons_cons, List.append_assoc,
        List.singleton_append]
    rw [htext]
    match cs with
    | [] => simp [List.intercalate]
    | [d] =>
      have hd : '/' ∉ d := (hcs d List.mem_cons_self).2.2
      rw [List.intercalate_singleton]
      refine iff_of_false (not_prefix_of_slash hd) ?_
      rintro ⟨s, rest, h⟩
      cases init <;> simp at h
    | d :: e :: cs =>
      have hd : '/' ∉ d := (hcs d List.mem_cons_self).2.2
      rw [List.intercalate_cons_cons, List.append_assoc, List.singleton_append,
        prefix_slash_iff hc hd, ih hinit' fun c hc => hcs c (List.mem_cons_of_mem _ hc)]
      simp only [List.cons_append, List.cons.injEq]
      constructor
      · rintro ⟨rfl, s, rest, h⟩
        exact ⟨s, rest, rfl, h⟩
      · rintro ⟨s, rest, rfl, h⟩
        exact ⟨rfl, s, rest, h⟩

/-- **When the text of one path begins with the text of another.** -/
theorem toText_prefix_iff {p q : PurePath} {init : List Text} {last : Text}
    (hroot : p.root = ['/'] ∧ q.root = ['/']) (hp : p.parts = init ++ [last]) :
    p.toText <+: q.toText ↔ ∃ s rest, q.parts = init ++ (last ++ s) :: rest := by
  have hparts : ∀ c ∈ init ++ [last], IsPart c := hp ▸ p.parts_valid
  have hp' : p.toText = '/' :: ['/'].intercalate (init ++ [last]) := by
    rw [PurePath.toText, hroot.1, hp]
    rfl
  have hq' : q.toText = '/' :: ['/'].intercalate q.parts := by
    rw [PurePath.toText, hroot.2]
    rfl
  rw [hp', hq', List.cons_prefix_cons, eq_self, true_and,
    intercalate_prefix_iff (fun c hc => hparts c (List.mem_append_left _ hc))
      (hparts last (List.mem_append_right _ List.mem_cons_self)) q.parts_valid]

end Prefixes

end PosixPath

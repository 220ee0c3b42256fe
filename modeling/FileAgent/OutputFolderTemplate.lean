import FileAgent.Library.PosixPath

set_option relaxedAutoImplicit false
set_option autoImplicit false

/-!
# The folder a file is copied to

The template engine fills the values of a file name into a folder template, reads backslashes as
slashes and joins the destination directory, the folder and the name. The name is filled in before
backslashes are read, so that its own backslashes separate folders as well, and a part `..` that
arises there climbs.

## Main definitions

* `TemplateRule`, `OutputFolderTemplateEngine` — the rules, and the engine.
* `OutputFolderTemplateEngine.generateOutputPath` — the path of a file name.
* `OutputFolderTemplateEngine.filledTemplate` — the template with the values of a name in it.
* `IsFolder`, `Harmless` — the templates that are to be used, and the names that are harmless for
  one.

## Main results

* `confined_iff` — when the path of a name lies inside the destination directory, by the filled
  template.
* `splitOn_replace` — the parts of a path are replaced one by one.
* `isFolder_replace` — a plain value leaves a folder a folder.
* `confined_of_harmless` — a harmless name is copied to a place inside the destination directory.
-/

namespace FileAgent

open PosixPath

/-! ## Texts -/

/-- What the engine uses of the language's functions on texts: lower case, both ways to match a
pattern, and `int`. A pattern that is no regular expression has no result, a text that is no number
neither. -/
structure TextFunctions where
  lower : Text → Text
  fnmatch : Text → Text → Bool
  search : Text → Text → Option Bool
  int : Text → Option ℤ
  lower_nil : lower [] = []

/-- `replace` with the number of characters still to be passed over. -/
def replaceFrom (old new : Text) : ℕ → Text → Text
  | _, [] => []
  | k + 1, _ :: s => replaceFrom old new k s
  | 0, c :: s =>
    if old.isPrefixOf (c :: s) then new ++ replaceFrom old new (old.length - 1) s
    else c :: replaceFrom old new 0 s

/-- Every occurrence of `old` from left to right becomes `new`. -/
def replace (s old new : Text) : Text := replaceFrom old new 0 s

/-- The last place of a character. -/
def rfind (s : Text) (c : Char) : Option ℕ :=
  (s.reverse.findIdx? (· = c)).map (s.length - 1 - ·)

/-- A bound of a slice counts from the end when it is negative, and is brought into range. -/
def sliceBound (s : Text) (i : ℤ) : ℕ :=
  if i < 0 then (i + s.length).toNat else min i.toNat s.length

/-- The slice `s[start:stop]`. -/
def slice (s : Text) (start stop : ℤ) : Text :=
  (s.drop (sliceBound s start)).take (sliceBound s stop - sliceBound s start)

/-- The character at an index that counts from the end when it is negative. -/
def charAt (s : Text) (i : ℤ) : Option Char :=
  if i < -s.length then none else s[(if i < 0 then i + s.length else i).toNat]?

/-- The name of a path. -/
def nameOf (path : Text) : Text := (partsOf path).getLastD []

/-- The name without its suffix. -/
def stem (path : Text) : Text :=
  match rfind (nameOf path) '.' with
  | some i => if 0 < i ∧ i < (nameOf path).length - 1 then (nameOf path).take i else nameOf path
  | none => nameOf path

/-- The suffix of a name, from its last dot. -/
def suffix (path : Text) : Text :=
  match rfind (nameOf path) '.' with
  | some i => if 0 < i ∧ i < (nameOf path).length - 1 then (nameOf path).drop i else []
  | none => []

/-- What the scanner takes as an MXF file. -/
def isMxfFile (py : TextFunctions) (path : Text) : Bool :=
  py.lower (suffix path) = ".mxf".toList

/-! ## The engine -/

/-- `TemplateRule`. -/
structure TemplateRule where
  pattern : Text
  folderTemplate : Text
  priority : ℤ := 100
  isRegex : Bool := false

/-- Whether the rule is meant for a name. -/
def TemplateRule.matchesName (py : TextFunctions) (rule : TemplateRule) (filename : Text) :
    Option Bool :=
  if rule.isRegex then py.search rule.pattern filename
  else some (py.fnmatch (py.lower filename) (py.lower rule.pattern))

/-- The settings of the engine. -/
structure TemplateSettings where
  destinationDirectory : Text
  outputFolderTemplateEnabled : Bool := false
  outputFolderDefaultCategory : Text := "OTHER".toList
  outputFolderDateFormat : Text := "filename[0:6]".toList

/-- `OutputFolderTemplateEngine`: the settings and the rules parsed from them. -/
structure OutputFolderTemplateEngine where
  settings : TemplateSettings
  rules : List TemplateRule := []

namespace OutputFolderTemplateEngine

variable (py : TextFunctions) (engine : OutputFolderTemplateEngine)

/-- `is_enabled`. -/
def isEnabled : Bool := engine.settings.outputFolderTemplateEnabled

/-- The first rule that is meant for the name. -/
def findMatchingRule (filename : Text) : Option (Option TemplateRule) :=
  engine.rules.foldr
    (fun rule rest => do if ← rule.matchesName py filename then some (some rule) else rest)
    (some none)

/-- The date of a name by the slice or the index between `filename[` and `]`. -/
def dateOf (filename slicePart : Text) : Option Text :=
  if ':' ∈ slicePart then
    match slicePart.splitOn ':' with
    | [start, stop] => do
      let start ← if start = [] then some 0 else py.int start
      let stop ← if stop = [] then some (filename.length : ℤ) else py.int stop
      some (slice filename start stop)
    | _ => none
  else do
    let index ← py.int slicePart
    if index < filename.length then (charAt filename index).map fun c => [c] else some []

/-- The values of a name. The first six characters are its date where the format gives none. -/
def extractVariables (filename : Text) : List (Text × Text) :=
  let format := engine.settings.outputFolderDateFormat
  let date :=
    if "filename[".toList.isPrefixOf format ∧ "]".toList.isSuffixOf format then
      (dateOf py filename ((format.drop 9).dropLast)).getD (filename.take 6)
    else filename.take 6
  [("filename".toList, filename), ("name_no_ext".toList, stem filename), ("date".toList, date)]

/-- The template with the values in place of their names. -/
def fillTemplate (template : Text) (values : List (Text × Text)) : Text :=
  values.foldl (fun result v => replace result ('{' :: v.1 ++ ['}']) v.2) template

/-- The filled template, with slashes for its backslashes. -/
def substituteTemplate (template : Text) (values : List (Text × Text)) : Text :=
  replace (fillTemplate template values) ['\\'] ['/']

/-- The template for a name: that of its rule, or the default category and the date. -/
def folderTemplate (filename : Text) : Option Text := do
  match ← engine.findMatchingRule py filename with
  | some rule => some rule.folderTemplate
  | none => some (engine.settings.outputFolderDefaultCategory ++ "/{date}".toList)

/-- The path a file of this name is copied to. -/
def generateOutputPath (filename : Text) : Option Text :=
  if !engine.isEnabled then
    some (parse (join engine.settings.destinationDirectory filename)).toText
  else do
    let template ← engine.folderTemplate py filename
    let values := engine.extractVariables py filename
    let outputSubfolder := substituteTemplate template values
    some (parse (join (join engine.settings.destinationDirectory outputSubfolder) filename)).toText

/-- The template of a name with the values of the name in it. -/
def filledTemplate (filename : Text) : Option Text := do
  let template ← engine.folderTemplate py filename
  some (fillTemplate template (engine.extractVariables py filename))

/-- The folder templates: those of the rules, and the default one. -/
def templates : List Text :=
  engine.rules.map (·.folderTemplate) ++
    [engine.settings.outputFolderDefaultCategory ++ "/{date}".toList]

/-- The one of them that is meant for a name: the first whose rule matches, else the default one. -/
def templateFor (filename : Text) : Text :=
  ((engine.rules.find? fun rule => rule.matchesName py filename = some true).map
    (·.folderTemplate)).getD (engine.settings.outputFolderDefaultCategory ++ "/{date}".toList)

end OutputFolderTemplateEngine

/-! ## Where the path of a name lies -/

section Confinement

variable {py : TextFunctions} {filename : Text}

/-- Backslashes read as slashes. -/
def asSlashes (s : Text) : Text := s.map fun c => if c = '\\' then '/' else c

/-- The empty text has no backslash. -/
@[simp] lemma asSlashes_nil : asSlashes [] = [] := rfl

/-- A text with its first character apart. -/
@[simp] lemma asSlashes_cons (c : Char) (s : Text) :
    asSlashes (c :: s) = (if c = '\\' then '/' else c) :: asSlashes s := rfl

/-- Two texts in a row. -/
@[simp] lemma asSlashes_append (a b : Text) : asSlashes (a ++ b) = asSlashes a ++ asSlashes b :=
  List.map_append

/-- Replacing one character by another. -/
lemma replace_singleton (s : Text) : replace s ['\\'] ['/'] = asSlashes s := by
  unfold replace asSlashes
  induction s with
  | nil => rfl
  | cons c s ih =>
    by_cases hc : c = '\\'
    · subst hc
      simpa [replaceFrom] using ih
    · simpa [replaceFrom, hc, Ne.symm hc] using ih

/-- A visible MXF file has a name that is a part of a path, and does not lead up. -/
lemma isPart_filename (hslash : '/' ∉ filename) (hmxf : isMxfFile py filename)
    (hvisible : filename.head? ≠ some '.') : IsPart filename ∧ filename ≠ parent := by
  refine ⟨⟨?_, ?_, hslash⟩, ?_⟩
  · rintro rfl
    have hnone : py.lower [] = ".mxf".toList := of_decide_eq_true hmxf
    rw [py.lower_nil] at hnone
    exact absurd hnone (by decide)
  · rintro rfl
    exact hvisible rfl
  · rintro rfl
    exact hvisible rfl

/-- A path and its text have one normal form, when a name is at its end. -/
lemma normalize_toText_join {a : Text} (hname : IsPart filename) :
    normalize (parse (parse (join a filename)).toText) = (normalize (parse a)).step filename := by
  rw [parse_toText _ (parts_join_part_ne_nil hname), normalize_join_part hname]

/-- Without templates the path is the file name below the destination directory. -/
lemma generateOutputPath_disabled {engine : OutputFolderTemplateEngine}
    (h : engine.isEnabled = false) : engine.generateOutputPath py filename =
      some (parse (join engine.settings.destinationDirectory filename)).toText := by
  rw [OutputFolderTemplateEngine.generateOutputPath, h]
  rfl

/-- The path is that of the directory, the filled template and the name. -/
lemma generateOutputPath_enabled {engine : OutputFolderTemplateEngine}
    (h : engine.isEnabled = true) : engine.generateOutputPath py filename =
      (engine.filledTemplate py filename).map fun filled =>
        (parse (join (join engine.settings.destinationDirectory (asSlashes filled))
          filename)).toText := by
  rw [OutputFolderTemplateEngine.generateOutputPath, h,
    OutputFolderTemplateEngine.filledTemplate]
  cases engine.folderTemplate py filename with
  | none => rfl
  | some template =>
    simp only [OutputFolderTemplateEngine.substituteTemplate, replace_singleton]
    rfl

/-- A folder and a name below a directory lead inside it when the folder does not leave it. -/
lemma inside_join_iff {dest folder : Text} (hname : IsPart filename) (hdown : filename ≠ parent) :
    (normalize (parse (parse (join (join dest folder) filename)).toText)).Inside
        (normalize (parse dest)) ↔
      (normalize (parse folder)).StaysInside (normalize (parse dest)) := by
  rw [normalize_toText_join hname, normalize_join]
  exact NormalPath.inside_after_iff hdown

/-- **When a file is copied to a place inside the destination directory**: when the filled template
of its name, its backslashes read as slashes, stays inside that directory.

**Proof sketch.** Without templates the name alone leads inside. Otherwise the path is the name
behind the walk of the folder from the directory (`normalize_join`), and
`NormalPath.inside_after_iff` says when that is inside. -/
theorem confined_iff (engine : OutputFolderTemplateEngine) (hslash : '/' ∉ filename)
    (hmxf : isMxfFile py filename) (hvisible : filename.head? ≠ some '.') :
    (∀ path, engine.generateOutputPath py filename = some path →
      (normalize (parse path)).Inside
        (normalize (parse engine.settings.destinationDirectory))) ↔
    (engine.isEnabled → ∀ filled, engine.filledTemplate py filename = some filled →
      (normalize (parse (asSlashes filled))).StaysInside
        (normalize (parse engine.settings.destinationDirectory))) := by
  obtain ⟨hname, hdown⟩ := isPart_filename hslash hmxf hvisible
  cases henabled : engine.isEnabled with
  | false =>
    have hinside : ∀ path, engine.generateOutputPath py filename = some path →
        (normalize (parse path)).Inside
          (normalize (parse engine.settings.destinationDirectory)) := by
      intro path hpath
      rw [generateOutputPath_disabled henabled] at hpath
      obtain rfl := Option.some.inj hpath
      rw [normalize_toText_join hname]
      exact NormalPath.inside_step hdown
    exact ⟨fun _ hno => absurd hno Bool.false_ne_true, fun _ => hinside⟩
  | true =>
    rw [generateOutputPath_enabled henabled]
    simp only [Option.map_eq_some_iff, forall_exists_index, and_imp, forall_apply_eq_imp_iff₂,
      inside_join_iff hname hdown, forall_const]

end Confinement

/-! ## Replacing in a text -/

section Replacing

variable {old new s a b : Text}

/-- What is replaced lies on one side of a slash.

**Proof sketch.** By induction on the text before the slash. A match begins and ends on one side,
as the old text holds no slash; it does not begin at the slash, since it is not empty. -/
lemma replaceFrom_slash (hold : '/' ∉ old) (hne : old ≠ []) (a b : Text) (k : ℕ)
    (hk : k ≤ a.length) :
    replaceFrom old new k (a ++ '/' :: b) =
      replaceFrom old new k a ++ '/' :: replace b old new := by
  induction a generalizing k with
  | nil =>
    obtain rfl : k = 0 := Nat.le_zero.mp hk
    have hno : old.isPrefixOf ('/' :: b) = false := by
      cases old with
      | nil => exact absurd rfl hne
      | cons x old =>
        have hx : x ≠ '/' := fun h => hold (h ▸ List.mem_cons_self)
        simp [List.isPrefixOf, hx]
    simp [replaceFrom, hno, replace]
  | cons x a ih =>
    cases k with
    | succ k => simpa [replaceFrom] using ih k (Nat.le_of_succ_le_succ hk)
    | zero =>
      have hprefix : old.isPrefixOf (x :: a ++ '/' :: b) = old.isPrefixOf (x :: a) := by
        rw [Bool.eq_iff_iff, List.isPrefixOf_iff_prefix, List.isPrefixOf_iff_prefix]
        exact prefix_part_iff hold
      rw [List.cons_append] at hprefix
      simp only [List.cons_append, replaceFrom, hprefix]
      split_ifs with hmatch
      · have hlen : old.length ≤ (x :: a).length := (List.isPrefixOf_iff_prefix.mp hmatch).length_le
        rw [List.length_cons] at hlen
        rw [ih (old.length - 1) (by omega), List.append_assoc]
      · rw [ih 0 (Nat.zero_le _), List.cons_append]

@[inherit_doc replaceFrom_slash]
lemma replace_slash (hold : '/' ∉ old) (hne : old ≠ []) (a b : Text) :
    replace (a ++ '/' :: b) old new = replace a old new ++ '/' :: replace b old new :=
  replaceFrom_slash hold hne a b 0 (Nat.zero_le _)

/-- Nothing is replaced, or the new text is found in the result. -/
lemma replace_eq_or_found (s : Text) : ∀ k, replaceFrom old new k s = s.drop k ∨
    new <:+: replaceFrom old new k s := by
  induction s with
  | nil => intro k; cases k <;> exact .inl rfl
  | cons x s ih =>
    intro k
    cases k with
    | succ k => simpa [replaceFrom] using ih k
    | zero =>
      simp only [replaceFrom, List.drop_zero]
      split_ifs
      · exact .inr (List.prefix_append _ _).isInfix
      · rcases ih 0 with hsame | hnew
        · exact .inl (by rw [hsame, List.drop_zero])
        · exact .inr (List.infix_cons hnew)

/-- A text in which the old one is not found stays as it is. -/
lemma replace_eq_self (h : ¬ old <:+: s) : replace s old new = s := by
  unfold replace
  induction s with
  | nil => rfl
  | cons x s ih =>
    have hprefix : old.isPrefixOf (x :: s) = false := by
      rw [Bool.eq_false_iff, ne_eq, List.isPrefixOf_iff_prefix]
      exact fun hp => h hp.isInfix
    simp only [replaceFrom, hprefix, Bool.false_eq_true, if_false]
    rw [ih fun hinfix => h (List.infix_cons hinfix)]

/-- A character of the result is one of the text or of the new one. -/
lemma mem_replaceFrom {c : Char} (s : Text) :
    ∀ k, c ∈ replaceFrom old new k s → c ∈ s ∨ c ∈ new := by
  induction s with
  | nil => intro k h; cases k <;> cases h
  | cons x s ih =>
    intro k h
    cases k with
    | succ k => exact (ih k h).imp_left (List.mem_cons_of_mem _)
    | zero =>
      simp only [replaceFrom] at h
      split_ifs at h
      · rcases List.mem_append.mp h with h | h
        · exact .inr h
        · exact (ih _ h).imp_left (List.mem_cons_of_mem _)
      · rcases List.mem_cons.mp h with rfl | h
        · exact .inl List.mem_cons_self
        · exact (ih _ h).imp_left (List.mem_cons_of_mem _)

/-- Texts with slashes between them are replaced one by one. -/
lemma replace_intercalate (hold : '/' ∉ old) (hne : old ≠ []) {cs : List Text} (hcs : cs ≠ []) :
    replace (['/'].intercalate cs) old new = ['/'].intercalate (cs.map (replace · old new)) := by
  induction cs with
  | nil => exact absurd rfl hcs
  | cons c cs ih =>
    cases cs with
    | nil => simp [List.intercalate]
    | cons d cs =>
      rw [List.intercalate_cons_cons, List.append_assoc, List.singleton_append,
        replace_slash hold hne, ih (List.cons_ne_nil _ _), List.map_cons, List.map_cons,
        List.map_cons, List.intercalate_cons_cons, List.append_assoc, List.singleton_append]

/-- **The parts between the slashes are replaced one by one.** -/
lemma splitOn_replace (hold : '/' ∉ old) (hne : old ≠ []) (hnew : '/' ∉ new) (s : Text) :
    (replace s old new).splitOn '/' = (s.splitOn '/').map (replace · old new) := by
  have hcs : s.splitOn '/' ≠ [] := List.splitOn_ne_nil _ _
  calc (replace s old new).splitOn '/'
      = (replace (['/'].intercalate (s.splitOn '/')) old new).splitOn '/' := by
        rw [List.intercalate_splitOn]
    _ = (['/'].intercalate ((s.splitOn '/').map (replace · old new))).splitOn '/' := by
        rw [replace_intercalate hold hne hcs]
    _ = (s.splitOn '/').map (replace · old new) := by
        refine List.splitOn_intercalate '/' ?_ (fun hnil => hcs (List.map_eq_nil_iff.mp hnil))
        intro c hc
        obtain ⟨d, hd, rfl⟩ := List.mem_map.mp hc
        exact fun hslash => (mem_replaceFrom d 0 hslash).elim (not_mem_of_mem_splitOn s d hd) hnew

/-- A text without separators is looked for in any reading of them. -/
lemma prefix_asSlashes (hold : '/' ∉ old ∧ '\\' ∉ old) : old <+: asSlashes s ↔ old <+: s := by
  induction old generalizing s with
  | nil => simp
  | cons x old ih =>
    have hslash : x ≠ '/' := fun h => hold.1 (h ▸ List.mem_cons_self)
    have hback : x ≠ '\\' := fun h => hold.2 (h ▸ List.mem_cons_self)
    have hold' : '/' ∉ old ∧ '\\' ∉ old :=
      ⟨fun h => hold.1 (List.mem_cons_of_mem _ h), fun h => hold.2 (List.mem_cons_of_mem _ h)⟩
    cases s with
    | nil => simp
    | cons y s =>
      rw [asSlashes_cons, List.cons_prefix_cons, List.cons_prefix_cons, ih hold']
      by_cases hy : y = '\\'
      · simp [hy, hslash, hback]
      · simp [hy]

/-- **Backslashes that are in neither text** are read as slashes before or after the replacement. -/
lemma asSlashes_replace (hold : '/' ∉ old ∧ '\\' ∉ old) (hnew : '\\' ∉ new) (s : Text) :
    asSlashes (replace s old new) = replace (asSlashes s) old new := by
  have hsame : asSlashes new = new := by
    refine (List.map_congr_left fun c hc => ?_).trans (List.map_id new)
    exact if_neg (ne_of_mem_of_not_mem hc hnew)
  suffices h : ∀ k, asSlashes (replaceFrom old new k s) = replaceFrom old new k (asSlashes s) from
    h 0
  induction s with
  | nil => intro k; cases k <;> rfl
  | cons x s ih =>
    intro k
    cases k with
    | succ k => exact ih k
    | zero =>
      have hcase : old.isPrefixOf (asSlashes (x :: s)) = old.isPrefixOf (x :: s) := by
        rw [Bool.eq_iff_iff, List.isPrefixOf_iff_prefix, List.isPrefixOf_iff_prefix]
        exact prefix_asSlashes hold
      rw [asSlashes_cons] at hcase ⊢
      by_cases hmatch : old.isPrefixOf (x :: s) = true
      · rw [replaceFrom, if_pos hmatch, replaceFrom, if_pos (hcase ▸ hmatch), asSlashes_append,
          hsame, ih]
      · rw [replaceFrom, if_neg hmatch, replaceFrom, if_neg (hcase ▸ hmatch), asSlashes_cons, ih]

/-! ### Relative folders -/

/-- A folder template that is relative and has no part `..`, with both separators. -/
def IsFolder (s : Text) : Prop :=
  (asSlashes s).head? ≠ some '/' ∧ parent ∉ partsOf (asSlashes s)

instance (s : Text) : Decidable (IsFolder s) := inferInstanceAs (Decidable (_ ∧ _))

/-- A value that adds no separator, and is no part `..` or shorter. -/
def IsPlainValue (v : Text) : Prop := '/' ∉ v ∧ '\\' ∉ v ∧ ∃ c ∈ v, c ≠ '.'

/-- **A plain value leaves a folder a folder.**

**Proof sketch.** The parts are replaced one by one (`splitOn_replace`). One that is changed
contains the value, so it is not `..`, and the text does not begin with a slash where the value
begins. -/
lemma isFolder_replace (hold : '/' ∉ old ∧ '\\' ∉ old) (hne : old ≠ []) (hnew : IsPlainValue new)
    (hs : IsFolder s) : IsFolder (replace s old new) := by
  obtain ⟨hslash, hback, c, hc, hdot⟩ := hnew
  rw [IsFolder, asSlashes_replace hold hback]
  constructor
  · cases hcase : asSlashes s with
    | nil => simp [replace, replaceFrom]
    | cons x rest =>
      have hx : x ≠ '/' := by
        have hhead := hs.1
        rw [hcase] at hhead
        simpa using hhead
      simp only [replace, replaceFrom]
      split_ifs
      · rw [List.head?_append_of_ne_nil _ (List.ne_nil_of_mem hc)]
        exact fun h => hslash (List.mem_of_head? h)
      · simpa using hx
  · intro hparent
    obtain ⟨hmem, -⟩ := List.mem_filter.mp hparent
    rw [splitOn_replace hold.1 hne hslash] at hmem
    obtain ⟨d, hd, hreplaced⟩ := List.mem_map.mp hmem
    have hdrop : replaceFrom old new 0 d = d.drop 0 ∨ new <:+: replaceFrom old new 0 d :=
      replace_eq_or_found d 0
    rcases hdrop with hsame | hfound
    · rw [List.drop_zero] at hsame
      have hd' : d = parent := hsame.symm.trans hreplaced
      exact hs.2 (List.mem_filter.mpr ⟨hd' ▸ hd, by decide⟩)
    · have hmem : c ∈ parent := hreplaced ▸ hfound.subset hc
      simp [hdot] at hmem

/-- A folder leads to a place inside the directory, or to the directory itself. -/
lemma IsFolder.staysInside (h : IsFolder s) (d : NormalPath) :
    (normalize (parse (asSlashes s))).StaysInside d :=
  staysInside_of_no_parent h.1 h.2

end Replacing

/-! ## Names that are harmless -/

/-- The positions of a name that the part of a date format between `filename[` and `]` names, from
the first up to the second. -/
def namedPositions (py : TextFunctions) (filename slicePart : Text) : Option (ℕ × ℕ) :=
  if ':' ∈ slicePart then
    match slicePart.splitOn ':' with
    | [start, stop] => do
      let start ← if start = [] then some 0 else py.int start
      let stop ← if stop = [] then some (filename.length : ℤ) else py.int stop
      some (sliceBound filename start, sliceBound filename stop)
    | _ => none
  else do
    let index ← py.int slicePart
    if index < -filename.length then none
    else
      let i := (if index < 0 then index + filename.length else index).toNat
      some (i, i + 1)

/-- The positions of a name that a date format names: the first six where it names none. -/
def datePositions (py : TextFunctions) (format filename : Text) : ℕ × ℕ :=
  if "filename[".toList.isPrefixOf format ∧ "]".toList.isSuffixOf format then
    (namedPositions py filename ((format.drop 9).dropLast)).getD (0, 6)
  else (0, 6)

/-- At the positions of its date, a name has no backslash, and not only dots. -/
def HasPlainDate (py : TextFunctions) (format filename : Text) : Prop :=
  let positions := datePositions py format filename
  (∃ i < positions.2, positions.1 ≤ i ∧ ∃ c ∈ filename[i]?, c ≠ '.') ∧
    ∀ i < positions.2, positions.1 ≤ i → filename[i]? ≠ some '\\'

instance (py : TextFunctions) (format filename : Text) :
    Decidable (HasPlainDate py format filename) :=
  inferInstanceAs (Decidable ((∃ i < (datePositions py format filename).2, _ ∧ _) ∧
    ∀ i < (datePositions py format filename).2, _ → _))

/-- The template asks for the value of `key`. -/
def Mentions (template key : Text) : Prop := '{' :: key ++ ['}'] <:+: template

instance (template key : Text) : Decidable (Mentions template key) :=
  inferInstanceAs (Decidable (_ <:+: _))

/-- A name is harmless for a template that does not ask for it, or if it has no backslash; the same
for its date, which is to be more than dots then. -/
def Harmless (py : TextFunctions) (format filename template : Text) : Prop :=
  (Mentions template "filename".toList ∨ Mentions template "name_no_ext".toList →
      '\\' ∉ filename ∧ HasPlainDate py format filename) ∧
    (Mentions template "date".toList → HasPlainDate py format filename)

instance (py : TextFunctions) (format filename template : Text) :
    Decidable (Harmless py format filename template) :=
  inferInstanceAs (Decidable ((_ → _ ∧ _) ∧ (_ → _)))

section Harmless

variable {py : TextFunctions} {filename : Text} {engine : OutputFolderTemplateEngine}

/-- The text between two positions. -/
def textBetween (s : Text) (positions : ℕ × ℕ) : Text :=
  (s.drop positions.1).take (positions.2 - positions.1)

/-- The date named by a format is the text at its positions. -/
lemma dateOf_eq (py : TextFunctions) (filename slicePart : Text) :
    OutputFolderTemplateEngine.dateOf py filename slicePart =
      (namedPositions py filename slicePart).map (textBetween filename) := by
  unfold OutputFolderTemplateEngine.dateOf namedPositions
  split_ifs
  · split
    · rename_i start stop _
      by_cases hstart : start = [] <;> by_cases hstop : stop = [] <;>
        cases py.int start <;> cases py.int stop <;> simp [hstart, hstop, slice, textBetween]
    · rfl
  · cases py.int slicePart with
    | none => rfl
    | some index =>
      by_cases hlow : index < -filename.length
      · have hlt : index < filename.length := by omega
        simp [hlow, hlt, charAt]
      · by_cases hlt : index < filename.length
        · have hpos : (if index < 0 then index + filename.length else index).toNat <
              filename.length := by
            split_ifs <;> omega
          simp [hlow, hlt, charAt, hpos, textBetween, List.take_one]
        · have hnonneg : ¬ index < 0 := by omega
          have hlen : filename.length ≤ index.toNat := by omega
          simp [hlow, hlt, hnonneg, textBetween, hlen]

/-- The date of a name is the text at the positions of its format. -/
lemma extractVariables_eq (engine : OutputFolderTemplateEngine) (filename : Text) :
    engine.extractVariables py filename =
      [("filename".toList, filename), ("name_no_ext".toList, stem filename),
        ("date".toList, textBetween filename
          (datePositions py engine.settings.outputFolderDateFormat filename))] := by
  unfold OutputFolderTemplateEngine.extractVariables datePositions
  dsimp only
  rw [dateOf_eq]
  split_ifs
  · cases namedPositions py filename ((engine.settings.outputFolderDateFormat.drop 9).dropLast) <;>
      rfl
  · rfl

/-- The name without its suffix begins like the name. -/
lemma stem_part (hname : IsPart filename) :
    stem filename <+: filename ∧ (stem filename).head? = filename.head? := by
  have hself : nameOf filename = filename := by rw [nameOf, partsOf_part hname]; rfl
  unfold stem
  rw [hself]
  split
  · rename_i i _
    split_ifs with hi
    · refine ⟨List.take_prefix _ _, ?_⟩
      rw [List.head?_take, if_neg hi.1.ne']
    · exact ⟨List.prefix_rfl, rfl⟩
  · exact ⟨List.prefix_rfl, rfl⟩

/-- A beginning of a visible name without backslashes is a plain value. -/
lemma isPlainValue_of_prefix {v : Text} (hslash : '/' ∉ filename) (hback : '\\' ∉ filename)
    (hvisible : filename.head? ≠ some '.') (hname : filename ≠ []) (hv : v <+: filename)
    (hhead : v.head? = filename.head?) : IsPlainValue v := by
  refine ⟨fun h => hslash (hv.subset h), fun h => hback (hv.subset h), ?_⟩
  obtain ⟨c, rest, rfl⟩ := List.exists_cons_of_ne_nil hname
  refine ⟨c, List.mem_of_head? (hhead.trans rfl), fun hc => hvisible ?_⟩
  rw [hc]
  rfl

/-- The date is a plain value where the positions of the format name one. -/
lemma isPlainValue_date {format : Text} (hslash : '/' ∉ filename)
    (h : HasPlainDate py format filename) :
    IsPlainValue (textBetween filename (datePositions py format filename)) := by
  obtain ⟨⟨i, hto, hfrom, c, hc, hdot⟩, hback⟩ := h
  have hget : ∀ j, (textBetween filename (datePositions py format filename))[j]? =
      if j < (datePositions py format filename).2 - (datePositions py format filename).1 then
        filename[(datePositions py format filename).1 + j]? else none := by
    intro j
    rw [textBetween, List.getElem?_take, List.getElem?_drop]
  refine ⟨fun hmem => ?_, fun hmem => ?_, c, ?_, hdot⟩
  · exact hslash (List.mem_of_mem_drop (List.mem_of_mem_take hmem))
  · obtain ⟨j, hj⟩ := List.mem_iff_getElem?.mp hmem
    rw [hget] at hj
    split_ifs at hj with hlt
    exact hback _ (by omega) (Nat.le_add_right _ _) hj
  · refine List.mem_of_getElem? (i := i - (datePositions py format filename).1) ?_
    rw [hget, if_pos (by omega), Nat.add_sub_cancel' hfrom]
    exact hc

/-- **The filled template of a harmless name is a folder.**

**Proof sketch.** Each value either is not asked for, and the template stays as it is, or is plain,
and then it leaves the folder a folder (`isFolder_replace`). A plain value can bring in the text of
a later key; the value of that one is plain then, too. -/
lemma isFolder_fillTemplate {template : Text} (hslash : '/' ∉ filename)
    (hvisible : filename.head? ≠ some '.') (hname : IsPart filename) (htemplate : IsFolder template)
    (hharmless : Harmless py engine.settings.outputFolderDateFormat filename template) :
    IsFolder (OutputFolderTemplateEngine.fillTemplate template
      (engine.extractVariables py filename)) := by
  obtain ⟨hnames, hdate⟩ := hharmless
  have hfill : ∀ (key v s : Text), '/' ∉ key ∧ '\\' ∉ key → IsFolder s →
      (Mentions s key → IsPlainValue v) → IsFolder (replace s ('{' :: key ++ ['}']) v) := by
    intro key v s hkey hs hplain
    by_cases hmentions : Mentions s key
    · refine isFolder_replace ?_ (by simp) (hplain hmentions) hs
      simpa using hkey
    · rwa [replace_eq_self hmentions]
  rw [extractVariables_eq]
  simp only [OutputFolderTemplateEngine.fillTemplate, List.foldl_cons, List.foldl_nil]
  by_cases hasks : Mentions template "filename".toList ∨ Mentions template "name_no_ext".toList
  · obtain ⟨hback, hplain⟩ := hnames hasks
    have hwhole := isPlainValue_of_prefix hslash hback hvisible hname.1 List.prefix_rfl rfl
    have hstem := isPlainValue_of_prefix hslash hback hvisible hname.1 (stem_part hname).1
      (stem_part hname).2
    refine hfill _ _ _ (by decide) (hfill _ _ _ (by decide) (hfill _ _ _ (by decide) htemplate
      fun _ => hwhole) fun _ => hstem) fun _ => isPlainValue_date hslash hplain
  · obtain ⟨hno, hno'⟩ := not_or.mp hasks
    rw [replace_eq_self hno, replace_eq_self hno']
    exact hfill _ _ _ (by decide) htemplate fun hmentions =>
      isPlainValue_date hslash (hdate hmentions)

/-- The rule that the engine finds is the first one that matches. -/
lemma eq_find_of_findMatchingRule {found : Option TemplateRule}
    (h : engine.findMatchingRule py filename = some found) :
    found = engine.rules.find? fun rule => rule.matchesName py filename = some true := by
  unfold OutputFolderTemplateEngine.findMatchingRule at h
  generalize engine.rules = rules at h ⊢
  induction rules generalizing found with
  | nil =>
    cases h
    rfl
  | cons rule rules ih =>
    rw [List.foldr_cons] at h
    cases hmatches : rule.matchesName py filename with
    | none =>
      rw [hmatches] at h
      cases h
    | some b =>
      rw [hmatches] at h
      cases b with
      | true =>
        cases h
        rw [List.find?_cons_of_pos (by simp [hmatches])]
      | false =>
        rw [List.find?_cons_of_neg (by simp [hmatches])]
        exact ih h

/-- The template that the engine takes is the one meant for the name. -/
lemma eq_templateFor {template : Text} (h : engine.folderTemplate py filename = some template) :
    template = engine.templateFor py filename := by
  unfold OutputFolderTemplateEngine.folderTemplate at h
  unfold OutputFolderTemplateEngine.templateFor
  cases hfound : engine.findMatchingRule py filename with
  | none =>
    rw [hfound] at h
    cases h
  | some found =>
    rw [hfound] at h
    rw [← eq_find_of_findMatchingRule hfound]
    cases found <;> exact (Option.some.inj h).symm

/-- The template of a file is one of those in the settings. -/
lemma templateFor_mem : engine.templateFor py filename ∈ engine.templates := by
  unfold OutputFolderTemplateEngine.templateFor OutputFolderTemplateEngine.templates
  cases hfound : engine.rules.find? fun rule => rule.matchesName py filename = some true with
  | none => exact List.mem_append_right _ List.mem_cons_self
  | some rule =>
    exact List.mem_append_left _ (List.mem_map.mpr ⟨rule, List.mem_of_find?_eq_some hfound, rfl⟩)

/-- **A harmless name is copied to a place inside the destination directory.**

**Proof sketch.** With its values the template is still a folder (`isFolder_fillTemplate`), and a
folder stays inside (`confined_iff`). -/
theorem confined_of_harmless (engine : OutputFolderTemplateEngine) (hslash : '/' ∉ filename)
    (hmxf : isMxfFile py filename) (hvisible : filename.head? ≠ some '.')
    (hfolders : ∀ template ∈ engine.templates, IsFolder template)
    (hharmless : engine.isEnabled → Harmless py engine.settings.outputFolderDateFormat filename
      (engine.templateFor py filename)) :
    ∀ path, engine.generateOutputPath py filename = some path →
      (normalize (parse path)).Inside
        (normalize (parse engine.settings.destinationDirectory)) := by
  refine (confined_iff engine hslash hmxf hvisible).mpr fun henabled filled hfilled => ?_
  unfold OutputFolderTemplateEngine.filledTemplate at hfilled
  cases htemplate : engine.folderTemplate py filename with
  | none => rw [htemplate] at hfilled; cases hfilled
  | some template =>
    rw [htemplate] at hfilled
    obtain rfl := Option.some.inj hfilled
    rw [eq_templateFor htemplate]
    exact (isFolder_fillTemplate hslash hvisible (isPart_filename hslash hmxf hvisible).1
      (hfolders _ templateFor_mem) (hharmless henabled)).staysInside _

/-- The text functions on plain names: digits are numbers, and no pattern matches. -/
def plainText : TextFunctions where
  lower s := s.map Char.toLower
  fnmatch _ _ := false
  search _ _ := some false
  int s := if s ≠ [] ∧ s.all Char.isDigit then
    some (s.foldl (fun n c => 10 * n + (c.toNat - '0'.toNat)) 0 : ℕ) else none
  lower_nil := rfl

/-- Templates switched on, with the default category and date. -/
def defaultEngine : OutputFolderTemplateEngine where
  settings := { destinationDirectory := "/dst".toList, outputFolderTemplateEnabled := true }

/-- The same, with a rule for camera files. -/
def cameraEngine : OutputFolderTemplateEngine where
  settings := defaultEngine.settings
  rules := [{ pattern := "Cam".toList, folderTemplate := "KAMERA\\{date}".toList, isRegex := true }]

/-- The patterns of all rules are found in all names. -/
def matchingText : TextFunctions := { plainText with search := fun _ _ => some true }

/-- A camera file is copied into `/dst/KAMERA/251022`. -/
theorem confined_of_harmless_camera :
    cameraEngine.generateOutputPath matchingText "251022_Cam.mxf".toList =
        some "/dst/KAMERA/251022/251022_Cam.mxf".toList ∧
      (normalize (parse "/dst/KAMERA/251022/251022_Cam.mxf".toList)).Inside
        (normalize (parse cameraEngine.settings.destinationDirectory)) := by
  have hpath : cameraEngine.generateOutputPath matchingText "251022_Cam.mxf".toList =
      some "/dst/KAMERA/251022/251022_Cam.mxf".toList := by decide +kernel
  have hpositions : datePositions matchingText cameraEngine.settings.outputFolderDateFormat
      "251022_Cam.mxf".toList = (0, 6) := by decide +kernel
  have hdate : HasPlainDate matchingText cameraEngine.settings.outputFolderDateFormat
      "251022_Cam.mxf".toList := by
    rw [HasPlainDate, hpositions]
    exact ⟨⟨0, by decide, by decide, '2', rfl, by decide⟩, by decide⟩
  exact ⟨hpath, confined_of_harmless cameraEngine (by decide) (by decide +kernel) (by decide)
    (by decide +kernel) (fun _ => ⟨fun _ => ⟨by decide, hdate⟩, fun _ => hdate⟩) _ hpath⟩

/-- A name whose backslashes climb: it is copied to the directory above `/dst`. -/
theorem not_confined :
    ¬ ∀ (py : TextFunctions) (engine : OutputFolderTemplateEngine) (filename : Text),
      '/' ∉ filename → isMxfFile py filename → filename.head? ≠ some '.' →
      (∀ template ∈ engine.templates, IsFolder template) →
      ∀ path, engine.generateOutputPath py filename = some path →
        (normalize (parse path)).Inside
          (normalize (parse engine.settings.destinationDirectory)) := by
  intro hall
  have hinside := hall plainText defaultEngine "\\..\\..\\x.mxf".toList (by decide)
    (by decide +kernel) (by decide) (by decide +kernel)
    "/dst/OTHER/../../\\..\\..\\x.mxf".toList (by decide +kernel)
  obtain ⟨-, -, rest, -, hnames⟩ := hinside
  have hfirst : (normalize (parse "/dst/OTHER/../../\\..\\..\\x.mxf".toList)).names.head? =
      some "dst".toList := by
    rw [hnames]
    rfl
  revert hfirst
  decide +kernel

end Harmless

end FileAgent

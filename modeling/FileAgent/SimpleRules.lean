import FileAgent.TemplateRules

set_option relaxedAutoImplicit false
set_option autoImplicit false

/-!
# Rules written as entries

The simple format of the template rules has one entry for each rule, and each entry a part for the
pattern and one for the folder. Reading splits the text at its commas, the entries at their
semicolons and the parts at their first colon, and trims on the way.

## Main definitions

* `ruleText` — the text of a list of patterns and folders.
* `PlainText` — the texts that may stand in it.
* `findMatchingRule` — the first rule that is meant for a name.

## Main results

* `simpleRules_ruleText` — reading the text gives the list back.
* `parse_ruleText` — and so do the engine's rules, which are tried in the order of the list.
-/

namespace FileAgent

open PosixPath JsonOrder

/-! ## Rules of any values -/

/-- What a condition makes of a value. -/
def truth : Value → Bool
  | .null => false
  | .bool b => b
  | .number x => x ≠ some 0
  | .string s => s ≠ []
  | .array items => !items.isEmpty
  | .object fields => !fields.isEmpty

section Matching

variable (py : TextFunctions)

/-- Whether the rule is meant for a name. A pattern that is no text raises an error. -/
def ParsedRule.matchesName (rule : ParsedRule) (filename : Text) : Option Bool :=
  match rule.pattern with
  | .string pattern =>
    if truth rule.isRegex then py.search pattern filename
    else some (py.fnmatch (py.lower filename) (py.lower pattern))
  | _ => none

/-- The first of the rules that is meant for the name. -/
def findMatchingRule (rules : List ParsedRule) (filename : Text) : Option (Option ParsedRule) :=
  rules.foldr
    (fun rule rest => do if ← rule.matchesName py filename then some (some rule) else rest)
    (some none)

/-- A rule with values of the declared types, among those with values of any type. -/
def TemplateRule.parsed (rule : TemplateRule) : ParsedRule where
  pattern := .string rule.pattern
  folderTemplate := .string rule.folderTemplate
  priority := .number (some (((rule.priority : ℚ) : WithTop ℚ) : WithBot (WithTop ℚ)))
  isRegex := .bool rule.isRegex

/-- The engine's search is the one over values of any type. -/
lemma findMatchingRule_parsed (engine : OutputFolderTemplateEngine) (filename : Text) :
    findMatchingRule py (engine.rules.map TemplateRule.parsed) filename =
      (engine.findMatchingRule py filename).map (Option.map TemplateRule.parsed) := by
  rw [findMatchingRule, OutputFolderTemplateEngine.findMatchingRule]
  induction engine.rules with
  | nil => rfl
  | cons rule rules ih =>
    have hmatches : rule.parsed.matchesName py filename = rule.matchesName py filename := rfl
    rw [List.map_cons, List.foldr_cons, List.foldr_cons, ih, hmatches]
    cases rule.matchesName py filename with
    | none => rfl
    | some b => cases b <;> rfl

end Matching

/-! ## The text of a list -/

/-- A text without the separators, and without white space at its ends. -/
structure PlainText (s : Text) : Prop where
  comma : ',' ∉ s
  semicolon : ';' ∉ s
  head : s.head?.any isSpace = false
  last : s.getLast?.any isSpace = false

instance (s : Text) : Decidable (PlainText s) :=
  decidable_of_iff (',' ∉ s ∧ ';' ∉ s ∧ s.head?.any isSpace = false ∧
      s.getLast?.any isSpace = false)
    ⟨fun h => ⟨h.1, h.2.1, h.2.2.1, h.2.2.2⟩, fun h => ⟨h.comma, h.semicolon, h.head, h.last⟩⟩

/-- The part of an entry for a key. -/
def partText (key value : Text) : Text := key ++ ':' :: value

/-- The entry of a pattern and a folder. -/
def entryText (e : Text × Text) : Text :=
  partText "pattern".toList e.1 ++ ';' :: partText "folder".toList e.2

/-- The entries between commas. -/
def ruleText (entries : List (Text × Text)) : Text := [','].intercalate (entries.map entryText)

/-- The rule of a pattern and a folder at a position. -/
def listedRule (e : (Text × Text) × ℕ) : ParsedRule where
  pattern := .string e.1.1
  folderTemplate := .string e.1.2
  priority := position e.2

section Text

variable {key value s : Text} {e : Text × Text} {entries : List (Text × Text)}

/-- A text without blanks at its ends is its own `strip`. -/
lemma strip_eq_self (hhead : s.head?.any isSpace = false)
    (hlast : s.getLast?.any isSpace = false) : strip s = s := by
  have hdrop : s.dropWhile isSpace = s := by
    cases s with
    | nil => rfl
    | cons c s => exact List.dropWhile_cons_of_neg (Bool.eq_false_iff.mp hhead)
  rw [strip, hdrop, List.rdropWhile_eq_self_iff]
  intro hne
  rw [List.getLast?_eq_some_getLast hne] at hlast
  exact Bool.eq_false_iff.mp hlast

/-- A plain text is its own `strip`. -/
lemma PlainText.strip_eq (h : PlainText s) : strip s = s := strip_eq_self h.head h.last

/-- A part is split at its first colon. -/
lemma splitColon_partText (hkey : ':' ∉ key) : splitColon (partText key value) = (key, value) := by
  have hne : ∀ c ∈ key, (decide (c ≠ ':')) = true :=
    fun c hc => decide_eq_true fun heq => hkey (heq ▸ hc)
  rw [splitColon, partText, List.takeWhile_append_of_pos hne, List.dropWhile_append_of_pos hne]
  simp

/-- The part of the pattern is read as the pattern. -/
lemma readPart_pattern (hvalue : PlainText value) :
    readPart e (partText "pattern".toList value) = (value, e.2) := by
  have hmem : ':' ∈ partText "pattern".toList value := by simp [partText]
  have hkey : strip "pattern".toList = "pattern".toList := by decide
  rw [readPart, if_pos hmem, splitColon_partText (by decide)]
  simp only [hkey, if_true, hvalue.strip_eq]

/-- The part of the folder is read as the folder. -/
lemma readPart_folder (hvalue : PlainText value) :
    readPart e (partText "folder".toList value) = (e.1, value) := by
  have hmem : ':' ∈ partText "folder".toList value := by simp [partText]
  have hkey : strip "folder".toList = "folder".toList := by decide
  have hne : "folder".toList ≠ "pattern".toList := by decide
  rw [readPart, if_pos hmem, splitColon_partText (by decide)]
  simp only [hkey, hne, if_false, if_true, hvalue.strip_eq]

/-- A part of an entry holds no separator. -/
lemma notMem_partText {c : Char} (hkey : c ∉ key) (hc : c ≠ ':') (hvalue : c ∉ value) :
    c ∉ partText key value := by
  simp only [partText, List.mem_append, List.mem_cons, not_or]
  exact ⟨hkey, hc, hvalue⟩

/-- Entries are not trimmed: they begin with a key and end with a colon or a folder. -/
lemma strip_entryText (hfolder : PlainText e.2) : strip (entryText e) = entryText e := by
  have hhead : (entryText e).head? = some 'p' := rfl
  have hsplit : entryText e =
      (partText "pattern".toList e.1 ++ ';' :: "folder".toList) ++ (':' :: e.2) := by
    simp [entryText, partText]
  refine strip_eq_self (by rw [hhead]; decide) ?_
  rw [hsplit, List.getLast?_append_cons, List.getLast?_cons]
  cases hlast : e.2.getLast? with
  | none => decide
  | some c =>
    have hfolderLast := hfolder.last
    rw [hlast] at hfolderLast
    exact hfolderLast

/-- An entry of plain texts holds no comma. -/
lemma comma_notMem_entryText (hpattern : PlainText e.1) (hfolder : PlainText e.2) :
    ',' ∉ entryText e := by
  simp only [entryText, List.mem_append, List.mem_cons, not_or]
  exact ⟨notMem_partText (by decide) (by decide) hpattern.comma, by decide,
    notMem_partText (by decide) (by decide) hfolder.comma⟩

/-- The semicolon of an entry parts its pattern from its folder. -/
lemma splitOn_entryText (hpattern : PlainText e.1) (hfolder : PlainText e.2) :
    (entryText e).splitOn ';' =
      [partText "pattern".toList e.1, partText "folder".toList e.2] := by
  have hfirst : ';' ∉ partText "pattern".toList e.1 :=
    notMem_partText (by decide) (by decide) hpattern.semicolon
  have hsecond : ';' ∉ partText "folder".toList e.2 :=
    notMem_partText (by decide) (by decide) hfolder.semicolon
  rw [entryText, List.splitOn_append_cons_self_of_not_mem hfirst, List.splitOn_eq_singleton hsecond]

/-- An entry is read as the rule it was written for. -/
lemma readEntry_entryText (category : Text) (i : ℕ) (hne : e.1 ≠ []) (hpattern : PlainText e.1)
    (hfolder : PlainText e.2) : readEntry category i (entryText e) = some (listedRule (e, i)) := by
  have htext : entryText e ≠ [] := by simp [entryText, partText]
  rw [readEntry, if_neg htext, splitOn_entryText hpattern hfolder]
  simp only [List.foldl_cons, List.foldl_nil, readPart_pattern hpattern, readPart_folder hfolder]
  rw [if_neg hne]
  rfl

/-- The commas of the text part its entries. -/
lemma splitOn_ruleText (hentries : ∀ e ∈ entries, PlainText e.1 ∧ PlainText e.2)
    (hne : entries ≠ []) : (ruleText entries).splitOn ',' = entries.map entryText := by
  refine List.splitOn_intercalate ',' (fun text htext => ?_) (by simpa using hne)
  obtain ⟨e, he, rfl⟩ := List.mem_map.mp htext
  exact comma_notMem_entryText (hentries e he).1 (hentries e he).2

/-- Entries read one after another give their rules, each with its position. -/
lemma filterMap_readEntry (category : Text) (i : ℕ)
    (hentries : ∀ e ∈ entries, e.1 ≠ [] ∧ PlainText e.1 ∧ PlainText e.2) :
    ((entries.map entryText).zipIdx i).filterMap (fun e => readEntry category e.2 e.1) =
      (entries.zipIdx i).map listedRule := by
  induction entries generalizing i with
  | nil => rfl
  | cons e rest ih =>
    obtain ⟨⟨hne, hpattern, hfolder⟩, hrest⟩ := List.forall_mem_cons.mp hentries
    have hrule := readEntry_entryText category i hne hpattern hfolder
    rw [List.map_cons, List.zipIdx_cons, List.zipIdx_cons, List.map_cons,
      List.filterMap_cons_some (by exact hrule), ih (i + 1) hrest]

/-- **Reading the text of a list gives the list back.** -/
theorem simpleRules_ruleText (category : Text)
    (hentries : ∀ e ∈ entries, e.1 ≠ [] ∧ PlainText e.1 ∧ PlainText e.2) :
    simpleRules category (ruleText entries) = entries.zipIdx.map listedRule := by
  by_cases hne : entries = []
  · subst hne
    rfl
  · have hstrip : (entries.map entryText).map strip = entries.map entryText := by
      rw [List.map_map]
      exact List.map_congr_left fun e he => strip_entryText (hentries e he).2.2
    rw [simpleRules, splitOn_ruleText (fun e he => (hentries e he).2) hne, hstrip,
      filterMap_readEntry category 0 hentries]

/-- The text does not begin as a JSON array does. -/
lemma isJson_ruleText (entries : List (Text × Text)) : isJson (ruleText entries) = false := by
  cases entries with
  | nil => rfl
  | cons e rest =>
    obtain ⟨tail, htail⟩ : ∃ tail, ruleText (e :: rest) = 'p' :: tail := by
      rw [ruleText, List.map_cons]
      cases rest with
      | nil => exact ⟨_, List.intercalate_singleton⟩
      | cons e' rest => exact ⟨_, List.intercalate_cons_cons⟩
    have hdrop : ('p' :: tail).dropWhile isSpace = 'p' :: tail :=
      List.dropWhile_cons_of_neg (by decide)
    have hprefix : strip ('p' :: tail) <+: 'p' :: tail := by
      rw [strip, hdrop]
      exact List.rdropWhile_prefix isSpace _
    rw [isJson, htail, ← Bool.not_eq_true, List.isPrefixOf_iff_prefix]
    intro hbracket
    obtain ⟨rest', hrest⟩ := hbracket.trans hprefix
    exact absurd (List.head_eq_of_cons_eq hrest) (by decide)

end Text

/-! ## The rules of the engine -/

section Engine

variable {entries : List (Text × Text)}

/-- Later positions do not have smaller priorities. -/
lemma lessThan_position {i j : ℕ} (h : i ≤ j) :
    lessThan (position j) (position i) = some false := by
  have hle : (((i : ℚ) : WithTop ℚ) : WithBot (WithTop ℚ)) ≤ (((j : ℚ) : WithTop ℚ) :) := by
    exact_mod_cast h
  have hcmp : cmp (position j) (position i) = some (compare
      (((j : ℚ) : WithTop ℚ) : WithBot (WithTop ℚ)) (((i : ℚ) : WithTop ℚ) :)) := rfl
  rw [compares.agrees hcmp, Option.some.injEq, beq_eq_false_iff_ne]
  exact fun hlt => absurd hle (not_le.mpr (compare_lt_iff_lt.mp hlt))

/-- Positions are in order, so that the sort leaves the rules as they are. -/
lemma pairwise_listedRule (i : ℕ) (entries : List (Text × Text)) :
    ((entries.zipIdx i).map listedRule).Pairwise
      fun r s => lessThan s.priority r.priority = some false := by
  rw [List.pairwise_map]
  induction entries generalizing i with
  | nil => exact List.Pairwise.nil
  | cons e rest ih =>
    rw [List.zipIdx_cons]
    refine List.pairwise_cons.mpr ⟨fun e' he' => ?_, ih (i + 1)⟩
    exact lessThan_position (Nat.le_of_succ_le (List.le_snd_of_mem_zipIdx he'))

/-- The search tries the rules in the order of the list. -/
lemma findMatchingRule_listed (py : TextFunctions) (filename : Text) (i : ℕ)
    (entries : List (Text × Text)) :
    findMatchingRule py ((entries.zipIdx i).map listedRule) filename =
      some (((entries.zipIdx i).find? fun e =>
        py.fnmatch (py.lower filename) (py.lower e.1.1)).map listedRule) := by
  induction entries generalizing i with
  | nil => rfl
  | cons e rest ih =>
    have hmatches : (listedRule (e, i)).matchesName py filename =
        some (py.fnmatch (py.lower filename) (py.lower e.1)) := rfl
    have htail := ih (i + 1)
    rw [findMatchingRule] at htail ⊢
    rw [List.zipIdx_cons, List.map_cons, List.foldr_cons, htail, hmatches, List.find?_cons]
    cases py.fnmatch (py.lower filename) (py.lower e.1) <;> rfl

/-- **The rules of the engine are those of the list**, in its order and with their positions as
priorities, and a name gets the first of them whose pattern it matches.

**Proof sketch.** The text is no JSON array, and its entries are read as they were written
(`simpleRules_ruleText`). Rules with ascending priorities stay where they are
(`FallibleSort.sort_eq_self`). -/
theorem parse_ruleText (loads : Text → Option Value) (settings : RuleSettings)
    (entries : List (Text × Text))
    (hentries : ∀ e ∈ entries, e.1 ≠ [] ∧ PlainText e.1 ∧ PlainText e.2)
    (htext : settings.outputFolderRules = ruleText entries) :
    parseTemplateRules loads settings = some { rules := entries.zipIdx.map listedRule } ∧
    ∀ (py : TextFunctions) (filename : Text),
      findMatchingRule py (entries.zipIdx.map listedRule) filename =
        some ((entries.zipIdx.find? fun e =>
          py.fnmatch (py.lower filename) (py.lower e.1.1)).map listedRule) := by
  refine ⟨?_, fun py filename => findMatchingRule_listed py filename 0 entries⟩
  have hrules : tryParse loads settings = { rules := entries.zipIdx.map listedRule } := by
    rw [tryParse, htext, if_neg (by rw [isJson_ruleText]; decide),
      simpleRules_ruleText _ hentries]
  rw [parseTemplateRules_eq, hrules, FallibleSort.sort_eq_self (pairwise_listedRule 0 entries)]
  rfl

/-- Matching by the wildcards `*` and `?`. -/
def glob : Text → Text → Bool
  | [], name => name = []
  | '*' :: pattern, name => name.tails.any (glob pattern)
  | _ :: _, [] => false
  | c :: pattern, d :: name => (c = '?' || c = d) && glob pattern name

/-- The text functions on plain names, with wildcards. -/
def wildcards : TextFunctions := { plainText with fnmatch := fun name pattern => glob pattern name }

/-- A folder with a backslash, and one with a colon. -/
def cameraEntries : List (Text × Text) :=
  [("*Cam*".toList, "KAMERA\\\x7bdate\x7d".toList), ("*".toList, "C:rest".toList)]

/-- A name in other letters gets the first of the two rules it matches. -/
theorem parse_ruleText_camera :
    parseTemplateRules (fun _ => none)
      { destinationDirectory := "/dst".toList, outputFolderRules := ruleText cameraEntries } =
        some { rules := cameraEntries.zipIdx.map listedRule } ∧
    findMatchingRule wildcards (cameraEntries.zipIdx.map listedRule) "251022_cam.mxf".toList =
      some (some (listedRule (("*Cam*".toList, "KAMERA\\\x7bdate\x7d".toList), 0))) := by
  have hplain : ∀ e ∈ cameraEntries, e.1 ≠ [] ∧ PlainText e.1 ∧ PlainText e.2 := by
    decide +kernel
  obtain ⟨hparse, hfind⟩ := parse_ruleText (fun _ => none)
    { destinationDirectory := "/dst".toList, outputFolderRules := ruleText cameraEntries }
    cameraEntries hplain rfl
  have hfirst : (cameraEntries.zipIdx.find? fun e =>
      wildcards.fnmatch (wildcards.lower "251022_cam.mxf".toList) (wildcards.lower e.1.1)) =
        some (("*Cam*".toList, "KAMERA\\\x7bdate\x7d".toList), 0) := by
    decide +kernel
  refine ⟨hparse, ?_⟩
  rw [hfind wildcards "251022_cam.mxf".toList, hfirst]
  rfl

end Engine

end FileAgent

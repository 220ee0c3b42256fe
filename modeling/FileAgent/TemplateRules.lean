import FileAgent.Library.JsonOrder
import FileAgent.OutputFolderTemplate

set_option relaxedAutoImplicit false
set_option autoImplicit false

/-!
# Reading the template rules

The rules of the template engine are given as a text: a JSON array of objects, or entries between
commas. Rules are appended one by one. The first element of an array that is no object raises an
error, which is caught, and the rules appended so far are kept. They are sorted by priority outside
the `try` block, where priorities without an order raise an error that nobody catches. In the other
format nothing raises an error: a malformed entry gives no rule, or a rule of what was understood of
it.

## Main definitions

* `ParsedRule` — a rule with the values the text gives it.
* `parseTemplateRules` — reading the rules.
* `IsRule` — the fields of a well-formed entry.
* `inputRules` — the rules of a text that is not malformed.
* `AllOrNothing` — what the warning about an empty rule set promises.

## Main results

* `tryParse_warned_iff` — when the warning is logged.
* `allOrNothing_iff` — when the rules are read as a whole, or not at all.
-/

namespace FileAgent

open PosixPath JsonOrder

/-! ## Texts -/

/-- What the language takes as white space. -/
def isSpace (c : Char) : Bool :=
  let n := c.toNat
  (9 ≤ n && n ≤ 13) || (28 ≤ n && n ≤ 32) || n == 0x85 || n == 0xa0 || n == 0x1680 ||
    (0x2000 ≤ n && n ≤ 0x200a) || n == 0x2028 || n == 0x2029 || n == 0x202f || n == 0x205f ||
    n == 0x3000

/-- `str.strip`. -/
def strip (s : Text) : Text := (s.dropWhile isSpace).rdropWhile isSpace

/-- The two sides of the first colon of a text that has one. -/
def splitColon (part : Text) : Text × Text :=
  (part.takeWhile (· ≠ ':'), (part.dropWhile (· ≠ ':')).tail)

/-! ## Rules -/

/-- A rule as it is read. The values of a JSON rule are taken as they are. -/
structure ParsedRule where
  pattern : Value
  folderTemplate : Value
  priority : Value
  isRegex : Value := .bool false

/-- A position as a priority. -/
def position (i : ℕ) : Value := .number (some (((i : ℚ) : WithTop ℚ) : WithBot (WithTop ℚ)))

/-- `data.get(key, fallback)`, which only an object has. -/
def dataGet (data : Value) (key : Text) (fallback : Value) : Option Value :=
  match data with
  | .object fields => some ((fields.lookup key).getD fallback)
  | _ => none

/-- The value is a JSON object. -/
def isObject : Value → Bool
  | .object _ => true
  | _ => false

/-- What a loop over a value meets. An object gives its keys, a text its characters. -/
def iterate : Value → Option (List Value)
  | .array items => some items
  | .object fields => some (fields.map fun f => .string f.1)
  | .string s => some (s.map fun c => .string [c])
  | _ => none

/-- The rules of the `try` block, and whether it ended with an error and the warning. -/
structure Parsed where
  rules : List ParsedRule
  warned : Bool := false

section Parse

variable (defaultCategory : Text)

/-- The rule at a position of a JSON array. -/
def ruleOf (i : ℕ) (data : Value) : Option ParsedRule := do
  let pattern ← dataGet data "pattern".toList (.string "*".toList)
  let folderTemplate ← dataGet data "folder".toList (.string defaultCategory)
  let priority ← dataGet data "priority".toList (position i)
  let isRegex ← dataGet data "is_regex".toList (.bool false)
  some { pattern, folderTemplate, priority, isRegex }

/-- The loop over the elements from a position on. -/
def loop : ℕ → List Value → Parsed
  | _, [] => { rules := [] }
  | i, data :: rest =>
    match ruleOf defaultCategory i data with
    | none => { rules := [], warned := true }
    | some rule =>
      let parsed := loop (i + 1) rest
      { parsed with rules := rule :: parsed.rules }

/-- A part of an entry gives its pattern, its folder or nothing. -/
def readPart (entry : Text × Text) (part : Text) : Text × Text :=
  if ':' ∈ part then
    let sides := splitColon part
    if strip sides.1 = "pattern".toList then (strip sides.2, entry.2)
    else if strip sides.1 = "folder".toList then (entry.1, strip sides.2)
    else entry
  else entry

/-- The rule of an entry that names a pattern. -/
def readEntry (i : ℕ) (ruleString : Text) : Option ParsedRule :=
  if ruleString = [] then none
  else
    let entry := (ruleString.splitOn ';').foldl readPart ([], defaultCategory)
    if entry.1 = [] then none
    else some
      { pattern := .string entry.1, folderTemplate := .string entry.2, priority := position i }

/-- The rules of the simple format, one for each entry that names a pattern. -/
def simpleRules (s : Text) : List ParsedRule :=
  ((s.splitOn ',').map strip).zipIdx.filterMap fun e => readEntry defaultCategory e.2 e.1

end Parse

/-- The settings the rules are read from. -/
structure RuleSettings extends TemplateSettings where
  outputFolderRules : Text := []

/-- Whether a text is read as JSON. -/
def isJson (s : Text) : Bool := "[".toList.isPrefixOf (strip s)

section Engine

variable (loads : Text → Option Value) (settings : RuleSettings)

/-- The `try` block. A text that is not decoded, or to no value for a loop, gives no rules. -/
def tryParse : Parsed :=
  if isJson settings.outputFolderRules then
    match (loads settings.outputFolderRules).bind iterate with
    | none => { rules := [], warned := true }
    | some items => loop settings.outputFolderDefaultCategory 0 items
  else { rules := simpleRules settings.outputFolderDefaultCategory settings.outputFolderRules }

/-- The rules sorted by priority. There is no result when the sort raises an error. The sort of the
language is stable and asks for `<` only, and so does the one here. -/
def parseTemplateRules : Option Parsed :=
  if settings.outputFolderRules = [] then some { rules := [] }
  else
    let parsed := tryParse loads settings
    (FallibleSort.sort (fun r s => lessThan r.priority s.priority) parsed.rules).map fun rules =>
      { parsed with rules }

end Engine

/-! ## The rules of a text -/

/-- The order of two rules by their priorities, where these have one. -/
def byPriority (r s : ParsedRule) : Option Ordering := cmp r.priority s.priority

/-- A rule for every element from a position on, when all of them are objects. -/
def rulesOf (defaultCategory : Text) : ℕ → List Value → Option (List ParsedRule)
  | _, [] => some []
  | i, data :: rest => do
    let rule ← ruleOf defaultCategory i data
    let rules ← rulesOf defaultCategory (i + 1) rest
    some (rule :: rules)

/-- The priority of an element: its own, or its position. -/
def priorityAt (e : Value × ℕ) : Value :=
  (dataGet e.1 "priority".toList (position e.2)).getD .null

/-- The entries between commas. -/
def entriesOf (s : Text) : List Text := (s.splitOn ',').map strip

/-- The key and the value of a part that has a colon. -/
def fieldOf (part : Text) : Option (Text × Text) :=
  if ':' ∈ part then some (strip (splitColon part).1, strip (splitColon part).2) else none

/-- The fields of an entry. Each of its parts is to have a key and a value, but for blank ones. -/
def fieldsOf (entry : Text) : Option (List (Text × Text)) :=
  ((entry.splitOn ';').filter fun part => strip part ≠ []).mapM fieldOf

/-- The fields of a rule: a pattern, which is not empty, maybe a folder, and nothing else, in any
order. -/
structure IsRule (fields : List (Text × Text)) : Prop where
  nodup : (fields.map Prod.fst).Nodup
  known : ∀ field ∈ fields, field.1 = "pattern".toList ∨ field.1 = "folder".toList
  pattern : ∃ pattern ∈ fields.lookup "pattern".toList, pattern ≠ []

instance (fields : List (Text × Text)) : Decidable (IsRule fields) :=
  decidable_of_iff ((fields.map Prod.fst).Nodup ∧
      (∀ field ∈ fields, field.1 = "pattern".toList ∨ field.1 = "folder".toList) ∧
      ∃ pattern ∈ fields.lookup "pattern".toList, pattern ≠ [])
    ⟨fun h => ⟨h.1, h.2.1, h.2.2⟩, fun h => ⟨h.nodup, h.known, h.pattern⟩⟩

/-- An entry is well formed when it has the fields of a rule, or none. -/
def IsEntry (entry : Text) : Prop := ∃ fields ∈ fieldsOf entry, fields = [] ∨ IsRule fields

instance (entry : Text) : Decidable (IsEntry entry) :=
  inferInstanceAs (Decidable (∃ fields ∈ fieldsOf entry, _))

/-- The value of the last field with a key. -/
def lastValue (key : Text) (fields : List (Text × Text)) : Option Text :=
  ((fields.filter fun field => field.1 = key).getLast?).map Prod.snd

/-- An entry, well formed or not, in which the last part for a pattern has one. -/
def NamesPattern (entry : Text) : Prop :=
  ∃ pattern ∈ lastValue "pattern".toList ((entry.splitOn ';').filterMap fieldOf), pattern ≠ []

instance (entry : Text) : Decidable (NamesPattern entry) :=
  inferInstanceAs (Decidable (∃ pattern ∈ lastValue _ _, _))

/-- The rule with given fields. -/
def writtenRule (defaultCategory : Text) (i : ℕ) (fields : List (Text × Text)) : ParsedRule where
  pattern := .string ((fields.lookup "pattern".toList).getD [])
  folderTemplate := .string ((fields.lookup "folder".toList).getD defaultCategory)
  priority := position i

/-- The rules of well-formed entries from a position on, one for each that is not blank. -/
def writtenRules (defaultCategory : Text) : ℕ → List Text → Option (List ParsedRule)
  | _, [] => some []
  | i, entry :: rest => do
    let fields ← fieldsOf entry
    let rules ← writtenRules defaultCategory (i + 1) rest
    if fields = [] then some rules
    else if IsRule fields then some (writtenRule defaultCategory i fields :: rules)
    else none

section Input

variable (loads : Text → Option Value) (settings : RuleSettings)

/-- The rules of a text: those of an array of objects, or those of well-formed entries. -/
def inputRules : Option (List ParsedRule) :=
  if isJson settings.outputFolderRules then
    match loads settings.outputFolderRules with
    | some (.array items) => rulesOf settings.outputFolderDefaultCategory 0 items
    | _ => none
  else writtenRules settings.outputFolderDefaultCategory 0 (entriesOf settings.outputFolderRules)

/-- A text is well formed when it has rules, and each two of them can be ordered. -/
def WellFormed (input : List ParsedRule) : Prop :=
  inputRules loads settings = some input ∧ input.Pairwise fun r s => (byPriority r s).isSome

/-- The rules of the input in the order of their priorities, and ties in the order of the input. -/
structure InOrder (input rules : List ParsedRule) : Prop where
  perm : rules.Perm input
  sorted : rules.Pairwise (FallibleSort.Le byPriority)
  stable : ∀ k, FallibleSort.tied byPriority k rules = FallibleSort.tied byPriority k input

/-- Reading ends with every rule of a well-formed text in order and without the warning, and with no
rule otherwise. -/
def AllOrNothing : Prop :=
  ∃ parsed, parseTemplateRules loads settings = some parsed ∧
    (∀ input, WellFormed loads settings input →
      InOrder input parsed.rules ∧ parsed.warned = false) ∧
    ((∀ input, ¬ WellFormed loads settings input) → parsed.rules = [])

/-- The texts that are read as they should be. A JSON array is one of objects with priorities that
can be ordered, or does not begin with an object. Of a text that is no JSON, all entries are well
formed, or none names a pattern. -/
structure ReadWell : Prop where
  json : isJson settings.outputFolderRules = true → ∀ items,
    loads settings.outputFolderRules = some (.array items) →
      (items.all isObject = true ∧
        (items.zipIdx.map priorityAt).Pairwise fun a b => (cmp a b).isSome) ∨
      items.head?.any isObject = false
  simple : isJson settings.outputFolderRules = false →
    (∀ entry ∈ entriesOf settings.outputFolderRules, IsEntry entry) ∨
    ∀ entry ∈ entriesOf settings.outputFolderRules, ¬ NamesPattern entry

end Input

section Entries

variable {category : Text} {i : ℕ} {entry part : Text} {entries : List Text}
  {fields : List (Text × Text)} {rules : List ParsedRule}

/-- What a field does to the pattern and the folder read so far. -/
def setField (read : Text × Text) (field : Text × Text) : Text × Text :=
  if field.1 = "pattern".toList then (field.2, read.2)
  else if field.1 = "folder".toList then (read.1, field.2)
  else read

/-- The parts of an entry are read by their fields. -/
lemma foldl_readPart (read : Text × Text) (parts : List Text) :
    parts.foldl readPart read = (parts.filterMap fieldOf).foldl setField read := by
  induction parts generalizing read with
  | nil => rfl
  | cons part rest ih =>
    rw [List.foldl_cons, ih]
    by_cases hcolon : ':' ∈ part
    · have hfield : fieldOf part =
          some (strip (splitColon part).1, strip (splitColon part).2) := if_pos hcolon
      rw [List.filterMap_cons_some hfield, List.foldl_cons, readPart, if_pos hcolon]
      rfl
    · have hfield : fieldOf part = none := if_neg hcolon
      rw [List.filterMap_cons_none hfield, readPart, if_neg hcolon]

/-- The last value of a key after one more field. -/
@[simp] lemma lastValue_concat (key : Text) (fields : List (Text × Text)) (field : Text × Text) :
    lastValue key (fields ++ [field]) =
      if field.1 = key then some field.2 else lastValue key fields := by
  unfold lastValue
  split_ifs with hkey <;> simp [List.filter_append, hkey]

/-- The last field with a key decides. -/
lemma foldl_setField (read : Text × Text) (fields : List (Text × Text)) :
    fields.foldl setField read =
      ((lastValue "pattern".toList fields).getD read.1,
        (lastValue "folder".toList fields).getD read.2) := by
  induction fields using List.reverseRecOn with
  | nil => rfl
  | append_singleton fields field ih =>
    have hne : "folder".toList ≠ "pattern".toList := by decide
    rw [List.foldl_concat, ih, setField, lastValue_concat, lastValue_concat]
    by_cases hpattern : field.1 = "pattern".toList
    · rw [if_pos hpattern, if_pos hpattern, if_neg fun h => hne (h.symm.trans hpattern)]
      rfl
    · rw [if_neg hpattern, if_neg hpattern]
      split_ifs <;> rfl

/-- Where keys occur once, the last field with a key is the only one. -/
lemma lastValue_eq_lookup {key : Text} (hnodup : (fields.map Prod.fst).Nodup) :
    lastValue key fields = fields.lookup key := by
  induction fields with
  | nil => rfl
  | cons field rest ih =>
    obtain ⟨k, v⟩ := field
    rw [List.map_cons, List.nodup_cons] at hnodup
    by_cases hkey : k = key
    · subst hkey
      have hrest : rest.filter (fun field => field.1 = k) = [] := by
        rw [List.filter_eq_nil_iff]
        intro field hfield hk
        exact hnodup.1 (List.mem_map.mpr ⟨field, hfield, of_decide_eq_true hk⟩)
      simp [lastValue, hrest]
    · have hne : (key == k) = false := beq_eq_false_iff_ne.mpr (Ne.symm hkey)
      rw [List.lookup_cons, hne, ← ih hnodup.2]
      simp [lastValue, hkey]

/-- An entry is read by the last values of its fields. -/
lemma readEntry_eq (h : (entry.splitOn ';').filterMap fieldOf = fields) :
    readEntry category i entry =
      if (lastValue "pattern".toList fields).getD [] = [] then none
      else some
        { pattern := .string ((lastValue "pattern".toList fields).getD [])
          folderTemplate := .string ((lastValue "folder".toList fields).getD category)
          priority := position i } := by
  rw [readEntry]
  split_ifs with hempty hpattern hpattern
  · rfl
  · subst hempty
    subst h
    exact absurd rfl hpattern
  all_goals
    rw [foldl_readPart, foldl_setField, h]
    simp only [hpattern, if_true, if_false]

/-- An entry gives no rule when it names no pattern. -/
lemma readEntry_eq_none_iff : readEntry category i entry = none ↔ ¬ NamesPattern entry := by
  rw [readEntry_eq rfl, NamesPattern]
  generalize lastValue "pattern".toList ((entry.splitOn ';').filterMap fieldOf) = pattern
  cases pattern <;> simp

/-- A blank part has no colon. -/
lemma fieldOf_of_blank (h : strip part = []) : fieldOf part = none := by
  refine if_neg fun hcolon => ?_
  rw [strip, List.rdropWhile_eq_nil_iff] at h
  have hdrop : part.dropWhile isSpace = [] := by
    by_contra hne
    exact List.dropWhile_get_zero_not isSpace part (List.length_pos_iff.mpr hne)
      (h _ (List.get_mem _ _))
  exact absurd (List.dropWhile_eq_nil_iff.mp hdrop ':' hcolon) (by decide)

/-- The fields of an entry are those of all its parts. -/
lemma filterMap_of_fieldsOf (h : fieldsOf entry = some fields) :
    (entry.splitOn ';').filterMap fieldOf = fields := by
  unfold fieldsOf at h
  generalize entry.splitOn ';' = parts at h ⊢
  induction parts generalizing fields with
  | nil =>
    obtain rfl := Option.some.inj h
    rfl
  | cons part rest ih =>
    by_cases hblank : strip part = []
    · rw [List.filter_cons_of_neg (by simpa using hblank)] at h
      rw [List.filterMap_cons_none (fieldOf_of_blank hblank), ih h]
    · rw [List.filter_cons_of_pos (by simpa using hblank), List.mapM_cons] at h
      obtain ⟨field, hfield, h⟩ := Option.bind_eq_some_iff.mp h
      obtain ⟨tail, htail, h⟩ := Option.bind_eq_some_iff.mp h
      obtain rfl := Option.some.inj h
      rw [List.filterMap_cons_some hfield, ih htail]

/-- A well-formed entry is read as the rule of its fields. -/
lemma readEntry_of_isRule (h : fieldsOf entry = some fields) (hrule : IsRule fields) :
    readEntry category i entry = some (writtenRule category i fields) := by
  obtain ⟨pattern, hpattern, hne⟩ := hrule.pattern
  rw [readEntry_eq (filterMap_of_fieldsOf h), lastValue_eq_lookup hrule.nodup,
    lastValue_eq_lookup hrule.nodup, writtenRule, Option.mem_def.mp hpattern, Option.getD_some,
    if_neg hne]

/-- A blank entry gives no rule and no warning. -/
lemma readEntry_of_blank (h : fieldsOf entry = some []) : readEntry category i entry = none := by
  rw [readEntry_eq (filterMap_of_fieldsOf h)]
  rfl

/-- Entries read one after another give the rules that are written. -/
lemma filterMap_readEntry_of_writtenRules (h : writtenRules category i entries = some rules) :
    (entries.zipIdx i).filterMap (fun e => readEntry category e.2 e.1) = rules := by
  induction entries generalizing i rules with
  | nil =>
    obtain rfl := Option.some.inj h
    rfl
  | cons entry rest ih =>
    obtain ⟨fields, hfields, h⟩ := Option.bind_eq_some_iff.mp h
    obtain ⟨tail, htail, h⟩ := Option.bind_eq_some_iff.mp h
    rw [List.zipIdx_cons]
    split_ifs at h with hblank hrule
    · obtain rfl := Option.some.inj h
      rw [hblank] at hfields
      rw [List.filterMap_cons_none (by exact readEntry_of_blank hfields), ih htail]
    · obtain rfl := Option.some.inj h
      rw [List.filterMap_cons_some (by exact readEntry_of_isRule hfields hrule), ih htail]

/-- Entries have rules when each of them is well formed. -/
lemma writtenRules_isSome (category : Text) (i : ℕ) (entries : List Text) :
    (writtenRules category i entries).isSome ↔ ∀ entry ∈ entries, IsEntry entry := by
  induction entries generalizing i with
  | nil => simp [writtenRules]
  | cons entry rest ih =>
    rw [writtenRules, List.forall_mem_cons, ← ih (i + 1), IsEntry]
    cases fieldsOf entry with
    | none => simp
    | some fields =>
      cases writtenRules category (i + 1) rest with
      | none => simp
      | some rules =>
        by_cases hblank : fields = [] <;> by_cases hrule : IsRule fields <;>
          simp [hblank, hrule]

end Entries

section Loop

variable {category : Text} {i : ℕ} {data : Value} {items : List Value} {rules : List ParsedRule}

/-- Objects are read as rules, and nothing else is. -/
lemma ruleOf_isSome (category : Text) (i : ℕ) (data : Value) :
    (ruleOf category i data).isSome = isObject data := by
  cases data <;> rfl

/-- The priority of a rule is the one written, or else follows its position. -/
lemma priority_of_ruleOf {rule : ParsedRule} (h : ruleOf category i data = some rule) :
    rule.priority = priorityAt (data, i) := by
  cases data with
  | object fields =>
    obtain rfl := Option.some.inj h
    rfl
  | _ => cases h

/-- The elements of an array have rules when they are objects. -/
lemma rulesOf_isSome (category : Text) (i : ℕ) (items : List Value) :
    (rulesOf category i items).isSome = items.all isObject := by
  induction items generalizing i with
  | nil => rfl
  | cons data rest ih =>
    rw [rulesOf, List.all_cons, ← ruleOf_isSome category i data, ← ih (i + 1)]
    cases ruleOf category i data with
    | none => rfl
    | some rule => cases rulesOf category (i + 1) rest <;> rfl

/-- The rules of an array have the priorities of its elements. -/
lemma map_priority_rulesOf (h : rulesOf category i items = some rules) :
    rules.map ParsedRule.priority = (items.zipIdx i).map priorityAt := by
  induction items generalizing i rules with
  | nil =>
    obtain rfl := Option.some.inj h
    rfl
  | cons data rest ih =>
    obtain ⟨rule, hrule, h⟩ := Option.bind_eq_some_iff.mp h
    obtain ⟨tail, htail, h⟩ := Option.bind_eq_some_iff.mp h
    obtain rfl := Option.some.inj h
    rw [List.map_cons, List.zipIdx_cons, List.map_cons, ih htail, priority_of_ruleOf hrule]

/-- Where every item is read as a rule the loop returns all of them. -/
lemma loop_of_rulesOf (h : rulesOf category i items = some rules) :
    loop category i items = { rules } := by
  induction items generalizing i rules with
  | nil =>
    obtain rfl := Option.some.inj h
    rfl
  | cons data rest ih =>
    obtain ⟨rule, hrule, h⟩ := Option.bind_eq_some_iff.mp h
    obtain ⟨tail, htail, h⟩ := Option.bind_eq_some_iff.mp h
    obtain rfl := Option.some.inj h
    simp only [loop, hrule, ih htail]

/-- The warning is logged when some element is no object. -/
lemma loop_warned_iff :
    (loop category i items).warned = true ↔ rulesOf category i items = none := by
  induction items generalizing i with
  | nil => simp [loop, rulesOf]
  | cons data rest ih =>
    rw [loop, rulesOf]
    cases ruleOf category i data with
    | none => simp
    | some rule =>
      simp only [ih]
      cases rulesOf category (i + 1) rest <;> simp

/-- The loop returns no rule exactly when it does not get past the first item. -/
lemma loop_rules_eq_nil_iff :
    (loop category i items).rules = [] ↔ items.head?.any isObject = false := by
  cases items with
  | nil => simp [loop]
  | cons data rest =>
    rw [loop, List.head?_cons, Option.any_some, ← ruleOf_isSome category i data]
    cases ruleOf category i data <;> simp

end Loop

/-! ## All or nothing -/

section Outcome

variable {loads : Text → Option Value} {settings : RuleSettings} {items : List Value}

/-- `sort` compares rules by their priorities. -/
lemma compares_byPriority :
    FallibleSort.Compares (fun r s => lessThan r.priority s.priority) byPriority :=
  compares.comap ParsedRule.priority

/-- A text without a character is of the simple format and has no rule. -/
lemma parseTemplateRules_eq : parseTemplateRules loads settings =
    (FallibleSort.sort (fun r s => lessThan r.priority s.priority)
      (tryParse loads settings).rules).map fun rules => { tryParse loads settings with rules } := by
  unfold parseTemplateRules
  split_ifs with hempty
  · rw [tryParse, hempty, if_neg (by decide)]
    rfl
  · rfl

/-- The priority of a rule of a simple text is that of its position. -/
lemma exists_position {category s : Text} {rule : ParsedRule} (h : rule ∈ simpleRules category s) :
    ∃ i, rule.priority = position i := by
  obtain ⟨e, -, he⟩ := List.mem_filterMap.mp h
  dsimp only [readEntry] at he
  split_ifs at he
  obtain rfl := Option.some.inj he
  exact ⟨e.2, rfl⟩

/-- The rules of the simple format have their positions as priorities. -/
lemma simpleRules_comparable (category s : Text) :
    (simpleRules category s).Pairwise fun r s => (byPriority r s).isSome := by
  refine List.pairwise_of_forall_mem_list fun r hr t ht => ?_
  obtain ⟨i, hi⟩ := exists_position hr
  obtain ⟨j, hj⟩ := exists_position ht
  rw [byPriority, hi, hj]
  rfl

/-- Rules that can be ordered come out of the sort in order. -/
lemma parse_inOrder {input : List ParsedRule}
    (hcmp : input.Pairwise fun r s => (byPriority r s).isSome)
    (hinput : (tryParse loads settings).rules = input) :
    ∃ parsed, parseTemplateRules loads settings = some parsed ∧ InOrder input parsed.rules := by
  obtain ⟨rules, hsort, hsorted, hstable⟩ := compares_byPriority.exists_sort hcmp
  refine ⟨{ tryParse loads settings with rules }, ?_, FallibleSort.sort_perm hsort, hsorted,
    hstable⟩
  rw [parseTemplateRules_eq, hinput, hsort]
  rfl

/-- No rule of the block is lost. -/
lemma parse_perm {parsed : Parsed} (h : parseTemplateRules loads settings = some parsed) :
    parsed.rules.Perm (tryParse loads settings).rules := by
  rw [parseTemplateRules_eq] at h
  obtain ⟨rules, hsort, rfl⟩ := Option.map_eq_some_iff.mp h
  exact FallibleSort.sort_perm hsort

/-- The sort has no part in the warning. -/
lemma parse_warned {parsed : Parsed} (h : parseTemplateRules loads settings = some parsed) :
    parsed.warned = (tryParse loads settings).warned := by
  rw [parseTemplateRules_eq] at h
  obtain ⟨rules, -, rfl⟩ := Option.map_eq_some_iff.mp h
  rfl

/-- **When the warning is logged**: when a JSON text is not decoded, or to a value that is not for a
loop, or some element is no object. -/
theorem tryParse_warned_iff : (tryParse loads settings).warned = true ↔
    isJson settings.outputFolderRules = true ∧ ∀ items,
      (loads settings.outputFolderRules).bind iterate = some items →
        rulesOf settings.outputFolderDefaultCategory 0 items = none := by
  unfold tryParse
  split_ifs with hjson
  · cases hitems : (loads settings.outputFolderRules).bind iterate with
    | none => simp [hjson]
    | some items => simp [hjson, loop_warned_iff]
  · simp [hjson]

/-- The block yields the rules of the input. -/
lemma tryParse_of_inputRules {input : List ParsedRule}
    (h : inputRules loads settings = some input) : (tryParse loads settings).rules = input := by
  unfold inputRules at h
  unfold tryParse
  split_ifs at h ⊢ with hjson
  · cases hloads : loads settings.outputFolderRules with
    | none => simp [hloads] at h
    | some value =>
      cases value with
      | array items =>
        simp only [hloads] at h
        simp only [Option.bind_some, iterate, loop_of_rulesOf h]
      | _ => simp [hloads] at h
  · exact filterMap_readEntry_of_writtenRules h

/-- A text with rules is read without the warning. -/
lemma not_warned_of_inputRules {input : List ParsedRule}
    (h : inputRules loads settings = some input) : (tryParse loads settings).warned = false := by
  rw [← Bool.not_eq_true, tryParse_warned_iff]
  rintro ⟨hjson, hnone⟩
  rw [inputRules, if_pos hjson] at h
  cases hloads : loads settings.outputFolderRules with
  | none => simp [hloads] at h
  | some value =>
    cases value with
    | array items =>
      simp only [hloads] at h
      rw [hnone items (by rw [hloads]; rfl)] at h
      cases h
    | _ => simp [hloads] at h

/-- The keys of an object and the characters of a text are no objects. -/
lemma loop_strings (category : Text) (texts : List Text) :
    (loop category 0 (texts.map Value.string)).rules = [] := by
  rw [loop_rules_eq_nil_iff]
  cases texts <;> rfl

/-- An array is well formed when its elements are objects with priorities that can be ordered. -/
lemma exists_wellFormed_iff (hjson : isJson settings.outputFolderRules = true)
    (hloads : loads settings.outputFolderRules = some (.array items)) :
    (∃ input, WellFormed loads settings input) ↔ items.all isObject = true ∧
      (items.zipIdx.map priorityAt).Pairwise fun a b => (cmp a b).isSome := by
  have hinput : inputRules loads settings =
      rulesOf settings.outputFolderDefaultCategory 0 items := by
    rw [inputRules, if_pos hjson, hloads]
  rw [← rulesOf_isSome settings.outputFolderDefaultCategory 0 items]
  constructor
  · rintro ⟨input, hrules, hcmp⟩
    rw [hinput] at hrules
    rw [← map_priority_rulesOf hrules, List.pairwise_map, hrules]
    exact ⟨rfl, hcmp⟩
  · rintro ⟨hsome, hcmp⟩
    obtain ⟨input, hrules⟩ := Option.isSome_iff_exists.mp hsome
    rw [← map_priority_rulesOf hrules, List.pairwise_map] at hcmp
    exact ⟨input, hinput.trans hrules, hcmp⟩

/-- A text that is no JSON is well formed when its entries are. -/
lemma exists_wellFormed_iff_isEntry (hjson : isJson settings.outputFolderRules = false) :
    (∃ input, WellFormed loads settings input) ↔
      ∀ entry ∈ entriesOf settings.outputFolderRules, IsEntry entry := by
  have hinput : inputRules loads settings =
      writtenRules settings.outputFolderDefaultCategory 0
        (entriesOf settings.outputFolderRules) := by
    rw [inputRules, hjson]
    rfl
  rw [← writtenRules_isSome settings.outputFolderDefaultCategory 0, ← hinput]
  constructor
  · rintro ⟨input, hrules, -⟩
    rw [hrules]
    rfl
  · intro hsome
    obtain ⟨input, hrules⟩ := Option.isSome_iff_exists.mp hsome
    have hsimple : simpleRules settings.outputFolderDefaultCategory settings.outputFolderRules =
        input := filterMap_readEntry_of_writtenRules (hinput ▸ hrules)
    exact ⟨input, hrules, hsimple ▸ simpleRules_comparable _ _⟩

/-- A text that is no JSON gives no rule when none of its entries names a pattern. -/
lemma simpleRules_eq_nil_iff {category s : Text} :
    simpleRules category s = [] ↔ ∀ entry ∈ entriesOf s, ¬ NamesPattern entry := by
  rw [simpleRules, List.filterMap_eq_nil_iff]
  constructor
  · intro h entry hentry
    obtain ⟨i, hi, rfl⟩ := List.mem_iff_getElem.mp hentry
    exact readEntry_eq_none_iff.mp (h (_, i) (List.mem_zipIdx_iff_getElem?.mpr
      (List.getElem?_eq_getElem hi)))
  · intro h e he
    exact readEntry_eq_none_iff.mpr (h e.1 (List.fst_mem_of_mem_zipIdx he))

/-- A text that is malformed is read well when the block yields no rule.

**Proof sketch.** A text that is no JSON is read well only without a rule, as no entry of it is
well formed. A JSON text is read well unless its array begins with an object, and the loop over
its items yields a rule exactly then; what is no array yields none. -/
lemma readWell_iff_of_malformed (hwell : ¬ ∃ input, WellFormed loads settings input) :
    ReadWell loads settings ↔ (tryParse loads settings).rules = [] := by
  cases hjson : isJson settings.outputFolderRules with
  | false =>
    have hrules : (tryParse loads settings).rules =
        simpleRules settings.outputFolderDefaultCategory settings.outputFolderRules := by
      rw [tryParse, hjson]
      rfl
    rw [exists_wellFormed_iff_isEntry hjson] at hwell
    rw [hrules, simpleRules_eq_nil_iff]
    exact ⟨fun hread => (hread.simple hjson).resolve_left hwell,
      fun hnone => ⟨fun h => absurd (hjson.symm.trans h) Bool.false_ne_true, fun _ => .inr hnone⟩⟩
  | true =>
    have hread : ReadWell loads settings ↔ ∀ items,
        loads settings.outputFolderRules = some (.array items) →
          items.head?.any isObject = false := by
      refine ⟨fun hread items hitems => ?_, fun h => ⟨fun _ items hitems => .inr (h items hitems),
        fun h => absurd (hjson.symm.trans h) Bool.false_ne_true.symm⟩⟩
      rw [exists_wellFormed_iff hjson hitems] at hwell
      exact (hread.json hjson items hitems).resolve_left hwell
    rw [hread, tryParse, if_pos hjson]
    cases hloads : loads settings.outputFolderRules with
    | none => simp
    | some value =>
      cases value with
      | array items => simp [iterate, loop_rules_eq_nil_iff]
      | object fields =>
        have h := loop_strings settings.outputFolderDefaultCategory (fields.map Prod.fst)
        rw [List.map_map] at h
        exact iff_of_true (fun items hitems => by cases hitems) h
      | string s =>
        have h := loop_strings settings.outputFolderDefaultCategory (s.map fun c => [c])
        rw [List.map_map] at h
        exact iff_of_true (fun items hitems => by cases hitems) h
      | _ => simp [iterate]

/-- A well-formed text is one that is read well. -/
lemma readWell_of_wellFormed (hwell : ∃ input, WellFormed loads settings input) :
    ReadWell loads settings :=
  ⟨fun hjson _ hitems => .inl ((exists_wellFormed_iff hjson hitems).mp hwell),
    fun hjson => .inl ((exists_wellFormed_iff_isEntry hjson).mp hwell)⟩

/-- **When the rules are read as a whole, or not at all**: for JSON, when the text is no array, or
an array of objects with priorities that can be ordered, or an array that does not begin with an
object; otherwise, when each entry is well formed, or none names a pattern.

**Proof sketch.** The block yields the rules of a well-formed text (`loop_of_rulesOf`,
`filterMap_readEntry_of_writtenRules`), and they are sorted (`FallibleSort.Compares.exists_sort`). A
malformed text is read well when the block yields no rule (`readWell_iff_of_malformed`): sorting
loses none (`FallibleSort.sort_perm`). -/
theorem allOrNothing_iff (loads : Text → Option Value) (settings : RuleSettings) :
    AllOrNothing loads settings ↔ ReadWell loads settings := by
  by_cases hwell : ∃ input, WellFormed loads settings input
  · refine iff_of_true ?_ (readWell_of_wellFormed hwell)
    obtain ⟨input, hinput, hcmp⟩ := hwell
    obtain ⟨parsed, hparsed, horder⟩ := parse_inOrder hcmp (tryParse_of_inputRules hinput)
    refine ⟨parsed, hparsed, fun input' hwell' => ?_,
      fun hno => absurd ⟨hinput, hcmp⟩ (hno input)⟩
    obtain rfl := Option.some.inj (hinput.symm.trans hwell'.1)
    exact ⟨horder, (parse_warned hparsed).trans (not_warned_of_inputRules hinput)⟩
  · rw [readWell_iff_of_malformed hwell]
    constructor
    · rintro ⟨parsed, hparsed, -, hnone⟩
      have hperm := parse_perm hparsed
      rw [hnone (not_exists.mp hwell)] at hperm
      exact List.nil_perm.mp hperm
    · intro hempty
      obtain ⟨parsed, hparsed, horder⟩ := parse_inOrder List.Pairwise.nil hempty
      exact ⟨parsed, hparsed, fun input h => absurd ⟨input, h⟩ hwell,
        fun _ => List.perm_nil.mp horder.perm⟩

/-- The text `[{"pattern": "*Cam*"}, "x"]`, decoded. -/
def oneRuleAndText : Value :=
  .array [.object [("pattern".toList, .string "*Cam*".toList)], .string "x".toList]

/-- The rule before the malformed one is kept. -/
theorem rule_before_error_kept : ¬ ∀ (loads : Text → Option Value) (settings : RuleSettings),
    AllOrNothing loads settings := by
  intro hall
  obtain ⟨parsed, hparsed, -, hnone⟩ := hall (fun _ => some oneRuleAndText)
    { destinationDirectory := "/dst".toList
      outputFolderRules := "[\x7b\"pattern\": \"*Cam*\"\x7d, \"x\"]".toList }
  have hrules := hnone fun input hwell => by
    have hinput := hwell.1
    cases hinput
  obtain rfl := Option.some.inj hparsed
  cases hrules

/-- An entry with a slip in it gives a rule with another folder, and one without a colon none. -/
example :
    let s := "pattern:*Cam*;folder:KAMERA,pattern:*Sony*;foldr:SONY,garbage".toList
    (∃ entry ∈ entriesOf s, ¬ IsEntry entry) ∧ (simpleRules "OTHER".toList s).length = 2 := by
  decide +kernel

/-- A number and a text have no order, and nobody catches the error of the sort. -/
example : parseTemplateRules
    (fun _ => some (.array [.object [("priority".toList, position 1)],
      .object [("priority".toList, .string "high".toList)]]))
    { destinationDirectory := "/dst".toList
      outputFolderRules :=
        "[\x7b\"priority\": 1\x7d, \x7b\"priority\": \"high\"\x7d]".toList } = none := rfl

end Outcome

end FileAgent

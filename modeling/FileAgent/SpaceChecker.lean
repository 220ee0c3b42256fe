import FileAgent.CopyStrategy
import FileAgent.StorageMonitor

set_option relaxedAutoImplicit false
set_option autoImplicit false

/-!
# The space check

`app/services/space_checker.py`. Sizes in bytes are integers; the free space and the margins are in
GB, and are multiplied by `1024**3` and truncated. For a `float` that product is exact.

## Main definitions

* `DestinationInfo` — what the check reads of the destination.
* `checkSpaceForFile` — the check.
* `formatGb` — a number of bytes as it stands in the reason text.

## Main results

* `hasSpace_checkSpaceForFile` — when the check finds enough space.
* `containsLower_reason` — which reason texts contain `not accessible`.
-/

namespace FileAgent

/-- `StorageInfo`, whose free space is not negative (`ge=0.0`). -/
structure DestinationInfo extends StorageInfo where
  freeSpaceGb_nonneg : 0 ≤ freeSpaceGb

/-- `int(x)` of a number: it is truncated towards zero. -/
def pyInt (x : ℚ) : ℤ := Int.tdiv x.num x.den

/-- `int(gb * (1024**3))`. -/
def gbToBytes (gb : ℚ) : ℤ := pyInt (gb * 1024 ^ 3)

/-- The quotient of two natural numbers, rounded to an integer, half to even. -/
def roundHalfEven (a b : ℕ) : ℕ :=
  if b < 2 * (a % b) ∨ b = 2 * (a % b) ∧ a / b % 2 = 1 then a / b + 1 else a / b

/-- The nearest natural number whose binary form has 53 significant digits, as in a `float`. -/
def toFloat (n : ℕ) : ℕ := roundHalfEven n (2 ^ (n.log2 - 52)) * 2 ^ (n.log2 - 52)

/-- `f"{n / (1024**3):.1f}"`. -/
def formatGb (n : ℤ) : String :=
  let tenths := roundHalfEven (10 * toFloat n.natAbs) (1024 ^ 3)
  (if n < 0 then "-" else "") ++ toString (tenths / 10) ++ "." ++ toString (tenths % 10)

/-- `_create_unavailable_result`. -/
def createUnavailableResult (fileSizeBytes : ℕ) : SpaceCheckResult where
  hasSpace := false
  availableBytes := 0
  requiredBytes := fileSizeBytes
  fileSizeBytes := fileSizeBytes
  safetyMarginBytes := 0
  reason := "Storage information unavailable - monitoring may not be running"

/-- `_create_inaccessible_result`; an empty `error_message` counts as none. -/
def createInaccessibleResult (fileSizeBytes : ℕ) (errorMessage : Option String) :
    SpaceCheckResult where
  hasSpace := false
  availableBytes := 0
  requiredBytes := fileSizeBytes
  fileSizeBytes := fileSizeBytes
  safetyMarginBytes := 0
  reason := "Destination not accessible: " ++
    ((errorMessage.filter (· ≠ "")).getD "Unknown error")

/-- `_create_space_reason`. -/
def createSpaceReason (hasSpace : Bool) (availableBytes requiredBytes : ℤ) (fileSizeBytes : ℕ) :
    String :=
  if hasSpace then
    "Sufficient space: " ++ formatGb availableBytes ++ "GB available, " ++ formatGb requiredBytes ++
      "GB required for " ++ formatGb fileSizeBytes ++ "GB file"
  else
    "Insufficient space: " ++ formatGb availableBytes ++ "GB available, " ++
      formatGb requiredBytes ++ "GB required (shortage: " ++
      formatGb (requiredBytes - availableBytes) ++ "GB). File: " ++ formatGb fileSizeBytes ++
      "GB + safety margins"

/-- `copy_safety_margin_gb` in bytes. -/
def Settings.safetyMarginBytes (cfg : Settings) : ℤ := gbToBytes cfg.copySafetyMarginGb

/-- `minimum_free_space_after_copy_gb` in bytes. -/
def Settings.minimumAfterCopyBytes (cfg : Settings) : ℤ := gbToBytes cfg.minimumFreeSpaceAfterCopyGb

/-- `free_space_gb` in bytes. -/
def DestinationInfo.availableBytes (info : DestinationInfo) : ℤ := gbToBytes info.freeSpaceGb

/-- `check_space_for_file`; `none` stands for missing information. -/
def checkSpaceForFile (cfg : Settings) (info : Option DestinationInfo) (fileSizeBytes : ℕ) :
    SpaceCheckResult :=
  match info with
  | none => createUnavailableResult fileSizeBytes
  | some info =>
    if !info.isAccessible then createInaccessibleResult fileSizeBytes info.errorMessage
    else
      let availableBytes := info.availableBytes
      let requiredBytes := fileSizeBytes + cfg.safetyMarginBytes + cfg.minimumAfterCopyBytes
      let hasSpace := decide (requiredBytes ≤ availableBytes)
      { hasSpace := hasSpace
        availableBytes := availableBytes
        requiredBytes := requiredBytes
        fileSizeBytes := fileSizeBytes
        safetyMarginBytes := cfg.safetyMarginBytes
        reason := createSpaceReason hasSpace availableBytes requiredBytes fileSizeBytes }

/-- 1.5 GB and a bit less than a tenth of a GB. -/
example : formatGb 1610612736 = "1.5" ∧ formatGb (-100000000) = "-0.1" := by decide +kernel

section Lemmas

variable {cfg : Settings} {info : DestinationInfo} {size : ℕ}

/-- **When the check finds enough space**: the destination is accessible, and the file fits with
both margins. -/
lemma hasSpace_checkSpaceForFile :
    (checkSpaceForFile cfg (some info) size).hasSpace = true ↔
      info.isAccessible = true ∧
        size + cfg.safetyMarginBytes + cfg.minimumAfterCopyBytes ≤ info.availableBytes := by
  unfold checkSpaceForFile
  by_cases h : info.isAccessible = true <;> simp [h, createInaccessibleResult]

/-- The free space in bytes is not negative. -/
lemma availableBytes_nonneg (info : DestinationInfo) : 0 ≤ info.availableBytes := by
  have hnum : 0 ≤ (info.freeSpaceGb * 1024 ^ 3).num :=
    Rat.num_nonneg.mpr (mul_nonneg info.freeSpaceGb_nonneg (by norm_num))
  exact Int.tdiv_nonneg hnum (Int.natCast_nonneg _)

end Lemmas

/-! ## The reason texts -/

/-- A text that, in lower case, has no two letters `c` in a row and does not begin with one. The
phrase `not accessible` has two in a row. -/
def Plain (text : String) : Prop :=
  (lowerText text).IsChain (fun a b => ¬ (a = 'c' ∧ b = 'c')) ∧
    (lowerText text).head? ≠ some 'c'

instance (text : String) : Decidable (Plain text) := inferInstanceAs (Decidable (_ ∧ _))

section Reasons

variable {text text' : String} {cfg : Settings} {info : DestinationInfo} {size : ℕ}

/-- Plain texts in a row are plain. -/
lemma plain_append (h : Plain text) (h' : Plain text') : Plain (text ++ text') := by
  obtain ⟨hchain, hhead⟩ := h
  obtain ⟨hchain', hhead'⟩ := h'
  simp only [Plain, lowerText_append]
  refine ⟨hchain.append hchain' ?_, ?_⟩
  · rintro a - b hb ⟨-, rfl⟩
    exact hhead' hb
  · rw [List.head?_append]
    cases hl : (lowerText text).head? with
    | none => simpa [hl] using hhead'
    | some a =>
      rw [hl] at hhead
      simpa using hhead

/-- A text without the letter `c` is plain. -/
lemma plain_of_forall_ne (h : ∀ c ∈ text.toList, 'c' ∉ lowerChar c) : Plain text := by
  have hne : ∀ c ∈ lowerText text, c ≠ 'c' := by
    intro c hc
    obtain ⟨d, hd, hcd⟩ := List.mem_flatMap.mp hc
    rintro rfl
    exact h d hd hcd
  constructor
  · rw [List.isChain_iff_forall_rel_of_append_cons_cons]
    rintro a b l₁ l₂ heq ⟨hc, -⟩
    exact hne a (by rw [heq]; simp) hc
  · intro hhead
    exact hne 'c' (List.mem_of_head? hhead) rfl

/-- A digit is lowered to itself. -/
lemma lowerChar_of_isDigit {c : Char} (h : c.isDigit = true) : lowerChar c = [c] := by
  have hle : c.val ≤ 57 := by
    simp only [Char.isDigit, Bool.and_eq_true, decide_eq_true_eq] at h
    exact h.2
  have hne : ∀ d : Char, 57 < d.val → c ≠ d := by
    rintro d hd rfl
    exact absurd hle (UInt32.not_le.mpr hd)
  have hsame : c.toLower = c := by
    unfold Char.toLower
    split_ifs with hupper
    · exact absurd (UInt32.le_trans hupper.1 hle) (by decide)
    · rfl
  rw [lowerChar, if_neg (hne _ (by decide)), if_neg (hne _ (by decide)), hsame]

/-- A number is plain. -/
lemma plain_toString (n : ℕ) : Plain (toString n) := by
  refine plain_of_forall_ne fun c hc hmem => ?_
  have hdigit : c.isDigit = true := by
    rw [show toString n = n.repr from rfl, Nat.toList_repr] at hc
    exact Nat.isDigit_of_mem_toDigits (by decide) (by decide) hc
  rw [lowerChar_of_isDigit hdigit, List.mem_singleton] at hmem
  rw [← hmem] at hdigit
  exact absurd hdigit (by decide)

/-- A plain text does not say `not accessible`. -/
lemma containsLower_of_plain (h : Plain text) : containsLower "not accessible" text = false := by
  rw [containsLower, decide_eq_false_iff_not]
  intro hphrase
  have hchain := List.IsChain.infix h.1 hphrase
  revert hchain
  decide

/-- A size in gigabytes is plain. -/
lemma plain_formatGb (n : ℤ) : Plain (formatGb n) := by
  have hsign : Plain (if n < 0 then "-" else "") := by
    split_ifs <;> decide +kernel
  exact plain_append (plain_append (plain_append hsign (plain_toString _)) (by decide +kernel))
    (plain_toString _)

/-- The reason of a space check is plain. -/
lemma plain_createSpaceReason (available required : ℤ) :
    Plain (createSpaceReason false available required size) := by
  have ha := plain_formatGb available
  have hr := plain_formatGb required
  have hs := plain_formatGb (required - available)
  have hf := plain_formatGb size
  have h₁ : Plain "Insufficient space: " := by decide +kernel
  have h₂ : Plain "GB available, " := by decide +kernel
  have h₃ : Plain "GB required (shortage: " := by decide +kernel
  have h₄ : Plain "GB). File: " := by decide +kernel
  have h₅ : Plain "GB + safety margins" := by decide +kernel
  have hshort := plain_append (plain_append (plain_append h₁ ha) h₂) hr
  exact plain_append (plain_append (plain_append (plain_append (plain_append hshort h₃) hs) h₄) hf)
    h₅

/-- A text that contains a phrase. -/
lemma containsLower_of_isInfix {needle : String}
    (h : needle.toList <:+: lowerText text) : containsLower needle text = true :=
  decide_eq_true h

/-- **What the text says**: of a failed check, it contains `not accessible` exactly if the
information is there and says that the destination is not accessible. -/
lemma containsLower_reason {info : Option DestinationInfo}
    (h : (checkSpaceForFile cfg info size).hasSpace = false) :
    containsLower "not accessible" (checkSpaceForFile cfg info size).reason =
      info.any fun info => !info.isAccessible := by
  cases info with
  | none =>
    have hplain : Plain "Storage information unavailable - monitoring may not be running" := by
      decide +kernel
    exact containsLower_of_plain hplain
  | some info =>
    unfold checkSpaceForFile at h ⊢
    cases hacc : info.isAccessible with
    | false =>
      simp only [hacc, Bool.not_false, if_true, createInaccessibleResult, Option.any_some]
      refine containsLower_of_isInfix ?_
      rw [lowerText_append]
      exact List.infix_append_of_infix_left (by decide +kernel)
    | true =>
      simp only [hacc, Bool.not_true, Bool.false_eq_true, if_false, Option.any_some] at h ⊢
      rw [h]
      exact containsLower_of_plain (plain_createSpaceReason _ _)

end Reasons

end FileAgent

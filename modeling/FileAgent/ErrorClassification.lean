import FileAgent.Worker

set_option relaxedAutoImplicit false
set_option autoImplicit false

/-!
# Network errors and vanished sources

Whether an exception is a network error is decided in four places, each with lists of its own:
`NetworkErrorDetector`, the handlers of `copy_file` and of `_copy_growing_file`, and
`JobErrorClassifier`. The lists of the two handlers are the same, and shorter than the others. The
classifier looks at them before it asks whether the source is gone, and they contain `ENOENT`.

## Main definitions

* `NetworkErrorDetector.isNetworkError`, `JobErrorClassifier.isNetworkError` — the tests.
* `OneClassification` — the four places agree on an exception.

## Main results

* `oneClassification_iff` — when the four places agree.
* `removed_iff` — when a vanished source is classified as `REMOVED`.
-/

namespace FileAgent

/-! ## The tests -/

/-- `_is_network_error_string` or `_is_network_errno`. -/
def NetworkErrorDetector.isNetworkError (e : PyError) : Bool :=
  networkErrorStrings.any (containsLower · e.message) || e.errno.any (· ∈ networkErrnoCodes)

namespace JobErrorClassifier

/-- `JobErrorClassifier.NETWORK_ERROR_STRINGS`. -/
def networkErrorStrings : List String :=
  ["input/output error", "errno 5", "connection refused", "network is unreachable",
    "no route to host", "connection timed out", "broken pipe", "errno 32", "errno 110",
    "errno 111", "smb error", "cifs error", "mount_smbfs", "network mount", "permission denied",
    "invalid argument", "errno 22", "network path was not found", "winerror 53",
    "the network name cannot be found", "winerror 67", "the network location cannot be reached",
    "winerror 1231", "access is denied", "errno 13"]

/-- `JobErrorClassifier.NETWORK_ERRNO_CODES`. -/
def networkErrnoCodes : List ℤ :=
  [5, 111, 110, 101, 113, 32, 13, 107, 104, 22, 2, 13, 22, 53, 67, 1231, 13]

/-- `_is_network_error`. -/
def isNetworkError (e : PyError) : Bool :=
  networkErrorStrings.any (containsLower · e.message) || e.errno.any (· ∈ networkErrnoCodes)

end JobErrorClassifier

/-- The detector and the classifier have the same lists. -/
lemma isNetworkError_classifier (e : PyError) :
    JobErrorClassifier.isNetworkError e = NetworkErrorDetector.isNetworkError e := by
  have hcodes : ∀ n : ℤ, n ∈ JobErrorClassifier.networkErrnoCodes ↔ n ∈ networkErrnoCodes := by
    intro n
    simp only [JobErrorClassifier.networkErrnoCodes, networkErrnoCodes, List.mem_cons,
      List.not_mem_nil, or_false]
    omega
  simp only [JobErrorClassifier.isNetworkError, NetworkErrorDetector.isNetworkError, hcodes]
  rfl

/-! ## What the handlers of the strategy make of an exception -/

/-- A `NetworkError` is raised. -/
def CopyOutcome.isNetworkError : CopyOutcome → Bool
  | .raised e => e.kind = .network
  | .returned _ => false

section Handlers

variable {e : PyError}

/-- **What the handlers see**: an exception that is not a `NetworkError` becomes one exactly if it
is in the lists of the handlers. -/
lemma isNetworkError_growingFileFailed (hkind : e.kind ≠ .network) :
    (growingFileFailed e).isNetworkError = e.isNetworkError := by
  rw [growingFileFailed, if_neg hkind]
  cases e.isNetworkError <;> rfl

/-- Both handlers do the same with every exception but `FileNotFoundError`. -/
lemma copyFileFailed_of_ne (hkind : e.kind ≠ .fileNotFound) :
    copyFileFailed e = growingFileFailed e := if_neg hkind

end Handlers

/-! ## One classification -/

/-- The four places agree on an exception: `copy_file` and `_copy_growing_file` turn it into a
`NetworkError` exactly if the detector would, and exactly if the classifier takes it for a network
error. -/
structure OneClassification (e : PyError) : Prop where
  copyFile : (copyFileFailed e).isNetworkError = true ↔
    NetworkErrorDetector.isNetworkError e = true
  copyGrowingFile : (growingFileFailed e).isNetworkError = true ↔
    NetworkErrorDetector.isNetworkError e = true
  classifier : NetworkErrorDetector.isNetworkError e = true ↔
    JobErrorClassifier.isNetworkError e = true

/-- The texts that the lists of the handlers lack. -/
def missingStrings : List String :=
  ["no route to host", "connection timed out", "broken pipe", "errno 32", "errno 110",
    "errno 111", "smb error", "cifs error", "mount_smbfs", "network mount", "permission denied",
    "the network location cannot be reached", "winerror 1231", "errno 13"]

/-- The codes that they lack: `ECONNREFUSED`, `ETIMEDOUT`, `ENETUNREACH`, `EHOSTUNREACH`, `EPIPE`,
`ENOTCONN`, `ECONNRESET` and `ENOENT`. -/
def missingErrnoCodes : List ℤ := [111, 110, 101, 113, 32, 107, 104, 2]

/-- The exception is in what the lists of the handlers lack. -/
def InMissing (e : PyError) : Prop :=
  (∃ s ∈ missingStrings, containsLower s e.message = true) ∨
    ∃ n ∈ missingErrnoCodes, e.errno = some n

section OneClassification

variable {e : PyError}

/-- The longer list of texts is the shorter one and what it lacks. -/
lemma exists_networkErrorString :
    (∃ s ∈ networkErrorStrings, containsLower s e.message = true) ↔
      (∃ s ∈ networkIndicators, containsLower s e.message = true) ∨
        ∃ s ∈ missingStrings, containsLower s e.message = true := by
  have hparts : ∀ s ∈ networkErrorStrings, s ∈ networkIndicators ∨ s ∈ missingStrings := by decide
  have hshort : ∀ s ∈ networkIndicators, s ∈ networkErrorStrings := by decide
  have hmissing : ∀ s ∈ missingStrings, s ∈ networkErrorStrings := by decide
  constructor
  · rintro ⟨s, hs, hmsg⟩
    exact (hparts s hs).imp (fun h => ⟨s, h, hmsg⟩) (fun h => ⟨s, h, hmsg⟩)
  · rintro (⟨s, hs, hmsg⟩ | ⟨s, hs, hmsg⟩)
    · exact ⟨s, hshort s hs, hmsg⟩
    · exact ⟨s, hmissing s hs, hmsg⟩

/-- The same for the codes. -/
lemma any_networkErrnoCode (errno : Option ℤ) :
    errno.any (· ∈ networkErrnoCodes) = true ↔
      errno.any (· ∈ ([22, 5, 53, 67, 1231, 13] : List ℤ)) = true ∨
        ∃ n ∈ missingErrnoCodes, errno = some n := by
  cases errno with
  | none => simp
  | some n =>
    simp only [Option.any_some, decide_eq_true_eq, Option.some.injEq, exists_eq_right',
      networkErrnoCodes, missingErrnoCodes, List.mem_cons, List.not_mem_nil, or_false]
    omega

/-- The longer lists are the shorter ones and what these lack. -/
lemma isNetworkError_detector_iff :
    NetworkErrorDetector.isNetworkError e = true ↔ e.isNetworkError = true ∨ InMissing e := by
  rw [NetworkErrorDetector.isNetworkError, PyError.isNetworkError, InMissing, Bool.or_eq_true,
    Bool.or_eq_true, List.any_eq_true, List.any_eq_true, exists_networkErrorString,
    any_networkErrnoCode]
  exact or_or_or_comm

/-- **When the classifications agree**: exactly if an exception that is in what the lists of the
handlers lack is in these lists, too.

**Proof sketch.** The detector and the classifier have the same lists, and those of the handlers are
a part of them (`isNetworkError_detector_iff`). -/
theorem oneClassification_iff (hnetwork : e.kind ≠ .network) (hfound : e.kind ≠ .fileNotFound) :
    OneClassification e ↔ (InMissing e → e.isNetworkError = true) := by
  have hhandlers : (e.isNetworkError = true ↔ NetworkErrorDetector.isNetworkError e = true) ↔
      (InMissing e → e.isNetworkError = true) := by
    rw [isNetworkError_detector_iff]
    tauto
  rw [← hhandlers]
  constructor
  · intro h
    rw [← isNetworkError_growingFileFailed hnetwork]
    exact h.copyGrowingFile
  · intro h
    refine ⟨?_, ?_, ?_⟩
    · rw [copyFileFailed_of_ne hfound, isNetworkError_growingFileFailed hnetwork]
      exact h
    · rw [isNetworkError_growingFileFailed hnetwork]
      exact h
    · rw [isNetworkError_classifier]

/-- An input/output error is a network error in all four places. -/
theorem oneClassification_inputOutputError :
    OneClassification { kind := .os, errno := some 5, message := "[Errno 5] Input/output error" } :=
  (oneClassification_iff (by decide) (by decide)).mpr fun _ =>
    Bool.or_eq_true_iff.mpr (.inr (by decide))

/-- A connection that is reset while the source is read: the detector and the classifier take it for
a network error by its code, which the handlers do not know. -/
theorem connection_reset_escapes :
    ¬ ∀ e : PyError, e.kind ≠ .network → e.kind ≠ .fileNotFound → OneClassification e := by
  intro hall
  have h := hall
    { kind := .os, errno := some 104, message := "[Errno 104] Connection reset by peer" }
    (by decide) (by decide)
  have hescapes := h.copyGrowingFile.mpr (Bool.or_eq_true_iff.mpr (.inr (by decide)))
  revert hescapes
  decide +kernel

end OneClassification

/-! ## A vanished source -/

section Vanished

variable {info : Option StorageInfo} {e : PyError}

/-- The classifier asks for the source only when the exception is no network error. -/
lemma classifyCopyError_vanished (hkind : e.kind ≠ .network)
    (hdest : info.any (·.status.isProblematic) = false) :
    classifyCopyError info false e =
      if JobErrorClassifier.isNetworkError e then .failed else .removed := by
  rw [isNetworkError_classifier, NetworkErrorDetector.isNetworkError]
  simp [classifyCopyError, hkind, hdest]

/-- **When a vanished source is `REMOVED`**: exactly if the exception has no `errno` and its text,
which contains the path, contains none of the network indicators.

**Proof sketch.** `ENOENT` is one of the network codes, and the network test comes before the test
of the source. -/
theorem removed_iff (hkind : e.kind = .fileNotFound) (herrno : e.errno = some 2 ∨ e.errno = none)
    (hdest : info.any (·.status.isProblematic) = false) :
    classifyCopyError info false e = .removed ↔
      e.errno = none ∧ ∀ s ∈ JobErrorClassifier.networkErrorStrings,
        containsLower s e.message = false := by
  rw [classifyCopyError_vanished (by rw [hkind]; decide) hdest]
  have htest : JobErrorClassifier.isNetworkError e = false ↔
      e.errno = none ∧ ∀ s ∈ JobErrorClassifier.networkErrorStrings,
        containsLower s e.message = false := by
    rw [JobErrorClassifier.isNetworkError, Bool.or_eq_false_iff, List.any_eq_false]
    rcases herrno with h | h
    · simp [h, JobErrorClassifier.networkErrnoCodes]
    · simp [h]
  rw [← htest]
  cases JobErrorClassifier.isNetworkError e <;> simp

/-- The exception of the repository's test, which has no `errno`. -/
theorem removed_withoutErrno :
    classifyCopyError none false
      { kind := .fileNotFound
        message := "[Errno 2] No such file or directory: '/src/a.mxf'" } = .removed :=
  (removed_iff rfl (.inr rfl) rfl).mpr ⟨rfl, by decide +kernel⟩

/-- The exception that the operating system raises has `ENOENT`, and is a network error. -/
theorem vanished_source_fails :
    ¬ ∀ (info : Option StorageInfo) (e : PyError), e.kind = .fileNotFound →
      (e.errno = some 2 ∨ e.errno = none) → info.any (·.status.isProblematic) = false →
      classifyCopyError info false e = .removed := by
  intro hall
  have h := hall none
    { kind := .fileNotFound, errno := some 2
      message := "[Errno 2] No such file or directory: '/src/a.mxf'" } rfl (.inl rfl) rfl
  rw [classifyCopyError_vanished (by decide) rfl, JobErrorClassifier.isNetworkError,
    if_pos (Bool.or_eq_true_iff.mpr (.inr (by decide)))] at h
  cases h

end Vanished

end FileAgent

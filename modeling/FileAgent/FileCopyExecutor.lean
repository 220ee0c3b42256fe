import FileAgent.FileOperations
import FileAgent.Library.Run

set_option relaxedAutoImplicit false
set_option autoImplicit false

/-!
# The copy executor

`FileCopyExecutor` of `app/services/copy/file_copy_executor.py`: `copy_with_temp_file` and
`copy_direct`, with `_perform_copy` and `verify_copy`, as one machine that is suspended at one
operation of the file system at a time, and the files it works on. Bytes may be appended to the
source at any moment; nobody else writes the destination or the temporary file. An operation either
completes or raises. A write or a close that raises may have lost any part of what was written
before; every other operation that raises has no effect. Progress reports, whose exceptions are
caught, and the times in the result are left out.

## Main definitions

* `ExecutorCall`, `CopyResult` — the arguments and the result of a copy.
* `ExecutorPoint`, `ExecutorCall.request`, `ExecutorCall.resume` — the machine.
* `ExecutorWorld`, `executorStep` — the machine with the files.
-/

namespace FileAgent

open Transition

/-- `validate_file_sizes`. -/
def validateFileSizes (sourceSize destSize : ℕ) : Bool := sourceSize = destSize

/-- `create_temp_file_path`: `dest_path.with_suffix(dest_path.suffix + ".tmp")`, which puts `.tmp`
behind the name. -/
def createTempFilePath (destPath : DestPath) : DestPath :=
  { destPath with name := destPath.name ++ ".tmp" }

/-- The temporary name is not the destination's. -/
lemma createTempFilePath_ne (p : DestPath) : createTempFilePath p ≠ p := by
  intro h
  have hlen := congrArg String.length (congrArg DestPath.name h)
  rw [createTempFilePath, String.length_append] at hlen
  have htmp : ".tmp".length = 4 := rfl
  omega

/-- `CopyResult`, without the times. -/
structure CopyResult where
  success : Bool
  sourcePath : FilePath
  destinationPath : DestPath
  bytesCopied : ℕ
  errorMessage : Option String := none
  verificationSuccessful : Bool := true
  tempFileUsed : Bool := false
  tempFilePath : Option DestPath := none
  deriving DecidableEq

/-- A call of `copy_with_temp_file` or `copy_direct`. -/
structure ExecutorCall where
  /-- `use_temporary_file`: the method called is `copy_with_temp_file`. -/
  useTemporaryFile : Bool
  source : FilePath
  dest : DestPath
  chunkSizeKb : ℕ

/-- `check_write_error` in the handler of a write, followed by `raise write_error`. -/
def chunkWriteError (e : PyError) : PyError :=
  if networkErrorStrings.any (containsLower · e.message) || e.errno.any (· ∈ networkErrnoCodes) then
    networkError ("Network error during chunk write: " ++ e.message)
  else e

/-- The handlers of `check_destination_connectivity`: an exception that does not look like a network
error is dropped. -/
def connectivityError (e : PyError) : Option PyError :=
  if e.kind = .network then some e
  else if networkErrorStrings.any (containsLower · e.message) ||
      e.errno.any (· ∈ networkErrnoCodes) then
    some (networkError ("Network error during connectivity check: " ++ e.message))
  else none

/-! ## The machine -/

/-- The locals of the loop of `_perform_copy`, with `last_check_bytes` of its detector. -/
structure ExecutorVars where
  bytesCopied : ℕ := 0
  lastCheckBytes : ℕ := 0

/-- The operations the executor asks for; all but the first ones concern the file it writes. -/
inductive ExecutorRequest
  | mkdir
  | sourceSize
  | openSource
  | openTarget
  /-- Read at most `size` bytes at position `offset` of the source. -/
  | read (offset size : ℕ)
  | write (chunk : List UInt8)
  | checkDestinationConnectivity
  | closeTarget
  | closeSource
  | targetExists
  | targetSize
  | unlinkTarget
  | renameTarget
  /-- The call has ended. -/
  | nothing

/-- The answers. A write or close that raises leaves the first `kept` bytes in the file. -/
inductive ExecutorAnswer
  | done
  | size (n : ℕ)
  | exists (b : Bool)
  | data (chunk : List UInt8)
  | error (e : PyError) (kept : ℕ)

/-- A suspended call. The argument `n` is `bytes_copied`. -/
inductive ExecutorPoint
  | mkdir
  /-- `_perform_copy`; the first point is before its `try`. -/
  | statSource
  | openSource
  | openTarget
  | read (v : ExecutorVars)
  | write (v : ExecutorVars) (chunk : List UInt8)
  | connectivity (v : ExecutorVars)
  /-- Leaving the `async with`, with the exception in flight. -/
  | closeTarget (n : ℕ) (inFlight : Option PyError)
  | closeSource (n : ℕ) (inFlight : Option PyError)
  /-- `verify_copy`. -/
  | verifyExists (n : ℕ)
  | verifySource (n : ℕ)
  | verifyTarget (n sourceSize : ℕ)
  /-- After a failed verification. -/
  | unverifiedExists (n : ℕ)
  | unlinkUnverified (n : ℕ)
  | rename (n : ℕ)
  /-- The handler of `copy_with_temp_file` and `copy_direct`. -/
  | cleanupExists (e : PyError)
  | cleanupUnlink (e : PyError)
  | returned (r : CopyResult)
  | raised (e : PyError)

namespace ExecutorCall

variable (c : ExecutorCall)

/-- The path `_perform_copy` writes to. -/
def target : DestPath := if c.useTemporaryFile then createTempFilePath c.dest else c.dest

/-- `chunk_size`. -/
def chunkSize : ℕ := c.chunkSizeKb * 1024

/-- What `_perform_copy` returns after an exception in its `try`, and both methods then, too. -/
def copyFailed (n : ℕ) (e : PyError) : CopyResult :=
  { success := false, sourcePath := c.source, destinationPath := c.target, bytesCopied := n
    errorMessage := some e.message }

/-- The result of a successful copy. -/
def succeeded (n : ℕ) : CopyResult :=
  { success := true, sourcePath := c.source, destinationPath := c.dest, bytesCopied := n
    tempFileUsed := c.useTemporaryFile
    tempFilePath := if c.useTemporaryFile then some c.target else none }

/-- The result after a failed verification. -/
def unverified (n : ℕ) : CopyResult :=
  { success := false, sourcePath := c.source, destinationPath := c.dest, bytesCopied := n
    errorMessage := some "File verification failed after copy", verificationSuccessful := false
    tempFileUsed := c.useTemporaryFile
    tempFilePath := if c.useTemporaryFile then some c.target else none }

/-- The result of the handlers of the two methods. -/
def failed (e : PyError) : CopyResult :=
  { success := false, sourcePath := c.source, destinationPath := c.dest, bytesCopied := 0
    errorMessage := some ((if c.useTemporaryFile then "Temp file copy failed: "
      else "Direct copy failed: ") ++ e.message)
    tempFileUsed := c.useTemporaryFile
    tempFilePath := if c.useTemporaryFile then some c.target else none }

/-- The operation awaited at a point. -/
def request : ExecutorPoint → ExecutorRequest
  | .mkdir => .mkdir
  | .statSource | .verifySource _ => .sourceSize
  | .openSource => .openSource
  | .openTarget => .openTarget
  | .read v => .read v.bytesCopied c.chunkSize
  | .write _ chunk => .write chunk
  | .connectivity _ => .checkDestinationConnectivity
  | .closeTarget _ _ => .closeTarget
  | .closeSource _ _ => .closeSource
  | .verifyExists _ | .unverifiedExists _ | .cleanupExists _ => .targetExists
  | .verifyTarget _ _ => .targetSize
  | .unlinkUnverified _ | .cleanupUnlink _ => .unlinkTarget
  | .rename _ => .renameTarget
  | .returned _ | .raised _ => .nothing

/-- The locals after a chunk is written, and the next point: the detector looks at the network once
a megabyte. -/
def wrote (v : ExecutorVars) (chunk : List UInt8) : ExecutorPoint :=
  let v := { v with bytesCopied := v.bytesCopied + chunk.length }
  if 1024 * 1024 ≤ v.bytesCopied - v.lastCheckBytes then .connectivity v else .read v

/-- The code between two operations: from the answer at a point to the next point. -/
def resume : ExecutorPoint → ExecutorAnswer → Option ExecutorPoint
  | .mkdir, .done => some .statSource
  | .mkdir, .error e _ => some (.cleanupExists e)
  | .statSource, .size _ => some .openSource
  | .statSource, .error e _ => some (.cleanupExists e)
  | .openSource, .done => some .openTarget
  | .openSource, .error e _ => some (.returned (c.copyFailed 0 e))
  | .openTarget, .done => some (.read {})
  | .openTarget, .error e _ => some (.closeSource 0 (some e))
  | .read v, .data chunk =>
    some (if chunk = [] then .closeTarget v.bytesCopied none else .write v chunk)
  | .read v, .error e _ => some (.closeTarget v.bytesCopied (some e))
  | .write v chunk, .done => some (wrote v chunk)
  | .write v _, .error e _ => some (.closeTarget v.bytesCopied (some (chunkWriteError e)))
  | .connectivity v, .done => some (.read { v with lastCheckBytes := v.bytesCopied })
  | .connectivity v, .error e _ =>
    match connectivityError e with
    | some e => some (.closeTarget v.bytesCopied (some e))
    | none => some (.read v)
  | .closeTarget n inFlight, .done => some (.closeSource n inFlight)
  | .closeTarget n _, .error e _ => some (.closeSource n (some e))
  | .closeSource n none, .done => some (.verifyExists n)
  | .closeSource n (some e), .done => some (.returned (c.copyFailed n e))
  | .closeSource n _, .error e _ => some (.returned (c.copyFailed n e))
  | .verifyExists n, .exists b => some (if b then .verifySource n else .unverifiedExists n)
  | .verifyExists n, .error _ _ => some (.unverifiedExists n)
  | .verifySource n, .size sourceSize => some (.verifyTarget n sourceSize)
  | .verifySource n, .error _ _ => some (.unverifiedExists n)
  | .verifyTarget n sourceSize, .size destSize =>
    some (if validateFileSizes sourceSize destSize then
      if c.useTemporaryFile then .rename n else .returned (c.succeeded n)
    else .unverifiedExists n)
  | .verifyTarget n _, .error _ _ => some (.unverifiedExists n)
  | .unverifiedExists n, .exists b =>
    some (if b then .unlinkUnverified n else .returned (c.unverified n))
  | .unverifiedExists _, .error e _ => some (.cleanupExists e)
  | .unlinkUnverified n, .done => some (.returned (c.unverified n))
  | .unlinkUnverified _, .error e _ => some (.cleanupExists e)
  | .rename n, .done => some (.returned (c.succeeded n))
  | .rename _, .error e _ => some (.cleanupExists e)
  | .cleanupExists e, .exists b =>
    some (if b then .cleanupUnlink e else .returned (c.failed e))
  | .cleanupExists _, .error e _ => some (.raised e)
  | .cleanupUnlink e, .done => some (.returned (c.failed e))
  | .cleanupUnlink e, .error _ _ => some (.returned (c.failed e))
  | _, _ => none

end ExecutorCall

/-! ## The files -/

/-- A suspended call, the contents of the source, and the files at the destination. The last three
fields record what has happened so far. -/
structure ExecutorWorld where
  point : ExecutorPoint
  source : List UInt8
  files : DestPath → Option (List UInt8)
  /-- What the source held when its size was last read, at the end of a copy by `verify_copy`. -/
  verified : Option (List UInt8) := none
  /-- Opening the target created the file. -/
  created : Bool := false
  /-- An `unlink` raised. -/
  unlinkFailed : Bool := false

/-- Bytes are appended to the source, or the operation awaited is answered. -/
inductive ExecutorAction
  | append (bytes : List UInt8)
  | answer (a : ExecutorAnswer)

namespace ExecutorWorld

variable (c : ExecutorCall) (w : ExecutorWorld)

/-- The contents of the file the executor writes. -/
def target : Option (List UInt8) := w.files c.target

/-- The files with other contents of the target. -/
def setTarget (contents : Option (List UInt8)) : ExecutorWorld :=
  { w with files := Function.update w.files c.target contents }

/-- The answers an operation can have: the sizes are those of the files, the target is reported as
it is, and a read returns bytes of the source from its position on. -/
def Answers : ExecutorRequest → ExecutorAnswer → Prop
  | .sourceSize, .size n => n = w.source.length
  | .targetSize, .size n => (w.target c).map List.length = some n
  | .targetExists, .exists b => b = (w.target c).isSome
  | .read offset size, .data chunk => chunk <+: (w.source.drop offset).take size
  | _, _ => True

instance (r : ExecutorRequest) (a : ExecutorAnswer) : Decidable (w.Answers c r a) := by
  unfold Answers
  split <;> infer_instance

/-- The effect of an operation with its answer. -/
def effect : ExecutorRequest → ExecutorAnswer → ExecutorWorld
  | .openTarget, .done =>
    { w.setTarget c (some []) with created := w.created || (w.target c).isNone }
  | .write chunk, .done => w.setTarget c ((w.target c).map (· ++ chunk))
  | .write chunk, .error _ kept => w.setTarget c ((w.target c).map fun t => (t ++ chunk).take kept)
  | .closeTarget, .error _ kept => w.setTarget c ((w.target c).map fun t => t.take kept)
  | .unlinkTarget, .done => w.setTarget c none
  | .unlinkTarget, .error _ _ => { w with unlinkFailed := true }
  | .renameTarget, .done =>
    { w.setTarget c none with
      files := Function.update (w.setTarget c none).files c.dest (w.target c) }
  | .sourceSize, .size _ => { w with verified := some w.source }
  | _, _ => w

end ExecutorWorld

/-- One step. -/
def executorStep (c : ExecutorCall) (w : ExecutorWorld) : ExecutorAction → Option ExecutorWorld
  | .append bytes => some { w with source := w.source ++ bytes }
  | .answer a =>
    if w.Answers c (c.request w.point) a then
      (c.resume w.point a).map fun p => { w.effect c (c.request w.point) a with point := p }
    else none

/-- A call begins. -/
def ExecutorWorld.start (source : List UInt8) (files : DestPath → Option (List UInt8)) :
    ExecutorWorld :=
  { point := .mkdir, source := source, files := files }

/-! ## What the operations do to the files -/

section Effects

variable {c : ExecutorCall} {w w' : ExecutorWorld} {a : ExecutorAnswer} {act : ExecutorAction}

/-- The file written with a temporary file is not the destination. -/
lemma target_ne_dest (h : c.useTemporaryFile = true) : c.target ≠ c.dest := by
  rw [ExecutorCall.target, if_pos h]
  exact createTempFilePath_ne _

/-- The file written holds what was put there. -/
@[simp] lemma target_setTarget (contents : Option (List UInt8)) :
    (w.setTarget c contents).target c = contents := by
  simp [ExecutorWorld.setTarget, ExecutorWorld.target]

/-- Writing the target leaves the other files alone. -/
lemma files_setTarget_of_ne {contents : Option (List UInt8)} {p : DestPath} (h : p ≠ c.target) :
    (w.setTarget c contents).files p = w.files p := by
  simp [ExecutorWorld.setTarget, h]

/-- A step: bytes are appended, or the point goes on with the effect of its operation. -/
lemma executorStep_cases (h : executorStep c w act = some w') :
    (∃ bytes, act = .append bytes ∧ w' = { w with source := w.source ++ bytes }) ∨
      ∃ a p, act = .answer a ∧ w.Answers c (c.request w.point) a ∧
        c.resume w.point a = some p ∧
        w' = { w.effect c (c.request w.point) a with point := p } := by
  cases act with
  | append bytes => exact .inl ⟨bytes, rfl, (Option.some.inj h).symm⟩
  | answer a =>
    right
    rw [executorStep] at h
    split_ifs at h with ha
    obtain ⟨p, hp, rfl⟩ := Option.map_eq_some_iff.mp h
    exact ⟨a, p, rfl, ha, hp, rfl⟩

/-- **The files touched**: the target, and the destination, which only the rename changes. -/
lemma files_effect (p : DestPath) (hp : p ≠ c.target) :
    (w.effect c (c.request w.point) a).files p = w.files p ∨
      (p = c.dest ∧ ∃ n, w.point = .rename n ∧ a = .done) := by
  cases hpt : w.point with
  | rename n =>
    cases a with
    | done =>
      by_cases hd : p = c.dest
      · exact .inr ⟨hd, n, rfl, rfl⟩
      · left
        simp only [ExecutorCall.request, ExecutorWorld.effect]
        rw [Function.update_of_ne hd, files_setTarget_of_ne hp]
    | _ => exact .inl rfl
  | openTarget => cases a <;> first | exact .inl rfl | exact .inl (files_setTarget_of_ne hp)
  | write v chunk => cases a <;> first | exact .inl rfl | exact .inl (files_setTarget_of_ne hp)
  | closeTarget n e => cases a <;> first | exact .inl rfl | exact .inl (files_setTarget_of_ne hp)
  | unlinkUnverified n =>
    cases a <;> first | exact .inl rfl | exact .inl (files_setTarget_of_ne hp)
  | cleanupUnlink e => cases a <;> first | exact .inl rfl | exact .inl (files_setTarget_of_ne hp)
  | _ => cases a <;> exact .inl rfl

end Effects

end FileAgent

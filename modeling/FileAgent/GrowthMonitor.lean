import FileAgent.Coroutine
import FileAgent.GrowingFileDetector

set_option relaxedAutoImplicit false
set_option autoImplicit false

/-!
# The monitor of growing files

The coroutines of `app/services/growing_file_detector.py`: `check_file_growth_status`, which the
scanner awaits too, and `_monitor_growing_files_loop`.

## Main definitions

* `CheckPoint`, `CheckPoint.op`, `CheckPoint.after` — a suspended growth check.
* `checkFileGrowthStatus` — its first stretch.
* `MonitorPoint`, `MonitorPoint.op`, `MonitorPoint.after` — the loop.
* `CheckPoint.Next`, `MonitorPoint.Next` — the transitions of the two.

## Main results

* `CheckPoint.next_of_after`, `MonitorPoint.next_of_after` — what the code between two awaits does.
-/

namespace FileAgent

/-! ## The growth check -/

/-- A suspended `check_file_growth_status`. -/
inductive CheckPoint
  | pathExists
  | getsize
  /-- The first check of a file: the update with its status, and the read after it. -/
  | startTracking (status : FileStatus) (currentTime currentSize : ℕ)
  | tracked
  /-- A later check: the read before its update, the update with its status, and the read after. -/
  | present (c : GrowthCheck)
  | keepStatus (status : FileStatus) (c : GrowthCheck)
  | decide (c : GrowthCheck)

/-- A growth check goes on, or returns a recommended status. -/
inductive CheckNext
  | goesOn (p : CheckPoint)
  | recommends (status : FileStatus)

/-- `check_file_growth_status` of the file `f` up to its first await. -/
def checkFileGrowthStatus (heap : FileId → TrackedFile) (f : FileId) : CheckNext :=
  if (heap f).status = .waitingForNetwork then .recommends .waitingForNetwork
  else .goesOn .pathExists

namespace CheckPoint

/-- The operation a growth check of `f` awaits. -/
def op (f : FileId) : CheckPoint → Op
  | pathExists | getsize => .io
  | startTracking status currentTime currentSize =>
    .call (.updateFileStatusById f status (startTrackingAttrs currentTime currentSize))
  | tracked | present _ | decide _ => .getFileById f
  | keepStatus status c => .call (.updateFileStatusById f status c.attrs)

/-- The locals after the size check of a file. -/
def sized (view : View) (f : FileId) (currentSize : ℕ) : CheckPoint :=
  match (view.heap f).lastGrowthCheck with
  | none => startTracking (view.heap f).status view.now currentSize
  | some last => present (growthCheck (view.heap f) last view.now currentSize)

/-- The code between two awaits. An exception is answered by `FAILED`. -/
def after (cfg : Settings) (view : View) (f : FileId) : CheckPoint → Answer → Option CheckNext
  | pathExists, .io =>
    match view.env.fileExists with
    | none => some (.recommends .failed)
    | some false => some (.recommends .removed)
    | some true => some (.goesOn getsize)
  | getsize, .io =>
    match view.env.size with
    | none => some (.recommends .failed)
    | some currentSize => some (.goesOn (sized view f currentSize))
  | startTracking _ _ _, .done _ => some (.goesOn tracked)
  | tracked, .file _ => some (.recommends .discovered)
  | present _, .file none => some (.recommends .removed)
  | present c, .file (some _) => some (.goesOn (keepStatus (view.heap f).status c))
  | keepStatus _ c, .done _ => some (.goesOn (decide c))
  | decide c, .file _ => some (.recommends (c.recommend cfg))
  | _, _ => none

/-- The transitions of a growth check. The answers to a file that is not there, and to an exception,
are taken together. -/
inductive Next (cfg : Settings) (view : View) (f : FileId) : CheckPoint → Answer → CheckNext → Prop
  | isThere (hexists : view.env.fileExists = some true) :
      Next cfg view f pathExists .io (.goesOn getsize)
  | sized (currentSize : ℕ) (hsize : view.env.size = some currentSize) :
      Next cfg view f getsize .io (.goesOn (sized view f currentSize))
  | started (status : FileStatus) (currentTime currentSize n : ℕ) :
      Next cfg view f (startTracking status currentTime currentSize) (.done n) (.goesOn tracked)
  | tracked (i : Option FileId) : Next cfg view f tracked (.file i) (.recommends .discovered)
  | present (c : GrowthCheck) (i : FileId) :
      Next cfg view f (present c) (.file (some i)) (.goesOn (keepStatus (view.heap f).status c))
  | kept (status : FileStatus) (c : GrowthCheck) (n : ℕ) :
      Next cfg view f (keepStatus status c) (.done n) (.goesOn (decide c))
  | decides (c : GrowthCheck) (i : Option FileId) :
      Next cfg view f (decide c) (.file i) (.recommends (c.recommend cfg))
  | lost {status : FileStatus} (p : CheckPoint) (a : Answer)
      (hstatus : status = .failed ∨ status = .removed) : Next cfg view f p a (.recommends status)

/-- **What the code between two awaits does.**

**Proof sketch.** By cases on the point. Of each the answers of another kind are not taken; a file
that is lost, at any of them, is `lost`, and otherwise each point has the one transition. -/
theorem next_of_after {cfg : Settings} {view : View} {f : FileId} {p : CheckPoint} {a : Answer}
    {next : CheckNext} (h : p.after cfg view f a = some next) : Next cfg view f p a next := by
  cases p with
  | pathExists =>
    cases a <;> simp only [after] at h <;> try cases h
    split at h <;> cases h
    · exact .lost _ _ (.inl rfl)
    · exact .lost _ _ (.inr rfl)
    · rename_i hexists
      exact .isThere hexists
  | getsize =>
    cases a <;> simp only [after] at h <;> try cases h
    split at h <;> cases h
    · exact .lost _ _ (.inl rfl)
    · rename_i currentSize hsize
      exact .sized currentSize hsize
  | present c =>
    cases a with
    | file i =>
      cases i <;> cases h
      · exact .lost _ _ (.inr rfl)
      · exact .present c _
    | _ => cases h
  | _ =>
    cases a <;> cases h
    constructor

end CheckPoint

/-! ## The loop -/

/-- The suspended loop. -/
inductive MonitorPoint
  | getAllFiles
  | check (f : FileId) (p : CheckPoint) (rest : List FileId)
  | update (f : FileId) (recommendedStatus : FileStatus) (rest : List FileId)
  | sleep

namespace MonitorPoint

/-- The files a pass of the loop checks. -/
def isWatched (f : TrackedFile) : Bool :=
  f.lastGrowthCheck.isSome &&
    match f.status with
    | .inQueue | .copying | .growingCopy | .completed | .failed | .removed | .spaceError => false
    | _ => true

/-- The loop over the files of a pass, up to its next await. -/
def next (heap : FileId → TrackedFile) : List FileId → MonitorPoint
  | [] => sleep
  | f :: rest =>
    match checkFileGrowthStatus heap f with
    | .goesOn p => check f p rest
    | .recommends _ => next heap rest

/-- The operation the loop awaits. -/
def op : MonitorPoint → Op
  | getAllFiles => .getAllFiles
  | check f p _ => p.op f
  | update f recommendedStatus _ => .call (.updateFileStatusById f recommendedStatus [])
  | sleep => .io

/-- The code between two awaits. -/
def after (cfg : Settings) (view : View) : MonitorPoint → Answer → Option MonitorPoint
  | getAllFiles, .files ids => some (next view.heap (ids.filter (isWatched ∘ view.heap)))
  | check f p rest, a =>
    (p.after cfg view f a).map fun
      | .goesOn p' => check f p' rest
      | .recommends status =>
        if status ≠ (view.heap f).status then update f status rest else next view.heap rest
  | update _ _ rest, .done _ => some (next view.heap rest)
  | sleep, .io => some getAllFiles
  | _, _ => none

/-- Where the loop over the files goes: it ends, or begins the check of a file. -/
lemma next_cases (heap : FileId → TrackedFile) (ids : List FileId) :
    next heap ids = sleep ∨
      ∃ f rest, f :: rest <:+ ids ∧ next heap ids = check f .pathExists rest := by
  induction ids with
  | nil => exact .inl rfl
  | cons f rest ih =>
    unfold next checkFileGrowthStatus
    split_ifs
    · rcases ih with h | ⟨f', rest', hsuffix, h⟩
      · exact .inl h
      · exact .inr ⟨f', rest', hsuffix.trans (List.suffix_cons f rest), h⟩
    · exact .inr ⟨f, rest, List.suffix_rfl, rfl⟩

/-- The transitions of the loop. -/
inductive Next (cfg : Settings) (view : View) : MonitorPoint → Answer → MonitorPoint → Prop
  | listed (ids : List FileId) :
      Next cfg view getAllFiles (.files ids) (next view.heap (ids.filter (isWatched ∘ view.heap)))
  | checks {a : Answer} (f : FileId) (p p' : CheckPoint) (rest : List FileId)
      (hcheck : p.after cfg view f a = some (.goesOn p')) :
      Next cfg view (check f p rest) a (check f p' rest)
  | updates {a : Answer} (f : FileId) (p : CheckPoint) (status : FileStatus) (rest : List FileId)
      (hcheck : p.after cfg view f a = some (.recommends status))
      (hchange : status ≠ (view.heap f).status) :
      Next cfg view (check f p rest) a (update f status rest)
  | checked {a : Answer} (f : FileId) (p : CheckPoint) (rest : List FileId)
      (hcheck : p.after cfg view f a = some (.recommends (view.heap f).status)) :
      Next cfg view (check f p rest) a (next view.heap rest)
  | updated (f : FileId) (status : FileStatus) (rest : List FileId) (n : ℕ) :
      Next cfg view (update f status rest) (.done n) (next view.heap rest)
  | slept : Next cfg view sleep .io getAllFiles

/-- **What the code between two awaits does.**

**Proof sketch.** By cases on the point. A check goes on, or recommends a status, which is written
if it is another one than the record has. The other points have one transition each. -/
theorem next_of_after {cfg : Settings} {view : View} {p p' : MonitorPoint} {a : Answer}
    (h : p.after cfg view a = some p') : Next cfg view p a p' := by
  cases p with
  | check f q rest =>
    obtain ⟨next, hnext, rfl⟩ := Option.map_eq_some_iff.mp h
    cases next with
    | goesOn q' => exact .checks f q q' rest hnext
    | recommends status =>
      dsimp only
      split_ifs with hchange
      · exact .updates f q status rest hnext hchange
      · rw [not_not] at hchange
        exact .checked f q rest (hchange ▸ hnext)
  | _ =>
    cases a <;> cases h
    constructor

end MonitorPoint

end FileAgent

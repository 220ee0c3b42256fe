import FileAgent.Library.Run
import FileAgent.Library.PosixPath
import Mathlib.Data.Finset.Basic

set_option relaxedAutoImplicit false
set_option autoImplicit false

/-!
# The test files of the storage checker

`StorageChecker` of `app/services/storage_checker.py` finds out whether a directory is writable by
creating a test file and removing it, and removes old test files when the program starts. Every call
to the file system is awaited; meanwhile other checks and clean-ups go on, and other programs and
services create and remove files. A call that is cancelled makes no more steps, except that its last
call to the file system, which runs in a thread, may still end.

## Main definitions

* `WriteCheck.resume` — `_check_write_access`, with the creation and the clean-up of its file.
* `TestFileCleanup` — `cleanup_old_test_files`.
* `TestDirectory`, `testDirectoryStep` — a directory, with any number of both.
* `WriteCheckPoint.MayLeaveFile` — the ways a check leaves its file behind.

## Main results

* `testDirectoryInv_step` — the step lemma.
* `other_files_kept` — only test files are touched, and which are left behind.
* `cleanup_complete` — what a clean-up leaves in the directory.
-/

namespace FileAgent

open Transition PosixPath

/-! ## Checks of the write access -/

/-- The name that `_create_test_file` chooses. -/
def testFilename (testFilePrefix uuid : Text) : Text := testFilePrefix ++ uuid ++ ".tmp".toList

/-- The names that `cleanup_old_test_files` looks for. -/
def isTestFilename (testFilePrefix name : Text) : Bool :=
  testFilePrefix.isPrefixOf name && ".tmp".toList.isSuffixOf name

/-- How a check ended: without write access if the file could not be created or written. A file that
is not found is gone, or the directory cannot be reached. -/
inductive WriteCheckEnd
  | notCreated
  | notWritten
  | notFound (reachable : Bool)
  | removed
  | notRemoved
  deriving DecidableEq

/-- The awaits of `_check_write_access`: the file is opened, written and closed, and then looked up
and removed. -/
inductive WriteCheckPoint
  | opening
  | writing
  | closing (written : Bool)
  | lookingUp
  | removing
  | returned (outcome : WriteCheckEnd)
  deriving DecidableEq

/-- A call of `_check_write_access`, with the path of its file. -/
structure WriteCheck where
  testFilePath : Text
  point : WriteCheckPoint := .opening

/-- What a call to the file system does. -/
inductive FileOp
  | create
  | remove
  deriving DecidableEq

/-- The call that a check awaits succeeds or raises, or the directory can be reached or not: what it
does to the file, and the next await. -/
def WriteCheck.resume (files : Finset Text) (c : WriteCheck) (success : Bool) :
    Option (Option FileOp × WriteCheckPoint) :=
  match c.point with
  | .opening => some (if success then (some .create, .writing) else (none, .returned .notCreated))
  | .writing => some (none, .closing success)
  | .closing written =>
    some (none, if written && success then .lookingUp else .returned .notWritten)
  | .lookingUp =>
    some (none, if success ∧ c.testFilePath ∈ files then .removing
      else .returned (.notFound success))
  | .removing =>
    some (if success ∧ c.testFilePath ∈ files then (some .remove, .returned .removed)
      else (none, .returned .notRemoved))
  | .returned _ => none

/-! ## Clean-ups -/

/-- The awaits of `cleanup_old_test_files`: the directory is opened, and the files are removed one
by one between its entries. It returns at its end, or after an exception. -/
inductive CleanupPoint
  | opening
  | iterating
  | removing (name : Text)
  | returned (complete : Bool)
  deriving DecidableEq

/-- A call of `cleanup_old_test_files`, with its history: the files that have been in the directory
since it was opened, the entries that the iterator has given, and the files that could not be
removed. -/
structure TestFileCleanup where
  point : CleanupPoint := .opening
  cleanedCount : ℕ := 0
  present : Finset Text := ∅
  entries : Finset Text := ∅
  failed : Finset Text := ∅

namespace TestFileCleanup

/-- A file is not in the directory any more. -/
def noteRemoval (name : Text) (k : TestFileCleanup) : TestFileCleanup :=
  { k with present := k.present.erase name }

/-- `isdir` and `scandir`. -/
def scan (files : Finset Text) (success : Bool) (k : TestFileCleanup) : TestFileCleanup :=
  if success then { k with point := .iterating, present := files, entries := ∅ }
  else { k with point := .returned false }

/-- The loop up to its next await, with one more entry. -/
def nextEntry (testFilePrefix name : Text) (isFile : Bool) (k : TestFileCleanup) :
    TestFileCleanup :=
  { k with
    entries := insert name k.entries
    point := if isFile && isTestFilename testFilePrefix name then .removing name else .iterating }

/-- The removal of a file has ended. -/
def removalDone (name : Text) (success : Bool) (k : TestFileCleanup) : TestFileCleanup :=
  if success then { k with point := .iterating, cleanedCount := k.cleanedCount + 1 }
  else { k with point := .iterating, failed := insert name k.failed }

end TestFileCleanup

/-! ## The directory -/

/-- The names of the files of a directory, the checks and the clean-ups, and the names of the files
that would be there without them. -/
structure TestDirectory where
  files : Finset Text
  checks : List WriteCheck := []
  cleanups : List TestFileCleanup := []
  others : Finset Text := files

/-- The steps: others create or remove a file; a check starts, or what it awaits ends; a clean-up
starts, opens the directory, is given an entry, has removed a file, or its iteration ends, by itself
or by an exception. -/
inductive TestDirectoryAction
  | otherCreates (name : Text)
  | otherRemoves (name : Text)
  | startCheck (uuid : Text)
  | check (i : ℕ) (success : Bool)
  | startCleanup
  | scan (k : ℕ) (success : Bool)
  | entry (k : ℕ) (name : Text) (isFile : Bool)
  | removalDone (k : ℕ) (success : Bool)
  | endOfEntries (k : ℕ) (complete : Bool)

namespace TestDirectory

/-- A file is created. -/
def create (d : TestDirectory) (name : Text) : TestDirectory :=
  { d with files := insert name d.files }

/-- A file is removed. -/
def remove (d : TestDirectory) (name : Text) : TestDirectory :=
  { d with files := d.files.erase name, cleanups := d.cleanups.map (·.noteRemoval name) }

/-- What a call to the file system does. -/
def apply (d : TestDirectory) (name : Text) : Option FileOp → TestDirectory
  | none => d
  | some .create => d.create name
  | some .remove => d.remove name

/-- The clean-up `k` goes on. -/
def setCleanup (d : TestDirectory) (k : ℕ) (cleanup : TestFileCleanup) : TestDirectory :=
  { d with cleanups := d.cleanups.set k cleanup }

end TestDirectory

/-- One step. An iterator does not end by itself before it has given all files that have been there
since it was opened; of the other names it gives those it likes. -/
def testDirectoryStep (testFilePrefix : Text) (d : TestDirectory) :
    TestDirectoryAction → Option TestDirectory
  | .otherCreates name => some { d.create name with others := insert name d.others }
  | .otherRemoves name => some { d.remove name with others := d.others.erase name }
  | .startCheck uuid =>
    some { d with checks := d.checks ++ [⟨testFilename testFilePrefix uuid, .opening⟩] }
  | .check i success =>
    d.checks[i]?.bind fun c =>
      (c.resume d.files success).map fun r =>
        { d.apply c.testFilePath r.1 with checks := d.checks.set i { c with point := r.2 } }
  | .startCleanup => some { d with cleanups := d.cleanups ++ [{}] }
  | .scan k success =>
    d.cleanups[k]?.bind fun cleanup =>
      if cleanup.point = .opening then some (d.setCleanup k (cleanup.scan d.files success))
      else none
  | .entry k name isFile =>
    d.cleanups[k]?.bind fun cleanup =>
      if cleanup.point = .iterating ∧ (name ∈ d.files → isFile) then
        some (d.setCleanup k (cleanup.nextEntry testFilePrefix name isFile))
      else none
  | .removalDone k success =>
    d.cleanups[k]?.bind fun cleanup =>
      match cleanup.point with
      | .removing name =>
        if success then
          if name ∈ d.files then some ((d.setCleanup k (cleanup.removalDone name true)).remove name)
          else none
        else some (d.setCleanup k (cleanup.removalDone name false))
      | .opening | .iterating | .returned _ => none
  | .endOfEntries k complete =>
    d.cleanups[k]?.bind fun cleanup =>
      if cleanup.point = .iterating ∧ (complete → cleanup.present ⊆ cleanup.entries) then
        some (d.setCleanup k { cleanup with point := .returned complete })
      else none

/-- The check may leave its file behind, or has done so: it has not come to the removal, it could
not write the file, it could not look the file up, or it could not remove it. -/
def WriteCheckPoint.MayLeaveFile : WriteCheckPoint → Prop
  | .writing | .closing _ | .lookingUp | .removing => True
  | .returned outcome => outcome = .notWritten ∨ outcome = .notFound false ∨ outcome = .notRemoved
  | .opening => False

/-! ## One check, one clean-up -/

section Parts

variable {testFilePrefix name : Text} {files : Finset Text} {c : WriteCheck} {success : Bool}
  {op : Option FileOp} {point : WriteCheckPoint} {k : TestFileCleanup}

/-- The name of a test file is recognised as one. -/
lemma isTestFilename_testFilename (testFilePrefix uuid : Text) :
    isTestFilename testFilePrefix (testFilename testFilePrefix uuid) = true := by
  rw [isTestFilename, testFilename, Bool.and_eq_true, List.isPrefixOf_iff_prefix,
    List.isSuffixOf_iff_suffix]
  exact ⟨⟨uuid ++ ".tmp".toList, (List.append_assoc ..).symm⟩, List.suffix_append _ _⟩

/-- A check that has created its file may leave it. -/
lemma WriteCheck.mayLeaveFile_create (h : c.resume files success = some (some .create, point)) :
    point.MayLeaveFile := by
  unfold WriteCheck.resume at h
  cases hpoint : c.point with
  | opening =>
    rw [hpoint] at h
    have h := Option.some.inj h
    split_ifs at h
    · obtain ⟨-, rfl⟩ := Prod.mk.inj h
      trivial
    · cases h
  | removing =>
    rw [hpoint] at h
    have h := Option.some.inj h
    split_ifs at h <;> cases h
  | writing | closing written | lookingUp | returned outcome =>
    rw [hpoint] at h
    simp at h

/-- A check that may leave its file still may after a step, unless it removes the file or the file
is gone.

**Proof sketch.** By cases on the point. Until the file is looked up it may be left. Then it is
removed next, or could not be looked up, or is gone; and the removal takes it away or fails. -/
lemma WriteCheck.mayLeaveFile_resume (h : c.resume files success = some (op, point))
    (hleft : c.point.MayLeaveFile) :
    point.MayLeaveFile ∨ op = some .remove ∨ c.testFilePath ∉ files := by
  unfold WriteCheck.resume at h
  cases hpoint : c.point with
  | opening =>
    rw [hpoint] at hleft
    exact hleft.elim
  | writing =>
    rw [hpoint] at h
    obtain ⟨-, rfl⟩ := Prod.mk.inj (Option.some.inj h)
    exact Or.inl trivial
  | closing written =>
    rw [hpoint] at h
    obtain ⟨-, rfl⟩ := Prod.mk.inj (Option.some.inj h)
    split_ifs
    · exact Or.inl trivial
    · exact Or.inl (Or.inl rfl)
  | lookingUp =>
    rw [hpoint] at h
    obtain ⟨-, rfl⟩ := Prod.mk.inj (Option.some.inj h)
    split_ifs with hfound
    · exact Or.inl trivial
    · cases success with
      | true => exact Or.inr (Or.inr fun hmem => hfound ⟨rfl, hmem⟩)
      | false => exact Or.inl (Or.inr (Or.inl rfl))
  | removing =>
    rw [hpoint] at h
    have h := Option.some.inj h
    split_ifs at h with hfound
    · obtain ⟨rfl, -⟩ := Prod.mk.inj h
      exact Or.inr (Or.inl rfl)
    · obtain ⟨-, rfl⟩ := Prod.mk.inj h
      exact Or.inl (Or.inr (Or.inr rfl))
  | returned outcome =>
    rw [hpoint] at h
    cases h

/-- The clean-up has the present files in view: it only removes test files, it has removed or failed
to remove those among the entries it was given, and it was given all if it has ended by itself. -/
structure TestFileCleanup.Accounts (testFilePrefix : Text) (files : Finset Text)
    (k : TestFileCleanup) : Prop where
  present : k.present ⊆ files
  removing : ∀ name, k.point = .removing name → isTestFilename testFilePrefix name
  handled : ∀ name ∈ k.entries, name ∈ k.present → isTestFilename testFilePrefix name →
    name ∈ k.failed ∨ k.point = .removing name
  complete : k.point = .returned true → k.present ⊆ k.entries

namespace TestFileCleanup

/-- A clean-up that has not begun owes no account. -/
lemma accounts_new : ({} : TestFileCleanup).Accounts testFilePrefix files :=
  ⟨Finset.empty_subset _, fun _ h => (by cases h), fun _ h => absurd h (Finset.notMem_empty _),
    fun h => (by cases h)⟩

/-- More files in the directory leave the account in order. -/
lemma Accounts.mono {files' : Finset Text} (h : k.Accounts testFilePrefix files)
    (hle : files ⊆ files') : k.Accounts testFilePrefix files' :=
  ⟨h.present.trans hle, h.removing, h.handled, h.complete⟩

/-- A file that is removed by anyone drops out of the account. -/
lemma Accounts.noteRemoval (h : k.Accounts testFilePrefix files) (name : Text) :
    (k.noteRemoval name).Accounts testFilePrefix (files.erase name) := by
  refine ⟨Finset.erase_subset_erase name h.present, h.removing, ?_, ?_⟩
  · intro other hentry hpresent htest
    exact h.handled other hentry (Finset.mem_of_mem_erase hpresent) htest
  · intro hpoint
    exact (Finset.erase_subset _ _).trans (h.complete hpoint)

/-- The listing of the directory is where the account begins. -/
lemma Accounts.scan (h : k.Accounts testFilePrefix files) (hpoint : k.point = .opening) :
    (k.scan files success).Accounts testFilePrefix files := by
  cases success with
  | true =>
    refine ⟨Finset.Subset.refl _, fun _ h => (by cases h), ?_, fun h => (by cases h)⟩
    intro name hentry
    exact absurd hentry (Finset.notMem_empty name)
  | false =>
    refine ⟨h.present, fun _ hremoving => (by cases hremoving), ?_, fun h => (by cases h)⟩
    intro name hentry hpresent htest
    refine Or.inl ((h.handled name hentry hpresent htest).resolve_right fun hremoving => ?_)
    rw [hpoint] at hremoving
    cases hremoving

/-- An entry that is visited is left, since it is no test file, or is about to be removed. -/
lemma Accounts.nextEntry {isFile : Bool} (h : k.Accounts testFilePrefix files)
    (hpoint : k.point = .iterating) (hfile : name ∈ files → isFile) :
    (k.nextEntry testFilePrefix name isFile).Accounts testFilePrefix files := by
  have hfailed : ∀ other ∈ k.entries, other ∈ k.present →
      isTestFilename testFilePrefix other → other ∈ k.failed := by
    intro other hentry hpresent htest
    refine (h.handled other hentry hpresent htest).resolve_right fun hremoving => ?_
    rw [hpoint] at hremoving
    cases hremoving
  refine ⟨h.present, ?_, ?_, ?_⟩
  · intro other hremoving
    simp only [TestFileCleanup.nextEntry] at hremoving
    split_ifs at hremoving with htest
    obtain rfl := CleanupPoint.removing.inj hremoving
    exact (Bool.and_eq_true _ _ ▸ htest).2
  · intro other hentry hpresent htest
    rcases Finset.mem_insert.mp hentry with rfl | hentry
    · right
      simp only [TestFileCleanup.nextEntry]
      rw [if_pos (by rw [hfile (h.present hpresent), htest]; rfl)]
    · exact Or.inl (hfailed other hentry hpresent htest)
  · intro hreturned
    simp only [TestFileCleanup.nextEntry] at hreturned
    split_ifs at hreturned

/-- A test file that was removed is accounted for. -/
lemma Accounts.removed (h : k.Accounts testFilePrefix files) (hpoint : k.point = .removing name) :
    ((k.removalDone name true).noteRemoval name).Accounts testFilePrefix (files.erase name) := by
  refine ⟨Finset.erase_subset_erase name h.present, fun _ hremoving => (by cases hremoving), ?_,
    fun h => (by cases h)⟩
  intro other hentry hpresent htest
  obtain ⟨hne, hpresent⟩ := Finset.mem_erase.mp hpresent
  refine Or.inl ((h.handled other hentry hpresent htest).resolve_right fun hremoving => hne ?_)
  exact (CleanupPoint.removing.inj (hpoint.symm.trans hremoving)).symm

/-- A test file that could not be removed is noted among the failures. -/
lemma Accounts.notRemoved (h : k.Accounts testFilePrefix files)
    (hpoint : k.point = .removing name) :
    (k.removalDone name false).Accounts testFilePrefix files := by
  refine ⟨h.present, fun _ hremoving => (by cases hremoving), ?_, fun h => (by cases h)⟩
  intro other hentry hpresent htest
  left
  rcases h.handled other hentry hpresent htest with hfailed | hremoving
  · exact Finset.mem_insert_of_mem hfailed
  · obtain rfl := CleanupPoint.removing.inj (hpoint.symm.trans hremoving)
    exact Finset.mem_insert_self _ _

/-- A clean-up that returns keeps its account, if it visited what it says. -/
lemma Accounts.returned {complete : Bool} (h : k.Accounts testFilePrefix files)
    (hpoint : k.point = .iterating) (hcomplete : complete → k.present ⊆ k.entries) :
    ({ k with point := .returned complete } : TestFileCleanup).Accounts testFilePrefix files := by
  refine ⟨h.present, fun _ hremoving => (by cases hremoving), ?_, ?_⟩
  · intro other hentry hpresent htest
    refine Or.inl ((h.handled other hentry hpresent htest).resolve_right fun hremoving => ?_)
    rw [hpoint] at hremoving
    cases hremoving
  · intro hreturned
    exact hcomplete (CleanupPoint.returned.inj hreturned)

end TestFileCleanup

end Parts

/-! ## The invariant -/

/-- Checks and clean-ups touch test files only, a file that is only there because of them is one of
a check that may leave it, and the clean-ups have the present files in view. -/
structure TestDirectoryInv (testFilePrefix : Text) (d : TestDirectory) : Prop where
  named : ∀ c ∈ d.checks, isTestFilename testFilePrefix c.testFilePath
  kept : ∀ name, ¬ isTestFilename testFilePrefix name → (name ∈ d.files ↔ name ∈ d.others)
  left : ∀ name ∈ d.files, name ∉ d.others →
    ∃ (i : ℕ) (c : WriteCheck), d.checks[i]? = some c ∧ c.testFilePath = name ∧
      c.point.MayLeaveFile
  accounts : ∀ k ∈ d.cleanups, k.Accounts testFilePrefix d.files

section Steps

variable {testFilePrefix name : Text} {d d' : TestDirectory} {a : TestDirectoryAction}

/-- Creating a file keeps every clean-up's account. -/
lemma accounts_create (h : TestDirectoryInv testFilePrefix d) (name : Text) :
    ∀ k ∈ (d.create name).cleanups, k.Accounts testFilePrefix (d.create name).files :=
  fun k hk => (h.accounts k hk).mono (Finset.subset_insert _ _)

/-- Removing a file keeps every clean-up's account. -/
lemma accounts_remove (h : TestDirectoryInv testFilePrefix d) (name : Text) :
    ∀ k ∈ (d.remove name).cleanups, k.Accounts testFilePrefix (d.remove name).files := by
  intro k' hk'
  obtain ⟨k, hk, rfl⟩ := List.mem_map.mp hk'
  exact (h.accounts k hk).noteRemoval name

/-- A clean-up goes on without a change of the directory. -/
lemma inv_setCleanup {k : ℕ} {cleanup : TestFileCleanup} (h : TestDirectoryInv testFilePrefix d)
    (hcleanup : cleanup.Accounts testFilePrefix d.files) :
    TestDirectoryInv testFilePrefix (d.setCleanup k cleanup) := by
  refine ⟨h.named, h.kept, h.left, fun k' hk' => ?_⟩
  rcases List.mem_or_eq_of_mem_set hk' with hk' | rfl
  · exact h.accounts k' hk'
  · exact hcleanup

/-- Another program may create a file. -/
lemma inv_otherCreates (h : TestDirectoryInv testFilePrefix d) (name : Text) :
    TestDirectoryInv testFilePrefix { d.create name with others := insert name d.others } := by
  refine ⟨h.named, ?_, ?_, accounts_create h name⟩
  · intro other hother
    simp only [TestDirectory.create, Finset.mem_insert, h.kept other hother]
  · intro other hfile hothers
    simp only [TestDirectory.create, Finset.mem_insert, not_or] at hfile hothers
    exact h.left other (hfile.resolve_left hothers.1) hothers.2

/-- Another program may remove a file. -/
lemma inv_otherRemoves (h : TestDirectoryInv testFilePrefix d) (name : Text) :
    TestDirectoryInv testFilePrefix { d.remove name with others := d.others.erase name } := by
  refine ⟨h.named, ?_, ?_, accounts_remove h name⟩
  · intro other hother
    simp only [TestDirectory.remove, Finset.mem_erase, h.kept other hother]
  · intro other hfile hothers
    obtain ⟨hne, hfile⟩ := Finset.mem_erase.mp hfile
    exact h.left other hfile fun hmem => hothers (Finset.mem_erase.mpr ⟨hne, hmem⟩)

/-- A test file is removed by a clean-up. -/
lemma inv_remove (h : TestDirectoryInv testFilePrefix d)
    (htest : isTestFilename testFilePrefix name) :
    TestDirectoryInv testFilePrefix (d.remove name) := by
  refine ⟨h.named, ?_, ?_, accounts_remove h name⟩
  · intro other hother
    refine Iff.trans ?_ (h.kept other hother)
    refine ⟨Finset.mem_of_mem_erase, fun hfile => Finset.mem_erase.mpr ⟨?_, hfile⟩⟩
    rintro rfl
    exact hother htest
  · intro other hfile hothers
    exact h.left other (Finset.mem_of_mem_erase hfile) hothers

/-- Removing a file and moving a clean-up on may be done in either order. -/
lemma remove_setCleanup (d : TestDirectory) (k : ℕ) (cleanup : TestFileCleanup) (name : Text) :
    (d.setCleanup k cleanup).remove name =
      (d.remove name).setCleanup k (cleanup.noteRemoval name) := by
  simp only [TestDirectory.setCleanup, TestDirectory.remove, List.map_set]

/-- A check makes a step.

**Proof sketch.** A step creates the file of the check, removes it or does neither. A file that
stays was accounted for by a check, which is another one or is this one and may still leave it.
The file created is the check's own; its name is that of a test file, so no other file is
touched. -/
lemma inv_check {i : ℕ} {c : WriteCheck} {success : Bool} {op : Option FileOp}
    {point : WriteCheckPoint} (h : TestDirectoryInv testFilePrefix d) (hc : d.checks[i]? = some c)
    (hresume : c.resume d.files success = some (op, point)) :
    TestDirectoryInv testFilePrefix
      { d.apply c.testFilePath op with checks := d.checks.set i { c with point := point } } := by
  have hi : i < d.checks.length := (List.getElem?_eq_some_iff.mp hc).1
  have hself : (d.checks.set i { c with point := point })[i]? = some { c with point := point } :=
    List.getElem?_set_self hi
  have htest : isTestFilename testFilePrefix c.testFilePath :=
    h.named c (List.mem_of_getElem? hc)
  -- A file that is there before and after the step.
  have hold : ∀ name ∈ d.files, name ∉ d.others → ¬ (op = some .remove ∧ name = c.testFilePath) →
      ∃ (j : ℕ) (c' : WriteCheck), (d.checks.set i { c with point := point })[j]? = some c' ∧
        c'.testFilePath = name ∧ c'.point.MayLeaveFile := by
    intro name hfile hothers hkept
    obtain ⟨j, c', hc', rfl, hleft⟩ := h.left name hfile hothers
    by_cases hij : i = j
    · subst hij
      obtain rfl := Option.some.inj (hc.symm.trans hc')
      refine ⟨i, _, hself, rfl, ?_⟩
      rcases WriteCheck.mayLeaveFile_resume hresume hleft with hpoint | hop | hgone
      · exact hpoint
      · exact absurd ⟨hop, rfl⟩ hkept
      · exact absurd hfile hgone
    · exact ⟨j, c', by rw [List.getElem?_set_ne hij, hc'], rfl, hleft⟩
  have hnamed : ∀ c' ∈ d.checks.set i { c with point := point },
      isTestFilename testFilePrefix c'.testFilePath := by
    intro c' hc'
    rcases List.mem_or_eq_of_mem_set hc' with hc' | rfl
    · exact h.named c' hc'
    · exact htest
  cases op with
  | none =>
    exact ⟨hnamed, h.kept, fun name hfile hothers => hold name hfile hothers (by simp), h.accounts⟩
  | some op =>
    cases op with
    | create =>
      refine ⟨hnamed, ?_, ?_, accounts_create h c.testFilePath⟩
      · intro other hother
        simp only [TestDirectory.apply, TestDirectory.create, Finset.mem_insert,
          ← h.kept other hother, or_iff_right_iff_imp]
        rintro rfl
        exact absurd htest hother
      · intro other hfile hothers
        rcases Finset.mem_insert.mp hfile with rfl | hfile
        · exact ⟨i, _, hself, rfl, WriteCheck.mayLeaveFile_create hresume⟩
        · exact hold other hfile hothers (by simp)
    | remove =>
      refine ⟨hnamed, (inv_remove h htest).kept, ?_, accounts_remove h c.testFilePath⟩
      intro other hfile hothers
      obtain ⟨hne, hfile⟩ := Finset.mem_erase.mp hfile
      exact hold other hfile hothers fun hremoved => hne hremoved.2

/-- **The step lemma.**

**Proof sketch.** By cases on the action. Other programs are `inv_otherCreates` and
`inv_otherRemoves`, a check is `inv_check`. A clean-up keeps its account by the lemma for its
step; a removal goes first through the directory and then through the clean-up, by
`remove_setCleanup`. -/
theorem testDirectoryInv_step (h : TestDirectoryInv testFilePrefix d)
    (hs : testDirectoryStep testFilePrefix d a = some d') :
    TestDirectoryInv testFilePrefix d' := by
  cases a with
  | otherCreates name =>
    obtain rfl := Option.some.inj hs
    exact inv_otherCreates h name
  | otherRemoves name =>
    obtain rfl := Option.some.inj hs
    exact inv_otherRemoves h name
  | startCheck uuid =>
    obtain rfl := Option.some.inj hs
    refine ⟨?_, h.kept, ?_, h.accounts⟩
    · intro c hc
      rcases List.mem_append.mp hc with hc | hc
      · exact h.named c hc
      · obtain rfl := List.mem_singleton.mp hc
        exact isTestFilename_testFilename _ _
    · intro name hfile hothers
      obtain ⟨i, c, hc, hname, hleft⟩ := h.left name hfile hothers
      exact ⟨i, c, List.getElem?_append_left (List.getElem?_eq_some_iff.mp hc).1 ▸ hc, hname, hleft⟩
  | check i success =>
    obtain ⟨c, hc, hs⟩ := Option.bind_eq_some_iff.mp hs
    obtain ⟨⟨op, point⟩, hresume, rfl⟩ := Option.map_eq_some_iff.mp hs
    exact inv_check h hc hresume
  | startCleanup =>
    obtain rfl := Option.some.inj hs
    refine ⟨h.named, h.kept, h.left, fun k hk => ?_⟩
    rcases List.mem_append.mp hk with hk | hk
    · exact h.accounts k hk
    · obtain rfl := List.mem_singleton.mp hk
      exact TestFileCleanup.accounts_new
  | scan k success =>
    obtain ⟨cleanup, hk, hs⟩ := Option.bind_eq_some_iff.mp hs
    split_ifs at hs with hpoint
    obtain rfl := Option.some.inj hs
    exact inv_setCleanup h ((h.accounts cleanup (List.mem_of_getElem? hk)).scan hpoint)
  | entry k name isFile =>
    obtain ⟨cleanup, hk, hs⟩ := Option.bind_eq_some_iff.mp hs
    split_ifs at hs with hguard
    obtain rfl := Option.some.inj hs
    have haccounts := h.accounts cleanup (List.mem_of_getElem? hk)
    exact inv_setCleanup h (haccounts.nextEntry hguard.1 hguard.2)
  | removalDone k success =>
    obtain ⟨cleanup, hk, hs⟩ := Option.bind_eq_some_iff.mp hs
    have haccounts := h.accounts cleanup (List.mem_of_getElem? hk)
    cases hpoint : cleanup.point with
    | removing name =>
      simp only [hpoint] at hs
      split_ifs at hs with hsuccess hfile
      · obtain rfl := Option.some.inj hs
        rw [remove_setCleanup]
        exact inv_setCleanup (inv_remove h (haccounts.removing name hpoint))
          (haccounts.removed hpoint)
      · obtain rfl := Option.some.inj hs
        exact inv_setCleanup h (haccounts.notRemoved hpoint)
    | opening | iterating | returned complete =>
      simp only [hpoint] at hs
      cases hs
  | endOfEntries k complete =>
    obtain ⟨cleanup, hk, hs⟩ := Option.bind_eq_some_iff.mp hs
    split_ifs at hs with hguard
    obtain rfl := Option.some.inj hs
    have haccounts := h.accounts cleanup (List.mem_of_getElem? hk)
    exact inv_setCleanup h (haccounts.returned hguard.1 hguard.2)

end Steps

/-! ## Runs -/

section Runs

variable {testFilePrefix name : Text} {F : Finset Text} {d d₁ d₂ d' : TestDirectory}
  {a : TestDirectoryAction} {tr tr₁ tr₂ : List (TestDirectory × TestDirectoryAction)} {k : ℕ}
  {cleanup : TestFileCleanup}

/-- The invariant holds in every state that is reached. -/
lemma testDirectoryInv_of_run (hrun : Run (testDirectoryStep testFilePrefix) { files := F } tr d) :
    TestDirectoryInv testFilePrefix d := by
  have hok : Meets (fun _ _ => True) tr := fun _ _ => trivial
  refine hrun.invariant hok ⟨?_, fun _ _ => Iff.rfl, fun _ hfile h => absurd hfile h, ?_⟩
    fun _ _ _ h _ hs => testDirectoryInv_step h hs
  · intro c hc
    exact absurd hc List.not_mem_nil
  · intro k hk
    exact absurd hk List.not_mem_nil

/-- **Only test files are touched**: in every run, a file whose name is not that of a test file is
in the directory exactly if it would be there without the checks and clean-ups. A file that is only
there because of a check belongs to one that has not come to its removal, or that could not write
it, could not look it up, or could not remove it.

**Proof sketch.** Checks and clean-ups create and remove test files only, and a check that creates
its file and returns `True` without a failing call has removed it or found it gone. -/
theorem other_files_kept (hrun : Run (testDirectoryStep testFilePrefix) { files := F } tr d)
    (name : Text) :
    (¬ isTestFilename testFilePrefix name → (name ∈ d.files ↔ name ∈ d.others)) ∧
      (name ∈ d.files → name ∉ d.others →
        ∃ (i : ℕ) (c : WriteCheck), d.checks[i]? = some c ∧ c.testFilePath = name ∧
          c.point.MayLeaveFile) :=
  ⟨(testDirectoryInv_of_run hrun).kept name, (testDirectoryInv_of_run hrun).left name⟩

/-- The prefix of the default configuration. -/
def defaultTestFilePrefix : Text := ".file_agent_test_".toList

/-- A check that cannot write its file leaves it behind. -/
theorem other_files_kept_notWritten :
    ∃ tr d, Run (testDirectoryStep defaultTestFilePrefix) { files := {"clip.mxf".toList} } tr d ∧
      ".file_agent_test_7d.tmp".toList ∈ d.files ∧ ".file_agent_test_7d.tmp".toList ∉ d.others ∧
      (¬ isTestFilename defaultTestFilePrefix ".file_agent_test_7d.tmp".toList →
        (".file_agent_test_7d.tmp".toList ∈ d.files ↔
          ".file_agent_test_7d.tmp".toList ∈ d.others)) ∧
      (".file_agent_test_7d.tmp".toList ∈ d.files → ".file_agent_test_7d.tmp".toList ∉ d.others →
        ∃ (i : ℕ) (c : WriteCheck), d.checks[i]? = some c ∧
          c.testFilePath = ".file_agent_test_7d.tmp".toList ∧ c.point.MayLeaveFile) := by
  obtain ⟨d, hrun, hd⟩ := exists_run_of_replay (testDirectoryStep defaultTestFilePrefix)
    { files := {"clip.mxf".toList} }
    [.startCheck "7d".toList, .check 0 true, .check 0 false, .check 0 true]
    (fun d => ".file_agent_test_7d.tmp".toList ∈ d.files ∧
      ".file_agent_test_7d.tmp".toList ∉ d.others) (by decide +kernel)
  obtain ⟨hfile, hothers⟩ := of_decide_eq_true hd
  exact ⟨_, d, hrun, hfile, hothers, other_files_kept hrun _⟩

/-- The clean-up `k` has opened the directory, and the file has been there since. -/
def Watches (k : ℕ) (name : Text) (d : TestDirectory) : Prop :=
  ∃ cleanup, d.cleanups[k]? = some cleanup ∧ cleanup.point ≠ .opening ∧ name ∈ cleanup.present

/-- A file that is watched is watched further when another one is removed. -/
lemma watches_remove {other : Text} (h : Watches k name d) (hfile : name ∈ (d.remove other).files) :
    Watches k name (d.remove other) := by
  obtain ⟨cleanup, hk, hpoint, hpresent⟩ := h
  refine ⟨cleanup.noteRemoval other, ?_, hpoint, ?_⟩
  · simp only [TestDirectory.remove, List.getElem?_map, hk, Option.map_some]
  · exact Finset.mem_erase.mpr ⟨(Finset.mem_erase.mp hfile).1, hpresent⟩

/-- A file that is watched is watched further when some clean-up goes on. -/
lemma watches_setCleanup {j : ℕ} {old new : TestFileCleanup} (h : Watches k name d)
    (hold : d.cleanups[j]? = some old) (hpresent : new.present = old.present)
    (hpoint : new.point ≠ .opening) : Watches k name (d.setCleanup j new) := by
  obtain ⟨cleanup, hk, hne, hname⟩ := h
  by_cases hjk : j = k
  · subst hjk
    obtain rfl := Option.some.inj (hold.symm.trans hk)
    refine ⟨new, ?_, hpoint, hpresent ▸ hname⟩
    exact List.getElem?_set_self (List.getElem?_eq_some_iff.mp hold).1
  · exact ⟨cleanup, by rw [TestDirectory.setCleanup, List.getElem?_set_ne hjk, hk], hne, hname⟩

/-- A file that stays is kept in view.

**Proof sketch.** By cases on the action. A clean-up keeps the file among those present once its
scan has begun, and the scan is not begun a second time. A removal may take another file away, but
this one is there after the step. -/
lemma watches_step (h : Watches k name d) (hs : testDirectoryStep testFilePrefix d a = some d')
    (hfile : name ∈ d'.files) : Watches k name d' := by
  cases a with
  | otherCreates other =>
    obtain rfl := Option.some.inj hs
    exact h
  | otherRemoves other =>
    obtain rfl := Option.some.inj hs
    exact watches_remove h hfile
  | startCheck uuid =>
    obtain rfl := Option.some.inj hs
    exact h
  | check i success =>
    obtain ⟨c, -, hs⟩ := Option.bind_eq_some_iff.mp hs
    obtain ⟨⟨op, point⟩, -, rfl⟩ := Option.map_eq_some_iff.mp hs
    cases op with
    | none => exact h
    | some op =>
      cases op with
      | create => exact h
      | remove => exact watches_remove h hfile
  | startCleanup =>
    obtain rfl := Option.some.inj hs
    obtain ⟨cleanup, hk, hne, hname⟩ := h
    have hlt := (List.getElem?_eq_some_iff.mp hk).1
    exact ⟨cleanup, (List.getElem?_append_left hlt).trans hk, hne, hname⟩
  | scan j success =>
    obtain ⟨cleanup', hj, hs⟩ := Option.bind_eq_some_iff.mp hs
    split_ifs at hs with hpoint
    obtain rfl := Option.some.inj hs
    obtain ⟨cleanup, hk, hne, hname⟩ := h
    have hjk : j ≠ k := by
      rintro rfl
      obtain rfl := Option.some.inj (hj.symm.trans hk)
      exact hne hpoint
    exact ⟨cleanup, by rw [TestDirectory.setCleanup, List.getElem?_set_ne hjk, hk], hne, hname⟩
  | entry j other isFile =>
    obtain ⟨cleanup', hj, hs⟩ := Option.bind_eq_some_iff.mp hs
    split_ifs at hs
    obtain rfl := Option.some.inj hs
    refine watches_setCleanup h hj rfl ?_
    simp only [TestFileCleanup.nextEntry]
    split_ifs <;> simp
  | removalDone j success =>
    obtain ⟨cleanup', hj, hs⟩ := Option.bind_eq_some_iff.mp hs
    cases hpoint : cleanup'.point with
    | removing other =>
      simp only [hpoint] at hs
      split_ifs at hs
      · obtain rfl := Option.some.inj hs
        refine watches_remove (watches_setCleanup h hj rfl ?_) hfile
        simp [TestFileCleanup.removalDone]
      · obtain rfl := Option.some.inj hs
        refine watches_setCleanup h hj rfl ?_
        simp [TestFileCleanup.removalDone]
    | opening | iterating | returned complete =>
      simp only [hpoint] at hs
      cases hs
  | endOfEntries j complete =>
    obtain ⟨cleanup', hj, hs⟩ := Option.bind_eq_some_iff.mp hs
    split_ifs at hs
    obtain rfl := Option.some.inj hs
    exact watches_setCleanup h hj rfl (by simp)

/-- **A clean-up is complete**: a test file that is in the directory from when a clean-up opens it
until that has gone through all entries is one that it could not remove, however checks, other
clean-ups and other programs create and remove files meanwhile.

**Proof sketch.** The iterator gives all files that stay; a clean-up tries to remove the test files
it is given, and one that it has removed has not stayed. -/
theorem cleanup_complete (hrun₁ : Run (testDirectoryStep testFilePrefix) { files := F } tr₁ d₁)
    (hscan : testDirectoryStep testFilePrefix d₁ (.scan k true) = some d₂)
    (hrun₂ : Run (testDirectoryStep testFilePrefix) d₂ tr₂ d)
    (hk : d.cleanups[k]? = some cleanup) (hreturned : cleanup.point = .returned true)
    (htest : isTestFilename testFilePrefix name) (hfirst : name ∈ d₁.files)
    (hstays : Meets (fun s _ => name ∈ s.files) tr₂) (hlast : name ∈ d.files) :
    name ∈ cleanup.failed := by
  have hwatches : Watches k name d₂ := by
    obtain ⟨cleanup', hj, hs⟩ := Option.bind_eq_some_iff.mp hscan
    split_ifs at hs
    obtain rfl := Option.some.inj hs
    have hlt := (List.getElem?_eq_some_iff.mp hj).1
    exact ⟨_, List.getElem?_set_self hlt, by simp [TestFileCleanup.scan], hfirst⟩
  have hlast : Watches k name d := by
    have h := hrun₂.invariant (I := fun s => name ∈ s.files → Watches k name s) hstays
      (fun _ => hwatches) fun s a s' h hok hs hfile => watches_step (h hok) hs hfile
    exact h hlast
  have hinv : TestDirectoryInv testFilePrefix d := by
    have hok : Meets (fun _ _ => True) tr₂ := fun _ _ => trivial
    exact hrun₂.invariant hok (testDirectoryInv_step (testDirectoryInv_of_run hrun₁) hscan)
      fun _ _ _ h _ hs => testDirectoryInv_step h hs
  obtain ⟨cleanup', hk', -, hpresent⟩ := hlast
  obtain rfl := Option.some.inj (hk.symm.trans hk')
  have haccounts := hinv.accounts cleanup (List.mem_of_getElem? hk)
  rcases haccounts.handled name (haccounts.complete hreturned hpresent) hpresent htest with
    hfailed | hremoving
  · exact hfailed
  · rw [hreturned] at hremoving
    cases hremoving

/-- A directory with an old test file. -/
def oldTestFile : Finset Text := {".file_agent_test_00.tmp".toList, "clip.mxf".toList}

/-- The same when a clean-up has opened it. -/
def openedDirectory : TestDirectory :=
  { files := oldTestFile, cleanups := [{ point := .iterating, present := oldTestFile }] }

/-- The rest of the clean-up, which cannot remove the file, while a check comes and goes. -/
def restOfCleanup : List TestDirectoryAction :=
  [.startCheck "7d".toList, .check 0 true, .entry 0 ".file_agent_test_00.tmp".toList true,
    .removalDone 0 false, .entry 0 ".file_agent_test_7d.tmp".toList true, .removalDone 0 true,
    .check 0 true, .check 0 true, .check 0 true, .entry 0 "clip.mxf".toList true,
    .endOfEntries 0 true]

/-- A test file that an earlier process left and that cannot be removed is among the failures of
the clean-up. -/
theorem cleanup_complete_oldTestFile :
    ∃ (d : TestDirectory) (cleanup : TestFileCleanup), d.cleanups[0]? = some cleanup ∧
      d.files = oldTestFile ∧ cleanup.cleanedCount = 1 ∧
      ".file_agent_test_00.tmp".toList ∈ cleanup.failed := by
  obtain ⟨d, hrun, hd⟩ := exists_run_of_replay (testDirectoryStep defaultTestFilePrefix)
    openedDirectory restOfCleanup (fun d => d.files = oldTestFile ∧
      d.cleanups[0]?.any fun cleanup =>
        cleanup.point = .returned true ∧ cleanup.cleanedCount = 1) (by decide +kernel)
  obtain ⟨hfiles, hcleanup⟩ := of_decide_eq_true hd
  obtain ⟨cleanup, hk, hany⟩ := Option.any_eq_true _ _ |>.mp hcleanup
  obtain ⟨hreturned, hcount⟩ := of_decide_eq_true hany
  refine ⟨d, cleanup, hk, hfiles, hcount, ?_⟩
  have hopen : testDirectoryStep defaultTestFilePrefix { files := oldTestFile } .startCleanup =
      some { files := oldTestFile, cleanups := [{}] } := rfl
  have hscan : testDirectoryStep defaultTestFilePrefix
      { files := oldTestFile, cleanups := [{}] } (.scan 0 true) = some openedDirectory := rfl
  exact cleanup_complete (.snoc .start hopen) hscan hrun hk hreturned
    (by decide +kernel) (by decide +kernel) (by decide +kernel) (hfiles ▸ by decide +kernel)

end Runs

end FileAgent

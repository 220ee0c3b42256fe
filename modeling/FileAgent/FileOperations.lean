import FileAgent.CopyStrategy

set_option relaxedAutoImplicit false
set_option autoImplicit false

/-!
# File operations

`app/utils/file_operations.py`: the destination path of a source file. A path is the list of its
components, as `pathlib` holds it.

## Main definitions

* `pathParts`, `DestPath` — paths.
* `buildDestinationPathWithTemplate` — the destination path before numbering.
* `generateConflictFreePath` — the first of the names `p`, `p_1`, `p_2`, … that is free.

## Main results

* `generateConflictFreePath_eq_ok_iff` — what `generate_conflict_free_path` returns.
-/

namespace FileAgent

/-- The text between slashes. -/
def splitSlash : List Char → List (List Char)
  | [] => [[]]
  | c :: cs =>
    if c = '/' then [] :: splitSlash cs
    else
      match splitSlash cs with
      | [] => [[c]]
      | word :: rest => (c :: word) :: rest

/-- `Path(p).parts`, without the root. -/
def pathParts (p : String) : List String :=
  ((splitSlash p.toList).filter fun word => word ≠ [] && word ≠ ['.']).map String.ofList

/-- A path of a destination file: the components of its folder, and its name. -/
structure DestPath where
  parent : List String
  name : String
  deriving DecidableEq

namespace DestPath

/-- The path with the components `parts`. -/
def ofParts (parts : List String) : DestPath := ⟨parts.dropLast, parts.getLastD ""⟩

/-- `str(path)`. -/
def toString (p : DestPath) : String := "/" ++ "/".intercalate (p.parent ++ [p.name])

/-- `f"{base_name}_{counter}{extensions}"`, with the name split at its first dot. -/
def numbered (p : DestPath) (counter : ℕ) : DestPath :=
  let baseName := p.name.toList.takeWhile (· ≠ '.')
  let extensions := p.name.toList.dropWhile (· ≠ '.')
  { p with name := String.ofList (baseName ++ '_' :: (Nat.repr counter).toList ++ extensions) }

/-- The names `generate_conflict_free_path` tries, by their number; `0` is the name itself. -/
def candidate (p : DestPath) : ℕ → DestPath
  | 0 => p
  | k + 1 => p.numbered (k + 1)

end DestPath

/-- `calculate_relative_path`. -/
def calculateRelativePath (sourcePath sourceBase : List String) : List String :=
  if sourceBase <+: sourcePath then sourcePath.drop sourceBase.length
  else [sourcePath.getLastD ""]

/-- `build_destination_path`. -/
def buildDestinationPath (sourcePath sourceBase destBase : List String) : DestPath :=
  .ofParts (destBase ++ calculateRelativePath sourcePath sourceBase)

/-- `build_destination_path_with_template`. An enabled template engine is given by the folder it
chooses for a file name. -/
def buildDestinationPathWithTemplate (sourcePath sourceBase destBase : List String)
    (templateEngine : Option (String → List String)) : DestPath :=
  let filename := sourcePath.getLastD ""
  match templateEngine with
  | some outputFolder => ⟨outputFolder filename, filename⟩
  | none => buildDestinationPath sourcePath sourceBase destBase

/-- `generate_conflict_free_path`, with `path_exists` for the test of the file system. -/
def generateConflictFreePath (path_exists : DestPath → Bool) (p : DestPath) :
    Except PyError DestPath :=
  if !path_exists p then .ok p
  else
    match (List.range' 1 9999).find? fun counter => !path_exists (p.numbered counter) with
    | some counter => .ok (p.numbered counter)
    | none =>
      .error
        { kind := .other
          message := "Could not resolve name conflict after 9999 attempts: " ++ p.toString }

/-- `q` is the first name for `p` that is free: one of its candidates that does not exist while all
candidates before it do. -/
def FirstFreeName (path_exists : DestPath → Bool) (p q : DestPath) : Prop :=
  ∃ k ≤ 9999, q = p.candidate k ∧ path_exists q = false ∧
    ∀ i < k, path_exists (p.candidate i) = true

/-- **What `generate_conflict_free_path` returns**: the first free name.

**Proof sketch.** `find?` returns the first counter whose name is free, and the name itself is
candidate `0`. -/
theorem generateConflictFreePath_eq_ok_iff {path_exists : DestPath → Bool} {p q : DestPath} :
    generateConflictFreePath path_exists p = .ok q ↔ FirstFreeName path_exists p q := by
  unfold generateConflictFreePath
  cases hp : path_exists p with
  | false =>
    simp only [Bool.not_false, if_true, Except.ok.injEq]
    constructor
    · rintro rfl
      exact ⟨0, Nat.zero_le _, rfl, hp, fun i hi => absurd hi (Nat.not_lt_zero i)⟩
    · rintro ⟨k, -, rfl, -, hbefore⟩
      cases k with
      | zero => rfl
      | succ k =>
        have := hbefore 0 (Nat.succ_pos k)
        rw [DestPath.candidate, hp] at this
        cases this
  | true =>
    simp only [Bool.not_true, Bool.false_eq_true, if_false]
    constructor
    · intro h
      split at h
      · rename_i counter hfind
        obtain rfl := Except.ok.inj h
        rw [List.find?_range'_eq_some] at hfind
        obtain ⟨hfree, hmem, hbefore⟩ := hfind
        rw [List.mem_range'_1] at hmem
        obtain ⟨k, rfl⟩ : ∃ k, counter = k + 1 := ⟨counter - 1, by omega⟩
        refine ⟨k + 1, by omega, rfl, by simpa using hfree, fun i hi => ?_⟩
        cases i with
        | zero => exact hp
        | succ i => simpa [DestPath.candidate] using hbefore (i + 1) (by omega) hi
      · cases h
    · rintro ⟨k, hk, rfl, hfree, hbefore⟩
      cases k with
      | zero => rw [DestPath.candidate, hp] at hfree; cases hfree
      | succ k =>
        have hfind : ((List.range' 1 9999).find? fun counter => !path_exists (p.numbered counter)) =
            some (k + 1) := by
          rw [List.find?_range'_eq_some, List.mem_range'_1]
          refine ⟨by simpa [DestPath.candidate] using hfree, by omega, fun j hj hlt => ?_⟩
          obtain ⟨i, rfl⟩ : ∃ i, j = i + 1 := ⟨j - 1, by omega⟩
          simpa [DestPath.candidate] using hbefore (i + 1) hlt
        rw [hfind]
        rfl

end FileAgent

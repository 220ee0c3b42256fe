import FileAgent.Models

set_option relaxedAutoImplicit false
set_option autoImplicit false

/-!
# The file repository

`app/core/file_repository.py`: the dictionary `_files_by_id` from uuids to `TrackedFile` objects.
A `TrackedFile` object outlives its removal from the dictionary as long as some coroutine holds a
reference to it, so the objects live in a heap of their own and the dictionary is the list of its
keys, in insertion order.

## Main definitions

* `FileRepository` — the heap of objects, the keys of the dictionary, and the supply of uuids.
* `FileRepository.getById`, `insert`, `remove` — the operations of the source; `get_all` lists
  `files`.
* `FileRepository.modify` — an assignment to attributes of an object.
-/

namespace FileAgent

/-- `FileRepository`. Keys are pairwise distinct, and every key was handed out by the supply
(`uuid4` never repeats). -/
structure FileRepository where
  /-- Every `TrackedFile` object ever created, by its uuid. -/
  heap : FileId → TrackedFile
  /-- The keys of `_files_by_id`, in insertion order. -/
  files : List FileId
  /-- The next fresh uuid. -/
  nextId : FileId
  files_nodup : files.Nodup
  files_lt : ∀ id ∈ files, id < nextId

namespace FileRepository

/-- The repository at start-up. -/
def empty : FileRepository where
  heap := fun _ => { filePath := "", discoveredAt := 0 }
  files := []
  nextId := 0
  files_nodup := List.nodup_nil
  files_lt := by simp

variable (r : FileRepository)

/-- `get_by_id`. -/
def getById (id : FileId) : Option TrackedFile :=
  if id ∈ r.files then some (r.heap id) else none

/-- Assignments to attributes of the object `id`. Saving the same object again with `add` leaves
the dictionary as it is, so this is also `modify` followed by `add`. -/
def modify (id : FileId) (g : TrackedFile → TrackedFile) : FileRepository :=
  { r with heap := Function.update r.heap id (g (r.heap id)) }

/-- `add` of a newly created object, which gets a fresh uuid. -/
def insert (f : TrackedFile) : FileRepository where
  heap := Function.update r.heap r.nextId f
  files := r.files ++ [r.nextId]
  nextId := r.nextId + 1
  files_nodup := by
    refine List.nodup_append.mpr ⟨r.files_nodup, List.nodup_singleton _, ?_⟩
    rintro a ha b hb rfl
    rw [List.mem_singleton] at hb
    exact (r.files_lt a ha).ne hb
  files_lt := by
    intro id hid
    rcases List.mem_append.mp hid with h | h
    · exact Nat.lt_succ_of_lt (r.files_lt id h)
    · rw [List.mem_singleton] at h
      exact h ▸ Nat.lt_succ_self _

/-- `remove`. The object itself stays reachable for whoever holds a reference. -/
def remove (id : FileId) : FileRepository where
  heap := r.heap
  files := r.files.filter (· ≠ id)
  nextId := r.nextId
  files_nodup := r.files_nodup.filter _
  files_lt := fun i hi => r.files_lt i (List.mem_of_mem_filter hi)

/-- `modify` keeps the stored ids. -/
@[simp] lemma modify_files (id : FileId) (g : TrackedFile → TrackedFile) :
    (r.modify id g).files = r.files := rfl

/-- `modify` keeps the next id. -/
@[simp] lemma modify_nextId (id : FileId) (g : TrackedFile → TrackedFile) :
    (r.modify id g).nextId = r.nextId := rfl

/-- The record that `modify` changes. -/
@[simp] lemma modify_heap_self (id : FileId) (g : TrackedFile → TrackedFile) :
    (r.modify id g).heap id = g (r.heap id) := by
  simp [modify]

/-- `modify` keeps every other record. -/
lemma modify_heap_of_ne {id j : FileId} (h : j ≠ id) (g : TrackedFile → TrackedFile) :
    (r.modify id g).heap j = r.heap j := by
  simp [modify, h]

/-- Reading any attribute after a modification that keeps it. -/
lemma modify_heap_proj {α : Sort*} (π : TrackedFile → α) (id j : FileId)
    (g : TrackedFile → TrackedFile) (h : ∀ f, π (g f) = π f) :
    π ((r.modify id g).heap j) = π (r.heap j) := by
  by_cases hj : j = id
  · rw [hj, modify_heap_self, h]
  · rw [modify_heap_of_ne r hj]

/-- A new record comes last. -/
@[simp] lemma insert_files (f : TrackedFile) : (r.insert f).files = r.files ++ [r.nextId] := rfl

/-- A new record uses up one id. -/
@[simp] lemma insert_nextId (f : TrackedFile) : (r.insert f).nextId = r.nextId + 1 := rfl

/-- A new record is stored under the next id. -/
@[simp] lemma insert_heap_self (f : TrackedFile) : (r.insert f).heap r.nextId = f := by
  simp [insert]

/-- Storing a record keeps every other one. -/
lemma insert_heap_of_ne {j : FileId} (h : j ≠ r.nextId) (f : TrackedFile) :
    (r.insert f).heap j = r.heap j := by
  simp [insert, h]

/-- A new object has a uuid that no stored object has. -/
lemma ne_nextId {id : FileId} (h : id ∈ r.files) : id ≠ r.nextId :=
  (r.files_lt id h).ne

/-- Removing an id keeps every record. -/
@[simp] lemma remove_heap (id : FileId) : (r.remove id).heap = r.heap := rfl

/-- Removing an id keeps the next one. -/
@[simp] lemma remove_nextId (id : FileId) : (r.remove id).nextId = r.nextId := rfl

/-- Removing takes away the one id. -/
@[simp] lemma mem_remove_files {id j : FileId} :
    j ∈ (r.remove id).files ↔ j ∈ r.files ∧ j ≠ id := by
  simp [remove]

/-- `get_by_id` of a stored id is its record. -/
lemma getById_of_mem {id : FileId} (h : id ∈ r.files) : r.getById id = some (r.heap id) := by
  simp [getById, h]

/-- `get_by_id` of any other id is nothing. -/
lemma getById_of_not_mem {id : FileId} (h : id ∉ r.files) : r.getById id = none := by
  simp [getById, h]

end FileRepository

end FileAgent

import FileAgent.FileOperations

set_option relaxedAutoImplicit false
set_option autoImplicit false

/-!
# Preparing a job

`app/services/consumer/job_file_preparation_service.py`.

## Main definitions

* `determineInitialStatus` — the status a job starts with.
* `Routing`, `calculateDestinationPath` — the path a job copies to.
-/

namespace FileAgent

/-- `_determine_initial_status`. -/
def determineInitialStatus (f : TrackedFile) : FileStatus :=
  if isFileCurrentlyGrowing f then .growingCopy else .copying

/-- The two statuses a copy begins with. -/
lemma determineInitialStatus_cases (f : TrackedFile) :
    determineInitialStatus f = .growingCopy ∨ determineInitialStatus f = .copying := by
  unfold determineInitialStatus
  split_ifs <;> simp

/-- The settings a destination path depends on. -/
structure Routing where
  sourceDirectory : List String
  destinationDirectory : List String
  /-- The folder the template engine chooses for a file name, if it is enabled. -/
  templateEngine : Option (String → List String)

/-- The destination path before numbering. -/
def Routing.target (r : Routing) (filePath : FilePath) : DestPath :=
  buildDestinationPathWithTemplate (pathParts filePath) r.sourceDirectory r.destinationDirectory
    r.templateEngine

/-- `_calculate_destination_path`. -/
def calculateDestinationPath (r : Routing) (path_exists : DestPath → Bool) (filePath : FilePath) :
    Except PyError DestPath :=
  generateConflictFreePath path_exists (r.target filePath)

end FileAgent

import FileAgent.Coroutine

set_option relaxedAutoImplicit false
set_option autoImplicit false

/-!
# The job queue

`JobQueueService.handle_file_ready` of `app/services/job_queue.py`. The queue is unbounded, so
`put` does not wait: the job is in the queue before the coroutine is suspended again, to write
`IN_QUEUE`.

## Main definitions

* `isNetworkAvailable` — whether the destination counts as available.
* `HandlerPoint`, `HandlerPoint.op`, `HandlerPoint.after` — the coroutine.
* `HandlerPoint.put` — the job it puts into the queue.
-/

namespace FileAgent

/-- `_is_network_available`, with a storage monitor configured. -/
def isNetworkAvailable (destInfo : Option StorageInfo) : Bool :=
  destInfo.any fun info => info.status = .ok || info.status = .warning

/-- A suspended `handle_file_ready`. -/
inductive HandlerPoint
  | getFileById
  /-- `_add_job_to_queue`, after the `put`. -/
  | added
  | park
  | returned
  deriving DecidableEq

namespace HandlerPoint

/-- The operation the handler of an event of the file `f` awaits. -/
def op (f : FileId) : HandlerPoint → Op
  | getFileById => .getFileById f
  | added => .call (.updateFileStatusById f .inQueue [])
  | park =>
    .call (.updateFileStatusById f .waitingForNetwork
      [.errorMessage (some "Network unavailable - waiting for recovery")])
  | returned => .io

/-- The code between two awaits. -/
def after (view : View) (f : FileId) : HandlerPoint → Answer → Option HandlerPoint
  | getFileById, .file none => some returned
  | getFileById, .file (some _) =>
    if (view.heap f).status ≠ .ready then some returned
    else if isNetworkAvailable view.destinationInfo then
      some (if view.queueCreated then added else returned)
    else some park
  | added, .done _ => some returned
  | park, .done _ => some returned
  | _, _ => none

/-- The job put into the queue between two awaits: the one on the way to `added`. -/
def put (view : View) (f : FileId) : HandlerPoint → HandlerPoint → Option QueueJob
  | getFileById, added => some ⟨f, (view.heap f).filePath⟩
  | _, _ => none

end HandlerPoint

end FileAgent

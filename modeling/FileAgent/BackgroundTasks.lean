import FileAgent.Coroutine

set_option relaxedAutoImplicit false
set_option autoImplicit false

/-!
# Retries and the checks of the destination

The tasks in the background: `StateManager._execute_retry_task`, one for each scheduled retry, and
the loop of `StorageMonitorService` with `JobQueueService.process_waiting_network_files`.

## Main definitions

* `RetryPoint`, `RetryPoint.op`, `RetryPoint.after` — a retry.
* `StoragePoint`, `StoragePoint.op`, `StoragePoint.after` — the checks of the destination.
-/

namespace FileAgent

/-- A suspended `_execute_retry_task`. -/
inductive RetryPoint
  | sleep
  | execute
  | returned

namespace RetryPoint

/-- The operation the retry of `f` awaits. -/
def op (f : FileId) : RetryPoint → Op
  | sleep | returned => .io
  | execute => .call (.executeRetryTask f)

/-- The code between two awaits. -/
def after : RetryPoint → Answer → Option RetryPoint
  | sleep, .io => some execute
  | execute, .done _ => some returned
  | _, _ => none

end RetryPoint

/-- The suspended checks of the destination: `_check_single_storage`, and
`process_waiting_network_files` with what is left of its loop. -/
inductive StoragePoint
  | check
  | getWaiting
  | release (f : FileId) (rest : List FileId)

namespace StoragePoint

/-- The loop of `process_waiting_network_files`, up to its next await. -/
def nextWaiting : List FileId → StoragePoint
  | [] => check
  | f :: rest => release f rest

/-- The operation awaited. -/
def op : StoragePoint → Op
  | check => .io
  | getWaiting => .getFilesByStatus .waitingForNetwork
  | release f _ => .call (.updateFileStatusById f .discovered [.errorMessage none])

/-- The code between two awaits. The result of a check is `newInfo` of the environment. -/
def after (view : View) : StoragePoint → Answer → Option StoragePoint
  | check, .io =>
    some (if isDestinationRecovery .destination view.destinationInfo view.env.newInfo
      then getWaiting else check)
  | getWaiting, .files ids => some (nextWaiting ids)
  | release _ rest, .done _ => some (nextWaiting rest)
  | _, _ => none

end StoragePoint

end FileAgent

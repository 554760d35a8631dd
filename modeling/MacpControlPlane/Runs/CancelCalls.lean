import MacpControlPlane.Runs.Lifecycle

/-!
# A call of `cancel` (`runs/run-executor.service.ts`)

Where a call of `cancel` is, and where it goes on from what it waits for.  The machines that use it say what else moves
the run in between.
-/

namespace MacpControlPlane

open Lifecycle

namespace RunExecutor

/-- `CancelCallback`, as far as `cancel` reads it. -/
structure CancelCallback where
  url : Option String

/-- The two hooks in the metadata of a run: `cancellationDelegated`, as a truth value, and `cancelCallback`. -/
structure CancelHooks where
  cancellationDelegated : Bool := false
  cancelCallback : Option CancelCallback := none

inductive CancelAt where
  /-- Before `getRun`. -/
  | reading
  /-- `provider.cancelSession` -/
  | cancelling
  /-- The `fetch` of `invokeCancelCallback`. -/
  | posting (url : String)
  /-- At a statement of `markCancelled`. -/
  | marking (phase : Phase)
  /-- `markCancelled` has returned. -/
  | marked
  /-- `streamConsumer.stop` has been called. -/
  | stopped
  | returned
  | rejected (message : String)

/-- What the runtime, or the callback, answers. -/
inductive Answer where
  | ok
  /-- A response that is not `ok`. -/
  | status (code : Nat)
  | threw (message : String)

/-- What `cancel` does with the row that it has read; `kinds` are the runtimes that are registered. -/
def hooked (kinds : List String) (runtimeKind : String) (hooks : CancelHooks) (row : RunRow) : CancelAt :=
  if row.runtimeSessionId.getD "" = "" then .rejected "run has no bound runtime session"
  else if hooks.cancellationDelegated then
    if runtimeKind ∈ kinds then .cancelling
    else .rejected s!"runtime provider '{runtimeKind}' is not registered"
  else
    match (hooks.cancelCallback.bind (·.url)).filter (· ≠ "") with
    | some url => .posting url
    | none =>
      .rejected "run has no cancelCallback in metadata and no policy delegation — cannot cancel from control-plane"

/-- Where `invokeCancelCallback` goes on. -/
def posted (url : String) : Answer → CancelAt
  | .ok => .marking Op.markCancelled.first
  | .status code => .rejected s!"cancel callback {url} returned {code}"
  | .threw message => .rejected s!"cancel callback {url} failed: {message}"

/-- Where `cancel` goes on from an answer of the runtime, or of the callback. -/
def CancelAt.answered : CancelAt → Answer → Option CancelAt
  -- An error of `cancelSession` is logged only.
  | .cancelling, _ => some (.marking Op.markCancelled.first)
  | .posting url, answer => some (posted url answer)
  | _, _ => none

/-- Where `cancel` goes on from a statement of `markCancelled`. -/
def CancelAt.after : Outcome → CancelAt
  | .goesOn phase => .marking phase
  | .returned _ => .marked
  | .threw error => .rejected error.message

/-- `markCancelled` has returned. -/
def pastMark : CancelAt → Bool
  | .marked | .stopped | .returned => true
  | _ => false

/-- `markCancelled` has found the run ended, or has ended it. -/
def certain : CancelAt → Bool
  | .marking (.emit _) => true
  | here => pastMark here

/-- A call that has read its row is certain of nothing yet. -/
theorem certain_hooked (kinds : List String) (runtimeKind : String) (hooks : CancelHooks) (row : RunRow) :
    certain (hooked kinds runtimeKind hooks row) = false := by
  unfold hooked
  split
  · rfl
  · split
    · split <;> rfl
    · split <;> rfl

theorem certain_answered {here here' : CancelAt} {answer : Answer} (h : here.answered answer = some here') :
    certain here' = false := by
  unfold CancelAt.answered at h
  split at h
  · cases h
    rfl
  · cases h
    cases answer <;> rfl
  · cases h

end RunExecutor

end MacpControlPlane

import MacpControlPlane.Lib.Columns
import MacpControlPlane.Storage.RunRepository
import MacpControlPlane.Events.RunEventService

/-!
# The lifecycle operations (`runs/run-manager.service.ts`)

The events that the operations emit, with all their data, and the checks that they make before they write.  How the
statements of an operation interleave with other callers is up to the machines that use them.
-/

namespace MacpControlPlane

open Js

variable {N : Type}

/-- `RunDescriptor`, as far as the lifecycle operations read it. -/
structure RunDescriptor where
  runtimeKind : String
  runtimeVersion : Option String := none
  modeName : String
  modeVersion : String
  configurationVersion : String
  policyVersion : Option String := none
  sessionId : Option String := none
  participants : List String := []
  idempotencyKey : Option String := none
  deriving DecidableEq, Repr

/-- The `session` argument of `bindSession`. -/
structure BoundSession where
  runtimeSessionId : String
  initiator : String
  sessionState : String
  contextId : Option String := none
  extensionKeys : Option (List String) := none
  deriving DecidableEq, Repr

/-- `RuntimeSessionSnapshot`, as far as the executor and the discovery read it. -/
structure RuntimeSessionSnapshot where
  sessionId : String
  mode : String
  state : String
  modeVersion : Option String := none
  configurationVersion : Option String := none
  policyVersion : Option String := none
  initiator : Option String := none
  contextId : Option String := none
  extensionKeys : Option (List String) := none
  deriving DecidableEq, Repr

/-- The columns of a `runtime_sessions` row that `bindSession` writes. -/
structure RuntimeSessionValues where
  runId : String
  runtimeKind : String
  runtimeSessionId : String
  modeName : String
  modeVersion : String
  configurationVersion : String
  policyVersion : String
  initiatorParticipantId : Option String
  sessionState : String
  lastSeenAt : String
  deriving DecidableEq, Repr

/-- The columns take the texts. -/
def RuntimeSessionValues.fits (values : RuntimeSessionValues) : Bool :=
  Columns.varchar 64 values.runtimeKind && Columns.varchar 255 values.runtimeSessionId &&
    Columns.varchar 255 values.modeName && Columns.varchar 64 values.modeVersion &&
    Columns.varchar 128 values.configurationVersion && Columns.varchar 128 values.policyVersion &&
    values.initiatorParticipantId.all (Columns.varchar 255) && Columns.varchar 64 values.sessionState

/-- The values as the columns keep them. -/
def RuntimeSessionValues.cut (values : RuntimeSessionValues) : RuntimeSessionValues where
  runId := values.runId
  runtimeKind := Columns.cut 64 values.runtimeKind
  runtimeSessionId := Columns.cut 255 values.runtimeSessionId
  modeName := Columns.cut 255 values.modeName
  modeVersion := Columns.cut 64 values.modeVersion
  configurationVersion := Columns.cut 128 values.configurationVersion
  policyVersion := Columns.cut 128 values.policyVersion
  initiatorParticipantId := values.initiatorParticipantId.map (Columns.cut 255)
  sessionState := Columns.cut 64 values.sessionState
  lastSeenAt := values.lastSeenAt

/-- A nullable column as a JSON value. -/
def nullable (column : Option String) : Json N :=
  match column with
  | some s => .str s
  | none => .null

/-- An optional string as a field of a JSON object: `undefined` is not there. -/
def optionalField (k : String) (v : Option String) : JsonObject N :=
  match v with
  | some s => [(k, .str s)]
  | none => []

/-- `value || fallback` -/
def orElse (value : Option String) (fallback : String) : String :=
  if value.getD "" = "" then fallback else value.getD ""

/-- `{ kind: 'macp-control-plane', name: 'run-manager' }` -/
def runManagerSource : EventSource := ⟨.macpControlPlane, "run-manager", none⟩

/-- `run.traceId ? { traceId: run.traceId } : undefined` -/
def rowTrace (run : RunRow) : Option TraceRef :=
  if run.traceId.getD "" = "" then none else some { traceId := run.traceId }

/-- `['completed', 'failed', 'cancelled'].includes(current.status)` -/
def endedAlready (current : RunRow) : Bool := current.status.terminal

namespace RunManager

/-- The row that `createRun` inserts. -/
def createdRow (request : RunDescriptor) (sessionId runId traceId now : String) : RunRow where
  id := runId
  status := .queued
  runtimeSessionId := some sessionId
  traceId := some traceId
  idempotencyKey := request.idempotencyKey
  createdAt := now
  updatedAt := now

/-- The event of `createRun`. -/
def createdEvents (request : RunDescriptor) (sessionId : String) (record : RunRow) (traceId ts : String) :
    List (PartialEvent N) :=
  [{ ts
     type := .runCreated
     source := runManagerSource
     subject := some ⟨.run, record.id⟩
     trace := some { traceId := some traceId }
     data :=
       [("status", record.status.json), ("modeName", .str request.modeName),
        ("runtimeKind", .str request.runtimeKind)] ++
       optionalField "runtimeVersion" request.runtimeVersion ++
       [("sessionId", .str sessionId), ("traceId", .str traceId)] }]

/-- The event of `markStarted`. -/
def startedEvents (request : RunDescriptor) (run : RunRow) (ts : String) : List (PartialEvent N) :=
  [{ ts
     type := .runStarted
     source := runManagerSource
     subject := some ⟨.run, run.id⟩
     trace := rowTrace run
     data :=
       [("status", RunStatus.starting.json), ("startedAt", nullable run.startedAt),
        ("modeName", .str request.modeName),
        ("runtimeKind", .str request.runtimeKind), ("traceId", nullable run.traceId)] }]

/-- The events of `bindSession`. -/
def boundEvents (request : RunDescriptor) (session : BoundSession) (ts : String) : List (PartialEvent N) :=
  let extensionKeys := session.extensionKeys.getD []
  let bound : PartialEvent N :=
    { ts
      type := .sessionBound
      source := runManagerSource
      subject := some ⟨.session, session.runtimeSessionId⟩
      data :=
        [("sessionId", .str session.runtimeSessionId), ("initiator", .str session.initiator),
         ("state", .str session.sessionState), ("modeName", .str request.modeName),
         ("modeVersion", .str request.modeVersion), ("configurationVersion", .str request.configurationVersion),
         ("policyVersion", .str (orElse request.policyVersion "policy.default")),
         ("participants", .arr (request.participants.map .str))] ++
        (if session.contextId.getD "" = "" then [] else optionalField "contextId" session.contextId) ++
        (if extensionKeys = [] then [] else [("extensionKeys", .arr (extensionKeys.map .str))]) }
  bound :: request.participants.map fun participant =>
    { ts
      type := .participantSeen
      source := runManagerSource
      subject := some ⟨.participant, participant⟩
      data := [("participantId", .str participant), ("status", .str "idle")] }

/-- The values that `bindSession` upserts into `runtime_sessions`. -/
def boundValues (runId : String) (request : RunDescriptor) (session : BoundSession) (now : String) :
    RuntimeSessionValues where
  runId
  runtimeKind := request.runtimeKind
  runtimeSessionId := session.runtimeSessionId
  modeName := request.modeName
  modeVersion := request.modeVersion
  configurationVersion := request.configurationVersion
  policyVersion := orElse request.policyVersion "policy.default"
  initiatorParticipantId := if session.initiator = "" then none else some session.initiator
  sessionState := session.sessionState
  lastSeenAt := now

/-- The event of `markRunning`. -/
def runningEvents (run : RunRow) (runtimeSessionId sessionState ts : String) : List (PartialEvent N) :=
  [{ ts
     type := .sessionStateChanged
     source := runManagerSource
     subject := some ⟨.session, runtimeSessionId⟩
     trace := rowTrace run
     data := [("sessionId", .str runtimeSessionId), ("state", .str sessionState)] }]

/-- The event of `markSuspended` and `markResumed`. -/
def pausedEvents (type : CanonicalEventType) (status : RunStatus) (run : RunRow) (ts : String) :
    List (PartialEvent N) :=
  [{ ts
     type
     source := runManagerSource
     subject := some ⟨.run, run.id⟩
     trace := rowTrace run
     data :=
       [("status", status.json), ("runtimeSessionId", nullable run.runtimeSessionId),
        ("traceId", nullable run.traceId)] }]

/-- The event of `markSuspended`. -/
def suspendedEvents (run : RunRow) (ts : String) : List (PartialEvent N) :=
  pausedEvents .runSuspended .suspended run ts

/-- The event of `markResumed`. -/
def resumedEvents (run : RunRow) (ts : String) : List (PartialEvent N) :=
  pausedEvents .runResumed .running run ts

/-- The event of an operation that ends the run, with the data that `markFailed` adds. -/
def endedEvents (type : CanonicalEventType) (status : RunStatus) (run : RunRow) (ts : String)
    (extra : JsonObject N := []) : List (PartialEvent N) :=
  [{ ts
     type
     source := runManagerSource
     subject := some ⟨.run, run.id⟩
     trace := rowTrace run
     data :=
       [("status", status.json), ("endedAt", nullable run.endedAt),
        ("runtimeSessionId", nullable run.runtimeSessionId),
        ("traceId", nullable run.traceId)] ++ extra }]

/-- The event of `markCompleted`. -/
def completedEvents (run : RunRow) (ts : String) : List (PartialEvent N) :=
  endedEvents .runCompleted .completed run ts

/-- The event of `markCancelled`. -/
def cancelledEvents (run : RunRow) (ts : String) : List (PartialEvent N) :=
  endedEvents .runCancelled .cancelled run ts

/-- The event of `markFailed`. -/
def failedEvents (run : RunRow) (message ts : String) : List (PartialEvent N) :=
  endedEvents .runFailed .failed run ts [("error", .str message)]

end RunManager

end MacpControlPlane

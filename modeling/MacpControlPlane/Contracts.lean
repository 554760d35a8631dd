import MacpControlPlane.Lib.Js

/-!
# Contracts of the control plane

The data types of `contracts/control-plane.ts` that the event log and the projections are made of.  An optional field
is an `Option`, with `none` for `undefined`.  A field that the reducer fills by casting an unchecked JSON value (`as
string`, `as RunStatus`) holds the JSON value itself, since the cast checks nothing.
-/

namespace MacpControlPlane

open Js

/-! ### Runs -/

/-- `RunStatus` -/
inductive RunStatus where
  | queued | starting | bindingSession | running | suspended | completed | failed | cancelled
  deriving DecidableEq, Repr

namespace RunStatus

/-- The string the status is stored as. -/
def name : RunStatus → String
  | queued => "queued"
  | starting => "starting"
  | bindingSession => "binding_session"
  | running => "running"
  | suspended => "suspended"
  | completed => "completed"
  | failed => "failed"
  | cancelled => "cancelled"

/-- All statuses, in the order of `VALID_TRANSITIONS`. -/
def all : List RunStatus :=
  [queued, starting, bindingSession, running, suspended, completed, failed, cancelled]

/-- `['completed', 'failed', 'cancelled'].includes(status)` -/
def terminal (s : RunStatus) : Bool :=
  s = completed || s = failed || s = cancelled

/-- The status as a JSON value. -/
def json {N : Type} (s : RunStatus) : Json N := .str s.name

theorem mem_all (s : RunStatus) : s ∈ all := by cases s <;> decide

private theorem name_injective : Function.Injective name := by
  intro a b h
  cases a <;> cases b <;> first | rfl | exact absurd h (by decide)

@[simp] theorem json_inj {N : Type} {a b : RunStatus} : (a.json : Json N) = b.json ↔ a = b := by
  simp [json, name_injective.eq_iff]

end RunStatus

/-! ### Canonical events -/

/-- `CanonicalEventType | string` -/
inductive CanonicalEventType where
  | runCreated | runStarted | runCompleted | runFailed | runCancelled | runSuspended | runResumed
  | sessionBound | sessionStreamOpened | sessionStreamGap | sessionStateChanged
  | participantSeen | messageSent | messageReceived | messageSendFailed
  | signalEmitted | signalAcknowledged
  | proposalCreated | proposalUpdated | decisionProposed | decisionFinalized
  | progressReported | toolCalled | toolCompleted | artifactCreated
  | policyResolved | policyCommitmentEvaluated | policyDenied | llmCallCompleted
  | other (type : String)
  deriving DecidableEq, Repr

/-- The string of an event type. -/
def CanonicalEventType.name : CanonicalEventType → String
  | runCreated => "run.created"
  | runStarted => "run.started"
  | runCompleted => "run.completed"
  | runFailed => "run.failed"
  | runCancelled => "run.cancelled"
  | runSuspended => "run.suspended"
  | runResumed => "run.resumed"
  | sessionBound => "session.bound"
  | sessionStreamOpened => "session.stream.opened"
  | sessionStreamGap => "session.stream.gap"
  | sessionStateChanged => "session.state.changed"
  | participantSeen => "participant.seen"
  | messageSent => "message.sent"
  | messageReceived => "message.received"
  | messageSendFailed => "message.send_failed"
  | signalEmitted => "signal.emitted"
  | signalAcknowledged => "signal.acknowledged"
  | proposalCreated => "proposal.created"
  | proposalUpdated => "proposal.updated"
  | decisionProposed => "decision.proposed"
  | decisionFinalized => "decision.finalized"
  | progressReported => "progress.reported"
  | toolCalled => "tool.called"
  | toolCompleted => "tool.completed"
  | artifactCreated => "artifact.created"
  | policyResolved => "policy.resolved"
  | policyCommitmentEvaluated => "policy.commitment.evaluated"
  | policyDenied => "policy.denied"
  | llmCallCompleted => "llm.call.completed"
  | other type => type

/-- `CanonicalEvent['subject'].kind` -/
inductive SubjectKind where
  | run | session | participant | message | signal | proposal | decision | tool | artifact | trace | policy
  deriving DecidableEq, Repr

/-- `CanonicalEvent['subject']` -/
structure Subject where
  kind : SubjectKind
  id : String
  deriving DecidableEq, Repr

/-- `EventSourceKind`; a row can also hold a string outside the union, which the cast lets through. -/
inductive EventSourceKind where
  | runtime | macpControlPlane | replay
  | other (kind : String)
  deriving DecidableEq, Repr

/-- The string of a source kind. -/
def EventSourceKind.name : EventSourceKind → String
  | runtime => "runtime"
  | macpControlPlane => "macp-control-plane"
  | replay => "replay"
  | other kind => kind

/-- `normalizeEventSourceKind`: the legacy value `control-plane` is read as `macp-control-plane`. -/
def normalizeEventSourceKind (value : String) : EventSourceKind :=
  if value = "control-plane" then .macpControlPlane
  else if value = "runtime" then .runtime
  else if value = "macp-control-plane" then .macpControlPlane
  else if value = "replay" then .replay
  else .other value

/-- `CanonicalEvent['source']` -/
structure EventSource where
  kind : EventSourceKind
  name : String
  rawType : Option String := none
  deriving DecidableEq, Repr

/-- `CanonicalEvent['trace']` -/
structure TraceRef where
  traceId : Option String := none
  spanId : Option String := none
  parentSpanId : Option String := none
  deriving DecidableEq, Repr

/-- `CanonicalEvent` -/
structure CanonicalEvent (N : Type) where
  id : String
  runId : String
  seq : Nat
  ts : String
  type : CanonicalEventType
  schemaVersion : Option Nat := none
  subject : Option Subject := none
  source : EventSource
  trace : Option TraceRef := none
  data : JsonObject N
  deriving DecidableEq

/-- `event.data.k` -/
def CanonicalEvent.datum {N : Type} (e : CanonicalEvent N) (k : String) : Option (Json N) :=
  JsonObject.prop e.data k

/-- `event.subject?.id`, as the JSON value `??` chains it with. -/
def CanonicalEvent.subjectId {N : Type} (e : CanonicalEvent N) : Option (Json N) :=
  e.subject.map fun s => .str s.id

/-! ### Projections -/

/-- `RunSummaryProjection` -/
structure RunSummaryProjection (N : Type) where
  runId : String
  status : Json N
  runtimeSessionId : Option (Json N) := none
  startedAt : Option (Json N) := none
  endedAt : Option (Json N) := none
  traceId : Option (Json N) := none
  modeName : Option (Json N) := none
  contextId : Option String := none
  extensionKeys : Option (List (Json N)) := none
  maxSuspendMs : Option N := none
  historyGap : Option Bool := none
  deriving DecidableEq

/-- `ParticipantProjection['status']` -/
inductive ParticipantStatus where
  | idle | active | waiting | completed | failed | skipped
  deriving DecidableEq, Repr

/-- The string of a participant status. -/
def ParticipantStatus.name : ParticipantStatus → String
  | idle => "idle"
  | active => "active"
  | waiting => "waiting"
  | completed => "completed"
  | failed => "failed"
  | skipped => "skipped"

/-- `ParticipantProjection` -/
structure ParticipantProjection where
  participantId : String
  role : Option String := none
  status : ParticipantStatus
  latestActivityAt : Option String := none
  latestSummary : Option String := none
  deriving DecidableEq, Repr

/-- A node of `GraphProjection`. -/
structure GraphNode where
  id : String
  kind : String
  status : String
  deriving DecidableEq, Repr

/-- An edge of `GraphProjection`. -/
structure GraphEdge where
  source : String
  target : String
  kind : String
  ts : String
  deriving DecidableEq, Repr

/-- `GraphProjection` -/
structure GraphProjection where
  nodes : List GraphNode := []
  edges : List GraphEdge := []
  deriving DecidableEq, Repr

/-- `'allow' | 'deny'` -/
inductive Vote where
  | allow | deny
  deriving DecidableEq, Repr

/-- `DecisionProposalContribution` -/
structure DecisionProposalContribution (N : Type) where
  participantId : String
  action : String
  confidence : Option N := none
  reasons : List String
  ts : String
  vote : Option Vote := none
  messageType : Option String := none
  implicit : Option Bool := none
  deriving DecidableEq

/-- `CommitmentSupersedes`; `canonical` is absent in rows written before it existed. -/
structure CommitmentSupersedes where
  sessionId : String
  commitmentHash : String
  canonical : Option Bool
  deriving DecidableEq, Repr

/-- `DecisionProjection['current']`; `outcomePositive` is absent, `null` or a boolean. -/
structure DecisionCurrent (N : Type) where
  action : String := ""
  confidence : Option N := none
  reasons : Option (List String) := none
  finalized : Bool
  proposalId : Option String := none
  outcomePositive : Option (Option Bool) := none
  prompt : Option String := none
  proposals : Option (List (DecisionProposalContribution N)) := none
  resolvedAt : Option String := none
  resolvedBy : Option (Json N) := none
  supersedes : Option CommitmentSupersedes := none
  deriving DecidableEq

/-- `DecisionProjection` -/
structure DecisionProjection (N : Type) where
  current : Option (DecisionCurrent N) := none
  deriving DecidableEq

/-- An entry of `SignalProjection`. -/
structure SignalEntry (N : Type) where
  id : String
  name : String
  severity : Option (Json N) := none
  sourceParticipantId : Option (Json N) := none
  ts : String
  confidence : Option N := none
  payload : Option (Json N) := none
  senderAuthenticated : Option Bool := none
  acknowledgedAt : Option String := none
  acknowledgedBy : Option (Json N) := none
  deriving DecidableEq

/-- `SignalProjection` -/
structure SignalProjection (N : Type) where
  signals : List (SignalEntry N) := []
  deriving DecidableEq

/-- An entry of `TimelineProjection['recent']`. -/
structure TimelineEntry where
  id : String
  seq : Nat
  ts : String
  type : CanonicalEventType
  subject : Option Subject
  deriving DecidableEq, Repr

/-- `TimelineProjection` -/
structure TimelineProjection where
  latestSeq : Nat := 0
  totalEvents : Nat := 0
  recent : List TimelineEntry := []
  deriving DecidableEq, Repr

/-- `TraceSummary` -/
structure TraceSummary where
  traceId : Option String := none
  spanCount : Nat := 0
  lastSpanId : Option String := none
  linkedArtifacts : List String := []
  deriving DecidableEq, Repr

/-- An entry of `ProgressProjection`. -/
structure ProgressEntry (N : Type) where
  participantId : String
  percentage : Option N := none
  message : Option String := none
  ts : String
  deriving DecidableEq

/-- `ProgressProjection` -/
structure ProgressProjection (N : Type) where
  entries : List (ProgressEntry N) := []
  deriving DecidableEq

/-- `OutboundMessageSummary` -/
structure OutboundMessageSummary where
  total : Nat := 0
  queued : Nat := 0
  accepted : Nat := 0
  rejected : Nat := 0
  deriving DecidableEq, Repr

/-- `VoteTallyEntry`, with the fields of its `quorum`. -/
structure VoteTallyEntry where
  commitmentId : String
  allow : Nat := 0
  deny : Nat := 0
  threshold : Nat := 0
  required : Nat := 0
  cast : Nat := 0
  deriving DecidableEq, Repr

/-- `PolicyProjection['quorumStatus']` -/
inductive QuorumStatus where
  | pending | reached | failed
  deriving DecidableEq, Repr

/-- An entry of `PolicyProjection['commitmentEvaluations']`. -/
structure CommitmentEvaluation (N : Type) where
  commitmentId : String
  decision : Json N
  reasons : Json N
  ts : String
  deriving DecidableEq

/-- `PolicyProjection` -/
structure PolicyProjection (N : Type) where
  policyVersion : String := ""
  policyDescription : Option String := none
  resolvedAt : Option String := none
  outcomePositive : Option (Option Bool) := none
  commitmentEvaluations : List (CommitmentEvaluation N) := []
  expectedCommitments : Option (List (Json N)) := none
  voteTally : Option (List VoteTallyEntry) := none
  quorumStatus : Option QuorumStatus := none
  deriving DecidableEq

/-- `LlmCallEntry` -/
structure LlmCallEntry (N : Type) where
  participantId : String
  model : Option (Json N) := none
  promptTokens : N
  completionTokens : N
  totalTokens : N
  latencyMs : Option N := none
  ts : String
  messageId : Option (Json N) := none
  artifactId : Option (Json N) := none
  estimatedCostUsd : Option N := none
  deriving DecidableEq

/-- `LlmProjection`, with the fields of its `totals`. -/
structure LlmProjection (N : Type) where
  calls : List (LlmCallEntry N)
  callCount : Nat
  promptTokens : N
  completionTokens : N
  totalTokens : N
  estimatedCostUsd : N
  deriving DecidableEq

/-- The `llm` section before the first call. -/
def LlmProjection.none {N : Type} [JsNumber N] : LlmProjection N :=
  ⟨[], 0, JsNumber.ofNat 0, JsNumber.ofNat 0, JsNumber.ofNat 0, JsNumber.ofNat 0⟩

/-- `RunStateProjection` -/
structure RunStateProjection (N : Type) where
  run : RunSummaryProjection N
  participants : List ParticipantProjection
  graph : GraphProjection
  decision : DecisionProjection N
  signals : SignalProjection N
  progress : ProgressProjection N
  timeline : TimelineProjection
  trace : TraceSummary
  outboundMessages : OutboundMessageSummary
  policy : PolicyProjection N
  llm : LlmProjection N
  deriving DecidableEq

end MacpControlPlane

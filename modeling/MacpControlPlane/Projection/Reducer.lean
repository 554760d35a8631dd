import MacpControlPlane.Projection.Helpers

/-!
# The reducer (`projection/projection.service.ts`)

`applyEvents` folds canonical events into a projection.  Every event updates the timeline and the trace; the `switch`
on its type then runs one case.  Each case is a definition of its own, under the name of its event types, that takes
the projection so far to the projection after the case.
-/

namespace MacpControlPlane

open Js

variable {N : Type} [JsNumber N]

def RunStateProjection.empty (runId : String) : RunStateProjection N where
  run := { runId, status := RunStatus.queued.json }
  participants := []
  graph := {}
  decision := {}
  signals := {}
  progress := {}
  timeline := {}
  trace := {}
  outboundMessages := {}
  policy := {}
  llm := .none

namespace Reducer

/-! ### What every event updates -/

omit [JsNumber N] in
/-- `next.timeline` -/
def timeline (next : TimelineProjection) (event : CanonicalEvent N) : TimelineProjection where
  latestSeq := event.seq
  totalEvents := next.totalEvents + 1
  recent := sliceLast 50 (next.recent ++ [⟨event.id, event.seq, event.ts, event.type, event.subject⟩])

omit [JsNumber N] in
/-- `event.trace?.traceId`, when it is truthy. -/
def eventTraceId (event : CanonicalEvent N) : Option String :=
  (event.trace.bind (·.traceId)).filter (· ≠ "")

omit [JsNumber N] in
/-- `event.trace?.spanId`, when it is truthy. -/
def eventSpanId (event : CanonicalEvent N) : Option String :=
  (event.trace.bind (·.spanId)).filter (· ≠ "")

omit [JsNumber N] in
/-- `next.trace` -/
def trace (next : TraceSummary) (event : CanonicalEvent N) : TraceSummary where
  traceId := (eventTraceId event).or next.traceId
  spanCount := if (eventSpanId event).isSome then next.spanCount + 1 else next.spanCount
  lastSpanId := (eventSpanId event).or next.lastSpanId
  linkedArtifacts := next.linkedArtifacts

/-- The updates before the `switch`. -/
def track (next : RunStateProjection N) (event : CanonicalEvent N) : RunStateProjection N :=
  { next with timeline := timeline next.timeline event, trace := trace next.trace event }

/-! ### The cases of the `switch` -/

omit [JsNumber N] in
/-- `(event.data.status as RunStatus) ?? next.run.status` -/
def eventStatus (status : Json N) (event : CanonicalEvent N) : Json N :=
  (defined (event.datum "status")).getD status

omit [JsNumber N] in
/-- `next.run` after `run.created`, `run.started`, `run.completed`, `run.failed` and `run.cancelled`. -/
def lifecycleSummary (currentRunId : String) (run : RunSummaryProjection N) (event : CanonicalEvent N) :
    RunSummaryProjection N :=
  { run with
    runId := if currentRunId ≠ "" then currentRunId else event.runId
    status := eventStatus run.status event
    runtimeSessionId := coalesce (event.datum "runtimeSessionId") run.runtimeSessionId
    startedAt := coalesce (event.datum "startedAt") run.startedAt
    endedAt := coalesce (event.datum "endedAt") run.endedAt
    traceId := coalesce (event.datum "traceId") run.traceId
    modeName := coalesce (event.datum "modeName") run.modeName }

/-- `next.policy` when a run ends without success. -/
def settleQuorum (policy : PolicyProjection N) : PolicyProjection N :=
  if policy.quorumStatus = some .pending ∨ policy.quorumStatus = none then
    let hasAllow := policy.commitmentEvaluations.any fun e => e.decision.is "allow"
    { policy with quorumStatus := some (if hasAllow then .reached else .failed) }
  else policy

omit [JsNumber N] in
/-- `next.decision` after `run.created`. -/
def promptedDecision (decision : DecisionProjection N) (event : CanonicalEvent N) : DecisionProjection N :=
  match asString (event.datum "decisionPrompt") with
  | some prompt => ⟨some { decision.current.getD { finalized := false } with prompt := some prompt }⟩
  | none => decision

omit [JsNumber N] in
/-- `case 'run.created'` -/
def runCreated (currentRunId : String) (next : RunStateProjection N) (event : CanonicalEvent N) :
    RunStateProjection N :=
  { next with
    run := lifecycleSummary currentRunId next.run event
    decision := promptedDecision next.decision event }

/-- `case 'run.started'` -/
def runStarted (currentRunId : String) (next : RunStateProjection N) (event : CanonicalEvent N) :
    RunStateProjection N :=
  { next with run := lifecycleSummary currentRunId next.run event }

/-- `case 'run.completed'` -/
def runCompleted (currentRunId : String) (next : RunStateProjection N) (event : CanonicalEvent N) :
    RunStateProjection N :=
  sweepTerminal { next with run := lifecycleSummary currentRunId next.run event } .completed

/-- `case 'run.failed'` and `case 'run.cancelled'` -/
def runUnsuccessful (outcome : RunStatus) (currentRunId : String) (next : RunStateProjection N)
    (event : CanonicalEvent N) : RunStateProjection N :=
  let next := sweepTerminal { next with run := lifecycleSummary currentRunId next.run event } outcome
  { next with policy := settleQuorum next.policy }

omit [JsNumber N] in
/-- `next.run` after `run.suspended` and `run.resumed`. -/
def pausedSummary (currentRunId : String) (run : RunSummaryProjection N) (event : CanonicalEvent N) :
    RunSummaryProjection N :=
  { run with
    runId := if currentRunId ≠ "" then currentRunId else event.runId
    status := eventStatus run.status event
    runtimeSessionId := coalesce (event.datum "runtimeSessionId") run.runtimeSessionId
    traceId := coalesce (event.datum "traceId") run.traceId }

omit [JsNumber N] in
/-- `case 'run.suspended'` and `case 'run.resumed'` -/
def runPaused (currentRunId : String) (next : RunStateProjection N) (event : CanonicalEvent N) :
    RunStateProjection N :=
  { next with run := pausedSummary currentRunId next.run event }

omit [JsNumber N] in
/-- `case 'session.stream.gap'` -/
def sessionStreamGap (next : RunStateProjection N) : RunStateProjection N :=
  { next with run := { next.run with historyGap := some true } }

/-- The status that a session state gives the run. -/
def sessionStatus (state : Option String) (status : Json N) : Json N :=
  if state = some "SESSION_STATE_RESOLVED" then RunStatus.completed.json
  else if state = some "SESSION_STATE_EXPIRED" then RunStatus.failed.json
  else if state = some "SESSION_STATE_CANCELLED" then RunStatus.cancelled.json
  else if state = some "SESSION_STATE_SUSPENDED" then
    -- The only branch that asks whether the run has ended.
    if terminalStatus status then status else RunStatus.suspended.json
  else if state = some "SESSION_STATE_OPEN" then
    if status.is "suspended" then RunStatus.running.json else status
  else status

/-- The sweep that a session state makes. -/
def sessionSweep (state : Option String) (next : RunStateProjection N) : RunStateProjection N :=
  if state = some "SESSION_STATE_RESOLVED" then sweepTerminal next .completed
  else if state = some "SESSION_STATE_EXPIRED" then sweepTerminal next .failed
  else if state = some "SESSION_STATE_CANCELLED" then sweepTerminal next .cancelled
  else next

/-- `next.run` after `session.bound` and `session.state.changed`. -/
def sessionSummary (run : RunSummaryProjection N) (event : CanonicalEvent N) : RunSummaryProjection N :=
  { run with
    status := sessionStatus (asString (event.datum "state")) run.status
    runtimeSessionId := coalesce (event.datum "sessionId") run.runtimeSessionId
    contextId := (asString (event.datum "contextId")).or run.contextId
    extensionKeys := (asArray (event.datum "extensionKeys")).or run.extensionKeys }

/-- `next.run` and `next.policy` after `session.bound` and `session.state.changed`. -/
def sessionUpdate (next : RunStateProjection N) (event : CanonicalEvent N) : RunStateProjection N :=
  let expected := if event.type = .sessionBound then asArray (event.datum "expectedCommitments") else none
  let quorumStatus :=
    if expected.any (!·.isEmpty) && next.policy.quorumStatus = none then some .pending else next.policy.quorumStatus
  { next with
    run := sessionSummary next.run event
    policy := { next.policy with expectedCommitments := expected.or next.policy.expectedCommitments, quorumStatus } }

/-- `case 'session.bound'` and `case 'session.state.changed'` -/
def sessionState (next : RunStateProjection N) (event : CanonicalEvent N) : RunStateProjection N :=
  sessionSweep (asString (event.datum "state")) (sessionUpdate next event)

/-- `case 'participant.seen'` -/
def participantSeen (next : RunStateProjection N) (event : CanonicalEvent N) : RunStateProjection N :=
  let participantId := stringOr (coalesce (event.datum "participantId") event.subjectId) ""
  if next.participants.any (·.participantId = participantId) then next
  else
    { next with
      participants := next.participants ++ [{ participantId, status := .idle }]
      graph := { next.graph with nodes := next.graph.nodes ++ [⟨participantId, "participant", "idle"⟩] } }

/-- `String(event.data.sender ?? event.data.from ?? '')` -/
def messageSender (event : CanonicalEvent N) : String :=
  stringOr (coalesce (event.datum "sender") (event.datum "from")) ""

omit [JsNumber N] in
/-- `(event.data.to as string[] | undefined) ?? []` -/
def explicitRecipients (event : CanonicalEvent N) : List String :=
  strings ((asArray (event.datum "to")).getD [])

/-- `recipients.forEach((recipient) => this.touchParticipant(next, recipient, event.ts, 'waiting', undefined))` -/
def touchRecipients (next : RunStateProjection N) (recipients : List String) (ts : String) : RunStateProjection N :=
  recipients.foldl (fun next recipient => touchParticipant next recipient ts .waiting none) next

/-- `next.graph.edges = next.graph.edges.slice(-n)` -/
def sliceEdges (n : Nat) (next : RunStateProjection N) : RunStateProjection N :=
  { next with graph := { next.graph with edges := sliceLast n next.graph.edges } }

/-- `case 'message.sent'` -/
def messageSent (next : RunStateProjection N) (event : CanonicalEvent N) : RunStateProjection N :=
  let sender := messageSender event
  let recipients := explicitRecipients event
  let summary := stringOr (event.datum "messageType") event.type.name
  let next := touchParticipant next sender event.ts .active (some summary)
  let next := touchRecipients next recipients event.ts
  let sent := recipients.filter fun recipient => sender ≠ "" && recipient ≠ ""
  let edges := next.graph.edges ++ sent.map fun recipient => ⟨sender, recipient, event.type.name, event.ts⟩
  let next := sliceEdges 200 { next with graph := { next.graph with edges } }
  { next with
    outboundMessages :=
      { next.outboundMessages with
        total := next.outboundMessages.total + 1, accepted := next.outboundMessages.accepted + 1 } }

omit [JsNumber N] in
/-- `case 'message.send_failed'` -/
def messageSendFailed (next : RunStateProjection N) : RunStateProjection N :=
  { next with
    outboundMessages :=
      { next.outboundMessages with
        total := next.outboundMessages.total + 1, rejected := next.outboundMessages.rejected + 1 } }

/-- The recipients that `message.received` infers. -/
def inferRecipients (next : RunStateProjection N) (event : CanonicalEvent N) (sender messageType : String)
    (decoded : Option (Json N)) : List String :=
  let explicit := explicitRecipients event
  let others := fun ids : List String => ids.filter (· ≠ sender)
  if explicit = [] ∧ messageType = "SessionStart" then
    others (strings ((asArray (coalesce (field decoded "participants") (field decoded "participantIds"))).getD []))
  else if explicit = [] ∧ messageType = "Proposal" then others (next.participants.map (·.participantId))
  else explicit

/-- `next.run` after the payload of a `SessionStart`. -/
def suspendLimit (run : RunSummaryProjection N) (decoded : Option (Json N)) : RunSummaryProjection N :=
  let maxSuspendMs : N := toNumber (coalesce (field decoded "maxSuspendMs") (field decoded "max_suspend_ms"))
  if JsNumber.isFinite maxSuspendMs && JsNumber.positive maxSuspendMs then
    { run with maxSuspendMs := some maxSuspendMs }
  else run

/-- `next.run.maxSuspendMs = maxSuspendMs` -/
def limitSuspend (next : RunStateProjection N) (decoded : Option (Json N)) : RunStateProjection N :=
  { next with run := suspendLimit next.run decoded }

/-- `upsertEdge` for each of a list of edges (source, target, kind). -/
def upsertEdges (next : RunStateProjection N) (edges : List (String × String × String)) (ts : String) :
    RunStateProjection N :=
  edges.foldl (fun next edge => upsertEdge next edge.1 edge.2.1 edge.2.2 ts) next

/-- The nodes and edges that show the canonical flow of a session. -/
def lifecycleGraph (next : RunStateProjection N) (sender messageType : String) (recipients : List String)
    (decoded : Option (Json N)) (ts : String) : RunStateProjection N :=
  let next := upsertNode next ⟨"__start", "start", "completed"⟩
  if messageType = "SessionStart" then
    let next := upsertEdge (limitSuspend next decoded) "__start" sender "session.bound" ts
    upsertEdges next (recipients.map fun r => (sender, r, "fanout")) ts
  else if messageType = "Proposal" then
    let next := upsertNode next ⟨"__proposal", "proposal", "completed"⟩
    let next := upsertEdge next sender "__proposal" "proposes" ts
    upsertEdges next (recipients.map fun r => ("__proposal", r, "review")) ts
  else if messageType ∈ ["Vote", "Evaluation", "Objection"] then
    let next := upsertNode next ⟨"__decision", "decision", "active"⟩
    upsertEdge next sender "__decision" (lowerCase messageType) ts
  else if messageType = "Commitment" then
    let next := upsertNode next ⟨"__decision", "decision", "completed"⟩
    let next := upsertNode next ⟨"__outcome", "output", "completed"⟩
    upsertEdge next "__decision" "__outcome" "commits" ts
  else next

omit [JsNumber N] in
/-- `event.data.decodedPayload ?? event.data.payload ?? {}` -/
def decodedPayload (event : CanonicalEvent N) : Option (Json N) :=
  coalesce (coalesce (event.datum "decodedPayload") (event.datum "payload")) (some (.obj []))

/-- `case 'message.received'` -/
def messageReceived (next : RunStateProjection N) (event : CanonicalEvent N) : RunStateProjection N :=
  let sender := messageSender event
  let messageType := stringOr (event.datum "messageType") ""
  let label := if messageType ≠ "" then messageType else event.type.name
  let decoded := decodedPayload event
  let next := touchParticipant next sender event.ts .active (some label)
  let recipients := inferRecipients next event sender messageType decoded
  let next := touchRecipients next recipients event.ts
  let next := lifecycleGraph next sender messageType recipients decoded event.ts
  let direct := recipients.filter fun r => sender ≠ "" && r ≠ ""
  sliceEdges 300 (upsertEdges next (direct.map fun r => (sender, r, label)) event.ts)

/-- The entry of a `signal.emitted` event. -/
def signalEntry (event : CanonicalEvent N) : SignalEntry N :=
  let decodedPayload := event.datum "decodedPayload"
  { id := (event.subject.map (·.id)).getD event.id
    name := stringOr (coalesce (field decodedPayload "signalType") (event.datum "messageType")) "Signal"
    severity := field decodedPayload "severity"
    sourceParticipantId := defined (event.datum "sender")
    ts := event.ts
    confidence := safeOptionalNumber (field decodedPayload "confidence")
    payload := decodedPayload
    senderAuthenticated := asBool (event.datum "senderAuthenticated") }

/-- `case 'signal.emitted'` -/
def signalEmitted (next : RunStateProjection N) (event : CanonicalEvent N) : RunStateProjection N :=
  { next with signals := ⟨sliceLast 200 (next.signals.signals ++ [signalEntry event])⟩ }

/-- `case 'signal.acknowledged'` -/
def signalAcknowledged (next : RunStateProjection N) (event : CanonicalEvent N) : RunStateProjection N :=
  let ackPayload := event.datum "decodedPayload"
  let signalId := coalesce (field ackPayload "signalId") (field ackPayload "signal_id")
  let targetSignalId := stringOr (coalesce signalId event.subjectId) ""
  let acknowledger := defined (event.datum "sender")
  let acknowledge := fun signal : SignalEntry N =>
    { signal with
      acknowledgedAt := some event.ts
      acknowledgedBy := if truthy acknowledger then acknowledger else signal.acknowledgedBy }
  let signals :=
    if targetSignalId = "" then next.signals.signals
    else modifyFirst (·.id = targetSignalId) acknowledge next.signals.signals
  { next with signals := ⟨signals⟩ }

omit [JsNumber N] in
/-- `p.vote === 'allow' || p.vote === 'deny'` -/
def voteContributions (ps : List (DecisionProposalContribution N)) : List (DecisionProposalContribution N) :=
  ps.filter (·.vote.isSome)

/-- The share of `allow` among the votes, when there is a vote. -/
def approveRatio (ps : List (DecisionProposalContribution N)) : Option N :=
  let votes := voteContributions ps
  let approveCount := (votes.filter (·.vote = some .allow)).length
  if votes.length > 0 then some (JsNumber.div (JsNumber.ofNat approveCount) (JsNumber.ofNat votes.length)) else none

/-- The contribution of a `proposal.created` or `proposal.updated` event. -/
def contribution (event : CanonicalEvent N) : DecisionProposalContribution N :=
  let proposalPayload := event.datum "decodedPayload"
  let messageType := stringOr (event.datum "messageType") ""
  let explicitConfidence := safeOptionalNumber (field proposalPayload "confidence")
  { participantId := stringOr (event.datum "sender") ""
    action := inferContributionAction messageType proposalPayload
    confidence := explicitConfidence.or (if messageType = "Vote" then some (JsNumber.ofNat 1) else none)
    reasons := extractReasons proposalPayload
    ts := event.ts
    vote := inferContributionVote messageType proposalPayload
    messageType := if messageType ≠ "" then some messageType else none
    implicit := if isImplicitAccept proposalPayload (event.datum "messageId") then some true else none }

/-- `String(proposalPayload?.proposalId ?? proposalPayload?.requestId ?? event.subject?.id ?? '')` -/
def eventProposalId (event : CanonicalEvent N) : String :=
  let proposalPayload := event.datum "decodedPayload"
  let id := coalesce (field proposalPayload "proposalId") (field proposalPayload "requestId")
  stringOr (coalesce id event.subjectId) ""

/-- `next.decision` after `proposal.created` and `proposal.updated`. -/
def proposedDecision (decision : DecisionProjection N) (event : CanonicalEvent N) : DecisionProjection N :=
  let proposalPayload := event.datum "decodedPayload"
  let current := decision.current
  let proposalId := eventProposalId event
  let allContributions := (current.bind (·.proposals)).getD [] ++ [contribution event]
  let proposals := some (sliceLast 50 allContributions)
  let fallback := (safeOptionalNumber (field proposalPayload "confidence")).or (current.bind (·.confidence))
  let reason := coalesce (coalesce (field proposalPayload "reason") (field proposalPayload "summary"))
    (field proposalPayload "rationale")
  let base := current.getD { finalized := false }
  -- A committed decision is terminal: a late contribution is added, the decision stays.
  if base.finalized then ⟨some { base with proposals }⟩
  else
    ⟨some
      { base with
        action := if proposalId ≠ "" then proposalId else stringOr event.subjectId "proposal"
        confidence := (approveRatio allContributions).or fallback
        reasons := some ([stringOr reason event.type.name].filter (· ≠ ""))
        finalized := false
        proposalId := some proposalId
        proposals }⟩

/-- `case 'proposal.created'` and `case 'proposal.updated'` -/
def proposal (next : RunStateProjection N) (event : CanonicalEvent N) : RunStateProjection N :=
  let proposalId := eventProposalId event
  let next := { next with decision := proposedDecision next.decision event }
  match (contribution event).vote with
  | some vote => if proposalId ≠ "" then bumpVoteTally next proposalId vote else next
  | none => next

/-- `String(payload?.action ?? 'resolved')` -/
def finalAction (event : CanonicalEvent N) : String :=
  stringOr (field (event.datum "decodedPayload") "action") "resolved"

/-- `outcomePositive` of a `decision.finalized` event. -/
def finalOutcome (event : CanonicalEvent N) : Option Bool :=
  let payload := event.datum "decodedPayload"
  let explicitOutcome := coalesce (field payload "outcomePositive") (field payload "outcome_positive")
  match defined explicitOutcome with
  | some v => some (truthy (some v))
  | none => inferOutcomePositiveFromAction (finalAction event)

/-- `next.decision` after `decision.finalized`. -/
def finalizedDecision (decision : DecisionProjection N) (event : CanonicalEvent N) : DecisionProjection N :=
  let payload := event.datum "decodedPayload"
  let current := decision.current
  let computedAggregate := approveRatio ((current.bind (·.proposals)).getD [])
  let confidence := (safeOptionalNumber (field payload "confidence")).or computedAggregate
  let base := current.getD { finalized := false }
  ⟨some
    { base with
      action := finalAction event
      confidence := confidence.or (current.bind (·.confidence))
      reasons := some [stringOr (field payload "reason") "Commitment observed"]
      finalized := true
      proposalId := some (stringOr (field payload "commitmentId") ((current.bind (·.proposalId)).getD ""))
      outcomePositive := some (finalOutcome event)
      resolvedAt := some event.ts
      resolvedBy := defined (event.datum "sender")
      supersedes := (extractSupersedes (field payload "supersedes")).or base.supersedes }⟩

/-- `case 'decision.finalized'` -/
def decisionFinalized (next : RunStateProjection N) (event : CanonicalEvent N) : RunStateProjection N :=
  let quorumStatus :=
    if next.policy.quorumStatus = none ∨ next.policy.quorumStatus = some .pending then
      some (if finalOutcome event = some false then .failed else .reached)
    else next.policy.quorumStatus
  { next with
    decision := finalizedDecision next.decision event
    run := { next.run with status := RunStatus.completed.json }
    policy :=
      { next.policy with
        outcomePositive := some (finalOutcome event)
        resolvedAt := next.policy.resolvedAt.or (some event.ts)
        quorumStatus } }

/-- `case 'progress.reported'` -/
def progressReported (next : RunStateProjection N) (event : CanonicalEvent N) : RunStateProjection N :=
  let progressPayload := event.datum "decodedPayload"
  let entry : ProgressEntry N :=
    { participantId := stringOr (event.datum "sender") ""
      percentage := safeOptionalNumber
        (coalesce (field progressPayload "percentage") (field progressPayload "progress"))
      message := some (stringOr (coalesce (field progressPayload "message") (field progressPayload "status")) "")
      ts := event.ts }
  { next with progress := ⟨sliceLast 100 (next.progress.entries ++ [entry])⟩ }

omit [JsNumber N] in
/-- `case 'artifact.created'` -/
def artifactCreated (next : RunStateProjection N) (event : CanonicalEvent N) : RunStateProjection N :=
  let artifactId := (event.subject.map (·.id)).getD event.id
  { next with
    trace := { next.trace with linkedArtifacts := (next.trace.linkedArtifacts ++ [artifactId]).eraseDups } }

/-- `case 'policy.resolved'` -/
def policyResolved (next : RunStateProjection N) (event : CanonicalEvent N) : RunStateProjection N :=
  let policyPayload := event.datum "decodedPayload"
  { next with
    policy :=
      { next.policy with
        policyVersion := stringOr (coalesce (field policyPayload "policyVersion") (event.datum "policyVersion")) ""
        policyDescription := some (stringOr (field policyPayload "description") "")
        resolvedAt := some event.ts } }

/-- `next.llm` after `llm.call.completed`: a call without a decoded payload is not counted. -/
def llmCall (llm : LlmProjection N) (event : CanonicalEvent N) : LlmProjection N :=
  let payload := event.datum "decodedPayload"
  if truthy payload then
    let prompt := (safeOptionalNumber (field payload "promptTokens")).getD (JsNumber.ofNat 0)
    let completion := (safeOptionalNumber (field payload "completionTokens")).getD (JsNumber.ofNat 0)
    let total := (safeOptionalNumber (field payload "totalTokens")).getD (JsNumber.add prompt completion)
    let entry : LlmCallEntry N :=
      { participantId := stringOr (event.datum "sender") ""
        model := field payload "model"
        promptTokens := prompt
        completionTokens := completion
        totalTokens := total
        latencyMs := safeOptionalNumber (field payload "latencyMs")
        ts := event.ts
        messageId := event.datum "messageId"
        artifactId := field payload "artifactId"
        estimatedCostUsd := safeOptionalNumber (field payload "estimatedCostUsd") }
    let cost : N :=
      match defined (field payload "estimatedCostUsd") with
      | some v =>
        let n : N := toNumber (some v)
        JsNumber.add llm.estimatedCostUsd (if JsNumber.truthy n then n else JsNumber.ofNat 0)
      | none => llm.estimatedCostUsd
    { calls := sliceLast 100 (llm.calls ++ [entry])
      callCount := llm.callCount + 1
      promptTokens := JsNumber.add llm.promptTokens prompt
      completionTokens := JsNumber.add llm.completionTokens completion
      totalTokens := JsNumber.add llm.totalTokens total
      estimatedCostUsd := cost }
  else llm

/-- `case 'llm.call.completed'` -/
def llmCallCompleted (next : RunStateProjection N) (event : CanonicalEvent N) : RunStateProjection N :=
  { next with llm := llmCall next.llm event }

/-- `case 'policy.commitment.evaluated'` -/
def policyCommitmentEvaluated (next : RunStateProjection N) (event : CanonicalEvent N) : RunStateProjection N :=
  let evalPayload := event.datum "decodedPayload"
  let decision := (defined (field evalPayload "decision")).getD (.str "allow")
  let evaluation : CommitmentEvaluation N :=
    { commitmentId := stringOr (coalesce (field evalPayload "commitmentId") event.subjectId) ""
      decision
      reasons := (defined (field evalPayload "reasons")).getD (.arr [])
      ts := event.ts }
  { next with
    policy :=
      { next.policy with
        commitmentEvaluations := sliceLast 50 (next.policy.commitmentEvaluations ++ [evaluation])
        quorumStatus := if decision.is "allow" then some .reached else next.policy.quorumStatus } }

/-- `switch (event.type)` -/
def dispatch (currentRunId : String) (next : RunStateProjection N) (event : CanonicalEvent N) :
    RunStateProjection N :=
  match event.type with
  | .runCreated => runCreated currentRunId next event
  | .runStarted => runStarted currentRunId next event
  | .runCompleted => runCompleted currentRunId next event
  | .runFailed => runUnsuccessful .failed currentRunId next event
  | .runCancelled => runUnsuccessful .cancelled currentRunId next event
  | .runSuspended | .runResumed => runPaused currentRunId next event
  | .sessionStreamGap => sessionStreamGap next
  | .sessionBound | .sessionStateChanged => sessionState next event
  | .participantSeen => participantSeen next event
  | .messageSent => messageSent next event
  | .messageSendFailed => messageSendFailed next
  | .messageReceived => messageReceived next event
  | .signalEmitted => signalEmitted next event
  | .signalAcknowledged => signalAcknowledged next event
  | .proposalCreated | .proposalUpdated => proposal next event
  | .decisionFinalized => decisionFinalized next event
  | .progressReported => progressReported next event
  | .artifactCreated => artifactCreated next event
  | .policyResolved => policyResolved next event
  | .llmCallCompleted => llmCallCompleted next event
  | .policyCommitmentEvaluated => policyCommitmentEvaluated next event
  | .sessionStreamOpened | .decisionProposed | .toolCalled | .toolCompleted | .policyDenied | .other _ => next

/-- One round of the loop of `applyEvents`. -/
def applyEvent (currentRunId : String) (next : RunStateProjection N) (event : CanonicalEvent N) :
    RunStateProjection N :=
  dispatch currentRunId (track next event) event

end Reducer

def applyEvents (current : RunStateProjection N) (events : List (CanonicalEvent N)) : RunStateProjection N :=
  events.foldl (Reducer.applyEvent current.run.runId) current

end MacpControlPlane

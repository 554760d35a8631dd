import MacpControlPlane.Projection.Sections

/-!
# What the reducer converts (`projection/projection.service.ts`)

The cases of the `switch` hand values of an event to `String`, `Number` and `toString`.  One that does not convert
throws out of `applyEvents`.  What is converted depends on the event, and on the projection so far only in whether its
decision is finalized.
-/

namespace MacpControlPlane

open Js

variable {N : Type} [JsNumber N]

namespace Reducer

/-- What `inferContributionAction` and `inferContributionVote` convert. -/
def contributionConversions (payload : Option (Json N)) : List (Option (Json N)) :=
  let vote := coalesce (field payload "vote") (field payload "recommendation")
  if truthy vote then [vote]
  else [vote, coalesce (coalesce (field payload "action") (field payload "option")) (field payload "revisedAction")]

/-- What `case 'proposal.created'` and `case 'proposal.updated'` convert. -/
def proposalConversions (finalized : Bool) (event : CanonicalEvent N) : List (Option (Json N)) :=
  let proposalPayload := event.datum "decodedPayload"
  let id := coalesce (field proposalPayload "proposalId") (field proposalPayload "requestId")
  let reason := coalesce (coalesce (field proposalPayload "reason") (field proposalPayload "summary"))
    (field proposalPayload "rationale")
  [event.datum "messageType", event.datum "sender", field proposalPayload "confidence", coalesce id event.subjectId] ++
    contributionConversions proposalPayload ++ if finalized then [] else [reason]

omit [JsNumber N] in
/-- What `extractSupersedes` converts. -/
def supersedesConversions (raw : Option (Json N)) : List (Option (Json N)) :=
  [coalesce (field raw "sessionId") (field raw "session_id"),
    coalesce (field raw "commitmentHash") (field raw "commitment_hash")]

/-- What the `switch` converts of an event, when the decision is `finalized` before it. -/
def conversions (finalized : Bool) (event : CanonicalEvent N) : List (Option (Json N)) :=
  let payload := event.datum "decodedPayload"
  match event.type with
  | .participantSeen => [coalesce (event.datum "participantId") event.subjectId]
  | .messageSent => [coalesce (event.datum "sender") (event.datum "from"), event.datum "messageType"]
  | .messageReceived =>
    let decoded := decodedPayload event
    [coalesce (event.datum "sender") (event.datum "from"), event.datum "messageType"] ++
      if stringOr (event.datum "messageType") "" = "SessionStart" then
        [coalesce (field decoded "maxSuspendMs") (field decoded "max_suspend_ms")]
      else []
  | .signalEmitted =>
    [coalesce (field payload "signalType") (event.datum "messageType"), field payload "confidence"]
  | .signalAcknowledged => [coalesce (coalesce (field payload "signalId") (field payload "signal_id")) event.subjectId]
  | .proposalCreated | .proposalUpdated => proposalConversions finalized event
  | .decisionFinalized =>
    [field payload "action", field payload "confidence", field payload "reason", field payload "commitmentId"] ++
      supersedesConversions (field payload "supersedes")
  | .progressReported =>
    [event.datum "sender", coalesce (field payload "percentage") (field payload "progress"),
      coalesce (field payload "message") (field payload "status")]
  | .policyResolved =>
    [coalesce (field payload "policyVersion") (event.datum "policyVersion"), field payload "description"]
  | .llmCallCompleted =>
    if truthy payload then
      [field payload "promptTokens", field payload "completionTokens", field payload "totalTokens",
        event.datum "sender", field payload "latencyMs", field payload "estimatedCostUsd"]
    else []
  | .policyCommitmentEvaluated => [coalesce (field payload "commitmentId") event.subjectId]
  | _ => []

omit [JsNumber N] in
/-- `next.decision.current?.finalized === true` -/
def isFinalized (next : RunStateProjection N) : Bool := next.decision.current.any (·.finalized)

/-- The loop of `applyEvents` does not throw. -/
def applies (currentRunId : String) : RunStateProjection N → List (CanonicalEvent N) → Bool
  | _, [] => true
  | next, event :: events =>
    (conversions (isFinalized next) event).all converts &&
      applies currentRunId (applyEvent currentRunId next event) events

/-! ### Before and after a commitment -/

private theorem isFinalized_applyEvent {currentRunId : String} {next : RunStateProjection N} {event : CanonicalEvent N}
    (h : event.type ≠ .decisionFinalized) : isFinalized (applyEvent currentRunId next event) = isFinalized next := by
  unfold isFinalized
  rw [applyEvent_decision]
  unfold decisionStep
  cases htype : event.type with
  | runCreated =>
    unfold promptedDecision
    cases asString (event.datum "decisionPrompt") with
    | none => rfl
    | some prompt => cases next.decision.current <;> rfl
  | proposalCreated | proposalUpdated =>
    unfold proposedDecision
    cases hcurrent : next.decision.current with
    | none => simp
    | some current => cases hfinalized : current.finalized <;> simp [hfinalized]
  | decisionFinalized => exact absurd htype h
  | _ => rfl

/-- Only of a proposal it matters whether the decision is finalized. -/
theorem conversions_eq {event : CanonicalEvent N}
    (h : event.type ≠ .proposalCreated ∧ event.type ≠ .proposalUpdated) (finalized finalized' : Bool) :
    conversions finalized event = conversions finalized' event := by
  unfold conversions
  cases htype : event.type with
  | proposalCreated => exact absurd htype h.1
  | proposalUpdated => exact absurd htype h.2
  | _ => rfl

/-- Events without a commitment, or without a proposal, convert what they convert at the start. -/
theorem applies_iff {currentRunId : String} {next : RunStateProjection N} {events : List (CanonicalEvent N)}
    (h : (∀ e ∈ events, e.type ≠ .decisionFinalized) ∨
      ∀ e ∈ events, e.type ≠ .proposalCreated ∧ e.type ≠ .proposalUpdated) :
    applies currentRunId next events = true ↔
      ∀ e ∈ events, (conversions (isFinalized next) e).all converts = true := by
  induction events generalizing next with
  | nil => simp [applies]
  | cons e events ih =>
    have htail := h.imp (fun h => (List.forall_mem_cons.1 h).2) fun h => (List.forall_mem_cons.1 h).2
    rw [applies, Bool.and_eq_true, ih htail, List.forall_mem_cons]
    refine and_congr_right' (forall₂_congr fun e' he' => ?_)
    rcases h with h | h
    · rw [isFinalized_applyEvent (List.forall_mem_cons.1 h).1]
    · rw [conversions_eq (h e' (List.mem_cons_of_mem e he')) _ (isFinalized next)]

end Reducer

end MacpControlPlane

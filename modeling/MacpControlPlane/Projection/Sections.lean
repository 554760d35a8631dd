import Mathlib.Data.List.Induction
import Mathlib.Tactic.Tauto
import MacpControlPlane.Projection.Reducer

/-!
# The sections of a projection under the reducer

The cases of the `switch` read and write only some sections.  The timeline, the outbound counters and the llm calls
are read by no case but the ones that count them (`rebook`), and the run summary after an event depends on the run
summary before it alone (`runStep`).  So these sections can be folded on their own.
-/

namespace MacpControlPlane

open Js

/-! ### The bookkeeping sections -/

section Rebook

variable {N : Type} (p : RunStateProjection N) (t : TimelineProjection) (o : OutboundMessageSummary)
  (l : LlmProjection N)

/-- The projection with another timeline, other outbound counters and other llm calls. -/
def RunStateProjection.rebook : RunStateProjection N :=
  { p with timeline := t, outboundMessages := o, llm := l }

@[simp] theorem rebook_self : p.rebook p.timeline p.outboundMessages p.llm = p := rfl

private theorem touchParticipant_rebook (id ts : String) (status : ParticipantStatus) (summary : Option String) :
    touchParticipant (p.rebook t o l) id ts status summary =
      (touchParticipant p id ts status summary).rebook t o l := by
  unfold touchParticipant
  split <;> rfl

theorem upsertNode_rebook (node : GraphNode) :
    upsertNode (p.rebook t o l) node = (upsertNode p node).rebook t o l := rfl

theorem upsertEdge_rebook (source target kind ts : String) :
    upsertEdge (p.rebook t o l) source target kind ts = (upsertEdge p source target kind ts).rebook t o l := rfl

namespace Reducer

private theorem touchRecipients_rebook (rs : List String) (ts : String) :
    touchRecipients (p.rebook t o l) rs ts = (touchRecipients p rs ts).rebook t o l :=
  List.foldl_hom (fun p => RunStateProjection.rebook p t o l) fun p r => touchParticipant_rebook p t o l r ts _ _

private theorem upsertEdges_rebook (edges : List (String × String × String)) (ts : String) :
    upsertEdges (p.rebook t o l) edges ts = (upsertEdges p edges ts).rebook t o l :=
  List.foldl_hom (fun p => RunStateProjection.rebook p t o l) fun _ _ => rfl

private theorem sessionSweep_rebook (state : Option String) :
    sessionSweep state (p.rebook t o l) = (sessionSweep state p).rebook t o l := by
  unfold sessionSweep
  split
  · rfl
  · split
    · rfl
    · split <;> rfl

private theorem sessionState_rebook [JsNumber N] (e : CanonicalEvent N) :
    sessionState (p.rebook t o l) e = (sessionState p e).rebook t o l :=
  sessionSweep_rebook (sessionUpdate p e) t o l _

private theorem participantSeen_rebook [JsNumber N] (e : CanonicalEvent N) :
    participantSeen (p.rebook t o l) e = (participantSeen p e).rebook t o l := by
  dsimp only [participantSeen]
  rw [apply_ite fun q => RunStateProjection.rebook q t o l]
  rfl

private theorem lifecycleGraph_rebook [JsNumber N] (sender messageType : String) (rs : List String)
    (decoded : Option (Json N))
    (ts : String) :
    lifecycleGraph (p.rebook t o l) sender messageType rs decoded ts =
      (lifecycleGraph p sender messageType rs decoded ts).rebook t o l := by
  have hlimit : ∀ q : RunStateProjection N, limitSuspend (q.rebook t o l) decoded =
      (limitSuspend q decoded).rebook t o l :=
    fun _ => rfl
  unfold lifecycleGraph
  simp only [upsertNode_rebook, hlimit, upsertEdge_rebook, upsertEdges_rebook]
  split
  · rfl
  · split
    · rfl
    · split
      · rfl
      · split <;> rfl

private theorem messageReceived_rebook [JsNumber N] (e : CanonicalEvent N) :
    messageReceived (p.rebook t o l) e = (messageReceived p e).rebook t o l := by
  have hinfer : ∀ (q : RunStateProjection N) (sender messageType : String) (decoded : Option (Json N)),
      inferRecipients (q.rebook t o l) e sender messageType decoded =
        inferRecipients q e sender messageType decoded :=
    fun _ _ _ _ => rfl
  unfold messageReceived
  simp only [touchParticipant_rebook, hinfer, touchRecipients_rebook, lifecycleGraph_rebook, upsertEdges_rebook]
  rfl

private theorem proposal_rebook [JsNumber N] (e : CanonicalEvent N) :
    proposal (p.rebook t o l) e = (proposal p e).rebook t o l := by
  have hbump : ∀ (q : RunStateProjection N) (id : String) (vote : Vote),
      bumpVoteTally (q.rebook t o l) id vote = (bumpVoteTally q id vote).rebook t o l := fun _ _ _ => rfl
  unfold proposal
  cases (contribution e).vote with
  | none => rfl
  | some vote =>
    dsimp only
    split
    · exact hbump { p with decision := proposedDecision p.decision e } _ vote
    · rfl

/-- `message.sent` counts one accepted message, and leaves the other bookkeeping alone. -/
theorem messageSent_rebook [JsNumber N] (e : CanonicalEvent N) :
    messageSent (p.rebook t o l) e =
      (messageSent p e).rebook t { o with total := o.total + 1, accepted := o.accepted + 1 } l := by
  unfold messageSent
  simp only [touchParticipant_rebook, touchRecipients_rebook]
  rfl

/-- `next.outboundMessages` after an event. -/
def outbound (o : OutboundMessageSummary) (e : CanonicalEvent N) : OutboundMessageSummary :=
  match e.type with
  | .messageSent => { o with total := o.total + 1, accepted := o.accepted + 1 }
  | .messageSendFailed => { o with total := o.total + 1, rejected := o.rejected + 1 }
  | _ => o

/-- `next.llm` after an event. -/
def llm [JsNumber N] (l : LlmProjection N) (e : CanonicalEvent N) : LlmProjection N :=
  match e.type with
  | .llmCallCompleted => llmCall l e
  | _ => l

private theorem dispatch_rebook [JsNumber N] (r : String) (e : CanonicalEvent N) :
    dispatch r (p.rebook t o l) e = (dispatch r p e).rebook t (outbound o e) (llm l e) := by
  unfold dispatch outbound llm
  cases e.type with
  | sessionBound => exact sessionState_rebook p t o l e
  | sessionStateChanged => exact sessionState_rebook p t o l e
  | participantSeen => exact participantSeen_rebook p t o l e
  | messageSent => exact messageSent_rebook p t o l e
  | messageReceived => exact messageReceived_rebook p t o l e
  | proposalCreated => exact proposal_rebook p t o l e
  | proposalUpdated => exact proposal_rebook p t o l e
  | _ => rfl

/-- The bookkeeping sections are folded on their own, and no other section reads them. -/
theorem applyEvent_rebook [JsNumber N] (r : String) (e : CanonicalEvent N) :
    applyEvent r (p.rebook t o l) e = (applyEvent r p e).rebook (timeline t e) (outbound o e) (llm l e) := by
  unfold applyEvent
  have htrack : track (p.rebook t o l) e = (track p e).rebook (timeline t e) o l := rfl
  rw [htrack, dispatch_rebook]

private theorem foldl_applyEvent_rebook [JsNumber N] (r : String) (es : List (CanonicalEvent N)) :
    es.foldl (applyEvent r) (p.rebook t o l) =
      (es.foldl (applyEvent r) p).rebook (es.foldl timeline t) (es.foldl outbound o) (es.foldl llm l) := by
  induction es generalizing p t o l with
  | nil => rfl
  | cons e es ih =>
    simp only [List.foldl_cons]
    rw [applyEvent_rebook, ih]

end Reducer

end Rebook

/-! ### The participants and the graph -/

section Graph

variable {N : Type} {p q u : RunStateProjection N}

/-- `q` is `p` with other participants and another graph. -/
def OnlyGraph (p q : RunStateProjection N) : Prop :=
  ∃ participants graph, q = { p with participants, graph }

private theorem OnlyGraph.refl (p : RunStateProjection N) : OnlyGraph p p := ⟨p.participants, p.graph, rfl⟩

private theorem OnlyGraph.trans (h : OnlyGraph p q) (h' : OnlyGraph q u) : OnlyGraph p u := by
  obtain ⟨ps, g, rfl⟩ := h
  obtain ⟨ps', g', rfl⟩ := h'
  exact ⟨ps', g', rfl⟩

private theorem OnlyGraph.foldl {α : Type} {f : RunStateProjection N → α → RunStateProjection N}
    (h : ∀ p a, OnlyGraph p (f p a)) (p : RunStateProjection N) (as : List α) : OnlyGraph p (as.foldl f p) := by
  induction as generalizing p with
  | nil => exact OnlyGraph.refl p
  | cons a as ih => exact (h p a).trans (ih (f p a))

theorem OnlyGraph.run (h : OnlyGraph p q) : q.run = p.run := by
  obtain ⟨_, _, rfl⟩ := h; rfl

private theorem OnlyGraph.trace (h : OnlyGraph p q) : q.trace = p.trace := by
  obtain ⟨_, _, rfl⟩ := h; rfl

private theorem OnlyGraph.decision (h : OnlyGraph p q) : q.decision = p.decision := by
  obtain ⟨_, _, rfl⟩ := h; rfl

private theorem OnlyGraph.policy (h : OnlyGraph p q) : q.policy = p.policy := by
  obtain ⟨_, _, rfl⟩ := h; rfl

theorem OnlyGraph.signals (h : OnlyGraph p q) : q.signals = p.signals := by
  obtain ⟨_, _, rfl⟩ := h; rfl

theorem OnlyGraph.progress (h : OnlyGraph p q) : q.progress = p.progress := by
  obtain ⟨_, _, rfl⟩ := h; rfl

theorem touchParticipant_onlyGraph (p : RunStateProjection N) (id ts : String) (status : ParticipantStatus)
    (summary : Option String) : OnlyGraph p (touchParticipant p id ts status summary) := by
  unfold touchParticipant
  split
  · exact OnlyGraph.refl p
  · exact ⟨_, _, rfl⟩

private theorem sweepTerminal_onlyGraph (p : RunStateProjection N) (outcome : RunStatus) :
    OnlyGraph p (sweepTerminal p outcome) := ⟨_, _, rfl⟩

private theorem upsertNode_onlyGraph (p : RunStateProjection N) (node : GraphNode) : OnlyGraph p (upsertNode p node) :=
  ⟨_, _, rfl⟩

private theorem upsertEdge_onlyGraph (p : RunStateProjection N) (source target kind ts : String) :
    OnlyGraph p (upsertEdge p source target kind ts) := ⟨_, _, rfl⟩

namespace Reducer

private theorem touchRecipients_onlyGraph (p : RunStateProjection N) (rs : List String) (ts : String) :
    OnlyGraph p (touchRecipients p rs ts) :=
  OnlyGraph.foldl (fun p r => touchParticipant_onlyGraph p r ts _ _) p rs

private theorem upsertEdges_onlyGraph (p : RunStateProjection N) (edges : List (String × String × String))
    (ts : String) : OnlyGraph p (upsertEdges p edges ts) :=
  OnlyGraph.foldl (fun p _ => upsertEdge_onlyGraph p _ _ _ ts) p edges

theorem sessionSweep_onlyGraph (state : Option String) (p : RunStateProjection N) :
    OnlyGraph p (sessionSweep state p) := by
  unfold sessionSweep
  split
  · exact sweepTerminal_onlyGraph p _
  · split
    · exact sweepTerminal_onlyGraph p _
    · split
      · exact sweepTerminal_onlyGraph p _
      · exact OnlyGraph.refl p

theorem participantSeen_onlyGraph [JsNumber N] (p : RunStateProjection N) (e : CanonicalEvent N) :
    OnlyGraph p (participantSeen p e) := by
  dsimp only [participantSeen]
  split
  · exact OnlyGraph.refl p
  · exact ⟨_, _, rfl⟩

/-- `message.received` changes the participants, the graph and, for a `SessionStart`, the suspend limit. -/
theorem messageReceived_onlyGraph [JsNumber N] (p : RunStateProjection N) (e : CanonicalEvent N) :
    OnlyGraph (if stringOr (e.datum "messageType") "" = "SessionStart" then limitSuspend p (decodedPayload e) else p)
      (messageReceived p e) := by
  have hlimit : ∀ q, OnlyGraph p q →
    OnlyGraph (limitSuspend p (decodedPayload e)) (limitSuspend q (decodedPayload e)) := by
    rintro q ⟨ps, g, rfl⟩
    exact ⟨ps, g, rfl⟩
  have hlifecycle : ∀ (q : RunStateProjection N) (sender : String) (rs : List String), OnlyGraph p q →
      OnlyGraph
        (if stringOr (e.datum "messageType") "" = "SessionStart" then limitSuspend p (decodedPayload e) else p)
        (lifecycleGraph q sender (stringOr (e.datum "messageType") "") rs (decodedPayload e) e.ts) := by
    intro q sender rs hq
    have hstart := hq.trans (upsertNode_onlyGraph q ⟨"__start", "start", "completed"⟩)
    unfold lifecycleGraph
    split
    · exact ((hlimit _ hstart).trans (upsertEdge_onlyGraph _ _ _ _ _)).trans (upsertEdges_onlyGraph _ _ _)
    · split
      · exact ((hstart.trans (upsertNode_onlyGraph _ _)).trans (upsertEdge_onlyGraph _ _ _ _ _)).trans
          (upsertEdges_onlyGraph _ _ _)
      · split
        · exact (hstart.trans (upsertNode_onlyGraph _ _)).trans (upsertEdge_onlyGraph _ _ _ _ _)
        · split
          · exact ((hstart.trans (upsertNode_onlyGraph _ _)).trans (upsertNode_onlyGraph _ _)).trans
              (upsertEdge_onlyGraph _ _ _ _ _)
          · exact hstart
  have htouch := touchParticipant_onlyGraph p (messageSender e) e.ts .active
  unfold messageReceived
  exact ((hlifecycle _ _ _ ((htouch _).trans (touchRecipients_onlyGraph _ _ _))).trans
    (upsertEdges_onlyGraph _ _ _)).trans ⟨_, _, rfl⟩

/-- `message.sent` changes the participants, the graph and the counters. -/
theorem messageSent_onlyGraph [JsNumber N] (p : RunStateProjection N) (e : CanonicalEvent N) :
    ∃ q o, OnlyGraph p q ∧ messageSent p e = { q with outboundMessages := o } := by
  have htouch := touchParticipant_onlyGraph p (messageSender e) e.ts .active
    (some (stringOr (e.datum "messageType") e.type.name))
  have hboth := htouch.trans (touchRecipients_onlyGraph _ (explicitRecipients e) e.ts)
  exact ⟨_, _, hboth.trans (q := _) ⟨_, _, rfl⟩, rfl⟩

/-- `proposal.created` and `proposal.updated` change the decision and the policy. -/
theorem proposal_eq [JsNumber N] (p : RunStateProjection N) (e : CanonicalEvent N) :
    ∃ policy, proposal p e = { p with decision := proposedDecision p.decision e, policy } := by
  unfold proposal
  cases (contribution e).vote with
  | none => exact ⟨p.policy, rfl⟩
  | some vote =>
    dsimp only
    split
    · exact ⟨_, rfl⟩
    · exact ⟨p.policy, rfl⟩

end Reducer

end Graph

/-! ### The sections that are folded on their own -/

section Steps

variable {N : Type} [JsNumber N]

namespace Reducer

/-- The run summary after an event. -/
def runStep (currentRunId : String) (run : RunSummaryProjection N) (event : CanonicalEvent N) :
    RunSummaryProjection N :=
  match event.type with
  | .runCreated | .runStarted | .runCompleted | .runFailed | .runCancelled => lifecycleSummary currentRunId run event
  | .runSuspended | .runResumed => pausedSummary currentRunId run event
  | .sessionStreamGap => { run with historyGap := some true }
  | .sessionBound | .sessionStateChanged => sessionSummary run event
  | .messageReceived =>
    if stringOr (event.datum "messageType") "" = "SessionStart" then suspendLimit run (decodedPayload event) else run
  | .decisionFinalized => { run with status := RunStatus.completed.json }
  | _ => run

/-- The decision after an event. -/
def decisionStep (decision : DecisionProjection N) (event : CanonicalEvent N) : DecisionProjection N :=
  match event.type with
  | .runCreated => promptedDecision decision event
  | .proposalCreated | .proposalUpdated => proposedDecision decision event
  | .decisionFinalized => finalizedDecision decision event
  | _ => decision

omit [JsNumber N] in
/-- The trace after the `switch`: only `artifact.created` changes it. -/
def linkArtifact (trace : TraceSummary) (event : CanonicalEvent N) : TraceSummary :=
  match event.type with
  | .artifactCreated =>
    { trace with
      linkedArtifacts := (trace.linkedArtifacts ++ [(event.subject.map (·.id)).getD event.id]).eraseDups }
  | _ => trace

/-- Three sections after the `switch`, each from itself before it. -/
structure Steps (r : String) (e : CanonicalEvent N) (p q : RunStateProjection N) : Prop where
  run : q.run = runStep r p.run e
  decision : q.decision = decisionStep p.decision e
  trace : q.trace = linkArtifact p.trace e

private theorem steps_messageReceived {r : String} {p : RunStateProjection N} {e : CanonicalEvent N}
    (he : e.type = .messageReceived) : Steps r e p (messageReceived p e) := by
  have h := messageReceived_onlyGraph p e
  have hrun := h.run
  have hdecision := h.decision
  have htrace := h.trace
  rw [apply_ite RunStateProjection.run] at hrun
  rw [apply_ite RunStateProjection.decision] at hdecision
  rw [apply_ite RunStateProjection.trace] at htrace
  refine ⟨?_, ?_, ?_⟩
  · rw [hrun, runStep, he]; rfl
  · rw [hdecision, decisionStep, he]; exact ite_self _
  · rw [htrace, linkArtifact, he]; exact ite_self _

private theorem steps_messageSent {r : String} {p : RunStateProjection N} {e : CanonicalEvent N}
    (he : e.type = .messageSent) : Steps r e p (messageSent p e) := by
  obtain ⟨q, o, hq, h⟩ := messageSent_onlyGraph p e
  rw [h]
  refine ⟨?_, ?_, ?_⟩
  · rw [runStep, he]; exact hq.run
  · rw [decisionStep, he]; exact hq.decision
  · rw [linkArtifact, he]; exact hq.trace

private theorem steps_proposal {r : String} {p : RunStateProjection N} {e : CanonicalEvent N}
    (he : e.type = .proposalCreated ∨ e.type = .proposalUpdated) : Steps r e p (proposal p e) := by
  obtain ⟨c, h⟩ := proposal_eq p e
  rw [h]
  refine ⟨?_, ?_, ?_⟩
  · rcases he with he | he <;> rw [runStep, he]
  · rcases he with he | he <;> rw [decisionStep, he]
  · rcases he with he | he <;> rw [linkArtifact, he]

/-- An event that changes at most the participants and the graph. -/
theorem steps_of_onlyGraph {r : String} {p p' q : RunStateProjection N} {e : CanonicalEvent N} (h : OnlyGraph p' q)
    (hp : Steps r e p p') : Steps r e p q :=
  ⟨h.run.trans hp.run, h.decision.trans hp.decision, h.trace.trans hp.trace⟩

private theorem dispatch_steps (r : String) (p : RunStateProjection N) (e : CanonicalEvent N) :
    Steps r e p (dispatch r p e) := by
  unfold dispatch
  cases he : e.type with
  | messageSent => exact steps_messageSent he
  | messageReceived => exact steps_messageReceived he
  | proposalCreated => exact steps_proposal (Or.inl he)
  | proposalUpdated => exact steps_proposal (Or.inr he)
  | sessionBound | sessionStateChanged =>
    refine steps_of_onlyGraph (sessionSweep_onlyGraph _ (sessionUpdate p e)) ⟨?_, ?_, ?_⟩
    · rw [runStep, he]; rfl
    · rw [decisionStep, he]; rfl
    · rw [linkArtifact, he]; rfl
  | participantSeen =>
    refine steps_of_onlyGraph (participantSeen_onlyGraph p e) ⟨?_, ?_, ?_⟩
    · rw [runStep, he]
    · rw [decisionStep, he]
    · rw [linkArtifact, he]
  | signalEmitted | progressReported | policyCommitmentEvaluated =>
    refine ⟨?_, ?_, ?_⟩
    · rw [runStep, he]; dsimp only [signalEmitted, progressReported, policyCommitmentEvaluated]
    · rw [decisionStep, he]; dsimp only [signalEmitted, progressReported, policyCommitmentEvaluated]
    · rw [linkArtifact, he]; dsimp only [signalEmitted, progressReported, policyCommitmentEvaluated]
  | _ =>
    refine ⟨?_, ?_, ?_⟩
    · rw [runStep, he]; try rfl
    · rw [decisionStep, he]; try rfl
    · rw [linkArtifact, he]; try rfl

/-- The policy after an event; of the other sections, only a vote reads one, the participants. -/
def policyStep (p : RunStateProjection N) (event : CanonicalEvent N) : PolicyProjection N :=
  match event.type with
  | .runFailed | .runCancelled => settleQuorum p.policy
  | .sessionBound | .sessionStateChanged => (sessionUpdate p event).policy
  | .proposalCreated | .proposalUpdated => (proposal p event).policy
  | .decisionFinalized => (decisionFinalized p event).policy
  | .policyResolved => (policyResolved p event).policy
  | .policyCommitmentEvaluated => (policyCommitmentEvaluated p event).policy
  | _ => p.policy

private theorem dispatch_policy (r : String) (p : RunStateProjection N) (e : CanonicalEvent N) :
    (dispatch r p e).policy = policyStep p e := by
  unfold dispatch policyStep
  cases he : e.type with
  | messageSent =>
    obtain ⟨q, o, hq, h⟩ := messageSent_onlyGraph p e
    rw [h]
    exact hq.policy
  | messageReceived =>
    refine (messageReceived_onlyGraph p e).policy.trans ?_
    rw [apply_ite RunStateProjection.policy]
    exact ite_self _
  | sessionBound | sessionStateChanged => exact (sessionSweep_onlyGraph _ (sessionUpdate p e)).policy
  | participantSeen => exact (participantSeen_onlyGraph p e).policy
  | signalEmitted | progressReported | policyCommitmentEvaluated => dsimp only [signalEmitted, progressReported]
  | _ => rfl

/-! ### One event, section by section -/

variable (r : String) (p : RunStateProjection N) (e : CanonicalEvent N)

theorem applyEvent_run : (applyEvent r p e).run = runStep r p.run e := (dispatch_steps r (track p e) e).run

theorem applyEvent_decision : (applyEvent r p e).decision = decisionStep p.decision e :=
  (dispatch_steps r (track p e) e).decision

private theorem applyEvent_trace : (applyEvent r p e).trace = linkArtifact (trace p.trace e) e :=
  (dispatch_steps r (track p e) e).trace

theorem applyEvent_policy : (applyEvent r p e).policy = policyStep (track p e) e := dispatch_policy r (track p e) e

theorem applyEvent_timeline : (applyEvent r p e).timeline = timeline p.timeline e := by
  have h := applyEvent_rebook p p.timeline p.outboundMessages p.llm r e
  rw [rebook_self] at h
  rw [h]; rfl

theorem applyEvent_outbound : (applyEvent r p e).outboundMessages = outbound p.outboundMessages e := by
  have h := applyEvent_rebook p p.timeline p.outboundMessages p.llm r e
  rw [rebook_self] at h
  rw [h]; rfl

theorem applyEvent_llm : (applyEvent r p e).llm = llm p.llm e := by
  have h := applyEvent_rebook p p.timeline p.outboundMessages p.llm r e
  rw [rebook_self] at h
  rw [h]; rfl

omit p in
/-- The events of a run keep its id. -/
theorem runStep_runId {run : RunSummaryProjection N} (hrun : run.runId = r) (he : e.runId = r) :
    (runStep r run e).runId = r := by
  have hid : (if r ≠ "" then r else e.runId) = r := by
    by_cases h : r = ""
    · rw [if_neg (not_not.2 h), he]
    · rw [if_pos h]
  unfold runStep
  split
  case h_11 =>
    split
    · unfold suspendLimit
      dsimp only
      split
      · exact hrun
      · exact hrun
    · exact hrun
  all_goals first | exact hid | exact hrun

end Reducer

/-! ### A log, section by section -/

open Reducer

variable (p : RunStateProjection N) (es : List (CanonicalEvent N))

theorem applyEvents_run : (applyEvents p es).run = es.foldl (runStep p.run.runId) p.run :=
  (List.foldl_hom RunStateProjection.run fun q e => (applyEvent_run p.run.runId q e).symm).symm

theorem applyEvents_decision : (applyEvents p es).decision = es.foldl decisionStep p.decision :=
  (List.foldl_hom RunStateProjection.decision fun q e => (applyEvent_decision p.run.runId q e).symm).symm

private theorem applyEvents_trace :
    (applyEvents p es).trace = es.foldl (fun tr e => linkArtifact (trace tr e) e) p.trace :=
  (List.foldl_hom RunStateProjection.trace fun q e => (applyEvent_trace p.run.runId q e).symm).symm

theorem applyEvents_timeline : (applyEvents p es).timeline = es.foldl timeline p.timeline :=
  (List.foldl_hom RunStateProjection.timeline fun q e => (applyEvent_timeline p.run.runId q e).symm).symm

theorem applyEvents_llm : (applyEvents p es).llm = es.foldl llm p.llm :=
  (List.foldl_hom RunStateProjection.llm fun q e => (applyEvent_llm p.run.runId q e).symm).symm

theorem applyEvents_rebook (t : TimelineProjection) (o : OutboundMessageSummary) (l : LlmProjection N) :
    applyEvents (p.rebook t o l) es =
      (applyEvents p es).rebook (es.foldl timeline t) (es.foldl outbound o) (es.foldl llm l) :=
  foldl_applyEvent_rebook p t o l p.run.runId es

variable {p es}

private theorem applyEvents_runId (h : ∀ e ∈ es, e.runId = p.run.runId) :
    (applyEvents p es).run.runId = p.run.runId := by
  rw [applyEvents_run]
  refine List.foldlRecOn es (runStep p.run.runId) (motive := fun run => run.runId = p.run.runId) rfl ?_
  intro run hrun e he
  exact runStep_runId _ e hrun (h e he)

/-- The reducer acts on logs: a log in two parts is its first part, and then its second. -/
theorem applyEvents_append {fs : List (CanonicalEvent N)} (h : ∀ e ∈ es, e.runId = p.run.runId) :
    applyEvents p (es ++ fs) = applyEvents (applyEvents p es) fs := by
  have hid := applyEvents_runId h
  unfold applyEvents at hid ⊢
  rw [List.foldl_append, hid]

omit [JsNumber N] in
private theorem totalEvents_foldl (t : TimelineProjection) :
    (es.foldl timeline t).totalEvents = t.totalEvents + es.length := by
  induction es generalizing t with
  | nil => rfl
  | cons e es ih =>
    rw [List.foldl_cons, ih]
    simp only [timeline, List.length_cons]
    omega

theorem totalEvents_applyEvents : (applyEvents p es).timeline.totalEvents = p.timeline.totalEvents + es.length := by
  rw [applyEvents_timeline, totalEvents_foldl]

omit [JsNumber N] in
/-- The entry of an event in `timeline.recent`. -/
def timelineEntry (e : CanonicalEvent N) : TimelineEntry := ⟨e.id, e.seq, e.ts, e.type, e.subject⟩

omit [JsNumber N] in
private theorem recent_foldl {t : TimelineProjection} (ht : t.recent.length ≤ 50) :
    (es.foldl timeline t).recent = sliceLast 50 (t.recent ++ es.map timelineEntry) := by
  have hstep : ∀ (t : TimelineProjection) (e : CanonicalEvent N), t.recent.length ≤ 50 →
      (timeline t e).recent = sliceLast 50 (t.recent ++ [timelineEntry e]) := fun _ _ _ => rfl
  rw [List.map_eq_flatMap]
  exact foldl_sliceLast (fun t : TimelineProjection => t.recent) (fun e => [timelineEntry e]) hstep ht es

/-- A fold from the empty projection shows the last 50 events. -/
theorem recent_applyEvents_empty (runId : String) :
    (applyEvents (.empty runId : RunStateProjection N) es).timeline.recent = sliceLast 50 (es.map timelineEntry) := by
  have hempty : (RunStateProjection.empty runId : RunStateProjection N).timeline.recent.length ≤ 50 := Nat.zero_le 50
  rw [applyEvents_timeline, recent_foldl hempty]
  rfl

omit [JsNumber N] in
@[simp] theorem linkArtifact_traceId (tr : TraceSummary) (e : CanonicalEvent N) :
    (linkArtifact tr e).traceId = tr.traceId := by
  unfold linkArtifact
  split <;> rfl

omit [JsNumber N] in
@[simp] theorem linkArtifact_lastSpanId (tr : TraceSummary) (e : CanonicalEvent N) :
    (linkArtifact tr e).lastSpanId = tr.lastSpanId := by
  unfold linkArtifact
  split <;> rfl

/-- The trace is blank exactly when it was before, and no event has a trace or span id. -/
theorem trace_applyEvents_eq_none :
    (applyEvents p es).trace.traceId = none ∧ (applyEvents p es).trace.lastSpanId = none ↔
      (p.trace.traceId = none ∧ p.trace.lastSpanId = none) ∧
        ∀ e ∈ es, eventTraceId e = none ∧ eventSpanId e = none := by
  rw [applyEvents_trace]
  generalize p.trace = tr
  induction es generalizing tr with
  | nil => simp
  | cons e es ih =>
    rw [List.foldl_cons, ih, linkArtifact_traceId, linkArtifact_lastSpanId, List.forall_mem_cons]
    show ((eventTraceId e).or tr.traceId = none ∧ (eventSpanId e).or tr.lastSpanId = none) ∧ _ ↔ _
    rw [Option.or_eq_none_iff, Option.or_eq_none_iff]
    tauto

theorem latestSeq_applyEvents :
    (applyEvents p es).timeline.latestSeq = (es.getLast?.map (·.seq)).getD p.timeline.latestSeq := by
  rw [applyEvents_timeline]
  rcases List.eq_nil_or_concat es with rfl | ⟨init, e, rfl⟩
  · rfl
  · rw [List.concat_eq_append, List.foldl_append, List.getLast?_concat]
    rfl

end Steps

end MacpControlPlane

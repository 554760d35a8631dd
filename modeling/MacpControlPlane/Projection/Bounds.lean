import MacpControlPlane.Projection.GraphShape

/-!
# The bounded lists of a projection

Every list that grows with the log is sliced where it is appended to.  With the shape of the participants and the graph
this is the representation invariant of a projection.
-/

namespace MacpControlPlane

open Js

variable {N : Type} [JsNumber N]

/-- The lists of a projection within their bounds. -/
structure Capped (p : RunStateProjection N) : Prop where
  recent : p.timeline.recent.length ≤ 50
  signals : p.signals.signals.length ≤ 200
  progress : p.progress.entries.length ≤ 100
  calls : p.llm.calls.length ≤ 100
  proposals : ((p.decision.current.bind (·.proposals)).getD []).length ≤ 50
  evaluations : p.policy.commitmentEvaluations.length ≤ 50
  edges : p.graph.edges.length ≤ 300

namespace Reducer

variable {r : String} {p : RunStateProjection N} {e : CanonicalEvent N}

/-! ### What each event appends -/

/-- Only signals and progress reports change the signals and the progress. -/
theorem dispatch_signals_progress (hemitted : e.type ≠ .signalEmitted) (hacknowledged : e.type ≠ .signalAcknowledged)
    (hreported : e.type ≠ .progressReported) :
    (dispatch r p e).signals = p.signals ∧ (dispatch r p e).progress = p.progress := by
  unfold dispatch
  cases htype : e.type with
  | signalEmitted => exact absurd htype hemitted
  | signalAcknowledged => exact absurd htype hacknowledged
  | progressReported => exact absurd htype hreported
  | messageSent =>
    obtain ⟨q, o, hq, heq⟩ := messageSent_onlyGraph p e
    dsimp only
    rw [heq]
    exact ⟨hq.signals, hq.progress⟩
  | messageReceived =>
    have hq := messageReceived_onlyGraph p e
    dsimp only
    rw [hq.signals, hq.progress]
    split <;> exact ⟨rfl, rfl⟩
  | sessionBound | sessionStateChanged =>
    have hq := sessionSweep_onlyGraph (asString (e.datum "state")) (sessionUpdate p e)
    exact ⟨hq.signals, hq.progress⟩
  | participantSeen =>
    have hq := participantSeen_onlyGraph p e
    exact ⟨hq.signals, hq.progress⟩
  | proposalCreated | proposalUpdated =>
    obtain ⟨policy, heq⟩ := proposal_eq p e
    dsimp only
    rw [heq]
    exact ⟨rfl, rfl⟩
  | policyCommitmentEvaluated =>
    dsimp only [policyCommitmentEvaluated]
    exact ⟨rfl, rfl⟩
  | _ => exact ⟨rfl, rfl⟩

private theorem signals_dispatch_le (h : p.signals.signals.length ≤ 200) :
    (dispatch r p e).signals.signals.length ≤ 200 := by
  cases htype : e.type with
  | signalEmitted =>
    simp only [dispatch, htype, signalEmitted]
    exact length_sliceLast_le 200 _
  | signalAcknowledged =>
    simp only [dispatch, htype, signalAcknowledged]
    split
    · exact h
    · rw [length_modifyFirst]
      exact h
  | progressReported =>
    simp only [dispatch, htype, progressReported]
    exact h
  | _ =>
    rw [(dispatch_signals_progress (by simp [htype]) (by simp [htype]) (by simp [htype])).1]
    exact h

private theorem progress_dispatch_le (h : p.progress.entries.length ≤ 100) :
    (dispatch r p e).progress.entries.length ≤ 100 := by
  cases htype : e.type with
  | progressReported =>
    simp only [dispatch, htype, progressReported]
    exact length_sliceLast_le 100 _
  | signalEmitted | signalAcknowledged =>
    simp only [dispatch, htype, signalEmitted, signalAcknowledged]
    exact h
  | _ =>
    rw [(dispatch_signals_progress (by simp [htype]) (by simp [htype]) (by simp [htype])).2]
    exact h

private theorem calls_llm_le {l : LlmProjection N} (h : l.calls.length ≤ 100) : (llm l e).calls.length ≤ 100 := by
  unfold llm
  split
  · unfold llmCall
    dsimp only
    split
    · exact length_sliceLast_le 100 _
    · exact h
  · exact h

private theorem proposals_decisionStep_le {d : DecisionProjection N}
    (h : ((d.current.bind (·.proposals)).getD []).length ≤ 50) :
    (((decisionStep d e).current.bind (·.proposals)).getD []).length ≤ 50 := by
  unfold decisionStep
  split
  · unfold promptedDecision
    split
    · rcases d with ⟨_ | current⟩
      · exact Nat.zero_le 50
      · exact h
    · exact h
  · dsimp only [proposedDecision]
    split <;> exact length_sliceLast_le 50 _
  · dsimp only [proposedDecision]
    split <;> exact length_sliceLast_le 50 _
  · rcases d with ⟨_ | current⟩
    · exact Nat.zero_le 50
    · exact h
  · exact h

theorem evaluations_proposal : (proposal p e).policy.commitmentEvaluations = p.policy.commitmentEvaluations := by
  unfold proposal
  cases (contribution e).vote with
  | none => rfl
  | some vote =>
    dsimp only
    split <;> rfl

private theorem evaluations_policyStep_le (h : p.policy.commitmentEvaluations.length ≤ 50) :
    (policyStep p e).commitmentEvaluations.length ≤ 50 := by
  unfold policyStep
  split
  · unfold settleQuorum
    split <;> exact h
  · unfold settleQuorum
    split <;> exact h
  · exact h
  · exact h
  · rw [evaluations_proposal]
    exact h
  · rw [evaluations_proposal]
    exact h
  · exact h
  · exact h
  · dsimp only [policyCommitmentEvaluated]
    exact length_sliceLast_le 50 _
  · exact h

omit [JsNumber N] in
private theorem edges_sessionSweep (state : Option String) : (sessionSweep state p).graph.edges = p.graph.edges := by
  unfold sessionSweep
  split
  · rfl
  · split
    · rfl
    · split <;> rfl

private theorem edges_dispatch_le (h : p.graph.edges.length ≤ 300) : (dispatch r p e).graph.edges.length ≤ 300 := by
  unfold dispatch
  cases e.type with
  | messageSent =>
    dsimp only [messageSent, sliceEdges]
    exact Nat.le_trans (length_sliceLast_le 200 _) (by decide)
  | messageReceived =>
    dsimp only [messageReceived, sliceEdges]
    exact length_sliceLast_le 300 _
  | sessionBound | sessionStateChanged =>
    dsimp only [sessionState]
    rw [edges_sessionSweep]
    exact h
  | participantSeen =>
    dsimp only [participantSeen]
    split <;> exact h
  | proposalCreated | proposalUpdated =>
    obtain ⟨policy, heq⟩ := proposal_eq p e
    dsimp only
    rw [heq]
    exact h
  | signalEmitted | progressReported | policyCommitmentEvaluated =>
    dsimp only [signalEmitted, progressReported, policyCommitmentEvaluated]
    exact h
  | _ => exact h

private theorem applyEvent_capped (h : Capped p) : Capped (applyEvent r p e) where
  recent := by
    rw [applyEvent_timeline]
    exact length_sliceLast_le 50 _
  signals := signals_dispatch_le (p := track p e) h.signals
  progress := progress_dispatch_le (p := track p e) h.progress
  calls := by
    rw [applyEvent_llm]
    exact calls_llm_le h.calls
  proposals := by
    rw [applyEvent_decision]
    exact proposals_decisionStep_le h.proposals
  evaluations := by
    rw [applyEvent_policy]
    exact evaluations_policyStep_le (p := track p e) h.evaluations
  edges := edges_dispatch_le (p := track p e) h.edges

end Reducer

open Reducer

private theorem capped_empty (runId : String) : Capped (.empty runId : RunStateProjection N) := by
  constructor <;> exact Nat.zero_le _

private theorem applyEvents_capped (runId : String) (es : List (CanonicalEvent N)) :
    Capped (applyEvents (.empty runId) es) :=
  List.foldlRecOn es _ (capped_empty runId) fun _ h _ _ => applyEvent_capped h

/-- In the projection of a log whose events name no reserved node, participants and nodes have distinct ids, the
participants and their nodes correspond one to one with equal status, every edge joins two nodes, and every list is
within its bound. -/
theorem projection_representation (runId : String) {es : List (CanonicalEvent N)} (hes : ∀ e ∈ es, PlainIds e) :
    let p := applyEvents (.empty runId) es
    (p.participants.map (·.participantId)).Nodup ∧
      (p.graph.nodes.map (·.id)).Nodup ∧
      (∀ q ∈ p.participants, ∃ n ∈ p.graph.nodes, n.kind = "participant" ∧ n.id = q.participantId ∧
        n.status = q.status.name ∧ ∀ m ∈ p.graph.nodes, m.id = q.participantId → m = n) ∧
      (∀ n ∈ p.graph.nodes, n.kind = "participant" → ∃ q ∈ p.participants, q.participantId = n.id ∧
        q.status.name = n.status ∧ ∀ q' ∈ p.participants, q'.participantId = n.id → q' = q) ∧
      (∀ e ∈ p.graph.edges, e.source ∈ p.graph.nodes.map (·.id) ∧ e.target ∈ p.graph.nodes.map (·.id)) ∧
      Capped p := by
  have h := applyEvents_shaped runId fun e he => (hes e he).free
  refine ⟨h.participants_nodup, h.nodes_nodup, fun q hq => ?_, fun n hn hkind => ?_, h.edges,
    applyEvents_capped runId es⟩
  · refine ⟨q.node, h.node_mem hq, rfl, rfl, rfl, fun m hm hid => ?_⟩
    exact List.inj_on_of_nodup_map h.nodes_nodup hm (h.node_mem hq) hid
  · obtain ⟨q, hq, rfl⟩ := h.exists_participant hn (by simp [GraphNode.isParticipant, hkind])
    refine ⟨q, hq, rfl, rfl, fun q' hq' hid => ?_⟩
    exact List.inj_on_of_nodup_map h.participants_nodup hq' hq hid

/-- A `Proposal` of one participant to another. -/
def proposalReceived : CanonicalEvent (Option Rat) where
  id := "event"
  runId := "run"
  seq := 1
  ts := "2026-01-01T00:00:00.000Z"
  type := .messageReceived
  source := { kind := .runtime, name := "rust-runtime" }
  data := [("sender", .str "planner"), ("messageType", .str "Proposal"), ("to", .arr [.str "reviewer"])]

private theorem proposalReceived_plainIds : PlainIds proposalReceived where
  free := by decide
  recipients := by
    rintro v hv
    obtain rfl : Json.arr [.str "reviewer"] = v := Option.some.inj hv
    exact ⟨["reviewer"], rfl⟩

theorem projection_representation_proposal :
    let p := applyEvents (.empty "run") [proposalReceived]
    (p.participants.map (·.participantId)).Nodup ∧ (p.graph.nodes.map (·.id)).Nodup ∧
      p.graph.nodes = [⟨"planner", "participant", "active"⟩, ⟨"reviewer", "participant", "waiting"⟩,
        ⟨"__start", "start", "completed"⟩, ⟨"__proposal", "proposal", "completed"⟩] := by
  have h := projection_representation "run" (List.forall_mem_singleton.2 proposalReceived_plainIds)
  exact ⟨h.1, h.2.1, by decide⟩

end MacpControlPlane

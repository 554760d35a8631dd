import MacpControlPlane.Lib.Folds
import MacpControlPlane.Projection.Sections

/-!
# The committed decision

A `decision.finalized` event writes the fields of the decision over what was there, and marks it as final.  From then
on proposals and votes only join the list of contributions, and `run.created` only sets the prompt; another commitment
writes the fields again, with the exception of `supersedes`, which a commitment without one leaves as it is.
-/

namespace MacpControlPlane

open Js Folds

variable {N : Type} [JsNumber N]

namespace Reducer

/-! ### What an event contributes -/

/-- The contribution of an event, when it is a proposal event. -/
def eventContribution (event : CanonicalEvent N) : Option (DecisionProposalContribution N) :=
  if event.type = .proposalCreated ∨ event.type = .proposalUpdated then some (contribution event) else none

omit [JsNumber N] in
/-- The prompt that an event sets. -/
def eventPrompt (event : CanonicalEvent N) : Option String :=
  if event.type = .runCreated then asString (event.datum "decisionPrompt") else none

/-- The commitment that an event supersedes, when it is a commitment that names one. -/
def eventSupersedes (event : CanonicalEvent N) : Option CommitmentSupersedes :=
  if event.type = .decisionFinalized then extractSupersedes (field (event.datum "decodedPayload") "supersedes")
  else none

/-- The outcome of an event, when it is a commitment. -/
def eventOutcome (event : CanonicalEvent N) : Option (Option Bool) :=
  if event.type = .decisionFinalized then some (finalOutcome event) else none

omit [JsNumber N] in
/-- `[...existingProposals, contribution].slice(-50)` for each of some contributions. -/
def addContributions (proposals : Option (List (DecisionProposalContribution N)))
    (contributions : List (DecisionProposalContribution N)) : Option (List (DecisionProposalContribution N)) :=
  if contributions = [] then proposals else some (sliceLast 50 (proposals.getD [] ++ contributions))

omit [JsNumber N] in
private theorem addContributions_append (proposals : Option (List (DecisionProposalContribution N)))
    (cs ds : List (DecisionProposalContribution N)) :
    addContributions (addContributions proposals cs) ds = addContributions proposals (cs ++ ds) := by
  unfold addContributions
  by_cases hc : cs = []
  · simp [hc]
  · by_cases hd : ds = []
    · simp [hd]
    · simp [hc, hd, sliceLast_sliceLast_append]

/-! ### A final decision -/

/-- The decision after some events none of which is a commitment. -/
def lateDecision (current : DecisionCurrent N) (es : List (CanonicalEvent N)) : DecisionCurrent N :=
  { current with
    proposals := addContributions current.proposals (es.filterMap eventContribution)
    prompt := (lastWrite eventPrompt es).or current.prompt }

omit [JsNumber N] in
private theorem promptedDecision_eq {current : DecisionCurrent N} {e : CanonicalEvent N} (he : e.type = .runCreated) :
    promptedDecision ⟨some current⟩ e = ⟨some { current with prompt := (eventPrompt e).or current.prompt }⟩ := by
  unfold promptedDecision eventPrompt
  rw [if_pos he]
  cases asString (e.datum "decisionPrompt") <;> rfl

private theorem decisionStep_finalized {current : DecisionCurrent N} {e : CanonicalEvent N}
    (hfinal : current.finalized = true)
    (he : e.type ≠ .decisionFinalized) : decisionStep ⟨some current⟩ e = ⟨some (lateDecision current [e])⟩ := by
  unfold decisionStep lateDecision
  rw [lastWrite_singleton]
  cases htype : e.type with
  | runCreated =>
    have hnone : eventContribution e = none := by simp [eventContribution, htype]
    simp [promptedDecision_eq htype, hnone, addContributions]
  | proposalCreated | proposalUpdated =>
    have hsome : eventContribution e = some (contribution e) := by simp [eventContribution, htype]
    have hnone : eventPrompt e = none := by simp [eventPrompt, htype]
    simp [proposedDecision, hfinal, hsome, hnone, addContributions]
  | decisionFinalized => exact absurd htype he
  | _ =>
    have hcontribution : eventContribution e = none := by simp [eventContribution, htype]
    have hprompt : eventPrompt e = none := by simp [eventPrompt, htype]
    simp [hcontribution, hprompt, addContributions]

private theorem lateDecision_append (current : DecisionCurrent N) (es fs : List (CanonicalEvent N)) :
    lateDecision (lateDecision current es) fs = lateDecision current (es ++ fs) := by
  simp only [lateDecision, addContributions_append, List.filterMap_append, lastWrite_append, Option.or_assoc]

/-- A final decision stays as it is until the next commitment, but for the contributions and the prompt. -/
theorem foldl_decisionStep_finalized {current : DecisionCurrent N} {es : List (CanonicalEvent N)}
    (hfinal : current.finalized = true) (hes : ∀ e ∈ es, e.type ≠ .decisionFinalized) :
    es.foldl decisionStep ⟨some current⟩ = ⟨some (lateDecision current es)⟩ := by
  induction es generalizing current with
  | nil => rfl
  | cons e es ih =>
    obtain ⟨he, hes⟩ := List.forall_mem_cons.1 hes
    have hstep : (lateDecision current [e]).finalized = true := hfinal
    rw [List.foldl_cons, decisionStep_finalized hfinal he, ih hstep hes, lateDecision_append, List.singleton_append]

end Reducer

open Reducer

/-- Folding events without a commitment into a projection whose decision is final. -/
theorem finalized_decision_frozen {p : RunStateProjection N} {current : DecisionCurrent N}
    {es : List (CanonicalEvent N)} (hp : p.decision.current = some current) (hfinal : current.finalized = true)
    (hes : ∀ e ∈ es, e.type ≠ .decisionFinalized) :
    (applyEvents p es).decision.current =
      some
        { current with
          proposals := addContributions current.proposals (es.filterMap eventContribution)
          prompt := (lastWrite eventPrompt es).or current.prompt } := by
  have hdecision : p.decision = ⟨some current⟩ := by rw [← hp]
  rw [applyEvents_decision, hdecision, foldl_decisionStep_finalized hfinal hes]
  rfl

/-- An event of a runtime message with a decoded payload. -/
def messageEvent (seq : Nat) (type : CanonicalEventType) (payload : JsonObject (Option Rat)) :
    CanonicalEvent (Option Rat) where
  id := "event"
  runId := "run"
  seq
  ts := "2026-01-01T00:00:00.000Z"
  type
  source := { kind := .runtime, name := "rust-runtime" }
  data := [("sender", .str "agent"), ("decodedPayload", .obj payload)]

/-- A commitment, and then a late vote. -/
theorem finalized_decision_frozen_vote :
    ∃ current,
      (applyEvents (.empty "run") [messageEvent 1 .decisionFinalized [("action", .str "approve")]]).decision.current =
        some current ∧ current.finalized = true ∧ current.action = "approve" ∧
      (applyEvents (applyEvents (.empty "run") [messageEvent 1 .decisionFinalized [("action", .str "approve")]])
          [messageEvent 2 .proposalUpdated [("vote", .str "REJECT")]]).decision.current =
        some
          { current with
            proposals := some [contribution (messageEvent 2 .proposalUpdated [("vote", .str "REJECT")])]
            prompt := none } :=
  ⟨_, rfl, rfl, rfl, finalized_decision_frozen rfl rfl (by decide)⟩

/-! ### The last commitment -/

namespace Reducer

private theorem decisionStep_supersedes (d : DecisionProjection N) (e : CanonicalEvent N) :
    (decisionStep d e).current.bind (·.supersedes) = (eventSupersedes e).or (d.current.bind (·.supersedes)) := by
  have hother : e.type ≠ .decisionFinalized → eventSupersedes e = none := fun he => if_neg he
  unfold decisionStep
  cases htype : e.type with
  | runCreated =>
    rw [hother (by simp [htype])]
    unfold promptedDecision
    cases asString (e.datum "decisionPrompt") <;> cases d.current <;> rfl
  | proposalCreated | proposalUpdated =>
    rw [hother (by simp [htype])]
    dsimp only [proposedDecision]
    split <;> cases d.current <;> rfl
  | decisionFinalized =>
    have hcommitment : eventSupersedes e = extractSupersedes (field (e.datum "decodedPayload") "supersedes") :=
      if_pos htype
    rw [hcommitment]
    rcases d with ⟨_ | current⟩ <;> simp [finalizedDecision]
  | _ =>
    rw [hother (by simp [htype])]
    rfl

omit [JsNumber N] in
private theorem settleQuorum_outcomePositive (policy : PolicyProjection N) :
    (settleQuorum policy).outcomePositive = policy.outcomePositive := by
  unfold settleQuorum
  split <;> rfl

private theorem proposal_outcomePositive (p : RunStateProjection N) (e : CanonicalEvent N) :
    (proposal p e).policy.outcomePositive = p.policy.outcomePositive := by
  unfold proposal
  cases (contribution e).vote with
  | none => rfl
  | some vote =>
    dsimp only
    split <;> rfl

private theorem policyStep_outcomePositive (p : RunStateProjection N) (e : CanonicalEvent N) :
    (policyStep p e).outcomePositive = (eventOutcome e).or p.policy.outcomePositive := by
  have hother : e.type ≠ .decisionFinalized → eventOutcome e = none := fun he => if_neg he
  unfold policyStep
  cases htype : e.type with
  | decisionFinalized => simp [eventOutcome, htype, decisionFinalized]
  | runFailed | runCancelled =>
    rw [hother (by simp [htype])]
    exact settleQuorum_outcomePositive p.policy
  | proposalCreated | proposalUpdated =>
    rw [hother (by simp [htype])]
    exact proposal_outcomePositive p e
  | policyCommitmentEvaluated =>
    rw [hother (by simp [htype])]
    dsimp only [policyCommitmentEvaluated, Option.none_or]
  | _ =>
    rw [hother (by simp [htype])]
    rfl

end Reducer

variable {p : RunStateProjection N} {es fs : List (CanonicalEvent N)} {e : CanonicalEvent N}

private theorem supersedes_applyEvents (p : RunStateProjection N) (es : List (CanonicalEvent N)) :
    (applyEvents p es).decision.current.bind (·.supersedes) =
      (lastWrite eventSupersedes es).or (p.decision.current.bind (·.supersedes)) := by
  rw [applyEvents_decision]
  exact read_foldl (fun d : DecisionProjection N => d.current.bind (·.supersedes)) decisionStep_supersedes _ es

private theorem policyOutcome_applyEvents :
    (applyEvents p es).policy.outcomePositive = (lastWrite eventOutcome es).or p.policy.outcomePositive := by
  refine read_foldl (fun p : RunStateProjection N => p.policy.outcomePositive) ?_ p es
  intro q e
  rw [applyEvent_policy, policyStep_outcomePositive]
  rfl

/-- The decision and the policy show the commitment `e`, and nothing of what was there before. -/
def ShowsCommitment (p : RunStateProjection N) (e : CanonicalEvent N) : Prop :=
  ∃ current, p.decision.current = some current ∧
    current.action = finalAction e ∧
    current.reasons = some [stringOr (field (e.datum "decodedPayload") "reason") "Commitment observed"] ∧
    current.outcomePositive = some (finalOutcome e) ∧
    current.resolvedAt = some e.ts ∧
    current.resolvedBy = defined (e.datum "sender") ∧
    current.supersedes = eventSupersedes e ∧
    p.policy.outcomePositive = some (finalOutcome e)

/-- A log whose last commitment is `e` ends with the fields of `e`, and with what the commitments have last named as
superseded. -/
theorem decision_applyEvents_commitment (es : List (CanonicalEvent N)) (runId : String)
    (he : e.type = .decisionFinalized) (hfs : ∀ f ∈ fs, f.type ≠ .decisionFinalized) :
    ∃ current, (applyEvents (.empty runId) (es ++ e :: fs)).decision.current = some current ∧
      current.action = finalAction e ∧
      current.reasons = some [stringOr (field (e.datum "decodedPayload") "reason") "Commitment observed"] ∧
      current.outcomePositive = some (finalOutcome e) ∧
      current.resolvedAt = some e.ts ∧
      current.resolvedBy = defined (e.datum "sender") ∧
      current.supersedes = (eventSupersedes e).or (lastWrite eventSupersedes es) := by
  have hfold : (applyEvents (.empty runId) (es ++ e :: fs)).decision =
      fs.foldl decisionStep (finalizedDecision (es.foldl decisionStep {}) e) := by
    rw [applyEvents_decision, List.foldl_append, List.foldl_cons, decisionStep, he]
    rfl
  have hsupersedes := supersedes_applyEvents (.empty runId) (es ++ e :: fs)
  rw [hfold, finalizedDecision, foldl_decisionStep_finalized rfl hfs] at hsupersedes
  rw [hfold, finalizedDecision, foldl_decisionStep_finalized rfl hfs]
  refine ⟨_, rfl, rfl, rfl, rfl, rfl, rfl, ?_⟩
  have hlate : lastWrite eventSupersedes fs = none := lastWrite_eq_none.2 fun f hf => if_neg (hfs f hf)
  rw [lastWrite_append, lastWrite_cons, hlate, Option.none_or] at hsupersedes
  refine hsupersedes.trans ?_
  exact Option.or_none

private theorem lastOutcome_commitment (he : e.type = .decisionFinalized)
    (hfs : ∀ f ∈ fs, f.type ≠ .decisionFinalized) : lastWrite eventOutcome (es ++ e :: fs) = some (finalOutcome e) := by
  have hlate : lastWrite eventOutcome fs = none := lastWrite_eq_none.2 fun f hf => if_neg (hfs f hf)
  have hcommitment : eventOutcome e = some (finalOutcome e) := if_pos he
  rw [lastWrite_append, lastWrite_cons, hlate, hcommitment]
  rfl

/-- The last commitment of a log is what it shows, exactly when that commitment names one that it supersedes, or no
earlier one does. -/
theorem last_commitment_shown_iff (runId : String) (he : e.type = .decisionFinalized)
    (hfs : ∀ f ∈ fs, f.type ≠ .decisionFinalized) :
    ShowsCommitment (applyEvents (.empty runId) (es ++ e :: fs)) e ↔
      (eventSupersedes e).isSome ∨ ∀ f ∈ es, eventSupersedes f = none := by
  obtain ⟨current, hcurrent, haction, hreasons, houtcome, hat, hby, hsupersedes⟩ :=
    decision_applyEvents_commitment es runId he hfs
  have hpolicy : (applyEvents (.empty runId) (es ++ e :: fs)).policy.outcomePositive = some (finalOutcome e) := by
    rw [policyOutcome_applyEvents, lastOutcome_commitment he hfs]
    rfl
  have hshown : ShowsCommitment (applyEvents (.empty runId) (es ++ e :: fs)) e ↔
      current.supersedes = eventSupersedes e := by
    constructor
    · rintro ⟨current', hcurrent', -, -, -, -, -, h, -⟩
      rw [hcurrent] at hcurrent'
      exact Option.some.inj hcurrent' ▸ h
    · intro h
      exact ⟨current, hcurrent, haction, hreasons, houtcome, hat, hby, h, hpolicy⟩
  rw [hshown, hsupersedes, ← lastWrite_eq_none]
  cases eventSupersedes e <;> simp

theorem last_commitment_shown_single :
    ShowsCommitment
      (applyEvents (.empty "run")
        ([messageEvent 1 .proposalUpdated [("vote", .str "REJECT")]] ++
          messageEvent 2 .decisionFinalized [("action", .str "approve")] :: []))
      (messageEvent 2 .decisionFinalized [("action", .str "approve")]) :=
  (last_commitment_shown_iff "run" rfl (by decide)).2 (.inr (by decide))

/-- A commitment that supersedes another session's one. -/
def supersedingCommitment : CanonicalEvent (Option Rat) :=
  messageEvent 1 .decisionFinalized
    [("action", .str "approve"), ("supersedes", .obj [("sessionId", .str "prior"), ("commitmentHash", .str "abc")])]

/-- The commitment after it supersedes nothing. -/
def plainCommitment : CanonicalEvent (Option Rat) :=
  messageEvent 2 .decisionFinalized [("action", .str "reject")]

theorem supersedes_survives_next_commitment :
    eventSupersedes plainCommitment = none ∧
      (applyEvents (.empty "run") [supersedingCommitment, plainCommitment]).decision.current.bind (·.supersedes) =
        some ⟨"prior", "abc", some false⟩ ∧
      ¬ ShowsCommitment (applyEvents (.empty "run") [supersedingCommitment, plainCommitment]) plainCommitment := by
  have hnone : eventSupersedes plainCommitment = none := by decide
  have hsurvives : (applyEvents (.empty "run") [supersedingCommitment, plainCommitment]).decision.current.bind
      (·.supersedes) = some ⟨"prior", "abc", some false⟩ := by
    rw [supersedes_applyEvents]
    decide
  refine ⟨hnone, hsurvives, ?_⟩
  rintro ⟨current, hcurrent, -, -, -, -, -, h, -⟩
  rw [hcurrent, Option.bind_some, h, hnone] at hsurvives
  cases hsurvives

end MacpControlPlane

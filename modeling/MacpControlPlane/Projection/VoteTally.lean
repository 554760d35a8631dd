import Mathlib.Data.Rat.Floor
import Mathlib.Tactic.Linarith
import MacpControlPlane.Lib.Keyed
import MacpControlPlane.Projection.Decisions

/-!
# The vote tally

`bumpVoteTally` finds the entry of a proposal, or pushes one, and counts a vote in it.  It is called for the proposal
events from which a vote is inferred and whose proposal id is not empty; no other event changes the tally.
-/

namespace MacpControlPlane

open Js

variable {N : Type} [JsNumber N]

namespace Reducer

/-- The event counts in the tally. -/
def countsVote (event : CanonicalEvent N) : Bool :=
  (event.type = .proposalCreated || event.type = .proposalUpdated) && (contribution event).vote.isSome &&
    eventProposalId event ≠ ""

/-! ### One vote -/

/-- `Math.ceil(required / 2)` -/
theorem half_up_eq_ceil (required : Nat) : ((required + 1) / 2 : Nat) = ⌈(required : ℚ) / 2⌉ := by
  obtain ⟨half, hhalf⟩ : ∃ half, half = (required + 1) / 2 := ⟨_, rfl⟩
  have hlow : 2 * half ≤ required + 1 := by omega
  have hhigh : required ≤ 2 * half := by omega
  have hlow' : (2 * half : ℚ) ≤ required + 1 := by exact_mod_cast hlow
  have hhigh' : (required : ℚ) ≤ 2 * half := by exact_mod_cast hhigh
  rw [← hhalf, eq_comm, Int.ceil_eq_iff, Int.cast_natCast]
  constructor <;> linarith

/-- The tally of a projection that has counted some votes. -/
structure Tallied (tally : List VoteTallyEntry) (votes : Nat) : Prop where
  nodup : (tally.map (·.commitmentId)).Nodup
  entries : ∀ t ∈ tally, t.cast = t.allow + t.deny ∧ t.threshold = (t.required + 1) / 2
  sum : (tally.map (·.cast)).sum = votes

/-- The tally in which `bumpVoteTally` looks for the entry of the proposal. -/
def withEntry (tally : List VoteTallyEntry) (commitmentId : String) : List VoteTallyEntry :=
  if tally.any (·.commitmentId = commitmentId) then tally else tally ++ [{ commitmentId := commitmentId }]

private theorem any_withEntry (tally : List VoteTallyEntry) (commitmentId : String) :
    (withEntry tally commitmentId).any (·.commitmentId = commitmentId) := by
  unfold withEntry
  split
  · assumption
  · simp

/-- A new entry has no votes. -/
theorem Tallied.withEntry {tally : List VoteTallyEntry} {votes : Nat} (h : Tallied tally votes)
    (commitmentId : String) : Tallied (withEntry tally commitmentId) votes := by
  unfold Reducer.withEntry
  split
  · exact h
  · rename_i hnone
    constructor
    · refine nodup_map_concat _ h.nodup ?_
      simpa using hnone
    · intro t ht
      rcases List.mem_append.1 ht with ht | ht
      · exact h.entries t ht
      · obtain rfl := List.mem_singleton.1 ht
        exact ⟨rfl, by simp⟩
    · simpa using h.sum

omit [JsNumber N] in
/-- A vote is counted in the entry of its proposal, once. -/
theorem Tallied.bump {p : RunStateProjection N} {votes : Nat} (h : Tallied (p.policy.voteTally.getD []) votes)
    (commitmentId : String) (vote : Vote) :
    Tallied ((bumpVoteTally p commitmentId vote).policy.voteTally.getD []) (votes + 1) := by
  have hentry := h.withEntry commitmentId
  unfold bumpVoteTally
  constructor
  · rw [Option.getD_some, map_modifyFirst]
    · exact hentry.nodup
    · exact fun t => rfl
  · exact forall_mem_modifyFirst hentry.entries fun t _ _ _ => ⟨rfl, rfl⟩
  · rw [Option.getD_some, ← hentry.sum]
    refine sum_map_modifyFirst _ 1 (fun t ht _ => ?_) (any_withEntry _ _)
    have hcast := (hentry.entries t ht).1
    cases vote <;> simp <;> omega

/-! ### One event -/

private theorem Tallied.proposal {p : RunStateProjection N} {e : CanonicalEvent N} {votes : Nat}
    (h : Tallied (p.policy.voteTally.getD []) votes)
    (he : e.type = .proposalCreated ∨ e.type = .proposalUpdated) :
    Tallied ((proposal p e).policy.voteTally.getD []) (votes + if countsVote e then 1 else 0) := by
  have hcounts : countsVote e = ((contribution e).vote.isSome && decide (eventProposalId e ≠ "")) := by
    rcases he with he | he <;> simp [countsVote, he]
  rw [hcounts]
  unfold Reducer.proposal
  cases (contribution e).vote with
  | none => simpa using h
  | some vote =>
    by_cases hid : eventProposalId e = ""
    · simpa [hid] using h
    · have hdecided : Tallied (({ p with decision := proposedDecision p.decision e }).policy.voteTally.getD []) votes :=
        h
      simpa [hid] using hdecided.bump (eventProposalId e) vote

omit [JsNumber N] in
private theorem settleQuorum_voteTally (policy : PolicyProjection N) :
    (settleQuorum policy).voteTally = policy.voteTally := by
  unfold settleQuorum
  split <;> rfl

private theorem Tallied.policyStep {p : RunStateProjection N} {votes : Nat}
    (h : Tallied (p.policy.voteTally.getD []) votes) (e : CanonicalEvent N) :
    Tallied ((policyStep p e).voteTally.getD []) (votes + if countsVote e then 1 else 0) := by
  have hother : e.type ≠ .proposalCreated → e.type ≠ .proposalUpdated → countsVote e = false := by
    intro hcreated hupdated
    simp [countsVote, hcreated, hupdated]
  unfold Reducer.policyStep
  cases htype : e.type with
  | proposalCreated => exact h.proposal (.inl htype)
  | proposalUpdated => exact h.proposal (.inr htype)
  | runFailed | runCancelled =>
    rw [hother (by simp [htype]) (by simp [htype])]
    simp only [settleQuorum_voteTally]
    exact h
  | policyCommitmentEvaluated =>
    rw [hother (by simp [htype]) (by simp [htype])]
    dsimp only [policyCommitmentEvaluated]
    exact h
  | _ =>
    rw [hother (by simp [htype]) (by simp [htype])]
    exact h

private theorem tallied_foldl (r : String) {p : RunStateProjection N} {votes : Nat}
    (h : Tallied (p.policy.voteTally.getD []) votes) (es : List (CanonicalEvent N)) :
    Tallied ((es.foldl (applyEvent r) p).policy.voteTally.getD []) (votes + (es.filter countsVote).length) := by
  induction es generalizing p votes with
  | nil => exact h
  | cons e es ih =>
    have hstep : Tallied ((applyEvent r p e).policy.voteTally.getD []) (votes + if countsVote e then 1 else 0) := by
      rw [applyEvent_policy]
      exact Tallied.policyStep (p := track p e) h e
    have hlength : votes + ((e :: es).filter countsVote).length =
        (votes + if countsVote e then 1 else 0) + (es.filter countsVote).length := by
      cases hcounts : countsVote e <;> simp [hcounts]; omega
    rw [List.foldl_cons, hlength]
    exact ih hstep

end Reducer

open Reducer

/-- Every vote of a log is counted once, in the one entry of its proposal. -/
theorem vote_tally_counts (runId : String) (es : List (CanonicalEvent N)) :
    let tally := (applyEvents (.empty runId) es).policy.voteTally.getD []
    (tally.map (·.commitmentId)).Nodup ∧
      (∀ t ∈ tally, t.cast = t.allow + t.deny ∧ (t.threshold : Int) = ⌈(t.required : ℚ) / 2⌉) ∧
      (tally.map (·.cast)).sum = (es.filter countsVote).length := by
  have hempty : Tallied ((RunStateProjection.empty runId : RunStateProjection N).policy.voteTally.getD []) 0 :=
    ⟨List.nodup_nil, by simp [RunStateProjection.empty], rfl⟩
  have h := tallied_foldl (RunStateProjection.empty runId : RunStateProjection N).run.runId hempty es
  refine ⟨h.nodup, fun t ht => ?_, ?_⟩
  · obtain ⟨hcast, hthreshold⟩ := h.entries t ht
    rw [hthreshold]
    exact ⟨hcast, half_up_eq_ceil t.required⟩
  · rw [← Nat.zero_add (es.filter countsVote).length]
    exact h.sum

end MacpControlPlane

import MacpControlPlane.Lib.Folds
import MacpControlPlane.Projection.Bounds

/-!
# The sweep at the end of a run

A terminal run event ends every participant that is idle, active or waiting.  From then on the status of the run is a
terminal one, whatever events follow but for the four that start, suspend and resume it, and `touchParticipant` leaves
the status of an ended participant alone.
-/

namespace MacpControlPlane

open Js

/-! ### What the sweep marks -/

/-- The participant that a sweep marks as failed has the latest activity of those it ends. -/
theorem lastActive_spec {qs : List (ParticipantProjection × Nat)} {i : Nat} (h : lastActive qs = some i) :
    ∃ q ∈ qs, q.2 = i ∧
      ∀ x ∈ qs, stringGt (x.1.latestActivityAt.getD "") (q.1.latestActivityAt.getD "") = false := by
  cases qs with
  | nil => cases h
  | cons a rest =>
    have hmax := Folds.foldl_greater
      (fun a b : ParticipantProjection × Nat =>
        stringGt (a.1.latestActivityAt.getD "") (b.1.latestActivityAt.getD ""))
      (fun a => stringGt_irrefl _) (fun a b => stringGt_asymm) (fun a b c => stringGt_negTrans) a rest
    exact ⟨_, hmax.1, Option.some.inj h, hmax.2⟩

private theorem stringGt_empty (s : String) : stringGt "" s = false := by
  simp [stringGt]

private theorem last_of_sweptStatus {last : Option Nat} {q : ParticipantProjection × Nat}
    (h : sweptStatus last q = .failed) : last = some q.2 := by
  unfold sweptStatus at h
  split at h
  · cases h
  · split at h
    · assumption
    · cases h

/-- What marks a participant as failed: the run has failed, and no other one that is swept has a later activity. -/
theorem failed_of_swept {participants : List ParticipantProjection} {outcome : RunStatus}
    {q : ParticipantProjection × Nat} (hactive : q.1.status.terminal = false)
    (hfailed : (swept (sweepLast participants outcome) q).status = .failed) :
    outcome = .failed ∧ lastActive ((toSweep participants).filter (·.1.hasActivity)) = some q.2 := by
  have hswept : swept (sweepLast participants outcome) q =
      { q.1 with status := sweptStatus (sweepLast participants outcome) q } := if_neg (by simp [hactive])
  rw [hswept] at hfailed
  have hlast := last_of_sweptStatus hfailed
  unfold sweepLast at hlast
  split at hlast
  · exact ⟨‹_›, hlast⟩
  · cases hlast

private theorem swept_terminal (last : Option Nat) (q : ParticipantProjection × Nat) :
    (swept last q).status.terminal = true := by
  unfold swept
  split
  · assumption
  · unfold sweptStatus
    dsimp only
    split
    · rfl
    · split <;> rfl

/-- A participant that is not ended before, and is failed after. -/
def MarkedFailed (before after : List ParticipantProjection) (q : ParticipantProjection) : Prop :=
  q ∈ before ∧ q.status.terminal = false ∧ ∃ q' ∈ after, q'.participantId = q.participantId ∧ q'.status = .failed

section Marked

variable {N : Type} {p : RunStateProjection N} {outcome : RunStatus} {q : ParticipantProjection}

private theorem index_of_markedFailed (hp : Shaped p)
    (h : MarkedFailed p.participants (sweepTerminal p outcome).participants q) :
    outcome = .failed ∧ ∃ i, p.participants[i]? = some q ∧
      lastActive ((toSweep p.participants).filter (·.1.hasActivity)) = some i := by
  obtain ⟨hq, hactive, q', hq', hid, hfailed⟩ := h
  rw [sweepTerminal_participants] at hq'
  obtain ⟨⟨x, i⟩, hx, rfl⟩ := List.mem_map.1 hq'
  have hget : p.participants[i]? = some x := List.mk_mem_zipIdx_iff_getElem?.1 hx
  rw [swept_participantId] at hid
  obtain rfl : x = q := List.inj_on_of_nodup_map hp.participants_nodup (List.mem_of_getElem? hget) hq hid
  obtain ⟨houtcome, hlast⟩ := failed_of_swept hactive hfailed
  exact ⟨houtcome, i, hget, hlast⟩

/-- A sweep marks at most one participant as failed. -/
theorem markedFailed_unique (hp : Shaped p) {q₁ q₂ : ParticipantProjection}
    (h₁ : MarkedFailed p.participants (sweepTerminal p outcome).participants q₁)
    (h₂ : MarkedFailed p.participants (sweepTerminal p outcome).participants q₂) : q₁ = q₂ := by
  obtain ⟨-, i, hi, hlast⟩ := index_of_markedFailed hp h₁
  obtain ⟨-, j, hj, hlast'⟩ := index_of_markedFailed hp h₂
  obtain rfl : i = j := Option.some.inj (hlast.symm.trans hlast')
  exact Option.some.inj (hi.symm.trans hj)

/-- The one that it marks has the latest activity of all that it ends. -/
theorem markedFailed_latest (hp : Shaped p)
    (h : MarkedFailed p.participants (sweepTerminal p outcome).participants q) :
    outcome = .failed ∧ ∀ x ∈ p.participants, x.status.terminal = false →
      stringGt (x.latestActivityAt.getD "") (q.latestActivityAt.getD "") = false := by
  obtain ⟨houtcome, i, hi, hlast⟩ := index_of_markedFailed hp h
  refine ⟨houtcome, fun x hx hactive => ?_⟩
  obtain ⟨y, hy, rfl, hmax⟩ := lastActive_spec hlast
  have hsame : p.participants[y.2]? = some y.1 := by
    refine List.mk_mem_zipIdx_iff_getElem?.1 ?_
    exact (List.mem_filter.1 (List.mem_filter.1 hy).1).1
  obtain rfl : y.1 = q := Option.some.inj (hsame.symm.trans hi)
  by_cases hactivity : x.hasActivity = true
  · obtain ⟨k, hk⟩ := List.mem_iff_getElem?.1 hx
    refine hmax (x, k) (List.mem_filter.2 ⟨List.mem_filter.2 ⟨?_, by simpa using hactive⟩, hactivity⟩)
    exact List.mk_mem_zipIdx_iff_getElem?.2 hk
  · have hempty : x.latestActivityAt.getD "" = "" := by
      simpa [ParticipantProjection.hasActivity] using hactivity
    rw [hempty]
    exact stringGt_empty _

end Marked

/-! ### What the sweep leaves behind -/

section Settled

variable {N : Type} {p q u : RunStateProjection N}

/-- The participants that have ended keep their status from `p` to `q`. -/
def KeepsEnded (p q : RunStateProjection N) : Prop :=
  ∀ x ∈ p.participants, x.status.terminal = true →
    ∃ y ∈ q.participants, y.participantId = x.participantId ∧ y.status = x.status

private theorem KeepsEnded.of_eq (h : q.participants = p.participants) : KeepsEnded p q :=
  fun x hx _ => ⟨x, h ▸ hx, rfl, rfl⟩

private theorem KeepsEnded.trans (h : KeepsEnded p q) (h' : KeepsEnded q u) : KeepsEnded p u := by
  intro x hx hended
  obtain ⟨y, hy, hid, hstatus⟩ := h x hx hended
  obtain ⟨z, hz, hid', hstatus'⟩ := h' y hy (hstatus ▸ hended)
  exact ⟨z, hz, hid'.trans hid, hstatus'.trans hstatus⟩

private theorem sweepTerminal_keepsEnded (p : RunStateProjection N) (outcome : RunStatus) :
    KeepsEnded p (sweepTerminal p outcome) := by
  intro x hx hended
  obtain ⟨i, hi⟩ := List.mem_iff_getElem?.1 hx
  refine ⟨x, ?_, rfl, rfl⟩
  rw [sweepTerminal_participants]
  refine List.mem_map.2 ⟨(x, i), List.mk_mem_zipIdx_iff_getElem?.2 hi, if_pos hended⟩

private theorem ensureParticipant_keepsEnded (p : RunStateProjection N) (id : String) :
    KeepsEnded p (ensureParticipant p id) := by
  intro x hx _
  refine ⟨x, ?_, rfl, rfl⟩
  unfold ensureParticipant
  split
  · exact hx
  · exact List.mem_append_left _ hx

/-- Where the run has ended, an activity leaves the status of an ended participant alone. -/
theorem touchKnown_keepsEnded (hrun : terminalStatus p.run.status = true) (id ts : String)
    (status : ParticipantStatus) (summary : Option String) : KeepsEnded p (touchKnown p id ts status summary) := by
  intro x hx hended
  rcases mem_modifyFirst (p := fun q => q.participantId = id)
    (f := touched (isSettled p id) ts status summary) hx with hmem | ⟨hfind, hmem⟩
  · exact ⟨x, hmem, rfl, rfl⟩
  · have hsettled : isSettled p id = true := by simp [isSettled, hrun, hfind, hended]
    refine ⟨_, hmem, rfl, ?_⟩
    simp [touched, hsettled]

private theorem touchParticipant_keepsEnded (hrun : terminalStatus p.run.status = true) (id ts : String)
    (status : ParticipantStatus) (summary : Option String) :
    KeepsEnded p (touchParticipant p id ts status summary) := by
  by_cases hid : id = ""
  · unfold touchParticipant
    rw [if_pos hid]
    exact KeepsEnded.of_eq rfl
  · rw [touchParticipant_eq p hid]
    have hrun' : terminalStatus (ensureParticipant p id).run.status = true := by
      unfold ensureParticipant
      split <;> exact hrun
    exact (ensureParticipant_keepsEnded p id).trans (touchKnown_keepsEnded hrun' _ _ _ _)

namespace Reducer

private theorem touchRecipients_keepsEnded (hrun : terminalStatus p.run.status = true) (rs : List String)
    (ts : String) : KeepsEnded p (touchRecipients p rs ts) := by
  unfold touchRecipients
  induction rs generalizing p with
  | nil => exact KeepsEnded.of_eq rfl
  | cons r rs ih =>
    have htouch := touchParticipant_onlyGraph p r ts .waiting none
    exact (touchParticipant_keepsEnded hrun r ts _ _).trans (ih (htouch.run.symm ▸ hrun))

private theorem upsertEdges_participants (p : RunStateProjection N) (edges : List (String × String × String))
    (ts : String) : (upsertEdges p edges ts).participants = p.participants :=
  List.foldlRecOn edges _ (motive := fun q : RunStateProjection N => q.participants = p.participants) rfl
    fun _ h _ _ => h

private theorem sliceEdges_participants (n : Nat) (p : RunStateProjection N) :
    (sliceEdges n p).participants = p.participants := rfl

private theorem sessionSweep_keepsEnded (state : Option String) (p : RunStateProjection N) :
    KeepsEnded p (sessionSweep state p) := by
  unfold sessionSweep
  split
  · exact sweepTerminal_keepsEnded p _
  · split
    · exact sweepTerminal_keepsEnded p _
    · split
      · exact sweepTerminal_keepsEnded p _
      · exact KeepsEnded.of_eq rfl

variable [JsNumber N] {e : CanonicalEvent N}

private theorem lifecycleGraph_participants (p : RunStateProjection N) (sender messageType : String) (rs : List String)
    (decoded : Option (Json N)) (ts : String) :
    (lifecycleGraph p sender messageType rs decoded ts).participants = p.participants := by
  unfold lifecycleGraph
  dsimp only
  split
  · exact upsertEdges_participants _ _ _
  · split
    · exact upsertEdges_participants _ _ _
    · split
      · rfl
      · split <;> rfl

private theorem messageReceived_keepsEnded (hrun : terminalStatus p.run.status = true) :
    KeepsEnded p (messageReceived p e) := by
  have hsender := fun label => touchParticipant_keepsEnded hrun (messageSender e) e.ts .active (some label)
  have hrun' := fun label => (touchParticipant_onlyGraph p (messageSender e) e.ts .active (some label)).run.symm ▸ hrun
  have hgraph : ∀ (q : RunStateProjection N) messageType rs edges,
      KeepsEnded q (sliceEdges 300 (upsertEdges
        (lifecycleGraph q (messageSender e) messageType rs (decodedPayload e) e.ts) edges e.ts)) := by
    intro q messageType rs edges
    refine KeepsEnded.of_eq ?_
    rw [sliceEdges_participants, upsertEdges_participants, lifecycleGraph_participants]
  unfold messageReceived
  exact ((hsender _).trans (touchRecipients_keepsEnded (hrun' _) _ _)).trans (hgraph _ _ _ _)

private theorem messageSent_keepsEnded (hrun : terminalStatus p.run.status = true) :
    KeepsEnded p (messageSent p e) := by
  have hsender := touchParticipant_keepsEnded hrun (messageSender e) e.ts .active
    (some (stringOr (e.datum "messageType") e.type.name))
  have hrun' := (touchParticipant_onlyGraph p (messageSender e) e.ts .active
    (some (stringOr (e.datum "messageType") e.type.name))).run.symm ▸ hrun
  refine (hsender.trans (touchRecipients_keepsEnded hrun' (explicitRecipients e) e.ts)).trans (KeepsEnded.of_eq ?_)
  unfold messageSent
  dsimp only
  rw [sliceEdges_participants]

/-- While the run has ended, no event changes the status of an ended participant. -/
theorem dispatch_keepsEnded (r : String) (hrun : terminalStatus p.run.status = true) (e : CanonicalEvent N) :
    KeepsEnded p (dispatch r p e) := by
  unfold dispatch
  cases e.type with
  | runCompleted => exact sweepTerminal_keepsEnded { p with run := lifecycleSummary r p.run e } _
  | runFailed => exact sweepTerminal_keepsEnded { p with run := lifecycleSummary r p.run e } .failed
  | runCancelled => exact sweepTerminal_keepsEnded { p with run := lifecycleSummary r p.run e } .cancelled
  | sessionBound | sessionStateChanged => exact sessionSweep_keepsEnded _ (sessionUpdate p e)
  | participantSeen => exact ensureParticipant_keepsEnded p _
  | messageSent => exact messageSent_keepsEnded hrun
  | messageReceived => exact messageReceived_keepsEnded hrun
  | proposalCreated | proposalUpdated =>
    obtain ⟨policy, h⟩ := proposal_eq p e
    dsimp only
    rw [h]
    exact KeepsEnded.of_eq rfl
  | signalEmitted | progressReported | policyCommitmentEvaluated =>
    refine KeepsEnded.of_eq ?_
    dsimp only [signalEmitted, progressReported, policyCommitmentEvaluated]
  | _ => exact KeepsEnded.of_eq rfl

end Reducer

end Settled

/-! ### The status of the run -/

section Status

variable {N : Type}

/-- The outcome that a terminal run event sweeps with. -/
def terminalOutcome : CanonicalEventType → Option RunStatus
  | .runCompleted => some .completed
  | .runFailed => some .failed
  | .runCancelled => some .cancelled
  | _ => none

/-- A terminal run event carries its status. -/
def CarriesStatus (e : CanonicalEvent N) : Prop :=
  ∀ outcome, terminalOutcome e.type = some outcome → e.datum "status" = some outcome.json

/-- The events that can give an ended run another status. -/
def reopening : List CanonicalEventType := [.runCreated, .runStarted, .runSuspended, .runResumed]

private theorem terminalOutcome_json {type : CanonicalEventType} {outcome : RunStatus}
    (h : terminalOutcome type = some outcome) : terminalStatus (outcome.json : Json N) = true := by
  unfold terminalOutcome at h
  split at h <;> cases h <;> rfl

namespace Reducer

private theorem eventStatus_terminal (status : Json N) {e : CanonicalEvent N} {outcome : RunStatus}
    (hcarries : CarriesStatus e) (h : terminalOutcome e.type = some outcome) :
    terminalStatus (eventStatus status e) = true := by
  unfold eventStatus
  rw [hcarries outcome h]
  exact terminalOutcome_json h

private theorem sessionStatus_terminal {status : Json N} (h : terminalStatus status = true) (state : Option String) :
    terminalStatus (sessionStatus state status) = true := by
  unfold sessionStatus
  split
  · rfl
  · split
    · rfl
    · split
      · rfl
      · split
        · exact h
        · split
          · have hnot : status.is "suspended" = false := by
              by_contra hsuspended
              rw [Bool.not_eq_false, Json.is_iff] at hsuspended
              rw [hsuspended] at h
              cases h
            rwa [hnot, if_neg Bool.false_ne_true]
          · exact h

variable [JsNumber N] {run : RunSummaryProjection N} {e : CanonicalEvent N} {outcome : RunStatus}

private theorem runStep_terminal_of_outcome (r : String) (hcarries : CarriesStatus e)
    (h : terminalOutcome e.type = some outcome) : terminalStatus (runStep r run e).status = true := by
  have hevent := eventStatus_terminal run.status hcarries h
  unfold runStep
  cases htype : e.type <;> rw [htype] at h <;> first | exact hevent | cases h

/-- An ended run stays ended. -/
theorem runStep_terminal (r : String) (hcarries : CarriesStatus e) (hkept : e.type ∉ reopening)
    (hrun : terminalStatus run.status = true) : terminalStatus (runStep r run e).status = true := by
  have houtcome := fun outcome (h : terminalOutcome e.type = some outcome) => eventStatus_terminal run.status hcarries h
  unfold runStep
  cases htype : e.type with
  | runCreated | runStarted | runSuspended | runResumed => simp [reopening, htype] at hkept
  | runCompleted => exact houtcome .completed (by simp [terminalOutcome, htype])
  | runFailed => exact houtcome .failed (by simp [terminalOutcome, htype])
  | runCancelled => exact houtcome .cancelled (by simp [terminalOutcome, htype])
  | sessionBound | sessionStateChanged => exact sessionStatus_terminal hrun _
  | messageReceived =>
    dsimp only
    split
    · unfold suspendLimit
      dsimp only
      split <;> exact hrun
    · exact hrun
  | decisionFinalized => rfl
  | _ => exact hrun

/-- While no event reopens the run, the ended participants keep their status. -/
theorem foldl_keepsEnded (r : String) {p : RunStateProjection N} {fs : List (CanonicalEvent N)}
    (hrun : terminalStatus p.run.status = true) (hcarries : ∀ f ∈ fs, CarriesStatus f)
    (hkept : ∀ f ∈ fs, f.type ∉ reopening) : KeepsEnded p (fs.foldl (applyEvent r) p) := by
  induction fs generalizing p with
  | nil => exact KeepsEnded.of_eq rfl
  | cons f fs ih =>
    obtain ⟨hf, hcarries⟩ := List.forall_mem_cons.1 hcarries
    obtain ⟨hf', hkept⟩ := List.forall_mem_cons.1 hkept
    have hstep : KeepsEnded p (applyEvent r p f) := dispatch_keepsEnded (p := track p f) r hrun f
    have hrun' : terminalStatus (applyEvent r p f).run.status = true := by
      rw [applyEvent_run]
      exact runStep_terminal r hf hf' hrun
    exact hstep.trans (ih hrun' hcarries hkept)

/-- What a terminal run event leaves of the participants: its sweep. -/
theorem participants_terminalEvent (r : String) (p : RunStateProjection N)
    (h : terminalOutcome e.type = some outcome) :
    (applyEvent r p e).participants = (sweepTerminal p outcome).participants := by
  unfold applyEvent dispatch
  unfold terminalOutcome at h
  split at h <;> cases h <;> rename_i htype <;> rw [htype] <;> rfl

end Reducer

end Status

open Reducer

/-- The participant with this id, and its node, show this status. -/
def ShowsStatus {N : Type} (p : RunStateProjection N) (id : String) (status : ParticipantStatus) : Prop :=
  (∃ q ∈ p.participants, q.participantId = id) ∧ (∀ q ∈ p.participants, q.participantId = id → q.status = status) ∧
    (∃ n ∈ p.graph.nodes, n.id = id) ∧ ∀ n ∈ p.graph.nodes, n.id = id → n.status = status.name

private theorem Shaped.showsStatus {N : Type} {p : RunStateProjection N} (hp : Shaped p) {q : ParticipantProjection}
    (hq : q ∈ p.participants) : ShowsStatus p q.participantId q.status := by
  refine ⟨⟨q, hq, rfl⟩, fun q' hq' hid => ?_, ⟨q.node, hp.node_mem hq, rfl⟩, fun n hn hid => ?_⟩
  · rw [List.inj_on_of_nodup_map hp.participants_nodup hq' hq hid]
  · rw [List.inj_on_of_nodup_map hp.nodes_nodup hn (hp.node_mem hq) hid]
    rfl

variable {N : Type} [JsNumber N]

/-- After a terminal run event no participant is idle, active or waiting; the sweep has marked at most one as failed,
in a failed run and with the latest activity; and until an event reopens the run, the participants and their nodes stay
as the sweep has left them. -/
theorem sweep_on_termination (runId : String) (es fs : List (CanonicalEvent N)) {e : CanonicalEvent N}
    (hfree : ∀ f ∈ es ++ e :: fs, ∀ id ∈ namedParticipants f, id ∉ reservedNodes)
    (hcarries : ∀ f ∈ es ++ e :: fs, CarriesStatus f)
    (he : e.type ∈ [.runCompleted, .runFailed, .runCancelled]) (hkept : ∀ f ∈ fs, f.type ∉ reopening) :
    let before := applyEvents (.empty runId) es
    let after := applyEvents (.empty runId) (es ++ [e])
    let later := applyEvents (.empty runId) (es ++ e :: fs)
    (∀ q ∈ after.participants, q.status ∉ [.idle, .active, .waiting]) ∧
      (∀ q, MarkedFailed before.participants after.participants q →
        e.type = .runFailed ∧
          (∀ x ∈ before.participants, x.status.terminal = false →
            stringGt (x.latestActivityAt.getD "") (q.latestActivityAt.getD "") = false) ∧
          ∀ q', MarkedFailed before.participants after.participants q' → q' = q) ∧
      ∀ q ∈ after.participants,
        ShowsStatus after q.participantId q.status ∧ ShowsStatus later q.participantId q.status := by
  intro before after later
  obtain ⟨outcome, houtcome⟩ : ∃ outcome, terminalOutcome e.type = some outcome := by
    simp only [List.mem_cons, List.not_mem_nil, or_false] at he
    rcases he with he | he | he <;> rw [he] <;> exact ⟨_, rfl⟩
  have hafter : after = applyEvent runId before e := List.foldl_append
  have hlater : later = fs.foldl (applyEvent runId) after := by
    rw [hafter]
    exact List.foldl_append
  have hsplit : ∀ f ∈ es ++ [e], f ∈ es ++ e :: fs := by
    intro f hf
    rcases List.mem_append.1 hf with hf | hf
    · exact List.mem_append_left _ hf
    · exact List.mem_append_right _ (List.mem_cons.2 (.inl (List.mem_singleton.1 hf)))
  have hbeforeShaped : Shaped before := applyEvents_shaped runId fun f hf => hfree f (List.mem_append_left _ hf)
  have hafterShaped : Shaped after := applyEvents_shaped runId fun f hf => hfree f (hsplit f hf)
  have hlaterShaped : Shaped later := applyEvents_shaped runId hfree
  have hswept : after.participants = (sweepTerminal before outcome).participants := by
    rw [hafter]
    exact participants_terminalEvent runId before houtcome
  have hended : ∀ q ∈ after.participants, q.status.terminal = true := by
    intro q hq
    rw [hswept, sweepTerminal_participants] at hq
    obtain ⟨x, -, rfl⟩ := List.mem_map.1 hq
    exact swept_terminal _ x
  have hrun : terminalStatus after.run.status = true := by
    rw [hafter, applyEvent_run]
    exact runStep_terminal_of_outcome runId (hcarries e (by simp)) houtcome
  refine ⟨fun q hq => ?_, fun q hq => ?_, fun q hq => ⟨hafterShaped.showsStatus hq, ?_⟩⟩
  · have hterminal := hended q hq
    revert hterminal
    cases q.status <;> decide
  · rw [hswept] at hq ⊢
    obtain ⟨hfailed, hlatest⟩ := markedFailed_latest hbeforeShaped hq
    refine ⟨?_, hlatest, fun q' hq' => markedFailed_unique hbeforeShaped hq' hq⟩
    rw [hfailed] at houtcome
    simp only [List.mem_cons, List.not_mem_nil, or_false] at he
    rcases he with he | he | he
    · rw [he] at houtcome; cases houtcome
    · exact he
    · rw [he] at houtcome; cases houtcome
  · have hkeeps : KeepsEnded after later := by
      rw [hlater]
      refine foldl_keepsEnded runId hrun (fun f hf => hcarries f ?_) hkept
      exact List.mem_append_right _ (List.mem_cons_of_mem _ hf)
    obtain ⟨y, hy, hid, hstatus⟩ := hkeeps q hq (hended q hq)
    rw [← hid, ← hstatus]
    exact hlaterShaped.showsStatus hy

/-- The run has failed. -/
def runFailedEvent : CanonicalEvent (Option Rat) where
  id := "event"
  runId := "run"
  seq := 2
  ts := "2026-01-01T00:00:01.000Z"
  type := .runFailed
  source := { kind := .macpControlPlane, name := "macp-control-plane" }
  data := [("status", .str "failed")]

private theorem carriesStatus_runFailedEvent : CarriesStatus runFailedEvent := by
  rintro outcome h
  cases h
  rfl

/-- A proposal, the failure of the run, and a late message of the same participants. -/
theorem sweep_on_termination_late_message :
    ShowsStatus (applyEvents (.empty "run") ([proposalReceived] ++ runFailedEvent :: [proposalReceived])) "reviewer"
      .failed := by
  have hlate : CarriesStatus proposalReceived := fun _ h => by cases h
  have h := sweep_on_termination "run" [proposalReceived] [proposalReceived] (e := runFailedEvent)
    (by decide) (by simp [hlate, carriesStatus_runFailedEvent]) (by decide) (by decide)
  have hreviewer : (applyEvents (.empty "run") ([proposalReceived] ++ [runFailedEvent])).participants[1]? =
      some ⟨"reviewer", none, .failed, some "2026-01-01T00:00:00.000Z", none⟩ := by decide
  exact (h.2.2 _ (List.mem_of_getElem? hreviewer)).2

end MacpControlPlane

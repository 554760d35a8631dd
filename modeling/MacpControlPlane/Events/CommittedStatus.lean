import MacpControlPlane.Events.CommittedProjection
import MacpControlPlane.Events.RuntimeFrames

/-!
# The status of the committed log

What the committed transactions of a run say of its end, without the events of the frames: a frame of the runtime says
something of the status only if it is a snapshot of the session or an envelope with a commitment, and nothing of the
end; the rest comes from the events of the control plane.  The stored projection shows just that, in whatever order the
transactions have come, with rebuilds between them (`stored_end_eq`), so that no frame takes a run back that has
ended.
-/

namespace MacpControlPlane

open Js EventRepository EventNormalizer CommitmentVerification

variable {N : Type} {runId : String}

/-! ### What events say of the end of a run -/

/-- The fields of a run summary that tell about the end of the run. -/
structure RunEnd (N : Type) where
  status : Json N
  endedAt : Option (Json N)

def RunSummaryProjection.runEnd (run : RunSummaryProjection N) : RunEnd N := ⟨run.status, run.endedAt⟩

namespace RunEnd

/-- After an event of this type with these data. -/
def step (x : RunEnd N) (c : CanonicalEventType × JsonObject N) : RunEnd N :=
  match c.1 with
  | .runCreated | .runStarted | .runCompleted | .runFailed | .runCancelled =>
    ⟨(defined (JsonObject.prop c.2 "status")).getD x.status, coalesce (JsonObject.prop c.2 "endedAt") x.endedAt⟩
  | .runSuspended | .runResumed => { x with status := (defined (JsonObject.prop c.2 "status")).getD x.status }
  | .sessionBound | .sessionStateChanged =>
    { x with status := Reducer.sessionStatus (asString (JsonObject.prop c.2 "state")) x.status }
  | .decisionFinalized => { x with status := RunStatus.completed.json }
  | _ => x

end RunEnd

private theorem runEnd_runStep [JsNumber N] (r : String) (run : RunSummaryProjection N) (e : CanonicalEvent N) :
    (Reducer.runStep r run e).runEnd = run.runEnd.step (content e) := by
  unfold Reducer.runStep RunEnd.step content
  cases e.type with
  | messageReceived =>
    dsimp only [Reducer.suspendLimit]
    split
    · split <;> rfl
    · rfl
  | _ => rfl

private theorem runEnd_applyEvents [JsNumber N] (p : RunStateProjection N) (es : List (CanonicalEvent N)) :
    (applyEvents p es).run.runEnd = (es.map content).foldl RunEnd.step p.run.runEnd := by
  rw [applyEvents_run, List.foldl_map]
  exact (List.foldl_hom RunSummaryProjection.runEnd fun run e => (runEnd_runStep p.run.runId run e).symm).symm

namespace RunEnd

/-- The types of the events that say something. -/
def types : List CanonicalEventType :=
  [.runCreated, .runStarted, .runCompleted, .runFailed, .runCancelled, .runSuspended, .runResumed, .sessionBound,
    .sessionStateChanged, .decisionFinalized]

private theorem step_of_notMem {c : CanonicalEventType × JsonObject N} (h : c.1 ∉ types) (x : RunEnd N) :
    x.step c = x := by
  unfold step
  revert h
  cases c.1 <;> first | exact fun _ => rfl | exact fun h => absurd (by decide) h

private theorem foldl_step_of_notMem {cs : List (CanonicalEventType × JsonObject N)} (h : ∀ c ∈ cs, c.1 ∉ types)
    (x : RunEnd N) : cs.foldl step x = x := by
  induction cs with
  | nil => rfl
  | cons c cs ih =>
    rw [List.forall_mem_cons] at h
    rw [List.foldl_cons, step_of_notMem h.1, ih h.2]

/-- After a decision. -/
def complete (x : RunEnd N) : RunEnd N := { x with status := RunStatus.completed.json }

/-- Of the events of an envelope only the decision says something. -/
theorem foldl_step_envelope {cs : List (CanonicalEventType × JsonObject N)} (h : ∀ c ∈ cs, c.1 ∈ envelopeTypes)
    (x : RunEnd N) : cs.foldl step x = if cs.any (·.1 = .decisionFinalized) then x.complete else x := by
  induction cs generalizing x with
  | nil => rfl
  | cons c cs ih =>
    rw [List.forall_mem_cons] at h
    rw [List.foldl_cons, ih h.2, List.any_cons]
    by_cases hfinal : c.1 = .decisionFinalized
    · have hstep : x.step c = x.complete := by
        unfold step
        rw [hfinal]
        rfl
      rw [hstep, decide_eq_true hfinal, Bool.true_or, if_pos rfl]
      exact ite_self _
    · have hother : ∀ type ∈ envelopeTypes, type ≠ .decisionFinalized → type ∉ types := by decide
      rw [step_of_notMem (hother c.1 h.1 hfinal), decide_eq_false hfinal, Bool.false_or]

end RunEnd

/-! ### What a frame says -/

/-- After a frame, as the consumers of the streams take it. -/
def RawRuntimeEvent.runEnd {B : Type} (raw : RawRuntimeEvent (RuntimeEnvelope B N)) (x : RunEnd N) : RunEnd N :=
  match raw.kind with
  | .sessionSnapshot =>
    match raw.sessionState with
    | some state => { x with status := Reducer.sessionStatus (some state) x.status }
    | none => x
  | .streamEnvelope => if raw.envelope.any (·.messageType = "Commitment") then x.complete else x
  | _ => x

section Frames

variable [JsNumber N] {codec : Codec (List UInt8) N} {patterns : List (String → String)} {ctx : EventContext}
  {runtimeSessionId : String} {known : List String}

/-- An envelope makes a decision if and only if it has a commitment. -/
theorem any_finalized_normalizeEnvelope {envelope : RuntimeEnvelope (List UInt8) N}
    {senderAuthenticated : Option Bool} :
    ((normalizeEnvelope codec patterns ctx known envelope senderAuthenticated).1.map content).any
      (·.1 = .decisionFinalized) = decide (envelope.messageType = "Commitment") := by
  have hmessage : ∀ msg : Incoming (List UInt8) N,
      ((messageEvents msg codec patterns).map content).any (·.1 = .decisionFinalized) =
        decide (msg.envelope.messageType = "Commitment") := by
    intro msg
    rw [Bool.eq_iff_iff, List.any_map, List.any_eq_true, decide_eq_true_iff]
    constructor
    · rintro ⟨e, he, htype⟩
      replace htype : e.type = .decisionFinalized := of_decide_eq_true htype
      rw [mem_messageEvents_iff, mem_policyEvents_iff, mem_progressEvents_iff] at he
      rcases he with rfl | ⟨llm, -, rfl⟩ | ⟨type, hderived, rfl⟩ | htask |
        (⟨decoded, -, -, rfl⟩ | ⟨decoded, -, -, rfl⟩ | ⟨-, rfl⟩) | ⟨-, rfl⟩
      case inr.inr.inl =>
        replace htype : type = .decisionFinalized := htype
        exact deriveEventType_eq_finalized.1 (htype ▸ hderived)
      case inr.inr.inr.inl => rcases mem_taskEvents htask with ⟨progress, -, rfl⟩ | rfl | rfl <;> exact nomatch htype
      all_goals exact nomatch htype
    · intro hcommitment
      refine ⟨derived msg .decisionFinalized, ?_, rfl⟩
      rw [mem_messageEvents_iff]
      exact Or.inr (Or.inr (Or.inl ⟨_, deriveEventType_eq_finalized.2 hcommitment, rfl⟩))
  unfold normalizeEnvelope
  dsimp only
  split
  · exact hmessage _
  · exact hmessage _

/-- The events of a frame say what the frame says. -/
theorem foldl_normalize (frame : RuntimeFrame N) (x : RunEnd N) :
    ((EventNormalizer.normalize codec patterns ctx runtimeSessionId known frame).1.map content).foldl RunEnd.step x =
      (frame.raw ctx.ts).runEnd x := by
  cases frame with
  | streamStatus status detail => rfl
  | sessionSnapshot snapshot => cases snapshot <;> rfl
  | sendAck ack =>
    cases ack with
    | none => rfl
    | some ack =>
      refine RunEnd.foldl_step_of_notMem (List.forall_mem_map.2 fun e he => ?_) x
      show e.type ∉ RunEnd.types
      rcases (mem_ackEvents he).2 with htype | htype <;> rw [htype] <;> decide
  | streamInlineError error =>
    cases error with
    | none => rfl
    | some error =>
      refine RunEnd.foldl_step_of_notMem (List.forall_mem_map.2 fun e he => ?_) x
      show e.type ∉ RunEnd.types
      rcases (mem_inlineErrorEvents he).2 with htype | htype <;> rw [htype] <;> decide
  | streamEnvelope envelope senderAuthenticated =>
    cases envelope with
    | none => rfl
    | some envelope =>
      rw [EventNormalizer.normalize, RunEnd.foldl_step_envelope (List.forall_mem_map.2 type_normalizeEnvelope),
        any_finalized_normalizeEnvelope]
      rfl

end Frames

/-! ### What a run says -/

/-- After a transaction. -/
def RunTxn.runEnd {B : Type} (x : RunEnd N) : RunTxn N (RuntimeEnvelope B N) runId → RunEnd N
  | .emit events _ _ _ => events.foldl (fun x e => x.step (e.type, e.data)) x
  | .persist _ raw _ _ _ _ _ => raw.runEnd x
  | .rebuild => x

/-- After transactions of a new run. -/
def RunEnd.afterTxns [JsNumber N] {B : Type} (txns : List (RunTxn N (RuntimeEnvelope B N) runId)) : RunEnd N :=
  txns.foldl RunTxn.runEnd (RunStateProjection.empty runId).run.runEnd

/-- What the transaction persists are a frame and the events that `normalize` makes of it. -/
def RunTxn.OfFrame [JsNumber N] (codec : Codec (List UInt8) N) (patterns : List (String → String)) :
    RunTxn N (RuntimeEnvelope (List UInt8) N) runId → Prop
  | .persist _ raw events _ _ _ _ => ∃ ctx runtimeSessionId known frame,
      raw = RuntimeFrame.raw ctx.ts frame ∧
        events = (EventNormalizer.normalize codec patterns ctx runtimeSessionId known frame).1
  | _ => True

/-- The transaction that persists a frame. -/
def RunTxn.persistFrame [JsNumber N] (codec : Codec (List UInt8) N) (ctx : EventContext) (rawId : String)
    (frame : RuntimeFrame N) : RunTxn N (RuntimeEnvelope (List UInt8) N) ctx.runId :=
  .persist rawId (frame.raw ctx.ts) (EventNormalizer.normalize codec [] ctx "s1" [] frame).1 (run_normalize frame) none
    toString (some 1)

/-- A status that says that the run has ended stays one through a frame, as does the time of the end. -/
theorem RawRuntimeEvent.terminal_runEnd {B : Type} (raw : RawRuntimeEvent (RuntimeEnvelope B N)) {x : RunEnd N}
    (h : terminalStatus x.status = true) :
    terminalStatus (raw.runEnd x).status = true ∧ (raw.runEnd x).endedAt = x.endedAt := by
  have hstate : ∀ state, terminalStatus (Reducer.sessionStatus state x.status) = true := by
    intro state
    have hsuspended : x.status.is "suspended" = false := by
      unfold terminalStatus at h
      cases hstatus : x.status with
      | str status =>
        rw [hstatus] at h
        by_contra hsuspended
        simp [Json.is] at h hsuspended
        simp [hsuspended] at h
      | _ => rfl
    unfold Reducer.sessionStatus
    rw [if_pos h, hsuspended, if_neg Bool.false_ne_true]
    split_ifs <;> first | exact h | rfl
  unfold RawRuntimeEvent.runEnd
  split
  · split
    · exact ⟨hstate _, rfl⟩
    · exact ⟨h, rfl⟩
  · split
    · exact ⟨rfl, rfl⟩
    · exact ⟨h, rfl⟩
  · exact ⟨h, rfl⟩

/-- The run is shown to have ended as its consumer has it end. -/
theorem sessionStatus_of_terminalStatus {state : String} {outcome : RunStatus}
    (h : StreamConsumer.terminalStatus state = some outcome) (status : Json N) :
    Reducer.sessionStatus (some state) status = outcome.json := by
  unfold StreamConsumer.terminalStatus at h
  split_ifs at h with hresolved hexpired hcancelled
  · rw [← Option.some.inj h, hresolved]
    rfl
  · rw [← Option.some.inj h, hexpired]
    rfl
  · rw [← Option.some.inj h, hcancelled]
    rfl

section Run

variable [JsNumber N] {codec : Codec (List UInt8) N} {patterns : List (String → String)} {session : Option SessionRow}
  {txns : List (RunTxn N (RuntimeEnvelope (List UInt8) N) runId)}

private theorem foldl_contents {t : RunTxn N (RuntimeEnvelope (List UInt8) N) runId} (h : t.OfFrame codec patterns)
    (x : RunEnd N) : (contents t).foldl RunEnd.step x = t.runEnd x := by
  cases t with
  | emit events hne runCtx uuid => exact List.foldl_map
  | persist rawId raw events hevents runCtx uuid cursor =>
    obtain ⟨ctx, runtimeSessionId, known, frame, rfl, rfl⟩ := h
    exact foldl_normalize frame x
  | rebuild => rfl

/-- The events that the stored projection folds have the contents that the transactions have appended. -/
theorem content_foldedEvents (h : DistinctIds txns) :
    (foldedEvents session txns).map content = txns.flatMap contents := by
  rw [← content_afterTxns session h]
  have hrows := (holdsFold_afterTxns session h).rows
  generalize foldedEvents session txns = es, (afterTxns (.created session) txns).canonical = rows
    at hrows ⊢
  induction hrows with
  | nil => rfl
  | cons hread _ ih =>
    rw [List.map_cons, List.map_cons, ih]
    rcases hread with rfl | rfl <;> rfl

/-- The fold of these events says what the transactions say. -/
theorem runEnd_foldedEvents (h : DistinctIds txns) (hframes : ∀ t ∈ txns, t.OfFrame codec patterns) :
    (applyEvents (.empty runId) (foldedEvents session txns)).run.runEnd = RunEnd.afterTxns txns := by
  rw [runEnd_applyEvents, content_foldedEvents h, List.foldl_flatMap, RunEnd.afterTxns]
  exact List.foldl_ext _ _ _ fun x t ht => foldl_contents (hframes t ht) x

/-- Once the run is shown to have ended, frames and rebuilds leave it so. -/
theorem terminal_afterTxns {before after : List (RunTxn N (RuntimeEnvelope (List UInt8) N) runId)}
    (hterminal : terminalStatus (RunEnd.afterTxns before).status = true)
    (hafter : ∀ events h runCtx uuid, RunTxn.emit events h runCtx uuid ∉ after) :
    terminalStatus (RunEnd.afterTxns (before ++ after)).status = true ∧
      (RunEnd.afterTxns (before ++ after)).endedAt = (RunEnd.afterTxns before).endedAt := by
  induction after using List.reverseRecOn with
  | nil =>
    rw [List.append_nil]
    exact ⟨hterminal, rfl⟩
  | append_singleton after t ih =>
    obtain ⟨hstatus, hended⟩ := ih fun events h runCtx uuid hmem =>
      hafter events h runCtx uuid (List.mem_append_left _ hmem)
    rw [← List.append_assoc, RunEnd.afterTxns, List.foldl_concat]
    cases t with
    | emit events h runCtx uuid =>
      exact absurd (List.mem_append_right _ (List.mem_singleton_self _)) (hafter events h runCtx uuid)
    | persist rawId raw events hevents runCtx uuid cursor =>
      obtain ⟨hkeeps, hkeepsEnded⟩ := raw.terminal_runEnd hstatus
      exact ⟨hkeeps, hkeepsEnded.trans hended⟩
    | rebuild => exact ⟨hstatus, hended⟩

/-- In every state that any interleaving of the transactions of a run reaches, with any of them rolled back at any time,
where what is persisted are frames with the events that `normalize` makes of them: once a transaction has committed, the
run that `get` returns has the status and the end that the committed transactions say, one after the other.  A session
that has ended shows the run ended as the consumer has it end, and once the run is shown to have ended no frame and no
rebuild shows it running again or moves its end. -/
theorem stored_end_eq {s : RowLock.State (RunData N (RuntimeEnvelope (List UInt8) N)) (Locals N)
      (RunTxn N (RuntimeEnvelope (List UInt8) N) runId)}
    (hs : (RowLock.machine RunTxn.program (.created session)).Reachable s) (hids : DistinctIds s.commits)
    (hframes : ∀ t ∈ s.commits, t.OfFrame codec patterns) (hne : s.commits ≠ []) :
    ∃ p, ProjectionService.get s.data.projection = some p ∧ p.run.runEnd = RunEnd.afterTxns s.commits ∧
      (∀ before rawId raw events hevents runCtx uuid cursor state outcome,
        s.commits = before ++ [RunTxn.persist rawId raw events hevents runCtx uuid cursor] →
        raw.kind = .sessionSnapshot → raw.sessionState = some state →
        StreamConsumer.terminalStatus state = some outcome → p.run.status = outcome.json) ∧
      ∀ before after, s.commits = before ++ after →
        (∀ events h runCtx uuid, RunTxn.emit events h runCtx uuid ∉ after) →
        terminalStatus (RunEnd.afterTxns before).status = true →
        terminalStatus p.run.status = true ∧ p.run.endedAt = (RunEnd.afterTxns before).endedAt := by
  have hdata : s.data = afterTxns (.created session) s.commits := RowLock.data_eq hs
  have hstored := (holdsFold_afterTxns session hids).stored
  have hfold := @runEnd_foldedEvents N runId _ codec patterns session s.commits hids hframes
  rw [← hdata] at hstored
  have hsome : s.data.projection ≠ none := by
    obtain ⟨init, t, hinit⟩ := (List.eq_nil_or_concat s.commits).resolve_left hne
    rw [hdata, hinit, List.concat_eq_append, afterTxns_concat]
    exact projection_ne_none _ t
  obtain ⟨row, hrow⟩ := Option.ne_none_iff_exists'.1 hsome
  rw [hrow, hstored row hrow, get_storedFold]
  refine ⟨_, rfl, hfold, ?_, ?_⟩
  · intro before rawId raw events hevents runCtx uuid cursor state outcome hcommits hkind hstate houtcome
    have hlast : (RunEnd.afterTxns s.commits).status = outcome.json := by
      rw [hcommits, RunEnd.afterTxns, List.foldl_concat, RunTxn.runEnd, RawRuntimeEvent.runEnd, hkind, hstate]
      exact sessionStatus_of_terminalStatus houtcome _
    exact (congrArg RunEnd.status hfold).trans hlast
  · intro before after hcommits hafter hterminal
    have hend := terminal_afterTxns hterminal hafter
    rw [← hcommits, ← hfold] at hend
    exact hend

end Run

/-- A session that is resolved after a rebuild. -/
theorem stored_end_eq_resolved :
    let persist := fun (rawId state : String) =>
      RunTxn.persistFrame textCodec ⟨"r1", "2026-10-24T00:00:00.000Z", fun _ => rawId⟩ rawId
        (.sessionSnapshot (some { sessionId := "s1", mode := "macp.mode.decision.v1", state }))
    ∃ s, (RowLock.machine RunTxn.program (.created none)).Reachable s ∧
      s.commits = [persist "raw1" "SESSION_STATE_OPEN", .rebuild, persist "raw2" "SESSION_STATE_RESOLVED"] ∧
      ∃ p, ProjectionService.get s.data.projection = some p ∧ p.run.status = RunStatus.completed.json := by
  intro persist
  obtain ⟨s, hs, -, hcommits⟩ : ∃ s, (RowLock.machine RunTxn.program (.created none)).Reachable s ∧ s.holder = none ∧
      s.commits = [persist "raw1" "SESSION_STATE_OPEN", .rebuild, persist "raw2" "SESSION_STATE_RESOLVED"] :=
    RowLock.exists_commits _
  have hids : DistinctIds s.commits := by
    rw [hcommits]
    exact ⟨by decide, by decide⟩
  have hframes : ∀ t ∈ s.commits, t.OfFrame textCodec [] := by
    rw [hcommits]
    simp only [List.forall_mem_cons]
    exact ⟨⟨_, _, _, _, rfl, rfl⟩, trivial, ⟨_, _, _, _, rfl, rfl⟩, List.forall_mem_nil _⟩
  have hne : s.commits ≠ [] := by
    rw [hcommits]
    exact List.cons_ne_nil _ _
  obtain ⟨p, hp, -, hended, -⟩ := stored_end_eq hs hids hframes hne
  have hstatus : p.run.status = RunStatus.completed.json :=
    hended [persist "raw1" "SESSION_STATE_OPEN", .rebuild] _ _ _ _ _ _ _ "SESSION_STATE_RESOLVED" .completed hcommits
      rfl rfl rfl
  exact ⟨s, hs, hcommits, p, hp, hstatus⟩

end MacpControlPlane

import MacpControlPlane.Events.NormalizedLog
import MacpControlPlane.Projection.Bounds

/-!
# The entries of an envelope

The reducer appends an entry to `progress.entries` for each `progress.reported`, and one to
`policy.commitmentEvaluations` for each `policy.commitment.evaluated`.  `normalize` makes such events by the message
type, and again by the blocks for tasks, policies and progress.
-/

namespace MacpControlPlane

open Js EventNormalizer

variable {B N : Type} [JsNumber N]

namespace Reducer

/-! ### What an event appends -/

/-- The entry of a `progress.reported`. -/
def progressEntry (event : CanonicalEvent N) : ProgressEntry N :=
  let progressPayload := event.datum "decodedPayload"
  { participantId := stringOr (event.datum "sender") ""
    percentage := safeOptionalNumber (coalesce (field progressPayload "percentage") (field progressPayload "progress"))
    message := some (stringOr (coalesce (field progressPayload "message") (field progressPayload "status")) "")
    ts := event.ts }

/-- The entry of a `policy.commitment.evaluated`. -/
def evaluation (event : CanonicalEvent N) : CommitmentEvaluation N :=
  let evalPayload := event.datum "decodedPayload"
  { commitmentId := stringOr (coalesce (field evalPayload "commitmentId") event.subjectId) ""
    decision := (defined (field evalPayload "decision")).getD (.str "allow")
    reasons := (defined (field evalPayload "reasons")).getD (.arr [])
    ts := event.ts }

/-- What an event appends to a list that has an entry for each event of a type. -/
def added {β : Type} (type : CanonicalEventType) (entry : CanonicalEvent N → β) (event : CanonicalEvent N) : List β :=
  if event.type = type then [entry event] else []

/-- What an event appends to `progress.entries`. -/
def progressAdded : CanonicalEvent N → List (ProgressEntry N) := added .progressReported progressEntry

/-- What an event appends to `policy.commitmentEvaluations`. -/
def evaluationsAdded : CanonicalEvent N → List (CommitmentEvaluation N) := added .policyCommitmentEvaluated evaluation

variable {r : String} {p : RunStateProjection N} {e : CanonicalEvent N}

private theorem progress_dispatch (h : p.progress.entries.length ≤ 100) :
    (dispatch r p e).progress.entries = sliceLast 100 (p.progress.entries ++ progressAdded e) := by
  by_cases hreported : e.type = .progressReported
  · simp only [dispatch, hreported, progressReported, progressAdded, added, if_true]
    rfl
  · have hadded : progressAdded e = [] := if_neg hreported
    rw [hadded, List.append_nil, sliceLast_of_length_le h]
    cases htype : e.type with
    | signalEmitted | signalAcknowledged => simp only [dispatch, htype, signalEmitted, signalAcknowledged]
    | progressReported => exact absurd htype hreported
    | _ => rw [(dispatch_signals_progress (by simp [htype]) (by simp [htype]) hreported).2]

private theorem evaluations_policyStep (h : p.policy.commitmentEvaluations.length ≤ 50) :
    (policyStep p e).commitmentEvaluations = sliceLast 50 (p.policy.commitmentEvaluations ++ evaluationsAdded e) := by
  by_cases hevaluated : e.type = .policyCommitmentEvaluated
  · simp only [policyStep, hevaluated, policyCommitmentEvaluated, evaluationsAdded, added, if_true]
    rfl
  · have hadded : evaluationsAdded e = [] := if_neg hevaluated
    rw [hadded, List.append_nil, sliceLast_of_length_le h]
    unfold policyStep
    cases htype : e.type with
    | policyCommitmentEvaluated => exact absurd htype hevaluated
    | proposalCreated | proposalUpdated => exact evaluations_proposal
    | runFailed | runCancelled =>
      dsimp only [settleQuorum]
      split <;> rfl
    | _ => rfl

/-- The lists hold the last of what the events have appended. -/
theorem entries_applyEvents (runId : String) (es : List (CanonicalEvent N)) :
    (applyEvents (.empty runId) es).progress.entries = sliceLast 100 (es.flatMap progressAdded) ∧
      (applyEvents (.empty runId) es).policy.commitmentEvaluations = sliceLast 50 (es.flatMap evaluationsAdded) := by
  constructor
  · exact foldl_sliceLast (fun p : RunStateProjection N => p.progress.entries) progressAdded
      (fun p e h => progress_dispatch (p := track p e) h) (s := .empty runId) (Nat.zero_le 100) es
  · refine foldl_sliceLast (fun p : RunStateProjection N => p.policy.commitmentEvaluations) evaluationsAdded
      (fun p e h => ?_) (s := .empty runId) (Nat.zero_le 50) es
    rw [applyEvent_policy]
    exact evaluations_policyStep (p := track p e) h

end Reducer

namespace EventNormalizer

open Reducer

/-! ### What an envelope appends -/

variable (codec : Codec B N) (patterns : List (String → String))

/-- What an envelope appends to `progress.entries`. -/
def progressOf (raw : RawEnvelope B N) : List (ProgressEntry N) :=
  (eventsOf codec patterns raw).flatMap progressAdded

/-- What an envelope appends to `policy.commitmentEvaluations`. -/
def evaluationsOf (raw : RawEnvelope B N) : List (CommitmentEvaluation N) :=
  (eventsOf codec patterns raw).flatMap evaluationsAdded

omit [JsNumber N] in
/-- The envelope reports progress. -/
def bearsProgress (raw : RawEnvelope B N) : Bool :=
  raw.envelope.messageType = "Progress" || raw.envelope.messageType = "TaskComplete" ||
    raw.envelope.messageType = "TaskFail" ||
    (raw.envelope.messageType = "TaskUpdate" && (field (raw.decoded codec) "progress").isSome)

omit [JsNumber N] in
/-- A `Progress` whose payload decodes reports for its message and for its sender. -/
def reportsTwice (raw : RawEnvelope B N) : Bool :=
  raw.envelope.messageType = "Progress" && (raw.decoded codec).isSome

omit [JsNumber N] in
/-- The envelope is the evaluation of a commitment. -/
def isEvaluation (raw : RawEnvelope B N) : Bool := raw.envelope.messageType = "PolicyCommitmentEvaluated"

private theorem deriveEventType_eq_progress {messageType : String} :
    deriveEventType messageType = some .progressReported ↔ messageType = "Progress" := by
  constructor
  · intro h
    unfold deriveEventType at h
    simp only [ite_eq_iff, Option.some.injEq, reduceCtorEq, and_false, false_or, or_false, and_true] at h
    exact h.2.2.2.2.2
  · rintro rfl
    decide

private theorem deriveEventType_eq_evaluated {messageType : String} :
    deriveEventType messageType = some .policyCommitmentEvaluated ↔ messageType = "PolicyCommitmentEvaluated" := by
  constructor
  · intro h
    unfold deriveEventType at h
    simp only [ite_eq_iff, Option.some.injEq, reduceCtorEq, and_false, false_or, or_false, and_true] at h
    exact h.2.2.2.2.2.2.2
  · rintro rfl
    decide

variable {codec patterns}

section Gathered

variable {β : Type} {type : CanonicalEventType} {entry : CanonicalEvent N → β} {es : List (CanonicalEvent N)}

omit [JsNumber N] in
/-- Where every event is of the type, each appends its entry. -/
theorem flatMap_added (hes : ∀ e ∈ es, e.type = type) : es.flatMap (added type entry) = es.map entry := by
  rw [List.map_eq_flatMap]
  exact List.flatMap_congr fun e he => if_pos (hes e he)

omit [JsNumber N] in
/-- Where none is, they append nothing. -/
theorem flatMap_added_nil (hes : ∀ e ∈ es, e.type ≠ type) : es.flatMap (added type entry) = [] := by
  rw [List.flatMap_eq_nil_iff]
  exact fun e he => if_neg (hes e he)

private theorem flatMap_derived (msg : Incoming B N) :
    ((deriveEventType msg.envelope.messageType).map (derived msg)).toList.flatMap (added type entry) =
      if deriveEventType msg.envelope.messageType = some type then [entry (derived msg type)] else [] := by
  cases hderived : deriveEventType msg.envelope.messageType with
  | none => rfl
  | some other =>
    rw [Option.map_some, Option.toList_some]
    by_cases heq : other = type
    · subst heq
      rw [if_pos rfl]
      exact flatMap_added (List.forall_mem_singleton.2 rfl)
    · rw [if_neg fun h => heq (Option.some.inj h)]
      exact flatMap_added_nil (List.forall_mem_singleton.2 heq)

/-- What the branches of `normalize` append, one after the other. -/
theorem flatMap_eventsOf (hreceived : type ≠ .messageReceived) (hllm : type ≠ .llmCallCompleted)
    (raw : RawEnvelope B N) :
    (eventsOf codec patterns raw).flatMap (added type entry) =
      (if deriveEventType raw.envelope.messageType = some type then [entry (derived (raw.incoming codec) type)]
          else []) ++
        (taskEvents (raw.incoming codec)).flatMap (added type entry) ++
        (policyEvents (raw.incoming codec)).flatMap (added type entry) ++
        (progressEvents (raw.incoming codec)).flatMap (added type entry) := by
  have hmessage : added type entry (messageReceived (raw.incoming codec) codec) = [] := if_neg hreceived.symm
  have hcall : ∀ call : Option (JsonObject N),
      ((call.map fun llm =>
        llmCallCompleted (raw.incoming codec) (RedactionService.redact patterns llm)).toList.flatMap
          (added type entry)) = [] := by
    intro call
    cases call with
    | none => rfl
    | some llm => exact flatMap_added_nil (List.forall_mem_singleton.2 hllm.symm)
  unfold eventsOf messageEvents
  rw [List.flatMap_cons, hmessage, List.nil_append, List.flatMap_append, List.flatMap_append, List.flatMap_append,
    List.flatMap_append, hcall, List.nil_append, flatMap_derived]
  rfl

end Gathered

/-! ### Tasks, policies and progress -/

private theorem type_taskEvents {msg : Incoming B N} : ∀ e ∈ taskEvents msg, e.type = .progressReported := by
  intro e he
  rcases mem_taskEvents he with ⟨progress, -, rfl⟩ | rfl | rfl <;> rfl

private theorem type_progressEvents {msg : Incoming B N} : ∀ e ∈ progressEvents msg, e.type = .progressReported := by
  intro e he
  obtain ⟨-, rfl⟩ := mem_progressEvents_iff.1 he
  rfl

private theorem type_policyEvents {msg : Incoming B N} : ∀ e ∈ policyEvents msg, e.type ≠ .progressReported := by
  intro e he
  rcases mem_policyEvents_iff.1 he with ⟨decoded, -, -, rfl⟩ | ⟨decoded, -, -, rfl⟩ | ⟨-, rfl⟩ <;> exact nofun

/-- The progress of an envelope: of its type, of its task, and of its sender. -/
theorem progressOf_eq (raw : RawEnvelope B N) :
    progressOf codec patterns raw =
      (if raw.envelope.messageType = "Progress" then
        [progressEntry (derived (raw.incoming codec) .progressReported)] else []) ++
        (taskEvents (raw.incoming codec)).map progressEntry ++
        (progressEvents (raw.incoming codec)).map progressEntry := by
  unfold progressOf progressAdded
  rw [flatMap_eventsOf (by decide) (by decide), flatMap_added type_taskEvents, flatMap_added type_progressEvents,
    flatMap_added_nil type_policyEvents, List.append_nil]
  simp only [deriveEventType_eq_progress]

private theorem length_taskEvents (raw : RawEnvelope B N) :
    (taskEvents (raw.incoming codec)).length =
      if raw.envelope.messageType ≠ "Progress" ∧ bearsProgress codec raw then 1 else 0 := by
  have hget : (raw.incoming codec).get "progress" = field (raw.decoded codec) "progress" := rfl
  have hmessage : (raw.incoming codec).envelope = raw.envelope := rfl
  unfold taskEvents bearsProgress
  rw [hget, hmessage]
  by_cases hupdate : raw.envelope.messageType = "TaskUpdate"
  · cases field (raw.decoded codec) "progress" <;> simp [hupdate]
  · by_cases hcomplete : raw.envelope.messageType = "TaskComplete"
    · simp [hcomplete]
    · by_cases hfail : raw.envelope.messageType = "TaskFail"
      · simp [hfail]
      · by_cases hprogress : raw.envelope.messageType = "Progress" <;> simp [hupdate, hcomplete, hfail, hprogress]

private theorem length_progressEvents (raw : RawEnvelope B N) :
    (progressEvents (raw.incoming codec)).length = if reportsTwice codec raw then 1 else 0 := by
  have hdecoded : (raw.decoded codec).isSome = (raw.incoming codec).decoded.isSome := Option.isSome_map
  unfold progressEvents reportsTwice
  rw [hdecoded]
  by_cases hprogress : raw.envelope.messageType = "Progress"
  · cases hsome : (raw.incoming codec).decoded.isSome <;> simp [RawEnvelope.incoming, hprogress]
  · simp [RawEnvelope.incoming, hprogress]

private theorem length_progressOf (raw : RawEnvelope B N) :
    (progressOf codec patterns raw).length =
      (if bearsProgress codec raw then 1 else 0) + if reportsTwice codec raw then 1 else 0 := by
  rw [progressOf_eq, List.length_append, List.length_append, List.length_map, List.length_map, length_taskEvents,
    length_progressEvents]
  congr 1
  by_cases hprogress : raw.envelope.messageType = "Progress"
  · simp [hprogress, bearsProgress]
  · simp [hprogress]

/-- The evaluations of an envelope: of its type, and of its policy block. -/
theorem length_evaluationsOf {raw : RawEnvelope B N} (hundecoded : isEvaluation raw = true → raw.decoded codec = none) :
    (evaluationsOf codec patterns raw).length = if isEvaluation raw then 1 else 0 := by
  have htasks : (taskEvents (raw.incoming codec)).flatMap evaluationsAdded = [] :=
    flatMap_added_nil fun e he => by rw [type_taskEvents e he]; decide
  have hprogress : (progressEvents (raw.incoming codec)).flatMap evaluationsAdded = [] :=
    flatMap_added_nil fun e he => by rw [type_progressEvents e he]; decide
  have hpolicy : (policyEvents (raw.incoming codec)).flatMap evaluationsAdded = [] := by
    refine flatMap_added_nil fun e he => ?_
    rcases mem_policyEvents_iff.1 he with ⟨decoded, -, -, rfl⟩ | ⟨decoded, hdecoded, htype, rfl⟩ | ⟨-, rfl⟩
    · exact nofun
    · have hnone := hundecoded (decide_eq_true htype)
      rw [RawEnvelope.decoded, Option.map_eq_none_iff] at hnone
      cases hdecoded.symm.trans hnone
    · exact nofun
  unfold evaluationsOf evaluationsAdded at *
  rw [flatMap_eventsOf (by decide) (by decide), htasks, hprogress, hpolicy, List.append_nil, List.append_nil,
    List.append_nil]
  simp only [deriveEventType_eq_evaluated, isEvaluation, decide_eq_true_eq]
  split <;> rfl

private theorem length_flatMap_progressOf (raws : List (RawEnvelope B N)) :
    (raws.flatMap (progressOf codec patterns)).length =
      raws.countP (bearsProgress codec) + raws.countP (reportsTwice codec) := by
  induction raws with
  | nil => rfl
  | cons raw raws ih =>
    rw [List.flatMap_cons, List.length_append, ih, length_progressOf, List.countP_cons, List.countP_cons]
    omega

private theorem length_flatMap_evaluationsOf {raws : List (RawEnvelope B N)}
    (hundecoded : ∀ raw ∈ raws, isEvaluation raw = true → raw.decoded codec = none) :
    (raws.flatMap (evaluationsOf codec patterns)).length = raws.countP isEvaluation := by
  induction raws with
  | nil => rfl
  | cons raw raws ih =>
    obtain ⟨hraw, hraws⟩ := List.forall_mem_cons.1 hundecoded
    rw [List.flatMap_cons, List.length_append, ih hraws, length_evaluationsOf hraw, List.countP_cons]
    omega

end EventNormalizer

open EventNormalizer Reducer

/-- The reducer keeps the last 100 progress entries of the envelopes.  An envelope has at most one, a `Progress` whose
payload decodes has two.  Of the evaluations it keeps the last 50, and an envelope has at most one. -/
theorem envelope_entries (codec : Codec B N) (patterns : List (String → String)) (known : List String)
    (runId : String) (raws : List (RawEnvelope B N)) :
    let p := applyEvents (.empty runId) (normalizeAll codec patterns known raws)
    (p.progress.entries = sliceLast 100 (raws.flatMap (progressOf codec patterns)) ∧
      (∀ raw ∈ raws, (progressOf codec patterns raw).length =
        (if bearsProgress codec raw then 1 else 0) + if reportsTwice codec raw then 1 else 0) ∧
      p.progress.entries.length = min 100 (raws.countP (bearsProgress codec) + raws.countP (reportsTwice codec))) ∧
    ((∀ raw ∈ raws, isEvaluation raw = true → raw.decoded codec = none) →
      p.policy.commitmentEvaluations = sliceLast 50 (raws.flatMap (evaluationsOf codec patterns)) ∧
        (∀ raw ∈ raws, (evaluationsOf codec patterns raw).length = if isEvaluation raw then 1 else 0) ∧
        p.policy.commitmentEvaluations.length = min 50 (raws.countP isEvaluation)) := by
  intro p
  obtain ⟨hprogress, hevaluations⟩ := entries_applyEvents runId (normalizeAll codec patterns known raws)
  have hseen : ∀ e : CanonicalEvent N, e.type = .participantSeen → progressAdded e = [] ∧ evaluationsAdded e = [] :=
    fun e he => ⟨if_neg (by rw [he]; decide), if_neg (by rw [he]; decide)⟩
  rw [flatMap_normalizeAll fun e he => (hseen e he).1] at hprogress
  rw [flatMap_normalizeAll fun e he => (hseen e he).2] at hevaluations
  refine ⟨⟨hprogress, fun raw _ => length_progressOf raw, ?_⟩, fun hundecoded => ⟨hevaluations, ?_, ?_⟩⟩
  · calc p.progress.entries.length
        = (sliceLast 100 (raws.flatMap (progressOf codec patterns))).length := congrArg List.length hprogress
      _ = min 100 (raws.countP (bearsProgress codec) + raws.countP (reportsTwice codec)) := by
        rw [length_sliceLast, length_flatMap_progressOf]
  · exact fun raw hraw => length_evaluationsOf (hundecoded raw hraw)
  · calc p.policy.commitmentEvaluations.length
        = (sliceLast 50 (raws.flatMap (evaluationsOf codec patterns))).length := congrArg List.length hevaluations
      _ = min 50 (raws.countP isEvaluation) := by rw [length_sliceLast, length_flatMap_evaluationsOf hundecoded]

/-- A text that stands for a progress report. -/
def halfway : WireText := ⟨"half", "aGFsZg==", none⟩

theorem envelope_entries_halfway :
    let p := applyEvents (.empty "r1")
      (normalizeAll halfway.codec [] [] [halfway.raw "Progress", halfway.raw "TaskComplete"])
    p.progress.entries.length = 3 ∧ p.policy.commitmentEvaluations.length = 0 := by
  have h := envelope_entries halfway.codec [] [] "r1" [halfway.raw "Progress", halfway.raw "TaskComplete"]
  have hundecoded : ∀ raw ∈ [halfway.raw "Progress", halfway.raw "TaskComplete"],
      isEvaluation raw = true → raw.decoded halfway.codec = none := by
    simp [isEvaluation, WireText.raw]
  exact ⟨h.1.2.2.trans (by decide), (h.2 hundecoded).2.2.trans (by decide)⟩

/-- One `Progress` makes two entries. -/
theorem progress_entered_twice :
    let p := applyEvents (.empty "r1") (normalizeAll halfway.codec [] [] [halfway.raw "Progress"])
    ¬ (progressOf halfway.codec [] (halfway.raw "Progress")).length ≤ 1 ∧
      p.progress.entries.length ≠ [halfway.raw "Progress"].countP (bearsProgress halfway.codec) := by
  decide

end MacpControlPlane

import MacpControlPlane.Projection.Conversions
import MacpControlPlane.Storage.EventTables

/-!
# What is converted of a payload (`events/event-normalizer.service.ts`, `projection/projection.service.ts`)

`normalize`, and then the reducer, hand fields of the payload to `String` and `Number`.  An object that comes with a
`toString` of its own makes them throw, before anything is written or in the middle of the transaction.
-/

namespace MacpControlPlane

open Js EventNormalizer

variable {B N : Type} [JsNumber N]

namespace Delivery

variable (d : Delivery B N) (finalized : Bool)

/-- The payload fields that `normalize` converts besides those of an LLM call; of each list the first field that is
there counts. -/
def normalizedFields : List (List String) :=
  d.idFields ++ if d.envelope.messageType = "Progress" then [["progress"], ["message"]] else []

/-- `normalize` does not throw. -/
def normalizes : Bool :=
  llmConverts (llmCandidates d.codec (d.decoded.map .obj)) &&
    d.normalizedFields.all fun keys => converts (firstField (d.decoded.map .obj) keys)

/-- `normalize` of the envelope, or `none` when it throws. -/
def normalize : Option (List (CanonicalEvent N)) := if d.normalizes then some d.events else none

/-- The payload fields that the reducer converts of the event that the message type stands for. -/
def derivedFields : CanonicalEventType → List (List String)
  | .signalEmitted => [["signalType"], ["confidence"]]
  | .signalAcknowledged => [["signalId", "signal_id"]]
  | .proposalCreated | .proposalUpdated =>
    [["confidence"], ["proposalId", "requestId"], ["vote", "recommendation"]] ++
      (if truthy (firstField (d.decoded.map .obj) ["vote", "recommendation"]) then []
      else [["action", "option", "revisedAction"]]) ++
      if finalized then [] else [["reason", "summary", "rationale"]]
  | .decisionFinalized => [["action"], ["confidence"], ["reason"], ["commitmentId"]]
  | .progressReported => [["percentage", "progress"], ["message", "status"]]
  | .policyResolved => [["policyVersion"], ["description"]]
  | .policyCommitmentEvaluated => [["commitmentId"]]
  | _ => []

/-- The payload fields that the reducer converts of all events of the envelope. -/
def appliedFields : List (List String) :=
  (if d.envelope.messageType = "SessionStart" then [["maxSuspendMs", "max_suspend_ms"]] else []) ++
  ((deriveEventType d.envelope.messageType).map (d.derivedFields finalized)).getD [] ++
  (if d.envelope.messageType = "TaskUpdate" ∧ (d.get "progress").isSome then [["progress"], ["status"]] else []) ++
  (if d.envelope.messageType = "TaskFail" then [["reason"]] else []) ++
  (if d.envelope.messageType = "PolicyResolved" then [["policyVersion", "policyId"], ["description"]] else []) ++
  if d.envelope.messageType = "PolicyCommitmentEvaluated" then [["commitmentId"]] else []

/-- Nothing of the payload that is converted throws. -/
structure Convertible : Prop where
  llm : llmConverts (llmCandidates d.codec (d.decoded.map .obj)) = true
  fields : ∀ keys ∈ d.normalizedFields ++ d.appliedFields finalized,
    converts (firstField (d.decoded.map .obj) keys) = true
  supersedes : deriveEventType d.envelope.messageType = some .decisionFinalized →
    ∀ keys ∈ [["sessionId", "session_id"], ["commitmentHash", "commitment_hash"]],
      converts (firstField (d.get "supersedes") keys) = true

/-! ### Fields that are converted -/

section Fields

variable {p : Option (Json N)}

omit [JsNumber N]

private theorem converts_field (k : String) : converts (field p k) = converts (firstField p [k]) := by
  rw [← converts_defined, defined_field]

private theorem converts_coalesce (k l : String) :
    converts (coalesce (field p k) (field p l)) = converts (firstField p [k, l]) := by
  rw [← converts_defined, defined_coalesce]

private theorem converts_coalesce₃ (k l m : String) :
    converts (coalesce (coalesce (field p k) (field p l)) (field p m)) = converts (firstField p [k, l, m]) := by
  have h : firstField p [k, l, m] = (firstField p [k, l]).or (firstField p [m]) := by
    unfold firstField
    cases hk : defined (field p k) <;> cases hl : defined (field p l) <;> simp [hk, hl]
  rw [coalesce_eq_or, defined_coalesce, h, ← defined_field]
  cases firstField p [k, l] with
  | none => exact (converts_defined _).symm
  | some v => rfl

private theorem truthy_coalesce [JsNumber N] (k l : String) :
    truthy (coalesce (field p k) (field p l)) = truthy (firstField p [k, l]) := by
  have h : ∀ x : Option (Json N), truthy (defined x) = truthy x := by
    rintro (_ | (_ | _ | _ | _ | _ | _)) <;> rfl
  rw [← h, defined_coalesce]

/-- A string in the place of what is missing converts. -/
theorem converts_coalesce_str (x : Option (Json N)) (s : String) :
    converts (coalesce x (some (.str s))) = converts x := by
  rcases x with _ | (_ | _ | _ | _ | _ | _) <;> rfl

end Fields

/-! ### What the reducer converts of each event -/

section Events

variable {d finalized}

private theorem converts_participantSeen :
    (Reducer.conversions finalized (participantSeen d.msg)).all converts = true := by
  simp [Reducer.conversions, participantSeen, Incoming.makeEvent, CanonicalEvent.datum, coalesce]

private theorem converts_messageReceived :
    (Reducer.conversions finalized (messageReceived d.msg d.codec)).all converts = true ↔
      (d.envelope.messageType = "SessionStart" →
        converts (firstField (d.decoded.map .obj) ["maxSuspendMs", "max_suspend_ms"]) = true) := by
  have htype : (messageReceived d.msg d.codec).datum "messageType" = some (.str d.envelope.messageType) := by
    simp [messageReceived, Incoming.makeEvent, CanonicalEvent.datum, Incoming.fullData, msg]
  have hsender : (messageReceived d.msg d.codec).datum "sender" = some (.str d.envelope.sender) := by
    simp [messageReceived, Incoming.makeEvent, CanonicalEvent.datum, Incoming.fullData, msg]
  have hpayload : Reducer.decodedPayload (messageReceived d.msg d.codec) =
      some (.obj (d.decoded.getD [("payloadBase64", .str (d.codec.toBase64 d.envelope.payload))])) := by
    have hnone : (messageReceived d.msg d.codec).datum "decodedPayload" = none := by
      simp [messageReceived, Incoming.makeEvent, CanonicalEvent.datum, Incoming.fullData, Incoming.senderAuth]
    rw [Reducer.decodedPayload, hnone, datum_messageReceived_payload]
    rfl
  have hfields : ∀ fields : JsonObject N,
      fields = d.decoded.getD [("payloadBase64", .str (d.codec.toBase64 d.envelope.payload))] →
      converts (coalesce (field (some (.obj fields)) "maxSuspendMs") (field (some (.obj fields)) "max_suspend_ms")) =
        converts (firstField (d.decoded.map .obj) ["maxSuspendMs", "max_suspend_ms"]) := by
    rintro fields rfl
    rw [converts_coalesce]
    cases d.decoded <;> rfl
  have hkind : (messageReceived d.msg d.codec).type = .messageReceived := rfl
  unfold Reducer.conversions
  rw [hkind]
  dsimp only
  rw [htype, hsender, hpayload]
  have hstring : stringOr (some (Json.str d.envelope.messageType) : Option (Json N)) "" = d.envelope.messageType := rfl
  have hfrom : ∀ x : Option (Json N), converts (coalesce (some (.str d.envelope.sender)) x) = true := fun _ => rfl
  rw [hstring, List.all_append, List.all_cons, List.all_cons, hfrom, converts_str]
  by_cases hstart : d.envelope.messageType = "SessionStart"
  · rw [if_pos hstart, List.all_cons, hfields _ rfl]
    simp [hstart]
  · rw [if_neg hstart]
    simp [hstart]

private theorem converts_llmCallCompleted {llm : JsonObject N}
    (h : llm ∈ extractLlmCall d.codec (d.decoded.map .obj)) :
    (Reducer.conversions finalized (llmCallCompleted d.msg (RedactionService.redact d.patterns llm))).all converts =
      true := by
  obtain ⟨c, -, rfl⟩ := Option.map_eq_some_iff.1 h
  have hpayload : (llmCallCompleted d.msg (RedactionService.redact d.patterns (llmCall c))).datum "decodedPayload" =
      some (.obj (RedactionService.redact d.patterns (llmCall c))) := by
    simp [llmCallCompleted, Incoming.makeEvent, CanonicalEvent.datum, Incoming.fullData, Incoming.senderAuth]
  have hsender : (llmCallCompleted d.msg (RedactionService.redact d.patterns (llmCall c))).datum "sender" =
      some (.str d.envelope.sender) := by
    simp [llmCallCompleted, Incoming.makeEvent, CanonicalEvent.datum, Incoming.fullData, msg]
  have hfield : ∀ k, k ≠ "__proto__" → (∀ v ∈ JsonObject.prop (llmCall c) k, ∃ n, v = .num n) →
      converts (field (some (.obj (RedactionService.redact d.patterns (llmCall c)))) k) = true := by
    intro k hk hnum
    have hredact : field (some (.obj (RedactionService.redact d.patterns (llmCall c)))) k =
        (JsonObject.prop (llmCall c) k).map (RedactionService.redactField d.patterns) :=
      RedactionService.prop_redact d.patterns (llmCall c) hk
    rw [hredact]
    cases hprop : JsonObject.prop (llmCall c) k with
    | none => rfl
    | some v =>
      obtain ⟨n, rfl⟩ := hnum v hprop
      rw [Option.map_some, RedactionService.redactField_num]
      rfl
  have hkind : (llmCallCompleted d.msg (RedactionService.redact d.patterns (llmCall c))).type = .llmCallCompleted := rfl
  unfold Reducer.conversions
  rw [hkind]
  dsimp only
  rw [hpayload, hsender]
  have htruthy : truthy (some (Json.obj (RedactionService.redact d.patterns (llmCall c)))) = true := rfl
  rw [if_pos htruthy]
  simp only [List.all_cons, List.all_nil, Bool.and_eq_true, Bool.and_true, converts_str, true_and]
  refine ⟨hfield _ (by decide) ?_, hfield _ (by decide) ?_, hfield _ (by decide) ?_, hfield _ (by decide) ?_,
    hfield _ (by decide) ?_⟩
  all_goals simp [llmCall]

/-- What the reducer converts of the event that the message type stands for. -/
theorem converts_derived {type : CanonicalEventType} (h : type ∈ derivedTypes) :
    (Reducer.conversions finalized (derived d.msg type)).all converts = true ↔
      (∀ keys ∈ d.derivedFields finalized type, converts (firstField (d.decoded.map .obj) keys) = true) ∧
        (type = .decisionFinalized → ∀ keys ∈ [["sessionId", "session_id"], ["commitmentHash", "commitment_hash"]],
          converts (firstField (d.get "supersedes") keys) = true) := by
  have hpayload : (derived d.msg type).datum "decodedPayload" = d.decoded.map .obj := datum_derived_decodedPayload type
  have htype : (derived d.msg type).datum "messageType" = some (.str d.envelope.messageType) := by
    simp [derived, Incoming.makeEvent, CanonicalEvent.datum, Incoming.fullData, msg]
  have hsender : (derived d.msg type).datum "sender" = some (.str d.envelope.sender) := by
    simp [derived, Incoming.makeEvent, CanonicalEvent.datum, Incoming.fullData, msg]
  have hversion : (derived d.msg type).datum "policyVersion" = none := by
    simp [derived, Incoming.makeEvent, CanonicalEvent.datum, Incoming.fullData, Incoming.senderAuth]
  have hsubject : (derived d.msg type).subjectId =
      some (.str (deriveSubject type d.envelope (d.decoded.map .obj)).id) := rfl
  have hkind : (derived d.msg type).type = type := rfl
  have hnone : ∀ x : Option (Json N), converts (coalesce x none) = converts x := converts_defined
  unfold Reducer.conversions Reducer.proposalConversions Reducer.contributionConversions Reducer.supersedesConversions
  rw [hkind]
  dsimp only
  rw [hpayload, htype, hsender, hversion, hsubject]
  unfold derivedFields
  cases type with
  | proposalCreated | proposalUpdated =>
    rw [truthy_coalesce]
    cases truthy (firstField (d.decoded.map Json.obj) ["vote", "recommendation"]) <;> cases finalized <;>
      simp [converts_coalesce_str, converts_field, converts_coalesce, converts_coalesce₃]
  | decisionFinalized =>
    have hget : field (d.decoded.map Json.obj) "supersedes" = d.get "supersedes" := rfl
    rw [hget]
    simp [converts_field, converts_coalesce, and_assoc]
  | participantSeen | messageSent | messageReceived | llmCallCompleted => exact absurd h (by decide)
  | _ => simp [converts_coalesce_str, converts_field, converts_coalesce, hnone]

/-- Of a `progress.reported` that `normalize` makes, the sender is a string. -/
theorem converts_progress {e : CanonicalEvent N} {sender : String} {percentage message : Option (Json N)}
    (htype : e.type = .progressReported) (hsender : e.datum "sender" = some (.str sender))
    (hpercentage : coalesce (field (e.datum "decodedPayload") "percentage")
      (field (e.datum "decodedPayload") "progress") = coalesce percentage none)
    (hmessage : coalesce (field (e.datum "decodedPayload") "message")
      (field (e.datum "decodedPayload") "status") = coalesce message none) :
    (Reducer.conversions finalized e).all converts = true ↔ converts percentage = true ∧ converts message = true := by
  have hnone : ∀ x : Option (Json N), converts (coalesce x none) = converts x := converts_defined
  unfold Reducer.conversions
  rw [htype]
  dsimp only
  rw [hsender, hpercentage, hmessage]
  simp [hnone]

private theorem converts_taskProgress (percentage : Option (Json N)) (message : Json N) :
    (Reducer.conversions finalized (taskProgress d.msg percentage message)).all converts = true ↔
      converts percentage = true ∧ message.convertible = true := by
  have hpayload : (taskProgress d.msg percentage message).datum "decodedPayload" =
      some (.obj (object [("percentage", percentage), ("message", some message)])) := by
    simp [taskProgress, Incoming.makeEvent, CanonicalEvent.datum, Incoming.shortData]
  have hsender : (taskProgress d.msg percentage message).datum "sender" = some (.str d.envelope.sender) := by
    simp [taskProgress, Incoming.makeEvent, CanonicalEvent.datum, Incoming.shortData, msg]
  have hmessage : converts (some message) = message.convertible := rfl
  rw [← hmessage]
  refine converts_progress rfl hsender ?_ ?_
  · rw [hpayload]
    simp [field, Json.prop]
  · rw [hpayload]
    simp [field, Json.prop]

private theorem converts_ambientProgress :
    (Reducer.conversions finalized (ambientProgress d.msg)).all converts = true := by
  have hsender : (ambientProgress d.msg).datum "sender" = some (.str d.envelope.sender) := by
    simp [ambientProgress, Incoming.makeEvent, CanonicalEvent.datum, Incoming.shortData, msg]
  have hpercentage : converts ((defined (d.msg.get "progress")).map fun v =>
      Json.num (JsNumber.mul (toNumber (some v)) (JsNumber.ofNat 100 : N))) = true := by
    cases defined (d.msg.get "progress") <;> rfl
  have hmessage : converts (some (.str (stringOr (d.msg.get "message") "")) : Option (Json N)) = true := rfl
  refine (converts_progress rfl hsender ?_ ?_).2 ⟨hpercentage, hmessage⟩
  · simp [ambientProgress, Incoming.makeEvent, CanonicalEvent.datum, Incoming.shortData, Incoming.senderAuth, field,
      Json.prop]
  · simp [ambientProgress, Incoming.makeEvent, CanonicalEvent.datum, Incoming.shortData, Incoming.senderAuth, field,
      Json.prop]

private theorem converts_policyResolved {fields : JsonObject N} (h : d.decoded = some fields) :
    (Reducer.conversions finalized (policyResolved d.msg fields)).all converts = true ↔
      converts (firstField (d.decoded.map .obj) ["policyVersion", "policyId"]) = true ∧
        converts (firstField (d.decoded.map .obj) ["description"]) = true := by
  have hpayload : (policyResolved d.msg fields).datum "decodedPayload" = some (.obj fields) := by
    simp [policyResolved, Incoming.makeEvent, CanonicalEvent.datum, Incoming.shortData]
  have hversion : (policyResolved d.msg fields).datum "policyVersion" =
      coalesce (field (some (.obj fields)) "policyVersion") (field (some (.obj fields)) "policyId") := by
    have hget : ∀ k, d.msg.get k = field (some (.obj fields)) k := fun k => by
      change field (d.decoded.map .obj) k = _
      rw [h, Option.map_some]
    simp [policyResolved, Incoming.makeEvent, CanonicalEvent.datum, Incoming.shortData, hget]
  have hkind : (policyResolved d.msg fields).type = .policyResolved := rfl
  have hagain : ∀ x y : Option (Json N), coalesce x (coalesce x y) = coalesce x y := by
    rintro (_ | (_ | _ | _ | _ | _ | _)) y <;> rfl
  unfold Reducer.conversions
  rw [hkind]
  dsimp only
  rw [hpayload, hversion, hagain, h, Option.map_some]
  simp [converts_field, converts_coalesce]

private theorem converts_policyCommitmentEvaluated {fields : JsonObject N} (h : d.decoded = some fields) :
    (Reducer.conversions finalized (policyCommitmentEvaluated d.msg fields)).all converts = true ↔
      converts (firstField (d.decoded.map .obj) ["commitmentId"]) = true := by
  have hpayload : (policyCommitmentEvaluated d.msg fields).datum "decodedPayload" = some (.obj fields) := by
    simp [policyCommitmentEvaluated, Incoming.makeEvent, CanonicalEvent.datum, Incoming.shortData]
  have hsubject : (policyCommitmentEvaluated d.msg fields).subjectId =
      some (.str (stringOr (d.msg.get "commitmentId") "")) := rfl
  have hkind : (policyCommitmentEvaluated d.msg fields).type = .policyCommitmentEvaluated := rfl
  unfold Reducer.conversions
  rw [hkind]
  dsimp only
  rw [hpayload, hsubject, h, Option.map_some]
  simp [converts_coalesce_str, converts_field]

omit [JsNumber N] in
private theorem convertible_getD (x : Option (Json N)) (s : String) :
    ((defined x).getD (.str s)).convertible = converts x := by
  rcases x with _ | (_ | _ | _ | _ | _ | _) <;> rfl

/-- What the reducer converts of the events of a task. -/
theorem converts_taskEvents :
    (∀ e ∈ taskEvents d.msg, (Reducer.conversions finalized e).all converts = true) ↔
      (d.envelope.messageType = "TaskUpdate" → (d.get "progress").isSome = true →
        converts (firstField (d.decoded.map .obj) ["progress"]) = true ∧
          converts (firstField (d.decoded.map .obj) ["status"]) = true) ∧
        (d.envelope.messageType = "TaskFail" → converts (firstField (d.decoded.map .obj) ["reason"]) = true) := by
  have hget : ∀ k, d.msg.get k = field (d.decoded.map .obj) k := fun _ => rfl
  have hget' : ∀ k, d.get k = field (d.decoded.map .obj) k := fun _ => rfl
  have htype : d.msg.envelope.messageType = d.envelope.messageType := rfl
  unfold taskEvents
  rw [htype, hget', ← converts_field, ← converts_field, ← converts_field]
  by_cases hupdate : d.envelope.messageType = "TaskUpdate"
  · rw [if_pos hupdate]
    cases hprogress : field (d.decoded.map Json.obj) "progress" with
    | none => simp [hupdate, hget, hprogress]
    | some progress => simp [-List.all_eq_true, hupdate, hget, hprogress, converts_taskProgress, convertible_getD]
  · rw [if_neg hupdate]
    by_cases hcomplete : d.envelope.messageType = "TaskComplete"
    · simp [-List.all_eq_true, hcomplete, converts_taskProgress, Json.convertible]
    · rw [if_neg hcomplete]
      by_cases hfail : d.envelope.messageType = "TaskFail"
      · rw [if_pos hfail]
        simp [-List.all_eq_true, hfail, hget, converts_taskProgress, convertible_getD, converts_none]
      · simp [hupdate, hfail]

/-- What it converts of the policy events. -/
theorem converts_policyEvents :
    (∀ e ∈ policyEvents d.msg, (Reducer.conversions finalized e).all converts = true) ↔
      (d.envelope.messageType = "PolicyResolved" →
        converts (firstField (d.decoded.map .obj) ["policyVersion", "policyId"]) = true ∧
          converts (firstField (d.decoded.map .obj) ["description"]) = true) ∧
        (d.envelope.messageType = "PolicyCommitmentEvaluated" →
          converts (firstField (d.decoded.map .obj) ["commitmentId"]) = true) := by
  have hmsg : d.msg.decoded = d.decoded := rfl
  have htype : d.msg.envelope.messageType = d.envelope.messageType := rfl
  have hdenied : (Reducer.conversions finalized (policyDenied d.msg)).all converts = true := rfl
  simp only [mem_policyEvents_iff, or_imp, forall_and, hmsg, htype]
  cases hdecoded : d.decoded with
  | none => simp [-List.all_eq_true, hdenied, firstField_none, converts_none]
  | some fields =>
    have hresolved : (Reducer.conversions finalized (policyResolved d.msg fields)).all converts = true ↔ _ :=
      converts_policyResolved hdecoded
    have hevaluated :
        (Reducer.conversions finalized (policyCommitmentEvaluated d.msg fields)).all converts = true ↔ _ :=
      converts_policyCommitmentEvaluated hdecoded
    rw [hdecoded] at hresolved hevaluated
    simp [-List.all_eq_true, hdenied, hresolved, hevaluated, forall_and]

private theorem forall_appliedFields {P : List String → Prop} :
    (∀ keys ∈ d.appliedFields finalized, P keys) ↔
      (d.envelope.messageType = "SessionStart" → P ["maxSuspendMs", "max_suspend_ms"]) ∧
      (∀ type ∈ deriveEventType d.envelope.messageType, ∀ keys ∈ d.derivedFields finalized type, P keys) ∧
      (d.envelope.messageType = "TaskUpdate" → (d.get "progress").isSome = true → P ["progress"] ∧ P ["status"]) ∧
      (d.envelope.messageType = "TaskFail" → P ["reason"]) ∧
      (d.envelope.messageType = "PolicyResolved" → P ["policyVersion", "policyId"] ∧ P ["description"]) ∧
      (d.envelope.messageType = "PolicyCommitmentEvaluated" → P ["commitmentId"]) := by
  have hite : ∀ (c : Prop) [Decidable c] (l : List (List String)),
      (∀ keys ∈ if c then l else [], P keys) ↔ (c → ∀ keys ∈ l, P keys) := by
    intro c _ l
    by_cases hc : c <;> simp [hc]
  have hderived :
      (∀ keys ∈ ((deriveEventType d.envelope.messageType).map (d.derivedFields finalized)).getD [], P keys) ↔
      ∀ type ∈ deriveEventType d.envelope.messageType, ∀ keys ∈ d.derivedFields finalized type, P keys := by
    cases deriveEventType d.envelope.messageType <;> simp
  unfold appliedFields
  simp only [List.forall_mem_append, hite, hderived, List.forall_mem_cons, List.not_mem_nil, false_imp_iff,
    forall_const, and_true, and_assoc, and_imp]

/-- All of the events. -/
theorem converts_events :
    (∀ e ∈ d.events, (Reducer.conversions finalized e).all converts = true) ↔
      (∀ keys ∈ d.appliedFields finalized, converts (firstField (d.decoded.map .obj) keys) = true) ∧
        (deriveEventType d.envelope.messageType = some .decisionFinalized →
          ∀ keys ∈ [["sessionId", "session_id"], ["commitmentHash", "commitment_hash"]],
            converts (firstField (d.get "supersedes") keys) = true) := by
  have hfamilies : (∀ e ∈ d.events, (Reducer.conversions finalized e).all converts = true) ↔
      (Reducer.conversions finalized (messageReceived d.msg d.codec)).all converts = true ∧
      (∀ type ∈ deriveEventType d.envelope.messageType,
        (Reducer.conversions finalized (derived d.msg type)).all converts = true) ∧
      (∀ e ∈ taskEvents d.msg, (Reducer.conversions finalized e).all converts = true) ∧
      ∀ e ∈ policyEvents d.msg, (Reducer.conversions finalized e).all converts = true := by
    constructor
    · intro h
      refine ⟨h _ (mem_events_iff.2 (by simp)), fun type htype => h _ (mem_events_iff.2 ?_),
        fun e he => h _ (mem_events_iff.2 (by simp [he])), fun e he => h _ (mem_events_iff.2 (by simp [he]))⟩
      exact .inr (.inr (.inr (.inl ⟨type, htype, rfl⟩)))
    · rintro ⟨hreceived, hderived, htask, hpolicy⟩ e he
      rcases mem_events_iff.1 he with ⟨-, rfl⟩ | rfl | ⟨llm, hllm, rfl⟩ | ⟨type, htype, rfl⟩ | he | he | he
      · exact converts_participantSeen
      · exact hreceived
      · exact converts_llmCallCompleted hllm
      · exact hderived type htype
      · exact htask e he
      · exact hpolicy e he
      · obtain ⟨-, rfl⟩ := mem_progressEvents_iff.1 he
        exact converts_ambientProgress
  rw [hfamilies, forall_appliedFields, converts_messageReceived, converts_taskEvents, converts_policyEvents]
  constructor
  · rintro ⟨hstart, hderived, ⟨hupdate, hfail⟩, hresolved, hevaluated⟩
    refine ⟨⟨hstart, fun type htype => ?_, hupdate, hfail, hresolved, hevaluated⟩, fun htype => ?_⟩
    · exact ((converts_derived (mem_derivedTypes htype)).1 (hderived type htype)).1
    · exact ((converts_derived (mem_derivedTypes htype)).1 (hderived _ htype)).2 rfl
  · rintro ⟨⟨hstart, hderived, hupdate, hfail, hresolved, hevaluated⟩, hsupersedes⟩
    refine ⟨hstart, fun type htype => ?_, ⟨hupdate, hfail⟩, hresolved, hevaluated⟩
    refine (converts_derived (mem_derivedTypes htype)).2 ⟨hderived type htype, ?_⟩
    rintro rfl
    exact hsupersedes htype

/-- The payload converts if and only if `normalize` does not throw and then the reducer does not. -/
theorem convertible_iff :
    d.Convertible finalized ↔
      d.normalizes = true ∧ ∀ e ∈ d.events, (Reducer.conversions finalized e).all converts = true := by
  rw [converts_events, normalizes, Bool.and_eq_true, List.all_eq_true]
  constructor
  · intro h
    have hfields := List.forall_mem_append.1 h.fields
    exact ⟨⟨h.llm, hfields.1⟩, hfields.2, h.supersedes⟩
  · rintro ⟨⟨hllm, hnormalized⟩, happlied, hsupersedes⟩
    exact ⟨hllm, List.forall_mem_append.2 ⟨hnormalized, happlied⟩, hsupersedes⟩

end Events

end Delivery

end MacpControlPlane

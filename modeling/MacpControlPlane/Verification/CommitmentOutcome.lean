import MacpControlPlane.Events.EventNormalizer
import MacpControlPlane.Projection.Sections

/-!
# The outcome of a commitment

A `CommitmentPayload` says whether the outcome is positive.  The decoder drops a field that holds its default, and so
drops `outcome_positive` when it is false; the reducer then reads the outcome off the action, and the queries of
`dashboard/dashboard.service.ts` find none.
-/

namespace MacpControlPlane

open Js EventNormalizer

variable {B N : Type} [JsNumber N]

/-- `CommitmentPayload['supersedes']` -/
structure CommitmentRef where
  sessionId : String
  commitmentHash : String
  deriving DecidableEq, Repr

/-- `CommitmentPayload` -/
structure CommitmentPayload where
  commitmentId : String := ""
  action : String := ""
  authorityScope : String := ""
  reason : String := ""
  modeVersion : String := ""
  policyVersion : String := ""
  configurationVersion : String := ""
  outcomePositive : Bool := false
  supersedes : Option CommitmentRef := none
  deriving DecidableEq, Repr

/-- A string field, which is absent when it holds the default. -/
def protoString (s : String) : Option (Json N) := if s = "" then none else some (.str s)

/-- `toObject` without defaults; `confidence`, which the reducer reads, is there for a message with such a field. -/
def CommitmentPayload.toObject (p : CommitmentPayload) (confidence : Option N) : JsonObject N :=
  object
    [("commitmentId", protoString p.commitmentId), ("action", protoString p.action),
      ("authorityScope", protoString p.authorityScope), ("reason", protoString p.reason),
      ("modeVersion", protoString p.modeVersion), ("policyVersion", protoString p.policyVersion),
      ("configurationVersion", protoString p.configurationVersion),
      ("outcomePositive", if p.outcomePositive then some (.bool true) else none),
      ("supersedes", p.supersedes.map fun ref => .obj (object
        [("sessionId", protoString ref.sessionId), ("commitmentHash", protoString ref.commitmentHash)])),
      ("confidence", confidence.map .num)]

/-! ### The queries of the dashboard -/

/-- `(x)::boolean = false`, of a text that `->>` has read; a text that stands for no boolean fails the query. -/
def isFalse : Option (Json N) → Bool
  | some (.bool b) => !b
  | some (.str s) => lowerCase (trim s) ∈ ["f", "fa", "fal", "fals", "false", "n", "no", "of", "off", "0"]
  | some (.num n) => JsNumber.format n = "0"
  | _ => false

/-- `negative` of `getKpis` -/
def negativeOutcome (event : CanonicalEvent N) : Bool :=
  let payload := event.datum "decodedPayload"
  isFalse (field payload "outcome_positive") || isFalse (field payload "outcomePositive")

/-- `COALESCE(d.negative, false)`, for the latest `decision.finalized` of a log. -/
def declined (log : List (CanonicalEvent N)) : Bool :=
  (log.reverse.find? fun event => event.type = .decisionFinalized).any negativeOutcome

/-! ### The events of a commitment -/

/-- A commitment has one type, in every mode. -/
theorem getKnownTypeName_commitment (modeName : String) :
    ProtoRegistry.getKnownTypeName modeName "Commitment" = some "macp.v1.CommitmentPayload" := by
  have htypes : ∀ e ∈ ProtoRegistry.messageTypeMap,
      e.2.lookup "Commitment" = none ∨ e.2.lookup "Commitment" = some "macp.v1.CommitmentPayload" := by decide
  have hcore : ProtoRegistry.coreTypes.lookup "Commitment" = some "macp.v1.CommitmentPayload" := by decide
  unfold ProtoRegistry.getKnownTypeName
  rw [hcore]
  cases hmode : ProtoRegistry.messageTypeMap.lookup modeName with
  | none => rfl
  | some types =>
    rcases htypes _ (mem_of_lookup hmode) with htype | htype
    · simp [htype]
    · simp [htype]

omit [JsNumber N] in
theorem decodeKnown_commitment {codec : Codec B N} {payload : B} {decoded : JsonObject N}
    (h : codec.decodeMessage "macp.v1.CommitmentPayload" payload = some decoded) (modeName : String) :
    ProtoRegistry.decodeKnown codec modeName "Commitment" payload = some decoded := by
  unfold ProtoRegistry.decodeKnown
  rw [getKnownTypeName_commitment]
  dsimp only
  rw [h]
  rfl

section Message

variable {msg : Incoming B N}

variable (msg) in
/-- The events of a commitment whose payload reports nothing but the commitment. -/
theorem messageEvents_commitment (codec : Codec B N) (patterns : List (String → String))
    (htype : msg.envelope.messageType = "Commitment")
    (hllm : extractLlmCall codec (msg.decoded.map .obj) = none)
    (hdenied : asBool (msg.get "policyDenied") ≠ some true) :
    messageEvents msg codec patterns = [messageReceived msg codec, derived msg .decisionFinalized] := by
  have htasks : taskEvents msg = [] := by simp [taskEvents, htype]
  have hpolicy : policyEvents msg = [] := by
    unfold policyEvents
    cases msg.decoded <;> simp [htype, hdenied]
  have hprogress : progressEvents msg = [] := by simp [progressEvents, htype]
  have hderived : deriveEventType "Commitment" = some .decisionFinalized := by decide
  unfold messageEvents
  rw [hllm, htasks, hpolicy, hprogress, htype, hderived]
  rfl

/-- Of the events of a commitment, only the last one changes the decision. -/
theorem decision_commitment (codec : Codec B N) (p : RunStateProjection N) (seen : List (CanonicalEvent N))
    (hseen : seen = [] ∨ seen = [participantSeen msg]) :
    (applyEvents p (seen ++ [messageReceived msg codec, derived msg .decisionFinalized])).decision =
      Reducer.finalizedDecision p.decision (derived msg .decisionFinalized) := by
  rw [applyEvents_decision]
  rcases hseen with rfl | rfl <;> rfl

end Message

section Payload

variable (p : CommitmentPayload) (confidence : Option N)

/-- The decoded payload, as the events carry it. -/
def CommitmentPayload.json : Option (Json N) := some (.obj (p.toObject confidence))

omit [JsNumber N] in
theorem field_json (k : String) : field (p.json confidence) k = JsonObject.prop (p.toObject confidence) k := rfl

private theorem extractLlmCall_commitment (codec : Codec B N) : extractLlmCall codec (p.json confidence) = none := by
  have hnone : ∀ k ∈ ["llmCall", "metadata", "tokenUsage", "signalType", "signal_type"],
      field (p.json confidence) k = none := by
    simp [field_json, CommitmentPayload.toObject]
  simp only [List.forall_mem_cons] at hnone
  obtain ⟨hcall, hmetadata, husage, htype, htype', -⟩ := hnone
  have hsignal : signalData codec (p.json confidence) = none := by simp [signalData, htype, htype', coalesce, asString]
  have hundefined : ∀ k, field (none : Option (Json N)) k = none := fun _ => rfl
  simp [extractLlmCall, llmCandidates, hcall, hmetadata, husage, hsignal, hundefined, isLlmCall, isObject]

omit [JsNumber N] in
private theorem policyDenied_commitment : asBool (field (p.json confidence) "policyDenied") ≠ some true := by
  simp [field_json, CommitmentPayload.toObject, asBool]

/-- The action that the reducer reads: an empty one has been dropped. -/
theorem finalAction_commitment {event : CanonicalEvent N} (h : event.datum "decodedPayload" = p.json confidence) :
    Reducer.finalAction event = if p.action = "" then "resolved" else p.action := by
  unfold Reducer.finalAction
  rw [h, field_json]
  by_cases haction : p.action = ""
  · simp [CommitmentPayload.toObject, protoString, haction, stringOr, defined, coalesce]
  · simp [CommitmentPayload.toObject, protoString, haction, stringOr, defined, coalesce, Json.toJsString]

/-- The outcome that the reducer reads: a negative one has been dropped, and is inferred from the action. -/
theorem finalOutcome_commitment {event : CanonicalEvent N} (h : event.datum "decodedPayload" = p.json confidence) :
    Reducer.finalOutcome event =
      if p.outcomePositive then some true
      else inferOutcomePositiveFromAction (if p.action = "" then "resolved" else p.action) := by
  rw [← finalAction_commitment p confidence h]
  unfold Reducer.finalOutcome
  rw [h]
  simp only [field_json]
  cases houtcome : p.outcomePositive with
  | true => simp [CommitmentPayload.toObject, houtcome, defined, coalesce, truthy]
  | false => simp [CommitmentPayload.toObject, houtcome, defined, coalesce]

/-- The dashboard finds no negative outcome. -/
theorem negativeOutcome_commitment {event : CanonicalEvent N}
    (h : event.datum "decodedPayload" = p.json confidence) : negativeOutcome event = false := by
  unfold negativeOutcome
  rw [h]
  simp only [field_json]
  cases houtcome : p.outcomePositive <;> simp [CommitmentPayload.toObject, houtcome, isFalse]

end Payload

/-! ### Fidelity -/

/-- The outcome of the commitment is the one that the run shows, and the one that the dashboard counts. -/
structure OutcomeKept (p : CommitmentPayload) (state : RunStateProjection N) (log events : List (CanonicalEvent N)) :
    Prop where
  shown : (applyEvents state events).decision.current.bind (·.outcomePositive) = some (some p.outcomePositive)
  counted : declined (log ++ events) = true ↔ p.outcomePositive = false

section Fidelity

variable {codec : Codec B N} {p : CommitmentPayload} {confidence : Option N} {envelope : RuntimeEnvelope B N}

/-- The events of an envelope whose payload decodes to a commitment. -/
theorem normalizeEnvelope_commitment (patterns : List (String → String)) (ctx : EventContext)
    (knownParticipants : List String) (senderAuthenticated : Option Bool)
    (hdecode : codec.decodeMessage "macp.v1.CommitmentPayload" envelope.payload = some (p.toObject confidence))
    (htype : envelope.messageType = "Commitment") :
    ∃ (msg : Incoming B N) (seen : List (CanonicalEvent N)), msg.decoded.map .obj = p.json confidence ∧
      (seen = [] ∨ seen = [participantSeen msg]) ∧
      (normalizeEnvelope codec patterns ctx knownParticipants envelope senderAuthenticated).1 =
        seen ++ [messageReceived msg codec, derived msg .decisionFinalized] := by
  have hknown := decodeKnown_commitment hdecode envelope.mode
  rw [← htype] at hknown
  let msg : Incoming B N := { ctx, envelope, senderAuthenticated, decoded := some (p.toObject confidence) }
  have hevents := messageEvents_commitment msg codec patterns htype (extractLlmCall_commitment p confidence codec)
    (policyDenied_commitment p confidence)
  refine ⟨msg, if envelope.sender ∈ knownParticipants then [] else [participantSeen msg], rfl, ite_eq_or_eq _ _ _, ?_⟩
  unfold normalizeEnvelope
  dsimp only
  rw [hknown]
  split
  · exact hevents
  · exact congrArg (participantSeen msg :: ·) hevents

/-- The run shows the outcome that the reducer reads. -/
theorem shown_commitment (patterns : List (String → String)) (ctx : EventContext) (knownParticipants : List String)
    (senderAuthenticated : Option Bool) (state : RunStateProjection N)
    (hdecode : codec.decodeMessage "macp.v1.CommitmentPayload" envelope.payload = some (p.toObject confidence))
    (htype : envelope.messageType = "Commitment") :
    (applyEvents state
        (normalizeEnvelope codec patterns ctx knownParticipants envelope senderAuthenticated).1).decision.current.bind
      (·.outcomePositive) =
      some (if p.outcomePositive then some true
        else inferOutcomePositiveFromAction (if p.action = "" then "resolved" else p.action)) := by
  obtain ⟨msg, seen, hdecoded, hseen, hevents⟩ :=
    normalizeEnvelope_commitment patterns ctx knownParticipants senderAuthenticated hdecode htype
  rw [hevents, decision_commitment codec state seen hseen]
  have hpayload : (derived msg .decisionFinalized).datum "decodedPayload" = p.json confidence := by
    rw [datum_derived_decodedPayload, hdecoded]
  rw [← finalOutcome_commitment p confidence hpayload]
  rfl

/-- The dashboard counts no commitment as declined. -/
theorem declined_commitment (patterns : List (String → String)) (ctx : EventContext) (knownParticipants : List String)
    (senderAuthenticated : Option Bool) (log : List (CanonicalEvent N))
    (hdecode : codec.decodeMessage "macp.v1.CommitmentPayload" envelope.payload = some (p.toObject confidence))
    (htype : envelope.messageType = "Commitment") :
    declined (log ++ (normalizeEnvelope codec patterns ctx knownParticipants envelope senderAuthenticated).1) =
      false := by
  obtain ⟨msg, seen, hdecoded, -, hevents⟩ :=
    normalizeEnvelope_commitment patterns ctx knownParticipants senderAuthenticated hdecode htype
  have hpayload : (derived msg .decisionFinalized).datum "decodedPayload" = p.json confidence := by
    rw [datum_derived_decodedPayload, hdecoded]
  have htype : (derived msg .decisionFinalized).type = .decisionFinalized := rfl
  rw [hevents]
  simp [declined, htype, negativeOutcome_commitment p confidence hpayload]

/-- A commitment keeps its outcome, on its way through the decoder, the normalizer, the reducer and the dashboard,
exactly if that is positive. -/
theorem outcomeKept_iff (encode : CommitmentPayload → Option N → B)
    (hdecode : codec.decodeMessage "macp.v1.CommitmentPayload" (encode p confidence) = some (p.toObject confidence))
    (htype : envelope.messageType = "Commitment") (hpayload : envelope.payload = encode p confidence)
    (patterns : List (String → String)) (ctx : EventContext) (knownParticipants : List String)
    (senderAuthenticated : Option Bool) (state : RunStateProjection N) (log : List (CanonicalEvent N)) :
    OutcomeKept p state log
        (normalizeEnvelope codec patterns ctx knownParticipants envelope senderAuthenticated).1 ↔
      p.outcomePositive = true := by
  rw [← hpayload] at hdecode
  have hshown := shown_commitment patterns ctx knownParticipants senderAuthenticated state hdecode htype
  have hdeclined := declined_commitment patterns ctx knownParticipants senderAuthenticated log hdecode htype
  constructor
  · intro h
    have hcounted := h.counted
    rw [hdeclined] at hcounted
    simpa using hcounted
  · intro houtcome
    refine ⟨?_, ?_⟩
    · rw [hshown, houtcome]
      rfl
    · rw [hdeclined, houtcome]
      simp

end Fidelity

/-- The bytes of a commitment, with their base64 text and the payload that they encode. -/
structure WireCommitment where
  wire : List Nat
  base64 : String
  payload : CommitmentPayload

namespace WireCommitment

/-- `commitment_id: "c1"` and `action: "approved"`, with a negative outcome. -/
def negative : WireCommitment where
  wire := [0x0a, 0x02, 0x63, 0x31, 0x12, 0x08, 0x61, 0x70, 0x70, 0x72, 0x6f, 0x76, 0x65, 0x64]
  base64 := "CgJjMRIIYXBwcm92ZWQ="
  payload := { commitmentId := "c1", action := "approved" }

/-- The same with `outcome_positive: true`. -/
def positive : WireCommitment where
  wire := negative.wire ++ [0x40, 0x01]
  base64 := "CgJjMRIIYXBwcm92ZWRAAQ=="
  payload := { negative.payload with outcomePositive := true }

variable (c : WireCommitment)

/-- The libraries, as far as they handle these bytes. -/
def codec : Codec (List Nat) (Option Rat) where
  decodeMessage typeName payload :=
    if typeName = "macp.v1.CommitmentPayload" ∧ payload = c.wire then some (c.payload.toObject none) else none
  isCanonicalProto _ payload := payload = c.wire
  isEmpty := List.isEmpty
  toUtf8 payload := String.ofList (payload.map Char.ofNat)
  toBase64 payload := if payload = c.wire then c.base64 else ""
  ofBase64 text := if text = c.base64 then c.wire else []
  parseJson _ := none

theorem codec_decodeMessage :
    c.codec.decodeMessage "macp.v1.CommitmentPayload" c.wire = some (c.payload.toObject none) :=
  if_pos ⟨rfl, rfl⟩

def envelope : RuntimeEnvelope (List Nat) (Option Rat) where
  macpVersion := "1.0"
  mode := "macp.mode.decision.v1"
  messageType := "Commitment"
  messageId := "m-commit"
  sessionId := "s1"
  sender := "coordinator"
  timestampUnixMs := some 0
  payload := c.wire

/-- The events of the envelope. -/
def events : List (CanonicalEvent (Option Rat)) :=
  (normalizeEnvelope c.codec [] ⟨"r1", "2026-10-24T00:00:00.000Z", fun _ => "e1"⟩ [] c.envelope none).1

end WireCommitment

theorem outcomeKept_positive :
    OutcomeKept WireCommitment.positive.payload (.empty "r1") [] WireCommitment.positive.events :=
  (outcomeKept_iff (fun _ _ => WireCommitment.positive.wire) (WireCommitment.codec_decodeMessage _) rfl rfl _ _ _ _ _
    _).2 rfl

/-- An approval that is committed with a negative outcome is shown with a positive one. -/
theorem outcomeKept_negative :
    ¬ OutcomeKept WireCommitment.negative.payload (.empty "r1") [] WireCommitment.negative.events := by
  intro h
  have htype : WireCommitment.negative.envelope.messageType = "Commitment" := rfl
  have hshown := shown_commitment [] ⟨"r1", "2026-10-24T00:00:00.000Z", fun _ => "e1"⟩ [] none
    (RunStateProjection.empty "r1") (WireCommitment.codec_decodeMessage WireCommitment.negative) htype
  exact absurd (hshown.symm.trans h.shown) (by decide)

end MacpControlPlane

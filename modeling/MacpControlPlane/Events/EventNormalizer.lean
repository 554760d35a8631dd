import Mathlib.Tactic.SplitIfs
import MacpControlPlane.Contracts
import MacpControlPlane.Runtime.ProtoRegistry

/-!
# Canonical events of an envelope (`events/event-normalizer.service.ts`)

`normalize` makes up to seven canonical events of an envelope: the participant when it is new, the message, the LLM
call that its payload reports, the event that its message type stands for, and the events of tasks, policies and
progress.
-/

namespace MacpControlPlane

open Js

variable {B N : Type} [JsNumber N]

/-- `RuntimeEnvelope` -/
structure RuntimeEnvelope (B N : Type) where
  macpVersion : String
  mode : String
  messageType : String
  messageId : String
  sessionId : String
  sender : String
  timestampUnixMs : N
  payload : B

namespace RedactionService

mutual

/-- `walk` with a function for `redactString`. -/
def walk (redactString : String → String) : Json N → Json N
  | .str s => .str (redactString s)
  | .arr xs => .arr (walkItems redactString xs)
  | .obj fields => .obj (walkFields redactString fields)
  | .null => .null
  | .bool b => .bool b
  | .num n => .num n

def walkItems (redactString : String → String) : List (Json N) → List (Json N)
  | [] => []
  | x :: xs => walk redactString x :: walkItems redactString xs

/-- An assignment to `__proto__` gives `out` no field. -/
def walkFields (redactString : String → String) : List (String × Json N) → List (String × Json N)
  | [] => []
  | (k, x) :: fields =>
    if k = "__proto__" then walkFields redactString fields
    else (k, walk redactString x) :: walkFields redactString fields

end

/-- Each pattern replaces its matches, one after the other. -/
def redactString (patterns : List (String → String)) (input : String) : String :=
  patterns.foldl (fun out replace => replace out) input

/-- `redact` of an object; without patterns it is returned as it is. -/
def redact (patterns : List (String → String)) (fields : JsonObject N) : JsonObject N :=
  if patterns.isEmpty then fields else walkFields (redactString patterns) fields

/-- What `redact` makes of a field of the object. -/
def redactField (patterns : List (String → String)) (x : Json N) : Json N :=
  if patterns.isEmpty then x else walk (redactString patterns) x

omit [JsNumber N]

@[simp] theorem redactField_num (patterns : List (String → String)) (n : N) :
    redactField patterns (.num n) = .num n := by
  unfold redactField
  split_ifs <;> rfl

private theorem prop_walkFields (f : String → String) (fields : JsonObject N) {k : String} (hk : k ≠ "__proto__") :
    JsonObject.prop (walkFields f fields) k = (JsonObject.prop fields k).map (walk f) := by
  induction fields with
  | nil => simp [walkFields, JsonObject.prop]
  | cons entry fields ih =>
    obtain ⟨l, v⟩ := entry
    unfold JsonObject.prop at ih ⊢
    rw [walkFields, List.lookup_cons]
    split_ifs with hl
    · have hne : (k == l) = false := by simpa [hl] using hk
      rw [ih, hne]
    · rw [List.lookup_cons, ih]
      cases k == l <;> rfl

theorem prop_redact (patterns : List (String → String)) (fields : JsonObject N) {k : String} (hk : k ≠ "__proto__") :
    JsonObject.prop (redact patterns fields) k = (JsonObject.prop fields k).map (redactField patterns) := by
  unfold redact redactField
  split_ifs
  · simp
  · exact prop_walkFields _ _ hk

@[simp] theorem redact_object_nil (patterns : List (String → String)) :
    redact patterns (object ([] : List (String × Option (Json N)))) = object [] := by
  unfold redact
  split_ifs <;> rfl

/-- Of an object literal each field is redacted. -/
theorem redact_object_cons (patterns : List (String → String)) {k : String} (hk : k ≠ "__proto__")
    (x : Option (Json N)) (fields : List (String × Option (Json N))) :
    redact patterns (object ((k, x) :: fields)) =
      object [(k, x.map (redactField patterns))] ++ redact patterns (object fields) := by
  unfold redact redactField
  split_ifs <;> cases x <;> simp [object, walkFields, hk]

end RedactionService

namespace EventNormalizer

/-! ### The LLM call of a payload -/

/-- The object in the `data` of a signal `llm.call.completed`. -/
def signalData (codec : Codec B N) (payload : Option (Json N)) : Option (Json N) :=
  let sigType := coalesce (field payload "signalType") (field payload "signal_type")
  match asString sigType, asString (field payload "data") with
  | some "llm.call.completed", some raw =>
    let jsonStr := codec.toUtf8 (codec.ofBase64 raw)
    if jsonStr = "" then none
    else
      match codec.parseJson jsonStr with
      | some (.obj fields) => some (.obj fields)
      | some (.arr xs) => some (.arr xs)
      | _ => none
  | _, _ => none

/-- The places where a payload can report an LLM call, in the order in which they are tried. -/
def llmCandidates (codec : Codec B N) (payload : Option (Json N)) : List (Option (Json N)) :=
  let metadata := field payload "metadata"
  let signal := signalData codec payload
  [field payload "llmCall", field metadata "llmCall", field payload "tokenUsage", field metadata "tokenUsage", signal,
    field signal "tokenUsage"]

/-- `typeof c === 'object'`, for a `c` that is not `null`. -/
def isObject : Option (Json N) → Bool
  | some (.obj _) | some (.arr _) => true
  | _ => false

/-- `Number(c[camel] ?? c[snake] ?? 0)` -/
def tokenCount (c : Option (Json N)) (camel snake : String) : N :=
  match defined (coalesce (field c camel) (field c snake)) with
  | some v => toNumber (some v)
  | none => JsNumber.ofNat 0

def promptTokens (c : Option (Json N)) : N := tokenCount c "promptTokens" "prompt_tokens"

def completionTokens (c : Option (Json N)) : N := tokenCount c "completionTokens" "completion_tokens"

/-- The loop of `extractLlmCall` takes the candidate. -/
def isLlmCall (c : Option (Json N)) : Bool :=
  isObject c && JsNumber.isFinite (promptTokens c) && JsNumber.isFinite (completionTokens c) &&
    (JsNumber.truthy (promptTokens c) || JsNumber.truthy (completionTokens c) || truthy (field c "model") ||
      truthy (field c "prompt") || truthy (field c "response"))

/-- `x.k` if it is truthy, as a string. -/
def truthyString (c : Option (Json N)) (k : String) : Option (Json N) :=
  if truthy (field c k) then (field c k).map fun v => .str v.toJsString else none

/-- What `extractLlmCall` returns of a candidate. -/
def llmCall (c : Option (Json N)) : JsonObject N :=
  let latencyMs := (defined (field c "latencyMs")).or (defined (field c "latency_ms"))
  object
    [("promptTokens", some (.num (promptTokens c))), ("completionTokens", some (.num (completionTokens c))),
      ("totalTokens", some (.num (JsNumber.add (promptTokens c) (completionTokens c)))),
      ("model", truthyString c "model"), ("latencyMs", latencyMs.map fun v => .num (toNumber (some v))),
      ("prompt", defined (field c "prompt")), ("response", defined (field c "response")),
      ("provider", truthyString c "provider")]

def extractLlmCall (codec : Codec B N) (payload : Option (Json N)) : Option (JsonObject N) :=
  ((llmCandidates codec payload).find? isLlmCall).map llmCall

/-- `extractLlmCall` does not throw: it converts the counts of every candidate that it tries, and the model, the latency
and the provider of the one that it takes.  What is falsy converts. -/
def llmConverts : List (Option (Json N)) → Bool
  | [] => true
  | c :: cs =>
    if isObject c then
      converts (coalesce (field c "promptTokens") (field c "prompt_tokens")) &&
        converts (coalesce (field c "completionTokens") (field c "completion_tokens")) &&
          if isLlmCall c then
            converts (field c "model") && converts (field c "provider") &&
              converts ((defined (field c "latencyMs")).or (defined (field c "latency_ms")))
          else llmConverts cs
    else llmConverts cs

/-! ### The event that a message type stands for -/

def deriveEventType (messageType : String) : Option CanonicalEventType :=
  if messageType = "Signal" then some .signalEmitted
  else if messageType = "SignalAck" ∨ messageType = "SignalAcknowledged" then some .signalAcknowledged
  else if messageType = "Commitment" then some .decisionFinalized
  else if messageType ∈ ["Proposal", "CounterProposal", "ApprovalRequest", "TaskRequest", "HandoffOffer"] then
    some .proposalCreated
  else if messageType ∈ ["Evaluation", "Objection", "Vote", "Accept", "Reject", "Withdraw", "Approve", "Abstain",
      "TaskAccept", "TaskReject", "TaskUpdate", "TaskComplete", "TaskFail", "HandoffContext", "HandoffAccept",
      "HandoffDecline", "Contribute"] then
    some .proposalUpdated
  else if messageType = "Progress" then some .progressReported
  else if messageType = "PolicyResolved" then some .policyResolved
  else if messageType = "PolicyCommitmentEvaluated" then some .policyCommitmentEvaluated
  else if messageType = "PolicyDenied" then some .policyDenied
  else if lowerCase messageType ∈ ["toolcall", "toolrequest"] then some .toolCalled
  else if lowerCase messageType ∈ ["toolresult", "toolcompleted", "tooloutput"] then some .toolCompleted
  else none

/-- `payload?.k₁ ?? payload?.k₂ ?? …` -/
def firstField (payload : Option (Json N)) (keys : List String) : Option (Json N) :=
  keys.findSome? fun k => defined (field payload k)

def deriveSubject (type : CanonicalEventType) (envelope : RuntimeEnvelope B N) (payload : Option (Json N)) : Subject :=
  match type with
  | .signalEmitted => ⟨.signal, envelope.messageId⟩
  | .signalAcknowledged => ⟨.signal, stringOr (firstField payload ["signalId", "signal_id"]) envelope.messageId⟩
  | .proposalCreated | .proposalUpdated =>
    ⟨.proposal,
      stringOr (firstField payload ["proposalId", "proposal_id", "requestId", "request_id"]) envelope.messageId⟩
  | .decisionFinalized =>
    ⟨.decision,
      stringOr (firstField payload ["commitmentId", "commitment_id", "decisionId", "decision_id"]) envelope.messageId⟩
  | .toolCalled | .toolCompleted =>
    ⟨.tool,
      stringOr (firstField payload ["toolCallId", "tool_call_id", "requestId", "request_id"]) envelope.messageId⟩
  | _ => ⟨.message, envelope.messageId⟩

/-! ### `normalize` -/

/-- What the events of an envelope have in common; `randomUUID` is what its calls return, by their place. -/
structure EventContext where
  runId : String
  ts : String
  randomUUID : Nat → String

/-- An envelope with what `normalize` has worked out of it. -/
structure Incoming (B N : Type) where
  ctx : EventContext
  envelope : RuntimeEnvelope B N
  /-- `...senderAuth` -/
  senderAuthenticated : Option Bool
  decoded : Option (JsonObject N)

variable (msg : Incoming B N)

/-- `decoded?.k` -/
def Incoming.get (k : String) : Option (Json N) := field (msg.decoded.map .obj) k

def Incoming.makeEvent (call : Nat) (type : CanonicalEventType) (subject : Subject)
    (data : List (String × Option (Json N))) : CanonicalEvent N where
  id := msg.ctx.randomUUID call
  runId := msg.ctx.runId
  seq := 0
  ts := msg.ctx.ts
  type
  schemaVersion := some 3
  subject := some subject
  source := { kind := .runtime, name := "rust-runtime", rawType := some msg.envelope.messageType }
  data := object data

/-- `modeName`, `messageType`, `messageId`, `sessionId` and `sender` -/
def Incoming.fullData : List (String × Option (Json N)) :=
  [("modeName", some (.str msg.envelope.mode)), ("messageType", some (.str msg.envelope.messageType)),
    ("messageId", some (.str msg.envelope.messageId)), ("sessionId", some (.str msg.envelope.sessionId)),
    ("sender", some (.str msg.envelope.sender))]

/-- `modeName`, `messageType` and `sender` -/
def Incoming.shortData : List (String × Option (Json N)) :=
  [("modeName", some (.str msg.envelope.mode)), ("messageType", some (.str msg.envelope.messageType)),
    ("sender", some (.str msg.envelope.sender))]

def Incoming.senderAuth : String × Option (Json N) :=
  ("senderAuthenticated", msg.senderAuthenticated.map .bool)

def participantSeen : CanonicalEvent N :=
  msg.makeEvent 0 .participantSeen ⟨.participant, msg.envelope.sender⟩
    [("participantId", some (.str msg.envelope.sender))]

def messageReceived (codec : Codec B N) : CanonicalEvent N :=
  let payload := msg.decoded.getD [("payloadBase64", .str (codec.toBase64 msg.envelope.payload))]
  msg.makeEvent 1 .messageReceived ⟨.message, msg.envelope.messageId⟩
    (msg.fullData ++ [msg.senderAuth, ("payload", some (.obj payload))])

def llmCallCompleted (redacted : JsonObject N) : CanonicalEvent N :=
  msg.makeEvent 2 .llmCallCompleted ⟨.message, msg.envelope.messageId⟩
    (msg.fullData ++ [msg.senderAuth, ("decodedPayload", some (.obj redacted))])

def derived (type : CanonicalEventType) : CanonicalEvent N :=
  let payloadTypeName := ProtoRegistry.getKnownTypeName msg.envelope.mode msg.envelope.messageType
  msg.makeEvent 3 type (deriveSubject type msg.envelope (msg.decoded.map .obj))
    (msg.fullData ++ [("decodedPayload", msg.decoded.map .obj), ("payloadTypeName", payloadTypeName.map .str),
      msg.senderAuth])

/-- The `progress.reported` of a task. -/
def taskProgress (percentage : Option (Json N)) (message : Json N) : CanonicalEvent N :=
  msg.makeEvent 4 .progressReported ⟨.message, msg.envelope.messageId⟩
    (msg.shortData ++
      [("decodedPayload", some (.obj (object [("percentage", percentage), ("message", some message)])))])

/-- The `progress.reported` of `TaskUpdate`, `TaskComplete` and `TaskFail`. -/
def taskEvents : List (CanonicalEvent N) :=
  if msg.envelope.messageType = "TaskUpdate" then
    match msg.get "progress" with
    | some progress => [taskProgress msg (some progress) ((defined (msg.get "status")).getD (.str ""))]
    | none => []
  else if msg.envelope.messageType = "TaskComplete" then
    [taskProgress msg (some (.num (JsNumber.ofNat 100))) (.str "completed")]
  else if msg.envelope.messageType = "TaskFail" then
    [taskProgress msg none ((defined (msg.get "reason")).getD (.str "failed"))]
  else []

def policyResolved (decoded : JsonObject N) : CanonicalEvent N :=
  let policyVersion := coalesce (msg.get "policyVersion") (msg.get "policyId")
  msg.makeEvent 5 .policyResolved
    ⟨.policy, stringOr (coalesce (msg.get "policyId") (msg.get "policyVersion")) ""⟩
    (msg.shortData ++ [("policyVersion", policyVersion), ("decodedPayload", some (.obj decoded))])

def policyCommitmentEvaluated (decoded : JsonObject N) : CanonicalEvent N :=
  msg.makeEvent 6 .policyCommitmentEvaluated ⟨.policy, stringOr (msg.get "commitmentId") ""⟩
    (msg.shortData ++ [("decodedPayload", some (.obj decoded))])

def policyDenied : CanonicalEvent N :=
  msg.makeEvent 7 .policyDenied
    ⟨.policy, stringOr (coalesce (msg.get "commitmentId") (msg.get "policyId")) ""⟩
    (msg.shortData ++ [("decodedPayload", some (.obj (msg.decoded.getD [])))])

/-- The policy events of the runtime. -/
def policyEvents : List (CanonicalEvent N) :=
  (match msg.decoded with
    | some decoded =>
      (if msg.envelope.messageType = "PolicyResolved" then [policyResolved msg decoded] else []) ++
        if msg.envelope.messageType = "PolicyCommitmentEvaluated" then [policyCommitmentEvaluated msg decoded] else []
    | none => []) ++
  if msg.envelope.messageType = "PolicyDenied" ∨ asBool (msg.get "policyDenied") = some true then [policyDenied msg]
  else []

/-- The `progress.reported` of an ambient progress message. -/
def ambientProgress : CanonicalEvent N :=
  let percentage : Option (Json N) := (defined (msg.get "progress")).map fun v =>
    .num (JsNumber.mul (toNumber (some v)) (JsNumber.ofNat 100))
  msg.makeEvent 8 .progressReported ⟨.participant, msg.envelope.sender⟩
    (msg.shortData ++ [msg.senderAuth,
      ("decodedPayload", some (.obj (object
        [("percentage", percentage), ("message", some (.str (stringOr (msg.get "message") ""))),
          ("progressToken", msg.get "progressToken"), ("total", msg.get "total")])))])

def progressEvents : List (CanonicalEvent N) :=
  if msg.envelope.messageType = "Progress" ∧ msg.decoded.isSome then [ambientProgress msg] else []

/-- The events of the message itself. -/
def messageEvents (codec : Codec B N) (patterns : List (String → String)) : List (CanonicalEvent N) :=
  messageReceived msg codec ::
    (((extractLlmCall codec (msg.decoded.map .obj)).map fun llm =>
        llmCallCompleted msg (RedactionService.redact patterns llm)).toList ++
      ((deriveEventType msg.envelope.messageType).map (derived msg)).toList ++
      taskEvents msg ++ policyEvents msg ++ progressEvents msg)

/-- `normalize` of an envelope, when nothing in it throws: the events, and `knownParticipants` after it. -/
def normalizeEnvelope (codec : Codec B N) (patterns : List (String → String)) (ctx : EventContext)
    (knownParticipants : List String) (envelope : RuntimeEnvelope B N) (senderAuthenticated : Option Bool) :
    List (CanonicalEvent N) × List String :=
  let decoded := ProtoRegistry.decodeKnown codec envelope.mode envelope.messageType envelope.payload
  let msg : Incoming B N := { ctx, envelope, senderAuthenticated, decoded }
  if envelope.sender ∈ knownParticipants then (messageEvents msg codec patterns, knownParticipants)
  else (participantSeen msg :: messageEvents msg codec patterns, envelope.sender :: knownParticipants)

/-! ### What the events of an envelope are -/

/-- The types that `deriveEventType` gives. -/
def derivedTypes : List CanonicalEventType :=
  [.signalEmitted, .signalAcknowledged, .decisionFinalized, .proposalCreated, .proposalUpdated, .progressReported,
    .policyResolved, .policyCommitmentEvaluated, .policyDenied, .toolCalled, .toolCompleted]

private theorem all_ite {α : Type} {p : Prop} [Decidable p] {q : α → Bool} {a b : Option α} (ha : a.all q = true)
    (hb : b.all q = true) : (if p then a else b).all q = true := by
  split
  · exact ha
  · exact hb

theorem mem_derivedTypes {messageType : String} {type : CanonicalEventType} (h : type ∈ deriveEventType messageType) :
    type ∈ derivedTypes := by
  have hall : (deriveEventType messageType).all (fun type => type ∈ derivedTypes) = true := by
    unfold deriveEventType
    repeat' apply all_ite
    all_goals decide
  rw [Option.all_eq_true] at hall
  exact of_decide_eq_true (hall type h)

variable {msg}

omit [JsNumber N] in
@[simp] theorem datum_messageReceived_payload {codec : Codec B N} :
    (messageReceived msg codec).datum "payload" =
      some (.obj (msg.decoded.getD [("payloadBase64", .str (codec.toBase64 msg.envelope.payload))])) := by
  simp [messageReceived, Incoming.makeEvent, CanonicalEvent.datum, Incoming.fullData, Incoming.senderAuth]

@[simp] theorem datum_derived_decodedPayload (type : CanonicalEventType) :
    (derived msg type).datum "decodedPayload" = msg.decoded.map .obj := by
  simp [derived, Incoming.makeEvent, CanonicalEvent.datum, Incoming.fullData, Incoming.senderAuth]

theorem mem_taskEvents {event : CanonicalEvent N} (h : event ∈ taskEvents msg) :
    (∃ progress ∈ msg.get "progress",
      event = taskProgress msg (some progress) ((defined (msg.get "status")).getD (.str ""))) ∨
    event = taskProgress msg (some (.num (JsNumber.ofNat 100))) (.str "completed") ∨
    event = taskProgress msg none ((defined (msg.get "reason")).getD (.str "failed")) := by
  unfold taskEvents at h
  split_ifs at h
  · cases hprogress : msg.get "progress" with
    | none =>
      rw [hprogress] at h
      cases h
    | some progress =>
      rw [hprogress] at h
      exact Or.inl ⟨progress, rfl, List.mem_singleton.1 h⟩
  · exact Or.inr (Or.inl (List.mem_singleton.1 h))
  · exact Or.inr (Or.inr (List.mem_singleton.1 h))
  · cases h

theorem mem_policyEvents_iff {event : CanonicalEvent N} :
    event ∈ policyEvents msg ↔
      (∃ decoded ∈ msg.decoded, msg.envelope.messageType = "PolicyResolved" ∧ event = policyResolved msg decoded) ∨
        (∃ decoded ∈ msg.decoded,
          msg.envelope.messageType = "PolicyCommitmentEvaluated" ∧ event = policyCommitmentEvaluated msg decoded) ∨
        (msg.envelope.messageType = "PolicyDenied" ∨ asBool (msg.get "policyDenied") = some true) ∧
          event = policyDenied msg := by
  unfold policyEvents
  rw [List.mem_append, List.mem_ite_nil_right, List.mem_singleton, ← or_assoc]
  refine or_congr_left ?_
  cases msg.decoded with
  | none => simp
  | some decoded =>
    simp only [List.mem_append, List.mem_ite_nil_right, List.mem_singleton, Option.mem_def, Option.some.injEq,
      exists_eq_left']

theorem mem_progressEvents_iff {event : CanonicalEvent N} :
    event ∈ progressEvents msg ↔
      (msg.envelope.messageType = "Progress" ∧ msg.decoded.isSome = true) ∧ event = ambientProgress msg := by
  unfold progressEvents
  rw [List.mem_ite_nil_right, List.mem_singleton]

theorem mem_messageEvents_iff {codec : Codec B N} {patterns : List (String → String)} {event : CanonicalEvent N} :
    event ∈ messageEvents msg codec patterns ↔
      event = messageReceived msg codec ∨
        (∃ llm ∈ extractLlmCall codec (msg.decoded.map .obj),
          event = llmCallCompleted msg (RedactionService.redact patterns llm)) ∨
        (∃ type ∈ deriveEventType msg.envelope.messageType, event = derived msg type) ∨ event ∈ taskEvents msg ∨
        event ∈ policyEvents msg ∨ event ∈ progressEvents msg := by
  rw [messageEvents, List.mem_cons, List.mem_append, List.mem_append, List.mem_append, List.mem_append]
  simp only [Option.mem_toList, Option.mem_def, Option.map_eq_some_iff, eq_comm (a := event), or_assoc]

end EventNormalizer

end MacpControlPlane

import MacpControlPlane.Lib.Js

/-!
# Decoding of payloads (`runtime/proto-registry.service.ts`)

The payload of an envelope is decoded by the type that its mode and message type stand for, and read as JSON or as
text where it has no type or does not decode.  What the registry uses of protobufjs, `Buffer` and `JSON` is a `Codec`.
-/

namespace MacpControlPlane

open Js

variable {B N : Type}

/-- The libraries under the registry, over buffers `B`. -/
structure Codec (B N : Type) where
  /-- `decodeMessage` of a type: `type.decode`, and `type.toObject` without defaults; `none` when it throws. -/
  decodeMessage : String → B → Option (JsonObject N)
  /-- `isCanonicalProto`: the decoded message encodes to the same bytes. -/
  isCanonicalProto : String → B → Bool
  isEmpty : B → Bool
  /-- `payload.toString('utf8')` -/
  toUtf8 : B → String
  /-- `payload.toString('base64')` -/
  toBase64 : B → String
  /-- `Buffer.from(text, 'base64')` -/
  ofBase64 : String → B
  /-- `JSON.parse`; `none` when it throws. -/
  parseJson : String → Option (Json N)
  /-- The unpaired surrogates of the strings that the others return. -/
  unpaired : Unpaired := .none

namespace ProtoRegistry

/-- `MESSAGE_TYPE_MAP.__core__` -/
def coreTypes : List (String × String) :=
  [("SessionStart", "macp.v1.SessionStartPayload"), ("Commitment", "macp.v1.CommitmentPayload"),
    ("Signal", "macp.v1.SignalPayload"), ("Progress", "macp.v1.ProgressPayload")]

/-- `MESSAGE_TYPE_MAP` -/
def messageTypeMap : List (String × List (String × String)) :=
  [("__core__", coreTypes),
    ("macp.mode.decision.v1",
      [("Proposal", "macp.modes.decision.v1.ProposalPayload"),
        ("Evaluation", "macp.modes.decision.v1.EvaluationPayload"),
        ("Objection", "macp.modes.decision.v1.ObjectionPayload"), ("Vote", "macp.modes.decision.v1.VotePayload")]),
    ("macp.mode.proposal.v1",
      [("Proposal", "macp.modes.proposal.v1.ProposalPayload"),
        ("CounterProposal", "macp.modes.proposal.v1.CounterProposalPayload"),
        ("Accept", "macp.modes.proposal.v1.AcceptPayload"), ("Reject", "macp.modes.proposal.v1.RejectPayload"),
        ("Withdraw", "macp.modes.proposal.v1.WithdrawPayload")]),
    ("macp.mode.task.v1",
      [("TaskRequest", "macp.modes.task.v1.TaskRequestPayload"), ("TaskAccept", "macp.modes.task.v1.TaskAcceptPayload"),
        ("TaskReject", "macp.modes.task.v1.TaskRejectPayload"), ("TaskUpdate", "macp.modes.task.v1.TaskUpdatePayload"),
        ("TaskComplete", "macp.modes.task.v1.TaskCompletePayload"),
        ("TaskFail", "macp.modes.task.v1.TaskFailPayload")]),
    ("macp.mode.handoff.v1",
      [("HandoffOffer", "macp.modes.handoff.v1.HandoffOfferPayload"),
        ("HandoffContext", "macp.modes.handoff.v1.HandoffContextPayload"),
        ("HandoffAccept", "macp.modes.handoff.v1.HandoffAcceptPayload"),
        ("HandoffDecline", "macp.modes.handoff.v1.HandoffDeclinePayload")]),
    ("macp.mode.quorum.v1",
      [("ApprovalRequest", "macp.modes.quorum.v1.ApprovalRequestPayload"),
        ("Approve", "macp.modes.quorum.v1.ApprovePayload"), ("Reject", "macp.modes.quorum.v1.RejectPayload"),
        ("Abstain", "macp.modes.quorum.v1.AbstainPayload")]),
    ("ext.multi_round.v1", [("Contribute", "macp.modes.multi_round.v1.ContributePayload")])]

/-- `VALUE_STRING_TYPES` -/
def valueStringTypes : List String := ["macp.modes.multi_round.v1.ContributePayload"]

def getKnownTypeName (modeName messageType : String) : Option String :=
  ((messageTypeMap.lookup modeName).bind (·.lookup messageType)).or (coreTypes.lookup messageType)

def tryDecodeUtf8 (codec : Codec B N) (payload : B) : Option (JsonObject N) :=
  if codec.isEmpty payload then none
  else
    match codec.parseJson (codec.toUtf8 payload) with
    | some parsed => some [("json", parsed), ("encoding", .str "json")]
    | none =>
      some [("text", .str (codec.toUtf8 payload)), ("encoding", .str "text"),
        ("payloadBase64", .str (codec.toBase64 payload))]

/-- The `value` of the JSON object that `tryDecodeUtf8` has parsed, unwrapped. -/
def decodeValueStringJson (codec : Codec B N) (payload : B) : Option (JsonObject N) :=
  let fallback := tryDecodeUtf8 codec payload
  match fallback.bind fun f => asString (field (JsonObject.prop f "json") "value") with
  | some value => some [("value", .str value)]
  | none => fallback

/-- A flat payload that has decoded, but may be JSON all the same. -/
def resolveValueString (codec : Codec B N) (typeName : String) (payload : B) (decoded : JsonObject N) :
    Option (JsonObject N) :=
  let isString := fun object : JsonObject N => (asString (JsonObject.prop object "value")).isSome
  let json := decodeValueStringJson codec payload
  if isString decoded && codec.isCanonicalProto typeName payload then some decoded
  else if json.any fun j => isString j && (JsonObject.prop j "encoding").isNone then json
  else if isString decoded then some decoded else json

def decodeKnown (codec : Codec B N) (modeName messageType : String) (payload : B) : Option (JsonObject N) :=
  match getKnownTypeName modeName messageType with
  | none => tryDecodeUtf8 codec payload
  | some typeName =>
    if typeName = "__json__" then tryDecodeUtf8 codec payload
    else
      match codec.decodeMessage typeName payload with
      | some decoded =>
        if typeName ∈ valueStringTypes then resolveValueString codec typeName payload decoded else some decoded
      | none =>
        if typeName ∈ valueStringTypes then decodeValueStringJson codec payload else tryDecodeUtf8 codec payload

end ProtoRegistry

end MacpControlPlane

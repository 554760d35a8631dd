import MacpControlPlane.Events.EventNormalizer

/-!
# The events of a list of envelopes

`normalize` is called for one envelope after the other, with one set of known participants.  What is gathered from the
events, but from no `participant.seen`, is gathered envelope by envelope.
-/

namespace MacpControlPlane

open Js EventNormalizer

variable {B N : Type}

/-- An envelope as it comes in. -/
structure RawEnvelope (B N : Type) where
  ctx : EventContext
  envelope : RuntimeEnvelope B N
  senderAuthenticated : Option Bool

/-- The decoded payload of an envelope. -/
def RawEnvelope.decoded (codec : Codec B N) (raw : RawEnvelope B N) : Option (Json N) :=
  (ProtoRegistry.decodeKnown codec raw.envelope.mode raw.envelope.messageType raw.envelope.payload).map .obj

/-- The envelope with what `normalize` works out of it. -/
def RawEnvelope.incoming (codec : Codec B N) (raw : RawEnvelope B N) : Incoming B N where
  ctx := raw.ctx
  envelope := raw.envelope
  senderAuthenticated := raw.senderAuthenticated
  decoded := ProtoRegistry.decodeKnown codec raw.envelope.mode raw.envelope.messageType raw.envelope.payload

namespace EventNormalizer

variable [JsNumber N] (codec : Codec B N) (patterns : List (String → String))

/-- The events of an envelope, but for its `participant.seen`. -/
def eventsOf (raw : RawEnvelope B N) : List (CanonicalEvent N) :=
  messageEvents (raw.incoming codec) codec patterns

/-- `normalize` of each envelope, with what the ones before it have made known. -/
def normalizeAll : List String → List (RawEnvelope B N) → List (CanonicalEvent N)
  | _, [] => []
  | knownParticipants, raw :: raws =>
    let normalized := normalizeEnvelope codec patterns raw.ctx knownParticipants raw.envelope raw.senderAuthenticated
    normalized.1 ++ normalizeAll normalized.2 raws

variable {codec patterns}

/-- An envelope of a new sender has a `participant.seen` in front. -/
theorem normalizeEnvelope_eq (known : List String) (raw : RawEnvelope B N) :
    (normalizeEnvelope codec patterns raw.ctx known raw.envelope raw.senderAuthenticated).1 =
        eventsOf codec patterns raw ∨
      (normalizeEnvelope codec patterns raw.ctx known raw.envelope raw.senderAuthenticated).1 =
        participantSeen (raw.incoming codec) :: eventsOf codec patterns raw := by
  unfold normalizeEnvelope
  by_cases hknown : raw.envelope.sender ∈ known
  · left
    rw [if_pos hknown]
    rfl
  · right
    rw [if_neg hknown]
    rfl

/-- What is gathered from a `participant.seen` is nothing, so that the known participants do not matter. -/
theorem flatMap_normalizeAll {β : Type} {gather : CanonicalEvent N → List β}
    (hseen : ∀ e, e.type = .participantSeen → gather e = []) (known : List String) (raws : List (RawEnvelope B N)) :
    (normalizeAll codec patterns known raws).flatMap gather =
      raws.flatMap fun raw => (eventsOf codec patterns raw).flatMap gather := by
  induction raws generalizing known with
  | nil => rfl
  | cons raw raws ih =>
    rw [normalizeAll, List.flatMap_append, ih, List.flatMap_cons]
    congr 1
    rcases normalizeEnvelope_eq known raw with h | h <;> rw [h]
    rw [List.flatMap_cons, hseen _ rfl, List.nil_append]

end EventNormalizer

/-! ### Payloads that are text -/

/-- A payload that no protobuf type decodes: its text, with the base64 form, and what it parses to. -/
structure WireText where
  text : String
  base64 : String
  json : Option (Json (Option Rat))

namespace WireText

variable (w : WireText)

def bytes : List Nat := w.text.toList.map Char.toNat

/-- The libraries, as far as they handle these bytes. -/
def codec : Codec (List Nat) (Option Rat) where
  decodeMessage _ _ := none
  isCanonicalProto _ _ := false
  isEmpty := List.isEmpty
  toUtf8 payload := String.ofList (payload.map Char.ofNat)
  toBase64 payload := if payload = w.bytes then w.base64 else ""
  ofBase64 text := if text = w.base64 then w.bytes else []
  parseJson text := if text = w.text then w.json else none

/-- An envelope with the text. -/
def raw (messageType : String) : RawEnvelope (List Nat) (Option Rat) where
  ctx := ⟨"r1", "2026-10-24T00:00:00.000Z", fun _ => "e1"⟩
  envelope :=
    { macpVersion := "1.0"
      mode := "macp.mode.decision.v1"
      messageType
      messageId := "m1"
      sessionId := "s1"
      sender := "analyst"
      timestampUnixMs := some 0
      payload := w.bytes }
  senderAuthenticated := none

end WireText

end MacpControlPlane

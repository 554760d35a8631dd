import Mathlib.Data.List.Forall2
import MacpControlPlane.Metrics.TokenAccounting

/-!
# Redaction of prompts (`telemetry/redaction.service.ts`)

Two runs of `normalize`, on payloads that differ only in the texts of their LLM call, where redaction makes the same of
both.  The `llm.call.completed` is redacted and does not tell the payloads apart; `message.received` carries the payload
as it has been decoded.
-/

namespace MacpControlPlane

open Js EventNormalizer

variable {B N : Type}

namespace PromptRedaction

/-! ### Payloads that differ in the texts of their LLM call -/

/-- Objects with the same fields in the same order, and with values that are equal or related. -/
def FieldsRelated (related : String → Json N → Json N → Prop) (x y : Json N) : Prop :=
  ∃ fields fields', x = .obj fields ∧ y = .obj fields' ∧
    List.Forall₂ (fun f g => f.1 = g.1 ∧ (f.2 = g.2 ∨ related f.1 f.2 g.2)) fields fields'

/-- Objects that differ only in the field `k`. -/
def DifferAt (k : String) (related : Json N → Json N → Prop) : Json N → Json N → Prop :=
  FieldsRelated fun l x y => l = k ∧ related x y

/-- The fields of an LLM call that hold texts. -/
def textFields : List String := ["prompt", "response"]

/-- Texts that redaction maps to the same text. -/
def SameRedacted (patterns : List (String → String)) (x y : Json N) : Prop :=
  ∃ s t, x = .str s ∧ y = .str t ∧
    patterns.foldl (fun out replace => replace out) s = patterns.foldl (fun out replace => replace out) t

/-- LLM calls that differ only in texts, which redaction maps to the same. -/
def SameCall (patterns : List (String → String)) : Json N → Json N → Prop :=
  FieldsRelated fun k x y => k ∈ textFields ∧ SameRedacted patterns x y

/-- What the `data` of a signal encodes. -/
def parsedData (codec : Codec B N) (raw : String) : Option (Json N) :=
  codec.parseJson (codec.toUtf8 (codec.ofBase64 raw))

/-- Encoded data that differ only in what they encode. -/
def DifferInData (codec : Codec B N) (related : Json N → Json N → Prop) (x y : Json N) : Prop :=
  ∃ raw raw', x = .str raw ∧ y = .str raw' ∧
    ∃ data data', parsedData codec raw = some data ∧ parsedData codec raw' = some data' ∧ related data data'

/-- Where `extractLlmCall` looks for a call. -/
inductive Place where
  | llmCall | metadataLlmCall | tokenUsage | metadataTokenUsage | signal | signalTokenUsage

/-- Its position among the candidates. -/
def Place.index : Place → Nat
  | .llmCall => 0
  | .metadataLlmCall => 1
  | .tokenUsage => 2
  | .metadataTokenUsage => 3
  | .signal => 4
  | .signalTokenUsage => 5

/-- Payloads that differ only at that place. -/
def Place.Differ (codec : Codec B N) (related : Json N → Json N → Prop) : Place → Json N → Json N → Prop
  | .llmCall => DifferAt "llmCall" related
  | .metadataLlmCall => DifferAt "metadata" (DifferAt "llmCall" related)
  | .tokenUsage => DifferAt "tokenUsage" related
  | .metadataTokenUsage => DifferAt "metadata" (DifferAt "tokenUsage" related)
  | .signal => DifferAt "data" (DifferInData codec related)
  | .signalTokenUsage => DifferAt "data" (DifferInData codec (DifferAt "tokenUsage" related))

variable [JsNumber N]

/-- The call of the payload is found at that place. -/
def FoundAt (codec : Codec B N) (place : Place) (payload : Json N) : Prop :=
  (llmCandidates codec (some payload)).findIdx? isLlmCall = some place.index

instance (codec : Codec B N) (place : Place) (payload : Json N) : Decidable (FoundAt codec place payload) :=
  inferInstanceAs (Decidable (_ = _))

/-- Payloads that differ only in the texts of the LLM call found in them, which redaction maps to the same. -/
def DifferInCall (codec : Codec B N) (patterns : List (String → String)) (x y : Json N) : Prop :=
  ∃ place : Place, FoundAt codec place x ∧ FoundAt codec place y ∧ place.Differ codec (SameCall patterns) x y

/-! ### Two runs -/

variable {codec : Codec B N} {patterns : List (String → String)} {x y : Json N}

/-- The same envelope with another payload, handled at another time. -/
def resent (raw : RawEnvelope B N) (payload : B) (randomUUID : Nat → String) : RawEnvelope B N :=
  { raw with ctx := { raw.ctx with randomUUID }, envelope := { raw.envelope with payload } }

/-- Envelopes whose decoded payloads differ only in the texts of their LLM call. -/
def DifferInPrompt (codec : Codec B N) (patterns : List (String → String)) (raw raw' : RawEnvelope B N) : Prop :=
  ∃ payload randomUUID x y, raw' = resent raw payload randomUUID ∧ raw.decoded codec = some x ∧
    raw'.decoded codec = some y ∧ DifferInCall codec patterns x y

omit [JsNumber N] in
def withoutId (e : CanonicalEvent N) : CanonicalEvent N := { e with id := "" }

variable (codec patterns) in
/-- The events of `normalize`, up to their fresh ids. -/
def normalized (known : List String) (raw : RawEnvelope B N) : List (CanonicalEvent N) :=
  (normalizeEnvelope codec patterns raw.ctx known raw.envelope raw.senderAuthenticated).1.map withoutId

/-- The other run on a message. -/
def again (msg : Incoming B N) (payload : B) (randomUUID : Nat → String) : Incoming B N :=
  { msg with ctx := { msg.ctx with randomUUID }, envelope := { msg.envelope with payload } }

section Again

variable (msg : Incoming B N) (payload : B) (randomUUID : Nat → String)

private theorem taskEvents_again :
    (taskEvents (again msg payload randomUUID)).map withoutId = (taskEvents msg).map withoutId := by
  have hget : ∀ k, (again msg payload randomUUID).get k = msg.get k := fun _ => rfl
  have htype : (again msg payload randomUUID).envelope.messageType = msg.envelope.messageType := rfl
  unfold taskEvents
  rw [htype]
  simp only [hget]
  split_ifs
  · cases msg.get "progress" <;> rfl
  · rfl
  · rfl
  · rfl

private theorem policyEvents_again :
    (policyEvents (again msg payload randomUUID)).map withoutId = (policyEvents msg).map withoutId := by
  have hget : ∀ k, (again msg payload randomUUID).get k = msg.get k := fun _ => rfl
  have htype : (again msg payload randomUUID).envelope.messageType = msg.envelope.messageType := rfl
  have hdecoded : (again msg payload randomUUID).decoded = msg.decoded := rfl
  unfold policyEvents
  rw [htype, hdecoded]
  simp only [hget]
  cases msg.decoded with
  | none => split_ifs <;> rfl
  | some decoded =>
    dsimp only
    split_ifs <;> rfl

private theorem progressEvents_again :
    (progressEvents (again msg payload randomUUID)).map withoutId = (progressEvents msg).map withoutId := by
  have htype : (again msg payload randomUUID).envelope.messageType = msg.envelope.messageType := rfl
  have hdecoded : (again msg payload randomUUID).decoded = msg.decoded := rfl
  unfold progressEvents
  rw [htype, hdecoded]
  split_ifs <;> rfl

/-- A message with a decoded payload is normalized the same in every run. -/
theorem messageEvents_again {fields : JsonObject N} (h : msg.decoded = some fields) :
    (messageEvents (again msg payload randomUUID) codec patterns).map withoutId =
      (messageEvents msg codec patterns).map withoutId := by
  have htype : (again msg payload randomUUID).envelope.messageType = msg.envelope.messageType := rfl
  have hdecoded : (again msg payload randomUUID).decoded = msg.decoded := rfl
  have hreceived : withoutId (messageReceived (again msg payload randomUUID) codec) =
      withoutId (messageReceived msg codec) := by
    unfold messageReceived
    rw [hdecoded, h]
    rfl
  have hcall : ∀ call : Option (JsonObject N),
      (call.map fun llm =>
          llmCallCompleted (again msg payload randomUUID) (RedactionService.redact patterns llm)).toList.map withoutId =
        (call.map fun llm => llmCallCompleted msg (RedactionService.redact patterns llm)).toList.map withoutId := by
    intro call
    cases call <;> rfl
  have hderived : ∀ type : Option CanonicalEventType,
      (type.map (derived (again msg payload randomUUID))).toList.map withoutId =
        (type.map (derived msg)).toList.map withoutId := by
    intro type
    cases type <;> rfl
  unfold messageEvents
  simp only [List.map_cons, List.map_append, taskEvents_again, policyEvents_again, progressEvents_again, hreceived,
    hcall, hderived]
  rw [htype, hdecoded]

end Again

variable {raw : RawEnvelope B N} {payload : B} {randomUUID : Nat → String}

omit [JsNumber N] in
/-- Where both payloads decode to the same, the other run is on the same message. -/
theorem incoming_resent (h : raw.decoded codec = (resent raw payload randomUUID).decoded codec) :
    (resent raw payload randomUUID).incoming codec = again (raw.incoming codec) payload randomUUID := by
  have hdecoded : ((resent raw payload randomUUID).incoming codec).decoded = (raw.incoming codec).decoded :=
    Option.map_injective (fun _ _ => Json.obj.inj) h.symm
  unfold again
  rw [← hdecoded]
  rfl

/-- The participants that are known do not tell the runs apart. -/
theorem normalized_resent_iff (known : List String) :
    normalized codec patterns known raw = normalized codec patterns known (resent raw payload randomUUID) ↔
      (eventsOf codec patterns raw).map withoutId =
        (eventsOf codec patterns (resent raw payload randomUUID)).map withoutId := by
  have hsender : (resent raw payload randomUUID).envelope.sender = raw.envelope.sender := rfl
  unfold normalized normalizeEnvelope
  by_cases hknown : raw.envelope.sender ∈ known
  · rw [if_pos hknown, hsender, if_pos hknown]
    rfl
  · rw [if_neg hknown, hsender, if_neg hknown, List.map_cons, List.map_cons, List.cons.injEq]
    exact and_iff_right rfl

/-- `message.received` tells different payloads apart. -/
theorem decoded_eq_of_events {x y : JsonObject N} (hx : raw.decoded codec = some (.obj x))
    (hy : (resent raw payload randomUUID).decoded codec = some (.obj y))
    (h : (eventsOf codec patterns raw).map withoutId =
      (eventsOf codec patterns (resent raw payload randomUUID)).map withoutId) : x = y := by
  have hdecoded : ∀ {raw : RawEnvelope B N} {fields : JsonObject N}, raw.decoded codec = some (.obj fields) →
      (raw.incoming codec).decoded = some fields :=
    fun h => Option.map_injective (fun _ _ => Json.obj.inj) h
  have hreceived := congrArg (fun e => e.datum "payload") (List.cons.inj h).1
  have hpayload : ∀ {raw : RawEnvelope B N} {fields : JsonObject N}, raw.decoded codec = some (.obj fields) →
      (withoutId (messageReceived (raw.incoming codec) codec)).datum "payload" = some (.obj fields) := by
    intro raw fields hraw
    show (messageReceived (raw.incoming codec) codec).datum "payload" = _
    rw [datum_messageReceived_payload, hdecoded hraw, Option.getD_some]
  exact Json.obj.inj (Option.some.inj ((hpayload hx).symm.trans (hreceived.trans (hpayload hy))))

/-- Two envelopes whose payloads differ only in texts of their LLM call, which redaction maps to the same, are
normalized the same exactly when their payloads do not differ at all. -/
theorem normalize_redacted_iff (codec : Codec B N) (patterns : List (String → String)) (known : List String)
    {raw raw' : RawEnvelope B N} (h : DifferInPrompt codec patterns raw raw') :
    normalized codec patterns known raw = normalized codec patterns known raw' ↔
      raw.decoded codec = raw'.decoded codec := by
  obtain ⟨payload, randomUUID, x, y, rfl, hx, hy, -⟩ := h
  obtain ⟨fields, hfields, rfl⟩ := Option.map_eq_some_iff.1 hx
  obtain ⟨fields', -, rfl⟩ := Option.map_eq_some_iff.1 hy
  rw [normalized_resent_iff]
  constructor
  · intro hevents
    rw [hx, hy, decoded_eq_of_events hx hy hevents]
  · intro hdecoded
    unfold eventsOf
    rw [incoming_resent hdecoded]
    exact (messageEvents_again (raw.incoming codec) payload randomUUID hfields).symm

/-! ### A key in a prompt -/

/-- A signal whose prompt holds a key. -/
def alpha : WireSignal where
  text := "\x7b\"promptTokens\":1,\"prompt\":\"sk-alpha\"\x7d"
  base64 := "eyJwcm9tcHRUb2tlbnMiOjEsInByb21wdCI6InNrLWFscGhhIn0="
  call := [("promptTokens", .num (some 1)), ("prompt", .str "sk-alpha")]

/-- The same signal with another key. -/
def bravo : WireSignal where
  text := "\x7b\"promptTokens\":1,\"prompt\":\"sk-bravo\"\x7d"
  base64 := "eyJwcm9tcHRUb2tlbnMiOjEsInByb21wdCI6InNrLWJyYXZvIn0="
  call := [("promptTokens", .num (some 1)), ("prompt", .str "sk-bravo")]

/-- The libraries, as far as they handle the two. -/
def signalCodec : Codec (List Nat) (Option Rat) where
  decodeMessage typeName payload :=
    (alpha.codec.decodeMessage typeName payload).or (bravo.codec.decodeMessage typeName payload)
  isCanonicalProto typeName payload :=
    alpha.codec.isCanonicalProto typeName payload || bravo.codec.isCanonicalProto typeName payload
  isEmpty := List.isEmpty
  toUtf8 := alpha.codec.toUtf8
  toBase64 payload := if payload = WireSignal.bytes alpha.text then alpha.base64 else bravo.codec.toBase64 payload
  ofBase64 text := if text = alpha.base64 then WireSignal.bytes alpha.text else bravo.codec.ofBase64 text
  parseJson text := (alpha.codec.parseJson text).or (bravo.codec.parseJson text)

/-- `/sk-[a-z]+/g`, on texts that are one key or hold none. -/
def keyPattern (input : String) : String := if startsWith input "sk-" then "[REDACTED]" else input

private theorem decoded_alpha : alpha.raw.decoded signalCodec = some (.obj alpha.fields) := by decide +kernel

private theorem decoded_bravo : bravo.raw.decoded signalCodec = some (.obj bravo.fields) := by decide +kernel

private theorem differInPrompt_keys : DifferInPrompt signalCodec [keyPattern] alpha.raw bravo.raw := by
  refine ⟨bravo.payload, fun _ => "e1", .obj alpha.fields, .obj bravo.fields, rfl, decoded_alpha, decoded_bravo,
    .signal, by decide +kernel, by decide +kernel, ?_⟩
  refine ⟨alpha.fields, bravo.fields, rfl, rfl, .cons ⟨rfl, .inl rfl⟩ (.cons ⟨rfl, .inr ⟨rfl, ?_⟩⟩ .nil)⟩
  refine ⟨alpha.base64, bravo.base64, rfl, rfl, .obj alpha.call, .obj bravo.call, by decide +kernel, by decide +kernel,
    ?_⟩
  refine ⟨alpha.call, bravo.call, rfl, rfl, .cons ⟨rfl, .inl rfl⟩ (.cons ⟨rfl, .inr ⟨by decide, ?_⟩⟩ .nil)⟩
  exact ⟨"sk-alpha", "sk-bravo", rfl, rfl, by decide⟩

theorem normalize_redacted_iff_keys :
    normalized signalCodec [keyPattern] [] alpha.raw = normalized signalCodec [keyPattern] [] bravo.raw ↔
      alpha.raw.decoded signalCodec = bravo.raw.decoded signalCodec :=
  normalize_redacted_iff signalCodec [keyPattern] [] differInPrompt_keys

/-- The events still tell the keys apart. -/
theorem normalized_tells_keys : DifferInPrompt signalCodec [keyPattern] alpha.raw bravo.raw ∧
    normalized signalCodec [keyPattern] [] alpha.raw ≠ normalized signalCodec [keyPattern] [] bravo.raw := by
  refine ⟨differInPrompt_keys, fun h => ?_⟩
  have hevents : (eventsOf signalCodec [keyPattern] alpha.raw).map withoutId =
      (eventsOf signalCodec [keyPattern] (resent alpha.raw bravo.payload fun _ => "e1")).map withoutId :=
    (normalized_resent_iff []).1 h
  exact absurd (decoded_eq_of_events decoded_alpha decoded_bravo hevents) (by decide)

end PromptRedaction

end MacpControlPlane

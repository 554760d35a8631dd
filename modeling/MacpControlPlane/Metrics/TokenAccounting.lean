import Mathlib.Tactic.Linarith
import MacpControlPlane.Events.NormalizedLog
import MacpControlPlane.Metrics.MetricsService
import MacpControlPlane.Projection.Sections

/-!
# Token usage across the stores

Every envelope goes through the normalizer, and its events through `recordEvents` and the reducer.  The LLM call that
`extractLlmCall` finds reaches both by an event of its own.  The metrics look for usage in every event, so that they
find it again wherever the decoded payload is carried along.
-/

namespace MacpControlPlane

open Js EventNormalizer MetricsService

variable {B N : Type} [JsNumber N] [ExactNumber N]

namespace TokenAccounting

section Stores

variable (codec : Codec B N) (patterns : List (String → String))

/-- The participants that the normalizer has seen, the metrics and the projection of a run. -/
structure Stores (N : Type) where
  knownParticipants : List String
  metrics : Option RunMetrics
  projection : RunStateProjection N

def Stores.initial (runId : String) : Stores N := ⟨[], none, .empty runId⟩

def Stores.normalized (s : Stores N) (raw : RawEnvelope B N) : List (CanonicalEvent N) × List String :=
  normalizeEnvelope codec patterns raw.ctx s.knownParticipants raw.envelope raw.senderAuthenticated

def Stores.ingest (s : Stores N) (raw : RawEnvelope B N) : Stores N where
  knownParticipants := (s.normalized codec patterns raw).2
  metrics := some (recordEvents s.metrics (s.normalized codec patterns raw).1)
  projection := applyEvents s.projection (s.normalized codec patterns raw).1

end Stores

variable {codec : Codec B N} {patterns : List (String → String)}

/-! ### What an envelope reports -/

/-- What a usage adds to a counter, at the rates of a model. -/
def amount (usage : TokenUsage) (model : Option String) : Counter → Rat
  | .promptTokens => usage.promptTokens
  | .completionTokens => usage.completionTokens
  | .totalTokens => usage.promptTokens + usage.completionTokens
  | .estimatedCostUsd => price usage (ratesOf model)
  | _ => 0

/-- The counters of tokens and costs. -/
def tokenCounters : List Counter := [.promptTokens, .completionTokens, .totalTokens, .estimatedCostUsd]

/-- The usage that an LLM call holds. -/
def callUsage (call : JsonObject N) : TokenUsage :=
  ⟨safeNumber (JsonObject.prop call "promptTokens"), safeNumber (JsonObject.prop call "completionTokens")⟩

/-- The usage that `extractLlmCall` finds. -/
def reportedUsage (codec : Codec B N) (decoded : Option (Json N)) : TokenUsage :=
  ((extractLlmCall codec decoded).map callUsage).getD ⟨0, 0⟩

/-- The model that it finds. -/
def reportedModel (codec : Codec B N) (decoded : Option (Json N)) : Option String :=
  (extractLlmCall codec decoded).bind fun call => asString (JsonObject.prop call "model")

/-- What an envelope counts for. -/
def reported (codec : Codec B N) (decoded : Option (Json N)) : Counter → Rat :=
  amount (reportedUsage codec decoded) (reportedModel codec decoded)

/-- The token counts of a payload are not negative. -/
def NonNegative (codec : Codec B N) (decoded : Option (Json N)) : Prop :=
  ∀ c ∈ llmCandidates codec decoded, isLlmCall c = true →
    0 ≤ ExactNumber.value (promptTokens c) ∧ 0 ≤ ExactNumber.value (completionTokens c)

/-- Another event than the LLM call carries the decoded payload. -/
def carriesPayload (messageType : String) (decoded : Option (Json N)) : Bool :=
  (deriveEventType messageType).isSome || asBool (field decoded "policyDenied") = some true

/-- The usage of a payload is counted once, at the rates of its model: no other event carries the payload, or the
metrics find no usage in it, and the model is one without rates of its own. -/
structure CountedOnce (codec : Codec B N) (messageType : String) (decoded : Option (Json N)) : Prop where
  once : carriesPayload messageType decoded = false ∨
    (isUsage decoded = false ∧ isUsage (field decoded "tokenUsage") = false)
  rates : reportedUsage codec decoded = ⟨0, 0⟩ ∨ ratesOf (reportedModel codec decoded) = defaultRates

/-- The metrics and the projection hold what the envelopes report. -/
structure Agrees (codec : Codec B N) (raws : List (RawEnvelope B N)) (s : Stores N) : Prop where
  counted : ∀ counter ∈ tokenCounters,
    (s.metrics.getD {}).count counter = (raws.map fun raw => reported codec (raw.decoded codec) counter).sum
  projected : ExactNumber.value s.projection.llm.promptTokens = (s.metrics.getD {}).promptTokens ∧
    ExactNumber.value s.projection.llm.completionTokens = (s.metrics.getD {}).completionTokens ∧
    ExactNumber.value s.projection.llm.totalTokens = (s.metrics.getD {}).totalTokens

/-! ### The call that is found -/

section Call

variable {decoded : Option (Json N)} {call : JsonObject N}

omit [ExactNumber N] in
/-- Where the call has been found. -/
theorem extractLlmCall_eq_some (h : extractLlmCall codec decoded = some call) :
    ∃ c ∈ llmCandidates codec decoded, isLlmCall c = true ∧ call = llmCall c := by
  obtain ⟨c, hfound, rfl⟩ := Option.map_eq_some_iff.1 h
  exact ⟨c, List.mem_of_find?_eq_some hfound, List.find?_some hfound, rfl⟩

omit [ExactNumber N] in
/-- The counts of a call that has been found are finite. -/
theorem isFinite_of_isLlmCall {c : Option (Json N)} (h : isLlmCall c = true) :
    JsNumber.isFinite (promptTokens c) = true ∧ JsNumber.isFinite (completionTokens c) = true := by
  simp only [isLlmCall, Bool.and_eq_true] at h
  exact ⟨h.1.1.2, h.1.2⟩

/-- A finite number is its own value. -/
theorem safeNumber_num {n : N} (h : JsNumber.isFinite n = true) :
    safeNumber (some (.num n)) = ExactNumber.value n := by
  simp [safeNumber, toNumber, h]

omit [ExactNumber N] in
private theorem prop_llmCall_promptTokens (c : Option (Json N)) :
    JsonObject.prop (llmCall c) "promptTokens" = some (.num (promptTokens c)) := rfl

omit [ExactNumber N] in
private theorem prop_llmCall_completionTokens (c : Option (Json N)) :
    JsonObject.prop (llmCall c) "completionTokens" = some (.num (completionTokens c)) := rfl

omit [ExactNumber N] in
private theorem prop_llmCall_totalTokens (c : Option (Json N)) : JsonObject.prop (llmCall c) "totalTokens" =
    some (.num (JsNumber.add (promptTokens c) (completionTokens c))) := rfl

omit [ExactNumber N] in
private theorem prop_llmCall_tokenUsage (c : Option (Json N)) : JsonObject.prop (llmCall c) "tokenUsage" = none := by
  simp [llmCall]

/-- The usage of a call is the one of its candidate. -/
theorem callUsage_llmCall {c : Option (Json N)} (h : isLlmCall c = true) :
    callUsage (llmCall c) = ⟨ExactNumber.value (promptTokens c), ExactNumber.value (completionTokens c)⟩ := by
  obtain ⟨hprompt, hcompletion⟩ := isFinite_of_isLlmCall h
  simp only [callUsage, prop_llmCall_promptTokens, prop_llmCall_completionTokens, safeNumber_num hprompt,
    safeNumber_num hcompletion]

private theorem reportedUsage_nonneg (h : NonNegative codec decoded) :
    0 ≤ (reportedUsage codec decoded).promptTokens ∧ 0 ≤ (reportedUsage codec decoded).completionTokens := by
  unfold reportedUsage
  cases hcall : extractLlmCall codec decoded with
  | none => simp
  | some call =>
    obtain ⟨c, hmem, hc, rfl⟩ := extractLlmCall_eq_some hcall
    rw [Option.map_some, Option.getD_some, callUsage_llmCall hc]
    exact h c hmem hc

end Call

/-! ### What an event contributes -/

section Event

/-- The usage of a decoded payload that an event carries along. -/
def payloadUsage (decoded : Option (Json N)) : TokenUsage :=
  (([decoded, field decoded "tokenUsage"].find? isUsage).map usageAt).getD ⟨0, 0⟩

/-- The fields where the metrics look for usage outside the decoded payload. -/
def usageNames : List String :=
  ["promptTokens", "prompt_tokens", "completionTokens", "completion_tokens", "tokenUsage", "metadata",
    "payloadDescriptor"]

/-- An event without usage outside its decoded payload. -/
def Plain (event : CanonicalEvent N) : Prop :=
  ∀ k ∈ usageNames, event.datum k = none

@[simp] theorem isUsage_none : isUsage (none : Option (Json N)) = false := rfl

omit [JsNumber N] [ExactNumber N] in
@[simp] theorem field_none (k : String) : field (none : Option (Json N)) k = none := rfl

omit [JsNumber N] [ExactNumber N] in
@[simp] theorem coalesce_none (a : Option (Json N)) : coalesce none a = a := rfl

@[simp] theorem safeNumber_undefined : safeNumber (none : Option (Json N)) = 0 := by
  simp [safeNumber, toNumber, ExactNumber.isFinite_nan]

private theorem usageAt_of_fields {c : Option (Json N)}
    (h : ∀ k ∈ ["promptTokens", "prompt_tokens", "completionTokens", "completion_tokens"], field c k = none) :
    usageAt c = ⟨0, 0⟩ := by
  simp only [List.forall_mem_cons] at h
  obtain ⟨hprompt, hprompt', hcompletion, hcompletion', -⟩ := h
  simp [usageAt, hprompt, hprompt', hcompletion, hcompletion']

private theorem isUsage_of_fields {c : Option (Json N)}
    (h : ∀ k ∈ ["promptTokens", "prompt_tokens", "completionTokens", "completion_tokens"], field c k = none) :
    isUsage c = false := by
  simp [isUsage, usageAt_of_fields h]

private theorem payloadUsage_of_fields {decoded : Option (Json N)}
    (h : ∀ k ∈ ["promptTokens", "prompt_tokens", "completionTokens", "completion_tokens", "tokenUsage"],
      field decoded k = none) : payloadUsage decoded = ⟨0, 0⟩ := by
  have hfields : isUsage decoded = false := by
    apply isUsage_of_fields
    intro k hk
    exact h k (List.mem_append_left ["tokenUsage"] hk)
  have hnone : field decoded "tokenUsage" = none := h _ (by simp)
  simp [payloadUsage, hfields, hnone]

/-- A usage that the metrics take is not zero. -/
theorem payloadUsage_eq_zero_iff {decoded : Option (Json N)} :
    payloadUsage decoded = ⟨0, 0⟩ ↔ isUsage decoded = false ∧ isUsage (field decoded "tokenUsage") = false := by
  have htaken : ∀ c : Option (Json N), isUsage c = true → usageAt c ≠ ⟨0, 0⟩ := by
    intro c hc hzero
    simp [isUsage, hzero] at hc
  unfold payloadUsage
  cases hdecoded : isUsage decoded with
  | true => simp [hdecoded, htaken decoded hdecoded]
  | false =>
    cases husage : isUsage (field decoded "tokenUsage") with
    | true => simp [hdecoded, husage, htaken _ husage]
    | false => simp [hdecoded, husage]

private theorem extractTokenUsage_of_plain {event : CanonicalEvent N} (h : Plain event) :
    (extractTokenUsage event).getD ⟨0, 0⟩ = payloadUsage (event.datum "decodedPayload") := by
  have hdata : isUsage (some (.obj event.data)) = false := by
    apply isUsage_of_fields
    intro k hk
    exact h k (List.mem_append_left ["tokenUsage", "metadata", "payloadDescriptor"] hk)
  have husage : event.datum "tokenUsage" = none := h _ (by decide)
  have hmetadata : event.datum "metadata" = none := h _ (by decide)
  have hdescriptor : event.datum "payloadDescriptor" = none := h _ (by decide)
  unfold extractTokenUsage usageCandidates payloadUsage
  simp [hdata, husage, hmetadata, hdescriptor, List.find?_cons]

omit [ExactNumber N] in
private theorem eventModel_of_plain {event : CanonicalEvent N} (h : Plain event) : eventModel event = none := by
  have husage : event.datum "tokenUsage" = none := h _ (by decide)
  have hmetadata : event.datum "metadata" = none := h _ (by decide)
  have hmodel : modelValue event = none := by simp [modelValue, husage, hmetadata]
  simp [eventModel, hmodel, truthy]

/-- The usage of such an event has a cost. -/
theorem isUnpriced_of_plain {event : CanonicalEvent N} (h : Plain event) : isUnpriced event = false := by
  rw [isUnpriced, eventModel_of_plain h, Bool.and_eq_false_iff]
  exact .inr (by decide)

/-- An event contributes the usage of its decoded payload, at the default rates. -/
theorem contribution_of_plain {event : CanonicalEvent N} (h : Plain event) {counter : Counter}
    (hcounter : counter ∈ tokenCounters) :
    contribution counter event = amount (payloadUsage (event.datum "decodedPayload")) none counter := by
  have hinherited : isInherited none = false := by decide
  rw [← extractTokenUsage_of_plain h]
  simp only [tokenCounters, List.mem_cons, List.not_mem_nil, or_false] at hcounter
  cases husage : extractTokenUsage event <;> rcases hcounter with rfl | rfl | rfl | rfl <;>
    simp [contribution, recordEvent, RunMetrics.count, amount, husage, eventModel_of_plain h, estimateCost, hinherited,
      addCost, price]

end Event

/-! ### What an envelope contributes -/

section Envelope

omit [JsNumber N] [ExactNumber N] in
/-- The data that `normalize` makes has no usage outside the decoded payload. -/
theorem plain_makeEvent {msg : Incoming B N} {call : Nat} {type : CanonicalEventType} {subject : Subject}
    {data : List (String × Option (Json N))}
    (h : (data.map Prod.fst).all (fun name => !usageNames.contains name) = true) :
    Plain (msg.makeEvent call type subject data) := by
  intro k hk
  show JsonObject.prop (object data) k = none
  induction data with
  | nil => rfl
  | cons entry data ih =>
    obtain ⟨l, v⟩ := entry
    obtain ⟨hname, hrest⟩ := Bool.and_eq_true_iff.1 h
    have hne : k ≠ l := by
      rintro rfl
      have hmem : usageNames.contains k = true := List.contains_iff_mem.2 hk
      simp only [hmem, Bool.not_true, Bool.false_eq_true] at hname
    rw [prop_object_cons_of_ne hne]
    exact ih hrest

/-- An event with this usage, which the reducer does not count. -/
structure Bears (usage : TokenUsage) (event : CanonicalEvent N) : Prop where
  plain : Plain event
  payload : payloadUsage (event.datum "decodedPayload") = usage
  type : event.type ≠ .llmCallCompleted

private theorem contributions_of_bears {usage : TokenUsage} {events : List (CanonicalEvent N)}
    (h : ∀ event ∈ events, Bears usage event) {counter : Counter} (hcounter : counter ∈ tokenCounters) :
    contributions counter events = events.length * amount usage none counter := by
  have hconst : ∀ x ∈ events.map (contribution counter), x = amount usage none counter := by
    intro x hx
    obtain ⟨event, hevent, rfl⟩ := List.mem_map.1 hx
    rw [contribution_of_plain (h event hevent).plain hcounter, (h event hevent).payload]
  rw [contributions, List.eq_replicate_of_mem hconst]
  simp

private theorem Bears.llm {usage : TokenUsage} {event : CanonicalEvent N} (h : Bears usage event)
    (l : LlmProjection N) : Reducer.llm l event = l := by
  have htype := h.type
  unfold Reducer.llm
  split
  · contradiction
  · rfl

private theorem llm_of_bears {usage : TokenUsage} {events : List (CanonicalEvent N)}
    (h : ∀ event ∈ events, Bears usage event) (l : LlmProjection N) : events.foldl Reducer.llm l = l := by
  induction events with
  | nil => rfl
  | cons event events ih =>
    rw [List.foldl_cons, (h event List.mem_cons_self).llm]
    exact ih fun e he => h e (List.mem_cons_of_mem _ he)

variable (msg : Incoming B N)

private theorem bears_makeEvent {call : Nat} {type : CanonicalEventType} {subject : Subject} {payload : Option (Json N)}
    {data : List (String × Option (Json N))} {usage : TokenUsage} (husage : payloadUsage payload = usage)
    (htype : type ≠ .llmCallCompleted)
    (hnames : (data.map Prod.fst).all (fun name => !usageNames.contains name) = true)
    (hpayload : JsonObject.prop (object data) "decodedPayload" = payload) :
    Bears usage (msg.makeEvent call type subject data) where
  plain := plain_makeEvent hnames
  payload := (congrArg payloadUsage hpayload).trans husage
  type := htype

private theorem payloadUsage_none : payloadUsage (none : Option (Json N)) = ⟨0, 0⟩ := rfl

private theorem bears_participantSeen : Bears ⟨0, 0⟩ (participantSeen msg) :=
  bears_makeEvent msg payloadUsage_none (by simp) (by rfl) (by simp)

private theorem bears_messageReceived (codec : Codec B N) : Bears ⟨0, 0⟩ (messageReceived msg codec) :=
  bears_makeEvent msg payloadUsage_none (by simp) (by rfl)
    (by simp [Incoming.fullData, Incoming.senderAuth])

private theorem deriveEventType_ne (messageType : String) : deriveEventType messageType ≠ some .llmCallCompleted := by
  intro h
  exact absurd (mem_derivedTypes h) (by decide)

private theorem bears_derived : ∀ event ∈ ((deriveEventType msg.envelope.messageType).map (derived msg)).toList,
    Bears (payloadUsage (msg.decoded.map .obj)) event := by
  intro event hevent
  obtain ⟨type, htype, rfl⟩ := Option.map_eq_some_iff.1 (Option.mem_toList.1 hevent)
  have hne : type ≠ .llmCallCompleted := by
    rintro rfl
    exact deriveEventType_ne _ htype
  exact bears_makeEvent msg rfl hne (by rfl)
    (by simp [Incoming.fullData, Incoming.senderAuth])

private theorem bears_policyEvents : ∀ event ∈ policyEvents msg, Bears (payloadUsage (msg.decoded.map .obj)) event := by
  intro event hevent
  rcases mem_policyEvents_iff.1 hevent with ⟨decoded, hdecoded, -, rfl⟩ | ⟨decoded, hdecoded, -, rfl⟩ | ⟨-, rfl⟩
  · rw [Option.mem_def.1 hdecoded]
    exact bears_makeEvent msg rfl (by simp) (by rfl) (by simp [Incoming.shortData])
  · rw [Option.mem_def.1 hdecoded]
    exact bears_makeEvent msg rfl (by simp) (by rfl) (by simp [Incoming.shortData])
  · have hpayload : payloadUsage (some (.obj (msg.decoded.getD []))) = payloadUsage (msg.decoded.map .obj) := by
      cases msg.decoded with
      | none => exact payloadUsage_of_fields fun _ _ => rfl
      | some decoded => rfl
    exact bears_makeEvent msg hpayload (by simp) (by rfl) (by simp [Incoming.shortData])

/-- The payload of a progress report has no usage. -/
theorem bears_taskEvents : ∀ event ∈ taskEvents msg, Bears ⟨0, 0⟩ event := by
  have hprogress : ∀ percentage message, Bears ⟨0, 0⟩ (taskProgress msg percentage message) := by
    intro percentage message
    have hpayload : payloadUsage (some (.obj (object [("percentage", percentage), ("message", some message)]))) =
        ⟨0, 0⟩ := payloadUsage_of_fields (by simp [field, Json.prop])
    exact bears_makeEvent msg hpayload (by simp) (by rfl) (by simp [Incoming.shortData])
  intro event hevent
  rcases mem_taskEvents hevent with ⟨progress, -, rfl⟩ | rfl | rfl
  · exact hprogress _ _
  · exact hprogress _ _
  · exact hprogress _ _

private theorem bears_progressEvents : ∀ event ∈ progressEvents msg, Bears ⟨0, 0⟩ event := by
  intro event hevent
  obtain ⟨-, rfl⟩ := mem_progressEvents_iff.1 hevent
  have hpayload : payloadUsage ((ambientProgress msg).datum "decodedPayload") = ⟨0, 0⟩ := by
    apply payloadUsage_of_fields
    simp [ambientProgress, Incoming.makeEvent, CanonicalEvent.datum, Incoming.shortData, Incoming.senderAuth, field,
      Json.prop]
  exact bears_makeEvent msg hpayload (by simp) (by rfl) rfl

/-! #### The call -/

variable {msg}

/-- The payload of the LLM call has the usage of the call. -/
theorem payloadUsage_llmCall {c : Option (Json N)} (hc : isLlmCall c = true)
    (hnonneg : 0 ≤ ExactNumber.value (promptTokens c) ∧ 0 ≤ ExactNumber.value (completionTokens c))
    (patterns : List (String → String)) :
    payloadUsage (some (.obj (RedactionService.redact patterns (llmCall c)))) = callUsage (llmCall c) := by
  obtain ⟨hprompt, hcompletion⟩ := isFinite_of_isLlmCall hc
  have hfield : ∀ k, k ≠ "__proto__" → field (some (.obj (RedactionService.redact patterns (llmCall c)))) k =
      (JsonObject.prop (llmCall c) k).map (RedactionService.redactField patterns) :=
    fun k => RedactionService.prop_redact patterns (llmCall c)
  generalize RedactionService.redact patterns (llmCall c) = redacted at hfield ⊢
  have husage : usageAt (some (.obj redacted)) = callUsage (llmCall c) := by
    rw [callUsage_llmCall hc]
    simp (disch := decide) only [usageAt, hfield, prop_llmCall_promptTokens, prop_llmCall_completionTokens,
      Option.map_some, coalesce, RedactionService.redactField_num, safeNumber_num hprompt, safeNumber_num hcompletion]
  have hnone : isUsage (field (some (.obj redacted)) "tokenUsage") = false := by
    rw [hfield _ (by decide), prop_llmCall_tokenUsage, Option.map_none, isUsage_none]
  cases htaken : isUsage (some (.obj redacted)) with
  | true => simp [payloadUsage, htaken, husage]
  | false =>
    rw [payloadUsage_eq_zero_iff.2 ⟨htaken, hnone⟩]
    simp only [isUsage, isObject, husage, callUsage_llmCall hc, Bool.true_and, Bool.or_eq_false_iff,
      decide_eq_false_iff_not, not_lt] at htaken
    rw [callUsage_llmCall hc]
    congr 1
    · exact le_antisymm hnonneg.1 htaken.1
    · exact le_antisymm hnonneg.2 htaken.2

private theorem contribution_llmCallCompleted {c : Option (Json N)} (hc : isLlmCall c = true)
    (hnonneg : 0 ≤ ExactNumber.value (promptTokens c) ∧ 0 ≤ ExactNumber.value (completionTokens c))
    (patterns : List (String → String)) {counter : Counter} (hcounter : counter ∈ tokenCounters) :
    contribution counter (llmCallCompleted msg (RedactionService.redact patterns (llmCall c))) =
      amount (callUsage (llmCall c)) none counter := by
  have hplain : Plain (llmCallCompleted msg (RedactionService.redact patterns (llmCall c))) :=
    plain_makeEvent (by rfl)
  have hpayload : (llmCallCompleted msg (RedactionService.redact patterns (llmCall c))).datum "decodedPayload" =
      some (.obj (RedactionService.redact patterns (llmCall c))) := by
    simp [llmCallCompleted, Incoming.makeEvent, CanonicalEvent.datum, Incoming.fullData, Incoming.senderAuth]
  rw [contribution_of_plain hplain hcounter, hpayload, payloadUsage_llmCall hc hnonneg]

/-- The projection holds these totals. -/
structure Holds (l : LlmProjection N) (prompt completion : Rat) : Prop where
  finite : JsNumber.isFinite l.promptTokens = true ∧ JsNumber.isFinite l.completionTokens = true ∧
    JsNumber.isFinite l.totalTokens = true
  promptTokens : ExactNumber.value l.promptTokens = prompt
  completionTokens : ExactNumber.value l.completionTokens = completion
  totalTokens : ExactNumber.value l.totalTokens = prompt + completion

private theorem holds_none : Holds (LlmProjection.none : LlmProjection N) 0 0 where
  finite := ⟨ExactNumber.isFinite_ofNat 0, ExactNumber.isFinite_ofNat 0, ExactNumber.isFinite_ofNat 0⟩
  promptTokens := by simp [LlmProjection.none, ExactNumber.value_ofNat]
  completionTokens := by simp [LlmProjection.none, ExactNumber.value_ofNat]
  totalTokens := by simp [LlmProjection.none, ExactNumber.value_ofNat]

omit [ExactNumber N] in
private theorem safeOptionalNumber_num {n : N} (h : JsNumber.isFinite n = true) :
    safeOptionalNumber (some (.num n)) = some n := by
  simp [safeOptionalNumber, defined, coalesce, toNumber, h]

/-- The reducer adds the usage of the call. -/
theorem holds_llmCallCompleted {c : Option (Json N)} (hc : isLlmCall c = true) (patterns : List (String → String))
    {l : LlmProjection N} {prompt completion : Rat} (hl : Holds l prompt completion) :
    Holds (Reducer.llm l (llmCallCompleted msg (RedactionService.redact patterns (llmCall c))))
      (prompt + (callUsage (llmCall c)).promptTokens) (completion + (callUsage (llmCall c)).completionTokens) := by
  obtain ⟨hprompt, hcompletion⟩ := isFinite_of_isLlmCall hc
  have htotal := ExactNumber.isFinite_add hprompt hcompletion
  obtain ⟨hfp, hfc, hft⟩ := hl.finite
  have hfield : ∀ k, k ≠ "__proto__" → field (some (.obj (RedactionService.redact patterns (llmCall c)))) k =
      (JsonObject.prop (llmCall c) k).map (RedactionService.redactField patterns) :=
    fun k => RedactionService.prop_redact patterns (llmCall c)
  have hdatum : (llmCallCompleted msg (RedactionService.redact patterns (llmCall c))).datum "decodedPayload" =
      some (.obj (RedactionService.redact patterns (llmCall c))) := by
    simp [llmCallCompleted, Incoming.makeEvent, CanonicalEvent.datum, Incoming.fullData, Incoming.senderAuth]
  have hstep : Reducer.llm l (llmCallCompleted msg (RedactionService.redact patterns (llmCall c))) =
      Reducer.llmCall l (llmCallCompleted msg (RedactionService.redact patterns (llmCall c))) := rfl
  rw [hstep, callUsage_llmCall hc]
  unfold Reducer.llmCall
  generalize RedactionService.redact patterns (llmCall c) = redacted at hfield hdatum ⊢
  have hp : safeOptionalNumber (field (some (.obj redacted)) "promptTokens") = some (promptTokens c) := by
    rw [hfield _ (by decide), prop_llmCall_promptTokens, Option.map_some, RedactionService.redactField_num,
      safeOptionalNumber_num hprompt]
  have hq : safeOptionalNumber (field (some (.obj redacted)) "completionTokens") = some (completionTokens c) := by
    rw [hfield _ (by decide), prop_llmCall_completionTokens, Option.map_some, RedactionService.redactField_num,
      safeOptionalNumber_num hcompletion]
  have ht : safeOptionalNumber (field (some (.obj redacted)) "totalTokens") =
      some (JsNumber.add (promptTokens c) (completionTokens c)) := by
    rw [hfield _ (by decide), prop_llmCall_totalTokens, Option.map_some, RedactionService.redactField_num,
      safeOptionalNumber_num htotal]
  simp only [hdatum, truthy, if_true, hp, hq, ht, Option.getD_some]
  refine ⟨⟨ExactNumber.isFinite_add hfp hprompt, ExactNumber.isFinite_add hfc hcompletion,
    ExactNumber.isFinite_add hft htotal⟩, ?_, ?_, ?_⟩
  · exact (ExactNumber.value_add hfp hprompt).trans (congrArg (· + _) hl.promptTokens)
  · exact (ExactNumber.value_add hfc hcompletion).trans (congrArg (· + _) hl.completionTokens)
  · have hadd := ExactNumber.value_add hprompt hcompletion
    calc ExactNumber.value (JsNumber.add l.totalTokens (JsNumber.add (promptTokens c) (completionTokens c)))
        = ExactNumber.value l.totalTokens +
            (ExactNumber.value (promptTokens c) + ExactNumber.value (completionTokens c)) := by
          rw [ExactNumber.value_add hft htotal, hadd]
      _ = _ := by rw [hl.totalTokens, add_add_add_comm]

/-! #### All events -/

variable (msg)

/-- The events that carry the decoded payload of the message. -/
def carriers : List (CanonicalEvent N) :=
  ((deriveEventType msg.envelope.messageType).map (derived msg)).toList ++ policyEvents msg

omit [ExactNumber N] in
private theorem carriers_eq_nil_iff :
    carriers msg = [] ↔ carriesPayload msg.envelope.messageType (msg.decoded.map .obj) = false := by
  have hget : field (msg.decoded.map Json.obj) "policyDenied" = msg.get "policyDenied" := rfl
  unfold carriers carriesPayload
  rw [hget]
  cases htype : deriveEventType msg.envelope.messageType with
  | some type => simp
  | none =>
    have hne : ∀ t ∈ ["PolicyResolved", "PolicyCommitmentEvaluated", "PolicyDenied"],
        msg.envelope.messageType ≠ t := by
      rintro t ht rfl
      simp only [List.mem_cons, List.not_mem_nil, or_false] at ht
      rcases ht with h | h | h <;> rw [h] at htype <;> exact absurd htype (by decide)
    simp only [List.forall_mem_cons] at hne
    obtain ⟨hresolved, hevaluated, hdenied, -⟩ := hne
    have hpolicy : policyEvents msg = [] ↔ asBool (msg.get "policyDenied") ≠ some true := by
      unfold policyEvents
      cases msg.decoded <;> simp [hresolved, hevaluated, hdenied]
    simp [hpolicy]

private theorem amount_zero (model : Option String) (counter : Counter) : amount ⟨0, 0⟩ model counter = 0 := by
  cases counter <;> simp [amount, price]

variable {codec : Codec B N} (patterns : List (String → String))

/-- The LLM call contributes the usage that has been found. -/
theorem contributions_call (hnonneg : NonNegative codec (msg.decoded.map .obj)) {counter : Counter}
    (hcounter : counter ∈ tokenCounters) :
    contributions counter ((extractLlmCall codec (msg.decoded.map .obj)).map fun llm =>
      llmCallCompleted msg (RedactionService.redact patterns llm)).toList =
      amount (reportedUsage codec (msg.decoded.map .obj)) none counter := by
  unfold reportedUsage
  cases hcall : extractLlmCall codec (msg.decoded.map .obj) with
  | none => simp [contributions, amount_zero]
  | some call =>
    obtain ⟨c, hmem, hc, rfl⟩ := extractLlmCall_eq_some hcall
    simp [contributions, contribution_llmCallCompleted hc (hnonneg c hmem hc) patterns hcounter]

/-- The usage that has been found is contributed once, and the usage of the payload by every event that carries it. -/
theorem contributions_messageEvents (hnonneg : NonNegative codec (msg.decoded.map .obj)) {counter : Counter}
    (hcounter : counter ∈ tokenCounters) :
    contributions counter (messageEvents msg codec patterns) =
      amount (reportedUsage codec (msg.decoded.map .obj)) none counter +
        (carriers msg).length * amount (payloadUsage (msg.decoded.map .obj)) none counter := by
  have hreceived : contribution counter (messageReceived msg codec) = 0 := by
    have hbears := bears_messageReceived msg codec
    rw [contribution_of_plain hbears.plain hcounter, hbears.payload, amount_zero]
  unfold messageEvents
  rw [contributions_cons, hreceived, contributions_append, contributions_append, contributions_append,
    contributions_append, contributions_call msg patterns hnonneg hcounter,
    contributions_of_bears (bears_derived msg) hcounter, contributions_of_bears (bears_taskEvents msg) hcounter,
    contributions_of_bears (bears_policyEvents msg) hcounter,
    contributions_of_bears (bears_progressEvents msg) hcounter, amount_zero, carriers, List.length_append]
  push_cast
  linarith

variable (codec) in
/-- The events of an envelope report usage in their decoded payloads only. -/
theorem plain_messageEvents {event : CanonicalEvent N} (h : event ∈ messageEvents msg codec patterns) :
    Plain event := by
  simp only [messageEvents, List.mem_cons, List.mem_append] at h
  obtain rfl | ((((h | h) | h) | h) | h) := h
  · exact (bears_messageReceived msg codec).plain
  · obtain ⟨llm, -, rfl⟩ := Option.map_eq_some_iff.1 (Option.mem_toList.1 h)
    exact plain_makeEvent (by rfl)
  · exact (bears_derived msg event h).plain
  · exact (bears_taskEvents msg event h).plain
  · exact (bears_policyEvents msg event h).plain
  · exact (bears_progressEvents msg event h).plain

variable (codec) in
private theorem holds_messageEvents {l : LlmProjection N} {prompt completion : Rat} (hl : Holds l prompt completion) :
    Holds ((messageEvents msg codec patterns).foldl Reducer.llm l)
      (prompt + (reportedUsage codec (msg.decoded.map .obj)).promptTokens)
      (completion + (reportedUsage codec (msg.decoded.map .obj)).completionTokens) := by
  unfold messageEvents
  rw [List.foldl_cons, (bears_messageReceived msg codec).llm, List.foldl_append, List.foldl_append, List.foldl_append,
    List.foldl_append, llm_of_bears (bears_progressEvents msg), llm_of_bears (bears_policyEvents msg),
    llm_of_bears (bears_taskEvents msg), llm_of_bears (bears_derived msg)]
  unfold reportedUsage
  cases hcall : extractLlmCall codec (msg.decoded.map .obj) with
  | none => simpa using hl
  | some call =>
    obtain ⟨c, hmem, hc, rfl⟩ := extractLlmCall_eq_some hcall
    exact holds_llmCallCompleted hc patterns hl

end Envelope

/-! ### Runs -/

section Run

/-- What the metrics add for an envelope. -/
def stored (codec : Codec B N) (raw : RawEnvelope B N) (counter : Counter) : Rat :=
  amount (reportedUsage codec (raw.decoded codec)) none counter +
    (carriers (raw.incoming codec)).length * amount (payloadUsage (raw.decoded codec)) none counter

/-- The stores after these envelopes. -/
structure Stored (codec : Codec B N) (raws : List (RawEnvelope B N)) (s : Stores N) : Prop where
  counted : ∀ counter ∈ tokenCounters, (s.metrics.getD {}).count counter = (raws.map (stored codec · counter)).sum
  projected : Holds s.projection.llm (raws.map fun raw => (reportedUsage codec (raw.decoded codec)).promptTokens).sum
    (raws.map fun raw => (reportedUsage codec (raw.decoded codec)).completionTokens).sum

variable {codec : Codec B N} {patterns : List (String → String)}

private theorem stored_initial (runId : String) : Stored codec [] (.initial runId : Stores N) where
  counted := by simp [tokenCounters, Stores.initial, RunMetrics.count]
  projected := holds_none

/-- One envelope. -/
theorem stored_ingest {raws : List (RawEnvelope B N)} {s : Stores N} (h : Stored codec raws s) (raw : RawEnvelope B N)
    (hnonneg : NonNegative codec (raw.decoded codec)) :
    Stored codec (raws ++ [raw]) (s.ingest codec patterns raw) := by
  have hseen := bears_participantSeen (raw.incoming codec)
  have hevents : s.normalized codec patterns raw =
      if raw.envelope.sender ∈ s.knownParticipants then
        (messageEvents (raw.incoming codec) codec patterns, s.knownParticipants)
      else (participantSeen (raw.incoming codec) ::
        messageEvents (raw.incoming codec) codec patterns, raw.envelope.sender :: s.knownParticipants) :=
    rfl
  refine ⟨?_, ?_⟩
  · intro counter hcounter
    have hmessage := contributions_messageEvents (raw.incoming codec) patterns hnonneg hcounter
    have hadded : contributions counter (s.normalized codec patterns raw).1 = stored codec raw counter := by
      rw [hevents]
      split
      · exact hmessage
      · rw [contributions_cons, contribution_of_plain hseen.plain hcounter, hseen.payload, amount_zero, zero_add]
        exact hmessage
    have hpriced : Priced counter (s.normalized codec patterns raw).1 := by
      intro _
      rw [List.any_eq_false]
      intro event hevent
      rw [isUnpriced_of_plain]
      · exact Bool.false_ne_true
      rw [hevents] at hevent
      split at hevent
      · exact plain_messageEvents _ codec patterns hevent
      · rcases List.mem_cons.1 hevent with rfl | hevent
        · exact hseen.plain
        · exact plain_messageEvents _ codec patterns hevent
    show (recordEvents s.metrics _).count counter = _
    rw [count_recordEvents _ _ hpriced, h.counted counter hcounter, hadded]
    simp
  · have hmessage := holds_messageEvents (raw.incoming codec) codec patterns h.projected
    show Holds (applyEvents s.projection _).llm _ _
    rw [applyEvents_llm, hevents]
    simp only [List.map_append, List.sum_append, List.map_cons, List.map_nil, List.sum_singleton]
    split
    · exact hmessage
    · rw [List.foldl_cons, hseen.llm]
      exact hmessage

private theorem stored_run (runId : String) {raws : List (RawEnvelope B N)}
    (hnonneg : ∀ raw ∈ raws, NonNegative codec (raw.decoded codec)) :
    Stored codec raws (raws.foldl (Stores.ingest codec patterns) (.initial runId)) := by
  induction raws using List.reverseRecOn with
  | nil => exact stored_initial runId
  | append_singleton raws raw ih =>
    rw [List.foldl_append]
    have hbefore := ih fun r hr => hnonneg r (List.mem_append_left _ hr)
    exact stored_ingest hbefore raw (hnonneg raw (by simp))

private theorem agrees_iff_of_stored {raws : List (RawEnvelope B N)} {s : Stores N} (h : Stored codec raws s) :
    Agrees codec raws s ↔ ∀ counter ∈ tokenCounters, (raws.map (stored codec · counter)).sum =
      (raws.map fun raw => reported codec (raw.decoded codec) counter).sum := by
  constructor
  · intro hagrees counter hcounter
    rw [← h.counted counter hcounter, hagrees.counted counter hcounter]
  · intro hsums
    have hcounted : ∀ counter ∈ tokenCounters, (s.metrics.getD {}).count counter =
        (raws.map fun raw => reported codec (raw.decoded codec) counter).sum := by
      intro counter hcounter
      rw [h.counted counter hcounter, hsums counter hcounter]
    refine ⟨hcounted, ?_, ?_, ?_⟩
    · rw [h.projected.promptTokens]
      exact (hcounted .promptTokens (by simp [tokenCounters])).symm
    · rw [h.projected.completionTokens]
      exact (hcounted .completionTokens (by simp [tokenCounters])).symm
    · rw [h.projected.totalTokens, ← List.sum_map_add]
      exact (hcounted .totalTokens (by simp [tokenCounters])).symm

/-- Two sums agree on all prefixes when they agree term by term. -/
theorem sum_prefix_eq_iff {α : Type} {f g : α → Rat} {xs : List α} :
    (∀ pre, pre <+: xs → (pre.map f).sum = (pre.map g).sum) ↔ ∀ x ∈ xs, f x = g x := by
  constructor
  · intro h x hx
    obtain ⟨before, rest, rfl⟩ := List.append_of_mem hx
    have hbefore := h before (List.prefix_append _ _)
    have hafter := h (before ++ [x]) ⟨rest, by simp⟩
    simpa [hbefore] using hafter
  · rintro h pre ⟨rest, rfl⟩
    congr 1
    exact List.map_congr_left fun x hx => h x (List.mem_append_left _ hx)

/-! ### Rates -/

/-- The rates of a model are all above the default ones, or all below, or they are the default ones. -/
theorem ratesOf_cases (model : Option String) :
    ratesOf model = defaultRates ∨
      (defaultRates.prompt < (ratesOf model).prompt ∧ defaultRates.completion < (ratesOf model).completion) ∨
      ((ratesOf model).prompt < defaultRates.prompt ∧ (ratesOf model).completion < defaultRates.completion) := by
  have hrates : ∀ entry ∈ modelCosts, entry.2 = defaultRates ∨
      (defaultRates.prompt < entry.2.prompt ∧ defaultRates.completion < entry.2.completion) ∨
      (entry.2.prompt < defaultRates.prompt ∧ entry.2.completion < defaultRates.completion) := by decide +kernel
  unfold ratesOf
  cases hlookup : modelCosts.lookup (model.getD "") with
  | none => exact .inl rfl
  | some rates => exact hrates (model.getD "", rates) (mem_of_lookup hlookup)

private theorem eq_zero_of_weighted {a b x y : Rat} (ha : 0 ≤ a) (hb : 0 ≤ b) (hx : 0 < x) (hy : 0 < y)
    (h : a * x + b * y = 0) : a = 0 ∧ b = 0 := by
  obtain ⟨hax, hby⟩ := (add_eq_zero_iff_of_nonneg (mul_nonneg ha hx.le) (mul_nonneg hb hy.le)).1 h
  exact ⟨(mul_eq_zero.1 hax).resolve_right hx.ne', (mul_eq_zero.1 hby).resolve_right hy.ne'⟩

/-- A usage costs as much at the rates of a model as at the default ones when it is zero, or when these are the same. -/
theorem price_eq_default_iff {usage : TokenUsage} {model : Option String}
    (h : 0 ≤ usage.promptTokens ∧ 0 ≤ usage.completionTokens) :
    price usage (ratesOf none) = price usage (ratesOf model) ↔ usage = ⟨0, 0⟩ ∨ ratesOf model = defaultRates := by
  have hnone : ratesOf none = defaultRates := by decide
  obtain ⟨prompt, completion⟩ := usage
  unfold price
  rw [hnone, div_left_inj' (by norm_num)]
  constructor
  · intro heq
    rcases ratesOf_cases model with hsame | ⟨hp, hc⟩ | ⟨hp, hc⟩
    · exact .inr hsame
    · obtain ⟨rfl, rfl⟩ := eq_zero_of_weighted h.1 h.2 (sub_pos.2 hp) (sub_pos.2 hc) (by linarith)
      exact .inl rfl
    · obtain ⟨rfl, rfl⟩ := eq_zero_of_weighted h.1 h.2 (sub_pos.2 hp) (sub_pos.2 hc) (by linarith)
      exact .inl rfl
  · rintro (hzero | hsame)
    · obtain ⟨rfl, rfl⟩ := TokenUsage.mk.inj hzero
      simp
    · rw [hsame]

/-! ### What is counted once -/

/-- The counters get what the envelope reports when its usage is counted once, at its rates. -/
theorem stored_eq_reported_iff {raw : RawEnvelope B N} (hnonneg : NonNegative codec (raw.decoded codec)) :
    (∀ counter ∈ tokenCounters, stored codec raw counter = reported codec (raw.decoded codec) counter) ↔
      CountedOnce codec raw.envelope.messageType (raw.decoded codec) := by
  have hcarriers : carriers (raw.incoming codec) = [] ↔
      carriesPayload raw.envelope.messageType (raw.decoded codec) = false := carriers_eq_nil_iff _
  have hrates : price (reportedUsage codec (raw.decoded codec)) (ratesOf none) =
      price (reportedUsage codec (raw.decoded codec)) (ratesOf (reportedModel codec (raw.decoded codec))) ↔ _ :=
    price_eq_default_iff (reportedUsage_nonneg hnonneg)
  constructor
  · intro h
    have hprompt := h .promptTokens (by simp [tokenCounters])
    have hcompletion := h .completionTokens (by simp [tokenCounters])
    have hcost := h .estimatedCostUsd (by simp [tokenCounters])
    have honce : carriers (raw.incoming codec) = [] ∨ payloadUsage (raw.decoded codec) = ⟨0, 0⟩ := by
      rcases eq_or_ne (carriers (raw.incoming codec)) [] with hnil | hne
      · exact .inl hnil
      · right
        have hlength : ((carriers (raw.incoming codec)).length : Rat) ≠ 0 := by
          simpa using hne
        simp only [stored, reported, amount, add_eq_left, mul_eq_zero, hlength, false_or] at hprompt hcompletion
        exact congrArg₂ TokenUsage.mk hprompt hcompletion
    have hextra : ((carriers (raw.incoming codec)).length : Rat) *
        price (payloadUsage (raw.decoded codec)) (ratesOf none) = 0 := by
      rcases honce with hnil | hzero
      · simp [hnil]
      · simp [hzero, price]
    refine ⟨honce.imp hcarriers.1 payloadUsage_eq_zero_iff.1, hrates.1 ?_⟩
    simpa only [stored, reported, amount, hextra, add_zero] using hcost
  · intro h counter hcounter
    have hextra : ((carriers (raw.incoming codec)).length : Rat) *
        amount (payloadUsage (raw.decoded codec)) none counter = 0 := by
      rcases h.once with hnone | hzero
      · simp [hcarriers.2 hnone]
      · simp [payloadUsage_eq_zero_iff.2 hzero, amount_zero]
    have hcost := hrates.2 h.rates
    simp only [tokenCounters, List.mem_cons, List.not_mem_nil, or_false] at hcounter
    rw [stored, hextra, add_zero]
    rcases hcounter with rfl | rfl | rfl | rfl
    · rfl
    · rfl
    · rfl
    · exact hcost

/-- The stores agree after every envelope exactly when each envelope is counted once. -/
theorem agrees_iff (runId : String) {raws : List (RawEnvelope B N)}
    (hnonneg : ∀ raw ∈ raws, NonNegative codec (raw.decoded codec)) :
    (∀ pre, pre <+: raws → Agrees codec pre (pre.foldl (Stores.ingest codec patterns) (.initial runId))) ↔
      ∀ raw ∈ raws, CountedOnce codec raw.envelope.messageType (raw.decoded codec) := by
  have hstored : ∀ pre, pre <+: raws →
      Stored codec pre (pre.foldl (Stores.ingest codec patterns) (.initial runId)) := by
    intro pre hpre
    exact stored_run runId fun raw hraw => hnonneg raw (hpre.subset hraw)
  constructor
  · intro h raw hraw
    apply (stored_eq_reported_iff (hnonneg raw hraw)).1
    intro counter hcounter
    apply sum_prefix_eq_iff.1 ?_ raw hraw
    intro pre hpre
    exact (agrees_iff_of_stored (hstored pre hpre)).1 (h pre hpre) counter hcounter
  · intro h pre hpre
    apply (agrees_iff_of_stored (hstored pre hpre)).2
    intro counter hcounter
    apply sum_prefix_eq_iff.2 ?_ pre hpre
    intro raw hraw
    exact (stored_eq_reported_iff (hnonneg raw hraw)).2 (h raw hraw) counter hcounter

end Run

end TokenAccounting

/-! ### Signals -/

/-- An LLM call in the data of a signal: its text, with the base64 form, and what it parses to. -/
structure WireSignal where
  text : String
  base64 : String
  call : JsonObject (Option Rat)

namespace WireSignal

/-- A call whose model is not named. -/
def unnamed : WireSignal where
  text := "\x7b\"promptTokens\":100,\"completionTokens\":20\x7d"
  base64 := "eyJwcm9tcHRUb2tlbnMiOjEwMCwiY29tcGxldGlvblRva2VucyI6MjB9"
  call := [("promptTokens", .num (some 100)), ("completionTokens", .num (some 20))]

/-- The same call, of a model with rates. -/
def priced : WireSignal where
  text := "\x7b\"promptTokens\":100,\"completionTokens\":20,\"model\":\"gpt-4o\"\x7d"
  base64 := "eyJwcm9tcHRUb2tlbnMiOjEwMCwiY29tcGxldGlvblRva2VucyI6MjAsIm1vZGVsIjoiZ3B0LTRvIn0="
  call := unnamed.call ++ [("model", .str "gpt-4o")]

variable (w : WireSignal)

def bytes (text : String) : List Nat := text.toList.map Char.toNat

/-- The signal: its type and its data, each after its length. -/
def payload : List Nat :=
  [0x0a, 18] ++ bytes "llm.call.completed" ++ [0x12, w.text.length] ++ bytes w.text

/-- The libraries, as far as they handle these bytes. -/
def codec : Codec (List Nat) (Option Rat) where
  decodeMessage typeName payload :=
    if typeName = "macp.v1.SignalPayload" ∧ payload = w.payload then
      some [("signalType", .str "llm.call.completed"), ("data", .str w.base64)]
    else none
  isCanonicalProto _ payload := payload = w.payload
  isEmpty := List.isEmpty
  toUtf8 payload := String.ofList (payload.map Char.ofNat)
  toBase64 payload := if payload = bytes w.text then w.base64 else ""
  ofBase64 text := if text = w.base64 then bytes w.text else []
  parseJson text := if text = w.text then some (.obj w.call) else none

def raw : RawEnvelope (List Nat) (Option Rat) where
  ctx := ⟨"r1", "2026-10-24T00:00:00.000Z", fun _ => "e1"⟩
  envelope :=
    { macpVersion := "1.0"
      mode := "macp.mode.decision.v1"
      messageType := "Signal"
      messageId := "m1"
      sessionId := "s1"
      sender := "analyst"
      timestampUnixMs := some 0
      payload := w.payload }
  senderAuthenticated := none

/-- The payload of the signal, decoded. -/
def fields : JsonObject (Option Rat) := [("signalType", .str "llm.call.completed"), ("data", .str w.base64)]

private theorem decoded_raw : w.raw.decoded w.codec = some (.obj w.fields) := by
  have htype : ProtoRegistry.getKnownTypeName "macp.mode.decision.v1" "Signal" = some "macp.v1.SignalPayload" := by
    decide
  have hdecode : w.codec.decodeMessage "macp.v1.SignalPayload" w.payload = some w.fields := if_pos ⟨rfl, rfl⟩
  show (ProtoRegistry.decodeKnown w.codec "macp.mode.decision.v1" "Signal" w.payload).map Json.obj = _
  unfold ProtoRegistry.decodeKnown
  simp only [htype, hdecode]
  rfl

private theorem signalData_fields (htext : w.text ≠ "") :
    signalData w.codec (some (.obj w.fields)) = some (.obj w.call) := by
  have hbytes : w.codec.ofBase64 w.base64 = bytes w.text := if_pos rfl
  have hutf8 : w.codec.toUtf8 (bytes w.text) = w.text := by
    simp [codec, bytes, Function.comp_def, Char.ofNat_toNat]
  have hparse : w.codec.parseJson w.text = some (.obj w.call) := if_pos rfl
  show (if w.codec.toUtf8 (w.codec.ofBase64 w.base64) = "" then none else _) = _
  rw [hbytes, hutf8, if_neg htext, hparse]

private theorem llmCandidates_fields (htext : w.text ≠ "") : llmCandidates w.codec (some (.obj w.fields)) =
    [none, none, none, none, some (.obj w.call), JsonObject.prop w.call "tokenUsage"] := by
  unfold llmCandidates
  rw [signalData_fields w htext]
  rfl

end WireSignal

namespace TokenAccounting

section Signal

variable {w : WireSignal}

private theorem extractLlmCall_signal (htext : w.text ≠ "") (hcall : isLlmCall (some (.obj w.call)) = true) :
    extractLlmCall w.codec (w.raw.decoded w.codec) = some (llmCall (some (.obj w.call))) := by
  have hnone : isLlmCall (none : Option (Json (Option Rat))) = false := rfl
  unfold extractLlmCall
  rw [w.decoded_raw, w.llmCandidates_fields htext]
  simp only [List.find?_cons, hnone, hcall, Option.map_some]

private theorem nonNegative_signal (htext : w.text ≠ "") (husage : JsonObject.prop w.call "tokenUsage" = none)
    (hnonneg : 0 ≤ ExactNumber.value (promptTokens (some (.obj w.call))) ∧
      0 ≤ ExactNumber.value (completionTokens (some (.obj w.call)))) :
    NonNegative w.codec (w.raw.decoded w.codec) := by
  intro c hc hcall
  rw [w.decoded_raw, w.llmCandidates_fields htext, husage] at hc
  have hsome : c = none ∨ c = some (.obj w.call) := by
    simp only [List.mem_cons, List.not_mem_nil, or_false] at hc
    tauto
  rcases hsome with rfl | rfl
  · exact absurd hcall (by decide)
  · exact hnonneg

/-- No other event repeats the usage of a signal, whose data is encoded. -/
theorem countedOnce_signal_iff (htext : w.text ≠ "") (hcall : isLlmCall (some (.obj w.call)) = true) :
    CountedOnce w.codec "Signal" (w.raw.decoded w.codec) ↔
      callUsage (llmCall (some (.obj w.call))) = ⟨0, 0⟩ ∨
        ratesOf (asString (JsonObject.prop (llmCall (some (.obj w.call))) "model")) = defaultRates := by
  have hpayload : payloadUsage (some (.obj w.fields)) = ⟨0, 0⟩ :=
    payloadUsage_of_fields (by simp [field, Json.prop, WireSignal.fields, JsonObject.prop, List.lookup_cons])
  have honce := payloadUsage_eq_zero_iff.1 hpayload
  have husage : reportedUsage w.codec (w.raw.decoded w.codec) = callUsage (llmCall (some (.obj w.call))) := by
    rw [reportedUsage, extractLlmCall_signal htext hcall]
    rfl
  have hmodel : reportedModel w.codec (w.raw.decoded w.codec) =
      asString (JsonObject.prop (llmCall (some (.obj w.call))) "model") := by
    rw [reportedModel, extractLlmCall_signal htext hcall]
    rfl
  rw [← husage, ← hmodel]
  refine ⟨fun h => h.rates, fun h => ⟨.inr ?_, h⟩⟩
  rw [w.decoded_raw]
  exact honce

end Signal

private theorem nonNegative_unnamed :
    NonNegative WireSignal.unnamed.codec (WireSignal.unnamed.raw.decoded WireSignal.unnamed.codec) :=
  nonNegative_signal (by decide) rfl (by decide)

private theorem nonNegative_priced :
    NonNegative WireSignal.priced.codec (WireSignal.priced.raw.decoded WireSignal.priced.codec) :=
  nonNegative_signal (by decide) rfl (by decide)

theorem agrees_unnamed : Agrees WireSignal.unnamed.codec [WireSignal.unnamed.raw]
    ([WireSignal.unnamed.raw].foldl (Stores.ingest WireSignal.unnamed.codec []) (.initial "r1")) := by
  refine (agrees_iff "r1" (List.forall_mem_singleton.2 nonNegative_unnamed)).2 ?_ _ List.prefix_rfl
  intro raw hraw
  obtain rfl := List.mem_singleton.1 hraw
  exact (countedOnce_signal_iff (by decide) (by decide)).2 (.inr (by decide))

/-- A call of `gpt-4o` is priced at the default rates. -/
theorem not_agrees_priced :
    NonNegative WireSignal.priced.codec (WireSignal.priced.raw.decoded WireSignal.priced.codec) ∧
      ¬ Agrees WireSignal.priced.codec [WireSignal.priced.raw]
        ([WireSignal.priced.raw].foldl (Stores.ingest WireSignal.priced.codec []) (.initial "r1")) := by
  refine ⟨nonNegative_priced, fun h => ?_⟩
  have hstored : Stored WireSignal.priced.codec [WireSignal.priced.raw]
      ([WireSignal.priced.raw].foldl (Stores.ingest WireSignal.priced.codec []) (.initial "r1")) :=
    stored_run "r1" (List.forall_mem_singleton.2 nonNegative_priced)
  have hsums := (agrees_iff_of_stored hstored).1 h
  have honce :
      CountedOnce WireSignal.priced.codec "Signal" (WireSignal.priced.raw.decoded WireSignal.priced.codec) := by
    apply (stored_eq_reported_iff nonNegative_priced).1
    intro counter hcounter
    have hsum := hsums counter hcounter
    rwa [List.map_singleton, List.map_singleton, List.sum_singleton, List.sum_singleton] at hsum
  rcases (countedOnce_signal_iff (by decide) (by decide)).1 honce with husage | hrates
  · exact absurd husage (by decide)
  · exact absurd hrates (by decide +kernel)

end TokenAccounting

end MacpControlPlane

import Mathlib.Data.List.Find
import MacpControlPlane.Runs.StreamConsumer
import MacpControlPlane.Storage.EventTables
import MacpControlPlane.Verification.CommitmentVerification

/-!
# Verification of what has been ingested (`verification/commitment-verification.service.ts`)

A run is what its transactions have left behind.  Where the last commitment of the run has been ingested from its
canonical bytes, `verify` finds the same payload in the raw row, in the `message.received` event and in the decision
that the run shows, whatever else has been ingested before and after.
-/

namespace MacpControlPlane

open Js EventNormalizer EventRepository

variable {B N : Type} [JsNumber N] {runId : String}

namespace CommitmentVerification

/-! ### The payload -/

private theorem stringOr_protoString (s : String) : stringOr (protoString s : Option (Json N)) "" = s := by
  unfold protoString
  split
  · rename_i h
    exact h.symm
  · rfl

/-- A field that is read under both of its names. -/
theorem stringOr_coalesce_protoString (s : String) :
    stringOr (coalesce (protoString s : Option (Json N)) none) "" = s := by
  unfold protoString
  split
  · rename_i h
    exact h.symm
  · rfl

/-- Decoding drops a field that holds its default; reading puts it back. -/
theorem toCommitmentPayload_json (p : CommitmentPayload) (confidence : Option N) :
    toCommitmentPayload (p.json confidence) = p := by
  have hstring : ∀ k s, JsonObject.prop (p.toObject confidence) k = protoString s →
      stringOr (field (p.json confidence) k) "" = s := by
    intro k s hk
    rw [field_json, hk]
    exact stringOr_protoString s
  have hpick : ∀ k other s, JsonObject.prop (p.toObject confidence) k = protoString s →
      JsonObject.prop (p.toObject confidence) other = none →
      stringOr (coalesce (field (p.json confidence) k) (field (p.json confidence) other)) "" = s := by
    intro k other s hk hother
    rw [field_json, field_json, hk, hother]
    exact stringOr_coalesce_protoString s
  have houtcome : truthy (coalesce (field (p.json confidence) "outcomePositive")
      (field (p.json confidence) "outcome_positive")) = p.outcomePositive := by
    rw [field_json, field_json]
    cases hpositive : p.outcomePositive <;> simp [CommitmentPayload.toObject, hpositive, coalesce, truthy]
  have hsupersedes : (toCommitmentPayload (p.json confidence)).supersedes = p.supersedes := by
    have hfield : field (p.json confidence) "supersedes" = p.supersedes.map fun ref => .obj (object
        [("sessionId", protoString ref.sessionId), ("commitmentHash", protoString ref.commitmentHash)]) := by
      rw [field_json]
      simp [CommitmentPayload.toObject]
    unfold toCommitmentPayload
    rw [hfield]
    cases p.supersedes with
    | none => rfl
    | some ref => simp [isObject, field, Json.prop, stringOr_coalesce_protoString]
  show CommitmentPayload.mk _ _ _ _ _ _ _ _ (toCommitmentPayload (p.json confidence)).supersedes = p
  rw [hpick "commitmentId" "commitment_id" p.commitmentId, hstring "action" p.action,
    hpick "authorityScope" "authority_scope" p.authorityScope, hstring "reason" p.reason,
    hpick "modeVersion" "mode_version" p.modeVersion, hpick "policyVersion" "policy_version" p.policyVersion,
    hpick "configurationVersion" "configuration_version" p.configurationVersion, houtcome, hsupersedes]
  all_goals simp [CommitmentPayload.toObject]

/-! ### What the transactions ingest -/

/-- The `payload` of `message.received`. -/
def received (codec : Codec B N) (envelope : RuntimeEnvelope B N) : JsonObject N :=
  (ProtoRegistry.decodeKnown codec envelope.mode envelope.messageType envelope.payload).getD
    [("payloadBase64", .str (codec.toBase64 envelope.payload))]

section Contents

omit [JsNumber N]

/-- What the reads of `verify` see of a canonical event. -/
def content (e : CanonicalEvent N) : CanonicalEventType × JsonObject N := (e.type, e.data)

/-- The envelope that a transaction stores. -/
def envelope : RunTxn N (RuntimeEnvelope B N) runId → Option (RuntimeEnvelope B N)
  | .persist _ raw _ _ _ _ _ => raw.theEnvelope
  | _ => none

/-- The envelopes that the transactions store, in their order. -/
def envelopes (txns : List (RunTxn N (RuntimeEnvelope B N) runId)) : List (RuntimeEnvelope B N) :=
  txns.flatMap fun t => (envelope t).toList

/-- The contents of the events that a transaction appends. -/
def contents : RunTxn N (RuntimeEnvelope B N) runId → List (CanonicalEventType × JsonObject N)
  | .emit events _ _ _ => events.map fun e => (e.type, e.data)
  | .persist _ _ events _ _ _ _ => events.map content
  | .rebuild => []

private theorem content_prepareEmitted (runCtx : Option TraceRef) (uuid : Nat → String) (startSeq : Nat)
    (events : List (PartialEvent N)) :
    (RunEventService.prepareEmitted runId runCtx uuid startSeq events).map content =
      events.map fun e => (e.type, e.data) := by
  unfold RunEventService.prepareEmitted
  refine List.ext_getElem (by simp) fun i _ _ => ?_
  rw [List.getElem_map, List.getElem_mapIdx, List.getElem_map]
  rfl

private theorem content_preparePersisted (runCtx : Option TraceRef) (uuid : Nat → String) (startSeq : Nat)
    (events : List (CanonicalEvent N)) :
    (RunEventService.preparePersisted runCtx uuid startSeq events).map content = events.map content := by
  unfold RunEventService.preparePersisted
  refine List.ext_getElem (by simp) fun i _ _ => ?_
  rw [List.getElem_map, List.getElem_mapIdx, List.getElem_map]
  rfl

private theorem content_written (t : RunTxn N (RuntimeEnvelope B N) runId) (d : RunData N (RuntimeEnvelope B N)) :
    (t.written d).map content = contents t := by
  cases t with
  | emit events hne runCtx uuid => exact content_prepareEmitted runCtx uuid _ events
  | persist rawId raw events hevents runCtx uuid cursor => exact content_preparePersisted runCtx uuid _ events
  | rebuild => rfl

end Contents

/-- The events of a stored envelope are those that `normalize` makes of it; other transactions append no
`message.received` and no `decision.finalized`. -/
def Ingests (codec : Codec B N) (patterns : List (String → String)) (t : RunTxn N (RuntimeEnvelope B N) runId) : Prop :=
  match envelope t with
  | some envelope => ∃ ctx known senderAuthenticated,
    contents t = (normalizeEnvelope codec patterns ctx known envelope senderAuthenticated).1.map content
  | none => ∀ c ∈ contents t, c.1 ≠ .messageReceived ∧ c.1 ≠ .decisionFinalized

theorem deriveEventType_eq_finalized {messageType : String} :
    deriveEventType messageType = some .decisionFinalized ↔ messageType = "Commitment" := by
  constructor
  · intro h
    unfold deriveEventType at h
    simp only [ite_eq_iff, Option.some.injEq, reduceCtorEq, and_false, false_or, or_false, and_true] at h
    exact h.2.2
  · rintro rfl
    decide

/-- The events of an envelope are events of the run. -/
theorem run_normalizeEnvelope {codec : Codec B N} {patterns : List (String → String)} (ctx : EventContext)
    {known : List String} {envelope : RuntimeEnvelope B N} {senderAuthenticated : Option Bool} :
    ∀ e ∈ (normalizeEnvelope codec patterns ctx known envelope senderAuthenticated).1, e.runId = ctx.runId := by
  have hmessage : ∀ msg : Incoming B N, ∀ e ∈ messageEvents msg codec patterns, e.runId = msg.ctx.runId := by
    intro msg e he
    rw [mem_messageEvents_iff, mem_policyEvents_iff, mem_progressEvents_iff] at he
    rcases he with rfl | ⟨llm, -, rfl⟩ | ⟨type, -, rfl⟩ | htask |
      (⟨decoded, -, -, rfl⟩ | ⟨decoded, -, -, rfl⟩ | ⟨-, rfl⟩) | ⟨-, rfl⟩
    case inr.inr.inr.inl => rcases mem_taskEvents htask with ⟨progress, -, rfl⟩ | rfl | rfl <;> rfl
    all_goals rfl
  unfold normalizeEnvelope
  dsimp only
  split
  · exact hmessage _
  · exact List.forall_mem_cons.2 ⟨rfl, hmessage _⟩

section View

variable {codec : Codec B N} {patterns : List (String → String)} {α : Type}
  {view : CanonicalEventType × JsonObject N → Option α}

/-- Of the events of a message, a view of the two types sees the message and the decision. -/
theorem filterMap_messageEvents (hview : ∀ c, c.1 ≠ .messageReceived → c.1 ≠ .decisionFinalized → view c = none)
    (msg : Incoming B N) :
    (messageEvents msg codec patterns).filterMap (fun e => view (content e)) =
      (view (content (messageReceived msg codec))).toList ++
        if msg.envelope.messageType = "Commitment" then (view (content (derived msg .decisionFinalized))).toList
        else [] := by
  have hothers : (taskEvents msg ++ policyEvents msg ++ progressEvents msg).filterMap (fun e => view (content e)) =
      [] := by
    rw [List.filterMap_eq_nil_iff]
    intro e he
    rw [List.mem_append, List.mem_append, mem_policyEvents_iff, mem_progressEvents_iff] at he
    rcases he with (htask | ⟨decoded, -, -, rfl⟩ | ⟨decoded, -, -, rfl⟩ | ⟨-, rfl⟩) | ⟨-, rfl⟩
    · rcases mem_taskEvents htask with ⟨progress, -, rfl⟩ | rfl | rfl <;> exact hview _ nofun nofun
    all_goals exact hview _ nofun nofun
  have hllm : ∀ llm : Option (JsonObject N), ((llm.map fun llm =>
      llmCallCompleted msg (RedactionService.redact patterns llm)).toList).filterMap (fun e => view (content e)) =
        [] := by
    rintro (_ | llm)
    · rfl
    · have hnone : view (content (llmCallCompleted msg (RedactionService.redact patterns llm))) = none :=
        hview _ nofun nofun
      simp [hnone]
  have hderived : (((deriveEventType msg.envelope.messageType).map (derived msg)).toList).filterMap
      (fun e => view (content e)) =
        if msg.envelope.messageType = "Commitment" then (view (content (derived msg .decisionFinalized))).toList
        else [] := by
    by_cases hcommitment : msg.envelope.messageType = "Commitment"
    · rw [if_pos hcommitment, deriveEventType_eq_finalized.2 hcommitment]
      cases hsome : view (content (derived msg .decisionFinalized)) <;> simp [hsome]
    · rw [if_neg hcommitment]
      cases htype : deriveEventType msg.envelope.messageType with
      | none => rfl
      | some type =>
        have hnone : view (content (derived msg type)) = none := by
          refine hview _ ?_ ?_
          · rintro rfl
            exact absurd (mem_derivedTypes htype) (by decide)
          · rintro rfl
            exact hcommitment (deriveEventType_eq_finalized.1 htype)
        simp [hnone]
  unfold messageEvents
  rw [List.append_assoc, List.append_assoc, ← List.append_assoc (taskEvents msg), List.filterMap_cons,
    List.filterMap_append, List.filterMap_append, hothers, hllm, hderived, List.append_nil, List.nil_append]
  cases view (content (messageReceived msg codec)) <;> rfl

variable (codec) in
/-- A view that sees the message and the decision of an envelope as `ofEnvelope`. -/
structure Views (view : CanonicalEventType × JsonObject N → Option α) (ofEnvelope : RuntimeEnvelope B N → Option α) :
    Prop where
  others : ∀ c, c.1 ≠ .messageReceived → c.1 ≠ .decisionFinalized → view c = none
  message : ∀ msg : Incoming B N,
    msg.decoded = ProtoRegistry.decodeKnown codec msg.envelope.mode msg.envelope.messageType msg.envelope.payload →
      ((view (content (messageReceived msg codec))).toList ++
        if msg.envelope.messageType = "Commitment" then (view (content (derived msg .decisionFinalized))).toList
        else []) = (ofEnvelope msg.envelope).toList

variable {ofEnvelope : RuntimeEnvelope B N → Option α}

private theorem Views.filterMap_contents (h : Views codec view ofEnvelope) {t : RunTxn N (RuntimeEnvelope B N) runId}
    (hingests : Ingests codec patterns t) : (contents t).filterMap view = (envelope t).toList.filterMap ofEnvelope := by
  unfold Ingests at hingests
  split at hingests
  · rename_i envelope henvelope
    obtain ⟨ctx, known, senderAuthenticated, hcontents⟩ := hingests
    have hmessage : ∀ msg : Incoming B N, msg.envelope = envelope →
        msg.decoded = ProtoRegistry.decodeKnown codec envelope.mode envelope.messageType envelope.payload →
        (messageEvents msg codec patterns).filterMap (fun e => view (content e)) = (ofEnvelope envelope).toList := by
      rintro msg rfl hdecoded
      rw [filterMap_messageEvents h.others, h.message msg hdecoded]
    have hseen : ∀ msg : Incoming B N, view (content (participantSeen msg)) = none :=
      fun msg => h.others _ nofun nofun
    have hsingle : [envelope].filterMap ofEnvelope = (ofEnvelope envelope).toList := by
      cases hsome : ofEnvelope envelope <;> simp [hsome]
    rw [hcontents, henvelope, List.filterMap_map, Option.toList_some, hsingle]
    unfold normalizeEnvelope
    dsimp only
    split
    · exact hmessage _ rfl rfl
    · refine (List.filterMap_cons_none (f := view ∘ content) (hseen _)).trans ?_
      exact hmessage _ rfl rfl
  · rename_i hnone
    rw [hnone, Option.toList_none, List.filterMap_nil, List.filterMap_eq_nil_iff]
    intro c hc
    exact h.others c (hingests c hc).1 (hingests c hc).2

end View

/-! ### What a run has stored -/

section Run

variable {codec : Codec B N} {patterns : List (String → String)} (session : Option SessionRow)
  {txns : List (RunTxn N (RuntimeEnvelope B N) runId)}

omit [JsNumber N] in
private theorem envelopes_concat (txns : List (RunTxn N (RuntimeEnvelope B N) runId))
    (t : RunTxn N (RuntimeEnvelope B N) runId) : envelopes (txns ++ [t]) = envelopes txns ++ (envelope t).toList := by
  rw [envelopes, List.flatMap_append, List.flatMap_singleton]
  rfl

/-- The raw rows hold the envelopes in their order. -/
theorem raw_afterTxns (h : DistinctIds txns) :
    (afterTxns (.created session) txns).RawOrdered ∧
      (∀ row ∈ (afterTxns (.created session) txns).raw, row.kind = row.payload.kind) ∧
      (afterTxns (.created session) txns).raw.filterMap (·.payload.theEnvelope) = envelopes txns := by
  refine afterTxns_induction (motive := fun txns d => d.RawOrdered ∧ (∀ row ∈ d.raw, row.kind = row.payload.kind) ∧
    d.raw.filterMap (·.payload.theEnvelope) = envelopes txns) ?_ ?_ h
  · exact ⟨⟨List.Pairwise.nil, List.forall_mem_nil _⟩, List.forall_mem_nil _, rfl⟩
  · rintro txns t d - - hids ⟨hordered, hkinds, hraw⟩
    obtain ⟨hordered', hrows⟩ := hordered.apply t hids
    refine ⟨hordered', ?_, ?_⟩
    · rw [hrows]
      intro row hrow
      rcases List.mem_append.1 hrow with hrow | hnew
      · exact hkinds row hrow
      · cases t with
        | persist rawId raw events hevents runCtx uuid cursor =>
          rw [List.mem_singleton.1 hnew]
          rfl
        | _ => cases hnew
    · rw [hrows, List.filterMap_append, hraw, envelopes_concat]
      congr 1
      cases t with
      | persist rawId raw events hevents runCtx uuid cursor =>
        cases htheEnvelope : raw.theEnvelope <;> simp [RunTxn.rawRows, RawRow.ofEvent, envelope, htheEnvelope]
      | _ => rfl

/-- The canonical rows have the contents that the transactions append. -/
theorem content_afterTxns (h : DistinctIds txns) :
    (afterTxns (.created session) txns).canonical.map (fun row => (row.type, row.data)) = txns.flatMap contents := by
  refine afterTxns_induction (motive := fun txns d =>
    d.canonical.map (fun row => (row.type, row.data)) = txns.flatMap contents) rfl ?_ h
  intro txns t d hseq hids hraw ih
  rw [(hseq.apply t hids hraw).2.1, List.map_append, ih, List.flatMap_append, List.flatMap_singleton,
    ← content_written t d, List.map_map]
  rfl

variable {α : Type} {view : CanonicalEventType × JsonObject N → Option α} {ofEnvelope : RuntimeEnvelope B N → Option α}

/-- The last row that a view sees is of the last envelope. -/
theorem find?_canonical (hviews : Views codec view ofEnvelope) (h : DistinctIds txns)
    (hingests : ∀ t ∈ txns, Ingests codec patterns t) (p : α → Bool) :
    ((afterTxns (.created session) txns).canonical.reverse.find? fun row => (view (row.type, row.data)).any p).bind
        (fun row => view (row.type, row.data)) =
      ((envelopes txns).reverse.find? fun envelope => (ofEnvelope envelope).any p).bind ofEnvelope := by
  have hrows : (afterTxns (.created session) txns).canonical.filterMap (fun row => view (row.type, row.data)) =
      (envelopes txns).filterMap ofEnvelope := by
    have hcontents := congrArg (List.filterMap view) (content_afterTxns session h)
    rw [List.filterMap_map, List.filterMap_flatMap] at hcontents
    rw [envelopes, List.filterMap_flatMap]
    refine hcontents.trans ?_
    rw [List.flatMap_def, List.flatMap_def]
    exact congrArg List.flatten (List.map_congr_left fun t ht => hviews.filterMap_contents (hingests t ht))
  rw [← List.find?_filterMap, ← List.find?_filterMap, List.filterMap_reverse, List.filterMap_reverse, hrows]

/-- A message, by its id and its payload. -/
def receivedView (c : CanonicalEventType × JsonObject N) : Option (Option String × Option (Json N)) :=
  if c.1 = .messageReceived then some (asString (JsonObject.prop c.2 "messageId"), JsonObject.prop c.2 "payload")
  else none

/-- A decision, by its payload. -/
def finalizedView (c : CanonicalEventType × JsonObject N) : Option (Option (Json N)) :=
  if c.1 = .decisionFinalized then some (JsonObject.prop c.2 "decodedPayload") else none

private theorem views_received :
    Views codec receivedView fun envelope => some (some envelope.messageId, some (.obj (received codec envelope))) := by
  constructor
  · intro c hc _
    exact if_neg hc
  · intro msg hdecoded
    have hmessage : receivedView (content (messageReceived msg codec)) =
        some (some msg.envelope.messageId, some (.obj (received codec msg.envelope))) := by
      simp [receivedView, content, messageReceived, Incoming.makeEvent, Incoming.fullData, Incoming.senderAuth,
        asString, received, hdecoded]
    have hderived : receivedView (content (derived msg .decisionFinalized)) = none := rfl
    rw [hmessage, hderived]
    split <;> rfl

private theorem views_finalized :
    Views codec finalizedView fun envelope =>
      if envelope.messageType = "Commitment" then
        some ((ProtoRegistry.decodeKnown codec envelope.mode envelope.messageType envelope.payload).map .obj)
      else none := by
  constructor
  · intro c _ hc
    exact if_neg hc
  · intro msg hdecoded
    have hmessage : finalizedView (content (messageReceived msg codec)) = none := rfl
    have hderived : finalizedView (content (derived msg .decisionFinalized)) = some (msg.decoded.map .obj) :=
      congrArg some (datum_derived_decodedPayload .decisionFinalized)
    rw [hmessage, hderived, hdecoded]
    split <;> rfl

/-- The fields of a stored envelope that `verify` reads. -/
theorem field_storedEnvelope (codec : Codec B N) (bytes : B → List Nat) {row : RawRow (RuntimeEnvelope B N)}
    {envelope : RuntimeEnvelope B N} (h : row.payload.envelope = some envelope) :
    truthy (storedEnvelope codec bytes row) = true ∧
      field (storedEnvelope codec bytes row) "messageType" = some (.str envelope.messageType) ∧
      field (storedEnvelope codec bytes row) "messageId" = some (.str envelope.messageId) ∧
      field (storedEnvelope codec bytes row) "payloadBase64" = some (.str (codec.toBase64 envelope.payload)) := by
  simp [storedEnvelope, serializeRaw, h, truthy, field, Json.prop]

omit [JsNumber N] in
private theorem envelope_of_theEnvelope {raw : RawRuntimeEvent (RuntimeEnvelope B N)} {envelope : RuntimeEnvelope B N}
    (h : raw.theEnvelope = some envelope) : raw.kind = .streamEnvelope ∧ raw.envelope = some envelope := by
  unfold RawRuntimeEvent.theEnvelope RawRuntimeEvent.isEnvelope at h
  split at h
  · rename_i hkind
    simp only [Bool.and_eq_true, decide_eq_true_eq] at hkind
    exact ⟨hkind.1, h⟩
  · cases h

/-- `verify` finds the last envelope of the type. -/
theorem findLatestRawEnvelope_afterTxns (codec : Codec B N) (bytes : B → List Nat) (h : DistinctIds txns)
    (messageType : String) :
    ((findLatestRawEnvelope codec bytes (afterTxns (.created session) txns).raw messageType).bind
        (·.payload.theEnvelope)) =
      (envelopes txns).reverse.find? (·.messageType = messageType) := by
  obtain ⟨hordered, hkinds, hraw⟩ := raw_afterTxns session h
  have hincreasing := List.pairwise_map.1 hordered.increasing
  rw [findLatestRawEnvelope, Table.latest_filter hincreasing, ← hraw, ← List.filterMap_reverse, List.find?_filterMap]
  refine congrArg (Option.bind · _) (List.find?_congr fun row hrow => ?_)
  rw [hkinds row (List.mem_reverse.1 hrow)]
  cases henvelope : row.payload.theEnvelope with
  | some envelope =>
    obtain ⟨hkind, hrow⟩ := envelope_of_theEnvelope henvelope
    obtain ⟨-, htype, -, -⟩ := field_storedEnvelope codec bytes hrow
    simp [hkind, htype, asString]
  | none =>
    unfold RawRuntimeEvent.theEnvelope RawRuntimeEvent.isEnvelope at henvelope
    by_cases hkind : row.payload.kind = .streamEnvelope
    · have hmissing : row.payload.envelope = none := by
        cases hrow : row.payload.envelope with
        | none => rfl
        | some envelope => simp [hkind, hrow] at henvelope
      simp [storedEnvelope, serializeRaw, hmissing, field, asString]
    · simp [hkind]

/-- The last `decision.finalized` has the payload of the last commitment. -/
theorem lastFinalized_afterTxns (h : DistinctIds txns) (hingests : ∀ t ∈ txns, Ingests codec patterns t)
    {last : RuntimeEnvelope B N} (hlast : (envelopes txns).reverse.find? (·.messageType = "Commitment") = some last) :
    ∃ row, (afterTxns (.created session) txns).canonical.reverse.find? (·.type = .decisionFinalized) = some row ∧
      row.cast.datum "decodedPayload" =
        (ProtoRegistry.decodeKnown codec last.mode last.messageType last.payload).map .obj := by
  have hfind := find?_canonical session views_finalized h hingests fun _ => true
  have hview : ∀ row : CanonicalRow N, (finalizedView (row.type, row.data)).any (fun _ => true) =
      decide (row.type = .decisionFinalized) := by
    intro row
    unfold finalizedView
    by_cases htype : row.type = .decisionFinalized <;> simp [htype]
  have henvelope : ∀ envelope : RuntimeEnvelope B N, (if envelope.messageType = "Commitment" then
      some ((ProtoRegistry.decodeKnown codec envelope.mode envelope.messageType envelope.payload).map Json.obj)
        else none).any (fun _ => true) = decide (envelope.messageType = "Commitment") := by
    intro envelope
    by_cases htype : envelope.messageType = "Commitment" <;> simp [htype]
  have htype : last.messageType = "Commitment" := by simpa using List.find?_some hlast
  simp only [hview, henvelope] at hfind
  rw [hlast, Option.bind_some, if_pos htype, Option.bind_eq_some_iff] at hfind
  obtain ⟨row, hrow, hpayload⟩ := hfind
  have hfinalized : row.type = .decisionFinalized := by simpa using List.find?_some hrow
  refine ⟨row, hrow, ?_⟩
  rw [finalizedView, if_pos hfinalized] at hpayload
  exact Option.some.inj hpayload

/-- `verify` finds the payload of the last message with the id. -/
theorem findReceivedMessage_afterTxns (h : DistinctIds txns) (hingests : ∀ t ∈ txns, Ingests codec patterns t)
    (messageId : String) :
    ((findReceivedMessage (afterTxns (.created session) txns).canonical messageId).bind fun row =>
        JsonObject.prop row.data "payload") =
      ((envelopes txns).reverse.find? (·.messageId = messageId)).map fun envelope =>
        .obj (received codec envelope) := by
  have hfind := find?_canonical session views_received h hingests fun c => c.1 = some messageId
  have hincreasing := List.pairwise_map.1 (sequenced_afterTxns session h).1.increasing
  have hview : ∀ row : CanonicalRow N, (receivedView (row.type, row.data)).any (fun c => c.1 = some messageId) =
      (row.type = .messageReceived && asString (JsonObject.prop row.data "messageId") = some messageId) := by
    intro row
    unfold receivedView
    by_cases htype : row.type = .messageReceived <;> simp [htype]
  simp only [hview, Option.any_some, Option.some.injEq] at hfind
  rw [findReceivedMessage, Table.latest_filter hincreasing]
  have hpayload : ∀ found : Option (CanonicalRow N), (∀ row ∈ found, row.type = .messageReceived) →
      (found.bind fun row => JsonObject.prop row.data "payload") =
        (found.bind fun row => receivedView (row.type, row.data)).bind Prod.snd := by
    rintro (_ | row) hfound
    · rfl
    · simp [receivedView, hfound row rfl]
  rw [hpayload, hfind]
  · cases (envelopes txns).reverse.find? fun envelope => envelope.messageId = messageId <;> rfl
  · intro row hrow
    have hfound := List.find?_some hrow
    simp only [Bool.and_eq_true, decide_eq_true_eq] at hfound
    exact hfound.1

end Run

/-! ### The decision that a run shows -/

/-- The decision that `get` returns, or the one of an empty projection. -/
def shown (runId : String) (row : Option (ProjectionRow N)) : DecisionProjection N :=
  ((ProjectionService.get row).getD (.empty runId)).decision

/-- The run shows the last `decision.finalized` of its rows. -/
def ShowsLast (runId : String) (rows : List (CanonicalRow N)) (row : Option (ProjectionRow N)) : Prop :=
  ∀ last, rows.reverse.find? (·.type = .decisionFinalized) = some last →
    Finalized (Reducer.finalAction last.cast) (Reducer.finalOutcome last.cast) (shown runId row)

section Shown

variable {action : String} {outcome : Option Bool} {rows : List (CanonicalRow N)} {es : List (CanonicalEvent N)}
  {row : Option (ProjectionRow N)}

omit [JsNumber N] in
private theorem Finalized.deriveMissing {decision : DecisionProjection N} (h : Finalized action outcome decision) :
    Finalized action outcome (deriveMissingCanonical decision) := by
  obtain ⟨current, hcurrent, hfinalized, haction, houtcome⟩ := h.current
  unfold deriveMissingCanonical
  rw [hcurrent]
  dsimp only
  split
  · exact ⟨_, rfl, hfinalized, haction, houtcome⟩
  · exact h

private theorem shown_ofProjection (runId : String) (p : RunStateProjection N) (version schemaVersion : Nat) :
    shown runId (some (.ofProjection p version schemaVersion)) = deriveMissingCanonical p.decision := rfl

/-- A batch above the last row is applied to the decision that was shown before; no events leave the row as it is. -/
theorem shown_applyAndPersist (hstored : ∀ old ∈ row, Projects rows old) (habove : ∀ e ∈ es, lastRowSeq rows < e.seq) :
    (es = [] ∧ row = some (ProjectionService.applyAndPersist runId es row).2) ∨
      shown runId (some (ProjectionService.applyAndPersist runId es row).2) =
        deriveMissingCanonical (es.foldl Reducer.decisionStep (shown runId row)) := by
  have hfold : (ProjectionService.applyAndPersist runId es row).1.decision =
      es.foldl Reducer.decisionStep (shown runId row) := applyEvents_decision _ _
  rw [← hfold]
  cases row with
  | none => exact Or.inr rfl
  | some old =>
    obtain ⟨hversion, -, hlatest⟩ := hstored old rfl
    rcases List.eq_nil_or_concat es with rfl | ⟨init, e, rfl⟩
    · refine Or.inl ⟨rfl, congrArg some ?_⟩
      exact (upsert_of_le (Nat.le_of_eq (hlatest.trans hversion.symm))).symm
    · refine Or.inr ?_
      have hlt : old.version < e.seq := by
        rw [hversion]
        exact habove e (by simp)
      have hlast : ((init.concat e).getLast?.map (·.seq)) = some e.seq := by simp
      unfold ProjectionService.applyAndPersist
      rw [hlast]
      dsimp only [Option.getD_some]
      rw [upsert_of_lt hlt, shown_ofProjection]

/-- A transaction that appends events to the rows shows the last commitment among them, or else the one before. -/
theorem ShowsLast.append (h : ShowsLast runId rows row) (hstored : ∀ old ∈ row, Projects rows old)
    (habove : ∀ e ∈ es, lastRowSeq rows < e.seq) :
    ShowsLast runId (rows ++ es.map CanonicalRow.ofEvent)
      (some (ProjectionService.applyAndPersist runId es row).2) := by
  intro last hlast
  rw [List.reverse_append, List.find?_append, Option.or_eq_some_iff, ← List.map_reverse, List.find?_map] at hlast
  rcases hlast with hnew | ⟨hnone, hold⟩
  · obtain ⟨event, hevent, rfl⟩ := Option.map_eq_some_iff.1 hnew
    obtain ⟨htype, before, after, rfl, hafter⟩ := Table.exists_of_find?_reverse hevent
    rcases shown_applyAndPersist hstored habove with ⟨hnil, -⟩ | hshown
    · exact absurd hnil (by simp)
    · rw [hshown]
      refine Finalized.deriveMissing ?_
      exact finalized_foldl (of_decide_eq_true htype) (fun e he => of_decide_eq_false (hafter e he)) _
  · rcases shown_applyAndPersist hstored habove with ⟨-, hsame⟩ | hshown
    · rw [← hsame]
      exact h last hold
    · rw [hshown]
      refine ((h last hold).foldl fun e he htype => ?_).deriveMissing
      rw [Option.map_eq_none_iff, List.find?_eq_none] at hnone
      exact hnone e (List.mem_reverse.2 he) (decide_eq_true htype)

private theorem showsLast_rebuild (rows : List (CanonicalRow N)) (row : Option (ProjectionRow N)) :
    ShowsLast runId rows (some (ProjectionService.rebuild runId (rows.map CanonicalRow.cast) row).2) := by
  intro last hlast
  obtain ⟨htype, before, after, rfl, hafter⟩ := Table.exists_of_find?_reverse hlast
  have hshown : shown runId (some (ProjectionService.rebuild runId
      ((before ++ last :: after).map CanonicalRow.cast) row).2) =
      deriveMissingCanonical (applyEvents (.empty runId)
        ((before ++ last :: after).map CanonicalRow.cast) : RunStateProjection N).decision := by
    cases row <;> rfl
  rw [hshown, applyEvents_decision, List.map_append, List.map_cons]
  refine (finalized_foldl (of_decide_eq_true htype) ?_ _).deriveMissing
  intro e he
  obtain ⟨later, hlater, rfl⟩ := List.mem_map.1 he
  exact of_decide_eq_false (hafter later hlater)

/-- Every run shows its last commitment. -/
theorem showsLast_afterTxns {E : Type} (session : Option SessionRow) {txns : List (RunTxn N E runId)}
    (h : DistinctIds txns) :
    ShowsLast runId (afterTxns (.created session) txns).canonical (afterTxns (.created session) txns).projection := by
  refine afterTxns_induction (motive := fun _ d => ShowsLast runId d.canonical d.projection) ?_ ?_ h
  · intro last hlast
    cases hlast
  · intro txns t d hseq hids hraw ih
    have habove : ∀ e ∈ t.written d, lastRowSeq d.canonical < e.seq :=
      fun e he => Nat.lt_of_le_of_lt hseq.lastRowSeq_le (t.lt_written_seq d e he)
    have happend := ih.append hseq.stored habove
    rw [(hseq.apply t hids hraw).2.1]
    cases t with
    | emit events hne runCtx uuid =>
      rw [RunTxn.apply_emit]
      exact happend
    | persist rawId raw events hevents runCtx uuid cursor =>
      rw [RunTxn.apply_persist]
      exact happend
    | rebuild =>
      rw [RunTxn.apply_rebuild, listCanonicalUpTo_of_increasing hseq.run hseq.increasing]
      rw [RunTxn.written, List.map_nil, List.append_nil]
      exact showsLast_rebuild d.canonical d.projection

end Shown

/-! ### No false alarms -/

/-- `getState`, with its `healStaleTerminalDecision`; `decisionCount` is the one of the metrics, 0 without a row. -/
def getState {E : Type} (runId : String) (d : RunData N E) (decisionCount : Nat) : RunStateProjection N :=
  let projection := (ProjectionService.get d.projection).getD (.empty runId)
  let decisionUnfinalized := projection.decision.current.any fun current => !current.finalized
  if !terminalStatus projection.run.status || !decisionUnfinalized || decisionCount = 0 then projection
  else
    let rebuilt := (ProjectionService.rebuild runId ((listCanonicalUpTo d.canonical runId).map CanonicalRow.cast)
      d.projection).1
    if rebuilt.decision.current.any (·.finalized) then rebuilt else projection

/-- What `verify` reads of a run; where `getState` throws, there is no `decisionCount`. -/
def readsOf (codec : Codec B N) (bytes : B → List Nat) (runId : String) (d : RunData N (RuntimeEnvelope B N))
    (decisionCount : Option Nat) : VerificationReads N where
  latest := (findLatestRawEnvelope codec bytes d.raw "Commitment").map fun row =>
    (row.ts, storedEnvelope codec bytes row)
  received messageId := (findReceivedMessage d.canonical messageId).bind fun row => JsonObject.prop row.data "payload"
  state := decisionCount.map (getState runId d)

/-- A final decision needs no healing. -/
theorem getState_decision {E : Type} {d : RunData N E} {action : String} {outcome : Option Bool}
    (h : Finalized action outcome (shown runId d.projection)) (decisionCount : Nat) :
    Finalized action outcome (getState runId d decisionCount).decision := by
  obtain ⟨current, hcurrent, hfinalized, -, -⟩ := h.current
  unfold shown at hcurrent
  unfold getState
  dsimp only
  rw [hcurrent, Option.any_some, hfinalized]
  simp only [Bool.not_true, Bool.not_false, Bool.or_true, Bool.true_or, if_true]
  exact h

section Complete

variable {codec : Codec B N} {sdk : VerificationSdk B} {p : CommitmentPayload}

omit [JsNumber N] in
private theorem projectionConsistency_of_finalized {stringify : String → String} {state : RunStateProjection N}
    {outcome : Option Bool} (h : Finalized p.action outcome state.decision)
    (houtcome : p.outcomePositive = true → outcome = some true) :
    ∀ check ∈ projectionConsistency stringify (some state) p, check.passed = true := by
  obtain ⟨current, hcurrent, hfinalized, haction, hshown⟩ := h.current
  unfold projectionConsistency
  rw [Option.bind_some, hcurrent]
  rintro check hcheck
  simp only [hfinalized, if_true, Option.mem_def, Option.some.injEq] at hcheck
  have hpositive : ¬ (p.outcomePositive = true ∧ current.outcomePositive = some (some false)) := by
    rintro ⟨hp, hfalse⟩
    rw [hshown, houtcome hp] at hfalse
    cases hfalse
  rw [← hcheck]
  simp [haction, hpositive]

/-- The stored payload and the decoded bytes are the payload, and nothing that is shown differs. -/
theorem verify_of_stored {reads : VerificationReads N} {ts : String} {envelope : Option (Json N)} {messageId : String}
    {wire : B} (hlatest : reads.latest = some (ts, envelope)) (henvelope : truthy envelope = true)
    (hid : field envelope "messageId" = some (.str messageId)) (hne : messageId ≠ "")
    (hreceived : reads.received messageId = p.json none)
    (hwire : (asString (field envelope "payloadBase64")).map codec.ofBase64 = some wire)
    (hdecode : codec.decodeMessage "macp.v1.CommitmentPayload" wire = some (p.toObject none))
    (hverify : sdk.verifyCommitmentHash wire (sdk.commitmentHash p) = .matches)
    (hstate : ∀ check ∈ projectionConsistency sdk.stringify reads.state p, check.passed = true)
    (hsupersedes : ∀ ref ∈ p.supersedes, sdk.isCanonicalCommitmentHash ref.commitmentHash = true) :
    (verify sdk codec reads).status = .verified := by
  have hstring : stringOr (field envelope "messageId") "" = messageId := by
    rw [hid]
    rfl
  have hpayload : toCommitmentPayload (some (.obj (p.toObject none))) = p :=
    toCommitmentPayload_json p (none : Option N)
  have hhashes : hashes codec sdk reads envelope =
      { wire := some wire, wirePayload := some p, stored := some p, storedHash := some (sdk.commitmentHash p),
        recomputed := some (sdk.commitmentHash p), wireVerdict := some .matches } := by
    have htruthy : truthy (p.json (none : Option N)) = true := rfl
    unfold hashes
    simp only [hstring, if_neg hne, hreceived, hwire, htruthy, if_true, Option.bind_some, hdecode, Option.map_some,
      hpayload, toCommitmentPayload_json, hverify]
  have hchecks : ∀ check ∈ (hashes codec sdk reads envelope).checks sdk reads.state, check.passed = true := by
    rw [hhashes]
    intro check hcheck
    simp only [Hashes.checks, Hashes.hashChecks, Hashes.subject, Option.some_or, Option.bind_some, List.mem_append,
      List.mem_cons, List.not_mem_nil, or_false, Option.mem_toList, Option.map_eq_some_iff] at hcheck
    rcases hcheck with ((rfl | rfl) | hconsistent) | ⟨ref, href, rfl⟩
    · simp
    · simp
    · exact hstate check hconsistent
    · exact hsupersedes ref href
  unfold verify
  rw [hlatest, Option.bind_some]
  dsimp only
  rw [if_pos henvelope]
  unfold Hashes.status
  rw [if_neg, if_pos]
  · rw [Bool.and_eq_true, List.all_eq_true]
    refine ⟨?_, hchecks⟩
    rw [hhashes]
    simp [Hashes.isMatch]
  · rw [hhashes]
    simp

/-- A run in any interleaving of its transactions, of which the last commitment brings the bytes of a payload: whatever
else is stored before it and after it, `verify` raises no alarm. -/
theorem verified_of_ingested {patterns : List (String → String)} {session : Option SessionRow}
    {s : RowLock.State (RunData N (RuntimeEnvelope B N)) (Locals N) (RunTxn N (RuntimeEnvelope B N) runId)}
    (hs : (RowLock.machine RunTxn.program (.created session)).Reachable s) (hdistinct : DistinctIds s.commits)
    (hingests : ∀ t ∈ s.commits, Ingests codec patterns t)
    (hids : ((envelopes s.commits).map (·.messageId)).Nodup) (hnonempty : ∀ e ∈ envelopes s.commits, e.messageId ≠ "")
    {last : RuntimeEnvelope B N}
    (hlast : (envelopes s.commits).reverse.find? (·.messageType = "Commitment") = some last)
    (encode : CommitmentPayload → B) (hpayload : last.payload = encode p)
    (hdecode : codec.decodeMessage "macp.v1.CommitmentPayload" (encode p) = some (p.toObject none))
    (hbase64 : codec.ofBase64 (codec.toBase64 (encode p)) = encode p)
    (hverify : sdk.verifyCommitmentHash (encode p) (sdk.commitmentHash p) = .matches)
    (hform : ∀ hash, isCanonicalCommitmentHash hash = true → sdk.isCanonicalCommitmentHash hash = true)
    (haction : p.action ≠ "") (hsupersedes : ∀ ref ∈ p.supersedes, isCanonicalCommitmentHash ref.commitmentHash = true)
    (bytes : B → List Nat) (decisionCount : Option Nat) :
    (verify sdk codec (readsOf codec bytes runId s.data decisionCount)).status = .verified := by
  have hdata : s.data = afterTxns (.created session) s.commits := RowLock.data_eq hs
  rw [hdata]
  have htype : last.messageType = "Commitment" := by simpa using List.find?_some hlast
  have hmem : last ∈ envelopes s.commits := List.mem_reverse.1 (List.mem_of_find?_eq_some hlast)
  rw [← hpayload] at hdecode hbase64 hverify
  have hknown := decodeKnown_commitment hdecode last.mode
  -- The raw row is the one of the last commitment.
  have hraw := findLatestRawEnvelope_afterTxns session codec bytes hdistinct "Commitment"
  rw [hlast, Option.bind_eq_some_iff] at hraw
  obtain ⟨row, hrow, htheEnvelope⟩ := hraw
  obtain ⟨henvelope, -, hid, hbytes⟩ := field_storedEnvelope codec bytes (envelope_of_theEnvelope htheEnvelope).2
  -- No other message has its id.
  have hnodup : ((envelopes s.commits).reverse.map (·.messageId)).Nodup := by
    rw [List.map_reverse, List.nodup_reverse]
    exact hids
  have hfind : (envelopes s.commits).reverse.find? (·.messageId = last.messageId) = some last :=
    Table.get_eq_some_of_mem hnodup (List.mem_reverse.2 hmem)
  have hreceived := findReceivedMessage_afterTxns session hdistinct hingests last.messageId
  rw [hfind, Option.map_some, received, htype, hknown, Option.getD_some] at hreceived
  -- The decision that is shown is its decision.
  obtain ⟨final, hfinal, hdecoded⟩ := lastFinalized_afterTxns session hdistinct hingests hlast
  rw [htype, hknown, Option.map_some] at hdecoded
  have hshown := showsLast_afterTxns session hdistinct final hfinal
  rw [finalAction_commitment p none hdecoded, finalOutcome_commitment p none hdecoded, if_neg haction] at hshown
  have hlatest : (readsOf codec bytes runId (afterTxns (.created session) s.commits) decisionCount).latest =
      some (row.ts, storedEnvelope codec bytes row) := by
    unfold readsOf
    rw [hrow]
    rfl
  refine verify_of_stored hlatest henvelope hid (hnonempty last hmem) hreceived ?_ hdecode hverify ?_
    fun ref href => hform _ (hsupersedes ref href)
  · rw [hbytes]
    exact congrArg some hbase64
  · intro check hcheck
    cases hcount : decisionCount with
    | none =>
      rw [hcount] at hcheck
      cases hcheck
    | some count =>
      rw [hcount] at hcheck
      exact projectionConsistency_of_finalized (getState_decision hshown count) (fun hp => if_pos hp) check hcheck

end Complete

/-- The transaction that stores an envelope of the run. -/
def persistEnvelope (c : WireCommitment) (rawId : String) (envelope : RuntimeEnvelope (List Nat) (Option Rat)) :
    RunTxn (Option Rat) (RuntimeEnvelope (List Nat) (Option Rat)) "r1" :=
  .persist rawId { kind := .streamEnvelope, receivedAt := "2026-10-24T00:00:00.000Z", envelope := some envelope }
    (normalizeEnvelope c.codec [] ⟨"r1", "2026-10-24T00:00:00.000Z", fun call => rawId ++ toString call⟩ [] envelope
      none).1
    (run_normalizeEnvelope ⟨"r1", "2026-10-24T00:00:00.000Z", fun call => rawId ++ toString call⟩) none toString
    (some 1)

private theorem ingests_persistEnvelope (c : WireCommitment) (rawId : String)
    (stored : RuntimeEnvelope (List Nat) (Option Rat)) : Ingests c.codec [] (persistEnvelope c rawId stored) :=
  ⟨_, _, _, rfl⟩

/-- An approval with a negative outcome is verified, behind another commitment and before the end of the run. -/
theorem verified_of_ingested_negative :
    let c := WireCommitment.negative
    let first := persistEnvelope c "raw1" { c.envelope with messageId := "m-first", payload := [] }
    let completed : PartialEvent (Option Rat) :=
      { ts := "2026-10-24T00:00:01.000Z", type := .runCompleted, source := ⟨.macpControlPlane, "run-manager", none⟩
        data := [] }
    let late : RunTxn (Option Rat) (RuntimeEnvelope (List Nat) (Option Rat)) "r1" :=
      .emit [completed] (List.cons_ne_nil _ _) none fun _ => "e1"
    ∃ s, (RowLock.machine RunTxn.program (.created none)).Reachable s ∧
      s.commits = [first, persistEnvelope c "raw2" c.envelope, late] ∧
      (verify (singleSdk c negativeHash) c.codec (readsOf c.codec id "r1" s.data (some 1))).status = .verified := by
  intro c first completed late
  obtain ⟨s, hs, -, hcommits⟩ : ∃ s, (RowLock.machine RunTxn.program (.created none)).Reachable s ∧ s.holder = none ∧
      s.commits = [first, persistEnvelope c "raw2" c.envelope, late] :=
    RowLock.exists_commits _
  have hdistinct : DistinctIds s.commits := by
    rw [hcommits]
    exact ⟨by decide +kernel, by decide +kernel⟩
  have hingests : ∀ t ∈ s.commits, Ingests c.codec [] t := by
    rw [hcommits]
    simp only [List.forall_mem_cons]
    refine ⟨ingests_persistEnvelope c _ _, ingests_persistEnvelope c _ _, ?_, List.forall_mem_nil _⟩
    exact List.forall_mem_singleton.2 ⟨by decide, by decide⟩
  have henvelopes : envelopes s.commits = [{ c.envelope with messageId := "m-first", payload := [] }, c.envelope] := by
    rw [hcommits]
    rfl
  have hlast : (envelopes s.commits).reverse.find? (·.messageType = "Commitment") = some c.envelope := by
    rw [henvelopes]
    rfl
  refine ⟨s, hs, hcommits, ?_⟩
  refine verified_of_ingested (p := c.payload) hs hdistinct hingests ?_ ?_ hlast (fun _ => c.wire) rfl
    c.codec_decodeMessage (by decide +kernel) (by decide +kernel) (fun _ h => h) (by decide) (by decide) id (some 1)
  · rw [henvelopes]
    decide
  · rw [henvelopes]
    decide

end CommitmentVerification

end MacpControlPlane

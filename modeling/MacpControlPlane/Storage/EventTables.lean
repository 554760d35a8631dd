import MacpControlPlane.Events.EventNormalizer
import MacpControlPlane.Events.RunTransactions
import MacpControlPlane.Lib.Columns
import MacpControlPlane.Lib.Table

/-!
# What the event tables take (`db/schema.ts`, `storage/event.repository.ts`)

`appendRaw` and `appendCanonical` write what `normalize` made of an envelope into columns of bounded length and into
`jsonb` columns.  Nothing on the way shortens a string or takes a NUL out of it.
-/

namespace MacpControlPlane

open Js Columns EventNormalizer

variable {B N : Type}

def RawEventKind.name : RawEventKind → String
  | streamEnvelope => "stream-envelope"
  | sessionSnapshot => "session-snapshot"
  | sendAck => "send-ack"
  | streamStatus => "stream-status"
  | streamInlineError => "stream-inline-error"

def SubjectKind.name : SubjectKind → String
  | run => "run"
  | session => "session"
  | participant => "participant"
  | message => "message"
  | signal => "signal"
  | proposal => "proposal"
  | decision => "decision"
  | tool => "tool"
  | artifact => "artifact"
  | trace => "trace"
  | policy => "policy"

/-- The columns of `run_events_canonical` take the row. -/
def CanonicalRow.fits (u : Unpaired) (row : CanonicalRow N) : Bool :=
  varchar 128 row.type.name && row.subjectKind.all (varchar 64 ·.name) && row.subjectId.all (varchar 255) &&
    varchar 64 row.sourceKind && varchar 128 row.sourceName && row.rawType.all (varchar 128) &&
    row.traceId.all (varchar 255) && row.spanId.all (varchar 255) && row.parentSpanId.all (varchar 255) &&
    jsonb u row.data

section Fields

variable {u : Unpaired}

private theorem defined_defined (x : Option (Json N)) : defined (defined x) = defined x := by
  rcases x with _ | (_ | _ | _ | _ | _ | _) <;> rfl

theorem firstField_none (keys : List String) : firstField (none : Option (Json N)) keys = none :=
  List.findSome?_eq_none_iff.2 fun _ _ => rfl

private theorem defined_firstField (payload : Option (Json N)) (keys : List String) :
    defined (firstField payload keys) = firstField payload keys := by
  unfold firstField
  induction keys with
  | nil => rfl
  | cons key keys ih =>
    rw [List.findSome?_cons]
    cases hkey : defined (field payload key) with
    | none => exact ih
    | some v =>
      have h := defined_defined (field payload key)
      rw [hkey] at h
      exact h

theorem defined_field (payload : Option (Json N)) (key : String) :
    defined (field payload key) = firstField payload [key] := by
  unfold firstField
  rw [List.findSome?_cons, List.findSome?_nil]
  cases defined (field payload key) <;> rfl

theorem defined_coalesce (payload : Option (Json N)) (key other : String) :
    defined (coalesce (field payload key) (field payload other)) = firstField payload [key, other] := by
  rw [coalesce_eq_or]
  unfold firstField
  rw [List.findSome?_cons, List.findSome?_cons, List.findSome?_nil]
  cases hkey : defined (field payload key) with
  | none =>
    rw [Option.none_or]
    cases defined (field payload other) <;> rfl
  | some v =>
    have h := defined_defined (field payload key)
    rw [hkey] at h
    exact h

private theorem fits_makeEvent {msg : Incoming B N} {call : Nat} {type : CanonicalEventType} {subject : Subject}
    {data : List (String × Option (Json N))} :
    (CanonicalRow.ofEvent (msg.makeEvent call type subject data)).fits u =
      (varchar 128 type.name && varchar 255 subject.id && varchar 128 msg.envelope.messageType &&
        jsonb u (object data)) := by
  have hkind : varchar 64 subject.kind.name = true := by cases subject.kind <;> decide +kernel
  have hsource : varchar 64 "runtime" = true := varchar_ofList (by decide) (by decide)
  have hname : varchar 128 "rust-runtime" = true := varchar_ofList (by decide) (by decide)
  simp [CanonicalRow.fits, CanonicalRow.ofEvent, Incoming.makeEvent, EventSourceKind.name, hkind, hsource, hname]

/-- What the row of an event says about the envelope. -/
theorem of_fits {msg : Incoming B N} {call : Nat} {type : CanonicalEventType} {subject : Subject}
    {data : List (String × Option (Json N))}
    (h : (CanonicalRow.ofEvent (msg.makeEvent call type subject data)).fits u = true) :
    varchar 255 subject.id = true ∧ varchar 128 msg.envelope.messageType = true ∧ jsonb u (object data) = true := by
  rw [fits_makeEvent, Bool.and_eq_true, Bool.and_eq_true, Bool.and_eq_true] at h
  exact ⟨h.1.1.2, h.1.2, h.2⟩

private theorem jsonb_fullData {msg : Incoming B N} :
    jsonb u (object msg.fullData) =
      (jsonText u msg.envelope.mode && jsonText u msg.envelope.messageType && jsonText u msg.envelope.messageId &&
        jsonText u msg.envelope.sessionId && jsonText u msg.envelope.sender) := by
  simp (disch := decide) [Incoming.fullData, allStrings, Bool.and_assoc]

private theorem jsonb_shortData {msg : Incoming B N} :
    jsonb u (object msg.shortData) =
      (jsonText u msg.envelope.mode && jsonText u msg.envelope.messageType && jsonText u msg.envelope.sender) := by
  simp (disch := decide) [Incoming.shortData, allStrings, Bool.and_assoc]

@[simp] theorem jsonb_senderAuth {msg : Incoming B N} {fields : List (String × Option (Json N))} :
    jsonb u (object (msg.senderAuth :: fields)) = jsonb u (object fields) := by
  unfold Incoming.senderAuth
  rw [jsonb_object_cons (by decide)]
  cases msg.senderAuthenticated <;> rfl

private theorem all_defined {x : Option (Json N)} (hx : x.all (allStrings (jsonText u) (jsonText u)) = true) :
    (defined x).all (allStrings (jsonText u) (jsonText u)) = true := by
  rcases x with _ | (_ | _ | _ | _ | _ | _) <;> first | rfl | exact hx

private theorem varchar_derivedTypes : ∀ type ∈ derivedTypes, varchar 128 type.name = true := by
  simp only [derivedTypes, List.forall_mem_cons, List.not_mem_nil, false_imp_iff, implies_true, and_true]
  repeat' apply And.intro
  all_goals exact varchar_ofList (by decide) (by decide)

private theorem ascii_getKnownTypeName {modeName messageType name : String}
    (h : ProtoRegistry.getKnownTypeName modeName messageType = some name) : ascii name = true := by
  have htypes : ∀ entry ∈ ProtoRegistry.messageTypeMap, ∀ t ∈ entry.2, ascii t.2 = true := by
    simp only [ProtoRegistry.messageTypeMap, ProtoRegistry.coreTypes, List.forall_mem_cons, List.not_mem_nil,
      false_imp_iff, implies_true, and_true]
    repeat' apply And.intro
    all_goals exact ascii_ofList (by decide)
  have hlookup : ∀ {types : List (String × String)}, (∀ t ∈ types, ascii t.2 = true) →
      types.lookup messageType = some name → ascii name = true := by
    intro types hall hname
    exact hall (messageType, name) (mem_of_lookup hname)
  unfold ProtoRegistry.getKnownTypeName at h
  rw [Option.or_eq_some_iff, Option.bind_eq_some_iff] at h
  rcases h with ⟨types, hmode, hname⟩ | ⟨-, hname⟩
  · exact hlookup (htypes (modeName, types) (mem_of_lookup hmode)) hname
  · exact hlookup (htypes ("__core__", ProtoRegistry.coreTypes) (by simp [ProtoRegistry.messageTypeMap])) hname

end Fields

variable [JsNumber N]

/-- `JSON.stringify` of a buffer with these bytes. -/
def bufferJson (bytes : List Nat) : Json N :=
  .obj [("type", .str "Buffer"), ("data", .arr (bytes.map fun byte => .num (JsNumber.ofNat byte)))]

namespace EventRepository

/-- `serializeRaw` of a raw event that has an envelope; `bytes` gives the bytes of a buffer. -/
def serializeRaw (codec : Codec B N) (bytes : B → List Nat) (raw : RawRuntimeEvent (RuntimeEnvelope B N)) :
    JsonObject N :=
  object
    [("kind", some (.str raw.kind.name)), ("receivedAt", some (.str raw.receivedAt)),
      ("envelope", raw.envelope.map fun envelope => .obj (object
        [("macpVersion", some (.str envelope.macpVersion)), ("mode", some (.str envelope.mode)),
          ("messageType", some (.str envelope.messageType)), ("messageId", some (.str envelope.messageId)),
          ("sessionId", some (.str envelope.sessionId)), ("sender", some (.str envelope.sender)),
          ("timestampUnixMs", some (.num envelope.timestampUnixMs)),
          ("payload", some (bufferJson (bytes envelope.payload))),
          ("payloadBase64", some (.str (codec.toBase64 envelope.payload)))])),
      ("senderAuthenticated", raw.senderAuthenticated.map .bool)]

/-- The `envelope` of a stored raw event. -/
def storedEnvelope (codec : Codec B N) (bytes : B → List Nat) (row : RawRow (RuntimeEnvelope B N)) : Option (Json N) :=
  JsonObject.prop (serializeRaw codec bytes row.payload) "envelope"

/-- `findLatestRawEnvelope`, of the rows of the run. -/
def findLatestRawEnvelope (codec : Codec B N) (bytes : B → List Nat) (rows : List (RawRow (RuntimeEnvelope B N)))
    (messageType : String) : Option (RawRow (RuntimeEnvelope B N)) :=
  Table.latest (·.seq) (rows.filter fun row =>
    row.kind = .streamEnvelope &&
      asString (field (storedEnvelope codec bytes row) "messageType") = some messageType)

omit [JsNumber N] in
/-- `findReceivedMessage`, of the rows of the run. -/
def findReceivedMessage (rows : List (CanonicalRow N)) (messageId : String) : Option (CanonicalRow N) :=
  Table.latest (·.seq) (rows.filter fun row =>
    row.type = .messageReceived && asString (JsonObject.prop row.data "messageId") = some messageId)

end EventRepository

/-- The columns of `run_events_raw` take the row. -/
def RawRow.fits (codec : Codec B N) (bytes : B → List Nat) (row : RawRow (RuntimeEnvelope B N)) : Bool :=
  varchar 64 row.kind.name && varchar 128 row.sourceName &&
    jsonb codec.unpaired (EventRepository.serializeRaw codec bytes row.payload)

/-- An envelope that the stream has delivered, with when, and what `normalize` knows. -/
structure Delivery (B N : Type) where
  codec : Codec B N
  bytes : B → List Nat
  patterns : List (String → String)
  ctx : EventContext
  knownParticipants : List String
  envelope : RuntimeEnvelope B N
  senderAuthenticated : Option Bool

namespace Delivery

variable (d : Delivery B N)

/-- The frame that the stream yields. -/
def raw : RawRuntimeEvent (RuntimeEnvelope B N) where
  kind := .streamEnvelope
  receivedAt := d.ctx.ts
  envelope := some d.envelope
  senderAuthenticated := d.senderAuthenticated

def events : List (CanonicalEvent N) :=
  (normalizeEnvelope d.codec d.patterns d.ctx d.knownParticipants d.envelope d.senderAuthenticated).1

/-- The payload, as far as it decodes. -/
def decoded : Option (JsonObject N) :=
  ProtoRegistry.decodeKnown d.codec d.envelope.mode d.envelope.messageType d.envelope.payload

/-- `decoded?.k` -/
def get (k : String) : Option (Json N) := field (d.decoded.map .obj) k

/-! ### What an envelope must be like -/

/-- Whether an event of the envelope has the sender as its subject. -/
def isSubject : Bool :=
  decide (d.envelope.sender ∉ d.knownParticipants) ||
    (decide (d.envelope.messageType = "Progress") && d.decoded.isSome)

/-- The payload fields that `deriveSubject` reads an id from. -/
def subjectFields : CanonicalEventType → List String
  | .signalAcknowledged => ["signalId", "signal_id"]
  | .proposalCreated | .proposalUpdated => ["proposalId", "proposal_id", "requestId", "request_id"]
  | .decisionFinalized => ["commitmentId", "commitment_id", "decisionId", "decision_id"]
  | .toolCalled | .toolCompleted => ["toolCallId", "tool_call_id", "requestId", "request_id"]
  | _ => []

/-- The payload fields from which the events of the envelope take the ids of their subjects; of each list the first
field that is there counts. -/
def idFields : List (List String) :=
  ((deriveEventType d.envelope.messageType).map subjectFields).toList ++
  (if d.envelope.messageType = "PolicyResolved" then [["policyId", "policyVersion"]] else []) ++
  (if d.envelope.messageType = "PolicyCommitmentEvaluated" then [["commitmentId"]] else []) ++
  (if d.envelope.messageType = "PolicyDenied" ∨ asBool (d.get "policyDenied") = some true then
    [["commitmentId", "policyId"]]
  else [])

/-- What the LLM call that the payload reports has besides numbers. -/
def llmFields : List (Json N) :=
  match (llmCandidates d.codec (d.decoded.map .obj)).find? isLlmCall with
  | some c =>
    [truthyString c "model", defined (field c "prompt"), defined (field c "response"),
      truthyString c "provider"].filterMap id
  | none => []

/-- The texts of the envelope that are part of JSON values. -/
def texts : List String :=
  [d.ctx.ts, d.envelope.macpVersion, d.envelope.mode, d.envelope.messageType, d.envelope.messageId,
    d.envelope.sessionId, d.envelope.sender]

/-- The tables can take all that is derived of the envelope. -/
structure Storable : Prop where
  texts : ∀ s ∈ d.texts, jsonText d.codec.unpaired s = true
  messageType : varchar 128 d.envelope.messageType = true
  messageId : varchar 255 d.envelope.messageId = true
  senderId : d.isSubject = true → varchar 255 d.envelope.sender = true
  payload : ∀ fields ∈ d.decoded, jsonb d.codec.unpaired fields = true
  ids : ∀ fields ∈ d.idFields, ∀ id ∈ firstField (d.decoded.map .obj) fields, varchar 255 id.toJsString = true
  llm : ∀ x ∈ d.llmFields, allStrings (jsonText d.codec.unpaired) (jsonText d.codec.unpaired)
    (RedactionService.redactField d.patterns x) = true

/-! ### The rows of an event -/

/-- The envelope as the events of `normalize` see it. -/
def msg : Incoming B N where
  ctx := d.ctx
  envelope := d.envelope
  senderAuthenticated := d.senderAuthenticated
  decoded := d.decoded

private theorem events_eq :
    d.events =
      (if d.envelope.sender ∈ d.knownParticipants then [] else [participantSeen d.msg]) ++
        messageEvents d.msg d.codec d.patterns := by
  unfold events normalizeEnvelope
  dsimp only
  split_ifs <;> rfl

variable {d}

/-! ### Subjects -/

private theorem varchar_stringOr_iff {n : Nat} {x : Option (Json N)} {s : String} (hs : varchar n s = true) :
    varchar n (stringOr x s) = true ↔ ∀ id ∈ defined x, varchar n id.toJsString = true := by
  unfold stringOr
  cases hx : defined x with
  | none => simp [hs]
  | some v => simp

private theorem varchar_deriveSubject_iff {type : CanonicalEventType} {envelope : RuntimeEnvelope B N}
    {payload : Option (Json N)} (hid : varchar 255 envelope.messageId = true) :
    varchar 255 (deriveSubject type envelope payload).id = true ↔
      ∀ id ∈ firstField payload (subjectFields type), varchar 255 id.toJsString = true := by
  have hnone : (∀ id ∈ firstField payload [], varchar 255 id.toJsString = true) ↔ True := by simp [firstField]
  cases type <;>
    simp only [deriveSubject, subjectFields, varchar_stringOr_iff hid, defined_firstField, hnone, hid]

/-! ### The raw row -/

private theorem fits_raw (hbase64 : ∀ payload, ascii (d.codec.toBase64 payload) = true) {id : String} {seq : Nat} :
    (RawRow.ofEvent id seq d.raw).fits d.codec d.bytes = true ↔ ∀ s ∈ d.texts, jsonText d.codec.unpaired s = true := by
  have htext : jsonText d.codec.unpaired "stream-envelope" = true := jsonText_of_ascii (ascii_ofList (by decide))
  have hkind : varchar 64 "stream-envelope" = true := varchar_ofList (by decide) (by decide)
  have hname : varchar 128 "rust-runtime" = true := varchar_ofList (by decide) (by decide)
  have hpayload : jsonText d.codec.unpaired (d.codec.toBase64 d.envelope.payload) = true :=
    jsonText_of_ascii (hbase64 _)
  have hbytes : allStrings (jsonText d.codec.unpaired) (jsonText d.codec.unpaired)
      (bufferJson (d.bytes d.envelope.payload) : Json N) = true := by
    have hitems : allItems (jsonText d.codec.unpaired) (jsonText d.codec.unpaired)
        ((d.bytes d.envelope.payload).map fun byte => .num (JsNumber.ofNat byte : N)) = true := by
      simp [allItems_iff, allStrings]
    have htype : jsonText d.codec.unpaired "type" = true := jsonText_of_ascii (by decide)
    have hbuffer : jsonText d.codec.unpaired "Buffer" = true := jsonText_of_ascii (by decide)
    have hdata : jsonText d.codec.unpaired "data" = true := jsonText_of_ascii (by decide)
    simp only [bufferJson, allStrings, allFields, hitems, htype, hbuffer, hdata, Bool.and_true]
  have hauth : (d.senderAuthenticated.map Json.bool).all
      (allStrings (jsonText d.codec.unpaired) (jsonText d.codec.unpaired) : Json N → Bool) = true := by
    cases d.senderAuthenticated <;> rfl
  unfold RawRow.fits
  simp (disch := decide) [RawRow.ofEvent, RawEventKind.name, hkind, hname, EventRepository.serializeRaw, raw, hauth,
    allStrings_str, allStrings_num, allStrings_obj, hbytes, hpayload, htext, texts]

/-! ### The rows of the events -/

omit [JsNumber N] in
private theorem jsonb_redact_cons {k : String} (hk : k ≠ "__proto__") (hascii : ascii k = true)
    (x : Option (Json N)) (fields : List (String × Option (Json N))) :
    jsonb d.codec.unpaired (RedactionService.redact d.patterns (object ((k, x) :: fields))) =
      (x.all (fun v => allStrings (jsonText d.codec.unpaired) (jsonText d.codec.unpaired)
        (RedactionService.redactField d.patterns v)) &&
        jsonb d.codec.unpaired (RedactionService.redact d.patterns (object fields))) := by
  have hone : jsonb d.codec.unpaired (object [(k, x.map (RedactionService.redactField d.patterns))]) =
      x.all fun v => allStrings (jsonText d.codec.unpaired) (jsonText d.codec.unpaired)
        (RedactionService.redactField d.patterns v) := by
    rw [jsonb_object_cons hascii, jsonb_object_nil, Bool.and_true, Option.all_map]
  unfold jsonb at hone ⊢
  rw [RedactionService.redact_object_cons d.patterns hk, allFields_append, hone]

private theorem jsonb_redacted_iff :
    (∀ llm ∈ extractLlmCall d.codec (d.decoded.map .obj),
        jsonb d.codec.unpaired (RedactionService.redact d.patterns llm) = true) ↔
      ∀ x ∈ d.llmFields, allStrings (jsonText d.codec.unpaired) (jsonText d.codec.unpaired)
        (RedactionService.redactField d.patterns x) = true := by
  unfold extractLlmCall llmFields
  cases (llmCandidates d.codec (d.decoded.map .obj)).find? isLlmCall with
  | none => simp
  | some c =>
    simp only [Option.map_some, Option.mem_def, Option.some.injEq, forall_eq']
    unfold llmCall
    simp (disch := decide) only [jsonb_redact_cons, RedactionService.redact_object_nil, jsonb_object_nil,
      Option.all_some, RedactionService.redactField_num, allStrings_num, Option.all_map, Bool.true_and, Bool.and_true]
    cases truthyString c "model" <;> cases defined (field c "prompt") <;> cases defined (field c "response") <;>
      cases truthyString c "provider" <;> simp

theorem mem_events_iff {e : CanonicalEvent N} :
    e ∈ d.events ↔
      (d.envelope.sender ∉ d.knownParticipants ∧ e = participantSeen d.msg) ∨ e = messageReceived d.msg d.codec ∨
        (∃ llm ∈ extractLlmCall d.codec (d.decoded.map .obj),
          e = llmCallCompleted d.msg (RedactionService.redact d.patterns llm)) ∨
        (∃ type ∈ deriveEventType d.envelope.messageType, e = derived d.msg type) ∨ e ∈ taskEvents d.msg ∨
        e ∈ policyEvents d.msg ∨ e ∈ progressEvents d.msg := by
  have hseen : e ∈ (if d.envelope.sender ∈ d.knownParticipants then [] else [participantSeen d.msg]) ↔
      d.envelope.sender ∉ d.knownParticipants ∧ e = participantSeen d.msg := by
    split_ifs with hknown <;> simp [hknown]
  rw [events_eq, List.mem_append, hseen, mem_messageEvents_iff]
  rfl

/-! ### An envelope that the tables can take -/

namespace Storable

private theorem fits (h : d.Storable) {call : Nat} {type : CanonicalEventType} {subject : Subject}
    {data : List (String × Option (Json N))} (htype : varchar 128 type.name = true)
    (hsubject : varchar 255 subject.id = true) (hdata : jsonb d.codec.unpaired (object data) = true) :
    (CanonicalRow.ofEvent (d.msg.makeEvent call type subject data)).fits d.codec.unpaired = true := by
  have hmessageType : varchar 128 d.msg.envelope.messageType = true := h.messageType
  rw [fits_makeEvent, htype, hsubject, hmessageType, hdata]
  rfl

private theorem fullData (h : d.Storable) : jsonb d.codec.unpaired (object d.msg.fullData) = true := by
  have htexts := h.texts
  simp only [Delivery.texts, List.forall_mem_cons] at htexts
  rw [jsonb_fullData]
  simp [msg, htexts]

private theorem shortData (h : d.Storable) : jsonb d.codec.unpaired (object d.msg.shortData) = true := by
  have htexts := h.texts
  simp only [Delivery.texts, List.forall_mem_cons] at htexts
  rw [jsonb_shortData]
  simp [msg, htexts]

/-- A field of the payload. -/
theorem all_get (h : d.Storable) (k : String) :
    (d.msg.get k).all (allStrings (jsonText d.codec.unpaired) (jsonText d.codec.unpaired)) = true := by
  rw [Option.all_eq_true]
  intro x hx
  change field (d.decoded.map .obj) k = some x at hx
  cases hdecoded : d.decoded with
  | none =>
    rw [hdecoded] at hx
    cases hx
  | some fields =>
    rw [hdecoded] at hx
    exact allStrings_prop (h.payload fields hdecoded) hx

private theorem all_decoded (h : d.Storable) :
    (d.msg.decoded.map Json.obj).all (allStrings (jsonText d.codec.unpaired) (jsonText d.codec.unpaired)) = true := by
  rw [Option.all_map, Option.all_eq_true]
  exact h.payload

private theorem fits_derived (h : d.Storable) {type : CanonicalEventType}
    (htype : type ∈ deriveEventType d.envelope.messageType) :
    (CanonicalRow.ofEvent (derived d.msg type)).fits d.codec.unpaired = true := by
  have hids : subjectFields type ∈ d.idFields := by
    rw [Option.mem_def] at htype
    simp [idFields, htype]
  have hsubject := (varchar_deriveSubject_iff h.messageId).2 (h.ids _ hids)
  have hname : ((ProtoRegistry.getKnownTypeName d.msg.envelope.mode d.msg.envelope.messageType).map Json.str).all
      (allStrings (jsonText d.codec.unpaired) (jsonText d.codec.unpaired) : Json N → Bool) = true := by
    rw [Option.all_map, Option.all_eq_true]
    exact fun name hname => jsonText_of_ascii (ascii_getKnownTypeName hname)
  refine h.fits (varchar_derivedTypes type (mem_derivedTypes htype)) hsubject ?_
  simp (disch := decide) [h.fullData, jsonb_senderAuth, hname, h.all_decoded]

private theorem fits_taskProgress (h : d.Storable) {percentage : Option (Json N)} {message : Json N}
    (hpercentage : percentage.all (allStrings (jsonText d.codec.unpaired) (jsonText d.codec.unpaired)) = true)
    (hmessage : allStrings (jsonText d.codec.unpaired) (jsonText d.codec.unpaired) message = true) :
    (CanonicalRow.ofEvent (taskProgress d.msg percentage message)).fits d.codec.unpaired = true := by
  refine h.fits (by decide +kernel) h.messageId ?_
  simp (disch := decide) [h.shortData, hpercentage, hmessage]

private theorem fits_taskEvents (h : d.Storable) {e : CanonicalEvent N} (he : e ∈ taskEvents d.msg) :
    (CanonicalRow.ofEvent e).fits d.codec.unpaired = true := by
  have hgetD : ∀ (k s : String), ascii s = true →
      allStrings (jsonText d.codec.unpaired) (jsonText d.codec.unpaired) ((defined (d.msg.get k)).getD (.str s)) =
        true := by
    intro k s hs
    have hall := all_defined (h.all_get k)
    cases hk : defined (d.msg.get k) with
    | none => exact jsonText_of_ascii hs
    | some x =>
      rw [hk] at hall
      exact hall
  rcases mem_taskEvents he with ⟨progress, hprogress, rfl⟩ | rfl | rfl
  · have hall := h.all_get "progress"
    rw [Option.mem_def.1 hprogress] at hall
    exact h.fits_taskProgress hall (hgetD _ _ (by decide))
  · exact h.fits_taskProgress rfl (jsonText_of_ascii (by decide : ascii "completed" = true))
  · exact h.fits_taskProgress rfl (hgetD _ _ (by decide))

/-- The id that an event of a policy takes from the payload. -/
theorem varchar_policyId (h : d.Storable) {keys : List String} (hkeys : keys ∈ d.idFields) {x : Option (Json N)}
    (hx : defined x = firstField (d.decoded.map .obj) keys) : varchar 255 (stringOr x "") = true := by
  rw [varchar_stringOr_iff (by decide), hx]
  exact h.ids keys hkeys

private theorem fits_policyResolved (h : d.Storable) (htype : d.envelope.messageType = "PolicyResolved")
    {decoded : JsonObject N} (hdecoded : decoded ∈ d.decoded) :
    (CanonicalRow.ofEvent (policyResolved d.msg decoded)).fits d.codec.unpaired = true := by
  have hkeys : ["policyId", "policyVersion"] ∈ d.idFields := by simp [idFields, htype]
  have hversion : (coalesce (d.msg.get "policyVersion") (d.msg.get "policyId")).all
      (allStrings (jsonText d.codec.unpaired) (jsonText d.codec.unpaired)) = true := by
    rw [coalesce_eq_or]
    have hdefined := all_defined (h.all_get "policyVersion")
    cases hx : defined (d.msg.get "policyVersion") with
    | none => exact h.all_get "policyId"
    | some x => rwa [hx] at hdefined
  refine h.fits (by decide +kernel) (h.varchar_policyId hkeys (defined_coalesce _ _ _)) ?_
  simp (disch := decide) [h.shortData, hversion, h.payload decoded hdecoded]

private theorem fits_policyCommitmentEvaluated (h : d.Storable)
    (htype : d.envelope.messageType = "PolicyCommitmentEvaluated") {decoded : JsonObject N}
    (hdecoded : decoded ∈ d.decoded) :
    (CanonicalRow.ofEvent (policyCommitmentEvaluated d.msg decoded)).fits d.codec.unpaired = true := by
  have hkeys : ["commitmentId"] ∈ d.idFields := by simp [idFields, htype]
  refine h.fits (by decide +kernel) (h.varchar_policyId hkeys (defined_field _ _)) ?_
  simp (disch := decide) [h.shortData, h.payload decoded hdecoded]

private theorem fits_policyDenied (h : d.Storable)
    (htype : d.envelope.messageType = "PolicyDenied" ∨ asBool (d.get "policyDenied") = some true) :
    (CanonicalRow.ofEvent (policyDenied d.msg)).fits d.codec.unpaired = true := by
  have hkeys : ["commitmentId", "policyId"] ∈ d.idFields := by simp [idFields, htype]
  have hpayload : jsonb d.codec.unpaired (d.msg.decoded.getD []) = true := by
    change jsonb d.codec.unpaired (d.decoded.getD []) = true
    cases hdecoded : d.decoded with
    | none => rfl
    | some fields => exact h.payload fields hdecoded
  refine h.fits (by decide +kernel) (h.varchar_policyId hkeys (defined_coalesce _ _ _)) ?_
  simp (disch := decide) [h.shortData, hpayload]

private theorem fits_progressEvents (hformat : ∀ n : N, ascii (JsNumber.format n) = true) (h : d.Storable)
    {e : CanonicalEvent N} (he : e ∈ progressEvents d.msg) : (CanonicalRow.ofEvent e).fits d.codec.unpaired = true := by
  obtain ⟨hprogress, rfl⟩ := mem_progressEvents_iff.1 he
  have hsubject : d.isSubject = true := by
    unfold isSubject
    rw [Bool.or_eq_true, Bool.and_eq_true, decide_eq_true_eq, decide_eq_true_eq]
    exact Or.inr hprogress
  have hmessage : jsonText d.codec.unpaired (stringOr (d.msg.get "message") "") = true := by
    have hall := all_defined (h.all_get "message")
    unfold stringOr
    cases hx : defined (d.msg.get "message") with
    | none => exact jsonText_of_ascii (by decide : ascii "" = true)
    | some x =>
      rw [hx] at hall
      exact jsonText_toJsString (fun n => jsonText_of_ascii (hformat n)) x hall
  have hpercentage : ((defined (d.msg.get "progress")).map fun v =>
      Json.num (JsNumber.mul (toNumber (some v)) (JsNumber.ofNat 100 : N))).all
        (allStrings (jsonText d.codec.unpaired) (jsonText d.codec.unpaired)) = true := by
    cases defined (d.msg.get "progress") <;> rfl
  refine h.fits (by decide +kernel) (h.senderId hsubject) ?_
  simp (disch := decide) [h.shortData, hpercentage, hmessage, h.all_get]

/-- All rows of the events fit. -/
theorem fits_events (hbase64 : ∀ payload, ascii (d.codec.toBase64 payload) = true)
    (hformat : ∀ n : N, ascii (JsNumber.format n) = true) (h : d.Storable) :
    ∀ e ∈ d.events, (CanonicalRow.ofEvent e).fits d.codec.unpaired = true := by
  intro e he
  rw [mem_events_iff, mem_policyEvents_iff] at he
  rcases he with ⟨hnew, rfl⟩ | rfl | ⟨llm, hllm, rfl⟩ | ⟨type, htype, rfl⟩ | htask |
    (⟨decoded, hdecoded, htype, rfl⟩ | ⟨decoded, hdecoded, htype, rfl⟩ | ⟨htype, rfl⟩) | hprogress
  · have hsubject : d.isSubject = true := by simp [isSubject, hnew]
    refine h.fits (by decide +kernel) (h.senderId hsubject) ?_
    have hsender : jsonText d.codec.unpaired d.envelope.sender = true := h.texts _ (by simp [Delivery.texts])
    simp (disch := decide) [msg, hsender]
  · have hpayload : jsonb d.codec.unpaired
        (d.msg.decoded.getD [("payloadBase64", .str (d.codec.toBase64 d.msg.envelope.payload))]) = true := by
      change jsonb d.codec.unpaired (d.decoded.getD _) = true
      cases hdecoded : d.decoded with
      | none =>
        have hkey : jsonText d.codec.unpaired "payloadBase64" = true := jsonText_of_ascii (by decide)
        have hpayload : jsonText d.codec.unpaired (d.codec.toBase64 d.msg.envelope.payload) = true :=
          jsonText_of_ascii (hbase64 _)
        simp [jsonb, allFields, hkey, hpayload]
      | some fields => exact h.payload fields hdecoded
    refine h.fits (by decide +kernel) h.messageId ?_
    simp (disch := decide) [h.fullData, jsonb_senderAuth, hpayload]
  · have hredacted := jsonb_redacted_iff.2 h.llm llm hllm
    refine h.fits (by decide +kernel) h.messageId ?_
    simp (disch := decide) [h.fullData, jsonb_senderAuth, hredacted]
  · exact h.fits_derived htype
  · exact h.fits_taskEvents htask
  · exact h.fits_policyResolved htype hdecoded
  · exact h.fits_policyCommitmentEvaluated htype hdecoded
  · exact h.fits_policyDenied htype
  · exact h.fits_progressEvents hformat hprogress

end Storable

/-! ### An envelope whose rows fit -/

/-- The id of a policy's event. -/
theorem varchar_of_policyId {keys : List String} {x : Option (Json N)}
    (hx : defined x = firstField (d.decoded.map .obj) keys) (h : varchar 255 (stringOr x "") = true) :
    ∀ id ∈ firstField (d.decoded.map .obj) keys, varchar 255 id.toJsString = true := by
  rw [← hx]
  exact (varchar_stringOr_iff (by decide)).1 h

/-- The ids that the payload gives are subjects of events. -/
theorem varchar_idFields (hmessageId : varchar 255 d.envelope.messageId = true)
    (hevents : ∀ e ∈ d.events, (CanonicalRow.ofEvent e).fits d.codec.unpaired = true) {keys : List String}
    (hkeys : keys ∈ d.idFields) {id : Json N} (hid : id ∈ firstField (d.decoded.map .obj) keys) :
    varchar 255 id.toJsString = true := by
  have hpolicy : ∀ e ∈ policyEvents d.msg, (CanonicalRow.ofEvent e).fits d.codec.unpaired = true :=
    fun e he => hevents e (by simp [mem_events_iff, he])
  obtain ⟨fields, hfields⟩ : ∃ fields, fields ∈ d.decoded := by
    cases hdecoded : d.decoded with
    | none =>
      rw [hdecoded, Option.map_none, firstField_none] at hid
      cases hid
    | some fields => exact ⟨fields, rfl⟩
  unfold idFields at hkeys
  rw [List.mem_append, List.mem_append, List.mem_append, Option.mem_toList, Option.map_eq_some_iff,
    List.mem_ite_nil_right, List.mem_ite_nil_right, List.mem_ite_nil_right, List.mem_singleton, List.mem_singleton,
    List.mem_singleton] at hkeys
  rcases hkeys with ((⟨type, htype, rfl⟩ | ⟨htype, rfl⟩) | ⟨htype, rfl⟩) | ⟨htype, rfl⟩
  · have hmem : derived d.msg type ∈ d.events := by simp [mem_events_iff, htype]
    exact (varchar_deriveSubject_iff hmessageId).1 (of_fits (hevents _ hmem)).1 id hid
  · have hmem : policyResolved d.msg fields ∈ policyEvents d.msg :=
      mem_policyEvents_iff.2 (Or.inl ⟨fields, hfields, htype, rfl⟩)
    exact varchar_of_policyId (defined_coalesce _ _ _) (of_fits (hpolicy _ hmem)).1 id hid
  · have hmem : policyCommitmentEvaluated d.msg fields ∈ policyEvents d.msg :=
      mem_policyEvents_iff.2 (Or.inr (Or.inl ⟨fields, hfields, htype, rfl⟩))
    exact varchar_of_policyId (defined_field _ _) (of_fits (hpolicy _ hmem)).1 id hid
  · have hmem : policyDenied d.msg ∈ policyEvents d.msg :=
      mem_policyEvents_iff.2 (Or.inr (Or.inr ⟨htype, rfl⟩))
    exact varchar_of_policyId (defined_coalesce _ _ _) (of_fits (hpolicy _ hmem)).1 id hid

/-- The rows of an envelope fit if and only if the tables can take all that is derived of it. -/
theorem fits_iff (hbase64 : ∀ payload, ascii (d.codec.toBase64 payload) = true)
    (hformat : ∀ n : N, ascii (JsNumber.format n) = true) (id : String) (seq : Nat) :
    (RawRow.ofEvent id seq d.raw).fits d.codec d.bytes = true ∧
      (∀ e ∈ d.events, (CanonicalRow.ofEvent e).fits d.codec.unpaired = true) ↔ d.Storable := by
  rw [fits_raw hbase64]
  constructor
  · rintro ⟨htexts, hevents⟩
    have hreceived := of_fits (hevents (messageReceived d.msg d.codec) (mem_events_iff.2 (Or.inr (Or.inl rfl))))
    have hpayload : ∀ fields ∈ d.decoded, jsonb d.codec.unpaired fields = true := by
      intro fields hfields
      have hdecoded : d.msg.decoded = some fields := hfields
      have hdata := hreceived.2.2
      simp (disch := decide) only [jsonb_object_append, jsonb_senderAuth, jsonb_object_cons, jsonb_object_nil, hdecoded,
        Option.getD_some, Option.all_some, allStrings_obj, Bool.and_true, Bool.and_eq_true] at hdata
      exact hdata.2
    refine ⟨htexts, hreceived.2.1, hreceived.1, ?_, hpayload, ?_, ?_⟩
    · intro hsubject
      unfold isSubject at hsubject
      rw [Bool.or_eq_true, Bool.and_eq_true, decide_eq_true_eq, decide_eq_true_eq] at hsubject
      rcases hsubject with hnew | hprogress
      · exact (of_fits (hevents (participantSeen d.msg) (mem_events_iff.2 (Or.inl ⟨hnew, rfl⟩)))).1
      · have hmem : ambientProgress d.msg ∈ progressEvents d.msg := mem_progressEvents_iff.2 ⟨hprogress, rfl⟩
        exact (of_fits (hevents (ambientProgress d.msg) (by simp [mem_events_iff, hmem]))).1
    · exact fun keys hkeys id hid => varchar_idFields hreceived.1 hevents hkeys hid
    · rw [← jsonb_redacted_iff]
      intro llm hllm
      have hmem : llmCallCompleted d.msg (RedactionService.redact d.patterns llm) ∈ d.events :=
        mem_events_iff.2 (Or.inr (Or.inr (Or.inl ⟨llm, hllm, rfl⟩)))
      have hdata := (of_fits (hevents _ hmem)).2.2
      simp (disch := decide) only [jsonb_object_append, jsonb_senderAuth, jsonb_object_cons, jsonb_object_nil,
        Option.all_some, allStrings_obj, Bool.and_true, Bool.and_eq_true] at hdata
      exact hdata.2
  · intro h
    exact ⟨h.texts, h.fits_events hbase64 hformat⟩

end Delivery

end MacpControlPlane

import MacpControlPlane.Lib.SplitText
import MacpControlPlane.Lib.Trim
import MacpControlPlane.Runs.RunRecovery
import MacpControlPlane.Runtime.CallFailures
import MacpControlPlane.Runtime.Contribute
import MacpControlPlane.Runtime.SubscribeSession
import MacpControlPlane.Verification.IngestedCommitments

/-!
# The events of a frame (`events/event-normalizer.service.ts`)

Besides envelopes `normalize` takes the other frames of the runtime: the status of a stream, a snapshot of the session,
the answer to a message, and an error on the stream.

An error that denies a message by a policy makes a `policy.denied` with the reasons.  A runtime from v0.9.0 on sends
them in the details; an older one only sends a text, which `parsePolicyDenyReasons` takes apart at `"; "`.
-/

namespace MacpControlPlane

open Js EventNormalizer SubscribeSession SplitText

variable {N : Type}

/-! ### Frames -/

/-- `RuntimeAck['error']` -/
structure AckError where
  code : String
  message : String
  details : Option (List UInt8) := none
  reasons : Option (List String) := none

/-- `RuntimeAck` -/
structure RuntimeAck (N : Type) where
  ok : Bool
  duplicate : Bool
  messageId : String
  sessionId : String
  acceptedAtUnixMs : N
  sessionState : String
  error : Option AckError := none

/-- A `RawRuntimeEvent` by its kind, with the field that goes with the kind. -/
inductive RuntimeFrame (N : Type) where
  | streamStatus (status detail : Option String)
  | sessionSnapshot (snapshot : Option (TimedSessionSnapshot N))
  | sendAck (ack : Option (RuntimeAck N))
  | streamInlineError (error : Option FullInlineError)
  | streamEnvelope (envelope : Option (RuntimeEnvelope (List UInt8) N)) (senderAuthenticated : Option Bool)

/-- The frame as the consumers of the streams take it. -/
def RuntimeFrame.raw (receivedAt : String) : RuntimeFrame N → RawRuntimeEvent (RuntimeEnvelope (List UInt8) N)
  | .streamStatus status _ => { kind := .streamStatus, receivedAt, streamStatus := status }
  | .sessionSnapshot snapshot =>
    { kind := .sessionSnapshot, receivedAt, sessionState := snapshot.map (·.state) }
  | .sendAck _ => { kind := .sendAck, receivedAt }
  | .streamInlineError error => { kind := .streamInlineError, receivedAt, inlineError := error.map (·.toInlineError) }
  | .streamEnvelope envelope senderAuthenticated =>
    { kind := .streamEnvelope, receivedAt, envelope, senderAuthenticated }

/-- What `subscribeSession` yields. -/
def RuntimeFrame.ofFrame : Frame N → RuntimeFrame N
  | .opened _ => .streamStatus (some "opened") none
  | .inlineError _ error => .streamInlineError (some error)
  | .envelope _ envelope => .streamEnvelope (some envelope) none

theorem RuntimeFrame.raw_ofFrame (frame : Frame N) :
    frame.raw = (RuntimeFrame.ofFrame frame).raw frame.raw.receivedAt := by
  cases frame <;> rfl

/-! ### `normalize` -/

namespace EventNormalizer

def makeEvent (ctx : EventContext) (call : Nat) (type : CanonicalEventType) (subject : Subject)
    (data : List (String × Option (Json N))) (rawType : String) : CanonicalEvent N where
  id := ctx.randomUUID call
  runId := ctx.runId
  seq := 0
  ts := ctx.ts
  type
  schemaVersion := some projectionSchemaVersion
  subject := some subject
  source := { kind := .runtime, name := "rust-runtime", rawType := some rawType }
  data := object data

theorem Incoming.makeEvent_eq {B : Type} (msg : Incoming B N) (call : Nat) (type : CanonicalEventType)
    (subject : Subject) (data : List (String × Option (Json N))) :
    msg.makeEvent call type subject data =
      EventNormalizer.makeEvent msg.ctx call type subject data msg.envelope.messageType := rfl

def streamStatusEvents (ctx : EventContext) (runtimeSessionId : String) (status detail : Option String) :
    List (CanonicalEvent N) :=
  [makeEvent ctx 0 .sessionStreamOpened ⟨.session, runtimeSessionId⟩
    [("status", status.map .str), ("detail", detail.map .str)] "stream-status"]

def snapshotEvents (ctx : EventContext) (snapshot : TimedSessionSnapshot N) : List (CanonicalEvent N) :=
  [makeEvent ctx 0 .sessionStateChanged ⟨.session, snapshot.sessionId⟩
    [("sessionId", some (.str snapshot.sessionId)), ("state", some (.str snapshot.state)),
      ("startedAtUnixMs", snapshot.startedAtUnixMs.map .num), ("expiresAtUnixMs", snapshot.expiresAtUnixMs.map .num),
      ("modeName", some (.str snapshot.mode)), ("modeVersion", snapshot.modeVersion.map .str),
      ("configurationVersion", snapshot.configurationVersion.map .str),
      ("policyVersion", snapshot.policyVersion.map .str), ("contextId", snapshot.contextId.map .str),
      ("extensionKeys", snapshot.extensionKeys.map fun keys => .arr (keys.map .str))] "session-snapshot"]

/-- The reasons of an answer that denies a message: those of the runtime, or else those of its details, which may be
any values, or else the message. -/
def ackReasons (codec : Codec (List UInt8) N) (error : AckError) : List (Json N) :=
  let given := error.reasons.getD []
  let reasons :=
    if given ≠ [] then given.map .str
    else ((error.details.bind fun details => codec.parseJson (codec.toUtf8 details)).bind fun parsed =>
      asArray (parsed.prop "reasons")).getD []
  if reasons.isEmpty then [.str error.message] else reasons

def ackEvents (codec : Codec (List UInt8) N) (ctx : EventContext) (ack : RuntimeAck N) : List (CanonicalEvent N) :=
  makeEvent ctx 0 .messageSent ⟨.message, ack.messageId⟩
    [("messageId", some (.str ack.messageId)), ("sessionId", some (.str ack.sessionId)), ("ok", some (.bool ack.ok)),
      ("duplicate", some (.bool ack.duplicate)), ("sessionState", some (.str ack.sessionState)),
      ("acceptedAtUnixMs", some (.num ack.acceptedAtUnixMs))] "send-ack" ::
  match ack.error with
  | some error =>
    if ¬ ack.ok ∧ error.code = "POLICY_DENIED" then
      [makeEvent ctx 1 .policyDenied ⟨.policy, ack.messageId⟩
        [("messageId", some (.str ack.messageId)), ("sessionId", some (.str ack.sessionId)),
          ("errorCode", some (.str error.code)), ("errorMessage", some (.str error.message)),
          ("decodedPayload", some (.obj [("decision", .str "deny"), ("reasons", .arr (ackReasons codec error))]))]
        "send-ack"]
    else []
  | none => []

def parsePolicyDenyReasons (message code : String) : List String :=
  let source := if message ≠ "" then message else code
  match after [':', ' '] source.toList with
  | none => [source]
  | some text =>
    let reasons := ((split [';', ' '] text).map fun piece => trim (String.ofList piece)).filter (· ≠ "")
    if reasons ≠ [] then reasons else [source]

/-- `/^PolicyDenied(:|$)/` -/
def policyDeniedTest (text : String) : Bool := text = "PolicyDenied" || startsWith text "PolicyDenied:"

def isPolicyDeny (error : InlineError) : Bool :=
  error.code = "POLICY_DENIED" || policyDeniedTest error.code || policyDeniedTest error.message

variable [JsNumber N] (codec : Codec (List UInt8) N)

/-- The structured details of an inline error. -/
def structuredDetails (error : FullInlineError) : Option (PolicyDenyDetails N) :=
  parsePolicyDenyDetails (error.details.map codec.toUtf8)

/-- The reasons of an inline error that denies a message. -/
def inlineReasons (error : FullInlineError) : List String :=
  let given := ((structuredDetails codec error).bind PolicyDenyDetails.reasons).getD []
  if given ≠ [] then given else parsePolicyDenyReasons error.message error.code

/-- The `decodedPayload` of its `policy.denied`. -/
def inlineDenial (error : FullInlineError) : JsonObject N :=
  object
    [("decision", some (.str "deny")), ("reasons", some (.arr ((inlineReasons codec error).map .str))),
      ("denials", ((structuredDetails codec error).bind PolicyDenyDetails.denials).map .arr)]

def inlineErrorEvents (ctx : EventContext) (error : FullInlineError) : List (CanonicalEvent N) :=
  makeEvent ctx 0 .messageSendFailed ⟨.message, error.messageId⟩
    [("errorCode", some (.str error.code)), ("errorMessage", some (.str error.message)),
      ("sessionId", some (.str error.sessionId)), ("messageId", some (.str error.messageId))] "stream-inline-error" ::
  if isPolicyDeny error.toInlineError then
    [makeEvent ctx 1 .policyDenied ⟨.policy, error.messageId⟩
      [("errorCode", some (.str error.code)), ("errorMessage", some (.str error.message)),
        ("decodedPayload", some (.obj (inlineDenial codec error)))] "stream-inline-error"]
  else []

/-- `normalize`: the events of a frame, and `knownParticipants` after it. -/
def normalize (patterns : List (String → String)) (ctx : EventContext) (runtimeSessionId : String)
    (knownParticipants : List String) : RuntimeFrame N → List (CanonicalEvent N) × List String
  | .streamStatus status detail => (streamStatusEvents ctx runtimeSessionId status detail, knownParticipants)
  | .sessionSnapshot (some snapshot) => (snapshotEvents ctx snapshot, knownParticipants)
  | .sendAck (some ack) => (ackEvents codec ctx ack, knownParticipants)
  | .streamInlineError (some error) => (inlineErrorEvents codec ctx error, knownParticipants)
  | .streamEnvelope (some envelope) senderAuthenticated =>
    normalizeEnvelope codec patterns ctx knownParticipants envelope senderAuthenticated
  | .sessionSnapshot none | .sendAck none | .streamInlineError none | .streamEnvelope none _ => ([], knownParticipants)

variable {codec} {patterns : List (String → String)} {ctx : EventContext} {runtimeSessionId : String}
  {known : List String}

omit [JsNumber N] in
/-- The events of an answer. -/
theorem mem_ackEvents {ack : RuntimeAck N} {e : CanonicalEvent N} (h : e ∈ ackEvents codec ctx ack) :
    e.runId = ctx.runId ∧ (e.type = .messageSent ∨ e.type = .policyDenied) := by
  rcases List.mem_cons.1 h with rfl | h
  · exact ⟨rfl, Or.inl rfl⟩
  · split at h
    · split_ifs at h
      · rw [List.mem_singleton.1 h]
        exact ⟨rfl, Or.inr rfl⟩
      · cases h
    · cases h

theorem mem_inlineErrorEvents {error : FullInlineError} {e : CanonicalEvent N}
    (h : e ∈ inlineErrorEvents codec ctx error) :
    e.runId = ctx.runId ∧ (e.type = .messageSendFailed ∨ e.type = .policyDenied) := by
  rcases List.mem_cons.1 h with rfl | h
  · exact ⟨rfl, Or.inl rfl⟩
  · split_ifs at h
    · rw [List.mem_singleton.1 h]
      exact ⟨rfl, Or.inr rfl⟩
    · cases h

/-- The events of a frame are events of the run. -/
theorem run_normalize (frame : RuntimeFrame N) :
    ∀ e ∈ (normalize codec patterns ctx runtimeSessionId known frame).1, e.runId = ctx.runId := by
  cases frame with
  | streamStatus status detail => exact List.forall_mem_singleton.2 rfl
  | sessionSnapshot snapshot =>
    cases snapshot with
    | none => exact List.forall_mem_nil _
    | some snapshot => exact List.forall_mem_singleton.2 rfl
  | sendAck ack =>
    cases ack with
    | none => exact List.forall_mem_nil _
    | some ack => exact fun e he => (mem_ackEvents he).1
  | streamInlineError error =>
    cases error with
    | none => exact List.forall_mem_nil _
    | some error => exact fun e he => (mem_inlineErrorEvents he).1
  | streamEnvelope envelope senderAuthenticated =>
    cases envelope with
    | none => exact List.forall_mem_nil _
    | some envelope => exact CommitmentVerification.run_normalizeEnvelope ctx

/-- The types of the events of an envelope. -/
def envelopeTypes : List CanonicalEventType :=
  [.participantSeen, .messageReceived, .llmCallCompleted] ++ derivedTypes

theorem type_normalizeEnvelope {envelope : RuntimeEnvelope (List UInt8) N} {senderAuthenticated : Option Bool} :
    ∀ e ∈ (normalizeEnvelope codec patterns ctx known envelope senderAuthenticated).1, e.type ∈ envelopeTypes := by
  have hmessage : ∀ msg : Incoming (List UInt8) N, ∀ e ∈ messageEvents msg codec patterns, e.type ∈ envelopeTypes := by
    intro msg e he
    rw [mem_messageEvents_iff, mem_policyEvents_iff, mem_progressEvents_iff] at he
    rcases he with rfl | ⟨llm, -, rfl⟩ | ⟨type, htype, rfl⟩ | htask |
      (⟨decoded, -, -, rfl⟩ | ⟨decoded, -, -, rfl⟩ | ⟨-, rfl⟩) | ⟨-, rfl⟩
    case inr.inr.inl => exact List.mem_append_right _ (mem_derivedTypes htype)
    case inr.inr.inr.inl =>
      rcases mem_taskEvents htask with ⟨progress, -, rfl⟩ | rfl | rfl <;>
        exact (by decide : CanonicalEventType.progressReported ∈ envelopeTypes)
    · exact (by decide : CanonicalEventType.messageReceived ∈ envelopeTypes)
    · exact (by decide : CanonicalEventType.llmCallCompleted ∈ envelopeTypes)
    · exact (by decide : CanonicalEventType.policyResolved ∈ envelopeTypes)
    · exact (by decide : CanonicalEventType.policyCommitmentEvaluated ∈ envelopeTypes)
    · exact (by decide : CanonicalEventType.policyDenied ∈ envelopeTypes)
    · exact (by decide : CanonicalEventType.progressReported ∈ envelopeTypes)
  unfold normalizeEnvelope
  dsimp only
  split
  · exact hmessage _
  · exact List.forall_mem_cons.2
      ⟨(by decide : CanonicalEventType.participantSeen ∈ envelopeTypes), hmessage _⟩

omit [JsNumber N] in
private theorem sessionStateChange_eq_none {es : List (CanonicalEvent N)}
    (h : ∀ e ∈ es, e.type ≠ .sessionStateChanged) : StreamConsumer.sessionStateChange es = none := by
  have hnone : es.find? (fun event => event.type = .sessionStateChanged) = none := by
    rw [List.find?_eq_none]
    exact fun e he => by simpa using h e he
  unfold StreamConsumer.sessionStateChange
  rw [hnone]
  rfl

/-- A snapshot reports its state, and no other frame reports any: what the consumer of a session relies on. -/
theorem normalized_normalize (frame : RuntimeFrame N) :
    RunRecovery.Normalized (frame.raw ctx.ts) (normalize codec patterns ctx runtimeSessionId known frame).1 := by
  unfold RunRecovery.Normalized
  cases frame with
  | streamStatus status detail => rfl
  | sessionSnapshot snapshot => cases snapshot <;> rfl
  | sendAck ack =>
    cases ack with
    | none => rfl
    | some ack =>
      refine sessionStateChange_eq_none fun e he => ?_
      rcases (mem_ackEvents he).2 with htype | htype <;> rw [htype] <;> exact nofun
  | streamInlineError error =>
    cases error with
    | none => rfl
    | some error =>
      refine sessionStateChange_eq_none fun e he => ?_
      rcases (mem_inlineErrorEvents he).2 with htype | htype <;> rw [htype] <;> exact nofun
  | streamEnvelope envelope senderAuthenticated =>
    cases envelope with
    | none => rfl
    | some envelope =>
      refine sessionStateChange_eq_none fun e he htype => ?_
      have hmem := type_normalizeEnvelope e he
      rw [htype] at hmem
      exact absurd hmem (by decide)

end EventNormalizer

/-! ### The reasons of a denial -/

/-- A reason that `parsePolicyDenyReasons` can tell from its neighbours. -/
structure PlainReason (reason : String) : Prop where
  trimmed : trim reason = reason
  nonempty : reason ≠ ""
  single : ¬ [';', ' '] <:+: reason.toList

/-- The text in which an older runtime sends the reasons. -/
def deniedText (reasons : List String) : String := "PolicyDenied: " ++ "; ".intercalate reasons

private theorem toList_deniedText (reasons : List String) :
    (deniedText reasons).toList =
      "PolicyDenied".toList ++ [':', ' '] ++ [';', ' '].intercalate (reasons.map String.toList) := by
  rw [deniedText, String.toList_append, String.toList_intercalate]
  rfl

private theorem startsWith_deniedText (reasons : List String) :
    startsWith (deniedText reasons) "PolicyDenied:" = true := by
  rw [startsWith, List.isPrefixOf_iff_prefix, toList_deniedText]
  exact ⟨' ' :: [';', ' '].intercalate (reasons.map String.toList), rfl⟩

/-- The inline error of a denial, from a runtime from v0.9.0 on. -/
def structuredDenial [JsNumber N] (sessionId messageId : String) (reasons : List String)
    (denials : List (JsonObject N)) : FullInlineError where
  code := "POLICY_DENIED"
  message := "PolicyDenied"
  sessionId
  messageId
  details := some (utf8 (denyDetailsText reasons denials))

/-- The inline error of a denial, from an older runtime; the message may be missing on the wire. -/
def textDenial (sessionId messageId : String) (reasons : List String) (withMessage : Bool) : FullInlineError where
  code := deniedText reasons
  message := if withMessage then deniedText reasons else ""
  sessionId
  messageId
  details := none

namespace EventNormalizer

private theorem parsePolicyDenyReasons_ne_nil (message code : String) : parsePolicyDenyReasons message code ≠ [] := by
  unfold parsePolicyDenyReasons
  dsimp only
  split
  · exact List.cons_ne_nil _ _
  · split
    · assumption
    · exact List.cons_ne_nil _ _

/-- The reasons are read back from the text if and only if all of them are plain.  Where a reason has `": "` in it does
not matter, as the text has it before all reasons. -/
theorem parsePolicyDenyReasons_deniedText {reasons : List String} (hne : reasons ≠ []) {message code : String}
    (hsource : (if message ≠ "" then message else code) = deniedText reasons) :
    parsePolicyDenyReasons message code = reasons ↔ ∀ reason ∈ reasons, PlainReason reason := by
  have hafter : after [':', ' '] (deniedText reasons).toList =
      some ([';', ' '].intercalate (reasons.map String.toList)) := by
    rw [toList_deniedText]
    exact after_append (List.cons_ne_nil _ _) (by unfold Free; decide) _
  unfold parsePolicyDenyReasons
  dsimp only
  rw [hsource, hafter]
  dsimp only
  constructor
  · intro hread reason hreason
    split at hread
    · rw [← hread, List.mem_filter, List.mem_map] at hreason
      obtain ⟨⟨piece, hpiece, rfl⟩, hempty⟩ := hreason
      refine ⟨trim_trim _, by simpa using hempty, fun hoccurs => ?_⟩
      have hpieceInfix := hoccurs.trans (isInfix_trim _)
      rw [String.toList_ofList] at hpieceInfix
      exact not_infix_of_mem_split (List.cons_ne_nil _ _) hpiece hpieceInfix
    · -- A reason would be the text that it stands in.
      rw [← hread, List.mem_singleton] at hreason
      have htext : (deniedText reasons).toList = (deniedText [deniedText reasons]).toList := by rw [hread]
      have hlength := congrArg List.length htext
      rw [toList_deniedText [deniedText reasons], List.map_singleton, List.intercalate_singleton, List.length_append,
        show ("PolicyDenied".toList ++ [':', ' ']).length = 14 by decide] at hlength
      omega
  · intro hplain
    have hfree : ∀ l ∈ reasons.map String.toList, Free [';', ' '] l := by
      rw [List.forall_mem_map]
      exact fun reason hreason => (free_pair_iff (by decide)).2 (hplain reason hreason).single
    have hpieces : split [';', ' '] ([';', ' '].intercalate (reasons.map String.toList)) = reasons.map String.toList :=
      split_intercalate (List.cons_ne_nil _ _) (by simpa using hne) hfree
    have htrimmed : (reasons.map String.toList).map (fun piece => trim (String.ofList piece)) = reasons := by
      rw [List.map_map]
      conv_rhs => rw [← List.map_id reasons]
      refine List.map_congr_left fun reason hreason => ?_
      rw [Function.comp_apply, String.ofList_toList, (hplain reason hreason).trimmed, id]
    have hkept : reasons.filter (fun reason => reason ≠ "") = reasons := by
      rw [List.filter_eq_self]
      exact fun reason hreason => by simpa using (hplain reason hreason).nonempty
    rw [hpieces, htrimmed, hkept, if_pos hne]

/-- The reasons that the `policy.denied` among these events show. -/
def shownReasons (events : List (CanonicalEvent N)) : List (Option (List (Json N))) :=
  (events.filter (·.type = .policyDenied)).map fun e => asArray (field (e.datum "decodedPayload") "reasons")

/-- The structured denials that they show. -/
def shownDenials (events : List (CanonicalEvent N)) : List (Option (List (Json N))) :=
  (events.filter (·.type = .policyDenied)).map fun e => asArray (field (e.datum "decodedPayload") "denials")

variable [JsNumber N] {codec : Codec (List UInt8) N} {ctx : EventContext}

private theorem shown_inlineErrorEvents (error : FullInlineError) :
    shownReasons (inlineErrorEvents codec ctx error) =
        (if isPolicyDeny error.toInlineError then [some ((inlineReasons codec error).map .str)] else []) ∧
      shownDenials (inlineErrorEvents codec ctx error) =
        if isPolicyDeny error.toInlineError then
          [(structuredDetails codec error).bind PolicyDenyDetails.denials]
        else [] := by
  unfold inlineErrorEvents
  split
  · refine ⟨?_, ?_⟩
    · simp [shownReasons, makeEvent, CanonicalEvent.datum, inlineDenial, field, Json.prop, asArray]
    · unfold inlineDenial
      generalize (structuredDetails codec error).bind PolicyDenyDetails.denials = denials
      cases denials <;> simp [shownDenials, makeEvent, CanonicalEvent.datum, field, Json.prop, asArray]
  · exact ⟨rfl, rfl⟩

omit [JsNumber N] in
private theorem shown_ackEvents (ack : RuntimeAck N) :
    ∀ shown ∈ shownReasons (ackEvents codec ctx ack), ∃ error, shown = some (ackReasons codec error) := by
  unfold ackEvents
  split
  · rename_i error herror
    split
    · exact List.forall_mem_singleton.2 ⟨error, rfl⟩
    · exact List.forall_mem_nil _
  · exact List.forall_mem_nil _

private theorem inlineReasons_ne_nil (error : FullInlineError) : inlineReasons codec error ≠ [] := by
  unfold inlineReasons
  dsimp only
  split
  · assumption
  · exact parsePolicyDenyReasons_ne_nil _ _

omit [JsNumber N] in
private theorem ackReasons_ne_nil (error : AckError) : ackReasons codec error ≠ [] := by
  have hfallback : ∀ reasons : List (Json N), (if reasons.isEmpty then [.str error.message] else reasons) ≠ [] := by
    rintro (_ | ⟨reason, reasons⟩) <;> exact List.cons_ne_nil _ _
  exact hfallback _

variable {patterns : List (String → String)} {runtimeSessionId : String} {known : List String}

/-- Outside of envelopes no denial is shown without a reason. -/
theorem shownReasons_ne_nil {frame : RuntimeFrame N}
    (hframe : ∀ envelope senderAuthenticated, frame ≠ .streamEnvelope envelope senderAuthenticated) :
    ∀ shown ∈ shownReasons (normalize codec patterns ctx runtimeSessionId known frame).1,
      ∃ reasons ≠ [], shown = some reasons := by
  cases frame with
  | streamStatus status detail => exact List.forall_mem_nil _
  | sessionSnapshot snapshot => cases snapshot <;> exact List.forall_mem_nil _
  | sendAck ack =>
    cases ack with
    | none => exact List.forall_mem_nil _
    | some ack =>
      intro shown hshown
      obtain ⟨error, rfl⟩ := shown_ackEvents ack shown hshown
      exact ⟨_, ackReasons_ne_nil error, rfl⟩
  | streamInlineError error =>
    cases error with
    | none => exact List.forall_mem_nil _
    | some error =>
      intro shown hshown
      rw [normalize, (shown_inlineErrorEvents error).1] at hshown
      split at hshown
      · rw [List.mem_singleton.1 hshown]
        exact ⟨_, List.map_eq_nil_iff.not.2 (inlineReasons_ne_nil error), rfl⟩
      · cases hshown
  | streamEnvelope envelope senderAuthenticated => exact absurd rfl (hframe envelope senderAuthenticated)

section Denials

variable {reasons : List String} {sessionId messageId : String}

/-- The details of a denial are shown. -/
theorem shown_structuredDenial (hutf8 : ∀ text, codec.toUtf8 (utf8 text) = text) (hne : reasons ≠ [])
    {denials : List (JsonObject N)} (hread : ∀ denial ∈ denials, JsonText.WellFormed (.obj denial)) :
    let events := inlineErrorEvents codec ctx (structuredDenial sessionId messageId reasons denials)
    shownReasons events = [some (reasons.map .str)] ∧ shownDenials events = [some (denials.map .obj)] := by
  intro events
  have hshown := @shown_inlineErrorEvents N _ codec ctx (structuredDenial sessionId messageId reasons denials)
  have hdetails : structuredDetails codec (structuredDenial sessionId messageId reasons denials) =
      some { reasons := some reasons, denials := some (denials.map .obj) } := by
    rw [structuredDetails, structuredDenial, Option.map_some, hutf8, parsePolicyDenyDetails_denyDetailsText hread]
  have hreasons : inlineReasons codec (structuredDenial sessionId messageId reasons denials) = reasons := by
    rw [inlineReasons, hdetails]
    exact if_pos hne
  rw [if_pos (show isPolicyDeny (structuredDenial sessionId messageId reasons denials).toInlineError = true from rfl),
    if_pos (show isPolicyDeny (structuredDenial sessionId messageId reasons denials).toInlineError = true from rfl),
    hreasons, hdetails] at hshown
  exact hshown

/-- The text of a denial is shown reason by reason if and only if all of them are plain. -/
theorem shown_textDenial (hne : reasons ≠ []) (withMessage : Bool) :
    shownReasons (inlineErrorEvents codec ctx (textDenial sessionId messageId reasons withMessage)) =
      [some (reasons.map .str)] ↔ ∀ reason ∈ reasons, PlainReason reason := by
  have hdeny : isPolicyDeny (textDenial sessionId messageId reasons withMessage).toInlineError = true := by
    simp [isPolicyDeny, policyDeniedTest, textDenial, startsWith_deniedText]
  have hsource : (if (textDenial sessionId messageId reasons withMessage).message ≠ "" then
      (textDenial sessionId messageId reasons withMessage).message
      else (textDenial sessionId messageId reasons withMessage).code) = deniedText reasons := by
    cases withMessage with
    | true => exact ite_self _
    | false => rfl
  rw [(shown_inlineErrorEvents _).1, if_pos hdeny, ← parsePolicyDenyReasons_deniedText hne hsource]
  constructor
  · intro hshown
    exact List.map_injective_iff.2 (fun _ _ => Json.str.inj) (Option.some.inj (List.singleton_inj.1 hshown))
  · intro hparsed
    rw [show inlineReasons codec (textDenial sessionId messageId reasons withMessage) = reasons from hparsed]

end Denials

/-- The reasons of a denial reach the log.  Those that come in the details are shown as they are, with the structured
denials; those that an older runtime writes into a text are shown as they are if and only if none of them is empty, has
space around it or contains `"; "`.  Outside of envelopes no denial is shown without a reason. -/
theorem denial_reasons_shown (hutf8 : ∀ text, codec.toUtf8 (utf8 text) = text) {reasons : List String}
    (hne : reasons ≠ []) {denials : List (JsonObject N)} (hread : ∀ denial ∈ denials, JsonText.WellFormed (.obj denial))
    (sessionId messageId : String) :
    let events := fun frame => (normalize codec patterns ctx runtimeSessionId known frame).1
    let denied := events (.streamInlineError (some (structuredDenial sessionId messageId reasons denials)))
    shownReasons denied = [some (reasons.map .str)] ∧ shownDenials denied = [some (denials.map .obj)] ∧
    (∀ withMessage,
      shownReasons (events (.streamInlineError (some (textDenial sessionId messageId reasons withMessage)))) =
        [some (reasons.map .str)] ↔ ∀ reason ∈ reasons, PlainReason reason) ∧
    ∀ frame, (∀ envelope senderAuthenticated, frame ≠ .streamEnvelope envelope senderAuthenticated) →
      ∀ shown ∈ shownReasons (events frame), ∃ reasons ≠ [], shown = some reasons := by
  intro events denied
  obtain ⟨hreasons, hdenials⟩ : shownReasons denied = _ ∧ shownDenials denied = _ :=
    shown_structuredDenial hutf8 hne hread
  exact ⟨hreasons, hdenials, shown_textDenial hne, fun frame hframe => shownReasons_ne_nil hframe⟩

/-- A codec that knows no type of messages. -/
def textCodec : Codec (List UInt8) (Option Rat) where
  decodeMessage := fun _ _ => none
  isCanonicalProto := fun _ _ => false
  isEmpty := List.isEmpty
  toUtf8 := utf8Text fun _ => ""
  toBase64 := fun _ => ""
  ofBase64 := fun _ => []
  parseJson := JsonText.parse

/-- Two reasons, the first one with a colon, in either form. -/
theorem denial_reasons_shown_quorum :
    let ctx : EventContext := ⟨"r1", "2026-10-24T00:00:00.000Z", fun _ => "e1"⟩
    let events := fun error => (normalize textCodec [] ctx "s1" [] (.streamInlineError (some error))).1
    let reasons := ["quorum: 2 of 3 votes", "veto"]
    let denials : List (JsonObject (Option Rat)) := [[("code", .str "QUORUM")]]
    shownReasons (events (structuredDenial "s1" "m1" reasons denials)) = [some (reasons.map .str)] ∧
      shownReasons (events (textDenial "s1" "m1" reasons false)) = [some (reasons.map .str)] := by
  intro ctx events reasons denials
  have hread : ∀ denial ∈ denials, JsonText.WellFormed (.obj denial) := by
    simp [denials, JsonText.WellFormed, JsonText.WellFormedFields]
  have hplain : ∀ reason ∈ reasons, PlainReason reason := by
    refine List.forall_mem_cons.2 ⟨⟨?_, ?_, ?_⟩, List.forall_mem_singleton.2 ⟨?_, ?_, ?_⟩⟩ <;> decide
  have hshown := @denial_reasons_shown (Option Rat) _ textCodec ctx [] "s1" [] (utf8Text_utf8 fun _ => "") reasons
    (List.cons_ne_nil _ _) _ hread "s1" "m1"
  exact ⟨hshown.1, (hshown.2.2.1 false).2 hplain⟩

end EventNormalizer

end MacpControlPlane

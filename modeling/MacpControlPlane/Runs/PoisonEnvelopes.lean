import MacpControlPlane.Runs.StreamConsumer
import MacpControlPlane.Storage.ConvertedFields

/-!
# Envelopes that cannot be stored

`normalize` throws when a value of the payload does not convert, and the transaction of `persistRawAndCanonical` when
the reducer comes to one, or when a column does not take a value.  The consumer takes this for a failure of the moment:
it resubscribes at the ordinal that it has, and reads the same envelope again.
-/

namespace MacpControlPlane

open Js Columns EventNormalizer StreamConsumer

variable {B N : Type} [JsNumber N]

def TraceRef.fits (trace : TraceRef) : Bool :=
  trace.traceId.all (varchar 255) && trace.spanId.all (varchar 255) && trace.parentSpanId.all (varchar 255)

namespace Delivery

/-- `persistRawAndCanonical` on a run with a stored projection, as far as it depends on the values that it writes: the
events that it returns, or `none` when an insert or the reducer throws and the transaction is rolled back. -/
def persistRawAndCanonical (d : Delivery B N) (current : RunStateProjection N) (runCtx : Option TraceRef)
    (rawId : String) (uuid : Nat → String) (startSeq : Nat) (canonical : List (CanonicalEvent N)) :
    Option (List (CanonicalEvent N)) :=
  let prepared := RunEventService.preparePersisted runCtx uuid startSeq canonical
  if (RawRow.ofEvent rawId startSeq d.raw).fits d.codec d.bytes &&
      (prepared.all fun e => (CanonicalRow.ofEvent e).fits d.codec.unpaired) &&
      Reducer.applies current.run.runId current prepared
  then some prepared else none

/-- `handleRawEventInner` up to the commit. -/
def handleRawEventInner (d : Delivery B N) (current : RunStateProjection N) (runCtx : Option TraceRef) (rawId : String)
    (uuid : Nat → String) (startSeq : Nat) : Option (List (CanonicalEvent N)) :=
  d.normalize.bind (d.persistRawAndCanonical current runCtx rawId uuid startSeq)

/-- The envelope when it comes again: `normalize` has noted the sender. -/
def again (d : Delivery B N) : Delivery B N :=
  { d with
    knownParticipants :=
      (normalizeEnvelope d.codec d.patterns d.ctx d.knownParticipants d.envelope d.senderAuthenticated).2 }

/-- The consumer takes a frame, and its events are stored or something throws before they are. -/
def read (config : StreamConfig) (error : Caught) (stored : Option (List (CanonicalEvent N)))
    (raw : RawRuntimeEvent (RuntimeEnvelope B N)) (marker : ActiveStream) (handle : RuntimeSessionHandle)
    (streamRetries : Nat) : Option (ActiveStream × LoopAt N (RuntimeEnvelope B N)) :=
  (consumeLoop config marker (.next handle streamRetries) (.frame raw)).bind fun loop =>
    match loop.2, stored with
    | .persist origin raw, some emitted => consumeLoop config loop.1 (.committed origin raw emitted) .returned
    | .persist origin raw, none => consumeLoop config loop.1 (.persist origin raw) (.threw error)
    | _, _ => some loop

/-- The subscription that a loop opens which has slept. -/
def resubscribe (config : StreamConfig) (loop : ActiveStream × LoopAt N (RuntimeEnvelope B N)) :
    Option (ActiveStream × RuntimeSessionHandle × Nat) :=
  match loop.2 with
  | .sleep streamRetries =>
    match consumeLoop (N := N) (E := RuntimeEnvelope B N) config loop.1 (.sleep streamRetries) .returned with
    | some (marker, .next handle streamRetries) => some (marker, handle, streamRetries)
    | _ => none
  | _ => none

/-- The consumer with an envelope that comes up to `n` times, each time that it resubscribes before it. -/
def rereads (config : StreamConfig) (error : Caught) (current : RunStateProjection N) (runCtx : Option TraceRef)
    (rawId : String) (uuid : Nat → String) (startSeq : Nat) :
    Nat → Delivery B N → ActiveStream → RuntimeSessionHandle → Nat →
      ActiveStream × LoopAt N (RuntimeEnvelope B N)
  | 0, _, marker, handle, streamRetries => (marker, .next handle streamRetries)
  | n + 1, d, marker, handle, streamRetries =>
    let stored := d.handleRawEventInner current runCtx rawId uuid startSeq
    match read config error stored d.raw marker handle streamRetries with
    | none => (marker, .next handle streamRetries)
    | some loop =>
      match resubscribe config loop with
      | some (marker, handle, streamRetries) =>
        rereads config error current runCtx rawId uuid startSeq n d.again marker handle streamRetries
      | none => loop

/-- The envelope does no harm to a run with a projection: its rows are made and fit, they are stored, and a consumer
that comes to the envelope gets past it. -/
structure Harmless (d : Delivery B N) (current : RunStateProjection N) (runCtx : Option TraceRef) : Prop where
  raw : ∀ rawId seq, (RawRow.ofEvent rawId seq d.raw).fits d.codec d.bytes = true
  canonical : ∃ events, d.normalize = some events ∧
    ∀ e ∈ events, (CanonicalRow.ofEvent e).fits d.codec.unpaired = true
  persists : ∀ rawId uuid startSeq, (d.handleRawEventInner current runCtx rawId uuid startSeq).isSome = true
  passes : ∀ config error rawId uuid startSeq marker handle streamRetries, marker.aborted = false →
    ∃ n, (rereads config error current runCtx rawId uuid startSeq n d marker handle streamRetries).1.envelopeOrdinal =
      marker.envelopeOrdinal + 1

/-! ### The transaction -/

variable {d : Delivery B N} {current : RunStateProjection N} {runCtx : Option TraceRef} {rawId : String}
  {uuid : Nat → String} {startSeq : Nat}

/-- `normalize` leaves the trace to `persistRawAndCanonical`. -/
theorem trace_eq_none {e : CanonicalEvent N} (he : e ∈ d.events) : e.trace = none := by
  rw [mem_events_iff, mem_policyEvents_iff, mem_progressEvents_iff] at he
  rcases he with ⟨-, rfl⟩ | rfl | ⟨llm, -, rfl⟩ | ⟨type, -, rfl⟩ | htask |
    (⟨decoded, -, -, rfl⟩ | ⟨decoded, -, -, rfl⟩ | ⟨-, rfl⟩) | ⟨-, rfl⟩
  case inr.inr.inr.inr.inl => rcases mem_taskEvents htask with ⟨progress, -, rfl⟩ | rfl | rfl <;> rfl
  all_goals rfl

/-- The stamp and the sequence number leave open whether a row fits. -/
theorem fits_prepared (hctx : ∀ trace ∈ runCtx, trace.fits = true) {e : CanonicalEvent N} (he : e ∈ d.events)
    (id : String) (seq : Nat) :
    (CanonicalRow.ofEvent { RunEventService.stampPersisted runCtx e with seq, id }).fits d.codec.unpaired =
      (CanonicalRow.ofEvent e).fits d.codec.unpaired := by
  have htrace := trace_eq_none he
  cases runCtx with
  | none => simp [RunEventService.stampPersisted, CanonicalRow.fits, CanonicalRow.ofEvent, htrace]
  | some trace =>
    have hfits := hctx trace rfl
    unfold TraceRef.fits at hfits
    rw [Bool.and_eq_true, Bool.and_eq_true] at hfits
    simp [RunEventService.stampPersisted, CanonicalRow.fits, CanonicalRow.ofEvent, htrace, hfits.1.1, hfits.1.2,
      hfits.2]

private theorem conversions_prepared (finalized : Bool) (e : CanonicalEvent N) (id : String) (seq : Nat) :
    Reducer.conversions finalized { RunEventService.stampPersisted runCtx e with seq, id } =
      Reducer.conversions finalized e := rfl

omit [JsNumber N] in
/-- What does not depend on the stamp is said of the events that are written or of those of `normalize`. -/
theorem forall_prepared {P Q : CanonicalEvent N → Prop} {events : List (CanonicalEvent N)}
    (h : ∀ e ∈ events, ∀ id seq, P { RunEventService.stampPersisted runCtx e with seq, id } ↔ Q e) :
    (∀ e ∈ RunEventService.preparePersisted runCtx uuid startSeq events, P e) ↔ ∀ e ∈ events, Q e := by
  unfold RunEventService.preparePersisted
  constructor
  · intro hprepared e he
    obtain ⟨i, hi, rfl⟩ := List.mem_iff_getElem.1 he
    exact (h _ he _ _).1 (hprepared _ (List.mem_mapIdx.2 ⟨i, hi, rfl⟩))
  · intro hevents e he
    obtain ⟨i, hi, rfl⟩ := List.mem_mapIdx.1 he
    exact (h _ (List.getElem_mem hi) _ _).2 (hevents _ (List.getElem_mem hi))

omit [JsNumber N] in
private theorem forall_type_prepared {p : CanonicalEventType → Prop} {events : List (CanonicalEvent N)} :
    (∀ e ∈ RunEventService.preparePersisted runCtx uuid startSeq events, p e.type) ↔ ∀ e ∈ events, p e.type :=
  forall_prepared fun _ _ _ _ => Iff.rfl

/-- A commitment and a proposal do not come from one envelope. -/
theorem type_mem_events {e : CanonicalEvent N} (he : e ∈ d.events)
    (htype : e.type ∈ [CanonicalEventType.decisionFinalized, .proposalCreated, .proposalUpdated]) :
    deriveEventType d.envelope.messageType = some e.type := by
  rw [mem_events_iff, mem_policyEvents_iff, mem_progressEvents_iff] at he
  rcases he with ⟨-, rfl⟩ | rfl | ⟨llm, -, rfl⟩ | ⟨type, hderived, rfl⟩ | htask |
    (⟨decoded, -, -, rfl⟩ | ⟨decoded, -, -, rfl⟩ | ⟨-, rfl⟩) | ⟨-, rfl⟩
  case inr.inr.inr.inl => exact hderived
  case inr.inr.inr.inr.inl =>
    rcases mem_taskEvents htask with ⟨progress, -, rfl⟩ | rfl | rfl <;>
    simp [taskProgress, Incoming.makeEvent] at htype
  all_goals simp [participantSeen, messageReceived, llmCallCompleted, policyResolved, policyCommitmentEvaluated,
    policyDenied, ambientProgress, Incoming.makeEvent] at htype

private theorem applies_prepared :
    Reducer.applies current.run.runId current (RunEventService.preparePersisted runCtx uuid startSeq d.events) = true ↔
      ∀ e ∈ d.events, (Reducer.conversions (Reducer.isFinalized current) e).all converts = true := by
  have hkinds : (∀ e ∈ RunEventService.preparePersisted runCtx uuid startSeq d.events, e.type ≠ .decisionFinalized) ∨
      ∀ e ∈ RunEventService.preparePersisted runCtx uuid startSeq d.events,
        e.type ≠ .proposalCreated ∧ e.type ≠ .proposalUpdated := by
    by_cases hderived : deriveEventType d.envelope.messageType = some .decisionFinalized
    · refine .inr ((forall_type_prepared (p := fun type => type ≠ .proposalCreated ∧ type ≠ .proposalUpdated)).2 ?_)
      intro e he
      constructor
      all_goals
        intro htype
        have hnot := type_mem_events he (by simp [htype])
        rw [hderived, htype] at hnot
        cases hnot
    · refine .inl ((forall_type_prepared (p := (· ≠ .decisionFinalized))).2 fun e he htype => ?_)
      exact hderived (htype ▸ type_mem_events he (by simp [htype]))
  rw [Reducer.applies_iff hkinds]
  exact forall_prepared fun e _ id seq => by rw [conversions_prepared]

/-- The transaction goes through if and only if all rows fit and the reducer does not throw. -/
theorem isSome_persist_iff (hctx : ∀ trace ∈ runCtx, trace.fits = true) :
    (d.persistRawAndCanonical current runCtx rawId uuid startSeq d.events).isSome = true ↔
      ((RawRow.ofEvent rawId startSeq d.raw).fits d.codec d.bytes = true ∧
        ∀ e ∈ d.events, (CanonicalRow.ofEvent e).fits d.codec.unpaired = true) ∧
      ∀ e ∈ d.events, (Reducer.conversions (Reducer.isFinalized current) e).all converts = true := by
  unfold persistRawAndCanonical
  dsimp only
  rw [Option.isSome_ite, Bool.and_eq_true, Bool.and_eq_true, applies_prepared, List.all_eq_true]
  have hfits : (∀ e ∈ RunEventService.preparePersisted runCtx uuid startSeq d.events,
      (CanonicalRow.ofEvent e).fits d.codec.unpaired = true) ↔
      ∀ e ∈ d.events, (CanonicalRow.ofEvent e).fits d.codec.unpaired = true :=
    forall_prepared fun e he id seq => by rw [fits_prepared hctx he]
  rw [hfits]

/-- The events are stored if and only if the payload converts and the tables can take them. -/
theorem isSome_handle_iff (hctx : ∀ trace ∈ runCtx, trace.fits = true)
    (hbase64 : ∀ payload, ascii (d.codec.toBase64 payload) = true)
    (hformat : ∀ n : N, ascii (JsNumber.format n) = true) :
    (d.handleRawEventInner current runCtx rawId uuid startSeq).isSome = true ↔
      d.Convertible (Reducer.isFinalized current) ∧ d.Storable := by
  rw [convertible_iff, ← fits_iff hbase64 hformat rawId startSeq]
  unfold handleRawEventInner normalize
  cases d.normalizes with
  | false => simp
  | true =>
    rw [if_pos rfl, Option.bind_some, isSome_persist_iff hctx]
    exact ⟨fun h => ⟨⟨rfl, h.2⟩, h.1⟩, fun h => ⟨h.2, h.1.2⟩⟩

/-! ### The consumer -/

section Consumer

variable {config : StreamConfig} {error : Caught} {marker : ActiveStream} {handle : RuntimeSessionHandle}
  {streamRetries : Nat}

omit [JsNumber N] in
private theorem consumeLoop_raw (h : marker.aborted = false) :
    consumeLoop (N := N) config marker (.next handle streamRetries) (.frame d.raw) =
      some (marker, .persist (.stream (handle.yield d.raw) streamRetries) d.raw) := by
  have hmarker : (handleRawEvent (N := N) marker (.stream (handle.yield d.raw) streamRetries) d.raw).1 = marker := rfl
  rw [consumeLoop, if_neg (by simp [h]), if_neg (by simp [raw])]
  exact congrArg some (Prod.ext hmarker rfl)

omit [JsNumber N] in
private theorem read_some (h : marker.aborted = false) (emitted : List (CanonicalEvent N)) :
    read config error (some emitted) d.raw marker handle streamRetries =
      consumeLoop config marker (.committed (.stream (handle.yield d.raw) streamRetries) d.raw emitted)
        .returned := by
  rw [read, consumeLoop_raw h]
  rfl

omit [JsNumber N] in
private theorem read_none (h : marker.aborted = false) :
    read config error (none : Option (List (CanonicalEvent N))) d.raw marker handle streamRetries =
      some (afterStream config { marker with connected := false } streamRetries
        (isCompactedHistoryTerminalError error)) := by
  rw [read, consumeLoop_raw h]
  rfl

omit [JsNumber N] in
/-- A new subscription starts after the ordinal of the marker. -/
theorem resubscribe_eq_some {loop : ActiveStream × LoopAt N (RuntimeEnvelope B N)}
    (h : resubscribe config loop = some (marker, handle, streamRetries)) : marker = loop.1 := by
  obtain ⟨loopMarker, here⟩ := loop
  unfold resubscribe at h
  cases here with
  | sleep retries =>
    dsimp only at h
    rw [consumeLoop] at h
    split_ifs at h
    cases h
    rfl
  | _ => cases h

/-- Where one more reading leads. -/
theorem envelopeOrdinal_rereads_succ {n k : Nat} {loop : ActiveStream × LoopAt N (RuntimeEnvelope B N)}
    (hread : read config error (d.handleRawEventInner current runCtx rawId uuid startSeq) d.raw marker handle
      streamRetries = some loop) (hloop : loop.1.envelopeOrdinal = k)
    (hagain : ∀ marker handle streamRetries, marker.envelopeOrdinal = k →
      (rereads config error current runCtx rawId uuid startSeq n d.again marker handle
        streamRetries).1.envelopeOrdinal = k) :
    (rereads config error current runCtx rawId uuid startSeq (n + 1) d marker handle
      streamRetries).1.envelopeOrdinal = k := by
  unfold rereads
  dsimp only
  rw [hread]
  dsimp only
  cases hnext : resubscribe config loop with
  | none => exact hloop
  | some next =>
    obtain ⟨marker, handle, streamRetries⟩ := next
    refine hagain marker handle streamRetries ?_
    rw [resubscribe_eq_some hnext]
    exact hloop

/-- Events that are stored take the consumer past the envelope. -/
theorem rereads_of_isSome (h : marker.aborted = false)
    (hstored : (d.handleRawEventInner current runCtx rawId uuid startSeq).isSome = true) :
    (rereads config error current runCtx rawId uuid startSeq 1 d marker handle streamRetries).1.envelopeOrdinal =
      marker.envelopeOrdinal + 1 := by
  obtain ⟨emitted, hemitted⟩ := Option.isSome_iff_exists.1 hstored
  have hread : read config error (some emitted) d.raw marker handle streamRetries = _ := read_some h emitted
  rw [consumeLoop] at hread
  cases hstate : sessionStateChange emitted with
  | some state =>
    rw [hstate] at hread
    exact envelopeOrdinal_rereads_succ (hemitted ▸ hread) rfl fun _ _ _ hmarker => hmarker
  | none =>
    rw [hstate] at hread
    exact envelopeOrdinal_rereads_succ (hemitted ▸ hread) rfl fun _ _ _ hmarker => hmarker

/-! ### An envelope that comes again -/

private theorem knownParticipants_again :
    d.again.knownParticipants =
      if d.envelope.sender ∈ d.knownParticipants then d.knownParticipants
      else d.envelope.sender :: d.knownParticipants := by
  unfold again normalizeEnvelope
  dsimp only
  split <;> rfl

private theorem sender_mem_again : d.again.envelope.sender ∈ d.again.knownParticipants := by
  rw [knownParticipants_again]
  split
  · assumption
  · exact List.mem_cons_self

private theorem again_of_mem (h : d.envelope.sender ∈ d.knownParticipants) : d.again = d := by
  have hknown := knownParticipants_again (d := d)
  rw [if_pos h] at hknown
  calc
    d.again = { d with knownParticipants := d.again.knownParticipants } := rfl
    _ = d := by rw [hknown]

/-- The second time there is no event of a new participant. -/
theorem Storable.again (h : d.Storable) : d.again.Storable := by
  refine ⟨h.texts, h.messageType, h.messageId, ?_, h.payload, h.ids, h.llm⟩
  intro hsubject
  refine h.senderId ?_
  unfold isSubject at hsubject ⊢
  rw [Bool.or_eq_true, decide_eq_true_eq] at hsubject
  rw [Bool.or_eq_true]
  exact Or.inr (hsubject.resolve_left fun hnew => hnew sender_mem_again)

private theorem handle_eq_none (hctx : ∀ trace ∈ runCtx, trace.fits = true)
    (hbase64 : ∀ payload, ascii (d.codec.toBase64 payload) = true)
    (hformat : ∀ n : N, ascii (JsNumber.format n) = true) (h : ¬ d.again.Storable) :
    d.handleRawEventInner current runCtx rawId uuid startSeq = none := by
  rw [← Option.not_isSome_iff_eq_none, isSome_handle_iff hctx hbase64 hformat]
  exact fun hs => h hs.2.again

/-- It gives the stream up when its retries are exhausted. -/
theorem rereads_exhausted (hctx : ∀ trace ∈ runCtx, trace.fits = true)
    (hbase64 : ∀ payload, ascii (d.codec.toBase64 payload) = true)
    (hformat : ∀ n : N, ascii (JsNumber.format n) = true) (h : ¬ d.again.Storable)
    (hresume : config.streamResumeEnabled = true) (herror : isCompactedHistoryTerminalError error = false)
    (haborted : marker.aborted = false) (hfinalized : marker.finalized = false) {n : Nat}
    (hn : streamRetries + n = config.streamMaxRetries) :
    rereads config error current runCtx rawId uuid startSeq (n + 1) d marker handle streamRetries =
      ({ marker with connected := false }, .getSession 0) := by
  induction n generalizing d marker handle streamRetries with
  | zero =>
    have hlast : afterStream (N := N) (E := RuntimeEnvelope B N) config { marker with connected := false } streamRetries
        false = ({ marker with connected := false }, .getSession 0) := by
      have hlt : config.streamMaxRetries < streamRetries + 1 := by omega
      simp [afterStream, pollLoop, haborted, hfinalized, hresume, hlt]
    unfold rereads
    dsimp only
    rw [handle_eq_none hctx hbase64 hformat h, read_none haborted, herror, hlast]
    rfl
  | succ n ih =>
    have hnext : afterStream (N := N) (E := RuntimeEnvelope B N) config { marker with connected := false } streamRetries
        false = ({ marker with connected := false }, .sleep (streamRetries + 1)) := by
      have hle : ¬ config.streamMaxRetries < streamRetries + 1 := by omega
      simp [afterStream, haborted, hfinalized, hresume, hle]
    have hresubscribe : resubscribe config
        (({ marker with connected := false }, .sleep (streamRetries + 1)) :
          ActiveStream × LoopAt N (RuntimeEnvelope B N)) =
        some ({ marker with connected := false }, ⟨marker.envelopeOrdinal, 0⟩, streamRetries + 1) := by
      simp [resubscribe, consumeLoop, haborted, hfinalized]
    have hagain : ¬ d.again.again.Storable := by rwa [again_of_mem sender_mem_again]
    unfold rereads
    dsimp only
    rw [handle_eq_none hctx hbase64 hformat h, read_none haborted, herror, hnext]
    dsimp only
    rw [hresubscribe]
    exact ih (d := d.again) hbase64 hagain haborted hfinalized (by omega)

/-- An envelope does no harm if and only if its payload converts and the tables can take all that is derived of it. -/
theorem harmless_iff_storable (hctx : ∀ trace ∈ runCtx, trace.fits = true)
    (hbase64 : ∀ payload, ascii (d.codec.toBase64 payload) = true)
    (hformat : ∀ n : N, ascii (JsNumber.format n) = true) :
    d.Harmless current runCtx ↔ d.Convertible (Reducer.isFinalized current) ∧ d.Storable := by
  constructor
  · intro h
    exact (isSome_handle_iff hctx hbase64 hformat).1 (h.persists "" (fun _ => "") 0)
  · intro h
    have hpersists : ∀ rawId uuid startSeq,
        (d.handleRawEventInner current runCtx rawId uuid startSeq).isSome = true := fun _ _ _ =>
      (isSome_handle_iff hctx hbase64 hformat).2 h
    have hnormalize : d.normalize = some d.events := if_pos (convertible_iff.1 h.1).1
    refine ⟨fun rawId seq => ((fits_iff hbase64 hformat rawId seq).2 h.2).1,
      ⟨d.events, hnormalize, h.2.fits_events hbase64 hformat⟩, hpersists, ?_⟩
    intro config error rawId uuid startSeq marker handle streamRetries haborted
    exact ⟨1, rereads_of_isSome haborted (hpersists rawId uuid startSeq)⟩

end Consumer

/-! ### A proposal -/

/-- `proposal_id: "p-1"` -/
def proposalBytes : List Nat := [0x0a, 3, 0x70, 0x2d, 0x31]

/-- The libraries, as far as they handle these bytes. -/
def proposalCodec : Codec (List Nat) (Option Rat) where
  decodeMessage typeName payload :=
    if typeName = "macp.modes.decision.v1.ProposalPayload" ∧ payload = proposalBytes then
      some [("proposalId", .str "p-1")]
    else none
  isCanonicalProto _ payload := payload = proposalBytes
  isEmpty := List.isEmpty
  toUtf8 payload := String.ofList (payload.map Char.ofNat)
  toBase64 payload := if payload = proposalBytes then "CgNwLTE=" else ""
  ofBase64 text := if text = "CgNwLTE=" then proposalBytes else []
  parseJson _ := none

def proposal (messageId : String) : Delivery (List Nat) (Option Rat) where
  codec := proposalCodec
  bytes := id
  patterns := []
  ctx := ⟨"r1", "2026-10-24T00:00:00.000Z", fun _ => "e1"⟩
  knownParticipants := []
  envelope :=
    { macpVersion := "1.0"
      mode := "macp.mode.decision.v1"
      messageType := "Proposal"
      messageId
      sessionId := "s1"
      sender := "analyst"
      timestampUnixMs := some 0
      payload := proposalBytes }
  senderAuthenticated := none

private theorem ascii_toBase64 (messageId : String) (payload : List Nat) :
    ascii ((proposal messageId).codec.toBase64 payload) = true := by
  unfold proposal proposalCodec
  dsimp only
  split <;> decide

theorem harmless_proposal : (proposal "m-1").Harmless (.empty "r1") none := by
  refine (harmless_iff_storable (by simp) (ascii_toBase64 "m-1") ascii_format).2 ⟨?_, ?_⟩
  all_goals constructor <;> decide +kernel

/-- 256 characters. -/
def longMessageId : String := String.ofList (List.replicate 256 'm')

/-- `message.received` has the message as its subject, and its id is too long: the consumer gives the stream up after
it has read the envelope six times. -/
theorem not_harmless_longMessageId :
    ¬ (proposal longMessageId).Harmless (.empty "r1") none ∧
      rereads {} { message := "value too long for type character varying(255)" } (.empty "r1") none "raw1"
        (fun _ => "e1") 1 6 (proposal longMessageId) {} ⟨0, 0⟩ 0 = (({} : ActiveStream), .getSession 0) := by
  have hlong : varchar 255 (proposal longMessageId).envelope.messageId = false := by
    change varchar 255 (String.ofList (List.replicate 256 'm')) = false
    rw [varchar, noNul, String.toList_ofList]
    decide +kernel
  have hstorable : ∀ {d : Delivery (List Nat) (Option Rat)},
      d.envelope.messageId = (proposal longMessageId).envelope.messageId → ¬ d.Storable := by
    intro d hd h
    have hid := h.messageId
    rw [hd, hlong] at hid
    cases hid
  have hctx : ∀ trace ∈ (none : Option TraceRef), trace.fits = true := by simp
  constructor
  · intro h
    have hboth := (isSome_handle_iff hctx (ascii_toBase64 longMessageId) ascii_format).1 (h.persists "" (fun _ => "") 0)
    exact hstorable rfl hboth.2
  · have herror : isCompactedHistoryTerminalError { message := "value too long for type character varying(255)" } =
        false := by decide +kernel
    exact rereads_exhausted hctx (ascii_toBase64 longMessageId) ascii_format (hstorable rfl) rfl herror rfl rfl rfl

end Delivery

end MacpControlPlane

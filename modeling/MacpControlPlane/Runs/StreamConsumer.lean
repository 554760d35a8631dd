import MacpControlPlane.Events.RunTransactions
import MacpControlPlane.Runtime.ThrownErrors

/-!
# The consumer of a session stream (`runs/stream-consumer.service.ts`)

`consumeLoop` and `handleRawEvent` as one machine: `LoopAt` says which promise the loop awaits, with the local
variables that are alive there, and `consumeLoop` says where it goes on from what the promise comes to.  Only the
transaction of `persistRawAndCanonical` is left open: how it gets from `persist` to `committed` is up to the machines
that use the loop.
-/

namespace MacpControlPlane

open Js

variable {N E : Type}

/-- The settings that the loop reads. -/
structure StreamConfig where
  streamResumeEnabled : Bool := true
  streamMaxRetries : Nat := 5

/-- `ActiveStream` -/
structure ActiveStream where
  aborted : Bool := false
  finalized : Bool := false
  connected : Bool := false
  lastProcessedSeq : Nat := 0
  envelopeOrdinal : Nat := 0
  historyGap : Bool := false

/-- A subscription to the session: the ordinal it was opened after, and how many envelopes it has yielded. -/
structure RuntimeSessionHandle where
  afterSequence : Nat
  yielded : Nat := 0

/-- The ordinal of the last envelope that the subscription has yielded. -/
def RuntimeSessionHandle.position (handle : RuntimeSessionHandle) : Nat := handle.afterSequence + handle.yielded

/-- Who has called `handleRawEvent`: the stream, with its handle and `streamRetries`, or a poll, with `retries`. -/
inductive Origin where
  | stream (handle : RuntimeSessionHandle) (streamRetries : Nat)
  | poll (retries : Nat)

/-- The promise that the loop awaits. -/
inductive LoopAt (N E : Type) where
  /-- The next frame of the stream. -/
  | next (handle : RuntimeSessionHandle) (streamRetries : Nat)
  /-- `persistRawAndCanonical`, before the transaction commits. -/
  | persist (origin : Origin) (raw : RawRuntimeEvent E)
  /-- `persistRawAndCanonical`, after it. -/
  | committed (origin : Origin) (raw : RawRuntimeEvent E) (emitted : List (CanonicalEvent N))
  /-- The `updateState` of `handleRawEvent`. -/
  | updateState (origin : Origin) (raw : RawRuntimeEvent E) (state : String)
  /-- The event of `emitStreamGap`. -/
  | emitGap
  /-- The backoff before a resubscription. -/
  | sleep (streamRetries : Nat)
  | getSession (retries : Nat)
  /-- The event after a poll that has not ended the run. -/
  | emitReconnecting (retries : Nat)
  /-- The backoff before a poll. -/
  | sleepPoll (retries : Nat)
  /-- `finalizeRun`; `caught` is `retries` where a poll would catch its error. -/
  | finalizing (status : RunStatus) (caught : Option Nat)
  | ended

/-- What a promise comes to. -/
inductive LoopEvent (E : Type) where
  | frame (raw : RawRuntimeEvent E)
  /-- The stream has ended, or was idle for too long. -/
  | done
  | returned
  /-- The state that `getSession` has returned. -/
  | snapshot (receivedAt state : String)
  | threw (error : Caught)

/-! ### Compacted history -/

/-- `/history before ordinal \d+ was compacted/i` at the start of the text. -/
def compactedHistoryAt (text : List Char) : Bool :=
  let head := "history before ordinal ".toList
  let rest := text.drop head.length
  head.isPrefixOf (text.map Char.toLower) && (rest.head?.any Char.isDigit) &&
    " was compacted".toList.isPrefixOf ((rest.dropWhile Char.isDigit).map Char.toLower)

/-- `COMPACTED_HISTORY_RE.test(text)` -/
def compactedHistoryTest (text : String) : Bool :=
  text.toList.tails.any compactedHistoryAt

def isCompactedHistoryTerminalError (error : Caught) : Bool :=
  compactedHistoryTest error.message || macpErrorCodeOf error.thrown = some "HISTORY_UNAVAILABLE" ||
    (error.code = some 9 && (macpErrorCodeOf error.thrown).isNone)

def isCompactedHistoryInlineError (err : InlineError) : Bool :=
  if err.code = "INVALID_ENVELOPE" then compactedHistoryTest err.message
  else compactedHistoryTest err.message || compactedHistoryTest err.code

/-! ### `handleRawEvent` -/

/-- `raw.kind === 'stream-envelope' && !!raw.envelope` -/
def RawRuntimeEvent.isEnvelope (raw : RawRuntimeEvent E) : Bool :=
  raw.kind = .streamEnvelope && raw.envelope.isSome

/-- The envelope of a raw event, as `normalize` and the ordinal take it. -/
def RawRuntimeEvent.theEnvelope (raw : RawRuntimeEvent E) : Option E :=
  if raw.isEnvelope then raw.envelope else none

/-- A frame that the handle yields. -/
def RuntimeSessionHandle.yield (handle : RuntimeSessionHandle) (raw : RawRuntimeEvent E) : RuntimeSessionHandle :=
  { handle with yielded := handle.yielded + raw.isEnvelope.toNat }

namespace StreamConsumer

def nextOrdinal (marker : ActiveStream) (raw : RawRuntimeEvent E) : Nat :=
  marker.envelopeOrdinal + if raw.isEnvelope then 1 else 0

/-- `handleRawEventInner` up to `persistRawAndCanonical`. -/
def handleRawEvent (marker : ActiveStream) (origin : Origin) (raw : RawRuntimeEvent E) : ActiveStream × LoopAt N E :=
  let opened := raw.kind = .streamStatus ∧ raw.streamStatus = some "opened"
  ({ marker with connected := if opened then true else marker.connected }, .persist origin raw)

/-- The marker after `persistRawAndCanonical` has returned. -/
def advance (marker : ActiveStream) (raw : RawRuntimeEvent E) (emitted : List (CanonicalEvent N)) : ActiveStream :=
  { marker with
    envelopeOrdinal := nextOrdinal marker raw
    lastProcessedSeq :=
      emitted.foldl (fun seq event => if event.seq ≤ seq then seq else event.seq) marker.lastProcessedSeq }

/-- The state of the first `session.state.changed` event. -/
def sessionStateChange (emitted : List (CanonicalEvent N)) : Option String :=
  (emitted.find? fun event => event.type = .sessionStateChanged).bind fun event => asString (event.datum "state")

/-- The status that a run ends in with its session. -/
def terminalStatus (state : String) : Option RunStatus :=
  if state = "SESSION_STATE_RESOLVED" then some .completed
  else if state = "SESSION_STATE_EXPIRED" then some .failed
  else if state = "SESSION_STATE_CANCELLED" then some .cancelled
  else none

/-! ### `consumeLoop` -/

/-- `finalizeRun`, after which its caller returns. -/
def finalizeRun (marker : ActiveStream) (status : RunStatus) (caught : Option Nat) : ActiveStream × LoopAt N E :=
  if marker.finalized then (marker, .ended)
  else ({ marker with finalized := true, aborted := true }, .finalizing status caught)

/-- An error that `consumeLoop` does not catch: the handler of `start`. -/
def lastResort (marker : ActiveStream) : ActiveStream × LoopAt N E :=
  if marker.aborted then ({ marker with finalized := true }, .ended) else finalizeRun marker .failed none

/-- The head of the loop that polls. -/
def pollLoop (marker : ActiveStream) (retries : Nat) : ActiveStream × LoopAt N E :=
  (marker, if marker.aborted ∨ marker.finalized then .ended else .getSession retries)

/-- The end of a poll that has not ended the run. -/
def retryPoll (config : StreamConfig) (marker : ActiveStream) (retries : Nat) : ActiveStream × LoopAt N E :=
  if config.streamMaxRetries < retries + 1 then finalizeRun marker .failed none
  else (marker, .emitReconnecting (retries + 1))

/-- What follows the frames of a subscription. -/
def afterStream (config : StreamConfig) (marker : ActiveStream) (streamRetries : Nat) (gapDetected : Bool) :
    ActiveStream × LoopAt N E :=
  if marker.finalized ∨ marker.aborted then (marker, .ended)
  else if gapDetected then
    if marker.historyGap then pollLoop marker 0 else ({ marker with historyGap := true }, .emitGap)
  else if ¬ config.streamResumeEnabled then pollLoop marker 0
  else if config.streamMaxRetries < streamRetries + 1 then pollLoop marker 0
  else (marker, .sleep (streamRetries + 1))

/-- An error of `handleRawEvent`. -/
def caughtError (config : StreamConfig) (marker : ActiveStream) (error : Caught) :
    Origin → ActiveStream × LoopAt N E
  | .stream _ streamRetries =>
    afterStream config { marker with connected := false } streamRetries (isCompactedHistoryTerminalError error)
  | .poll retries => retryPoll config marker retries

/-- What follows `handleRawEvent`. -/
def afterHandled (config : StreamConfig) (marker : ActiveStream) (raw : RawRuntimeEvent E) :
    Origin → ActiveStream × LoopAt N E
  | .stream handle streamRetries =>
    (marker,
      if marker.finalized then .ended
      else .next handle (if raw.kind = .streamEnvelope then 0 else streamRetries))
  | .poll retries =>
    if marker.finalized then (marker, .ended)
    else match raw.sessionState.bind terminalStatus with
      | some status => finalizeRun marker status (some retries)
      | none => retryPoll config marker retries

/-- Where an error of a `finalizeRun` inside `handleRawEvent` would be caught. -/
def Origin.caught : Origin → Option Nat
  | .stream _ _ => none
  | .poll retries => some retries

/-- Where the loop goes on. -/
def consumeLoop (config : StreamConfig) (marker : ActiveStream) :
    LoopAt N E → LoopEvent E → Option (ActiveStream × LoopAt N E)
  | .next handle streamRetries, .frame raw =>
    if marker.aborted then some (marker, .ended)
    else if raw.kind = .streamInlineError ∧ raw.inlineError.any isCompactedHistoryInlineError then
      some (afterStream config { marker with connected := false } streamRetries true)
    else some (handleRawEvent marker (.stream (handle.yield raw) streamRetries) raw)
  | .next _ streamRetries, .done => some (afterStream config marker streamRetries false)
  | .next handle streamRetries, .threw error => some (caughtError config marker error (.stream handle streamRetries))
  | .persist origin _, .threw error => some (caughtError config marker error origin)
  | .committed origin raw emitted, .returned =>
    let marker := advance marker raw emitted
    match sessionStateChange emitted with
    | some state => some (marker, .updateState origin raw state)
    | none => some (afterHandled config marker raw origin)
  | .updateState origin raw state, .returned =>
    match terminalStatus state with
    | some status => some (finalizeRun marker status (Origin.caught origin))
    | none => some (afterHandled config marker raw origin)
  | .updateState origin _ _, .threw error => some (caughtError config marker error origin)
  | .emitGap, .returned => some (pollLoop marker 0)
  | .emitGap, .threw _ => some (lastResort marker)
  -- The sleep has ended: the loop subscribes after the ordinal of the marker, and `threw` is an error of
  -- `subscribeSession`.
  | .sleep streamRetries, .returned =>
    some (marker,
      if marker.aborted ∨ marker.finalized then .ended
      else .next ⟨marker.envelopeOrdinal, 0⟩ streamRetries)
  | .sleep _, .threw _ => some (pollLoop marker 0)
  | .getSession retries, .snapshot receivedAt state =>
    some (handleRawEvent marker (.poll retries) { kind := .sessionSnapshot, receivedAt, sessionState := some state })
  | .getSession retries, .threw _ => some (retryPoll config marker retries)
  | .emitReconnecting retries, .returned => some (marker, .sleepPoll retries)
  | .emitReconnecting _, .threw _ => some (lastResort marker)
  | .sleepPoll retries, .returned => some (pollLoop marker retries)
  | .finalizing _ _, .returned => some (marker, .ended)
  | .finalizing _ none, .threw _ => some (marker, .ended)
  | .finalizing _ (some retries), .threw _ => some (retryPoll config marker retries)
  | _, _ => none

/-- The marker of a consumer that `start` has registered, and where its loop begins. -/
def start (resumeFromSeq resumeFromEnvelopeOrdinal : Nat) (sessionHandle : Option RuntimeSessionHandle)
    (pollOnly : Bool) :
    ActiveStream × LoopAt N E :=
  let marker : ActiveStream := { lastProcessedSeq := resumeFromSeq, envelopeOrdinal := resumeFromEnvelopeOrdinal }
  match sessionHandle with
  | some handle => if pollOnly then pollLoop marker 0 else (marker, .next handle 0)
  | none => pollLoop marker 0

/-- The ordinal that a step of the loop subscribes after, if it does. -/
def subscribes : LoopAt N E → LoopAt N E → Option Nat
  | .sleep _, .next handle _ => some handle.afterSequence
  | _, _ => none

end StreamConsumer

/-! ### The ordinal of the marker -/

/-- The stream that has called `handleRawEvent` has yielded the envelopes up to `n`. -/
def Origin.At (n : Nat) : Origin → Prop
  | .stream handle _ => handle.position = n
  | .poll _ => True

namespace StreamConsumer

/-- A loop whose next envelope is the one after `n`, where the row of the session has the ordinal `n`: the marker has
the same ordinal, except that it has yet to follow the transaction that has just committed.  `P` is what holds of the
envelopes that the loop handles. -/
def InStep (n : Nat) (P : RawRuntimeEvent E → Prop) (loop : ActiveStream × LoopAt N E) : Prop :=
  match loop.2 with
  | .next handle _ => loop.1.envelopeOrdinal = n ∧ handle.position = n
  | .persist origin raw =>
    loop.1.envelopeOrdinal = n ∧ origin.At (nextOrdinal loop.1 raw) ∧ (raw.isEnvelope = true → P raw)
  | .committed origin raw _ => nextOrdinal loop.1 raw = n ∧ origin.At n
  | .updateState origin _ _ => loop.1.envelopeOrdinal = n ∧ origin.At n
  | .ended => True
  | _ => loop.1.envelopeOrdinal = n

variable {n : Nat} {P : RawRuntimeEvent E → Prop} {config : StreamConfig} {marker : ActiveStream}

theorem InStep.mono {Q : RawRuntimeEvent E → Prop} {loop : ActiveStream × LoopAt N E} (h : InStep n P loop)
    (hPQ : ∀ raw, P raw → Q raw) : InStep n Q loop := by
  obtain ⟨marker, here⟩ := loop
  cases here with
  | persist origin raw => exact ⟨h.1, h.2.1, fun hraw => hPQ raw (h.2.2 hraw)⟩
  | _ => exact h

theorem InStep.abort {loop : ActiveStream × LoopAt N E} (h : InStep n P loop) :
    InStep n P ({ loop.1 with aborted := true }, loop.2) := by
  obtain ⟨marker, here⟩ := loop
  cases here <;> exact h

private theorem inStep_finalizeRun (h : marker.envelopeOrdinal = n) (status : RunStatus) (caught : Option Nat) :
    InStep (N := N) n P (finalizeRun marker status caught) := by
  unfold finalizeRun
  split
  · trivial
  · exact h

private theorem inStep_lastResort (h : marker.envelopeOrdinal = n) : InStep (N := N) n P (lastResort marker) := by
  unfold lastResort
  split
  · trivial
  · exact inStep_finalizeRun h _ _

private theorem inStep_pollLoop (h : marker.envelopeOrdinal = n) (retries : Nat) :
    InStep (N := N) n P (pollLoop marker retries) := by
  unfold pollLoop
  split
  · trivial
  · exact h

private theorem inStep_retryPoll (h : marker.envelopeOrdinal = n) (retries : Nat) :
    InStep (N := N) n P (retryPoll config marker retries) := by
  unfold retryPoll
  split
  · exact inStep_finalizeRun h _ _
  · exact h

private theorem inStep_afterStream (h : marker.envelopeOrdinal = n) (streamRetries : Nat) (gapDetected : Bool) :
    InStep (N := N) n P (afterStream config marker streamRetries gapDetected) := by
  unfold afterStream
  split_ifs
  · trivial
  · exact inStep_pollLoop h 0
  · exact h
  · exact inStep_pollLoop h 0
  · exact h
  · exact inStep_pollLoop h 0

private theorem inStep_caughtError (h : marker.envelopeOrdinal = n) (error : Caught) (origin : Origin) :
    InStep (N := N) n P (caughtError config marker error origin) := by
  cases origin with
  | stream handle streamRetries =>
    refine inStep_afterStream ?_ _ _
    exact h
  | poll retries => exact inStep_retryPoll h retries

private theorem inStep_afterHandled (h : marker.envelopeOrdinal = n) (raw : RawRuntimeEvent E) {origin : Origin}
    (ho : origin.At n) :
    InStep (N := N) n P (afterHandled config marker raw origin) := by
  cases origin with
  | stream handle streamRetries =>
    simp only [afterHandled]
    split
    · trivial
    · exact ⟨h, ho⟩
  | poll retries =>
    simp only [afterHandled]
    split
    · trivial
    · split
      · exact inStep_finalizeRun h _ _
      · exact inStep_retryPoll h _

private theorem inStep_handleRawEvent (h : marker.envelopeOrdinal = n) {origin : Origin} {raw : RawRuntimeEvent E}
    (ho : origin.At (nextOrdinal marker raw)) (hraw : raw.isEnvelope = true → P raw) :
    InStep (N := N) n P (handleRawEvent marker origin raw) := ⟨h, ho, hraw⟩

/-- A handle that yields an envelope moves on to the ordinal that the marker will have. -/
theorem at_yield {handle : RuntimeSessionHandle} (hm : marker.envelopeOrdinal = n) (hh : handle.position = n)
    (raw : RawRuntimeEvent E) (streamRetries : Nat) :
    (Origin.stream (handle.yield raw) streamRetries).At (nextOrdinal marker raw) := by
  unfold RuntimeSessionHandle.position at hh
  cases hraw : raw.isEnvelope <;>
    simp [Origin.At, RuntimeSessionHandle.position, RuntimeSessionHandle.yield, nextOrdinal, hraw] <;> omega

/-- No step of the loop gets out of step; only the transaction changes the ordinal of the session. -/
theorem InStep.consumeLoop {here : LoopAt N E} (h : InStep n P (marker, here)) {event : LoopEvent E}
    (hevent : ∀ raw, event = .frame raw → raw.isEnvelope = true → P raw) {loop : ActiveStream × LoopAt N E}
    (hloop : consumeLoop config marker here event = some loop) : InStep n P loop := by
  -- One bullet for each equation of `consumeLoop`, in its order.
  unfold StreamConsumer.consumeLoop at hloop
  split at hloop
  · rename_i handle streamRetries raw
    split_ifs at hloop
    · rw [← Option.some.inj hloop]
      trivial
    · rw [← Option.some.inj hloop]
      refine inStep_afterStream ?_ _ _
      exact h.1
    · rw [← Option.some.inj hloop]
      exact inStep_handleRawEvent h.1 (at_yield h.1 h.2 raw streamRetries) (hevent raw rfl)
  · rw [← Option.some.inj hloop]
    exact inStep_afterStream h.1 _ _
  · rw [← Option.some.inj hloop]
    exact inStep_caughtError h.1 _ _
  · rw [← Option.some.inj hloop]
    exact inStep_caughtError h.1 _ _
  · rename_i origin raw emitted
    have hadvance : (advance marker raw emitted).envelopeOrdinal = n := h.1
    split at hloop
    · rw [← Option.some.inj hloop]
      exact ⟨hadvance, h.2⟩
    · rw [← Option.some.inj hloop]
      exact inStep_afterHandled hadvance raw h.2
  · split at hloop
    · rw [← Option.some.inj hloop]
      exact inStep_finalizeRun h.1 _ _
    · rw [← Option.some.inj hloop]
      exact inStep_afterHandled h.1 _ h.2
  · rw [← Option.some.inj hloop]
    exact inStep_caughtError h.1 _ _
  · rw [← Option.some.inj hloop]
    exact inStep_pollLoop h 0
  · rw [← Option.some.inj hloop]
    exact inStep_lastResort h
  · rw [← Option.some.inj hloop]
    split
    · trivial
    · exact ⟨h, h⟩
  · rw [← Option.some.inj hloop]
    exact inStep_pollLoop h 0
  · rw [← Option.some.inj hloop]
    exact inStep_handleRawEvent h trivial (fun hraw => absurd hraw (by simp [RawRuntimeEvent.isEnvelope]))
  · rw [← Option.some.inj hloop]
    exact inStep_retryPoll h _
  · rw [← Option.some.inj hloop]
    exact h
  · rw [← Option.some.inj hloop]
    exact inStep_lastResort h
  · rw [← Option.some.inj hloop]
    exact inStep_pollLoop h _
  · rw [← Option.some.inj hloop]
    trivial
  · rw [← Option.some.inj hloop]
    trivial
  · rw [← Option.some.inj hloop]
    exact inStep_retryPoll h _
  · exact absurd hloop nofun

/-- The loop subscribes after the ordinal of the marker. -/
theorem InStep.subscribes {here : LoopAt N E} (h : InStep n P (marker, here)) {event : LoopEvent E}
    {loop : ActiveStream × LoopAt N E} (hloop : StreamConsumer.consumeLoop config marker here event = some loop)
    {k : Nat}
    (hk : StreamConsumer.subscribes here loop.2 = some k) : k = n := by
  cases here with
  | sleep streamRetries =>
    cases event with
    | returned =>
      rw [← Option.some.inj hloop] at hk
      dsimp only at hk
      split at hk
      · exact absurd hk nofun
      · exact (Option.some.inj hk).symm.trans h
    | threw error =>
      rw [← Option.some.inj hloop, pollLoop] at hk
      dsimp only at hk
      split at hk <;> exact absurd hk nofun
    | _ => exact absurd hloop nofun
  | _ => exact absurd hk nofun

theorem inStep_start (resumeFromSeq : Nat) {resumeFromEnvelopeOrdinal : Nat} (h : resumeFromEnvelopeOrdinal = n)
    {sessionHandle : Option RuntimeSessionHandle} (hhandle : ∀ handle ∈ sessionHandle, handle.position = n)
    (pollOnly : Bool) :
    InStep (N := N) n P (start resumeFromSeq resumeFromEnvelopeOrdinal sessionHandle pollOnly) := by
  unfold start
  cases sessionHandle with
  | none =>
    refine inStep_pollLoop ?_ 0
    exact h
  | some handle =>
    dsimp only
    split
    · refine inStep_pollLoop ?_ 0
      exact h
    · exact ⟨h, hhandle handle rfl⟩

end StreamConsumer

end MacpControlPlane

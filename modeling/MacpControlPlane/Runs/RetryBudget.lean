import MacpControlPlane.Lib.Machine
import MacpControlPlane.Runs.StreamConsumer

/-!
# The retry budget of the consumer

`consumeLoop` with the calls that it makes counted: the resubscriptions, the polls, and the envelopes that have been
delivered and persisted.  Everything else is up to the run: the frames, how a stream breaks, which transactions fail,
what `getSession` returns, and when the stream is stopped.

The counter `streamRetries` is set to zero by an envelope only, so that the resubscriptions between two envelopes are
at most `maxRetries`.  What a run can do without another frame is bounded by `stepsLeft`, a measure of where the loop
is: a stream or a poll that fails moves the loop on to a later attempt.
-/

namespace MacpControlPlane

variable {N E : Type}

namespace RetryBudget

open StreamConsumer

structure Counters where
  /-- The calls of `subscribeSession` after the first subscription. -/
  resubscriptions : Nat := 0
  /-- The calls of `getSession`. -/
  polls : Nat := 0
  /-- The envelopes delivered and persisted. -/
  delivered : Nat := 0
  deriving DecidableEq

/-- The loop, what it has done, and how many frames and steps that took. -/
structure State (N E : Type) where
  marker : ActiveStream
  here : LoopAt N E
  calls : Counters := {}
  frames : Nat := 0
  steps : Nat := 0

inductive Action (N E : Type) where
  /-- The promise that the loop awaits comes to something. -/
  | settles (event : LoopEvent E)
  /-- The transaction of `persistRawAndCanonical` commits. -/
  | commits (emitted : List (CanonicalEvent N))
  /-- `stop` -/
  | stop

/-- `subscribeSession` has been called. -/
def resubscribes : LoopAt N E → LoopEvent E → LoopAt N E → Bool
  | .sleep _, .threw _, _ => true
  | here, _, here' => (subscribes here here').isSome

/-- `getSession` has been called. -/
def polling : LoopAt N E → Bool
  | .getSession _ => true
  | _ => false

def isFrame : LoopEvent E → Bool
  | .frame _ => true
  | _ => false

/-- A frame as `subscribeSession` yields it: one of the kind `stream-envelope` has an envelope. -/
def yielded : LoopEvent E → Bool
  | .frame raw => raw.kind ≠ .streamEnvelope || raw.isEnvelope
  | _ => true

/-- The counters once the loop awaits the next promise. -/
def Counters.arrive (c : Counters) (here : LoopAt N E) : Counters :=
  { c with polls := c.polls + (polling here).toNat }

def Counters.settle (c : Counters) (here : LoopAt N E) (event : LoopEvent E) (here' : LoopAt N E) : Counters :=
  Counters.arrive { c with resubscriptions := c.resubscriptions + (resubscribes here event here').toNat } here'

def Counters.deliver (c : Counters) (raw : RawRuntimeEvent E) : Counters :=
  { c with delivered := c.delivered + raw.isEnvelope.toNat }

def next (config : StreamConfig) (s : State N E) : Action N E → Option (State N E)
  | .settles event =>
    if yielded event then
      (consumeLoop config s.marker s.here event).map fun (marker, here) =>
        { marker, here
          calls := s.calls.settle s.here event here
          frames := s.frames + (isFrame event).toNat
          steps := s.steps + 1 }
    else none
  | .commits emitted =>
    match s.here with
    | .persist origin raw =>
      some { s with here := .committed origin raw emitted, calls := s.calls.deliver raw, steps := s.steps + 1 }
    | _ => none
  | .stop => some { s with marker := { s.marker with aborted := true } }

/-- A loop that has just been started. -/
def State.opened (loop : ActiveStream × LoopAt N E) : State N E where
  marker := loop.1
  here := loop.2
  calls := Counters.arrive {} loop.2

def machine (config : StreamConfig) : Machine (State N E) (Action N E) where
  start s :=
    ∃ resumeFromSeq resumeFromEnvelopeOrdinal sessionHandle pollOnly,
      s = .opened (StreamConsumer.start resumeFromSeq resumeFromEnvelopeOrdinal sessionHandle pollOnly)
  next := next config

/-! ### Where the loop goes on -/

section Routes

/-- After a frame or a poll that did not lead to another one at once. -/
inductive Exit (maxRetries : Nat) : Origin → LoopAt N E → Prop
  | ended (origin : Origin) : Exit maxRetries origin .ended
  | finalizing (origin : Origin) (status : RunStatus) : Exit maxRetries origin (.finalizing status none)
  | polling {handle : RuntimeSessionHandle} {k : Nat} : Exit maxRetries (.stream handle k) (.getSession 0)
  | gap {handle : RuntimeSessionHandle} {k : Nat} : Exit maxRetries (.stream handle k) .emitGap
  | sleeping {handle : RuntimeSessionHandle} {k : Nat} (h : k + 1 ≤ maxRetries) :
    Exit maxRetries (.stream handle k) (.sleep (k + 1))
  | reconnecting {r : Nat} (h : r + 1 ≤ maxRetries) : Exit maxRetries (.poll r) (.emitReconnecting (r + 1))

/-- After an event that has been handled. -/
inductive Handled (maxRetries : Nat) (raw : RawRuntimeEvent E) : Origin → LoopAt N E → Prop
  | exit {origin : Origin} {here : LoopAt N E} (h : Exit maxRetries origin here) : Handled maxRetries raw origin here
  | next {handle : RuntimeSessionHandle} {k : Nat} :
    Handled maxRetries raw (.stream handle k) (.next handle (if raw.kind = .streamEnvelope then 0 else k))
  | finalizing {r : Nat} (status : RunStatus) : Handled maxRetries raw (.poll r) (.finalizing status (some r))

/-- A step of the loop. -/
inductive Goes (maxRetries : Nat) : LoopAt N E → LoopEvent E → LoopAt N E → Prop
  | frame {handle handle' : RuntimeSessionHandle} {k : Nat} {raw : RawRuntimeEvent E} :
    Goes maxRetries (.next handle k) (.frame raw) (.persist (.stream handle' k) raw)
  | stream {handle : RuntimeSessionHandle} {k : Nat} {event : LoopEvent E} {here : LoopAt N E}
    (h : Exit maxRetries (.stream handle k) here) : Goes maxRetries (.next handle k) event here
  | failed {origin : Origin} {raw : RawRuntimeEvent E} {event : LoopEvent E} {here : LoopAt N E}
    (h : Exit maxRetries origin here) : Goes maxRetries (.persist origin raw) event here
  | changes {origin : Origin} {raw : RawRuntimeEvent E} {emitted : List (CanonicalEvent N)} {event : LoopEvent E}
    {state : String} : Goes maxRetries (.committed origin raw emitted) event (.updateState origin raw state)
  | handled {origin : Origin} {raw : RawRuntimeEvent E} {emitted : List (CanonicalEvent N)} {event : LoopEvent E}
    {here : LoopAt N E} (h : Handled maxRetries raw origin here) :
    Goes maxRetries (.committed origin raw emitted) event here
  | updated {origin : Origin} {raw : RawRuntimeEvent E} {state : String} {event : LoopEvent E} {here : LoopAt N E}
    (h : Handled maxRetries raw origin here) : Goes maxRetries (.updateState origin raw state) event here
  | gapEmitted {event : LoopEvent E} : Goes maxRetries .emitGap event (.getSession 0)
  | subscribes {k n : Nat} : Goes maxRetries (.sleep k) .returned (.next ⟨n, 0⟩ k)
  | unsubscribed {k : Nat} {error : Caught} : Goes maxRetries (.sleep k) (.threw error) (.getSession 0)
  | snapshot {r : Nat} {event : LoopEvent E} {raw : RawRuntimeEvent E} (h : raw.kind = .sessionSnapshot) :
    Goes maxRetries (.getSession r) event (.persist (.poll r) raw)
  | unpolled {r : Nat} {event : LoopEvent E} {here : LoopAt N E} (h : Exit maxRetries (.poll r) here) :
    Goes maxRetries (.getSession r) event here
  | reconnects {r : Nat} {event : LoopEvent E} : Goes maxRetries (.emitReconnecting r) event (.sleepPoll r)
  | wakes {r : Nat} {event : LoopEvent E} : Goes maxRetries (.sleepPoll r) event (.getSession r)
  | unfinalized {r : Nat} {status : RunStatus} {event : LoopEvent E} {here : LoopAt N E}
    (h : Exit maxRetries (.poll r) here) : Goes maxRetries (.finalizing status (some r)) event here
  | lastResort {here : LoopAt N E} {event : LoopEvent E} {status : RunStatus}
    (h : here = .emitGap ∨ ∃ r, here = .emitReconnecting r) : Goes maxRetries here event (.finalizing status none)
  | ends {here : LoopAt N E} {event : LoopEvent E} (h : here ≠ .ended) : Goes maxRetries here event .ended

variable {config : StreamConfig} {marker : ActiveStream}

private theorem finalizeRun_cases (marker : ActiveStream) (status : RunStatus) (caught : Option Nat) :
    (finalizeRun (N := N) (E := E) marker status caught).2 = .ended ∨
      (finalizeRun (N := N) (E := E) marker status caught).2 = .finalizing status caught := by
  unfold finalizeRun
  split
  · exact Or.inl rfl
  · exact Or.inr rfl

private theorem pollLoop_cases (marker : ActiveStream) (r : Nat) :
    (pollLoop (N := N) (E := E) marker r).2 = .ended ∨ (pollLoop (N := N) (E := E) marker r).2 = .getSession r := by
  unfold pollLoop
  dsimp only
  split
  · exact Or.inl rfl
  · exact Or.inr rfl

private theorem exit_retryPoll (r : Nat) :
    Exit (N := N) (E := E) config.streamMaxRetries (.poll r) (retryPoll config marker r).2 := by
  unfold retryPoll
  split
  · rcases finalizeRun_cases (N := N) (E := E) marker .failed none with h | h <;> rw [h]
    · exact .ended _
    · exact .finalizing _ _
  next hleft =>
    refine .reconnecting ?_
    omega

private theorem exit_afterStream (handle : RuntimeSessionHandle) (k : Nat) (gapDetected : Bool) :
    Exit (N := N) (E := E) config.streamMaxRetries (.stream handle k) (afterStream config marker k gapDetected).2 := by
  have hpoll : Exit (N := N) (E := E) config.streamMaxRetries (.stream handle k) (pollLoop marker 0).2 := by
    rcases pollLoop_cases (N := N) (E := E) marker 0 with h | h <;> rw [h]
    · exact .ended _
    · exact .polling
  unfold afterStream
  split_ifs with hover hgap hknown hresume hspent
  · exact .ended _
  · exact hpoll
  · exact .gap
  · exact hpoll
  · refine .sleeping ?_
    omega
  · exact hpoll

private theorem exit_caughtError (error : Caught) (origin : Origin) :
    Exit (N := N) (E := E) config.streamMaxRetries origin (caughtError config marker error origin).2 := by
  cases origin with
  | stream handle k => exact exit_afterStream handle k _
  | poll r => exact exit_retryPoll r

private theorem handled_finalizeRun (raw : RawRuntimeEvent E) (status : RunStatus) (origin : Origin) :
    Handled (N := N) config.streamMaxRetries raw origin (finalizeRun marker status (Origin.caught origin)).2 := by
  rcases finalizeRun_cases (N := N) (E := E) marker status (Origin.caught origin) with h | h <;> rw [h]
  · exact .exit (.ended _)
  · cases origin with
    | stream handle k => exact .exit (.finalizing _ _)
    | poll r => exact .finalizing status

private theorem handled_afterHandled (raw : RawRuntimeEvent E) (origin : Origin) :
    Handled (N := N) config.streamMaxRetries raw origin (afterHandled config marker raw origin).2 := by
  cases origin with
  | stream handle k =>
    simp only [afterHandled]
    split
    · exact .exit (.ended _)
    · exact .next
  | poll r =>
    simp only [afterHandled]
    split
    · exact .exit (.ended _)
    · split
      next status _ => exact handled_finalizeRun raw status (.poll r)
      · exact .exit (exit_retryPoll r)

private theorem goes_lastResort {here : LoopAt N E} {event : LoopEvent E}
    (h : here = .emitGap ∨ ∃ r, here = .emitReconnecting r) :
    Goes config.streamMaxRetries here event (StreamConsumer.lastResort marker).2 := by
  have hlive : here ≠ .ended := by
    rcases h with rfl | ⟨r, rfl⟩ <;> simp
  unfold StreamConsumer.lastResort
  split
  · exact .ends hlive
  · rcases finalizeRun_cases (N := N) (E := E) marker .failed none with hrun | hrun <;> rw [hrun]
    · exact .ends hlive
    · exact .lastResort h

private theorem goes_pollLoop {here : LoopAt N E} {event : LoopEvent E} {r : Nat} (hlive : here ≠ .ended)
    (h : Goes config.streamMaxRetries here event (.getSession r)) :
    Goes config.streamMaxRetries here event (pollLoop marker r).2 := by
  rcases pollLoop_cases (N := N) (E := E) marker r with hloop | hloop <;> rw [hloop]
  · exact .ends hlive
  · exact h

private theorem goes_consumeLoop {here : LoopAt N E} {event : LoopEvent E} {loop : ActiveStream × LoopAt N E}
    (hloop : consumeLoop config marker here event = some loop) :
    Goes config.streamMaxRetries here event loop.2 := by
  -- One bullet for each equation of `consumeLoop`, in its order.
  unfold consumeLoop at hloop
  split at hloop
  · split_ifs at hloop <;> rw [← Option.some.inj hloop]
    · exact .ends (by simp)
    · exact .stream (exit_afterStream _ _ _)
    · exact .frame
  · exact Option.some.inj hloop ▸ .stream (exit_afterStream _ _ _)
  · exact Option.some.inj hloop ▸ .stream (exit_caughtError _ _)
  · exact Option.some.inj hloop ▸ .failed (exit_caughtError _ _)
  · dsimp only at hloop
    split at hloop <;> rw [← Option.some.inj hloop]
    · exact .changes
    · exact .handled (handled_afterHandled _ _)
  · split at hloop <;> rw [← Option.some.inj hloop]
    · exact .updated (handled_finalizeRun _ _ _)
    · exact .updated (handled_afterHandled _ _)
  · exact Option.some.inj hloop ▸ .updated (.exit (exit_caughtError _ _))
  · exact Option.some.inj hloop ▸ goes_pollLoop (by simp) .gapEmitted
  · exact Option.some.inj hloop ▸ goes_lastResort (Or.inl rfl)
  · rw [← Option.some.inj hloop]
    dsimp only
    split
    · exact .ends (by simp)
    · exact .subscribes
  · exact Option.some.inj hloop ▸ goes_pollLoop (by simp) .unsubscribed
  · exact Option.some.inj hloop ▸ .snapshot rfl
  · exact Option.some.inj hloop ▸ .unpolled (exit_retryPoll _)
  · exact Option.some.inj hloop ▸ .reconnects
  · exact Option.some.inj hloop ▸ goes_lastResort (Or.inr ⟨_, rfl⟩)
  · exact Option.some.inj hloop ▸ goes_pollLoop (by simp) .wakes
  · exact Option.some.inj hloop ▸ .ends (by simp)
  · exact Option.some.inj hloop ▸ .ends (by simp)
  · exact Option.some.inj hloop ▸ .unfinalized (exit_retryPoll _)
  · exact absurd hloop (by simp)

end Routes

/-! ### The measure -/

/-- The steps that the loop can take without another frame.  A later attempt has fewer of them left, a poll has fewer
than a stream, and the handling of a frame has more than the wait for the next one. -/
def stepsLeft (maxRetries : Nat) : LoopAt N E → Nat
  | .persist (.stream _ _) _ => 10 * maxRetries + 13
  | .committed (.stream _ _) _ _ => 10 * maxRetries + 12
  | .updateState (.stream _ _) _ _ => 10 * maxRetries + 11
  | .sleep k => 8 * maxRetries + 2 * (maxRetries - k) + 10
  | .next _ k => 8 * maxRetries + 2 * (maxRetries - k) + 9
  | .emitGap => 8 * maxRetries + 8
  | .emitReconnecting r => 8 * (maxRetries - r) + 8
  | .sleepPoll r => 8 * (maxRetries - r) + 7
  | .getSession r => 8 * (maxRetries - r) + 6
  | .persist (.poll r) _ => 8 * (maxRetries - r) + 5
  | .committed (.poll r) _ _ => 8 * (maxRetries - r) + 4
  | .updateState (.poll r) _ _ => 8 * (maxRetries - r) + 3
  | .finalizing _ (some r) => 8 * (maxRetries - r) + 2
  | .finalizing _ none => 1
  | .ended => 0

/-- The most steps between two frames, with that of the frame. -/
def stepsPerFrame (maxRetries : Nat) : Nat := 10 * maxRetries + 13

variable {maxRetries : Nat} {here here' : LoopAt N E} {event : LoopEvent E}

private theorem stepsLeft_le (maxRetries : Nat) (here : LoopAt N E) :
    stepsLeft maxRetries here ≤ stepsPerFrame maxRetries := by
  unfold stepsLeft stepsPerFrame
  split <;> omega

private theorem stepsLeft_pos (maxRetries : Nat) (h : here ≠ .ended) : 0 < stepsLeft maxRetries here := by
  unfold stepsLeft
  split
  all_goals first | omega | exact absurd rfl h

/-- Where a stream that has failed goes on has fewer steps left than the wait for its next frame. -/
theorem Exit.stepsLeft_stream {handle : RuntimeSessionHandle} {k : Nat} (h : Exit maxRetries (.stream handle k) here)
    (handle' : RuntimeSessionHandle) :
    stepsLeft maxRetries here < stepsLeft maxRetries (.next handle' k : LoopAt N E) := by
  cases h <;> simp only [stepsLeft] <;> omega

private theorem Exit.stepsLeft_poll {r : Nat} (h : Exit maxRetries (.poll r) here) :
    stepsLeft maxRetries here < 8 * (maxRetries - r) + 2 := by
  cases h <;> simp only [stepsLeft] <;> omega

private theorem Handled.stepsLeft_lt {origin : Origin} {raw : RawRuntimeEvent E}
    (h : Handled maxRetries raw origin here) (state : String) :
    stepsLeft maxRetries here < stepsLeft maxRetries (.updateState origin raw state : LoopAt N E) := by
  cases h with
  | exit h =>
    cases origin with
    | stream handle k =>
      have hless := h.stepsLeft_stream handle
      simp only [stepsLeft] at hless ⊢
      omega
    | poll r =>
      have hless := h.stepsLeft_poll
      simp only [stepsLeft] at hless ⊢
      omega
  | next =>
    simp only [stepsLeft]
    omega
  | finalizing status =>
    simp only [stepsLeft]
    omega

/-- A step that does not take a frame brings the loop nearer to its end. -/
theorem Goes.stepsLeft_lt (h : Goes maxRetries here event here') (hframe : isFrame event = false) :
    stepsLeft maxRetries here' < stepsLeft maxRetries here := by
  cases h with
  | frame => cases hframe
  | stream h => exact h.stepsLeft_stream _
  | @failed origin raw _ _ h =>
    cases origin with
    | stream handle k =>
      have hless := h.stepsLeft_stream handle
      simp only [stepsLeft] at hless ⊢
      omega
    | poll r =>
      have hless := h.stepsLeft_poll
      simp only [stepsLeft] at hless ⊢
      omega
  | @changes origin => cases origin <;> simp only [stepsLeft] <;> omega
  | @handled origin raw _ _ _ h =>
    have hless := h.stepsLeft_lt ""
    cases origin <;> simp only [stepsLeft] at hless ⊢ <;> omega
  | updated h => exact h.stepsLeft_lt _
  | unpolled h =>
    have hless := h.stepsLeft_poll
    simp only [stepsLeft] at hless ⊢
    omega
  | unfinalized h => exact h.stepsLeft_poll
  | lastResort h => rcases h with rfl | ⟨r, rfl⟩ <;> simp only [stepsLeft] <;> omega
  | ends h => exact stepsLeft_pos _ h
  | _ =>
    simp only [stepsLeft]
    omega

/-! ### The counters -/

/-- The bounds of a run, where `(E + 1) * maxRetries` is written as a sum. -/
structure Bounded (maxRetries : Nat) (c : Counters) : Prop where
  resubscriptions : c.resubscriptions ≤ c.delivered * maxRetries + maxRetries
  polls : c.polls ≤ maxRetries + 1

/-- The loop has not polled yet, and `left` of the resubscriptions are not paid for by an envelope. -/
structure Streaming (maxRetries : Nat) (c : Counters) (streamRetries left : Nat) : Prop where
  retries : streamRetries ≤ maxRetries
  left_le : left ≤ streamRetries
  resubscriptions : c.resubscriptions ≤ c.delivered * maxRetries + left
  polls : c.polls = 0

/-- The `n`-th poll has been made. -/
structure Polling (maxRetries : Nat) (c : Counters) (n : Nat) : Prop extends Bounded maxRetries c where
  count : c.polls = n

def WithinOrigin (maxRetries : Nat) (c : Counters) (streamRetries' : Nat → Nat) : Origin → Prop
  | .stream _ k => Streaming maxRetries c k (streamRetries' k)
  | .poll r => Polling maxRetries c (r + 1)

/-- `streamRetries` once the event has been handled. -/
def afterReset (raw : RawRuntimeEvent E) (streamRetries : Nat) : Nat :=
  if raw.kind = .streamEnvelope then 0 else streamRetries

/-- The counters are within the budget of the place where the loop is. -/
def Within (maxRetries : Nat) (c : Counters) : LoopAt N E → Prop
  | .next _ k => Streaming maxRetries c k k
  | .persist origin raw =>
    WithinOrigin maxRetries c id origin ∧ (raw.kind = .streamEnvelope → raw.isEnvelope = true)
  | .committed origin raw _ | .updateState origin raw _ => WithinOrigin maxRetries c (afterReset raw) origin
  | .emitGap => Polling maxRetries c 0
  | .sleep k => k ≤ maxRetries ∧ c.resubscriptions + 1 ≤ c.delivered * maxRetries + k ∧ c.polls = 0
  | .getSession r | .finalizing _ (some r) => Polling maxRetries c (r + 1)
  | .emitReconnecting r | .sleepPoll r => Polling maxRetries c r ∧ r ≤ maxRetries
  | .finalizing _ none | .ended => Bounded maxRetries c

variable {c : Counters}

private theorem Streaming.bounded {k left : Nat} (h : Streaming maxRetries c k left) : Bounded maxRetries c := by
  obtain ⟨hretries, hleft, hresubscriptions, hpolls⟩ := h
  constructor <;> omega

/-- The next poll. -/
theorem Polling.arrive {r : Nat} (h : Polling maxRetries c r) (hr : r ≤ maxRetries) :
    Polling maxRetries (c.arrive (.getSession r : LoopAt N E)) (r + 1) := by
  have hpolls : c.polls + 1 = r + 1 := by rw [h.count]
  refine ⟨⟨h.resubscriptions, ?_⟩, hpolls⟩
  show c.polls + 1 ≤ maxRetries + 1
  omega

private theorem WithinOrigin.bounded {streamRetries' : Nat → Nat} {origin : Origin}
    (h : WithinOrigin maxRetries c streamRetries' origin) : Bounded maxRetries c := by
  cases origin with
  | stream handle k => exact Streaming.bounded h
  | poll r => exact Polling.toBounded h

private theorem Within.bounded (h : Within maxRetries c here) : Bounded maxRetries c := by
  cases here with
  | next handle k => exact Streaming.bounded h
  | persist origin raw => exact h.1.bounded
  | committed origin raw emitted => exact WithinOrigin.bounded h
  | updateState origin raw state => exact WithinOrigin.bounded h
  | emitGap => exact Polling.toBounded h
  | sleep k =>
    obtain ⟨hretries, hresubscriptions, hpolls⟩ := h
    constructor <;> omega
  | getSession r => exact Polling.toBounded h
  | emitReconnecting r => exact h.1.toBounded
  | sleepPoll r => exact h.1.toBounded
  | finalizing status caught =>
    cases caught with
    | none => exact h
    | some r => exact Polling.toBounded h
  | ended => exact h

private theorem afterReset_le (raw : RawRuntimeEvent E) (k : Nat) : afterReset raw k ≤ k := by
  unfold afterReset
  split <;> omega

/-- A stream or a poll that ends, fails or is handled leaves the loop within the budget of where it goes on. -/
theorem Exit.within {origin : Origin} {streamRetries' : Nat → Nat} (h : Exit maxRetries origin here)
    (hc : WithinOrigin maxRetries c streamRetries' origin) : Within maxRetries (c.arrive here) here := by
  cases h with
  | ended => exact hc.bounded
  | finalizing => exact hc.bounded
  | polling =>
    have hpolling : Polling maxRetries c 0 := ⟨hc.bounded, Streaming.polls hc⟩
    exact hpolling.arrive (Nat.zero_le _)
  | gap => exact ⟨hc.bounded, Streaming.polls hc⟩
  | @sleeping handle k hk =>
    obtain ⟨hretries, hleft, hresubscriptions, hpolls⟩ := hc
    refine ⟨hk, ?_, hpolls⟩
    show c.resubscriptions + 1 ≤ c.delivered * maxRetries + (k + 1)
    omega
  | reconnecting hr => exact ⟨hc, hr⟩

private theorem Handled.within {origin : Origin} {raw : RawRuntimeEvent E} (h : Handled maxRetries raw origin here)
    (hc : WithinOrigin maxRetries c (afterReset raw) origin) : Within maxRetries (c.arrive here) here := by
  cases h with
  | exit h => exact h.within hc
  | @next handle k =>
    obtain ⟨hretries, hleft, hresubscriptions, hpolls⟩ := hc
    exact ⟨Nat.le_trans (afterReset_le raw k) hretries, Nat.le_refl _, hresubscriptions, hpolls⟩
  | finalizing status => exact hc

private theorem resubscribes_eq_false (h : ∀ k, here ≠ .sleep k) : resubscribes here event here' = false := by
  cases here with
  | sleep k => exact absurd rfl (h k)
  | _ => rfl

private theorem settle_eq_arrive (h : ∀ k, here ≠ .sleep k) : c.settle here event here' = c.arrive here' := by
  unfold Counters.settle
  rw [resubscribes_eq_false h]
  rfl

/-- The backoff is over: the resubscription has been paid for. -/
theorem Goes.within_sleep {k : Nat} (h : Goes maxRetries (.sleep k) event here')
    (hc : Within maxRetries c (.sleep k : LoopAt N E)) :
    Within maxRetries (c.settle (.sleep k) event here') here' := by
  obtain ⟨hretries, hresubscriptions, hpolls⟩ := hc
  cases h with
  | subscribes => exact ⟨hretries, Nat.le_refl _, hresubscriptions, hpolls⟩
  | unsubscribed =>
    set paid : Counters := { c with resubscriptions := c.resubscriptions + 1 }
    have hpaid : c.resubscriptions + 1 ≤ c.delivered * maxRetries + maxRetries := by omega
    have hpolling : Polling maxRetries paid 0 := ⟨⟨hpaid, by rw [hpolls]; omega⟩, hpolls⟩
    exact hpolling.arrive (Nat.zero_le _)
  | lastResort h => simp at h
  | ends =>
    have hone := Bool.toNat_le (resubscribes (N := N) (.sleep k) event .ended)
    constructor
    · show c.resubscriptions + (resubscribes _ event _).toNat ≤ c.delivered * maxRetries + maxRetries
      omega
    · show c.polls + 0 ≤ maxRetries + 1
      omega

/-- No step leaves the budget. -/
theorem Goes.within (h : Goes maxRetries here event here') (hevent : yielded event = true)
    (hc : Within maxRetries c here) : Within maxRetries (c.settle here event here') here' := by
  by_cases hsleep : ∃ k, here = .sleep k
  · obtain ⟨k, rfl⟩ := hsleep
    exact h.within_sleep hc
  · have hnot : ∀ k, here ≠ .sleep k := fun k hk => hsleep ⟨k, hk⟩
    rw [settle_eq_arrive hnot]
    cases h with
    | @frame handle handle' k raw =>
      refine ⟨hc, fun hkind => ?_⟩
      simpa [yielded, hkind] using hevent
    | @stream handle k event here' h =>
      have horigin : WithinOrigin maxRetries c id (.stream handle k) := hc
      exact h.within horigin
    | failed h => exact h.within hc.1
    | changes => exact hc
    | handled h => exact h.within hc
    | updated h => exact h.within hc
    | gapEmitted => exact hc.arrive (Nat.zero_le _)
    | subscribes => exact absurd rfl (hnot _)
    | unsubscribed => exact absurd rfl (hnot _)
    | snapshot h => exact ⟨hc, fun hkind => absurd (h.symm.trans hkind) (by simp)⟩
    | @unpolled r event here' h =>
      have horigin : WithinOrigin maxRetries c id (.poll r) := hc
      exact h.within horigin
    | reconnects => exact hc
    | wakes => exact hc.1.arrive hc.2
    | @unfinalized r status event here' h =>
      have horigin : WithinOrigin maxRetries c id (.poll r) := hc
      exact h.within horigin
    | lastResort h => exact hc.bounded
    | ends h => exact hc.bounded

/-- An envelope that has been persisted opens a budget of its own. -/
theorem Within.deliver {origin : Origin} {raw : RawRuntimeEvent E} (emitted : List (CanonicalEvent N))
    (h : Within maxRetries c (.persist origin raw : LoopAt N E)) :
    Within maxRetries (c.deliver raw) (.committed origin raw emitted) := by
  obtain ⟨horigin, henvelope⟩ := h
  have hmore : c.delivered * maxRetries ≤ (c.delivered + raw.isEnvelope.toNat) * maxRetries :=
    Nat.mul_le_mul_right _ (Nat.le_add_right _ _)
  cases origin with
  | stream handle k =>
    obtain ⟨hretries, -, hresubscriptions, hpolls⟩ := horigin
    refine ⟨hretries, afterReset_le raw k, ?_, hpolls⟩
    show c.resubscriptions ≤ (c.delivered + raw.isEnvelope.toNat) * maxRetries + afterReset raw k
    rw [id] at hresubscriptions
    by_cases hkind : raw.kind = .streamEnvelope
    · rw [henvelope hkind, Bool.toNat_true, Nat.add_one_mul]
      omega
    · rw [afterReset, if_neg hkind]
      omega
  | poll r =>
    obtain ⟨⟨hresubscriptions, hpolls⟩, hcount⟩ := horigin
    refine ⟨⟨?_, hpolls⟩, hcount⟩
    show c.resubscriptions ≤ (c.delivered + raw.isEnvelope.toNat) * maxRetries + maxRetries
    omega

/-! ### The runs -/

variable {config : StreamConfig} {s t : State N E}

/-- The counters keep to the budget, and the steps to the frames. -/
structure Kept (config : StreamConfig) (s : State N E) : Prop where
  within : Within config.streamMaxRetries s.calls s.here
  steps : s.steps + stepsLeft config.streamMaxRetries s.here ≤ (s.frames + 1) * stepsPerFrame config.streamMaxRetries

private theorem Kept.opened {loop : ActiveStream × LoopAt N E}
    (h : Within config.streamMaxRetries (Counters.arrive {} loop.2) loop.2) : Kept config (State.opened loop) := by
  refine ⟨h, ?_⟩
  have hle := stepsLeft_le config.streamMaxRetries loop.2
  simp only [State.opened]
  omega

private theorem Kept.start (h : (machine config).start s) : Kept config s := by
  obtain ⟨resumeFromSeq, resumeFromEnvelopeOrdinal, sessionHandle, pollOnly, rfl⟩ := h
  apply Kept.opened
  have hfirst : Polling config.streamMaxRetries {} 0 := ⟨⟨Nat.zero_le _, Nat.zero_le _⟩, rfl⟩
  have hpoll : Within (N := N) (E := E) config.streamMaxRetries (Counters.arrive {} (.getSession 0 : LoopAt N E))
      (.getSession 0) := hfirst.arrive (Nat.zero_le _)
  unfold StreamConsumer.start
  cases sessionHandle with
  | none => exact hpoll
  | some handle =>
    cases pollOnly with
    | true => exact hpoll
    | false => exact ⟨Nat.zero_le _, Nat.le_refl _, Nat.zero_le _, rfl⟩

private theorem Goes.live (h : Goes maxRetries here event here') : here ≠ .ended := by
  cases h with
  | lastResort h => rcases h with rfl | ⟨r, rfl⟩ <;> simp
  | ends h => exact h
  | _ => simp

private theorem Kept.next {a : Action N E} (h : Kept config s) (hnext : next config s a = some t) : Kept config t := by
  obtain ⟨hwithin, hsteps⟩ := h
  cases a with
  | settles event =>
    simp only [RetryBudget.next] at hnext
    split at hnext
    next hevent =>
      obtain ⟨⟨marker, here⟩, hloop, rfl⟩ := Option.map_eq_some_iff.1 hnext
      have hgoes := goes_consumeLoop hloop
      refine ⟨hgoes.within hevent hwithin, ?_⟩
      simp only
      cases hframe : isFrame event with
      | true =>
        -- A frame may take the loop as far from its end as it can be.
        have hpos := stepsLeft_pos config.streamMaxRetries hgoes.live
        have hle := stepsLeft_le config.streamMaxRetries here
        rw [Bool.toNat_true, Nat.add_one_mul]
        omega
      | false =>
        have hless : stepsLeft config.streamMaxRetries here < stepsLeft config.streamMaxRetries s.here :=
          hgoes.stepsLeft_lt hframe
        simp only [Bool.toNat_false, Nat.add_zero]
        omega
    · cases hnext
  | commits emitted =>
    simp only [RetryBudget.next] at hnext
    split at hnext
    next origin raw hhere =>
      rw [← Option.some.inj hnext]
      rw [hhere] at hwithin hsteps
      refine ⟨hwithin.deliver emitted, ?_⟩
      cases origin <;> simp only [stepsLeft] at hsteps ⊢ <;> omega
    · cases hnext
  | stop =>
    rw [← Option.some.inj hnext]
    exact ⟨hwithin, hsteps⟩

/-- A loop that has not ended goes on once its promise has settled. -/
theorem exists_next (h : s.here ≠ .ended) : ∃ a : Action N E, a ≠ .stop ∧ (RetryBudget.next config s a).isSome := by
  obtain ⟨marker, here, calls, frames, steps⟩ := s
  cases here with
  | next handle k => exact ⟨.settles .done, by simp, rfl⟩
  | persist origin raw => exact ⟨.commits [], by simp, rfl⟩
  | committed origin raw emitted =>
    refine ⟨.settles .returned, by simp, ?_⟩
    simp only [RetryBudget.next, yielded, if_true, Option.isSome_map, consumeLoop]
    split <;> rfl
  | updateState origin raw state =>
    refine ⟨.settles .returned, by simp, ?_⟩
    simp only [RetryBudget.next, yielded, if_true, Option.isSome_map, consumeLoop]
    split <;> rfl
  | emitGap => exact ⟨.settles .returned, by simp, rfl⟩
  | sleep k => exact ⟨.settles .returned, by simp, rfl⟩
  | getSession r => exact ⟨.settles (.snapshot "" ""), by simp, rfl⟩
  | emitReconnecting r => exact ⟨.settles .returned, by simp, rfl⟩
  | sleepPoll r => exact ⟨.settles .returned, by simp, rfl⟩
  | finalizing status caught => exact ⟨.settles .returned, by simp, rfl⟩
  | ended => exact absurd rfl h

/-- While at most `E` envelopes are delivered and persisted, `consumeLoop` makes at most `(E + 1) * maxRetries`
resubscriptions and at most `maxRetries + 1` polls.  It ends: its steps are bounded by the frames that the streams
yield, and it has not ended only where it can take another one. -/
theorem consumeLoop_bounded (hs : (machine config).Reachable s) :
    s.calls.resubscriptions ≤ (s.calls.delivered + 1) * config.streamMaxRetries ∧
      s.calls.polls ≤ config.streamMaxRetries + 1 ∧
      s.steps ≤ (s.frames + 1) * stepsPerFrame config.streamMaxRetries ∧
      (s.here ≠ .ended → ∃ a : Action N E, a ≠ .stop ∧ ((machine config).next s a).isSome) := by
  have hkept : Kept config s := hs.invariant (fun _ => Kept.start) fun _ _ _ => Kept.next
  obtain ⟨hresubscriptions, hpolls⟩ := hkept.within.bounded
  have hsteps := hkept.steps
  refine ⟨?_, hpolls, by omega, exists_next⟩
  rw [Nat.add_one_mul]
  exact hresubscriptions

/-- A stream that opens and breaks without an envelope, twice, and two polls that fail. -/
theorem consumeLoop_bounded_opened :
    ∃ s : State (Option Rat) Nat, s.here = .ended ∧ s.calls = { resubscriptions := 1, polls := 2, delivered := 0 } ∧
      s.calls.resubscriptions ≤ (s.calls.delivered + 1) * 1 ∧ s.calls.polls ≤ 1 + 1 := by
  set opened : RawRuntimeEvent Nat := { kind := .streamStatus, receivedAt := "t", streamStatus := some "opened" }
  set actions : List (Action (Option Rat) Nat) :=
    [.settles (.frame opened), .commits [], .settles .returned, .settles .done, .settles .returned,
      .settles (.frame opened), .commits [], .settles .returned, .settles (.threw { message := "NOT_FOUND" }),
      .settles (.threw { message := "NOT_FOUND" }), .settles .returned, .settles .returned,
      .settles (.threw { message := "NOT_FOUND" }), .settles .returned]
  obtain ⟨s, hexec, hended, hcalls⟩ : ∃ s,
      (machine { streamMaxRetries := 1 }).exec (.opened (StreamConsumer.start 0 0 (some ⟨0, 0⟩) false)) actions =
        some s ∧ s.here = .ended ∧ s.calls = { resubscriptions := 1, polls := 2, delivered := 0 } := ⟨_, rfl, rfl, rfl⟩
  have hs : (machine { streamMaxRetries := 1 }).Reachable s := ⟨_, actions, ⟨0, 0, some ⟨0, 0⟩, false, rfl⟩, hexec⟩
  obtain ⟨hresubscriptions, hpolls, -⟩ := consumeLoop_bounded hs
  exact ⟨s, hended, hcalls, hresubscriptions, hpolls⟩

end RetryBudget

end MacpControlPlane

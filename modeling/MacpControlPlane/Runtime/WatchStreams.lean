import MacpControlPlane.Runs.SessionDiscovery
import MacpControlPlane.Runtime.ListSessions
import MacpControlPlane.Runtime.SubscribeSession

/-!
# The ambient watch streams (`RustRuntimeProvider.watchSessions`, `watchSignals`)

Both return an iterator that opens a call of its own, whose callbacks push what they make of the chunks.  Unlike that of
`subscribeSession`, the iterator is an object, so that `return` may run while a call of `next` is waiting: this is how
the loops over the streams are stopped on shutdown.

The two iterators are one machine, over what the callback for `data` pushes.
-/

namespace MacpControlPlane.WatchStream

open AsyncQueue Js SubscribeSession

variable {N Chunk α : Type}

/-! ### The iterator -/

/-- What `launch` finds once the credentials have been resolved. -/
inductive Launched where
  /-- The credentials, or the call itself, throw. -/
  | threw (error : ThrownValue)
  | opened

structure State (α : Type) where
  launched : Bool := false
  grpcCall : GrpcCall := .none
  /-- The callbacks are registered. -/
  listening : Bool := false
  reader : Reader α JsError := {}

inductive Action (N Chunk : Type) where
  | launch (launched : Launched)
  | data (now : Clock N) (chunk : Chunk)
  | error (err : JsError)
  | ended
  /-- The consumer calls `next`. -/
  | next
  /-- The microtask after a call of `next` has been notified. -/
  | resume
  /-- `return`, from the consumer or from outside. -/
  | returns

/-- `ended = true; streamError = null; notify()` -/
def stop (q : Queue α JsError) : Queue α JsError := { q with failure := none }.finish

def State.on (s : State α) (f : Queue α JsError → Queue α JsError) : State α := { s with reader := s.reader.on f }

/-- The rest of `launch`. -/
def State.launch (s : State α) : Launched → State α
  | .threw error => { s with launched := true }.on (·.fail error.toError)
  | .opened =>
    if s.reader.queue.ended then { s with launched := true, grpcCall := .cancelled }
    else { s with launched := true, grpcCall := .open, listening := true }

variable (onData : Clock N → Chunk → Option α)

def next (s : State α) : Action N Chunk → Option (State α)
  | .launch launched => if s.launched then none else some (s.launch launched)
  | .data now chunk =>
    if s.listening then
      some (match onData now chunk with
        | none => s
        | some event => s.on (·.push event))
    else none
  | .error err => if s.listening then some (s.on (·.fail err)) else none
  | .ended => if s.listening then some (s.on (·.finish)) else none
  | .next => s.reader.next.map fun reader => { s with reader }
  | .resume => s.reader.resume.map fun reader => { s with reader }
  | .returns => some ({ s with grpcCall := s.grpcCall.cancel }.on stop)

def machine : Machine (State α) (Action N Chunk) where
  start s := s = {}
  next := next onData

/-! ### Runs -/

/-- What the callback for `data` has pushed, in order. -/
def arrivals (as : List (Action N Chunk)) : List α :=
  as.filterMap fun
    | .data now chunk => onData now chunk
    | _ => none

/-- The end of the stream, an error, or `return`. -/
def Action.closes : Action N Chunk → Bool
  | .launch (.threw _) | .error _ | .ended | .returns => true
  | .launch .opened | .data _ _ | .next | .resume => false

def Action.isReturn : Action N Chunk → Bool
  | .returns => true
  | _ => false

/-- The error that the action leaves to the calls of `next`. -/
def Action.thrown? : Action N Chunk → Option JsError
  | .launch (.threw e) => some e.toError
  | .error err => some err
  | _ => none

/-- The call of `next` that is waiting goes on, or another one is made. -/
def State.read (s : State α) : Option (State α) :=
  next onData s (if s.reader.pending then .resume else .next : Action N Chunk)

/-- A call of `next` settles at once. -/
def Settles (s : State α) (P : Outcome α JsError → Prop) : Prop :=
  ∃ t outcome, s.read onData = some t ∧ t.reader.pending = false ∧ t.reader.settled = s.reader.settled ++ [outcome] ∧
    P outcome

variable {onData} {s t : State α} {as bs : List (Action N Chunk)} {a : Action N Chunk}

/-- What an action does. -/
inductive NextSpec (onData : Clock N → Chunk → Option α) (s : State α) : Action N Chunk → State α → Prop
  | threw {error} (hfirst : s.launched = false) : NextSpec onData s (.launch (.threw error))
      ({ s with launched := true }.on (·.fail error.toError))
  | late (hfirst : s.launched = false) (hended : s.reader.queue.ended = true) :
    NextSpec onData s (.launch .opened) { s with launched := true, grpcCall := .cancelled }
  | opened (hfirst : s.launched = false) (hended : s.reader.queue.ended = false) :
    NextSpec onData s (.launch .opened) { s with launched := true, grpcCall := .open, listening := true }
  | ignored {now chunk} (hevent : onData now chunk = none) : NextSpec onData s (.data now chunk) s
  | pushed {now chunk event} (hevent : onData now chunk = some event) :
    NextSpec onData s (.data now chunk) (s.on (·.push event))
  | error {err} : NextSpec onData s (.error err) (s.on (·.fail err))
  | ended : NextSpec onData s .ended (s.on (·.finish))
  | next {reader} (hreader : s.reader.next = some reader) : NextSpec onData s .next { s with reader }
  | resume {reader} (hreader : s.reader.resume = some reader) : NextSpec onData s .resume { s with reader }
  | returns : NextSpec onData s .returns ({ s with grpcCall := s.grpcCall.cancel }.on stop)

private theorem next_spec (h : next onData s a = some t) : NextSpec onData s a t := by
  cases a with
  | launch launched =>
    simp only [next] at h
    split at h
    · cases h
    next hfirst =>
      rw [Bool.not_eq_true] at hfirst
      cases launched with
      | threw error => exact Option.some.inj h ▸ .threw hfirst
      | opened =>
        cases hended : s.reader.queue.ended with
        | true =>
          simp only [State.launch, hended, if_true] at h
          exact Option.some.inj h ▸ .late hfirst hended
        | false =>
          simp only [State.launch, hended, Bool.false_eq_true, if_false] at h
          exact Option.some.inj h ▸ .opened hfirst hended
  | data now chunk =>
    simp only [next] at h
    split at h
    · cases hevent : onData now chunk with
      | none =>
        rw [hevent] at h
        exact Option.some.inj h ▸ .ignored hevent
      | some event =>
        rw [hevent] at h
        exact Option.some.inj h ▸ .pushed hevent
    · cases h
  | error err =>
    simp only [next] at h
    split at h
    · exact Option.some.inj h ▸ .error
    · cases h
  | ended =>
    simp only [next] at h
    split at h
    · exact Option.some.inj h ▸ .ended
    · cases h
  | next =>
    obtain ⟨reader, hreader, rfl⟩ := Option.map_eq_some_iff.1 h
    exact .next hreader
  | resume =>
    obtain ⟨reader, hreader, rfl⟩ := Option.map_eq_some_iff.1 h
    exact .resume hreader
  | returns => exact Option.some.inj h ▸ .returns

private theorem failure_round (r : Reader α JsError) : r.round.queue.failure = r.queue.failure := by
  cases hbuffer : r.queue.buffer with
  | cons a rest => rw [round_of_cons hbuffer]
  | nil =>
    cases hended : r.queue.ended with
    | true => rw [round_of_nil hbuffer hended]
    | false => rw [round_of_empty hbuffer hended]

/-- A round without an error to throw reads an event or the end, or waits. -/
theorem settled_round {r : Reader α JsError} (hfailure : r.queue.failure = none) :
    ∃ more, r.round.settled = r.settled ++ more ∧ ∀ outcome ∈ more, ∀ e, outcome ≠ .threw e := by
  cases hbuffer : r.queue.buffer with
  | cons a rest =>
    refine ⟨[.value a], by rw [round_of_cons hbuffer], fun outcome houtcome e => ?_⟩
    rw [List.mem_singleton.1 houtcome]
    exact nofun
  | nil =>
    cases hended : r.queue.ended with
    | true =>
      refine ⟨[r.queue.last], by rw [round_of_nil hbuffer hended], fun outcome houtcome e => ?_⟩
      rw [List.mem_singleton.1 houtcome, Queue.last, hfailure]
      exact nofun
    | false => exact ⟨[], by rw [round_of_empty hbuffer hended, List.append_nil], nofun⟩

/-- What holds after the actions `as`. -/
structure Kept (onData : Clock N → Chunk → Option α) (as : List (Action N Chunk)) (s : State α) : Prop where
  sound : Sound (arrivals onData as) s.reader
  ended : s.reader.queue.ended = as.any Action.closes
  unlaunched : s.launched = false → s.grpcCall = .none
  cancelled : as.any Action.isReturn = true → s.grpcCall ≠ .open

private theorem arrivals_concat (as : List (Action N Chunk)) (a : Action N Chunk) :
    arrivals onData (as ++ [a]) = arrivals onData as ++ arrivals onData [a] :=
  List.filterMap_append

private theorem sound_of_quiet {r : Reader α JsError} (h : Sound (arrivals onData as) r)
    (ha : arrivals onData [a] = []) : Sound (arrivals onData (as ++ [a])) r := by
  rw [arrivals_concat, ha, List.append_nil]
  exact h

private theorem sound_stop {arrived : List α} {r : Reader α JsError} (h : Sound arrived r) :
    Sound arrived (r.on stop) := by
  refine ⟨h.contents, by simp [Reader.on, stop, Queue.finish, Queue.notify], ?_⟩
  intro _ _
  exact Or.inr rfl

private theorem NextSpec.sound (hnext : NextSpec onData s a t) (h : Sound (arrivals onData as) s.reader) :
    Sound (arrivals onData (as ++ [a])) t.reader := by
  cases hnext with
  | threw | error => exact sound_of_quiet (h.fail _) rfl
  | late | opened => exact sound_of_quiet h rfl
  | ignored hevent => exact sound_of_quiet h (by simp [arrivals, hevent])
  | @pushed now chunk event hevent =>
    have harrived : arrivals onData [Action.data now chunk] = [event] := by simp [arrivals, hevent]
    rw [arrivals_concat, harrived]
    exact h.push event
  | ended => exact sound_of_quiet h.finish rfl
  | next hreader => exact sound_of_quiet (h.of_call (Or.inl hreader)).2 rfl
  | resume hreader => exact sound_of_quiet (h.of_call (Or.inr hreader)).2 rfl
  | returns => exact sound_of_quiet (sound_stop h) rfl

/-- An action that closes the queue leaves it ended, and one that does not leaves it as it is. -/
theorem NextSpec.ended_eq (hnext : NextSpec onData s a t) (h : Sound (arrivals onData as) s.reader) :
    t.reader.queue.ended = (s.reader.queue.ended || a.closes) := by
  cases hnext with
  | threw | error | ended | returns => exact (Bool.or_true _).symm
  | late | opened | ignored | pushed => exact (Bool.or_false _).symm
  | next hreader =>
    obtain ⟨rfl, -⟩ := h.of_call (Or.inl hreader)
    exact (ended_round _).trans (Bool.or_false _).symm
  | resume hreader =>
    obtain ⟨rfl, -⟩ := h.of_call (Or.inr hreader)
    exact (ended_round _).trans (Bool.or_false _).symm

private theorem Kept.next (h : Kept onData as s) (hnext : NextSpec onData s a t) : Kept onData (as ++ [a]) t := by
  refine ⟨hnext.sound h.sound, ?_, ?_, ?_⟩
  · rw [hnext.ended_eq h.sound, h.ended, List.any_append, List.any_cons, List.any_nil, Bool.or_false]
  · cases hnext with
    | threw | late | opened => exact nofun
    | returns =>
      intro hlaunched
      show s.grpcCall.cancel = _
      rw [h.unlaunched hlaunched]
      rfl
    | ignored | pushed | error | ended | next | resume => exact h.unlaunched
  · rw [List.any_append, List.any_cons, List.any_nil, Bool.or_false, Bool.or_eq_true]
    rintro (hbefore | hlast)
    · have hopen := h.cancelled hbefore
      cases hnext with
      | opened hfirst hopened =>
        -- `return` has ended the queue, and `launch` finds it ended.
        obtain ⟨b, hb, hreturn⟩ := List.any_eq_true.1 hbefore
        have hclosed : as.any Action.closes = true := by
          refine List.any_eq_true.2 ⟨b, hb, ?_⟩
          cases b <;> first | rfl | exact absurd hreturn nofun
        rw [h.ended, hclosed] at hopened
        cases hopened
      | returns =>
        show s.grpcCall.cancel ≠ _
        cases s.grpcCall <;> exact nofun
      | late => exact nofun
      | threw | ignored | pushed | error | ended | next | resume => exact hopen
    · cases hnext with
      | returns =>
        show s.grpcCall.cancel ≠ _
        cases s.grpcCall <;> exact nofun
      | threw | late | opened | ignored | pushed | error | ended | next | resume => exact absurd hlast nofun

private theorem Kept.start : Kept onData ([] : List (Action N Chunk)) ({} : State α) :=
  ⟨sound_empty, rfl, fun _ => rfl, nofun⟩

private theorem Kept.exec (h : Kept onData as s) (hexec : (machine onData).exec s bs = some t) :
    Kept onData (as ++ bs) t := by
  induction bs generalizing as s with
  | nil => simpa [← Option.some.inj hexec] using h
  | cons b bs ih =>
    obtain ⟨u, hu, hexec⟩ := Machine.exec_cons_eq_some.1 hexec
    rw [List.append_cons]
    exact ih (h.next (next_spec hu)) hexec

/-! ### What the consumer sees -/

private theorem read_eq (s : State α) : s.read onData = s.reader.read.map fun reader => { s with reader } := by
  unfold State.read Reader.read
  cases s.reader.pending <;> rfl

/-- An event that has arrived and has not been read is what a call of `next` settles with. -/
theorem Kept.settles_value (h : Kept onData as s) {event : α} {rest : List α}
    (harrived : arrivals onData as = s.reader.values ++ event :: rest) :
    Settles onData s fun outcome => outcome = .value event := by
  have hsound := h.sound
  rw [harrived] at hsound
  obtain ⟨reader, hread, hpending, hsettled⟩ := hsound.read_value
  exact ⟨{ s with reader }, .value event, by rw [read_eq, hread]; rfl, hpending, hsettled, rfl⟩

private theorem Kept.settles (h : Kept onData as s) (hcloses : as.any Action.closes = true) :
    Settles onData s fun _ => True := by
  obtain ⟨reader, outcome, hread, hpending, hsettled⟩ := h.sound.read_of_ended (h.ended.trans hcloses)
  exact ⟨{ s with reader }, outcome, by rw [read_eq, hread]; rfl, hpending, hsettled, trivial⟩

/-- In every order of callbacks, calls and `return`, also with a `return` while a call of `next` waits: the consumer has
got the events that have arrived, each once and in their order; a call settles at once with the next one where there is
one; and from the end of the stream or `return` on every call settles at once. -/
theorem watch_lossless (h : (machine onData).exec {} as = some s) :
    s.reader.values <+: arrivals onData as ∧
      (∀ event rest, arrivals onData as = s.reader.values ++ event :: rest →
        Settles onData s fun outcome => outcome = .value event) ∧
      (as.any Action.closes = true → Settles onData s fun _ => True) := by
  have hkept : Kept onData as s := Kept.start.exec h
  exact ⟨⟨_, hkept.sound.contents⟩, fun _ _ harrived => hkept.settles_value harrived, hkept.settles⟩

/-- The error that `next` would throw, if there is one, is that of an action since the last `return`. -/
theorem NextSpec.failure_eq_none (hnext : NextSpec onData s a t) (h : Sound (arrivals onData as) s.reader)
    (hfailure : s.reader.queue.failure = none) (ha : a.thrown? = none) : t.reader.queue.failure = none := by
  cases hnext with
  | threw | error => exact absurd ha nofun
  | late | opened | ignored | pushed | ended => exact hfailure
  | returns => rfl
  | next hreader =>
    obtain ⟨rfl, -⟩ := h.of_call (Or.inl hreader)
    exact (failure_round _).trans hfailure
  | resume hreader =>
    obtain ⟨rfl, -⟩ := h.of_call (Or.inr hreader)
    exact (failure_round _).trans hfailure

/-- What a step adds to what the calls have settled with, where there is no error to throw. -/
theorem NextSpec.settled_eq (hnext : NextSpec onData s a t) (h : Sound (arrivals onData as) s.reader)
    (hfailure : s.reader.queue.failure = none) :
    ∃ more, t.reader.settled = s.reader.settled ++ more ∧ ∀ outcome ∈ more, ∀ e, outcome ≠ .threw e := by
  cases hnext with
  | threw | late | opened | ignored | pushed | error | ended | returns => exact ⟨[], (List.append_nil _).symm, nofun⟩
  | next hreader =>
    obtain ⟨rfl, -⟩ := h.of_call (Or.inl hreader)
    exact settled_round hfailure
  | resume hreader =>
    obtain ⟨rfl, -⟩ := h.of_call (Or.inr hreader)
    exact settled_round hfailure

private theorem Kept.settled_exec (h : Kept onData as s) (hfailure : s.reader.queue.failure = none)
    (hquiet : ∀ b ∈ bs, b.thrown? = none) (hexec : (machine onData).exec s bs = some t) :
    ∃ more, t.reader.settled = s.reader.settled ++ more ∧ ∀ outcome ∈ more, ∀ e, outcome ≠ .threw e := by
  induction bs generalizing as s with
  | nil =>
    cases hexec
    exact ⟨[], (List.append_nil _).symm, nofun⟩
  | cons b bs ih =>
    obtain ⟨u, hu, hexec⟩ := Machine.exec_cons_eq_some.1 hexec
    have hspec := next_spec hu
    obtain ⟨hb, hbs⟩ := List.forall_mem_cons.1 hquiet
    obtain ⟨first, hfirst, hnone⟩ := hspec.settled_eq h.sound hfailure
    obtain ⟨rest, hrest, hnone'⟩ := ih (h.next hspec) (hspec.failure_eq_none h.sound hfailure hb) hbs hexec
    refine ⟨first ++ rest, by rw [hrest, hfirst, List.append_assoc], fun outcome houtcome => ?_⟩
    exact (List.mem_append.1 houtcome).elim (hnone outcome) (hnone' outcome)

/-- From `return` on, whenever it comes (before the call has been opened, with a call of `next` waiting, after the
stream has failed): the call is not open, nor will it be; a call of `next` settles at once; and unless the stream fails
again, none of them throws. -/
theorem watch_returned {before after : List (Action N Chunk)} {u : State α}
    (h : (machine onData).exec {} (before ++ [.returns]) = some s) (hafter : (machine onData).exec s after = some u) :
    u.grpcCall ≠ .open ∧ (Settles onData u fun _ => True) ∧
      ((∀ a ∈ after, a.thrown? = none) →
        ∃ more, u.reader.settled = s.reader.settled ++ more ∧ ∀ outcome ∈ more, ∀ e, outcome ≠ .threw e) := by
  have hs : Kept onData (before ++ [.returns]) s := Kept.start.exec h
  have hu := hs.exec hafter
  have hreturned : (before ++ [Action.returns] ++ after : List (Action N Chunk)).any Action.isReturn = true := by
    simp [Action.isReturn]
  have hclosed : (before ++ [Action.returns] ++ after : List (Action N Chunk)).any Action.closes = true := by
    simp [Action.closes]
  refine ⟨hu.cancelled hreturned, hu.settles hclosed, fun hquiet => hs.settled_exec ?_ hquiet hafter⟩
  obtain ⟨v, -, hv⟩ := Machine.exec_append_eq_some.1 h
  obtain ⟨w, hw, hs⟩ := Machine.exec_cons_eq_some.1 hv
  cases hs
  cases next_spec (show next onData v .returns = some s from hw)
  rfl

/-! ### What the two streams carry -/

/-- `event.eventType`, as the client may decode it. -/
inductive EventTypeRaw where
  | name (name : String)
  | number (n : Int)
  deriving DecidableEq

/-- `WatchSessions`: the `event` of a chunk. -/
structure SessionEventChunk where
  eventType : Option EventTypeRaw := none
  event_type : Option EventTypeRaw := none
  session : SessionMetadata := {}
  /-- A decimal string. -/
  observedAtUnixMs : Option String := none

/-- A `SessionLifecycleEvent`, with its time. -/
structure ObservedSessionEvent (N : Type) where
  eventType : SessionDiscovery.SessionLifecycleEventType
  session : TimedSessionSnapshot N
  observedAtUnixMs : N

/-- The name or the number of a type; what is neither counts as `created`. -/
def sessionEventType (raw : EventTypeRaw) : SessionDiscovery.SessionLifecycleEventType :=
  if raw = .name "EVENT_TYPE_RESOLVED" ∨ raw = .number 2 then .resolved
  else if raw = .name "EVENT_TYPE_EXPIRED" ∨ raw = .number 3 then .expired
  else if raw = .name "EVENT_TYPE_SUSPENDED" ∨ raw = .number 4 then .suspended
  else if raw = .name "EVENT_TYPE_RESUMED" ∨ raw = .number 5 then .resumed
  else if raw = .name "EVENT_TYPE_CANCELLED" ∨ raw = .number 6 then .cancelled
  else .created

def onSessionEvent [JsNumber N] (now : Clock N) (event : Option SessionEventChunk) : Option (ObservedSessionEvent N) :=
  event.map fun event =>
    { eventType := sessionEventType ((event.eventType.or event.event_type).getD (.name ""))
      session := fromSessionMetadata event.session
      observedAtUnixMs := ((event.observedAtUnixMs.filter (· ≠ "")).map JsNumber.parse).getD now.ms }

def watchSessions [JsNumber N] : Machine (State (ObservedSessionEvent N)) (Action N (Option SessionEventChunk)) :=
  machine onSessionEvent

/-- `WatchSignals`: a chunk, which may be the envelope itself. -/
structure SignalChunk where
  envelope : Option WireEnvelope := none
  signal : Option WireEnvelope := none
  self : Option WireEnvelope := none
  senderAuthenticated : Option Bool := none
  sender_authenticated : Option Bool := none

def onSignal [JsNumber N] (now : Clock N) (chunk : SignalChunk) :
    Option (RawRuntimeEvent (RuntimeEnvelope (List UInt8) N)) :=
  (((chunk.envelope.or chunk.signal).or chunk.self).filter (·.messageType ≠ "")).map fun rawEnvelope =>
    { kind := .streamEnvelope
      receivedAt := now.iso
      envelope := some (fromEnvelope now.ms rawEnvelope)
      senderAuthenticated := some (chunk.senderAuthenticated.or chunk.sender_authenticated = some true) }

def watchSignals [JsNumber N] :
    Machine (State (RawRuntimeEvent (RuntimeEnvelope (List UInt8) N))) (Action N SignalChunk) :=
  machine onSignal

/-- A signal arrives, and one of another session after it, while the consumer waits. -/
theorem watch_lossless_signals :
    let signal (id : String) : WireEnvelope :=
      { macpVersion := "1", mode := "m", messageType := "Signal", messageId := id, sessionId := "s", sender := "a" }
    ∃ s : State (RawRuntimeEvent (RuntimeEnvelope (List UInt8) (Option Rat))),
      (watchSignals (N := Option Rat)).exec {}
        [.next, .launch .opened, .data ⟨"t1", none⟩ { envelope := some (signal "m1") }, .resume,
          .data ⟨"t2", none⟩ {}, .data ⟨"t3", none⟩ { self := some (signal "m2") }] = some s ∧
      Settles (onSignal (N := Option Rat)) s fun outcome => outcome =
        .value { kind := .streamEnvelope, receivedAt := "t3", envelope := some (fromEnvelope none (signal "m2"))
                 senderAuthenticated := some false } := by
  intro signal
  obtain ⟨s, hexec, hvalues⟩ : ∃ s : State (RawRuntimeEvent (RuntimeEnvelope (List UInt8) (Option Rat))),
      (machine (onSignal (N := Option Rat))).exec {}
        [.next, .launch .opened, .data ⟨"t1", none⟩ { envelope := some (signal "m1") }, .resume,
          .data ⟨"t2", none⟩ {}, .data ⟨"t3", none⟩ { self := some (signal "m2") }] = some s ∧
      s.reader.values =
        [{ kind := .streamEnvelope, receivedAt := "t1", envelope := some (fromEnvelope none (signal "m1"))
           senderAuthenticated := some false }] := ⟨_, rfl, rfl⟩
  refine ⟨s, hexec, (watch_lossless hexec).2.1 _ [] ?_⟩
  rw [hvalues]
  rfl

/-- The module is destroyed while the loop waits for the first event, before the credentials have been resolved. -/
theorem watch_returned_early :
    ∃ u : State (ObservedSessionEvent (Option Rat)),
      (watchSessions (N := Option Rat)).exec {} [.next, .returns, .resume, .launch .opened] = some u ∧
        u.grpcCall ≠ .open ∧ Settles (onSessionEvent (N := Option Rat)) u fun _ => True := by
  obtain ⟨s, u, hs, hu⟩ : ∃ s u : State (ObservedSessionEvent (Option Rat)),
      (machine (onSessionEvent (N := Option Rat))).exec {} ([.next] ++ [.returns]) = some s ∧
        (machine (onSessionEvent (N := Option Rat))).exec s [.resume, .launch .opened] = some u := ⟨_, _, rfl, rfl⟩
  have hreturned := watch_returned hs hu
  exact ⟨u, Machine.exec_append_eq_some.2 ⟨s, hs, hu⟩, hreturned.1, hreturned.2.1⟩

end MacpControlPlane.WatchStream

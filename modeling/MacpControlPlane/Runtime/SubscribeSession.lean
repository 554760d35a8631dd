import MacpControlPlane.Events.EventNormalizer
import MacpControlPlane.Lib.AsyncQueue
import MacpControlPlane.Lib.Machine
import MacpControlPlane.Runs.RetryBudget

/-!
# The stream of one session (`RustRuntimeProvider.subscribeSession`)

`launch` resolves the credentials, opens the call, listens to it and writes the subscribe frame.  What the call brings
goes through a queue to the iterator that is returned.  The actions are the moments at which something runs: the
credentials have been resolved, a callback of the call, `abort`, and the calls of the one consumer, which awaits each
`next()` before it does anything else with the iterator.
-/

namespace MacpControlPlane

open AsyncQueue Js

variable {N : Type}

namespace SubscribeSession

/-- `Error` -/
structure JsError where
  message : String
  deriving DecidableEq, Repr

/-- A thrown value: an `Error`, or anything else with its text. -/
inductive ThrownValue where
  | error (error : JsError)
  | other (text : String)

/-- `error instanceof Error ? error : new Error(String(error))` -/
def ThrownValue.toError : ThrownValue → JsError
  | .error e => e
  | .other text => ⟨text⟩

/-- `MACPError`, as the client decodes it. -/
structure MacpError where
  code : Option String := none
  message : Option String := none
  sessionId : Option String := none
  messageId : Option String := none
  details : Option (List UInt8) := none
  deriving DecidableEq

/-- `Envelope`, as the client decodes it. -/
structure WireEnvelope where
  macpVersion : String
  mode : String
  messageType : String
  messageId : String
  sessionId : String
  sender : String
  timestampUnixMs : Option String := none
  payload : Option (List UInt8) := none
  deriving DecidableEq

structure ResponseBody where
  error : Option MacpError := none
  envelope : Option WireEnvelope := none
  deriving DecidableEq

/-- `chunk.response`: the name of the field of the `oneof` that is set, or an object that holds it. -/
inductive ChunkResponse where
  | field (name : String)
  | body (body : ResponseBody)
  deriving DecidableEq

structure Chunk extends ResponseBody where
  response : Option ChunkResponse := none
  deriving DecidableEq

/-- What is read of the clock. -/
structure Clock (N : Type) where
  /-- `new Date().toISOString()` -/
  iso : String
  /-- `Date.now()` -/
  ms : N

structure FullInlineError extends InlineError where
  sessionId : String
  messageId : String
  details : Option (List UInt8)
  deriving DecidableEq

/-- What `subscribeSession` yields. -/
inductive Frame (N : Type) where
  | opened (receivedAt : String)
  | inlineError (receivedAt : String) (inlineError : FullInlineError)
  | envelope (receivedAt : String) (envelope : RuntimeEnvelope (List UInt8) N)

/-- The frame as the consumers of the streams take it. -/
def Frame.raw : Frame N → RawRuntimeEvent (RuntimeEnvelope (List UInt8) N)
  | .opened receivedAt => { kind := .streamStatus, receivedAt, streamStatus := some "opened" }
  | .inlineError receivedAt e => { kind := .streamInlineError, receivedAt, inlineError := some e.toInlineError }
  | .envelope receivedAt e => { kind := .streamEnvelope, receivedAt, envelope := some e }

/-! ### The callbacks of the call -/

def fromEnvelope [JsNumber N] (ms : N) (envelope : WireEnvelope) : RuntimeEnvelope (List UInt8) N where
  macpVersion := envelope.macpVersion
  mode := envelope.mode
  messageType := envelope.messageType
  messageId := envelope.messageId
  sessionId := envelope.sessionId
  sender := envelope.sender
  timestampUnixMs := (envelope.timestampUnixMs.map JsNumber.parse).getD ms
  payload := envelope.payload.getD []

def Chunk.responseBody (chunk : Chunk) : ResponseBody :=
  match chunk.response with
  | some (.body body) => body
  | some (.field _) | none => chunk.toResponseBody

def inlineFrame (receivedAt : String) (error : MacpError) : Frame N :=
  .inlineError receivedAt
    { code := error.code.getD "UNKNOWN"
      message := error.message.getD ""
      sessionId := error.sessionId.getD ""
      messageId := error.messageId.getD ""
      details := error.details.filter (· ≠ []) }

/-- The frame that the callback for `data` pushes, if it does. -/
def onData [JsNumber N] (runtimeSessionId : String) (now : Clock N) (chunk : Chunk) : Option (Frame N) :=
  match chunk.responseBody.error with
  | some error => some (inlineFrame now.iso error)
  | none =>
    match chunk.responseBody.envelope.or chunk.envelope with
    | none => none
    | some rawEnvelope =>
      let envelope := fromEnvelope now.ms rawEnvelope
      if envelope.sessionId = "" ∨ envelope.sessionId ≠ runtimeSessionId then none
      else some (.envelope now.iso envelope)

/-! ### The machine -/

/-- What `launch` finds once the credentials have been resolved. -/
inductive Launched where
  /-- The credentials, or the call itself, throw. -/
  | threw (error : ThrownValue)
  /-- The call exists; `write` throws or not. -/
  | opened (writeError : Option ThrownValue)

inductive GrpcCall where
  /-- `grpcCall` is `null`. -/
  | none
  | open
  | cancelled
  deriving DecidableEq

structure State (N : Type) where
  launched : Bool := false
  grpcCall : GrpcCall := .none
  /-- The callbacks are registered. -/
  listening : Bool := false
  /-- `started`, with the clock at the first call of `next`. -/
  startedAt : Option String := Option.none
  reader : Reader (Frame N) JsError := {}

/-- What the calls of `next` have settled with. -/
def State.outcomes (s : State N) : List (Outcome (Frame N) JsError) :=
  (s.startedAt.map fun receivedAt => .value (.opened receivedAt)).toList ++ s.reader.settled

inductive Action (N : Type) where
  | launch (launched : Launched)
  | data (now : Clock N) (chunk : Chunk)
  | error (streamFailure : JsError)
  | ended
  | abort
  /-- The consumer calls `next`. -/
  | next (receivedAt : String)
  /-- The microtask after the promise of `waitForItem` has been resolved. -/
  | resume
  /-- The consumer calls `return`. -/
  | returns

def GrpcCall.cancel : GrpcCall → GrpcCall
  | .none => .none
  | .open | .cancelled => .cancelled

def State.on (s : State N) (f : Queue (Frame N) JsError → Queue (Frame N) JsError) : State N :=
  { s with reader := s.reader.on f }

/-- The rest of `launch`. -/
def State.launch (s : State N) : Launched → State N
  | .threw error => { s with launched := true }.on (·.fail error.toError)
  | .opened writeError =>
    if s.reader.queue.ended then { s with launched := true, grpcCall := .cancelled }
    else
      let s := { s with launched := true, grpcCall := .open, listening := true }
      match writeError with
      | none => s
      | some error => s.on (·.fail error.toError)

def next [JsNumber N] (runtimeSessionId : String) (s : State N) : Action N → Option (State N)
  | .launch launched => if s.launched then none else some (s.launch launched)
  | .data now chunk =>
    if s.listening then
      some (match onData runtimeSessionId now chunk with
        | none => s
        | some frame => s.on (·.push frame))
    else none
  | .error streamFailure => if s.listening then some (s.on (·.fail streamFailure)) else none
  | .ended => if s.listening then some (s.on (·.finish)) else none
  | .abort => some ({ s with grpcCall := s.grpcCall.cancel }.on (·.finish))
  | .next receivedAt =>
    match s.startedAt with
    | none => some { s with startedAt := some receivedAt }
    | some _ => s.reader.next.map fun reader => { s with reader }
  | .resume => s.reader.resume.map fun reader => { s with reader }
  | .returns =>
    if s.reader.pending then none else some ({ s with grpcCall := s.grpcCall.cancel }.on (·.close))

def machine [JsNumber N] (runtimeSessionId : String) : Machine (State N) (Action N) where
  start s := s = {}
  next := next runtimeSessionId

/-! ### Runs -/

/-- The inline errors and the envelopes of the session, in the order in which they arrive. -/
def arrivals [JsNumber N] (runtimeSessionId : String) (as : List (Action N)) : List (Frame N) :=
  as.filterMap fun
    | .data now chunk => onData runtimeSessionId now chunk
    | _ => none

/-- The end of the stream, an error, or the consumer being done. -/
def Action.closes : Action N → Bool
  | .launch (.threw _) | .launch (.opened (some _)) | .error _ | .ended | .abort | .returns => true
  | .launch (.opened none) | .data _ _ | .next _ | .resume => false

/-- The values that the calls of `next` have settled with. -/
def State.delivered (s : State N) : List (Frame N) := s.outcomes.filterMap Outcome.value?

/-- The call of `next` that is pending goes on, or another one is made. -/
def State.read [JsNumber N] (runtimeSessionId : String) (receivedAt : String) (s : State N) : Option (State N) :=
  next runtimeSessionId s (if s.reader.pending then .resume else .next receivedAt)

/-- The call settles at once, with such an outcome. -/
def Settles [JsNumber N] (runtimeSessionId : String) (s : State N) (P : Outcome (Frame N) JsError → Prop) : Prop :=
  ∀ receivedAt, ∃ t outcome, s.read runtimeSessionId receivedAt = some t ∧ t.reader.pending = false ∧
    t.outcomes = s.outcomes ++ [outcome] ∧ P outcome

variable [JsNumber N] {runtimeSessionId : String} {s t : State N} {as : List (Action N)} {a : Action N}

/-- What holds after the actions `as`. -/
structure Kept (runtimeSessionId : String) (as : List (Action N)) (s : State N) : Prop where
  sound : Sound (arrivals runtimeSessionId as) s.reader
  unstarted : s.startedAt = none → s.reader.settled = [] ∧ s.reader.pending = false
  ended : s.reader.queue.ended = as.any Action.closes

private theorem arrivals_append (as : List (Action N)) (a : Action N) :
    arrivals runtimeSessionId (as ++ [a]) = arrivals runtimeSessionId as ++ arrivals runtimeSessionId [a] :=
  List.filterMap_append

/-- An action that neither brings a frame nor closes the queue leaves the reader as it is, but for what is read. -/
theorem Kept.quiet (h : Kept runtimeSessionId as s) (ha : arrivals runtimeSessionId [a] = [])
    (hcloses : a.closes = false) (hreader : t.reader = s.reader) (hstarted : t.startedAt = none → s.startedAt = none) :
    Kept runtimeSessionId (as ++ [a]) t := by
  constructor
  · rw [arrivals_append, ha, List.append_nil, hreader]
    exact h.sound
  · rw [hreader]
    exact fun hnone => h.unstarted (hstarted hnone)
  · rw [hreader, h.ended, List.any_append, List.any_cons, hcloses]
    simp

/-- An action that closes the queue, with a notification or where none is needed. -/
theorem Kept.closed (h : Kept runtimeSessionId as s) (ha : arrivals runtimeSessionId [a] = [])
    (hcloses : a.closes = true) (hsound : Sound (arrivals runtimeSessionId as) t.reader)
    (hended : t.reader.queue.ended = true) (hpending : t.reader.pending = s.reader.pending)
    (hsettled : t.reader.settled = s.reader.settled) (hstarted : t.startedAt = s.startedAt) :
    Kept runtimeSessionId (as ++ [a]) t := by
  constructor
  · rw [arrivals_append, ha, List.append_nil]
    exact hsound
  · rw [hstarted, hsettled, hpending]
    exact h.unstarted
  · rw [hended, List.any_append, List.any_cons, hcloses]
    simp

private theorem Kept.launch (h : Kept runtimeSessionId as s) (launched : Launched) :
    Kept runtimeSessionId (as ++ [.launch launched]) (s.launch launched) := by
  cases launched with
  | threw error => exact h.closed rfl rfl (h.sound.fail _) rfl rfl rfl rfl
  | opened writeError =>
    simp only [State.launch]
    split
    next hended =>
      cases writeError with
      | none => exact h.quiet rfl rfl rfl id
      | some error => exact h.closed rfl rfl h.sound hended rfl rfl rfl
    · cases writeError with
      | none => exact h.quiet rfl rfl rfl id
      | some error => exact h.closed rfl rfl (h.sound.fail _) rfl rfl rfl rfl

private theorem Kept.data (h : Kept runtimeSessionId as s) {now : Clock N} {chunk : Chunk} {frame : Frame N}
    (hframe : onData runtimeSessionId now chunk = some frame) :
    Kept runtimeSessionId (as ++ [.data now chunk]) (s.on (·.push frame)) := by
  have harrived : arrivals runtimeSessionId [Action.data now chunk] = [frame] := by simp [arrivals, hframe]
  refine ⟨?_, h.unstarted, ?_⟩
  · rw [arrivals_append, harrived]
    exact h.sound.push frame
  · rw [List.any_append, ← h.ended]
    exact (Bool.or_false _).symm

/-- A call of `next` goes on, or is made after the first one. -/
theorem Kept.call (h : Kept runtimeSessionId as s) (ha : arrivals runtimeSessionId [a] = [])
    (hcloses : a.closes = false) {reader : Reader (Frame N) JsError}
    (hcall : s.reader.next = some reader ∨ s.reader.resume = some reader) (hstarted : s.startedAt ≠ none) :
    Kept runtimeSessionId (as ++ [a]) { s with reader } := by
  obtain ⟨rfl, hsound⟩ := h.sound.of_call hcall
  refine ⟨?_, fun hnone => absurd hnone hstarted, ?_⟩
  · rw [arrivals_append, ha, List.append_nil]
    exact hsound
  · rw [ended_round, h.ended, List.any_append, List.any_cons, hcloses]
    simp

private theorem Kept.next (h : Kept runtimeSessionId as s) (hnext : next runtimeSessionId s a = some t) :
    Kept runtimeSessionId (as ++ [a]) t := by
  cases a with
  | launch launched =>
    simp only [SubscribeSession.next] at hnext
    split at hnext
    · cases hnext
    · rw [← Option.some.inj hnext]
      exact h.launch launched
  | data now chunk =>
    simp only [SubscribeSession.next] at hnext
    split at hnext
    · rw [← Option.some.inj hnext]
      cases hframe : onData runtimeSessionId now chunk with
      | none => exact h.quiet (by simp [arrivals, hframe]) rfl rfl id
      | some frame => exact h.data hframe
    · cases hnext
  | error streamFailure =>
    simp only [SubscribeSession.next] at hnext
    split at hnext
    · rw [← Option.some.inj hnext]
      exact h.closed rfl rfl (h.sound.fail _) rfl rfl rfl rfl
    · cases hnext
  | ended =>
    simp only [SubscribeSession.next] at hnext
    split at hnext
    · rw [← Option.some.inj hnext]
      exact h.closed rfl rfl h.sound.finish rfl rfl rfl rfl
    · cases hnext
  | abort =>
    rw [← Option.some.inj hnext]
    exact h.closed rfl rfl h.sound.finish rfl rfl rfl rfl
  | next receivedAt =>
    simp only [SubscribeSession.next] at hnext
    split at hnext
    · rw [← Option.some.inj hnext]
      exact h.quiet rfl rfl rfl fun hnone => absurd hnone (by simp)
    next hstarted =>
      obtain ⟨reader, hreader, rfl⟩ := Option.map_eq_some_iff.1 hnext
      exact h.call rfl rfl (Or.inl hreader) (by simp [hstarted])
  | resume =>
    obtain ⟨reader, hreader, rfl⟩ := Option.map_eq_some_iff.1 hnext
    refine h.call rfl rfl (Or.inr hreader) ?_
    intro hnone
    simp [Reader.resume, (h.unstarted hnone).2] at hreader
  | returns =>
    simp only [SubscribeSession.next] at hnext
    split at hnext
    · cases hnext
    next hpending =>
      rw [← Option.some.inj hnext]
      exact h.closed rfl rfl (h.sound.close (by simpa using hpending)) rfl rfl rfl rfl

private theorem Kept.start : Kept runtimeSessionId [] ({} : State N) := ⟨sound_empty, fun _ => ⟨rfl, rfl⟩, rfl⟩

private theorem Kept.exec {bs : List (Action N)} (h : Kept runtimeSessionId as s)
    (hexec : (machine runtimeSessionId).exec s bs = some t) : Kept runtimeSessionId (as ++ bs) t := by
  induction bs generalizing as s with
  | nil => simpa [← Option.some.inj hexec] using h
  | cons b bs ih =>
    obtain ⟨u, hu, hexec⟩ := Machine.exec_cons_eq_some.1 hexec
    rw [List.append_cons]
    exact ih (h.next hu) hexec

/-! ### What the consumer sees -/

omit [JsNumber N] in
private theorem delivered_of_started {receivedAt : String} (h : s.startedAt = some receivedAt) :
    s.delivered = .opened receivedAt :: s.reader.values := by
  unfold State.delivered State.outcomes
  rw [h]
  rfl

private theorem Kept.outcomes_of_unstarted (h : Kept runtimeSessionId as s) (hnone : s.startedAt = none) :
    s.outcomes = [] := by
  unfold State.outcomes
  rw [hnone, (h.unstarted hnone).1]
  rfl

/-- Once the iteration has started, what the consumer does is done by the reader of the queue. -/
theorem read_of_started {receivedAt : String} (h : s.startedAt = some receivedAt) (receivedAt' : String) :
    s.read runtimeSessionId receivedAt' = s.reader.read.map fun reader => { s with reader } := by
  unfold State.read Reader.read
  cases hpending : s.reader.pending with
  | true => rfl
  | false => simp [SubscribeSession.next, h]

/-- What a step adds to the outcomes. -/
theorem Kept.next_outcomes (h : Kept runtimeSessionId as s)
    (hnext : SubscribeSession.next runtimeSessionId s a = some t) :
    t.outcomes = s.outcomes ∨ (s.startedAt = none ∧ ∃ receivedAt, t.outcomes = [.value (.opened receivedAt)]) ∨
      ∃ receivedAt, s.startedAt = some receivedAt ∧
        t.outcomes = .value (.opened receivedAt) :: s.reader.round.settled := by
  cases a with
  | next receivedAt =>
    simp only [SubscribeSession.next] at hnext
    split at hnext
    next hnone =>
      rw [← Option.some.inj hnext]
      refine Or.inr (Or.inl ⟨hnone, receivedAt, ?_⟩)
      simp [State.outcomes, (h.unstarted hnone).1]
    next startedAt hstarted =>
      obtain ⟨reader, hreader, rfl⟩ := Option.map_eq_some_iff.1 hnext
      obtain ⟨rfl, -⟩ := h.sound.of_call (Or.inl hreader)
      exact Or.inr (Or.inr ⟨startedAt, hstarted, by simp [State.outcomes, hstarted]⟩)
  | resume =>
    obtain ⟨reader, hreader, rfl⟩ := Option.map_eq_some_iff.1 hnext
    obtain ⟨rfl, -⟩ := h.sound.of_call (Or.inr hreader)
    cases hstarted : s.startedAt with
    | none => simp [Reader.resume, (h.unstarted hstarted).2] at hreader
    | some startedAt => exact Or.inr (Or.inr ⟨startedAt, rfl, by simp [State.outcomes]⟩)
  | launch launched =>
    left
    simp only [SubscribeSession.next] at hnext
    split at hnext
    · cases hnext
    · rw [← Option.some.inj hnext]
      cases launched with
      | threw error => rfl
      | opened writeError =>
        simp only [State.launch]
        split
        · rfl
        · cases writeError <;> rfl
  | data now chunk =>
    left
    simp only [SubscribeSession.next] at hnext
    split at hnext
    · rw [← Option.some.inj hnext]
      cases onData runtimeSessionId now chunk <;> rfl
    · cases hnext
  | error streamFailure =>
    left
    simp only [SubscribeSession.next] at hnext
    split at hnext
    · rw [← Option.some.inj hnext]
      rfl
    · cases hnext
  | ended =>
    left
    simp only [SubscribeSession.next] at hnext
    split at hnext
    · rw [← Option.some.inj hnext]
      rfl
    · cases hnext
  | abort =>
    left
    rw [← Option.some.inj hnext]
    rfl
  | returns =>
    left
    simp only [SubscribeSession.next] at hnext
    split at hnext
    · cases hnext
    · rw [← Option.some.inj hnext]
      rfl

/-- The calls of `next` have settled with `opened` and then with frames that have arrived, in their order. -/
theorem Kept.delivered (h : Kept runtimeSessionId as s) :
    s.outcomes = [] ∨ ∃ receivedAt yielded, s.delivered = .opened receivedAt :: yielded ∧
      yielded <+: arrivals runtimeSessionId as := by
  cases hstarted : s.startedAt with
  | none => exact Or.inl (h.outcomes_of_unstarted hstarted)
  | some receivedAt =>
    exact Or.inr ⟨receivedAt, s.reader.values, delivered_of_started hstarted, _, h.sound.contents⟩

/-- A frame that has arrived is what the consumer gets next. -/
theorem Kept.settles_value (h : Kept runtimeSessionId as s) {receivedAt : String} {yielded rest : List (Frame N)}
    {frame : Frame N} (hdelivered : s.delivered = .opened receivedAt :: yielded)
    (harrived : arrivals runtimeSessionId as = yielded ++ frame :: rest) :
    Settles runtimeSessionId s fun outcome => outcome = .value frame := by
  cases hstarted : s.startedAt with
  | none =>
    rw [State.delivered, h.outcomes_of_unstarted hstarted] at hdelivered
    cases hdelivered
  | some startedAt =>
    rw [delivered_of_started hstarted, List.cons.injEq] at hdelivered
    have hsound := h.sound
    rw [harrived, ← hdelivered.2] at hsound
    obtain ⟨reader, hread, hpending, hsettled⟩ := hsound.read_value
    intro receivedAt'
    refine ⟨{ s with reader }, .value frame, ?_, hpending, ?_, rfl⟩
    · rw [read_of_started hstarted, hread]
      rfl
    · simp [State.outcomes, hsettled]

/-- The end, or a failure, comes after every frame that has arrived. -/
theorem Kept.last (h : Kept runtimeSessionId as s) (hnext : SubscribeSession.next runtimeSessionId s a = some t)
    {outcome : Outcome (Frame N) JsError} (houtcomes : t.outcomes = s.outcomes ++ [outcome])
    (hlast : outcome.value? = none) :
    as.any Action.closes = true ∧ ∃ receivedAt, s.delivered = .opened receivedAt :: arrivals runtimeSessionId as := by
  rcases h.next_outcomes hnext with hsame | ⟨hnone, receivedAt, hopened⟩ | ⟨receivedAt, hstarted, hround⟩
  · rw [hsame] at houtcomes
    have hlength := congrArg List.length houtcomes
    simp at hlength
  · rw [h.outcomes_of_unstarted hnone, hopened] at houtcomes
    cases houtcomes
    cases hlast
  · have hsettled : s.reader.round.settled = s.reader.settled ++ [outcome] := by
      rw [hround] at houtcomes
      simpa [State.outcomes, hstarted] using houtcomes
    obtain ⟨hvalues, hended⟩ := h.sound.of_round_last hsettled hlast
    exact ⟨h.ended ▸ hended, receivedAt, hvalues ▸ delivered_of_started hstarted⟩

/-- After the end every call settles. -/
theorem Kept.settles (h : Kept runtimeSessionId as s) (hcloses : as.any Action.closes = true) :
    Settles runtimeSessionId s fun _ => True := by
  intro receivedAt
  cases hstarted : s.startedAt with
  | none =>
    obtain ⟨hsettled, hpending⟩ := h.unstarted hstarted
    refine ⟨{ s with startedAt := some receivedAt }, .value (.opened receivedAt), ?_, hpending, ?_, trivial⟩
    · simp [State.read, hpending, SubscribeSession.next, hstarted]
    · simp [State.outcomes, hstarted, hsettled]
  | some startedAt =>
    obtain ⟨reader, outcome, hread, hpending, hsettled⟩ := h.sound.read_of_ended (h.ended.trans hcloses)
    refine ⟨{ s with reader }, outcome, ?_, hpending, ?_, trivial⟩
    · rw [read_of_started hstarted, hread]
      rfl
    · simp [State.outcomes, hsettled]

/-- In every interleaving the consumer gets `opened` and then the frames that have arrived, each once and in their
order: one that has arrived is what the next call settles with, the end or a failure comes only once the stream has
ended and every frame has been read, and from the end on every call settles. -/
theorem subscribeSession_lossless {s₀ : State N} (h₀ : (machine runtimeSessionId).start s₀)
    (h : (machine runtimeSessionId).exec s₀ as = some s) :
    (s.outcomes = [] ∨ ∃ receivedAt yielded, s.delivered = .opened receivedAt :: yielded ∧
        yielded <+: arrivals runtimeSessionId as) ∧
      (∀ receivedAt yielded frame rest, s.delivered = .opened receivedAt :: yielded →
        arrivals runtimeSessionId as = yielded ++ frame :: rest →
          Settles runtimeSessionId s fun outcome => outcome = .value frame) ∧
      (∀ a t outcome, (machine runtimeSessionId).next s a = some t → t.outcomes = s.outcomes ++ [outcome] →
        outcome.value? = none → as.any Action.closes = true ∧
          ∃ receivedAt, s.delivered = .opened receivedAt :: arrivals runtimeSessionId as) ∧
      (as.any Action.closes = true → Settles runtimeSessionId s fun _ => True) := by
  cases h₀
  have hkept : Kept runtimeSessionId as s := Kept.start.exec h
  refine ⟨hkept.delivered, ?_, ?_, hkept.settles⟩
  · intro receivedAt yielded frame rest hdelivered harrived
    exact hkept.settles_value hdelivered harrived
  · intro a t outcome hnext houtcomes hlast
    exact hkept.last hnext houtcomes hlast

/-- A foreign envelope, one for which a call of `next` waits, and an inline error that is still in the buffer when the
stream fails: the next call settles with the inline error. -/
theorem subscribeSession_lossless_failure :
    ∃ s : State (Option Rat), s.reader.queue.failure = some ⟨"UNAVAILABLE"⟩ ∧
      s.delivered.map (·.raw.kind) = [.streamStatus, .streamEnvelope] ∧
        Settles "s1" s fun outcome => outcome = .value (inlineFrame "t4" { code := some "INVALID_ENVELOPE" }) := by
  set foreign : Chunk := { envelope := some ⟨"1", "m", "Vote", "m1", "s2", "a", none, none⟩ }
  set own : WireEnvelope := ⟨"1", "m", "Vote", "m2", "s1", "a", none, none⟩
  set refused : MacpError := { code := some "INVALID_ENVELOPE" }
  set actions : List (Action (Option Rat)) :=
    [.launch (.opened none), .next "t0", .next "t1", .data ⟨"t2", none⟩ foreign,
      .data ⟨"t3", none⟩ { envelope := some own }, .resume, .data ⟨"t4", none⟩ { error := some refused },
      .error ⟨"UNAVAILABLE"⟩]
  obtain ⟨s, hexec, hfailure, hdelivered⟩ : ∃ s, (machine "s1").exec {} actions = some s ∧
      s.reader.queue.failure = some ⟨"UNAVAILABLE"⟩ ∧
        s.delivered = [.opened "t0", .envelope "t3" (fromEnvelope none own)] := ⟨_, rfl, rfl, rfl⟩
  obtain ⟨-, hvalue, -, -⟩ := subscribeSession_lossless rfl hexec
  have harrived : arrivals "s1" actions = [.envelope "t3" (fromEnvelope none own)] ++ inlineFrame "t4" refused :: [] :=
    rfl
  refine ⟨s, hfailure, ?_, hvalue "t0" _ _ _ hdelivered harrived⟩
  rw [hdelivered]
  rfl

end SubscribeSession

end MacpControlPlane

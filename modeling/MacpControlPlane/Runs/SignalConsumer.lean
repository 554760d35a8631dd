import MacpControlPlane.Runs.EnvelopeIngestion
import MacpControlPlane.Runtime.WatchStreams

/-!
# The signal consumer (`runs/signal-consumer.service.ts`)

Signals do not come on the stream of a session but on one stream for all of them.  The consumer finds out to which run
an envelope belongs and persists it there, next to the consumer of the session, which counts the envelopes of its own
stream.  The state has the runs that sessions belong to, which other services bind at any time.
-/

namespace MacpControlPlane.SignalConsumer

open Js EventNormalizer EnvelopeIngestion

variable {B N : Type}

/-- What `watchSignals` yields. -/
abbrev Raw (B N : Type) := RawRuntimeEvent (RuntimeEnvelope B N)

/-- The session of an envelope: its own, or else the one that its payload is correlated with. -/
def sessionIdOf (codec : Codec B N) (envelope : RuntimeEnvelope B N) : Option String :=
  let decoded := (ProtoRegistry.decodeKnown codec "macp.v1" envelope.messageType envelope.payload).map Json.obj
  let correlated := asString (coalesce (field decoded "correlationSessionId") (field decoded "correlation_session_id"))
  let sessionId := if envelope.sessionId ≠ "" then envelope.sessionId else correlated.getD ""
  if sessionId = "" then none else some sessionId

/-- The envelope and the session of an event that the loop does not skip. -/
def route (codec : Codec B N) (raw : Raw B N) : Option (RuntimeEnvelope B N × String) :=
  if raw.kind = .streamEnvelope then
    raw.envelope.bind fun envelope => (sessionIdOf codec envelope).map (envelope, ·)
  else none

/-- What the libraries make up for a transaction: the ids, and the span of the run. -/
structure TxnIds where
  rawId : String
  randomUUID : Nat → String
  runCtx : Option TraceRef
  uuid : Nat → String

structure Commit (B N : Type) where
  runId : String
  raw : Raw B N
  envelope : RuntimeEnvelope B N
  ids : TxnIds

inductive Loop (B N : Type) where
  /-- At the head of `startConsumeLoop`. -/
  | connecting
  /-- `next` of the iterator has been called. -/
  | waiting
  /-- `findByRuntimeSessionId` -/
  | lookingUp (raw : Raw B N) (envelope : RuntimeEnvelope B N) (sessionId : String)
  /-- `persistRawAndCanonical` -/
  | persisting (raw : Raw B N) (envelope : RuntimeEnvelope B N) (runId : String)
  | backingOff
  | returned

structure State (B N : Type) where
  aborted : Bool := false
  loop : Loop B N := .connecting
  /-- `runtime_session_id` and `id` of the runs. -/
  runs : List (String × String) := []
  /-- What the iterators have yielded. -/
  delivered : List (Raw B N) := []
  commits : List (Commit B N) := []

inductive Action (B N : Type) where
  /-- A session becomes that of a run. -/
  | bind (sessionId runId : String)
  | connect
  | deliver (raw : Raw B N)
  | streamEnds
  /-- The stream throws; `immediately` is `watchReconnectDelay(…).delayMs === 0`. -/
  | streamThrows (immediately : Bool)
  /-- The timer, or `reconnectResolve`. -/
  | wake
  | find (runId : Option String)
  | findThrows
  | persist (ids : TxnIds)
  /-- `persistRawAndCanonical` throws; `ids` if the transaction has committed all the same. -/
  | persistThrows (ids : Option TxnIds)
  /-- `onModuleDestroy` -/
  | destroy

def State.commit (s : State B N) (raw : Raw B N) (envelope : RuntimeEnvelope B N) (runId : String) (ids : TxnIds) :
    State B N :=
  { s with loop := .waiting, commits := s.commits ++ [⟨runId, raw, envelope, ids⟩] }

def next (codec : Codec B N) (s : State B N) : Action B N → Option (State B N)
  | .bind sessionId runId => some { s with runs := s.runs ++ [(sessionId, runId)] }
  | .connect =>
    match s.loop with
    | .connecting => some { s with loop := if s.aborted then .returned else .waiting }
    | _ => none
  | .deliver raw =>
    match s.loop with
    | .waiting =>
      if s.aborted then some { s with loop := .returned }
      else
        match route codec raw with
        | some (envelope, sessionId) =>
          some { s with loop := .lookingUp raw envelope sessionId, delivered := s.delivered ++ [raw] }
        | none => some { s with delivered := s.delivered ++ [raw] }
    | _ => none
  | .streamEnds =>
    match s.loop with
    | .waiting => some { s with loop := .connecting }
    | _ => none
  | .streamThrows immediately =>
    match s.loop with
    | .waiting =>
      some { s with loop := if s.aborted then .returned else if immediately then .connecting else .backingOff }
    | _ => none
  | .wake =>
    match s.loop with
    | .backingOff => some { s with loop := .connecting }
    | _ => none
  | .find runId =>
    match s.loop, runId with
    | .lookingUp raw envelope sessionId, some runId =>
      if (sessionId, runId) ∈ s.runs then some { s with loop := .persisting raw envelope runId } else none
    | .lookingUp _ _ sessionId, none =>
      if sessionId ∈ s.runs.map Prod.fst then none else some { s with loop := .waiting }
    | _, _ => none
  | .findThrows =>
    match s.loop with
    | .lookingUp _ _ _ => some { s with loop := .waiting }
    | _ => none
  | .persist ids =>
    match s.loop with
    | .persisting raw envelope runId => some (s.commit raw envelope runId ids)
    | _ => none
  | .persistThrows ids =>
    match s.loop with
    | .persisting raw envelope runId =>
      some (match ids with
        | some ids => s.commit raw envelope runId ids
        | none => { s with loop := .waiting })
    | _ => none
  | .destroy => some { s with aborted := true }

def machine (codec : Codec B N) : Machine (State B N) (Action B N) where
  start s := s = {}
  next := next codec

/-! ### What a step does -/

/-- The event that the loop is busy with. -/
def Loop.inFlight : Loop B N → Option (Raw B N)
  | .lookingUp raw _ _ | .persisting raw _ _ => some raw
  | _ => none

/-- The action ends the handling of an event without a commit. -/
def Action.drops : Action B N → Bool
  | .find none | .findThrows | .persistThrows none => true
  | _ => false

variable {codec : Codec B N} {s t : State B N} {a : Action B N} {as bs : List (Action B N)}

inductive NextSpec (codec : Codec B N) (s : State B N) : Action B N → State B N → Prop
  | bound {sessionId runId} :
    NextSpec codec s (.bind sessionId runId) { s with runs := s.runs ++ [(sessionId, runId)] }
  | moved {a loop} (hidle : s.loop.inFlight = none) (hloop : loop = .connecting ∨ loop = .waiting ∨ loop = .backingOff ∨
      loop = .returned) :
    NextSpec codec s a { s with loop }
  | skipped {raw} (hloop : s.loop = .waiting) (hroute : route codec raw = none) :
    NextSpec codec s (.deliver raw) { s with delivered := s.delivered ++ [raw] }
  | routed {raw envelope sessionId} (hloop : s.loop = .waiting) (haborted : s.aborted = false)
    (hroute : route codec raw = some (envelope, sessionId)) :
    NextSpec codec s (.deliver raw)
      { s with loop := .lookingUp raw envelope sessionId, delivered := s.delivered ++ [raw] }
  | found {raw envelope sessionId runId} (hloop : s.loop = .lookingUp raw envelope sessionId)
    (hrun : (sessionId, runId) ∈ s.runs) :
    NextSpec codec s (.find (some runId)) { s with loop := .persisting raw envelope runId }
  | dropped {a raw} (hloop : s.loop.inFlight = some raw) (hdrops : a.drops = true) :
    NextSpec codec s a { s with loop := .waiting }
  | committed {a raw envelope runId ids} (hloop : s.loop = .persisting raw envelope runId) :
    NextSpec codec s a (s.commit raw envelope runId ids)
  | destroyed : NextSpec codec s .destroy { s with aborted := true }

private theorem next_spec (h : next codec s a = some t) : NextSpec codec s a t := by
  cases a with
  | bind sessionId runId => exact Option.some.inj h ▸ .bound
  | connect =>
    simp only [next] at h
    split at h
    next hloop =>
      rw [← Option.some.inj h]
      refine .moved (by rw [hloop]; rfl) ?_
      cases s.aborted
      · exact .inr (.inl rfl)
      · exact .inr (.inr (.inr rfl))
    · cases h
  | deliver raw =>
    simp only [next] at h
    split at h
    next hloop =>
      cases haborted : s.aborted with
      | true =>
        rw [haborted, if_pos rfl] at h
        exact Option.some.inj h ▸ haborted ▸ .moved (by rw [hloop]; rfl) (.inr (.inr (.inr rfl)))
      | false =>
        simp only [haborted, Bool.false_eq_true, if_false] at h
        cases hroute : route codec raw with
        | none =>
          simp only [hroute] at h
          exact Option.some.inj h ▸ haborted ▸ .skipped hloop hroute
        | some routed =>
          simp only [hroute] at h
          have hspec := NextSpec.routed hloop haborted hroute
          exact Option.some.inj h ▸ haborted ▸ hspec
    · cases h
  | streamEnds =>
    simp only [next] at h
    split at h
    next hloop => exact Option.some.inj h ▸ .moved (by rw [hloop]; rfl) (.inl rfl)
    · cases h
  | streamThrows immediately =>
    simp only [next] at h
    split at h
    next hloop =>
      rw [← Option.some.inj h]
      refine .moved (by rw [hloop]; rfl) ?_
      cases s.aborted
      · cases immediately
        · exact .inr (.inr (.inl rfl))
        · exact .inl rfl
      · exact .inr (.inr (.inr rfl))
    · cases h
  | wake =>
    simp only [next] at h
    split at h
    next hloop => exact Option.some.inj h ▸ .moved (by rw [hloop]; rfl) (.inl rfl)
    · cases h
  | find runId =>
    simp only [next] at h
    split at h
    next raw envelope sessionId runId hloop =>
      split at h
      next hrun => exact Option.some.inj h ▸ .found hloop hrun
      · cases h
    next raw envelope sessionId hloop =>
      split at h
      · cases h
      · exact Option.some.inj h ▸ .dropped (by rw [hloop]; rfl) rfl
    · cases h
  | findThrows =>
    simp only [next] at h
    split at h
    next raw envelope sessionId hloop => exact Option.some.inj h ▸ .dropped (by rw [hloop]; rfl) rfl
    · cases h
  | persist ids =>
    simp only [next] at h
    split at h
    next raw envelope runId hloop => exact Option.some.inj h ▸ .committed hloop
    · cases h
  | persistThrows ids =>
    simp only [next] at h
    split at h
    next raw envelope runId hloop =>
      cases ids with
      | none => exact Option.some.inj h ▸ .dropped (by rw [hloop]; rfl) rfl
      | some ids => exact Option.some.inj h ▸ .committed hloop
    · cases h
  | destroy => exact Option.some.inj h ▸ .destroyed

/-! ### Where signals go -/

/-- The run is that of the session that the event belongs to. -/
def State.Belongs (codec : Codec B N) (s : State B N) (raw : Raw B N) (envelope : RuntimeEnvelope B N)
    (runId : String) : Prop :=
  ∃ sessionId, route codec raw = some (envelope, sessionId) ∧ (sessionId, runId) ∈ s.runs

/-- The events that are not skipped, in order. -/
def State.routable (codec : Codec B N) (s : State B N) : List (Raw B N) :=
  s.delivered.filter fun raw => (route codec raw).isSome

/-- The events that have been committed, and the one that is on its way. -/
def State.handled (s : State B N) : List (Raw B N) := s.commits.map Commit.raw ++ s.loop.inFlight.toList

structure Inv (codec : Codec B N) (s : State B N) : Prop where
  lookingUp : ∀ raw envelope sessionId, s.loop = .lookingUp raw envelope sessionId →
    route codec raw = some (envelope, sessionId)
  persisting : ∀ raw envelope runId, s.loop = .persisting raw envelope runId → s.Belongs codec raw envelope runId
  commits : ∀ c ∈ s.commits, s.Belongs codec c.raw c.envelope c.runId
  order : s.handled.Sublist (s.routable codec)

private theorem routable_concat (s t : State B N) (raw : Raw B N) (h : t.delivered = s.delivered ++ [raw]) :
    t.routable codec = s.routable codec ++ if (route codec raw).isSome then [raw] else [] := by
  rw [State.routable, h, List.filter_append, List.filter_singleton]
  cases (route codec raw).isSome <;> rfl

private theorem handled_of_idle (h : s.loop.inFlight = none) : s.handled = s.commits.map Commit.raw := by
  rw [State.handled, h, Option.toList_none, List.append_nil]

private theorem handled_commit (s : State B N) (raw : Raw B N) (envelope : RuntimeEnvelope B N) (runId : String)
    (ids : TxnIds) : (s.commit raw envelope runId ids).handled = s.commits.map Commit.raw ++ [raw] := by
  have hidle : (s.commit raw envelope runId ids).loop.inFlight = none := rfl
  rw [handled_of_idle hidle]
  exact List.map_append

private theorem inFlight_of_cases {loop : Loop B N}
    (h : loop = .connecting ∨ loop = .waiting ∨ loop = .backingOff ∨ loop = .returned) : loop.inFlight = none := by
  rcases h with rfl | rfl | rfl | rfl <;> rfl

private theorem inv_of_idle (hidle : s.loop.inFlight = none)
    (hcommits : ∀ c ∈ s.commits, s.Belongs codec c.raw c.envelope c.runId)
    (horder : s.handled.Sublist (s.routable codec)) : Inv codec s := by
  refine ⟨fun raw envelope sessionId hloop => ?_, fun raw envelope runId hloop => ?_, hcommits, horder⟩
  · rw [hloop] at hidle
    cases hidle
  · rw [hloop] at hidle
    cases hidle

private theorem Inv.step (hs : Inv codec s) (h : NextSpec codec s a t) : Inv codec t := by
  have horder := hs.order
  cases h with
  | @bound sessionId runId =>
    have hmono : ∀ raw envelope run, s.Belongs codec raw envelope run →
        State.Belongs codec { s with runs := s.runs ++ [(sessionId, runId)] } raw envelope run :=
      fun _ _ _ ⟨id, hroute, hmem⟩ => ⟨id, hroute, List.mem_append_left _ hmem⟩
    exact ⟨hs.lookingUp, fun raw envelope run hloop => hmono _ _ _ (hs.persisting raw envelope run hloop),
      fun c hc => hmono _ _ _ (hs.commits c hc), horder⟩
  | @moved _ loop hidle hloop =>
    have hnone : loop.inFlight = none := inFlight_of_cases hloop
    refine inv_of_idle hnone hs.commits ?_
    rw [handled_of_idle hidle] at horder
    rw [handled_of_idle (s := { s with loop }) hnone]
    exact horder
  | @skipped raw hloop hroute =>
    refine ⟨hs.lookingUp, hs.persisting, hs.commits, ?_⟩
    rw [routable_concat s { s with delivered := s.delivered ++ [raw] } raw rfl, hroute]
    exact horder.trans (List.sublist_append_left _ _)
  | @routed raw envelope sessionId hloop haborted hroute =>
    refine ⟨fun _ _ _ hlooking => ?_, fun _ _ _ hpersisting => ?_, hs.commits, ?_⟩
    · cases hlooking
      exact hroute
    · cases hpersisting
    · rw [routable_concat s _ raw rfl, hroute]
      rw [handled_of_idle (by rw [hloop]; rfl)] at horder
      exact horder.append (List.Sublist.refl [raw])
  | @found raw envelope sessionId runId hloop hrun =>
    refine ⟨fun _ _ _ hlooking => ?_, fun _ _ _ hpersisting => ?_, hs.commits, ?_⟩
    · cases hlooking
    · cases hpersisting
      exact ⟨sessionId, hs.lookingUp raw envelope sessionId hloop, hrun⟩
    · rw [State.handled, hloop] at horder
      exact horder
  | @dropped _ raw hloop =>
    refine inv_of_idle rfl hs.commits ?_
    rw [handled_of_idle (s := { s with loop := .waiting }) rfl]
    exact (List.sublist_append_left _ _).trans horder
  | @committed _ raw envelope runId ids hloop =>
    refine inv_of_idle rfl (fun c hc => ?_) ?_
    · rcases List.mem_append.1 hc with hc | hc
      · exact hs.commits c hc
      · rw [List.mem_singleton.1 hc]
        exact hs.persisting raw envelope runId hloop
    · rw [State.handled, hloop] at horder
      rw [handled_commit]
      exact horder
  | destroyed => exact ⟨hs.lookingUp, hs.persisting, hs.commits, horder⟩

private theorem inv_start (codec : Codec B N) : Inv codec ({} : State B N) :=
  inv_of_idle rfl (fun _ h => absurd h List.not_mem_nil) (List.Sublist.refl [])

private theorem inv_of_exec (h : (machine codec).exec {} as = some s) : Inv codec s :=
  Machine.exec_invariant (fun _ _ _ hs ha => hs.step (next_spec ha)) (inv_start codec) h

/-- Where no step drops an event, nothing that is not skipped is left out. -/
theorem handled_step (hs : s.handled = s.routable codec) (hkept : a.drops = false) (h : NextSpec codec s a t) :
    t.handled = t.routable codec := by
  cases h with
  | bound | destroyed => exact hs
  | @moved _ loop hidle hloop =>
    rw [handled_of_idle hidle] at hs
    rw [handled_of_idle (s := { s with loop }) (inFlight_of_cases hloop)]
    exact hs
  | @skipped raw hloop hroute =>
    rw [routable_concat s { s with delivered := s.delivered ++ [raw] } raw rfl, hroute]
    exact hs.trans (List.append_nil _).symm
  | @routed raw envelope sessionId hloop haborted hroute =>
    rw [handled_of_idle (by rw [hloop]; rfl)] at hs
    rw [routable_concat s _ raw rfl, hroute, ← hs]
    rfl
  | @found raw envelope sessionId runId hloop hrun =>
    rw [State.handled, hloop] at hs
    exact hs
  | dropped hloop hdrops =>
    rw [hkept] at hdrops
    cases hdrops
  | @committed _ raw envelope runId ids hloop =>
    rw [State.handled, hloop] at hs
    rw [handled_commit]
    exact hs

/-- However the streams end and reconnect, whatever fails and whichever runs are bound meanwhile: every event that is
committed is committed to the run of its session, in the order of the stream and none twice; and where no lookup or
transaction fails, none is left out. -/
theorem signals_committed (h : (machine codec).exec {} as = some s) :
    (∀ c ∈ s.commits, s.Belongs codec c.raw c.envelope c.runId) ∧ s.handled.Sublist (s.routable codec) ∧
      ((∀ a ∈ as, a.drops = false) → s.handled = s.routable codec) := by
  have hinv : Inv codec s := inv_of_exec h
  refine ⟨hinv.commits, hinv.order, fun hkept => ?_⟩
  have hthroughout : (machine codec).Throughout (fun _ a => a.drops = false) {} as :=
    Machine.throughout_of_forall (fun a ha _ => hkept a ha) _
  exact hthroughout.invariant (I := fun s => s.handled = s.routable codec)
    (fun _ _ _ hs hkept ha => handled_step hs hkept (next_spec ha)) rfl h

/-! ### Two sessions -/

/-- Payloads of no bytes: the message has no fields. -/
def emptyCodec : Codec (List UInt8) (Option Rat) where
  decodeMessage _ _ := some []
  isCanonicalProto _ payload := payload.isEmpty
  isEmpty := List.isEmpty
  toUtf8 _ := ""
  toBase64 _ := ""
  ofBase64 _ := []
  parseJson _ := none

def progress (sessionId sender : String) : SubscribeSession.WireEnvelope where
  macpVersion := "1.0"
  mode := ""
  messageType := "Progress"
  messageId := "m-" ++ sender
  sessionId := sessionId
  sender := sender

/-- The event of `watchSignals` for the envelope. -/
def yielded (envelope : SubscribeSession.WireEnvelope) : Raw (List UInt8) (Option Rat) where
  kind := .streamEnvelope
  receivedAt := "2026-10-24T00:00:00.000Z"
  envelope := some (SubscribeSession.fromEnvelope none envelope)
  senderAuthenticated := some true

private theorem onSignal_yielded {envelope : SubscribeSession.WireEnvelope} (h : envelope.messageType = "Progress") :
    WatchStream.onSignal ⟨"2026-10-24T00:00:00.000Z", none⟩
      { envelope := some envelope, senderAuthenticated := some true } = some (yielded envelope) := by
  simp [WatchStream.onSignal, yielded, h]

def exampleIds : TxnIds := ⟨"raw-1", fun _ => "event-1", none, fun _ => "event-2"⟩

/-- Two sessions report their progress, with an event without a session between them. -/
def twoSessions : List (Action (List UInt8) (Option Rat)) :=
  [.bind "session-1" "run-1", .connect, .deliver (yielded (progress "session-1" "a")), .bind "session-2" "run-2",
    .find (some "run-1"), .persist exampleIds, .deliver (yielded (progress "" "b")), .streamThrows true, .connect,
    .deliver (yielded (progress "session-2" "c")), .find (some "run-2"), .persist exampleIds]

theorem signals_committed_twoSessions : ∃ s : State (List UInt8) (Option Rat),
    (machine emptyCodec).exec {} twoSessions = some s ∧ s.commits.map Commit.runId = ["run-1", "run-2"] ∧
      (∀ c ∈ s.commits, s.Belongs emptyCodec c.raw c.envelope c.runId) ∧
      s.handled.Sublist (s.routable emptyCodec) ∧
      ((∀ a ∈ twoSessions, a.drops = false) → s.handled = s.routable emptyCodec) := by
  obtain ⟨s, hexec, hruns⟩ : ∃ s : State (List UInt8) (Option Rat),
      (machine emptyCodec).exec {} twoSessions = some s ∧ s.commits.map Commit.runId = ["run-1", "run-2"] :=
    ⟨_, rfl, rfl⟩
  exact ⟨s, hexec, hruns, signals_committed hexec⟩

/-! ### Next to the consumers of the sessions -/

private theorem runId_of_mem_messageEvents [JsNumber N] {msg : Incoming B N} {patterns : List (String → String)}
    {e : CanonicalEvent N} (h : e ∈ messageEvents msg codec patterns) : e.runId = msg.ctx.runId := by
  rcases mem_messageEvents_iff.1 h with rfl | ⟨_, -, rfl⟩ | ⟨_, -, rfl⟩ | htask | hpolicy | hprogress
  · rfl
  · rfl
  · rfl
  · rcases mem_taskEvents htask with ⟨_, -, rfl⟩ | rfl | rfl <;> rfl
  · rcases mem_policyEvents_iff.1 hpolicy with ⟨_, -, -, rfl⟩ | ⟨_, -, -, rfl⟩ | ⟨-, rfl⟩ <;> rfl
  · obtain ⟨-, rfl⟩ := mem_progressEvents_iff.1 hprogress
    rfl

private theorem runId_of_mem_normalizeEnvelope [JsNumber N] {patterns : List (String → String)} {ctx : EventContext}
    {known : List String} {envelope : RuntimeEnvelope B N} {senderAuthenticated : Option Bool} {e : CanonicalEvent N}
    (h : e ∈ (normalizeEnvelope codec patterns ctx known envelope senderAuthenticated).1) : e.runId = ctx.runId := by
  unfold normalizeEnvelope at h
  split at h
  · exact runId_of_mem_messageEvents h
  · rcases List.mem_cons.1 h with rfl | h
    · rfl
    · exact runId_of_mem_messageEvents h

/-- `persistRawAndCanonical` with what `normalize` makes of the envelope; there is no cursor. -/
def Commit.txn [JsNumber N] (codec : Codec B N) (patterns : List (String → String)) (c : Commit B N) :
    RunTxn N (RuntimeEnvelope B N) c.runId :=
  .persist c.ids.rawId c.raw
    (normalizeEnvelope codec patterns ⟨c.runId, c.raw.receivedAt, c.ids.randomUUID⟩ [] c.envelope
      c.raw.senderAuthenticated).1
    (fun _ h => runId_of_mem_normalizeEnvelope h) c.ids.runCtx c.ids.uuid none

private theorem senderAuthenticated_onSignal [JsNumber N] {now : SubscribeSession.Clock N}
    {chunk : WatchStream.SignalChunk} {raw : Raw (List UInt8) N} (h : WatchStream.onSignal now chunk = some raw) :
    raw.senderAuthenticated.isSome = true := by
  obtain ⟨_, -, rfl⟩ := Option.map_eq_some_iff.1 h
  rfl

private theorem storedEnvelopes_insertRaw {table : List (RawRow (RuntimeEnvelope B N))} {rawId : String} {seq : Nat}
    {raw : Raw B N} (h : raw.senderAuthenticated.isSome = true) :
    storedEnvelopes (EventRepository.insertRaw table (.ofEvent rawId seq raw)) = storedEnvelopes table := by
  have hnone : sessionEnvelope raw = none := by
    obtain ⟨b, hb⟩ := Option.isSome_iff_exists.1 h
    simp [sessionEnvelope, hb]
  unfold EventRepository.insertRaw
  split
  · rfl
  · rw [storedEnvelopes_append, storedEnvelopes_ofEvent, hnone, Option.toList_none, List.append_nil]

/-- What the consumer commits of the events that `watchSignals` yields is what the consumer of a session expects of
other services: it leaves the ordinal that the session resumes after, and the envelopes it counts, as they are. -/
theorem signals_apart [JsNumber N] {codec : Codec (List UInt8) N} {s : State (List UInt8) N}
    {as : List (Action (List UInt8) N)} (patterns : List (String → String))
    (hyields : ∀ raw, .deliver raw ∈ as → ∃ now chunk, WatchStream.onSignal now chunk = some raw)
    (h : (machine codec).exec {} as = some s) :
    ∀ c ∈ s.commits, ofOthers (c.txn codec patterns) = true ∧
      ∀ d : RunData N (RuntimeEnvelope (List UInt8) N),
        ((c.txn codec patterns).program.apply d).session = d.session ∧
          storedEnvelopes ((c.txn codec patterns).program.apply d).raw = storedEnvelopes d.raw := by
  have hdelivered : ∀ raw ∈ s.delivered, raw.senderAuthenticated.isSome = true := by
    refine Machine.Throughout.invariant (M := machine codec)
      (P := fun _ a => ∀ raw, a = .deliver raw → raw.senderAuthenticated.isSome = true)
      (I := fun s => ∀ raw ∈ s.delivered, raw.senderAuthenticated.isSome = true) ?_
      (Machine.throughout_of_forall (fun a ha _ raw hraw => ?_) _) ?_ h
    · intro u a v hu hP hv
      cases next_spec hv with
      | skipped | routed =>
        intro raw hraw
        rcases List.mem_append.1 hraw with hraw | hraw
        · exact hu raw hraw
        · rw [List.mem_singleton.1 hraw]
          exact hP _ rfl
      | bound | moved | found | dropped | committed | destroyed => exact hu
    · obtain ⟨now, chunk, hchunk⟩ := hyields raw (hraw ▸ ha)
      exact senderAuthenticated_onSignal hchunk
    · exact fun _ hraw => absurd hraw List.not_mem_nil
  intro c hc
  have hmem : c.raw ∈ s.handled := List.mem_append_left _ (List.mem_map_of_mem hc)
  have hauth := hdelivered c.raw (List.mem_of_mem_filter ((inv_of_exec h).order.subset hmem))
  refine ⟨?_, fun d => ?_⟩
  · show (c.raw.senderAuthenticated.isSome && true) = true
    rw [hauth, Bool.and_true]
  · rw [Commit.txn, RunTxn.apply_persist]
    exact ⟨rfl, storedEnvelopes_insertRaw hauth⟩

theorem signals_apart_twoSessions : ∃ s : State (List UInt8) (Option Rat),
    (machine emptyCodec).exec {} twoSessions = some s ∧ s.commits.map Commit.runId = ["run-1", "run-2"] ∧
      ∀ c ∈ s.commits, ofOthers (c.txn emptyCodec []) = true ∧
        ∀ d : RunData (Option Rat) (RuntimeEnvelope (List UInt8) (Option Rat)),
          ((c.txn emptyCodec []).program.apply d).session = d.session ∧
            storedEnvelopes ((c.txn emptyCodec []).program.apply d).raw = storedEnvelopes d.raw := by
  obtain ⟨s, hexec, hruns⟩ : ∃ s : State (List UInt8) (Option Rat),
      (machine emptyCodec).exec {} twoSessions = some s ∧ s.commits.map Commit.runId = ["run-1", "run-2"] :=
    ⟨_, rfl, rfl⟩
  refine ⟨s, hexec, hruns, signals_apart [] (fun raw hraw => ?_) hexec⟩
  have hcases : raw = yielded (progress "session-1" "a") ∨ raw = yielded (progress "" "b") ∨
      raw = yielded (progress "session-2" "c") := by simpa [twoSessions] using hraw
  rcases hcases with rfl | rfl | rfl <;> exact ⟨_, _, onSignal_yielded rfl⟩

end MacpControlPlane.SignalConsumer

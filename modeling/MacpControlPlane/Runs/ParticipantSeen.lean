import MacpControlPlane.Lib.Machine
import MacpControlPlane.Runs.EnvelopeIngestion
import MacpControlPlane.Runs.PoisonEnvelopes

/-!
# The participants that a consumer has seen (`events/event-normalizer.service.ts`, `runs/stream-consumer.service.ts`)

One consumer of a session stream, with the context that it hands to `normalize`.  The context notes the sender of an
envelope before the transaction that stores the envelope with its `participant.seen`; after a rollback the consumer
reads the same envelope again, with the same context.

A transaction appends the rows that it has prepared: their ids are new.
-/

namespace MacpControlPlane

open Js EventNormalizer StreamConsumer

variable {B N : Type}

namespace ParticipantSeen

/-- What a consumer of the run is started with. -/
structure Setup (B N : Type) where
  config : StreamConfig
  codec : Codec B N
  patterns : List (String → String)
  runId : String
  /-- `execution.session.participants` -/
  participants : List String

/-- The envelopes that the session has accepted, the rows of the run, the transactions with an envelope (its sender,
and whether they have committed), and the consumer: its context, the events that `normalize` has returned last, and its
loop. -/
structure State (B N : Type) where
  accepted : List (RuntimeEnvelope B N) := []
  lastEventSeq : Nat := 0
  raw : List (RawRow (RuntimeEnvelope B N)) := []
  log : List (CanonicalEvent N) := []
  attempts : List (String × Bool) := []
  knownParticipants : List String
  canonical : List (CanonicalEvent N) := []
  loop : ActiveStream × LoopAt N (RuntimeEnvelope B N)

/-- What can happen next. -/
inductive Action (B N : Type) where
  /-- The session accepts an envelope. -/
  | accept (envelope : RuntimeEnvelope B N)
  /-- The next envelope arrives. -/
  | deliver (receivedAt : String) (randomUUID : Nat → String)
  /-- What the loop awaits comes to anything else; `events` is what `normalize` makes of a frame without an envelope,
  or of a snapshot. -/
  | loop (event : LoopEvent (RuntimeEnvelope B N)) (events : List (CanonicalEvent N))
  /-- The transaction of `persistRawAndCanonical` commits. -/
  | commit (rawId : String) (runCtx : Option TraceRef) (uuid : Nat → String)
  /-- It is rolled back. -/
  | rollback (error : Caught)
  /-- `emitControlPlaneEvents` of any service. -/
  | emit (events : List (PartialEvent N)) (runCtx : Option TraceRef) (uuid : Nat → String)
  /-- `stop`, or a shutdown. -/
  | stop

/-- The event tells that the participant has been seen. -/
def Tells (x : String) (type : CanonicalEventType) (subject : Option Subject) : Prop :=
  type = .participantSeen ∧ subject = some ⟨.participant, x⟩

/-- The events of the control plane are about the declared participants alone. -/
def declaredOnly (participants : List String) (events : List (PartialEvent N)) : Bool :=
  events.all fun e => e.type ≠ .participantSeen || participants.any fun p => e.subject = some ⟨.participant, p⟩

variable [JsNumber N]

/-- The loop goes on; before `persistRawAndCanonical` it calls `normalize`. -/
def State.resume (setup : Setup B N) (s : State B N) (randomUUID : Nat → String) (others : List (CanonicalEvent N))
    (loop : ActiveStream × LoopAt N (RuntimeEnvelope B N)) : State B N :=
  match loop.2 with
  | .persist _ raw =>
    match raw.theEnvelope with
    | some envelope =>
      let normalized := normalizeEnvelope setup.codec setup.patterns ⟨setup.runId, raw.receivedAt, randomUUID⟩
        s.knownParticipants envelope raw.senderAuthenticated
      { s with loop, canonical := normalized.1, knownParticipants := normalized.2 }
    | none => { s with loop, canonical := others }
  | _ => { s with loop }

/-- What a transaction adds to the attempts. -/
def attempt (raw : RawRuntimeEvent (RuntimeEnvelope B N)) (committed : Bool) : List (String × Bool) :=
  raw.theEnvelope.toList.map fun envelope => (envelope.sender, committed)

/-- One step. -/
def next (setup : Setup B N) (s : State B N) : Action B N → Option (State B N)
  | .accept envelope => some { s with accepted := s.accepted ++ [envelope] }
  | .deliver receivedAt randomUUID =>
    match s.loop with
    | (marker, .next handle streamRetries) =>
      match s.accepted[handle.position]? with
      | some envelope =>
        (consumeLoop setup.config marker (.next handle streamRetries)
          (.frame { kind := .streamEnvelope, receivedAt, envelope := some envelope })).map
            (s.resume setup randomUUID [])
      | none => none
    | _ => none
  | .loop event events =>
    match s.loop with
    | (_, .persist _ _) => none
    | (marker, here) =>
      -- No other branch of `normalize` makes a `participant.seen`.
      if EnvelopeIngestion.bringsEnvelope event || events.any fun e => e.type = .participantSeen then none
      else (consumeLoop setup.config marker here event).map (s.resume setup (fun _ => "") events)
  | .commit rawId runCtx uuid =>
    match s.loop with
    | (marker, .persist origin raw) =>
      let emitted := RunEventService.preparePersisted runCtx uuid (s.lastEventSeq + 1) s.canonical
      some { s with
        lastEventSeq := s.lastEventSeq + (1 + s.canonical.length)
        raw := s.raw ++ [.ofEvent rawId (s.lastEventSeq + 1) raw]
        log := s.log ++ emitted
        attempts := s.attempts ++ attempt raw true
        loop := (marker, .committed origin raw emitted) }
    | _ => none
  | .rollback error =>
    match s.loop with
    | (marker, .persist origin raw) =>
      (consumeLoop setup.config marker (.persist origin raw) (.threw error)).map fun loop =>
        { s with attempts := s.attempts ++ attempt raw false, loop }
    | _ => none
  | .emit events runCtx uuid =>
    if declaredOnly setup.participants events then
      some { s with
        lastEventSeq := s.lastEventSeq + events.length
        log := s.log ++ RunEventService.prepareEmitted setup.runId runCtx uuid (s.lastEventSeq + 1) events }
    else none
  | .stop => some { s with loop := ({ s.loop.1 with aborted := true }, s.loop.2) }

/-- A consumer that is started on a run without envelopes. -/
def machine (setup : Setup B N) : Machine (State B N) (Action B N) where
  start s := ∃ handle pollOnly,
    s = { knownParticipants := setup.participants, loop := StreamConsumer.start 0 0 handle pollOnly }
  next := next setup

omit [JsNumber N] in
/-- There is an event of the participant. -/
def Seen (x : String) (events : List (CanonicalEvent N)) : Prop :=
  ∃ e ∈ events, Tells x e.type e.subject

omit [JsNumber N] in
/-- An envelope of the sender is stored. -/
def State.Stored (s : State B N) (x : String) : Prop :=
  ∃ row ∈ s.raw, row.payload.theEnvelope.map (·.sender) = some x

omit [JsNumber N] in
/-- Every sender that is not declared and has an envelope stored has been seen. -/
def State.Durable (setup : Setup B N) (s : State B N) : Prop :=
  ∀ x, x ∉ setup.participants → s.Stored x → Seen x s.log

/-! ### Which events tell that a participant has been seen -/

section Events

omit [JsNumber N]

variable {x : String}

private theorem seen_append {events events' : List (CanonicalEvent N)} :
    Seen x (events ++ events') ↔ Seen x events ∨ Seen x events' := by
  unfold Seen
  simp only [List.mem_append, or_and_right, exists_or]

private theorem not_seen_of_types {events : List (CanonicalEvent N)} (h : ∀ e ∈ events, e.type ≠ .participantSeen) :
    ¬ Seen x events :=
  fun ⟨e, he, htype, _⟩ => h e he htype

private theorem seen_preparePersisted {runCtx : Option TraceRef} {uuid : Nat → String} {startSeq : Nat}
    {events : List (CanonicalEvent N)} :
    Seen x (RunEventService.preparePersisted runCtx uuid startSeq events) ↔ Seen x events := by
  constructor
  · rintro ⟨e, he, htells⟩
    obtain ⟨i, hi, rfl⟩ := List.mem_mapIdx.1 he
    exact ⟨events[i], List.getElem_mem hi, htells⟩
  · rintro ⟨e, he, htells⟩
    obtain ⟨i, hi, rfl⟩ := List.mem_iff_getElem.1 he
    exact ⟨_, List.mem_mapIdx.2 ⟨i, hi, rfl⟩, htells⟩

private theorem mem_of_seen_prepareEmitted {participants : List String} {runId : String} {runCtx : Option TraceRef}
    {uuid : Nat → String} {startSeq : Nat} {events : List (PartialEvent N)}
    (hdeclared : declaredOnly participants events = true)
    (h : Seen x (RunEventService.prepareEmitted runId runCtx uuid startSeq events)) : x ∈ participants := by
  obtain ⟨e, he, htype, hsubject⟩ := h
  obtain ⟨i, hi, rfl⟩ := List.mem_mapIdx.1 he
  have hall := List.all_eq_true.1 hdeclared events[i] (List.getElem_mem hi)
  change events[i].type = _ at htype
  change events[i].subject = _ at hsubject
  rw [htype, hsubject] at hall
  simpa using hall

end Events

private theorem type_messageEvents {msg : Incoming B N} {codec : Codec B N} {patterns : List (String → String)}
    {e : CanonicalEvent N} (he : e ∈ messageEvents msg codec patterns) : e.type ≠ .participantSeen := by
  rw [mem_messageEvents_iff, mem_policyEvents_iff, mem_progressEvents_iff] at he
  rcases he with rfl | ⟨llm, -, rfl⟩ | ⟨type, htype, rfl⟩ | htask |
    (⟨decoded, -, -, rfl⟩ | ⟨decoded, -, -, rfl⟩ | ⟨-, rfl⟩) | ⟨-, rfl⟩
  case inr.inr.inl =>
    have hderived := mem_derivedTypes htype
    rintro rfl
    exact absurd hderived (by decide)
  case inr.inr.inr.inl => rcases mem_taskEvents htask with ⟨progress, -, rfl⟩ | rfl | rfl <;> exact nofun
  all_goals exact nofun

section Normalize

variable {codec : Codec B N} {patterns : List (String → String)} {ctx : EventContext} {known : List String}
  {envelope : RuntimeEnvelope B N} {senderAuthenticated : Option Bool} {x : String}

private theorem seen_normalizeEnvelope :
    Seen x (normalizeEnvelope codec patterns ctx known envelope senderAuthenticated).1 ↔
      envelope.sender = x ∧ envelope.sender ∉ known := by
  unfold normalizeEnvelope
  dsimp only
  split
  · rename_i hknown
    exact iff_of_false (not_seen_of_types fun e => type_messageEvents) fun h => h.2 hknown
  · rename_i hnew
    constructor
    · rintro ⟨e, he, htype, hsubject⟩
      rcases List.mem_cons.1 he with rfl | he
      · exact ⟨(Subject.mk.inj (Option.some.inj hsubject)).2, hnew⟩
      · exact absurd htype (type_messageEvents he)
    · rintro ⟨rfl, -⟩
      exact ⟨_, List.mem_cons_self, rfl, rfl⟩

private theorem mem_normalizeEnvelope :
    x ∈ (normalizeEnvelope codec patterns ctx known envelope senderAuthenticated).2 ↔
      x ∈ known ∨ envelope.sender = x := by
  unfold normalizeEnvelope
  dsimp only
  split
  · rename_i hknown
    exact ⟨Or.inl, fun h => h.elim id fun h => h ▸ hknown⟩
  · rw [List.mem_cons, or_comm, eq_comm]

end Normalize

/-! ### The first transaction of a sender -/

section Invariant

omit [JsNumber N]

/-- The sender of the envelope whose transaction is under way. -/
def State.underWay (s : State B N) : Option String :=
  match s.loop.2 with
  | .persist _ raw => raw.theEnvelope.map (·.sender)
  | _ => none

/-- The context knows the declared participants and the senders that there has been a transaction for.  The event of
an undeclared sender is in the first transaction with an envelope of it, and nowhere else. -/
structure Tracked (setup : Setup B N) (s : State B N) : Prop where
  known : ∀ x, x ∈ s.knownParticipants ↔
    x ∈ setup.participants ∨ (s.attempts.lookup x).isSome = true ∨ s.underWay = some x
  pending : ∀ origin raw, s.loop.2 = .persist origin raw → ∀ x, Seen x s.canonical ↔
    s.underWay = some x ∧ x ∉ setup.participants ∧ s.attempts.lookup x = none
  log : ∀ x, x ∉ setup.participants → (Seen x s.log ↔ s.attempts.lookup x = some true)
  stored : ∀ x, s.Stored x ↔ (x, true) ∈ s.attempts

variable {setup : Setup B N} {s : State B N}

private theorem underWay_of_ne (h : ∀ origin raw, s.loop.2 ≠ .persist origin raw) : s.underWay = none := by
  unfold State.underWay
  split
  · rename_i origin raw heq
    exact absurd heq (h origin raw)
  · rfl

private theorem lookup_attempt {raw : RawRuntimeEvent (RuntimeEnvelope B N)} {committed : Bool} {x : String} :
    (attempt raw committed).lookup x =
      if raw.theEnvelope.map (·.sender) = some x then some committed else none := by
  unfold attempt
  cases raw.theEnvelope with
  | none => rfl
  | some envelope =>
    by_cases hx : envelope.sender = x
    · subst hx
      simp
    · have hbeq : (x == envelope.sender) = false := beq_eq_false_iff_ne.2 (Ne.symm hx)
      simp [List.lookup_cons, hbeq, hx]

private theorem mem_attempt {raw : RawRuntimeEvent (RuntimeEnvelope B N)} {committed : Bool} {x : String} :
    (x, true) ∈ attempt raw committed ↔ raw.theEnvelope.map (·.sender) = some x ∧ committed = true := by
  unfold attempt
  cases raw.theEnvelope with
  | none => simp
  | some envelope => simp [eq_comm]

/-- A step that leaves the rows and the consumer alone, but for its marker. -/
theorem Tracked.of_eq {s' : State B N} (h : Tracked setup s) (hknown : s'.knownParticipants = s.knownParticipants)
    (hattempts : s'.attempts = s.attempts) (hcanonical : s'.canonical = s.canonical) (hloop : s'.loop.2 = s.loop.2)
    (hraw : s'.raw = s.raw) (hlog : ∀ x, x ∉ setup.participants → (Seen x s'.log ↔ Seen x s.log)) :
    Tracked setup s' := by
  have hunderWay : s'.underWay = s.underWay := by
    unfold State.underWay
    rw [hloop]
  constructor
  · intro x
    rw [hknown, hattempts, hunderWay]
    exact h.known x
  · intro origin raw hpersist x
    rw [hcanonical, hattempts, hunderWay]
    exact h.pending origin raw (hloop ▸ hpersist) x
  · intro x hx
    rw [hlog x hx, hattempts]
    exact h.log x hx
  · intro x
    rw [hattempts, ← h.stored x, State.Stored, State.Stored, hraw]

end Invariant

private theorem Tracked.resume {setup : Setup B N} {s : State B N} (h : Tracked setup s)
    (hloop : ∀ origin raw, s.loop.2 ≠ .persist origin raw) {randomUUID : Nat → String}
    {others : List (CanonicalEvent N)} (hothers : ∀ e ∈ others, e.type ≠ .participantSeen)
    (loop : ActiveStream × LoopAt N (RuntimeEnvelope B N)) : Tracked setup (s.resume setup randomUUID others loop) := by
  have hnone : s.underWay = none := underWay_of_ne hloop
  have hknown : ∀ x, x ∈ s.knownParticipants ↔ x ∈ setup.participants ∨ (s.attempts.lookup x).isSome = true := by
    intro x
    rw [h.known x, hnone]
    simp
  unfold State.resume
  split
  · rename_i origin raw hpersist
    cases henvelope : raw.theEnvelope with
    | some envelope =>
      have hunderWay : ∀ s' : State B N, s'.loop = loop → s'.underWay = some envelope.sender := by
        rintro s' rfl
        rw [State.underWay, hpersist]
        exact congrArg (Option.map (·.sender)) henvelope
      constructor
      · intro x
        rw [hunderWay _ rfl]
        dsimp only
        rw [mem_normalizeEnvelope, hknown x, Option.some.injEq, or_assoc]
      · intro _ _ _ x
        rw [hunderWay _ rfl]
        dsimp only
        rw [seen_normalizeEnvelope, hknown, Option.some.injEq, not_or, Bool.not_eq_true, Option.isSome_eq_false_iff,
          Option.isNone_iff_eq_none]
        refine and_congr_right fun hx => ?_
        rw [hx]
      · exact h.log
      · exact h.stored
    | none =>
      have hunderWay : ∀ s' : State B N, s'.loop = loop → s'.underWay = none := by
        rintro s' rfl
        rw [State.underWay, hpersist]
        exact congrArg (Option.map (·.sender)) henvelope
      constructor
      · intro x
        rw [hunderWay _ rfl]
        dsimp only
        rw [hknown x]
        simp
      · intro _ _ _ x
        rw [hunderWay _ rfl]
        exact iff_of_false (not_seen_of_types hothers) fun hx => absurd hx.1 nofun
      · exact h.log
      · exact h.stored
  · rename_i hpersist
    have hunderWay : ({ s with loop } : State B N).underWay = none := underWay_of_ne hpersist
    constructor
    · intro x
      rw [hunderWay]
      dsimp only
      rw [hknown x]
      simp
    · intro origin raw heq
      exact absurd heq (hpersist origin raw)
    · exact h.log
    · exact h.stored

section Transaction

omit [JsNumber N]

variable {setup : Setup B N} {s : State B N} {origin : Origin} {raw : RawRuntimeEvent (RuntimeEnvelope B N)}

private theorem underWay_of_persist (h : s.loop.2 = .persist origin raw) :
    s.underWay = raw.theEnvelope.map (·.sender) := by
  rw [State.underWay, h]

/-- The first transaction of a sender stays the first. -/
theorem lookup_attempts (h : s.loop.2 = .persist origin raw) (committed : Bool) (x : String) :
    (s.attempts ++ attempt raw committed).lookup x =
      (s.attempts.lookup x).or (if s.underWay = some x then some committed else none) := by
  rw [List.lookup_append, lookup_attempt, underWay_of_persist h]

/-- The transaction under way is over, and its sender is known as before. -/
theorem Tracked.known_attempts (h : Tracked setup s) (hpersist : s.loop.2 = .persist origin raw) (committed : Bool)
    (x : String) :
    x ∈ s.knownParticipants ↔
      x ∈ setup.participants ∨ ((s.attempts ++ attempt raw committed).lookup x).isSome = true := by
  rw [h.known x, lookup_attempts hpersist, Option.isSome_or, Bool.or_eq_true]
  refine or_congr_right (or_congr_right ?_)
  split <;> simp [*]

private theorem Tracked.commit (h : Tracked setup s) {marker : ActiveStream}
    (hloop : s.loop = (marker, .persist origin raw))
    (rawId : String) (runCtx : Option TraceRef) (uuid : Nat → String) (lastEventSeq : Nat) :
    let emitted := RunEventService.preparePersisted runCtx uuid (s.lastEventSeq + 1) s.canonical
    Tracked setup { s with
      lastEventSeq
      raw := s.raw ++ [.ofEvent rawId (s.lastEventSeq + 1) raw]
      log := s.log ++ emitted
      attempts := s.attempts ++ attempt raw true
      loop := (marker, .committed origin raw emitted) } := by
  intro emitted
  have hpersist : s.loop.2 = .persist origin raw := congrArg Prod.snd hloop
  constructor
  · intro x
    rw [underWay_of_ne fun _ _ h => by cases h]
    dsimp only
    rw [h.known_attempts hpersist true]
    simp
  · intro origin' raw' heq
    cases heq
  · intro x hx
    dsimp only
    rw [seen_append, seen_preparePersisted, h.log x hx, h.pending origin raw hpersist x, lookup_attempts hpersist]
    cases s.attempts.lookup x with
    | none => simp [hx]
    | some committed => simp
  · intro x
    dsimp only
    rw [List.mem_append, mem_attempt, ← h.stored x]
    unfold State.Stored
    simp only [List.mem_append, List.mem_singleton, or_and_right, exists_or, exists_eq_left, and_true]
    rfl

private theorem Tracked.rollback (h : Tracked setup s) {marker : ActiveStream}
    (hloop : s.loop = (marker, .persist origin raw))
    {loop : ActiveStream × LoopAt N (RuntimeEnvelope B N)} (hne : ∀ origin raw, loop.2 ≠ .persist origin raw) :
    Tracked setup { s with attempts := s.attempts ++ attempt raw false, loop } := by
  have hpersist : s.loop.2 = .persist origin raw := congrArg Prod.snd hloop
  constructor
  · intro x
    rw [underWay_of_ne hne]
    dsimp only
    rw [h.known_attempts hpersist false]
    simp
  · intro origin raw heq
    exact absurd heq (hne origin raw)
  · intro x hx
    dsimp only
    rw [h.log x hx, lookup_attempts hpersist]
    cases s.attempts.lookup x with
    | none => simp
    | some committed => simp
  · intro x
    dsimp only
    rw [List.mem_append, mem_attempt, ← h.stored x]
    simp [State.Stored]

private theorem pollLoop_ne_persist (marker : ActiveStream) (retries : Nat) (origin : Origin)
    (raw : RawRuntimeEvent (RuntimeEnvelope B N)) : (pollLoop (N := N) marker retries).2 ≠ .persist origin raw := by
  unfold pollLoop
  dsimp only
  split <;> exact nofun

private theorem retryPoll_ne_persist (config : StreamConfig) (marker : ActiveStream) (retries : Nat) (origin : Origin)
    (raw : RawRuntimeEvent (RuntimeEnvelope B N)) :
    (retryPoll (N := N) config marker retries).2 ≠ .persist origin raw := by
  unfold retryPoll finalizeRun
  repeat' split
  all_goals exact nofun

/-- What follows an error of the transaction is not another one. -/
theorem caughtError_ne_persist (config : StreamConfig) (marker : ActiveStream) (error : Caught)
    (origin origin' : Origin) (raw : RawRuntimeEvent (RuntimeEnvelope B N)) :
    (caughtError (N := N) config marker error origin).2 ≠ .persist origin' raw := by
  cases origin with
  | poll retries => exact retryPoll_ne_persist _ _ _ _ _
  | stream handle streamRetries =>
    show (afterStream _ _ _ _).2 ≠ _
    unfold afterStream
    repeat' split
    all_goals first | exact pollLoop_ne_persist _ _ _ _ | exact nofun

end Transaction

/-! ### Every run -/

omit [JsNumber N] in
private theorem start_ne_persist (handle : Option RuntimeSessionHandle) (pollOnly : Bool) (origin : Origin)
    (raw : RawRuntimeEvent (RuntimeEnvelope B N)) :
    (StreamConsumer.start (N := N) 0 0 handle pollOnly).2 ≠ .persist origin raw := by
  cases handle with
  | none => exact pollLoop_ne_persist _ _ _ _
  | some handle =>
    cases pollOnly with
    | true => exact pollLoop_ne_persist _ _ _ _
    | false => simp [StreamConsumer.start]

variable {setup : Setup B N}

private theorem tracked_start {s : State B N} (h : (machine setup).start s) : Tracked setup s := by
  obtain ⟨handle, pollOnly, rfl⟩ := h
  have hne := start_ne_persist (B := B) (N := N) handle pollOnly
  constructor
  · intro x
    rw [underWay_of_ne hne]
    simp
  · intro origin raw heq
    exact absurd heq (hne origin raw)
  · intro x _
    simp [Seen]
  · intro x
    simp [State.Stored]

private theorem Tracked.next {s s' : State B N} {a : Action B N} (h : Tracked setup s)
    (hnext : (machine setup).next s a = some s') : Tracked setup s' := by
  cases a with
  | accept envelope =>
    cases hnext
    exact h.of_eq rfl rfl rfl rfl rfl fun _ _ => Iff.rfl
  | deliver receivedAt randomUUID =>
    simp only [machine, ParticipantSeen.next] at hnext
    split at hnext
    · rename_i marker handle streamRetries hloop
      split at hnext
      · obtain ⟨loop, -, rfl⟩ := Option.map_eq_some_iff.1 hnext
        refine h.resume ?_ (List.forall_mem_nil _) loop
        intro origin raw heq
        rw [hloop] at heq
        cases heq
      · cases hnext
    · cases hnext
  | loop event events =>
    simp only [machine, ParticipantSeen.next] at hnext
    split at hnext
    · cases hnext
    · rename_i marker here hne hloop
      split at hnext
      · cases hnext
      · rename_i hguard
        obtain ⟨loop, -, rfl⟩ := Option.map_eq_some_iff.1 hnext
        refine h.resume ?_ ?_ loop
        · rw [hloop]
          exact fun origin raw heq => hne origin raw heq
        · intro e he htype
          simp only [Bool.or_eq_true, List.any_eq_true, decide_eq_true_eq, not_or] at hguard
          exact hguard.2 ⟨e, he, htype⟩
  | commit rawId runCtx uuid =>
    simp only [machine, ParticipantSeen.next] at hnext
    split at hnext
    · rename_i hloop
      cases hnext
      exact h.commit hloop rawId runCtx uuid _
    · cases hnext
  | rollback error =>
    simp only [machine, ParticipantSeen.next] at hnext
    split at hnext
    · rename_i hloop
      obtain ⟨loop, hcaught, rfl⟩ := Option.map_eq_some_iff.1 hnext
      refine h.rollback hloop ?_
      rw [← Option.some.inj hcaught]
      exact caughtError_ne_persist _ _ _ _
    · cases hnext
  | emit events runCtx uuid =>
    simp only [machine, ParticipantSeen.next] at hnext
    split at hnext
    · rename_i hdeclared
      cases hnext
      refine h.of_eq rfl rfl rfl rfl rfl fun x hx => ?_
      rw [seen_append]
      exact or_iff_left fun hseen => hx (mem_of_seen_prepareEmitted hdeclared hseen)
    · cases hnext
  | stop =>
    cases hnext
    exact h.of_eq rfl rfl rfl rfl rfl fun _ _ => Iff.rfl

private theorem tracked_of_reachable {s : State B N} (h : (machine setup).Reachable s) : Tracked setup s :=
  h.invariant (fun _ => tracked_start) fun _ _ _ hs => hs.next

/-- What decides is the first transaction with an envelope of the sender: if it is rolled back, the envelope is stored
later without its event. -/
theorem participant_seen_durable_iff {s : State B N} (h : (machine setup).Reachable s) :
    s.Durable setup ↔ ∀ x, x ∉ setup.participants → s.Stored x → s.attempts.lookup x = some true := by
  have hlog := (tracked_of_reachable h).log
  refine forall_congr' fun x => forall_congr' fun hx => forall_congr' fun _ => ?_
  exact hlog x hx

/-- A consumer of a run with no declared participant. -/
def probeSetup : Setup (List Nat) (Option Rat) where
  config := {}
  codec := Delivery.proposalCodec
  patterns := []
  runId := "r1"
  participants := []

/-- The proposal of the analyst arrives, and its transaction is rolled back as often as `errors` tells; then it
commits. -/
def probe (errors : List Caught) : List (Action (List Nat) (Option Rat)) :=
  [.accept (Delivery.proposal "m-1").envelope] ++
    errors.flatMap (fun error => [.deliver "t" toString, .rollback error, .loop .returned []]) ++
    [.deliver "t" toString, .commit "raw1" none toString]

private theorem exists_probe (errors : List Caught) (attempts : List (String × Bool))
    (h : ((machine probeSetup).exec { knownParticipants := [], loop := StreamConsumer.start 0 0 (some ⟨0, 0⟩) false }
      (probe errors)).map (·.attempts) = some attempts) :
    ∃ s, (machine probeSetup).Reachable s ∧ s.attempts = attempts := by
  obtain ⟨s, hexec, hattempts⟩ := Option.map_eq_some_iff.1 h
  exact ⟨s, ⟨_, _, ⟨some ⟨0, 0⟩, false, rfl⟩, hexec⟩, hattempts⟩

/-- The first transaction commits: the sender has been seen. -/
theorem participant_seen_durable_analyst :
    ∃ s, (machine probeSetup).Reachable s ∧ s.Stored "analyst" ∧ Seen "analyst" s.log := by
  obtain ⟨s, hs, hattempts⟩ := exists_probe [] [("analyst", true)] (by decide +kernel)
  have hstored : s.Stored "analyst" := ((tracked_of_reachable hs).stored "analyst").2 (by simp [hattempts])
  have hdurable : s.Durable probeSetup := by
    refine (participant_seen_durable_iff hs).2 fun x _ hx => ?_
    rw [(tracked_of_reachable hs).stored x, hattempts] at hx
    rw [hattempts, (Prod.mk.inj (List.mem_singleton.1 hx)).1]
    rfl
  exact ⟨s, hs, hstored, hdurable "analyst" List.not_mem_nil hstored⟩

/-- The first transaction is rolled back: the context knows the sender when the proposal comes again. -/
theorem participant_seen_lost :
    ¬ ∀ (setup : Setup (List Nat) (Option Rat)) (s : State (List Nat) (Option Rat)), (machine setup).Reachable s →
      s.Durable setup := by
  intro h
  obtain ⟨s, hs, hattempts⟩ := exists_probe [{ message := "connection terminated" }]
    [("analyst", false), ("analyst", true)] (by decide +kernel)
  have htracked := tracked_of_reachable hs
  have hstored : s.Stored "analyst" := (htracked.stored "analyst").2 (by simp [hattempts])
  have hfirst := (htracked.log "analyst" List.not_mem_nil).1 (h probeSetup s hs "analyst" List.not_mem_nil hstored)
  rw [hattempts] at hfirst
  exact absurd hfirst (by decide)

end ParticipantSeen

end MacpControlPlane

import MacpControlPlane.Runs.StreamConsumer

/-!
# The envelopes of a session (`runs/stream-consumer.service.ts`, `runs/run-recovery.service.ts`)

A run with its session, through any number of processes one after the other.  The first process launches the run and
subscribes from the start; a process that starts after a crash recovers it with `recoverRun`.  The runtime delivers on
a subscription after the ordinal `k` the envelopes from `k + 1` on, and anything can fail at any time.

The transactions are those of `RunTransactions`: what is committed is what they do one after the other.  Those of
other services, the signal consumer among them, commit whenever they like.
-/

namespace MacpControlPlane

open Js EventRepository StreamConsumer

variable {N E : Type} {runId : String}

namespace EnvelopeIngestion

inductive Process (N E : Type) where
  /-- The run is launched and has not been subscribed to. -/
  | launching
  /-- The launch has subscribed, and has not called `start`. -/
  | subscribed (handle : RuntimeSessionHandle)
  | consuming (loop : ActiveStream × LoopAt N E)
  | abandoned
  | down
  /-- `recoverRun` has read the row of the session. -/
  | recovering (lastEventSeq : Nat) (session : Option SessionRow)

/-- The envelopes that the session has accepted, the rows of the run, the transactions that have committed, the
ordinals that were subscribed after, and the process. -/
structure State (N E : Type) (runId : String) where
  accepted : List E := []
  data : RunData N E := {}
  commits : List (RunTxn N E runId) := []
  subscriptions : List Nat := []
  process : Process N E := .launching

inductive Action (N E : Type) (runId : String) where
  | accept (envelope : E)
  /-- The `upsert` of `bindSession`. -/
  | bindSession
  | transaction (t : RunTxn N E runId)
  | subscribe
  | start
  /-- The `start` of a session that is resolved already. -/
  | startPolling
  | abandon
  | deliver (receivedAt : String)
  /-- What the loop awaits comes to anything else. -/
  | loop (event : LoopEvent E)
  /-- The transaction of the loop commits, with the events that the normalizer made. -/
  | commit (rawId : String) (events : List (CanonicalEvent N)) (run : ∀ e ∈ events, e.runId = runId)
      (runCtx : Option TraceRef) (uuid : Nat → String)
  /-- `stop`, or a shutdown. -/
  | stop
  | crash
  /-- `recoverRun` reads the row of the session; `lastEventSeq` is that of the row that `listActiveRuns` returned. -/
  | readSession (lastEventSeq : Nat)
  /-- The rest of `recoverRun`, where `subscribeSession` may throw. -/
  | recover (subscribed : Bool)

/-- `last_envelope_ordinal`, or 0 as long as there is no row. -/
def lastEnvelopeOrdinal (session : Option SessionRow) : Nat := (session.map (·.lastEnvelopeOrdinal)).getD 0

/-- The envelope of a raw event of the session stream: those of `watchSignals` have `senderAuthenticated`. -/
def sessionEnvelope (raw : RawRuntimeEvent E) : Option E :=
  if raw.isEnvelope ∧ raw.senderAuthenticated = none then raw.envelope else none

/-- The envelopes of the session stream that are stored, in the order of the rows. -/
def storedEnvelopes (rows : List (RawRow E)) : List E := rows.filterMap fun row => sessionEnvelope row.payload

/-- What other services do: the signal consumer persists what `watchSignals` delivers, without a cursor. -/
def ofOthers : RunTxn N E runId → Bool
  | .persist _ raw _ _ _ _ cursor => raw.senderAuthenticated.isSome && cursor.isNone
  | _ => true

def bringsEnvelope : LoopEvent E → Bool
  | .frame raw => raw.isEnvelope
  | _ => false

def State.commit [JsNumber N] (s : State N E runId) (t : RunTxn N E runId) : State N E runId :=
  { s with data := t.program.apply s.data, commits := s.commits ++ [t] }

def State.resume (config : StreamConfig) (s : State N E runId) (marker : ActiveStream) (here : LoopAt N E)
    (event : LoopEvent E) : Option (State N E runId) :=
  (consumeLoop config marker here event).map fun loop =>
    { s with process := .consuming loop, subscriptions := s.subscriptions ++ (subscribes here loop.2).toList }

def next [JsNumber N] (config : StreamConfig) (s : State N E runId) : Action N E runId → Option (State N E runId)
  | .accept envelope => some { s with accepted := s.accepted ++ [envelope] }
  | .bindSession => some { s with data := { s.data with session := some (s.data.session.getD {}) } }
  | .transaction t => if ofOthers t then some (s.commit t) else none
  | .subscribe =>
    match s.process with
    | .launching => some { s with process := .subscribed ⟨0, 0⟩, subscriptions := s.subscriptions ++ [0] }
    | _ => none
  | .start =>
    match s.process with
    | .subscribed handle => some { s with process := .consuming (StreamConsumer.start 0 0 (some handle) false) }
    | _ => none
  | .startPolling =>
    match s.process with
    | .launching => some { s with process := .consuming (StreamConsumer.start 0 0 none true) }
    | _ => none
  | .abandon =>
    match s.process with
    | .launching | .subscribed _ | .recovering _ _ => some { s with process := .abandoned }
    | _ => none
  -- The row of the session is there before the first envelope.
  | .deliver receivedAt =>
    match s.process with
    | .consuming (marker, .next handle streamRetries) =>
      match s.accepted[handle.position]?, s.data.session with
      | some envelope, some _ =>
        s.resume config marker (.next handle streamRetries)
          (.frame { kind := .streamEnvelope, receivedAt, envelope := some envelope })
      | _, _ => none
    | _ => none
  | .loop event =>
    match s.process with
    | .consuming (marker, here) => if bringsEnvelope event then none else s.resume config marker here event
    | _ => none
  | .commit rawId events run runCtx uuid =>
    match s.process with
    | .consuming (marker, .persist origin raw) =>
      let t := .persist rawId raw events run runCtx uuid (some (nextOrdinal marker raw))
      some { s.commit t with process := .consuming (marker, .committed origin raw (t.written s.data)) }
    | _ => none
  | .stop =>
    match s.process with
    | .consuming (marker, here) => some { s with process := .consuming ({ marker with aborted := true }, here) }
    | _ => none
  | .crash => some { s with process := .down }
  | .readSession lastEventSeq =>
    match s.process with
    | .down => some { s with process := .recovering lastEventSeq s.data.session }
    | _ => none
  | .recover subscribed =>
    match s.process with
    | .recovering lastEventSeq session =>
      let resumeFromSeq := max ((session.bind (·.lastStreamCursor)).getD 0) lastEventSeq
      let resumeFromEnvelopeOrdinal := lastEnvelopeOrdinal session
      let sessionHandle : Option RuntimeSessionHandle :=
        if config.streamResumeEnabled && subscribed then some ⟨resumeFromEnvelopeOrdinal, 0⟩ else none
      some { s with
        process := .consuming
          (StreamConsumer.start resumeFromSeq resumeFromEnvelopeOrdinal sessionHandle sessionHandle.isNone)
        subscriptions := s.subscriptions ++ (sessionHandle.map (·.afterSequence)).toList }
    | _ => none

def machine [JsNumber N] (config : StreamConfig) : Machine (State N E runId) (Action N E runId) where
  start s := s = {}
  next := next config

/-! ### The ordinal of the session -/

/-- The envelope that the session stream brings after those that are stored. -/
def State.Next (s : State N E runId) (raw : RawRuntimeEvent E) : Prop :=
  raw.senderAuthenticated = none ∧ s.data.session ≠ none ∧
    ∃ envelope, s.accepted[lastEnvelopeOrdinal s.data.session]? = some envelope ∧ raw.envelope = some envelope

/-- The process goes on after the envelopes that are stored. -/
def State.ProcessInStep (s : State N E runId) : Prop :=
  match s.process with
  | .launching => lastEnvelopeOrdinal s.data.session = 0
  | .subscribed handle => lastEnvelopeOrdinal s.data.session = 0 ∧ handle.position = 0
  | .consuming loop => StreamConsumer.InStep (lastEnvelopeOrdinal s.data.session) s.Next loop
  | .abandoned | .down => True
  | .recovering _ session => lastEnvelopeOrdinal session = lastEnvelopeOrdinal s.data.session

/-- The stored envelopes are the first accepted ones, as many as the ordinal of the session says. -/
structure Ingested (s : State N E runId) : Prop where
  ids : s.data.raw.map (·.id) = s.commits.flatMap RunTxn.rawIds
  ordered : s.data.RawOrdered
  stored : storedEnvelopes s.data.raw = s.accepted.take (lastEnvelopeOrdinal s.data.session)
  accepted : lastEnvelopeOrdinal s.data.session ≤ s.accepted.length
  process : s.ProcessInStep

theorem storedEnvelopes_append (rows rows' : List (RawRow E)) :
    storedEnvelopes (rows ++ rows') = storedEnvelopes rows ++ storedEnvelopes rows' :=
  List.filterMap_append

theorem storedEnvelopes_ofEvent (rawId : String) (seq : Nat) (raw : RawRuntimeEvent E) :
    storedEnvelopes [RawRow.ofEvent rawId seq raw] = (sessionEnvelope raw).toList := by
  cases h : sessionEnvelope raw <;> simp [storedEnvelopes, RawRow.ofEvent, h]

/-- The ordinal of a row is a floor for what `updateStreamCursor` writes. -/
theorem lastEnvelopeOrdinal_updateStreamCursor {session : Option SessionRow} {ordinal : Nat}
    (hle : lastEnvelopeOrdinal session ≤ ordinal) (hnone : session = none → ordinal = 0) (cursor : Nat) :
    lastEnvelopeOrdinal (session.map (RuntimeSessionRepository.updateStreamCursor cursor ordinal)) = ordinal := by
  cases session with
  | none => exact (hnone rfl).symm
  | some row => exact Nat.max_eq_right hle

private theorem State.ProcessInStep.of_session {s s' : State N E runId} (h : s.ProcessInStep)
    (hprocess : s'.process = s.process)
    (hsession : lastEnvelopeOrdinal s'.data.session = lastEnvelopeOrdinal s.data.session)
    (hnext : ∀ raw, s.Next raw → s'.Next raw) : s'.ProcessInStep := by
  unfold State.ProcessInStep at h ⊢
  rw [hprocess, hsession]
  cases hp : s.process with
  | consuming loop =>
    rw [hp] at h
    exact h.mono hnext
  | _ =>
    rw [hp] at h
    exact h

section Transactions

variable [JsNumber N]

/-- A transaction of another service stores no envelope of the session stream, and leaves the session alone. -/
theorem apply_ofOthers {t : RunTxn N E runId} (h : ofOthers t = true) (d : RunData N E) :
    (t.program.apply d).session = d.session ∧ storedEnvelopes (t.rawRows d) = [] := by
  cases t with
  | emit events hne runCtx uuid => exact ⟨rfl, rfl⟩
  | persist rawId raw events hevents runCtx uuid cursor =>
    rw [ofOthers, Bool.and_eq_true, Option.isSome_iff_ne_none, Option.isNone_iff_eq_none] at h
    have hnone : sessionEnvelope raw = none := if_neg fun hraw => h.1 hraw.2
    rw [h.2]
    refine ⟨rfl, ?_⟩
    rw [RunTxn.rawRows, storedEnvelopes_ofEvent, hnone]
    rfl
  | rebuild => exact ⟨rfl, rfl⟩

private theorem Ingested.commit_rows {s : State N E runId} (h : Ingested s) (t : RunTxn N E runId)
    (hids : ((s.commits ++ [t]).flatMap RunTxn.rawIds).Nodup) :
    (s.commit t).data.raw.map (·.id) = (s.commit t).commits.flatMap RunTxn.rawIds ∧ (s.commit t).data.RawOrdered ∧
      storedEnvelopes (s.commit t).data.raw = storedEnvelopes s.data.raw ++ storedEnvelopes (t.rawRows s.data) := by
  rw [List.flatMap_append, List.flatMap_singleton, ← h.ids] at hids
  obtain ⟨hordered, hraw⟩ := h.ordered.apply t hids
  refine ⟨?_, hordered, ?_⟩
  · show (t.program.apply s.data).raw.map (·.id) = (s.commits ++ [t]).flatMap RunTxn.rawIds
    rw [hraw, List.map_append, h.ids, t.rawRows_ids, List.flatMap_append, List.flatMap_singleton]
  · show storedEnvelopes (t.program.apply s.data).raw = _
    rw [hraw, storedEnvelopes_append]

private theorem Ingested.transaction {s : State N E runId} (h : Ingested s) {t : RunTxn N E runId}
    (ht : ofOthers t = true) (hids : ((s.commits ++ [t]).flatMap RunTxn.rawIds).Nodup) : Ingested (s.commit t) := by
  obtain ⟨hids', hordered, hstored⟩ := h.commit_rows t hids
  obtain ⟨hsession, hnone⟩ := apply_ofOthers ht s.data
  have hsession' : (s.commit t).data.session = s.data.session := hsession
  refine ⟨hids', hordered, ?_, ?_, ?_⟩
  · rw [hstored, hnone, List.append_nil, hsession']
    exact h.stored
  · rw [hsession']
    exact h.accepted
  · refine h.process.of_session rfl (by rw [hsession']) ?_
    intro raw hraw
    unfold State.Next at hraw ⊢
    rw [hsession']
    exact hraw

/-- The transaction of the loop: an envelope that it stores is the next one, and moves the ordinal on by one. -/
theorem Ingested.persist {s : State N E runId} (h : Ingested s) {marker : ActiveStream} {origin : Origin}
    {raw : RawRuntimeEvent E} (hprocess : s.process = .consuming (marker, .persist origin raw)) (rawId : String)
    (events : List (CanonicalEvent N)) (run : ∀ e ∈ events, e.runId = runId)
    (runCtx : Option TraceRef) (uuid : Nat → String)
    (emitted : List (CanonicalEvent N)) :
    let t : RunTxn N E runId := .persist rawId raw events run runCtx uuid (some (nextOrdinal marker raw))
    ((s.commits ++ [t]).flatMap RunTxn.rawIds).Nodup →
    Ingested { s.commit t with process := .consuming (marker, .committed origin raw emitted) } := by
  intro t hids
  obtain ⟨hids', hordered, hstored⟩ := h.commit_rows t hids
  have hin := h.process
  unfold State.ProcessInStep at hin
  rw [hprocess] at hin
  obtain ⟨hmarker, horigin, hnext⟩ := hin
  dsimp only at hmarker horigin
  have hrows : storedEnvelopes (t.rawRows s.data) = (sessionEnvelope raw).toList := storedEnvelopes_ofEvent _ _ _
  have hsession : (s.commit t).data.session = s.data.session.map
      (RuntimeSessionRepository.updateStreamCursor _ (nextOrdinal marker raw)) := rfl
  have hle : lastEnvelopeOrdinal s.data.session ≤ nextOrdinal marker raw := by
    rw [← hmarker]
    exact Nat.le_add_right _ _
  have hnone : s.data.session = none → nextOrdinal marker raw = 0 := by
    intro hrow
    have hraw : ¬ raw.isEnvelope = true := fun hraw => (hnext hraw).2.1 hrow
    rw [nextOrdinal, if_neg hraw, hmarker, hrow]
    rfl
  have hordinal : lastEnvelopeOrdinal (s.commit t).data.session = nextOrdinal marker raw := by
    rw [hsession]
    exact lastEnvelopeOrdinal_updateStreamCursor hle hnone _
  have htake : s.accepted.take (lastEnvelopeOrdinal s.data.session) ++ (sessionEnvelope raw).toList =
      s.accepted.take (nextOrdinal marker raw) ∧ nextOrdinal marker raw ≤ s.accepted.length := by
    by_cases hraw : raw.isEnvelope = true
    · obtain ⟨hauth, -, envelope, haccepted, henvelope⟩ := hnext hraw
      have hlt := (List.getElem?_eq_some_iff.1 haccepted).1
      rw [nextOrdinal, if_pos hraw, hmarker, sessionEnvelope, if_pos ⟨hraw, hauth⟩, List.take_add_one, haccepted,
        henvelope]
      exact ⟨rfl, hlt⟩
    · rw [nextOrdinal, if_neg hraw, hmarker, sessionEnvelope, if_neg fun h => hraw h.1, Option.toList_none,
        List.append_nil]
      exact ⟨rfl, h.accepted⟩
  refine ⟨hids', hordered, ?_, ?_, ?_⟩
  · show storedEnvelopes (s.commit t).data.raw = s.accepted.take (lastEnvelopeOrdinal (s.commit t).data.session)
    rw [hstored, h.stored, hrows, hordinal]
    exact htake.1
  · show lastEnvelopeOrdinal (s.commit t).data.session ≤ s.accepted.length
    rw [hordinal]
    exact htake.2
  · refine ⟨hordinal.symm, ?_⟩
    show origin.At (lastEnvelopeOrdinal (s.commit t).data.session)
    rw [hordinal]
    exact horigin

end Transactions

variable {config : StreamConfig}

/-- What a step does: it keeps the stored envelopes in step, and subscribes after them if it does. -/
structure Step (s s' : State N E runId) : Prop where
  ingested : (s'.commits.flatMap RunTxn.rawIds).Nodup → Ingested s'
  subscriptions : s'.subscriptions = s.subscriptions ∨
    s'.subscriptions = s.subscriptions ++ [lastEnvelopeOrdinal s.data.session]

private theorem Ingested.step {s s' : State N E runId} (h : Ingested s')
    (hsubscriptions : s'.subscriptions = s.subscriptions) :
    Step s s' := ⟨fun _ => h, Or.inl hsubscriptions⟩

private theorem Ingested.resume {s s' : State N E runId} (h : Ingested s) {marker : ActiveStream} {here : LoopAt N E}
    (hprocess : s.process = .consuming (marker, here)) {event : LoopEvent E}
    (hevent : ∀ raw, event = .frame raw → raw.isEnvelope = true → s.Next raw)
    (hresume : s.resume config marker here event = some s') : Step s s' := by
  obtain ⟨loop, hloop, rfl⟩ := Option.map_eq_some_iff.1 hresume
  have hin := h.process
  unfold State.ProcessInStep at hin
  rw [hprocess] at hin
  refine ⟨fun _ => ⟨h.ids, h.ordered, h.stored, h.accepted, hin.consumeLoop hevent hloop⟩, ?_⟩
  cases hk : subscribes here loop.2 with
  | none => exact Or.inl (by simp)
  | some k =>
    rw [hin.subscribes hloop hk]
    exact Or.inr rfl

private theorem Ingested.move {s s' : State N E runId} (h : Ingested s)
    (hdata : s'.data = s.data) (hcommits : s'.commits = s.commits)
    (haccepted : s'.accepted = s.accepted) (hprocess : s'.ProcessInStep) : Ingested s' := by
  obtain ⟨hids, hordered, hstored, hle, -⟩ := h
  refine ⟨?_, ?_, ?_, ?_, hprocess⟩
  · rw [hdata, hcommits]
    exact hids
  · rw [hdata]
    exact hordered
  · rw [hdata, haccepted]
    exact hstored
  · rw [hdata, haccepted]
    exact hle

/-- A loop that begins, or goes on, after the stored envelopes. -/
theorem Ingested.consume {s s' : State N E runId} (h : Ingested s)
    (hdata : s'.data = s.data) (hcommits : s'.commits = s.commits) (haccepted : s'.accepted = s.accepted)
    {loop : ActiveStream × LoopAt N E} (hprocess : s'.process = .consuming loop)
    (hloop : StreamConsumer.InStep (lastEnvelopeOrdinal s.data.session) s.Next loop) : Ingested s' := by
  refine h.move hdata hcommits haccepted ?_
  unfold State.ProcessInStep
  rw [hprocess, hdata]
  refine hloop.mono ?_
  intro raw hraw
  unfold State.Next at hraw ⊢
  rw [hdata, haccepted]
  exact hraw

private theorem Ingested.accept {s : State N E runId} (h : Ingested s) (envelope : E) :
    Ingested { s with accepted := s.accepted ++ [envelope] } := by
  have hle : lastEnvelopeOrdinal s.data.session ≤ (s.accepted ++ [envelope]).length := by
    rw [List.length_append]
    exact Nat.le_add_right_of_le h.accepted
  refine ⟨h.ids, h.ordered, ?_, hle, h.process.of_session rfl rfl ?_⟩
  · rw [List.take_append_of_le_length h.accepted]
    exact h.stored
  · rintro raw ⟨hauth, hrow, accepted, haccepted, henvelope⟩
    exact ⟨hauth, hrow, accepted, Callers.getElem?_concat_of_some haccepted, henvelope⟩

private theorem Ingested.bindSession {s : State N E runId} (h : Ingested s) :
    Ingested { s with data := { s.data with session := some (s.data.session.getD {}) } } := by
  have hsession : lastEnvelopeOrdinal (some (s.data.session.getD {})) = lastEnvelopeOrdinal s.data.session := by
    cases s.data.session <;> rfl
  refine ⟨h.ids, ⟨h.ordered.increasing, h.ordered.seq_le⟩, ?_, ?_, h.process.of_session rfl hsession ?_⟩
  · dsimp only
    rw [hsession]
    exact h.stored
  · dsimp only
    rw [hsession]
    exact h.accepted
  · rintro raw ⟨hauth, -, envelope, haccepted, henvelope⟩
    refine ⟨hauth, Option.some_ne_none _, envelope, ?_, henvelope⟩
    dsimp only
    rw [hsession]
    exact haccepted

private theorem Ingested.initial : Ingested ({} : State N E runId) :=
  ⟨rfl, ⟨List.Pairwise.nil, List.forall_mem_nil _⟩, rfl, Nat.le_refl _, rfl⟩

variable [JsNumber N]

private theorem Ingested.next {s s' : State N E runId} (h : Ingested s) {a : Action N E runId}
    (hnext : next config s a = some s') :
    Step s s' := by
  have hin := h.process
  unfold State.ProcessInStep at hin
  cases a with
  | accept envelope =>
    rw [← Option.some.inj hnext]
    exact Ingested.step (h.accept envelope) rfl
  | bindSession =>
    rw [← Option.some.inj hnext]
    exact Ingested.step h.bindSession rfl
  | transaction t =>
    simp only [EnvelopeIngestion.next] at hnext
    split at hnext
    · rename_i ht
      rw [← Option.some.inj hnext]
      exact ⟨h.transaction ht, Or.inl rfl⟩
    · exact absurd hnext nofun
  | subscribe =>
    simp only [EnvelopeIngestion.next] at hnext
    split at hnext
    · rename_i hprocess
      rw [hprocess] at hin
      rw [← Option.some.inj hnext]
      exact ⟨fun _ => h.move rfl rfl rfl ⟨hin, rfl⟩, Or.inr (by rw [hin])⟩
    · exact absurd hnext nofun
  | start =>
    simp only [EnvelopeIngestion.next] at hnext
    split at hnext
    · rename_i handle hprocess
      rw [hprocess] at hin
      rw [← Option.some.inj hnext]
      refine Ingested.step (h.consume rfl rfl rfl rfl (inStep_start 0 hin.1.symm ?_ false)) rfl
      intro handle' hhandle
      rw [← Option.some.inj hhandle]
      exact hin.2.trans hin.1.symm
    · exact absurd hnext nofun
  | startPolling =>
    simp only [EnvelopeIngestion.next] at hnext
    split at hnext
    · rename_i hprocess
      rw [hprocess] at hin
      rw [← Option.some.inj hnext]
      refine Ingested.step (h.consume rfl rfl rfl rfl (inStep_start 0 hin.symm ?_ true)) rfl
      exact fun handle hhandle => absurd hhandle (Option.not_mem_none handle)
    · exact absurd hnext nofun
  | abandon =>
    simp only [EnvelopeIngestion.next] at hnext
    split at hnext
    · rw [← Option.some.inj hnext]
      exact Ingested.step (h.move rfl rfl rfl trivial) rfl
    · rw [← Option.some.inj hnext]
      exact Ingested.step (h.move rfl rfl rfl trivial) rfl
    · rw [← Option.some.inj hnext]
      exact Ingested.step (h.move rfl rfl rfl trivial) rfl
    · exact absurd hnext nofun
  | deliver receivedAt =>
    simp only [EnvelopeIngestion.next] at hnext
    split at hnext
    · rename_i marker handle streamRetries hprocess
      rw [hprocess] at hin
      split at hnext
      · rename_i envelope row haccepted hrow
        refine h.resume hprocess ?_ hnext
        intro raw hraw _
        rw [← LoopEvent.frame.inj hraw]
        rw [hin.2] at haccepted
        exact ⟨rfl, by rw [hrow]; exact Option.some_ne_none _, envelope, haccepted, rfl⟩
      · exact absurd hnext nofun
    · exact absurd hnext nofun
  | loop event =>
    simp only [EnvelopeIngestion.next] at hnext
    split at hnext
    · rename_i marker here hprocess
      split at hnext
      · exact absurd hnext nofun
      · rename_i hbrings
        refine h.resume hprocess ?_ hnext
        rintro raw rfl hraw
        exact absurd hraw hbrings
    · exact absurd hnext nofun
  | commit rawId events run runCtx uuid =>
    simp only [EnvelopeIngestion.next] at hnext
    split at hnext
    · rename_i marker origin raw hprocess
      rw [← Option.some.inj hnext]
      exact ⟨h.persist hprocess rawId events run runCtx uuid _, Or.inl rfl⟩
    · exact absurd hnext nofun
  | stop =>
    simp only [EnvelopeIngestion.next] at hnext
    split at hnext
    · rename_i marker here hprocess
      rw [hprocess] at hin
      rw [← Option.some.inj hnext]
      exact Ingested.step (h.move rfl rfl rfl hin.abort) rfl
    · exact absurd hnext nofun
  | crash =>
    rw [← Option.some.inj hnext]
    exact Ingested.step (h.move rfl rfl rfl trivial) rfl
  | readSession lastEventSeq =>
    simp only [EnvelopeIngestion.next] at hnext
    split at hnext
    · rw [← Option.some.inj hnext]
      exact Ingested.step (h.move rfl rfl rfl rfl) rfl
    · exact absurd hnext nofun
  | recover subscribed =>
    simp only [EnvelopeIngestion.next] at hnext
    split at hnext
    · rename_i lastEventSeq session hprocess
      rw [hprocess] at hin
      rw [← Option.some.inj hnext]
      by_cases hresume : (config.streamResumeEnabled && subscribed) = true
      · rw [if_pos hresume]
        refine ⟨fun _ => h.consume rfl rfl rfl rfl (inStep_start _ hin ?_ _), Or.inr ?_⟩
        · intro handle hhandle
          rw [← Option.some.inj hhandle]
          exact hin
        · rw [← hin]
          rfl
      · rw [if_neg hresume]
        refine Ingested.step (h.consume rfl rfl rfl rfl (inStep_start _ hin ?_ _)) (List.append_nil _)
        exact fun handle hhandle => absurd hhandle (Option.not_mem_none handle)
    · exact absurd hnext nofun

/-- A step commits at most one transaction; nothing else touches the rows other than that of the session. -/
theorem next_commits {s s' : State N E runId} {a : Action N E runId} (hnext : next config s a = some s') :
    (s'.commits = s.commits ∧ s'.data.withoutSession = s.data.withoutSession) ∨
      ∃ t, s'.commits = s.commits ++ [t] ∧ s'.data = t.program.apply s.data := by
  have hkeep : ∀ {marker : ActiveStream} {here : LoopAt N E} {event : LoopEvent E},
      s.resume config marker here event = some s' →
        s'.commits = s.commits ∧ s'.data.withoutSession = s.data.withoutSession := by
    intro marker here event hresume
    obtain ⟨loop, -, rfl⟩ := Option.map_eq_some_iff.1 hresume
    exact ⟨rfl, rfl⟩
  cases a with
  | transaction t =>
    simp only [next] at hnext
    split at hnext
    · rw [← Option.some.inj hnext]
      exact Or.inr ⟨t, rfl, rfl⟩
    · exact absurd hnext nofun
  | commit rawId events run runCtx uuid =>
    simp only [next] at hnext
    split at hnext
    · rw [← Option.some.inj hnext]
      exact Or.inr ⟨_, rfl, rfl⟩
    · exact absurd hnext nofun
  | _ =>
    left
    simp only [next] at hnext
    repeat' split at hnext
    all_goals first
      | exact hkeep hnext
      | exact absurd hnext.symm (Option.some_ne_none _)
      | exact Option.some.inj hnext ▸ ⟨rfl, rfl⟩

/-- The rows are those that the committed transactions leave behind, one after the other. -/
theorem rows_eq_afterTxns {s : State N E runId} (hs : (machine config).Reachable s) :
    s.data.withoutSession = (afterTxns (.created none) s.commits).withoutSession := by
  refine hs.invariant (I := fun s =>
    s.data.withoutSession = (afterTxns (.created none) s.commits).withoutSession) ?_ ?_
  · rintro s rfl
    rfl
  · intro s a s' h hnext
    rcases next_commits hnext with ⟨hcommits, hrows⟩ | ⟨t, hcommits, hdata⟩
    · rw [hrows, hcommits]
      exact h
    · rw [hcommits, hdata, t.apply_withoutSession, h, ← t.apply_withoutSession, afterTxns_concat]

/-- In every state that a run reaches, the envelopes are stored as they were accepted. -/
theorem ingested_of_reachable {s : State N E runId} (hs : (machine config).Reachable s)
    (hids : (s.commits.flatMap RunTxn.rawIds).Nodup) : Ingested s := by
  refine hs.invariant (I := fun s => (s.commits.flatMap RunTxn.rawIds).Nodup → Ingested s) ?_ ?_ hids
  · rintro s rfl _
    exact .initial
  · intro s a s' h hnext hids
    have hbefore : (s.commits.flatMap RunTxn.rawIds).Nodup := by
      rcases next_commits hnext with ⟨hcommits, -⟩ | ⟨t, hcommits, -⟩
      · rw [← hcommits]
        exact hids
      · rw [hcommits, List.flatMap_append] at hids
        exact (List.nodup_append.1 hids).1
    exact ((h hbefore).next hnext).ingested hids

/-- Whatever fails, breaks or crashes, and wherever it does: the envelopes of the session stream that are stored are
the first `n` that the session has accepted, in this order, where `n` is the ordinal in the row of the session; the
rows are in the order of their sequence numbers; and whoever subscribes next does it after `n`.  The raw rows have
distinct ids. -/
theorem envelopes_exactly_once {s : State N E runId} (hs : (machine config).Reachable s)
    (hids : (s.commits.flatMap RunTxn.rawIds).Nodup) :
    storedEnvelopes s.data.raw = s.accepted.take (lastEnvelopeOrdinal s.data.session) ∧
    lastEnvelopeOrdinal s.data.session ≤ s.accepted.length ∧
    (s.data.raw.map (·.seq)).Pairwise (· < ·) ∧
    ∀ a s', (machine config).next s a = some s' → s'.subscriptions = s.subscriptions ∨
      s'.subscriptions = s.subscriptions ++ [lastEnvelopeOrdinal s.data.session] := by
  have h := ingested_of_reachable hs hids
  exact ⟨h.stored, h.accepted, h.ordered.increasing, fun a s' hnext => (h.next hnext).subscriptions⟩

/-- The process crashes when the first envelope has been committed and the marker has not moved on; later the
transaction of the second envelope is rolled back. -/
theorem envelopes_exactly_once_recovered :
    ∃ s : State (Option Rat) String "run", (machine {}).Reachable s ∧ s.subscriptions = [0, 1, 1] ∧
      storedEnvelopes s.data.raw = ["e1", "e2"] := by
  let commit : String → Action (Option Rat) String "run" :=
    fun rawId => .commit rawId [] (List.forall_mem_nil _) none fun _ => ""
  let opened : String → List (Action (Option Rat) String "run") := fun rawId =>
    [.loop (.frame { kind := .streamStatus, receivedAt := "10:00", streamStatus := some "opened" }), commit rawId,
     .loop .returned]
  obtain ⟨s, hs, hids, hsubscriptions, haccepted, hordinal⟩ : ∃ s : State (Option Rat) String "run",
    (machine {}).exec {}
      ([.bindSession, .subscribe, .start] ++ opened "r0" ++
        [.accept "e1", .deliver "10:01", commit "r1", .crash, .readSession 3, .recover true] ++ opened "r2" ++
        [.accept "e2", .deliver "10:02", .loop (.threw { message := "deadlock" }), .loop .returned] ++ opened "r3" ++
        [.deliver "10:03", commit "r4"]) = some s ∧ s.commits.flatMap RunTxn.rawIds = ["r0", "r1", "r2", "r3", "r4"] ∧
      s.subscriptions = [0, 1, 1] ∧ s.accepted = ["e1", "e2"] ∧ lastEnvelopeOrdinal s.data.session = 2 :=
    ⟨_, rfl, rfl, rfl, rfl, rfl⟩
  have hreach : (machine {}).Reachable s := ⟨_, _, rfl, hs⟩
  have hnodup : (s.commits.flatMap RunTxn.rawIds).Nodup := by
    rw [hids]
    decide
  have hstored := (envelopes_exactly_once hreach hnodup).1
  rw [haccepted, hordinal] at hstored
  exact ⟨s, hreach, hsubscriptions, hstored⟩

end EnvelopeIngestion

end MacpControlPlane

import MacpControlPlane.Lib.Machine
import MacpControlPlane.Lib.Table
import MacpControlPlane.Runs.Lifecycle

/-!
# Session discovery (`runs/session-discovery.service.ts`)

The loop over the watch stream, statement by statement, with the other callers that write to the tables in between.
Any statement of the loop can fail.  What is thrown while an event is handled ends the watch, unless the handler
catches it; the next watch starts with an initial sync, which is more events.

A session id is in `knownSessions` before its run is inserted, and stays there when the insert fails.
-/

namespace MacpControlPlane.SessionDiscovery

open Js RunManager Lifecycle

variable {N : Type}

/-- `SessionLifecycleEventType` -/
inductive SessionLifecycleEventType where
  | created | resolved | expired | suspended | resumed | cancelled
  deriving DecidableEq, Repr

/-- `SessionLifecycleEvent` -/
structure SessionLifecycleEvent where
  eventType : SessionLifecycleEventType
  session : Option RuntimeSessionSnapshot
  deriving DecidableEq, Repr

def buildRunDescriptor (session : RuntimeSessionSnapshot) : RunDescriptor where
  runtimeKind := "rust"
  modeName := session.mode
  modeVersion := session.modeVersion.getD "1.0.0"
  configurationVersion := session.configurationVersion.getD "config.default"
  policyVersion := session.policyVersion
  sessionId := some session.sessionId
  participants := []

/-- The session that the handler of a created event binds. -/
def boundSession (session : RuntimeSessionSnapshot) : BoundSession where
  runtimeSessionId := session.sessionId
  initiator := session.initiator.getD ""
  sessionState := session.state

/-- The `INSERT` of `createRun` takes the snapshot, which `metadata` holds; a session id that is too long for
`runtime_session_id` is no UUID. -/
def insertable (session : RuntimeSessionSnapshot) : Bool :=
  session.sessionId.length ≤ 255 && Columns.noNul session.sessionId && Columns.noNul session.mode &&
    session.modeVersion.all Columns.noNul && session.configurationVersion.all Columns.noNul &&
    session.policyVersion.all Columns.noNul && session.initiator.all Columns.noNul

/-- The operations that the handler of a created event makes in its `try`. -/
def syncOps (session : RuntimeSessionSnapshot) : List Op :=
  [.markStarted (buildRunDescriptor session), .bindSession (buildRunDescriptor session) (boundSession session),
   .markRunning session.sessionId "SESSION_STATE_OPEN"]

/-- The operation of `handleSessionTerminal` or `handleSessionPaused` for an event. -/
def eventOp : SessionLifecycleEventType → Option Op
  | .created => none
  | .resolved => some .markCompleted
  | .expired => some (.markFailed "session expired")
  | .cancelled => some .markCancelled
  | .suspended => some .markSuspended
  | .resumed => some .markResumed

/-- The operation that `reconcileFromSnapshot` chooses. -/
def reconcileOp (status : RunStatus) (state : String) : Option Op :=
  if status ≠ .running ∧ status ≠ .suspended then none
  else if state = "SESSION_STATE_RESOLVED" then some .markCompleted
  else if state = "SESSION_STATE_EXPIRED" then some (.markFailed "session expired")
  else if state = "SESSION_STATE_CANCELLED" then some .markCancelled
  else if state = "SESSION_STATE_SUSPENDED" then if status = .running then some .markSuspended else none
  else if state = "SESSION_STATE_OPEN" then if status = .suspended then some .markResumed else none
  else none

/-- Where the loop is: each position has one statement of the database ahead of it. -/
inductive At where
  /-- In `iterator.next()`. -/
  | waiting
  /-- `consumeWatchStream` has thrown: an error of the database, or of the repository. -/
  | threw (error : Option RunError)
  /-- The service is being destroyed. -/
  | stopped
  /-- `findBySessionId` in `handleSessionCreated`. -/
  | lookup (session : RuntimeSessionSnapshot)
  /-- The `INSERT` of `createRun`. -/
  | insert (session : RuntimeSessionSnapshot)
  /-- `findByIdOrThrow` after it. -/
  | readBack (session : RuntimeSessionSnapshot) (id traceId : String)
  /-- `createRun` appends its event. -/
  | announce (session : RuntimeSessionSnapshot) (record : RunRow) (traceId : String)
  /-- One of the operations in the `try`, and the ones that follow. -/
  | sync (runId : String) (op : Op) (rest : List Op) (phase : Phase)
  /-- `bindSession` upserts the runtime session. -/
  | upsert (runId : String) (request : RunDescriptor) (session : BoundSession) (rest : List Op) (run : RunRow)
  /-- `findBySessionId` in `handleSessionTerminal` or `handleSessionPaused`; `caught` is whether it has been called by
  `reconcileFromSnapshot`. -/
  | find (sessionId : String) (op : Op) (caught : Bool)
  /-- The operation on the run that it has found. -/
  | mark (runId : String) (op : Op) (phase : Phase) (caught : Bool)

/-- The primary key of a row. -/
abbrev runKey (r : Record N) : String := r.row.id

/-- The column `runtime_session_id` of a row. -/
abbrev sessionKey (r : Record N) : Option String := r.row.runtimeSessionId

/-- The tables, and the discovery service.  `bound` collects the session ids that a row has ever been bound to. -/
structure State (N : Type) where
  records : List (Record N) := []
  runtimeSessions : List RuntimeSessionValues := []
  bound : List String := []
  knownSessions : List String := []
  here : At := .waiting
  /-- The runs that have been handed to the stream consumer. -/
  started : List String := []
  aborted : Bool := false

namespace State

def findById (s : State N) (id : String) : Option (Record N) := Table.get runKey s.records id

def findBySessionId (s : State N) (sessionId : String) : Option (Record N) :=
  Table.get sessionKey s.records (some sessionId)

/-- Write the `runs` table. -/
def save (s : State N) (records : List (Record N)) : State N :=
  { s with records, bound := s.bound ++ records.filterMap sessionKey }

/-- `knownSessions.add` -/
def know (s : State N) (sessionId : String) : State N := { s with knownSessions := sessionId :: s.knownSessions }

/-- `subscribeSession`, and `streamConsumer.start`. -/
def subscribe (s : State N) (runId : String) : State N := { s with started := s.started ++ [runId], here := .waiting }

/-- A handler throws; `reconcileFromSnapshot` catches it. -/
def reject (s : State N) (caught : Bool) (error : Option RunError) : State N :=
  { s with here := if caught then .waiting else .threw error }

/-- The row could be inserted: its id and its session id are not taken. -/
def free (s : State N) (id sessionId : String) : Bool :=
  (s.findById id).isNone && (s.findBySessionId sessionId).isNone

/-- `RuntimeSessionRepository.upsert`: the rows after it, unless a column refuses a text, the run is not there, or the
row of another run has the session id. -/
def upsert (s : State N) (values : RuntimeSessionValues) : Option (List RuntimeSessionValues) :=
  let others := Table.remove RuntimeSessionValues.runId s.runtimeSessions values.runId
  if values.fits && (s.findById values.runId).isSome &&
      others.all (fun other => other.runtimeSessionId ≠ values.cut.runtimeSessionId) then
    some (others ++ [values.cut])
  else none

end State

/-- What the reads of a row throw when it is not there. -/
def notFound (runId : String) : RunError := .error s!"run {runId} not found"

/-- What `allocateSequence` throws when the row is not there. -/
def notAllocated (runId : String) : RunError := .error s!"run {runId} not found while allocating sequence"

/-- A statement of an operation whose row is not there. -/
def missing (runId : String) : Phase → Outcome
  | .check => .threw (notFound runId)
  | .update => .goesOn .reread
  | .reread => .threw (notFound runId)
  | .emit _ => .threw (notAllocated runId)

/-- A statement of an operation on a row of the table. -/
def stepOn (env : Env) (op : Op) (records : List (Record N)) (runId : String) (phase : Phase) :
    List (Record N) × Outcome :=
  match Table.get runKey records runId with
  | some r => (Table.put runKey records runId (step env op r phase).1, (step env op r phase).2)
  | none => (records, missing runId phase)

theorem stepOn_of_found {s : State N} {runId : String} {r : Record N} (h : s.findById runId = some r) (env : Env)
    (op : Op) (phase : Phase) : stepOn env op s.records runId phase =
      (Table.put runKey s.records runId (step env op r phase).1, (step env op r phase).2) := by
  have hget : Table.get runKey s.records runId = some r := h
  rw [stepOn, hget]

/-- The operations that are left of the `try`. -/
def State.syncNext (s : State N) (runId : String) : List Op → State N
  | [] => s.subscribe runId
  | op :: rest => { s with here := .sync runId op rest op.first }

/-- How the `try` goes on: what it catches is logged, and the session is subscribed to all the same. -/
def State.afterSync (s : State N) (runId : String) (op : Op) (rest : List Op) : Outcome → State N
  | .goesOn (.emit run) =>
    match op with
    | .bindSession request session => { s with here := .upsert runId request session rest run }
    | _ => { s with here := .sync runId op rest (.emit run) }
  | .goesOn phase => { s with here := .sync runId op rest phase }
  | .returned _ => s.syncNext runId rest
  | .threw _ => s.subscribe runId

/-- How `handleSessionTerminal` and `handleSessionPaused` go on. -/
def State.afterMark (s : State N) (runId : String) (op : Op) (caught : Bool) : Outcome → State N
  | .goesOn phase => { s with here := .mark runId op phase caught }
  | .returned _ => { s with here := .waiting }
  | .threw error => s.reject caught (some error)

/-- What can happen next. -/
inductive Action (N : Type) where
  /-- The watch yields an event. -/
  | event (event : SessionLifecycleEvent)
  /-- The next statement of the loop succeeds; `traceId` is what `startRunTrace` has returned. -/
  | statement (env : Env) (traceId : String)
  /-- The next statement of the loop fails. -/
  | fail
  /-- A new watch. -/
  | reconnect
  | destroy
  /-- Another caller creates a run. -/
  | create (row : RunRow)
  /-- Another caller makes a transition of a run. -/
  | transition (id : String) (transition : Transition) (now : String)
  /-- Another caller appends events of a run. -/
  | append (id : String) (env : Env) (events : List (PartialEvent N))
  /-- `deleteRun` -/
  | delete (id : String)

/-- A statement of the loop that succeeds. -/
def IsStatement (a : Action N) : Prop := ∃ env traceId, a = .statement env traceId

/-- `consumeWatchStream`, at an event. -/
def State.consume (s : State N) (event : SessionLifecycleEvent) : State N :=
  if s.aborted then { s with here := .stopped }
  else
    match event.session with
    | none => s
    | some session =>
      if session.sessionId = "" then s
      else
        match eventOp event.eventType with
        | none => { s with here := .lookup session }
        | some op => { s with here := .find session.sessionId op false }

section Statements

-- The column `runs.id` has the type `uuid`: what it stores for a string, unless it refuses the string.
variable (uuid : String → Option String)

/-- The next statement of the loop, with what follows up to the one after it. -/
def State.statement (s : State N) (env : Env) (traceId : String) : Option (State N) :=
  match s.here with
  | .waiting | .threw _ | .stopped => none
  | .lookup session =>
    match s.findBySessionId session.sessionId with
    | some existing =>
      let s := s.know session.sessionId
      match reconcileOp existing.row.status session.state with
      | some op => some { s with here := .find session.sessionId op true }
      | none => some { s with here := .waiting }
    | none =>
      if session.sessionId ∈ s.knownSessions then some { s with here := .waiting }
      else some { s.know session.sessionId with here := .insert session }
  | .insert session =>
    match uuid session.sessionId with
    | some id =>
      if insertable session && s.free id session.sessionId then
        let row := createdRow (buildRunDescriptor session) session.sessionId id traceId env.now
        some { s.save (s.records ++ [{ row := row }]) with here := .readBack session id traceId }
      else some (s.reject false none)
    | none => some (s.reject false none)
  | .readBack session id traceId =>
    match s.findById id with
    | some r => some { s with here := .announce session r.row traceId }
    | none => some (s.reject false (some (notFound id)))
  | .announce session record traceId =>
    match s.findById record.id with
    | some r =>
      let events := createdEvents (buildRunDescriptor session) session.sessionId record traceId env.now
      let s := s.save (Table.put runKey s.records record.id (r.emit env events))
      some (s.syncNext record.id (syncOps session))
    | none => some (s.reject false (some (notAllocated record.id)))
  | .sync runId op rest phase =>
    let result := stepOn env op s.records runId phase
    some ((s.save result.1).afterSync runId op rest result.2)
  | .upsert runId request session rest run =>
    match s.upsert (boundValues runId request session env.now) with
    | some runtimeSessions =>
      some { s with runtimeSessions, here := .sync runId (.bindSession request session) rest (.emit run) }
    | none => some (s.subscribe runId)
  | .find sessionId op caught =>
    match s.findBySessionId sessionId with
    | none => some { s with here := .waiting }
    | some r =>
      if r.row.status.terminal then some { s with here := .waiting }
      else some { s with here := .mark r.row.id op op.first caught }
  | .mark runId op phase caught =>
    let result := stepOn env op s.records runId phase
    some ((s.save result.1).afterMark runId op caught result.2)

/-- The next statement of the loop fails. -/
def State.fails (s : State N) : Option (State N) :=
  match s.here with
  | .waiting | .threw _ | .stopped => none
  | .lookup session =>
    if session.sessionId ∈ s.knownSessions then some { s with here := .waiting } else some (s.reject false none)
  | .insert _ | .readBack _ _ _ | .announce _ _ _ => some (s.reject false none)
  | .sync runId _ _ _ | .upsert runId _ _ _ _ => some (s.subscribe runId)
  | .find _ _ caught | .mark _ _ _ caught => some (s.reject caught none)

/-- One step. -/
def next (s : State N) : Action N → Option (State N)
  | .event event =>
    match s.here with
    | .waiting => some (s.consume event)
    | _ => none
  | .statement env traceId => s.statement uuid env traceId
  | .fail => s.fails
  | .reconnect =>
    match s.here with
    | .threw _ => some { s with here := if s.aborted then .stopped else .waiting }
    | _ => none
  | .destroy => some { s with aborted := true }
  | .create row =>
    if (s.findById row.id).isNone ∧ ∀ r ∈ s.records, row.runtimeSessionId = none ∨ sessionKey r ≠ row.runtimeSessionId
    then some (s.save (s.records ++ [{ row := row }]))
    else none
  | .transition id transition now =>
    (s.findById id).bind fun r =>
      (compareAndSet transition now r.row).map fun row => s.save (Table.put runKey s.records id { r with row })
  | .append id env events =>
    (s.findById id).map fun r => s.save (Table.put runKey s.records id (r.emit env events))
  | .delete id =>
    (s.findById id).bind fun r =>
      if r.row.status.terminal then
        -- The rows that refer to the run go with it.
        some { s.save (Table.remove runKey s.records id) with
          runtimeSessions := Table.remove RuntimeSessionValues.runId s.runtimeSessions id }
      else none

/-- What an action does. -/
inductive NextSpec (s : State N) : Action N → State N → Prop
  | event {event : SessionLifecycleEvent} (here : s.here = .waiting) : NextSpec s (.event event) (s.consume event)
  | statement {env : Env} {traceId : String} {t : State N} (step : s.statement uuid env traceId = some t) :
    NextSpec s (.statement env traceId) t
  | fail {t : State N} (step : s.fails = some t) : NextSpec s .fail t
  | reconnect {error : Option RunError} (here : s.here = .threw error) :
    NextSpec s .reconnect { s with here := if s.aborted then .stopped else .waiting }
  | destroy : NextSpec s .destroy { s with aborted := true }
  | create {row : RunRow} (free : s.findById row.id = none) :
    NextSpec s (.create row) (s.save (s.records ++ [{ row := row }]))
  | transition {id now : String} {transition : Transition} {r : Record N} {row : RunRow}
    (found : s.findById id = some r) (moved : compareAndSet transition now r.row = some row) :
    NextSpec s (.transition id transition now) (s.save (Table.put runKey s.records id { r with row }))
  | append {id : String} {env : Env} {events : List (PartialEvent N)} {r : Record N} (found : s.findById id = some r) :
    NextSpec s (.append id env events) (s.save (Table.put runKey s.records id (r.emit env events)))
  | delete {id : String} : NextSpec s (.delete id)
      { s.save (Table.remove runKey s.records id) with
        runtimeSessions := Table.remove RuntimeSessionValues.runId s.runtimeSessions id }

theorem next_spec {s t : State N} {a : Action N} (h : next uuid s a = some t) : NextSpec uuid s a t := by
  cases a with
  | event event =>
    simp only [next] at h
    split at h
    · rename_i hhere
      rw [← Option.some.inj h]
      exact .event hhere
    · exact absurd h (by simp)
  | statement env traceId => exact .statement h
  | fail => exact .fail h
  | reconnect =>
    simp only [next] at h
    split at h
    · rename_i hhere
      rw [← Option.some.inj h]
      exact .reconnect hhere
    · exact absurd h (by simp)
  | destroy =>
    rw [← Option.some.inj h]
    exact .destroy
  | create row =>
    simp only [next] at h
    split at h
    · rename_i hfree
      rw [← Option.some.inj h]
      exact .create (Option.isNone_iff_eq_none.1 hfree.1)
    · exact absurd h (by simp)
  | transition id transition now =>
    obtain ⟨r, hfound, hstep⟩ := Option.bind_eq_some_iff.1 h
    obtain ⟨row, hmoved, rfl⟩ := Option.map_eq_some_iff.1 hstep
    exact .transition hfound hmoved
  | append id env events =>
    obtain ⟨r, hfound, rfl⟩ := Option.map_eq_some_iff.1 h
    exact .append hfound
  | delete id =>
    obtain ⟨r, -, hstep⟩ := Option.bind_eq_some_iff.1 h
    split at hstep
    · rw [← Option.some.inj hstep]
      exact .delete
    · exact absurd hstep (by simp)

/-- A service that has just been created, over tables in any state. -/
def machine : Machine (State N) (Action N) where
  start s := ∃ records runtimeSessions, (records.map runKey).Nodup ∧
    s = { records, runtimeSessions, bound := records.filterMap sessionKey }
  next := next uuid

end Statements

/-! ### What the service knows -/

/-- The service has put the session into `knownSessions`, and is at the `INSERT` of its run. -/
def Inserting (s : State N) (sessionId : String) : Prop :=
  ∃ session, s.here = .insert session ∧ session.sessionId = sessionId

/-- A session that is known has, or had, a run that is bound to it, unless its run is just being inserted. -/
def Tracked (s : State N) : Prop := ∀ sessionId ∈ s.knownSessions, sessionId ∈ s.bound ∨ Inserting s sessionId

/-- The `INSERT` of `createRun` does not fail, unless a run is, or was, bound to the session. -/
def InsertSucceeds (uuid : String → Option String) (s : State N) : Action N → Prop
  | .statement _ _ =>
    ∀ session, s.here = .insert session →
      (∃ id, uuid session.sessionId = some id ∧ (insertable session && s.free id session.sessionId) = true) ∨
        session.sessionId ∈ s.bound
  | .fail => ∀ session, s.here = .insert session → session.sessionId ∈ s.bound
  | _ => True

section Known

variable {uuid : String → Option String} {s t : State N}

/-- The sessions of the rows are among those that a row has been bound to. -/
def Stored (s : State N) : Prop := ∀ r ∈ s.records, ∀ sessionId, sessionKey r = some sessionId → sessionId ∈ s.bound

private theorem stored_save (s : State N) (records : List (Record N)) : Stored (s.save records) := by
  intro r hr sessionId hsession
  exact List.mem_append_right _ (List.mem_filterMap.2 ⟨r, hr, hsession⟩)

private theorem subset_save (s : State N) (records : List (Record N)) : s.bound ⊆ (s.save records).bound :=
  fun _ h => List.mem_append_left _ h

/-- The loop goes on, and not to an `INSERT`. -/
structure GoesOn (s t : State N) : Prop where
  records : t.records = s.records
  bound : t.bound = s.bound
  known : t.knownSessions = s.knownSessions
  here : ∀ session, t.here ≠ .insert session

private theorem GoesOn.subscribe (s : State N) (runId : String) : GoesOn s (s.subscribe runId) :=
  ⟨rfl, rfl, rfl, by simp [State.subscribe]⟩

private theorem GoesOn.reject (s : State N) (caught : Bool) (error : Option RunError) :
    GoesOn s (s.reject caught error) := by
  refine ⟨rfl, rfl, rfl, fun session => ?_⟩
  cases caught <;> simp [State.reject]

theorem GoesOn.syncNext (s : State N) (runId : String) (ops : List Op) : GoesOn s (s.syncNext runId ops) := by
  cases ops with
  | nil => exact .subscribe s runId
  | cons op rest => exact ⟨rfl, rfl, rfl, by simp [State.syncNext]⟩

theorem GoesOn.afterSync (s : State N) (runId : String) (op : Op) (rest : List Op) (outcome : Outcome) :
    GoesOn s (s.afterSync runId op rest outcome) := by
  cases outcome with
  | goesOn phase => cases phase <;> cases op <;> exact ⟨rfl, rfl, rfl, by simp [State.afterSync]⟩
  | returned run => exact .syncNext s runId rest
  | threw error => exact .subscribe s runId

theorem GoesOn.afterMark (s : State N) (runId : String) (op : Op) (caught : Bool) (outcome : Outcome) :
    GoesOn s (s.afterMark runId op caught outcome) := by
  cases outcome with
  | goesOn phase => exact ⟨rfl, rfl, rfl, by simp [State.afterMark]⟩
  | returned run => exact ⟨rfl, rfl, rfl, by simp [State.afterMark]⟩
  | threw error => exact .reject s caught _

/-- What holds of the sessions that are known. -/
structure Inv (s : State N) : Prop where
  stored : Stored s
  tracked : Tracked s
  inserting : ∀ session, s.here = .insert session → session.sessionId ∈ s.knownSessions

/-- The loop goes on, perhaps after it has written the `runs` table. -/
theorem Inv.goesOn (h : Inv s) (hnot : ∀ session, s.here ≠ .insert session) (hgoes : GoesOn s t) : Inv t := by
  refine ⟨?_, ?_, fun session hhere => absurd hhere (hgoes.here session)⟩
  · rw [Stored, hgoes.records, hgoes.bound]
    exact h.stored
  · intro sessionId hknown
    rw [hgoes.known] at hknown
    rw [hgoes.bound]
    rcases h.tracked sessionId hknown with hbound | ⟨session, hhere, -⟩
    · exact Or.inl hbound
    · exact absurd hhere (hnot session)

private theorem Inv.save (h : Inv s) (records : List (Record N)) : Inv (s.save records) := by
  refine ⟨stored_save s records, fun sessionId hknown => ?_, h.inserting⟩
  exact (h.tracked sessionId hknown).imp_left fun hbound => subset_save s records hbound

/-- A lookup that has found no run of a session that is not known yet. -/
theorem Inv.insert (h : Inv s) (hnot : ∀ session, s.here ≠ .insert session) (session : RuntimeSessionSnapshot) :
    Inv { s.know session.sessionId with here := .insert session } := by
  refine ⟨h.stored, fun sessionId hknown => ?_, fun other hhere => ?_⟩
  · rcases List.mem_cons.1 hknown with rfl | hknown
    · exact Or.inr ⟨session, rfl, rfl⟩
    · rcases h.tracked sessionId hknown with hbound | ⟨other, hhere, -⟩
      · exact Or.inl hbound
      · exact absurd hhere (hnot other)
  · obtain rfl : session = other := by simpa using hhere
    exact List.mem_cons_self

/-- A lookup that has found the run of the session. -/
theorem Inv.know (h : Inv s) (hnot : ∀ session, s.here ≠ .insert session) {sessionId : String} {r : Record N}
    (hfound : s.findBySessionId sessionId = some r) : Inv (s.know sessionId) := by
  refine ⟨h.stored, fun other hknown => ?_, fun session hhere => absurd hhere (hnot session)⟩
  rcases List.mem_cons.1 hknown with rfl | hknown
  · exact Or.inl (h.stored r (Table.mem_of_get hfound) _ (Table.key_of_get hfound))
  · rcases h.tracked other hknown with hbound | ⟨session, hhere, -⟩
    · exact Or.inl hbound
    · exact absurd hhere (hnot session)

/-- After the `INSERT`, the session has a run, or has had one. -/
theorem Inv.inserted (h : Inv s) {session : RuntimeSessionSnapshot} (hhere : s.here = .insert session)
    (hstored : Stored t) (hbound : s.bound ⊆ t.bound) (hsession : session.sessionId ∈ t.bound)
    (hknown : t.knownSessions = s.knownSessions) (hnot : ∀ session, t.here ≠ .insert session) : Inv t := by
  refine ⟨hstored, fun sessionId hmem => ?_, fun other hother => absurd hother (hnot other)⟩
  rw [hknown] at hmem
  rcases h.tracked sessionId hmem with hold | ⟨other, hother, rfl⟩
  · exact Or.inl (hbound hold)
  · obtain rfl : session = other := by simpa using hhere.symm.trans hother
    exact Or.inl hsession

private theorem Inv.statement (h : Inv s) {env : Env} {traceId : String}
    (hwhen : InsertSucceeds uuid s (.statement env traceId)) (hnext : s.statement uuid env traceId = some t) :
    Inv t := by
  cases hhere : s.here with
  | waiting | threw error | stopped => exact absurd hnext (by simp [State.statement, hhere])
  | lookup session =>
    have hnot : ∀ session, s.here ≠ .insert session := by simp [hhere]
    simp only [State.statement, hhere] at hnext
    split at hnext
    · rename_i hfound
      have hinv := h.know hnot hfound
      split at hnext <;> rw [← Option.some.inj hnext] <;>
        exact hinv.goesOn hnot ⟨rfl, rfl, rfl, fun _ => by simp⟩
    · split at hnext <;> rw [← Option.some.inj hnext]
      · exact h.goesOn hnot ⟨rfl, rfl, rfl, fun _ => by simp⟩
      · exact h.insert hnot session
  | insert session =>
    simp only [State.statement, hhere] at hnext
    -- The column refuses the id, or a key is taken.
    have hreject :
        ¬ (∃ id, uuid session.sessionId = some id ∧ (insertable session && s.free id session.sessionId) = true) →
        Inv (s.reject false none) := fun hfails =>
      h.inserted hhere h.stored (List.Subset.refl _) ((hwhen session hhere).resolve_left hfails) rfl
        (GoesOn.reject s false none).here
    split at hnext
    · rename_i id huuid
      split at hnext <;> rw [← Option.some.inj hnext]
      · refine h.inserted hhere (stored_save s _) (subset_save s _) ?_ rfl (by simp)
        exact List.mem_append_right _
          (List.mem_filterMap.2 ⟨_, List.mem_append_right _ (List.mem_singleton_self _), rfl⟩)
      · refine hreject ?_
        rintro ⟨id', hid', hfree⟩
        obtain rfl : id = id' := Option.some.inj (huuid.symm.trans hid')
        contradiction
    · rename_i huuid
      rw [← Option.some.inj hnext]
      refine hreject ?_
      rintro ⟨id, hid, -⟩
      exact absurd (huuid.symm.trans hid) (by simp)
  | readBack session id traceId =>
    have hnot : ∀ session, s.here ≠ .insert session := by simp [hhere]
    simp only [State.statement, hhere] at hnext
    split at hnext <;> rw [← Option.some.inj hnext]
    · exact h.goesOn hnot ⟨rfl, rfl, rfl, fun _ => by simp⟩
    · exact h.goesOn hnot (.reject s false _)
  | announce session record traceId =>
    have hnot : ∀ session, s.here ≠ .insert session := by simp [hhere]
    simp only [State.statement, hhere] at hnext
    split at hnext <;> rw [← Option.some.inj hnext]
    · exact (h.save _).goesOn hnot (.syncNext _ _ _)
    · exact h.goesOn hnot (.reject s false _)
  | sync runId op rest phase =>
    have hnot : ∀ session, s.here ≠ .insert session := by simp [hhere]
    simp only [State.statement, hhere] at hnext
    rw [← Option.some.inj hnext]
    exact (h.save _).goesOn hnot (.afterSync _ _ _ _ _)
  | upsert runId request session rest run =>
    have hnot : ∀ session, s.here ≠ .insert session := by simp [hhere]
    simp only [State.statement, hhere] at hnext
    split at hnext <;> rw [← Option.some.inj hnext]
    · exact h.goesOn hnot ⟨rfl, rfl, rfl, fun _ => by simp⟩
    · exact h.goesOn hnot (.subscribe s runId)
  | find sessionId op caught =>
    have hnot : ∀ session, s.here ≠ .insert session := by simp [hhere]
    simp only [State.statement, hhere] at hnext
    split at hnext
    · rw [← Option.some.inj hnext]
      exact h.goesOn hnot ⟨rfl, rfl, rfl, fun _ => by simp⟩
    · split at hnext <;> rw [← Option.some.inj hnext] <;>
        exact h.goesOn hnot ⟨rfl, rfl, rfl, fun _ => by simp⟩
  | mark runId op phase caught =>
    have hnot : ∀ session, s.here ≠ .insert session := by simp [hhere]
    simp only [State.statement, hhere] at hnext
    rw [← Option.some.inj hnext]
    exact (h.save _).goesOn hnot (.afterMark _ _ _ _ _)

private theorem Inv.fails (h : Inv s) (hwhen : InsertSucceeds uuid s .fail) (hnext : s.fails = some t) : Inv t := by
  cases hhere : s.here with
  | waiting | threw error | stopped => exact absurd hnext (by simp [State.fails, hhere])
  | insert session =>
    simp only [State.fails, hhere] at hnext
    rw [← Option.some.inj hnext]
    exact h.inserted hhere h.stored (List.Subset.refl _) (hwhen session hhere) rfl (GoesOn.reject s false none).here
  | lookup session =>
    have hnot : ∀ session, s.here ≠ .insert session := by simp [hhere]
    simp only [State.fails, hhere] at hnext
    split at hnext <;> rw [← Option.some.inj hnext]
    · exact h.goesOn hnot ⟨rfl, rfl, rfl, fun _ => by simp⟩
    · exact h.goesOn hnot (.reject s false _)
  | readBack | announce | find | mark =>
    have hnot : ∀ session, s.here ≠ .insert session := by simp [hhere]
    simp only [State.fails, hhere] at hnext
    rw [← Option.some.inj hnext]
    exact h.goesOn hnot (.reject s _ _)
  | sync | upsert =>
    have hnot : ∀ session, s.here ≠ .insert session := by simp [hhere]
    simp only [State.fails, hhere] at hnext
    rw [← Option.some.inj hnext]
    exact h.goesOn hnot (.subscribe s _)

private theorem GoesOn.consume (s : State N) (hnot : ∀ session, s.here ≠ .insert session)
    (event : SessionLifecycleEvent) : GoesOn s (s.consume event) := by
  unfold State.consume
  split
  · exact ⟨rfl, rfl, rfl, fun _ => by simp⟩
  · split
    · exact ⟨rfl, rfl, rfl, hnot⟩
    · split
      · exact ⟨rfl, rfl, rfl, hnot⟩
      · split <;> exact ⟨rfl, rfl, rfl, fun _ => by simp⟩

private theorem Inv.next (h : Inv s) {a : Action N} (hwhen : InsertSucceeds uuid s a)
    (hnext : SessionDiscovery.next uuid s a = some t) : Inv t := by
  cases next_spec uuid hnext with
  | event hhere =>
    have hnot : ∀ session, s.here ≠ .insert session := by simp [hhere]
    exact h.goesOn hnot (.consume s hnot _)
  | statement hstep => exact h.statement hwhen hstep
  | fail hstep => exact h.fails hwhen hstep
  | reconnect hhere =>
    refine h.goesOn (by simp [hhere]) ⟨rfl, rfl, rfl, fun _ => ?_⟩
    cases s.aborted <;> simp
  | destroy => exact ⟨h.stored, h.tracked, h.inserting⟩
  | create | transition | append => exact h.save _
  | delete => exact ⟨(h.save _).stored, (h.save _).tracked, h.inserting⟩

/-- An `INSERT` that fails leaves the session among those that are known. -/
theorem Inv.insertSucceeds (h : Inv s) {a : Action N} (hnext : SessionDiscovery.next uuid s a = some t)
    (htracked : Tracked t) : InsertSucceeds uuid s a := by
  have hrejected : ∀ session, s.here = .insert session → t = s.reject false none → session.sessionId ∈ s.bound := by
    rintro session hhere rfl
    rcases htracked session.sessionId (h.inserting session hhere) with hbound | ⟨other, hother, -⟩
    · exact hbound
    · exact absurd hother ((GoesOn.reject s false none).here other)
  cases a with
  | statement env traceId =>
    intro session hhere
    by_cases haccepts : ∃ id, uuid session.sessionId = some id ∧
        (insertable session && s.free id session.sessionId) = true
    · exact Or.inl haccepts
    · right
      apply hrejected session hhere
      have hstep : s.statement uuid env traceId = some t := hnext
      simp only [State.statement, hhere] at hstep
      split at hstep
      · rename_i id huuid
        rw [if_neg fun hfree => haccepts ⟨id, huuid, hfree⟩] at hstep
        exact (Option.some.inj hstep).symm
      · exact (Option.some.inj hstep).symm
  | fail =>
    intro session hhere
    apply hrejected session hhere
    have hstep : s.fails = some t := hnext
    simp only [State.fails, hhere] at hstep
    exact (Option.some.inj hstep).symm
  | _ => trivial

private theorem inv_of_start (h : (machine uuid).start s) : Inv s := by
  obtain ⟨records, runtimeSessions, -, rfl⟩ := h
  refine ⟨fun r hr sessionId hsession => List.mem_filterMap.2 ⟨r, hr, hsession⟩, ?_, fun session hhere => ?_⟩
  · exact fun sessionId hknown => absurd hknown List.not_mem_nil
  · exact absurd hhere (by simp)

/-- Where a session has never had a run, its next created event gets to the `INSERT`. -/
theorem Inv.rediscovers (h : Inv s) (hhere : s.here = .waiting) (haborted : s.aborted = false)
    {session : RuntimeSessionSnapshot} (hne : session.sessionId ≠ "") (hbound : session.sessionId ∉ s.bound)
    (env : Env) (traceId : String) :
    ∃ u, (machine uuid).exec s [.event ⟨.created, some session⟩, .statement env traceId] = some u ∧
      u.here = .insert session := by
  have hknown : session.sessionId ∉ s.knownSessions := by
    intro hmem
    rcases h.tracked _ hmem with hold | ⟨other, hother, -⟩
    · exact hbound hold
    · exact absurd (hhere.symm.trans hother) (by simp)
  have hnone : s.findBySessionId session.sessionId = none := by
    cases hfound : s.findBySessionId session.sessionId with
    | none => rfl
    | some r => exact absurd (h.stored r (Table.mem_of_get hfound) _ (Table.key_of_get hfound)) hbound
  have hevent : (machine uuid).next s (.event ⟨.created, some session⟩) = some { s with here := .lookup session } := by
    simp [machine, SessionDiscovery.next, hhere, State.consume, haborted, hne, eventOp]
  have hlookup : (machine uuid).next { s with here := .lookup session } (.statement env traceId) =
      some { s.know session.sessionId with here := .insert session } := by
    have hnone' : State.findBySessionId { s with here := .lookup session } session.sessionId = none := hnone
    simp only [machine, SessionDiscovery.next, State.statement, hnone', hknown, if_false]
    rfl
  exact ⟨_, Machine.exec_cons_eq_some.2 ⟨_, hevent, Machine.exec_cons_eq_some.2 ⟨_, hlookup, rfl⟩⟩, rfl⟩

/-- A known session has, or had, a run all along exactly when no `INSERT` fails for a session without one.  Then the
next created event of a session that has never had a run gets to the `INSERT` again. -/
theorem discovery_tracks_iff {as : List (Action N)} (hs : (machine uuid).start s)
    (h : (machine uuid).exec s as = some t) :
    ((∀ bs u, bs <+: as → (machine uuid).exec s bs = some u → Tracked u) ↔
        (machine uuid).Throughout (InsertSucceeds uuid) s as) ∧
      ((machine uuid).Throughout (InsertSucceeds uuid) s as → t.here = .waiting → t.aborted = false →
        ∀ session : RuntimeSessionSnapshot, session.sessionId ≠ "" → session.sessionId ∉ t.bound →
          ∀ env traceId, ∃ u,
            (machine uuid).exec t [.event ⟨.created, some session⟩, .statement env traceId] = some u ∧
              u.here = .insert session) := by
  constructor
  · refine Machine.throughout_iff_of_step (fun _ hinv => hinv.tracked) ?_ (inv_of_start hs) h
    exact fun s a t hinv hnext => ⟨hinv.insertSucceeds hnext, fun hwhen => hinv.next hwhen hnext⟩
  · intro hwhen hhere haborted session hne hbound env traceId
    have hinv : Inv t := hwhen.invariant (fun _ _ _ hs hP hnext => hs.next hP hnext) (inv_of_start hs) h
    exact hinv.rediscovers hhere haborted hne hbound env traceId

end Known

/-- A session that an external launcher has opened. -/
def opened (sessionId : String) : RuntimeSessionSnapshot where
  sessionId
  mode := "macp.mode.decision.v1"
  state := "SESSION_STATE_OPEN"

/-- The next statement of the loop. -/
def statement : Action (Option Rat) := .statement ⟨"2026-01-01T00:00:00.000Z", fun _ => "e", none⟩ "trace"

/-- A session whose run is inserted. -/
theorem discovery_tracks_inserted :
    let as := [.event ⟨.created, some (opened "11111111-1111-4111-8111-111111111111")⟩, statement, statement]
    ∃ t, (machine some).exec {} as = some t ∧ t.knownSessions = ["11111111-1111-4111-8111-111111111111"] ∧
      ∀ bs u, bs <+: as → (machine some).exec {} bs = some u → Tracked u := by
  intro as
  obtain ⟨t, ht, hknown⟩ : ∃ t, (machine some).exec {} as = some t ∧
      t.knownSessions = ["11111111-1111-4111-8111-111111111111"] := ⟨_, rfl, rfl⟩
  refine ⟨t, ht, hknown, (discovery_tracks_iff ⟨[], [], .nil, rfl⟩ ht).1.2 ?_⟩
  refine .cons trivial rfl (.cons ?_ rfl (.cons ?_ rfl trivial))
  · exact fun session hhere => At.noConfusion hhere
  · intro session hhere
    obtain rfl := At.insert.inj hhere
    exact Or.inl ⟨_, rfl, rfl⟩

/-- The `INSERT` fails: the session stays known without a run. -/
theorem discovery_tracks_failed :
    ¬ ∀ (as : List (Action (Option Rat))) (t : State (Option Rat)), (machine some).exec {} as = some t →
      Tracked t := by
  intro h
  obtain ⟨t, ht, hknown, hbound, hhere⟩ :
      ∃ t, (machine some).exec {}
          [.event ⟨.created, some (opened "11111111-1111-4111-8111-111111111111")⟩, statement, .fail] = some t ∧
        t.knownSessions = ["11111111-1111-4111-8111-111111111111"] ∧ t.bound = [] ∧ t.here = .threw none :=
    ⟨_, rfl, rfl, rfl, rfl⟩
  rcases h _ t ht _ (hknown ▸ List.mem_singleton_self _) with hmem | ⟨session, hinsert, -⟩
  · rw [hbound] at hmem
    exact absurd hmem List.not_mem_nil
  · exact absurd (hhere.symm.trans hinsert) (by simp)

end MacpControlPlane.SessionDiscovery

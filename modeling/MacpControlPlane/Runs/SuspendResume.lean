import MacpControlPlane.Lib.Callers
import MacpControlPlane.Runs.DiscoveryWatch

/-!
# Suspending and resuming (`runs/run-executor.service.ts`, `runs/session-discovery.service.ts`)

A session is suspended and resumed by calls of `suspend` and `resume`, and by others.  A call asks the runtime and then
marks the run; the watch of the discovery loop marks it too, on the event of the runtime, or on the snapshot with which
every watch begins.  Here the calls, the runtime, the watch and the other callers that write to the tables run at once.

A mark may come late: of a call whose session has changed again in the meantime, or has never changed, since `suspend`
and `resume` do not look at the `ack` of the runtime.  And the runtime sweeps sessions that have ended, so that a watch
may begin without the session of a run that has not seen its end.  `Timely` says when neither happens.
-/

namespace MacpControlPlane.SuspendResume

open RunManager Lifecycle
open SessionDiscovery (At SessionLifecycleEvent SessionLifecycleEventType runKey sessionKey stepOn notFound eventOp
  reconcileOp Threw)

variable {N : Type}

/-! ### Calls and sessions -/

/-- `suspend` or `resume` -/
inductive Method where
  | suspend | resume
  deriving DecidableEq, Repr

namespace Method

/-- The status that the run must have. -/
def required : Method → RunStatus
  | suspend => .running
  | resume => .suspended

/-- The operation that marks the run. -/
def op : Method → Op
  | suspend => .markSuspended
  | resume => .markResumed

/-- The event with which the runtime changes the session. -/
def eventType : Method → SessionLifecycleEventType
  | suspend => .suspended
  | resume => .resumed

def refusal (status : RunStatus) : Method → String
  | suspend => s!"only running runs can be suspended (current status: {status.name})"
  | resume => s!"only suspended runs can be resumed (current status: {status.name})"

end Method

/-- What a call throws. -/
inductive CallError where
  | repository (error : RunError)
  | badRequest (message : String)
  /-- What the call to the runtime has thrown. -/
  | runtime
  | database

/-- Where a call is. -/
inductive CallAt where
  /-- Before `getRun`. -/
  | read
  /-- In `provider.suspendSession` or `provider.resumeSession`. -/
  | asking (sessionId : String)
  /-- At a statement of `markSuspended` or `markResumed`. -/
  | marking (phase : Phase)
  | returned (run : RunRow)
  | threw (error : CallError)

structure Call where
  method : Method
  runId : String
  here : CallAt := .read

/-- What the runtime answers to a call. -/
inductive Answer where
  /-- It has changed the session. -/
  | ok
  /-- It has not, and says so in its `ack`. -/
  | refused
  | threw
  deriving DecidableEq

/-- The state of a session after an event. -/
def stateAfter : SessionLifecycleEventType → String
  | .created | .resumed => "SESSION_STATE_OPEN"
  | .suspended => "SESSION_STATE_SUSPENDED"
  | .resolved => "SESSION_STATE_RESOLVED"
  | .expired => "SESSION_STATE_EXPIRED"
  | .cancelled => "SESSION_STATE_CANCELLED"

/-- The key of a session in the registry of the runtime. -/
abbrev registryKey (session : RuntimeSessionSnapshot) : String := session.sessionId

/-- The session has ended, and the runtime may sweep it. -/
def isEnded (state : String) : Bool :=
  state = stateAfter .resolved || state = stateAfter .expired || state = stateAfter .cancelled

/-- The runtime with its registry, the stream of the watch, the discovery service with the tables, and the calls. -/
structure State (N : Type) where
  sessions : List RuntimeSessionSnapshot := []
  /-- The sessions that have been swept, as they were then, the last one first. -/
  swept : List RuntimeSessionSnapshot := []
  /-- The events that the watch has ahead of it. -/
  queue : List SessionLifecycleEvent := []
  /-- The runtime adds its events to the queue. -/
  feeding : Bool := false
  discovery : SessionDiscovery.State N := {}
  calls : List Call := []

/-- What can happen next. -/
inductive Action (N : Type) where
  /-- A session is created, or changes, on behalf of an agent. -/
  | session (eventType : SessionLifecycleEventType) (session : RuntimeSessionSnapshot)
  /-- The runtime sweeps a session that has ended; the watch is not told. -/
  | sweep (sessionId : String)
  /-- A new watch begins, with the sessions of the registry in some order. -/
  | connect (snapshots : List RuntimeSessionSnapshot)
  /-- The runtime ends the watch, or it breaks; what it has brought may still be read. -/
  | disconnect
  /-- The watch yields its next event. -/
  | yield
  /-- A statement of the discovery loop, or of another caller. -/
  | tables (a : SessionDiscovery.Action N)
  /-- `suspend` or `resume` is called. -/
  | call (method : Method) (runId : String)
  /-- The next statement of a call succeeds, or fails. -/
  | statement (i : Nat) (env : Env)
  | fail (i : Nat)
  /-- The runtime answers a call. -/
  | answer (i : Nat) (answer : Answer)

namespace State

def session (s : State N) (sessionId : String) : Option RuntimeSessionSnapshot :=
  Table.get registryKey s.sessions sessionId

/-- What the session is, or was when it was swept. -/
def last (s : State N) (sessionId : String) : Option RuntimeSessionSnapshot :=
  (s.session sessionId).or (Table.get registryKey s.swept sessionId)

/-- The runtime changes the registry, and tells the watch. -/
def announce (s : State N) (sessions : List RuntimeSessionSnapshot) (event : SessionLifecycleEvent) : State N :=
  { s with sessions, queue := if s.feeding then s.queue ++ [event] else s.queue }

/-- A session changes. -/
def change (s : State N) (eventType : SessionLifecycleEventType) (session : RuntimeSessionSnapshot) : State N :=
  s.announce (Table.put registryKey s.sessions session.sessionId session) ⟨eventType, some session⟩

def move (s : State N) (i : Nat) (c : Call) (here : CallAt) : State N :=
  { s with calls := s.calls.set i { c with here } }

end State

/-- Where a call goes on from a statement of its operation. -/
def CallAt.after : Outcome → CallAt
  | .goesOn phase => .marking phase
  | .returned run => .returned run
  | .threw error => .threw (.repository error)

/-- The next statement of a call, with what follows up to the one after it. -/
def State.statement (s : State N) (i : Nat) (c : Call) (env : Env) : Option (State N) :=
  match c.here with
  | .read =>
    match s.discovery.findById c.runId with
    | none => some (s.move i c (.threw (.repository (notFound c.runId))))
    | some r =>
      match r.row.runtimeSessionId with
      | none => some (s.move i c (.threw (.badRequest "run has no bound runtime session")))
      | some sessionId =>
        -- An empty session id is none either.
        if sessionId = "" then some (s.move i c (.threw (.badRequest "run has no bound runtime session")))
        else if r.row.status ≠ c.method.required then
          some (s.move i c (.threw (.badRequest (c.method.refusal r.row.status))))
        else some (s.move i c (.asking sessionId))
  | .marking phase =>
    let result := stepOn env c.method.op s.discovery.records c.runId phase
    some { s.move i c (.after result.2) with discovery := s.discovery.save result.1 }
  | .asking _ | .returned _ | .threw _ => none

/-- The runtime answers a call.  Whether the `ack` says that the session has changed makes no difference to the call. -/
def State.answer (s : State N) (i : Nat) (c : Call) (sessionId : String) : Answer → Option (State N)
  | .ok =>
    (s.session sessionId).bind fun session =>
      if session.state = stateAfter c.method.eventType then none
      else some ((s.change c.method.eventType { session with state := stateAfter c.method.eventType }).move i c
        (.marking c.method.op.first))
  | .refused => some (s.move i c (.marking c.method.op.first))
  | .threw => some (s.move i c (.threw .runtime))

section Steps

variable (uuid : String → Option String)

/-- One step. -/
def next (s : State N) : Action N → Option (State N)
  | .session .created session =>
    if (s.session session.sessionId).isNone ∧ session.state = stateAfter .created then
      some (s.announce (s.sessions ++ [session]) ⟨.created, some session⟩)
    else none
  | .session eventType session =>
    if (s.session session.sessionId).isSome ∧ session.state = stateAfter eventType then
      some (s.change eventType session)
    else none
  | .sweep sessionId =>
    (s.session sessionId).bind fun session =>
      if isEnded session.state then
        some { s with
          sessions := Table.remove registryKey s.sessions sessionId
          swept := session :: s.swept }
      else none
  | .connect snapshots =>
    if snapshots.Perm s.sessions ∧ s.discovery.aborted = false then
      match s.discovery.here with
      | .waiting | .threw _ =>
        some { s with
          queue := snapshots.map fun session => ⟨.created, some session⟩
          feeding := true
          discovery := { s.discovery with here := .waiting } }
      | _ => none
    else none
  | .disconnect => some { s with feeding := false }
  | .yield =>
    match s.queue with
    | [] => none
    | event :: queue =>
      (SessionDiscovery.next uuid s.discovery (.event event)).map fun discovery => { s with queue, discovery }
  | .tables (.event _) | .tables .reconnect => none
  | .tables a => (SessionDiscovery.next uuid s.discovery a).map fun discovery => { s with discovery }
  | .call method runId => some { s with calls := s.calls ++ [⟨method, runId, .read⟩] }
  | .statement i env => s.calls[i]?.bind fun c => s.statement i c env
  | .fail i =>
    s.calls[i]?.bind fun c =>
      match c.here with
      | .read | .marking _ => some (s.move i c (.threw .database))
      | _ => none
  | .answer i answer =>
    s.calls[i]?.bind fun c =>
      match c.here with
      | .asking sessionId => s.answer i c sessionId answer
      | _ => none

/-- What an action does. -/
inductive NextSpec (s : State N) : Action N → State N → Prop
  | created {session : RuntimeSessionSnapshot} (new : s.session session.sessionId = none)
    (state : session.state = stateAfter .created) :
    NextSpec s (.session .created session) (s.announce (s.sessions ++ [session]) ⟨.created, some session⟩)
  | changed {eventType : SessionLifecycleEventType} {session old : RuntimeSessionSnapshot}
    (found : s.session session.sessionId = some old) (state : session.state = stateAfter eventType) :
    NextSpec s (.session eventType session) (s.change eventType session)
  | sweep {sessionId : String} {session : RuntimeSessionSnapshot} (found : s.session sessionId = some session) :
    NextSpec s (.sweep sessionId)
      { s with sessions := Table.remove registryKey s.sessions sessionId, swept := session :: s.swept }
  | connect {snapshots : List RuntimeSessionSnapshot} (perm : snapshots.Perm s.sessions) :
    NextSpec s (.connect snapshots)
      { s with
        queue := snapshots.map fun session => ⟨.created, some session⟩
        feeding := true
        discovery := { s.discovery with here := .waiting } }
  | disconnect : NextSpec s .disconnect { s with feeding := false }
  | yield {event : SessionLifecycleEvent} {queue : List SessionLifecycleEvent} (ahead : s.queue = event :: queue)
    (here : s.discovery.here = .waiting) :
    NextSpec s .yield { s with queue, discovery := s.discovery.consume event }
  | tables {a : SessionDiscovery.Action N} {discovery : SessionDiscovery.State N}
    (step : SessionDiscovery.next uuid s.discovery a = some discovery) (event : ∀ event, a ≠ .event event)
    (reconnect : a ≠ .reconnect) : NextSpec s (.tables a) { s with discovery }
  | call {method : Method} {runId : String} :
    NextSpec s (.call method runId) { s with calls := s.calls ++ [⟨method, runId, .read⟩] }
  | statement {i : Nat} {env : Env} {c : Call} {t : State N} (found : s.calls[i]? = some c)
    (step : s.statement i c env = some t) : NextSpec s (.statement i env) t
  | fail {i : Nat} {c : Call} (found : s.calls[i]? = some c) : NextSpec s (.fail i) (s.move i c (.threw .database))
  | answer {i : Nat} {c : Call} {sessionId : String} {answer : Answer} {t : State N} (found : s.calls[i]? = some c)
    (step : s.answer i c sessionId answer = some t) : NextSpec s (.answer i answer) t

theorem next_spec {s t : State N} {a : Action N} (h : next uuid s a = some t) : NextSpec uuid s a t := by
  cases a with
  | session eventType session =>
    cases eventType with
    | created =>
      simp only [next] at h
      split at h
      · rename_i hnew
        rw [← Option.some.inj h]
        exact .created (Option.isNone_iff_eq_none.1 hnew.1) hnew.2
      · exact absurd h (by simp)
    | resolved | expired | suspended | resumed | cancelled =>
      simp only [next] at h
      split at h
      · rename_i hfound
        obtain ⟨old, hold⟩ := Option.isSome_iff_exists.1 hfound.1
        rw [← Option.some.inj h]
        exact .changed hold hfound.2
      · exact absurd h (by simp)
  | sweep sessionId =>
    obtain ⟨session, hsession, hstep⟩ := Option.bind_eq_some_iff.1 h
    split at hstep
    · rw [← Option.some.inj hstep]
      exact .sweep hsession
    · exact absurd hstep (by simp)
  | connect snapshots =>
    simp only [next] at h
    split at h
    · rename_i hperm
      split at h
      · rw [← Option.some.inj h]
        exact .connect hperm.1
      · rw [← Option.some.inj h]
        exact .connect hperm.1
      · exact absurd h (by simp)
    · exact absurd h (by simp)
  | disconnect =>
    rw [← Option.some.inj h]
    exact .disconnect
  | yield =>
    simp only [next] at h
    split at h
    · exact absurd h (by simp)
    · rename_i event queue hqueue
      obtain ⟨discovery, hstep, rfl⟩ := Option.map_eq_some_iff.1 h
      cases SessionDiscovery.next_spec uuid hstep with
      | event hhere => exact .yield hqueue hhere
  | tables a =>
    cases a with
    | event | reconnect => exact absurd h (by simp [next])
    | destroy =>
      rw [← Option.some.inj h]
      exact .tables rfl (by simp) (by simp)
    | statement | fail | create | transition | append | delete =>
      obtain ⟨discovery, hstep, rfl⟩ := Option.map_eq_some_iff.1 h
      exact .tables hstep (by simp) (by simp)
  | call method runId =>
    rw [← Option.some.inj h]
    exact .call
  | statement i env =>
    obtain ⟨c, hc, hstep⟩ := Option.bind_eq_some_iff.1 h
    exact .statement hc hstep
  | fail i =>
    obtain ⟨c, hc, hstep⟩ := Option.bind_eq_some_iff.1 h
    split at hstep
    · rw [← Option.some.inj hstep]
      exact .fail hc
    · rw [← Option.some.inj hstep]
      exact .fail hc
    · exact absurd hstep (by simp)
  | answer i answer =>
    obtain ⟨c, hc, hstep⟩ := Option.bind_eq_some_iff.1 h
    split at hstep
    · exact .answer hc hstep
    · exact absurd hstep (by simp)

/-- A discovery service that has just been created, over tables in any state; the runtime has any sessions. -/
def machine : Machine (State N) (Action N) where
  start s := ∃ sessions discovery, (sessions.map registryKey).Nodup ∧
    (∀ session ∈ sessions, ∃ eventType, session.state = stateAfter eventType) ∧
    (SessionDiscovery.machine uuid).start discovery ∧ s = { sessions, discovery }
  next := next uuid

end Steps

/-! ### What the run shows -/

/-- The status shows whether the session is suspended, unless the run is over. -/
def Shows (status : RunStatus) (state : String) : Prop :=
  status.terminal = true ∨ status = .running ∧ state = "SESSION_STATE_OPEN" ∨
    status = .suspended ∧ state = "SESSION_STATE_SUSPENDED"

/-- The statuses of a run from when its session has been bound. -/
def Driven (status : RunStatus) : Prop := status = .running ∨ status = .suspended ∨ status.terminal = true

section Follows

-- The run, and the session that it is bound to.
variable (runId sessionId : String)

/-- The event is about the session. -/
def about (event : SessionLifecycleEvent) : Bool := event.session.map registryKey = some sessionId

/-- The loop has an event of the session in hand, and has not written the run yet. -/
def OnTheWay : At → Prop
  | .lookup session => session.sessionId = sessionId
  | .find other _ _ => other = sessionId
  | .mark id _ .check _ | .mark id _ .update _ => id = runId
  | _ => False

/-- The runtime feeds the watch, and what the watch has ahead of it is not about the session. -/
structure Fed (s : State N) : Prop where
  feeding : s.feeding = true
  queue : ∀ event ∈ s.queue, about sessionId event = false

/-- The loop is not between two watches, and has not ended. -/
def Watches (d : SessionDiscovery.State N) : Prop := ¬ Threw d ∧ d.here ≠ .stopped

/-- The loop has caught up with the session. -/
structure CaughtUp (s : State N) : Prop where
  fed : Fed sessionId s
  watches : Watches s.discovery
  here : ¬ OnTheWay runId sessionId s.discovery.here

/-- A run in this status would show what the session is now. -/
def Current (s : State N) (status : RunStatus) : Prop :=
  ∃ session, s.last sessionId = some session ∧ Shows status session.state

/-- The run shows what the session is now. -/
def InStep (s : State N) : Prop := ∃ r, s.discovery.findById runId = some r ∧ Current sessionId s r.row.status

/-- A statement that fails here leaves the run as it is, and the watch goes on. -/
def GivesUp (d : SessionDiscovery.State N) : Prop :=
  match d.here with
  | .lookup session => session.sessionId = sessionId ∧ sessionId ∈ d.knownSessions
  | .find other _ true => other = sessionId
  | .mark id _ .check true | .mark id _ .update true => id = runId
  | _ => False

/-- The next statement of the call writes the run. -/
def Writes (s : State N) (c : Call) : Prop :=
  c.runId = runId ∧ c.here = .marking .update ∧
    ∃ r, s.discovery.findById runId = some r ∧ c.method.op.target ∈ validTransitions r.row.status

/-- Where the loop has caught up with the session, others write what the session is now; no reconciliation is given up
that is needed; and no watch begins without the session of a run that does not show its end. -/
def Timely (s : State N) : Action N → Prop
  | .connect _ => s.session sessionId = none → InStep runId sessionId s
  | .tables (.transition id transition _) =>
    id = runId → CaughtUp runId sessionId s → Current sessionId s transition.target
  | .tables .fail => GivesUp runId sessionId s.discovery → Fed sessionId s → InStep runId sessionId s
  | .statement i _ =>
    ∀ c, s.calls[i]? = some c → Writes runId s c → CaughtUp runId sessionId s →
      Current sessionId s c.method.op.target
  | _ => True

/-- Nobody binds the run to another session, or another run to the session; and the run is not deleted. -/
def Own : Action N → Prop
  | .tables (.transition id transition _) =>
    ∀ other, transition.patch.runtimeSessionId = some other → (other = sessionId ↔ id = runId)
  | .tables (.delete id) => id ≠ runId
  | _ => True

end Follows

/-! ### The operations of the handlers -/

/-- An operation on a run whose session has been bound. -/
def Marking : Op → Prop
  | .markStarted _ | .bindSession _ _ | .markRunning _ _ => False
  | _ => True

theorem marking_of_eventOp {eventType : SessionLifecycleEventType} {op : Op} (h : eventOp eventType = some op) :
    Marking op := by
  cases eventType with
  | created => exact absurd h (by simp [eventOp])
  | _ =>
    obtain rfl := Option.some.inj h
    trivial

theorem marking_of_reconcileOp {status : RunStatus} {state : String} {op : Op}
    (h : reconcileOp status state = some op) : Marking op := by
  unfold reconcileOp at h
  split_ifs at h <;> (obtain rfl := Option.some.inj h; trivial)

theorem Method.marking (m : Method) : Marking m.op := by
  cases m <;> trivial

namespace Marking

variable {op : Op} {status : RunStatus}

theorem first (h : Marking op) : op.first = .check := by
  cases op <;> first | rfl | exact h.elim

theorem target_ne (h : Marking op) : op.target ≠ .bindingSession := by
  cases op <;> first | exact h.elim | simp [Op.target]

theorem patch (h : Marking op) (now : String) : (op.transition now).patch.runtimeSessionId = none := by
  cases op <;> first | rfl | exact h.elim

/-- The operation leaves the run alone where it is over, or where there is nothing to do. -/
theorem of_leaves (h : Marking op) (hdriven : Driven status) (hleaves : op.leaves status = true) :
    status.terminal = true ∨ status = op.target := by
  rcases hdriven with rfl | rfl | hterminal
  · cases op <;> first | exact h.elim | exact Or.inr rfl | exact absurd hleaves Bool.false_ne_true
  · cases op <;> first | exact h.elim | exact Or.inr rfl | exact absurd hleaves Bool.false_ne_true
  · exact Or.inl hterminal

/-- And so is it where its update matches nothing. -/
theorem of_missed (h : Marking op) (hdriven : Driven status) (hmissed : op.target ∉ validTransitions status) :
    status.terminal = true ∨ status = op.target := by
  rcases hdriven with rfl | rfl | hterminal
  · cases op <;> first | exact h.elim | exact Or.inr rfl | exact absurd (by simp [Op.target, validTransitions]) hmissed
  · cases op <;> first | exact h.elim | exact Or.inr rfl | exact absurd (by simp [Op.target, validTransitions]) hmissed
  · exact Or.inl hterminal

end Marking

private theorem Driven.next {status target : RunStatus} (h : Driven status)
    (htarget : target ∈ validTransitions status) : Driven target := by
  rcases h with rfl | rfl | hterminal
  · cases target <;> first | exact absurd htarget (by decide) | simp [Driven, RunStatus.terminal]
  · cases target <;> first | exact absurd htarget (by decide) | simp [Driven, RunStatus.terminal]
  · rw [validTransitions_eq_nil.2 hterminal] at htarget
    exact absurd htarget List.not_mem_nil

theorem Shows.of_settled {status target : RunStatus} {state : String} (h : Shows target state)
    (hsettled : status.terminal = true ∨ status = target) : Shows status state := by
  rcases hsettled with hterminal | rfl
  · exact Or.inl hterminal
  · exact h

theorem shows_of_eventOp {eventType : SessionLifecycleEventType} {op : Op} (h : eventOp eventType = some op) :
    Shows op.target (stateAfter eventType) := by
  cases eventType with
  | created => exact absurd h (by simp [eventOp])
  | _ =>
    obtain rfl := Option.some.inj h
    simp [Shows, Op.target, RunStatus.terminal, stateAfter]

/-- What a snapshot asks for, and what it leaves as it is. -/
theorem shows_of_reconcileOp {status : RunStatus} (hdriven : Driven status) (eventType : SessionLifecycleEventType) :
    (∀ op, reconcileOp status (stateAfter eventType) = some op → Shows op.target (stateAfter eventType)) ∧
      (reconcileOp status (stateAfter eventType) = none → Shows status (stateAfter eventType)) := by
  by_cases hterminal : status.terminal = true
  · have hnone : reconcileOp status (stateAfter eventType) = none := by
      cases status <;> first | rfl | exact absurd hterminal (by decide)
    rw [hnone]
    exact ⟨nofun, fun _ => Or.inl hterminal⟩
  · rcases hdriven with rfl | rfl | hterminal'
    · cases eventType <;> simp [reconcileOp, stateAfter, Shows, Op.target, RunStatus.terminal]
    · cases eventType <;> simp [reconcileOp, stateAfter, Shows, Op.target, RunStatus.terminal]
    · exact absurd hterminal' hterminal

/-! ### The row of the run -/

section Rows

variable {runId sessionId : String}

/-- The run is bound to the session, and no other row is. -/
structure Holds (runId sessionId : String) (records : List (Record N)) : Prop where
  found : ∃ r, Table.get runKey records runId = some r ∧ r.row.runtimeSessionId = some sessionId ∧ Driven r.row.status
  unique : ∀ r ∈ records, r.row.runtimeSessionId = some sessionId → r.row.id = runId
  keyed : (records.map runKey).Nodup

variable {records : List (Record N)} {id : String} {r r' : Record N}

/-- The row that is found by the session. -/
theorem Holds.bySession (h : Holds runId sessionId records) :
    ∃ r, Table.get sessionKey records (some sessionId) = some r ∧ Table.get runKey records runId = some r := by
  obtain ⟨r, hr, hsession, -⟩ := h.found
  have hmem := Table.mem_of_get hr
  cases hget : Table.get sessionKey records (some sessionId) with
  | none => exact absurd hsession (Table.get_eq_none.1 hget r hmem)
  | some found =>
    refine ⟨found, rfl, ?_⟩
    have hsession : sessionKey found = some sessionId := Table.key_of_get hget
    have hid : runKey found = runId := h.unique found (Table.mem_of_get hget) hsession
    rw [← hid]
    exact Table.get_eq_some_of_mem h.keyed (Table.mem_of_get hget)

/-- The row of the run is the one that is bound to the session. -/
theorem Holds.session_iff (h : Holds runId sessionId records) (hr : Table.get runKey records id = some r) :
    r.row.runtimeSessionId = some sessionId ↔ id = runId := by
  have hid : runKey r = id := Table.key_of_get hr
  constructor
  · intro hsession
    rw [← hid]
    exact h.unique r (Table.mem_of_get hr) hsession
  · rintro rfl
    obtain ⟨found, hfound, hsession, -⟩ := h.found
    rw [Option.some.inj (hr.symm.trans hfound)]
    exact hsession

theorem Holds.put (h : Holds runId sessionId records) (hr : Table.get runKey records id = some r)
    (hid : r'.row.id = r.row.id)
    (hsession : r'.row.runtimeSessionId = some sessionId ↔ r.row.runtimeSessionId = some sessionId)
    (hdriven : id = runId → Driven r'.row.status) : Holds runId sessionId (Table.put runKey records id r') := by
  have hold : runKey r = id := Table.key_of_get hr
  have hkey : runKey r' = id := hid.trans hold
  refine ⟨?_, fun x hx hxsession => ?_, Table.nodup_put h.keyed hkey⟩
  · by_cases heq : id = runId
    · subst heq
      exact ⟨r', Table.get_put_self hr hkey, hsession.2 ((h.session_iff hr).2 rfl), hdriven rfl⟩
    · rw [Table.get_put_of_ne hkey (Ne.symm heq)]
      exact h.found
  · rcases Table.mem_put hx with hold | rfl
    · exact h.unique x hold hxsession
    · rw [show x.row.id = id from hkey]
      exact (h.session_iff hr).1 (hsession.1 hxsession)

theorem Holds.concat (h : Holds runId sessionId records) (hnew : Table.get runKey records (runKey r) = none)
    (hsession : r.row.runtimeSessionId ≠ some sessionId) : Holds runId sessionId (records ++ [r]) := by
  obtain ⟨found, hfound, hrest⟩ := h.found
  have hne : runKey r ≠ runId := by
    intro heq
    rw [heq, hfound] at hnew
    exact absurd hnew (by simp)
  refine ⟨⟨found, (Table.get_concat_of_ne hne).trans hfound, hrest⟩, fun x hx hxsession => ?_,
    Table.nodup_concat h.keyed hnew⟩
  rcases List.mem_append.1 hx with hold | hx
  · exact h.unique x hold hxsession
  · rw [List.mem_singleton.1 hx] at hxsession
    exact absurd hxsession hsession

theorem Holds.remove (h : Holds runId sessionId records) (hne : id ≠ runId) :
    Holds runId sessionId (Table.remove runKey records id) := by
  obtain ⟨found, hfound, hrest⟩ := h.found
  exact ⟨⟨found, (Table.get_remove_of_ne (Ne.symm hne)).trans hfound, hrest⟩,
    fun x hx => h.unique x (List.mem_filter.1 hx).1, Table.nodup_remove h.keyed⟩

/-- A transition of a row, by a caller that leaves the bindings alone. -/
theorem Holds.transition (h : Holds runId sessionId records) (hr : Table.get runKey records id = some r)
    {transition : Transition} {now : String} {row : RunRow} (hmoved : compareAndSet transition now r.row = some row)
    (hown : ∀ other, transition.patch.runtimeSessionId = some other → (other = sessionId ↔ id = runId)) :
    Holds runId sessionId (Table.put runKey records id { r with row }) := by
  refine h.put hr (compareAndSet_id hmoved) ?_ ?_
  · rw [h.session_iff hr, (compareAndSet_eq_some.1 hmoved).2]
    cases hpatch : transition.patch.runtimeSessionId with
    | none => simp [RunRow.patched, hpatch, h.session_iff hr]
    | some other => simp [RunRow.patched, hpatch, hown other hpatch]
  · rintro rfl
    obtain ⟨found, hfound, -, hdriven⟩ := h.found
    rw [Option.some.inj (hr.symm.trans hfound)] at hmoved
    show Driven row.status
    rw [compareAndSet_status hmoved]
    exact hdriven.next (compareAndSet_eq_some.1 hmoved).1

/-- A statement of an operation that leaves the bindings alone. -/
theorem Holds.stepOn (h : Holds runId sessionId records) (env : Env) (op : Op) (phase : Phase)
    (hown : ∀ other, (op.transition env.now).patch.runtimeSessionId = some other →
      (other = sessionId ↔ id = runId)) :
    Holds runId sessionId (stepOn env op records id phase).1 := by
  cases hget : Table.get runKey records id with
  | none =>
    rw [SessionDiscovery.stepOn, hget]
    exact h
  | some r =>
    rw [SessionDiscovery.stepOn, hget]
    dsimp only
    have hspec := step_spec env op r phase
    generalize step env op r phase = result at hspec ⊢
    have hself : Holds runId sessionId (Table.put runKey records id r) := by
      refine h.put hget rfl Iff.rfl ?_
      rintro rfl
      obtain ⟨found, hfound, -, hdriven⟩ := h.found
      rw [Option.some.inj (hget.symm.trans hfound)]
      exact hdriven
    cases hspec with
    | wrote hmoved => exact h.transition hget hmoved hown
    | emitted run =>
      refine h.put hget rfl Iff.rfl ?_
      rintro rfl
      obtain ⟨found, hfound, -, hdriven⟩ := h.found
      rw [Option.some.inj (hget.symm.trans hfound)]
      exact hdriven
    | left | checked | missed | agreed | refused => exact hself

/-- A statement on another row. -/
theorem get_stepOn_of_ne (env : Env) (op : Op) (phase : Phase) (hne : id ≠ runId) :
    Table.get runKey (stepOn env op records id phase).1 runId = Table.get runKey records runId := by
  cases hget : Table.get runKey records id with
  | none => rw [SessionDiscovery.stepOn, hget]
  | some r =>
    rw [SessionDiscovery.stepOn, hget]
    exact Table.get_put_of_ne ((SessionDiscovery.step_id env op r phase).trans (Table.key_of_get hget)) (Ne.symm hne)

end Rows

end MacpControlPlane.SuspendResume

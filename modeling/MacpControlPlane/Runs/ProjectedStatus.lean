import MacpControlPlane.Lib.Machine
import MacpControlPlane.Projection.Status
import MacpControlPlane.Runs.RunManager

/-!
# The stored and the projected status

Two state machines follow a run: the row in `runs`, and the reducer on the events that the lifecycle operations emit.
The operations run one after the other here, each to its end.  Every operation but `markRunning` emits the status that
it has stored; `markRunning` emits only the session state it was given.
-/

namespace MacpControlPlane.ProjectedStatus

open Js RunManager

variable {N : Type} [JsNumber N]

/-- What the database holds of a run. -/
structure State (N : Type) where
  row : RunRow
  lastEventSeq : Nat
  log : List (CanonicalEvent N)

/-- What an operation takes from its surroundings: the clock, the supply of ids, and the trace of the run. -/
structure Env where
  now : String
  uuid : Nat → String
  runCtx : Option TraceRef := none

/-- The lifecycle operations, with their arguments. -/
inductive Operation where
  | createRun (request : RunDescriptor)
  | markStarted (request : RunDescriptor)
  | bindSession (request : RunDescriptor) (session : BoundSession)
  | markRunning (runtimeSessionId sessionState : String)
  | markSuspended
  | markResumed
  | markCompleted
  | markFailed (message : String)
  | markCancelled

/-- `emitControlPlaneEvents` -/
def State.emit (s : State N) (env : Env) (events : List (PartialEvent N)) : State N :=
  { s with
    lastEventSeq := s.lastEventSeq + events.length
    log := s.log ++ RunEventService.prepareEmitted s.row.id env.runCtx env.uuid (s.lastEventSeq + 1) events }

/-- A transition of the row, and the events about the row it returns. -/
def State.transition (s : State N) (env : Env) (t : Transition) (events : RunRow → List (PartialEvent N)) :
    Except RunError (State N) :=
  match transitionTo t env.now s.row with
  | (row, .ok run) => .ok ({ s with row }.emit env (events run))
  | (_, .error e) => .error e

/-- The body of an operation that ends the run. -/
def State.finish (s : State N) (env : Env) (t : Transition) (events : RunRow → List (PartialEvent N)) :
    Except RunError (State N) :=
  if endedAlready s.row then .ok s else s.transition env t events

/-- Run an operation to its end. -/
def State.run (s : State N) (env : Env) : Operation → Except RunError (State N)
  | .createRun request =>
    -- A run of this key exists: the operation returns it.  Otherwise it creates another run.
    if request.idempotencyKey.getD "" ≠ "" ∧ request.idempotencyKey = s.row.idempotencyKey then .ok s
    else .error (.error "another run")
  | .markStarted request =>
    s.transition env (RunRepository.markStarted env.now) fun run => startedEvents request run env.now
  | .bindSession request session =>
    let bound := s.transition env (RunRepository.markBindingSession session.runtimeSessionId) fun _ =>
      boundEvents request session env.now
    match bound with
    | .error (.conflict _) => .ok s
    | bound => bound
  | .markRunning runtimeSessionId sessionState =>
    s.transition env (RunRepository.markRunning (some runtimeSessionId)) fun run =>
      runningEvents run runtimeSessionId sessionState env.now
  | .markSuspended =>
    if endedAlready s.row ∨ s.row.status = .suspended then .ok s
    else s.transition env RunRepository.markSuspended fun run => suspendedEvents run env.now
  | .markResumed =>
    if s.row.status ≠ .suspended then .ok s
    else s.transition env RunRepository.markResumed fun run => resumedEvents run env.now
  | .markCompleted => s.finish env (RunRepository.markCompleted env.now) fun run => completedEvents run env.now
  | .markFailed message =>
    s.finish env (RunRepository.markFailed env.now (some "RUN_FAILED") (some message)) fun run =>
      failedEvents run message env.now
  | .markCancelled => s.finish env (RunRepository.markCancelled env.now) fun run => cancelledEvents run env.now

/-- What `createRun` leaves behind for a new run. -/
def created (env : Env) (request : RunDescriptor) (sessionId runId traceId : String) : State N :=
  let row := createdRow request sessionId runId traceId env.now
  ({ row, lastEventSeq := 0, log := [] } : State N).emit env (createdEvents request sessionId row traceId env.now)

/-- The operations that complete without error, one after the other. -/
def machine : Machine (State N) (Env × Operation) where
  start s := ∃ env request sessionId runId traceId, s = created env request sessionId runId traceId
  next s a := (s.run a.1 a.2).toOption

/-- The run summary of the projection folded from the log. -/
def State.projected (s : State N) : RunSummaryProjection N :=
  (applyEvents (.empty s.row.id) s.log).run

/-- Once the run is running, suspended or ended, the projected status is the stored one. -/
def Agrees (s : State N) : Prop :=
  s.row.status = .running ∨ s.row.status = .suspended ∨ s.row.status.terminal = true →
    s.projected.status = s.row.status.json

/-- The session state that `markRunning` was given takes the projected status to `running`. -/
def RunningAgrees (s : State N) (a : Env × Operation) : Prop :=
  match a.2 with
  | .markRunning _ sessionState =>
    (sessionState = "SESSION_STATE_OPEN" ∧ s.projected.status = RunStatus.suspended.json) ∨
    (s.projected.status = RunStatus.running.json ∧
      sessionState ∉ ["SESSION_STATE_RESOLVED", "SESSION_STATE_EXPIRED", "SESSION_STATE_CANCELLED",
        "SESSION_STATE_SUSPENDED"])
  | _ => True

/-! ### The projected status after an operation -/

/-- The summary after an emission is folded on from the summary before it. -/
theorem projected_emit (s : State N) (env : Env) (events : List (PartialEvent N)) :
    (s.emit env events).projected =
      (RunEventService.prepareEmitted s.row.id env.runCtx env.uuid (s.lastEventSeq + 1) events).foldl
        (Reducer.runStep s.row.id) s.projected := by
  unfold State.projected State.emit
  rw [applyEvents_run, List.foldl_append, applyEvents_run]
  rfl

/-- An event that carries a status sets the projected status. -/
theorem projected_status_lifecycle (s : State N) (env : Env) {event : PartialEvent N} {status : RunStatus}
    (htype : event.type ∈
      [.runCreated, .runStarted, .runCompleted, .runFailed, .runCancelled, .runSuspended, .runResumed])
    (hstatus : JsonObject.prop event.data "status" = some status.json) :
    (s.emit env [event]).projected.status = status.json := by
  have hevent : ∀ e : CanonicalEvent N, e.data = event.data →
      Reducer.eventStatus s.projected.status e = status.json := by
    intro e he
    rw [Reducer.eventStatus, CanonicalEvent.datum, he, hstatus]
    rfl
  rw [projected_emit]
  show (Reducer.runStep s.row.id s.projected (RunEventService.prepareEvent s.row.id env.runCtx _ _ event)).status = _
  unfold Reducer.runStep
  simp only [List.mem_cons, List.not_mem_nil, or_false] at htype
  have he : ∀ id seq, (RunEventService.prepareEvent s.row.id env.runCtx id seq event).type = event.type :=
    fun _ _ => rfl
  rcases htype with h | h | h | h | h | h | h <;> simp only [he, h] <;> exact hevent _ rfl

omit [JsNumber N] in
/-- The session states that take a status to `running`. -/
theorem sessionStatus_eq_running_iff (state : String) (status : Json N) :
    Reducer.sessionStatus (some state) status = RunStatus.running.json ↔
      (state = "SESSION_STATE_OPEN" ∧ status = RunStatus.suspended.json) ∨
      (status = RunStatus.running.json ∧ state ∉ ["SESSION_STATE_RESOLVED", "SESSION_STATE_EXPIRED",
        "SESSION_STATE_CANCELLED", "SESSION_STATE_SUSPENDED"]) := by
  have hne : ∀ a b : RunStatus, a ≠ b → (a.json : Json N) ≠ b.json := fun a b hab h => hab (RunStatus.json_inj.1 h)
  unfold Reducer.sessionStatus
  simp only [Option.some.injEq]
  by_cases hresolved : state = "SESSION_STATE_RESOLVED"
  · subst hresolved
    simp [hne .completed .running nofun]
  by_cases hexpired : state = "SESSION_STATE_EXPIRED"
  · subst hexpired
    simp [hne .failed .running nofun]
  by_cases hcancelled : state = "SESSION_STATE_CANCELLED"
  · subst hcancelled
    simp [hne .cancelled .running nofun]
  by_cases hsuspended : state = "SESSION_STATE_SUSPENDED"
  · subst hsuspended
    have hterm : terminalStatus (RunStatus.running.json : Json N) = false := rfl
    by_cases hs : terminalStatus status = true
    · have hnot : status ≠ RunStatus.running.json := by
        rintro rfl
        rw [hterm] at hs
        exact absurd hs nofun
      simp [hs, hnot]
    · simp [hs, hne .suspended .running nofun]
  by_cases hopen : state = "SESSION_STATE_OPEN"
  · subst hopen
    by_cases hs : status = RunStatus.suspended.json
    · subst hs
      simp [RunStatus.json, RunStatus.name, Json.is]
    · have his : status.is "suspended" = false := by
        rw [Bool.eq_false_iff]
        exact fun h => hs (Json.is_iff.1 h)
      simp [his, hs]
  · simp [hresolved, hexpired, hcancelled, hsuspended, hopen]

private theorem projected_running (s : State N) (env : Env) (run : RunRow) (runtimeSessionId sessionState ts : String) :
    (s.emit env (runningEvents run runtimeSessionId sessionState ts)).projected.status =
      Reducer.sessionStatus (some sessionState) s.projected.status := by
  rw [projected_emit]
  rfl

/-! ### One operation -/

omit [JsNumber N] in
private theorem transition_ok {s t : State N} {env : Env} {tr : Transition} {events : RunRow → List (PartialEvent N)}
    (h : s.transition env tr events = .ok t) :
    ∃ row, row.status = tr.target ∧ row.id = s.row.id ∧ t = { s with row }.emit env (events row) := by
  unfold State.transition at h
  split at h
  · rename_i row run hrow
    obtain ⟨hrun, hstatus, hid⟩ := transitionTo_ok hrow
    rw [hrun] at h
    exact ⟨row, hstatus, hid, (Except.ok.inj h).symm⟩
  · exact absurd h nofun

/-- Changing columns of the row other than its id leaves the projection alone. -/
theorem projected_row {s : State N} {row : RunRow} (h : row.id = s.row.id) :
    ({ s with row } : State N).projected = s.projected := by
  unfold State.projected
  dsimp only
  rw [h]

/-- A transition whose event carries the target status keeps the two in step. -/
theorem agrees_transition {s t : State N} {env : Env} {tr : Transition} {event : RunRow → PartialEvent N}
    (h : s.transition env tr (fun run => [event run]) = .ok t)
    (htype : ∀ run, (event run).type ∈
      [.runCreated, .runStarted, .runCompleted, .runFailed, .runCancelled, .runSuspended, .runResumed])
    (hstatus : ∀ run, JsonObject.prop (event run).data "status" = some tr.target.json) : Agrees t := by
  obtain ⟨row, htarget, -, rfl⟩ := transition_ok h
  intro _
  show _ = row.status.json
  rw [htarget]
  exact projected_status_lifecycle _ env (htype row) (hstatus row)

private theorem agrees_finish {s t : State N} (hs : Agrees s) {env : Env} {tr : Transition}
    {event : RunRow → PartialEvent N} (h : s.finish env tr (fun run => [event run]) = .ok t)
    (htype : ∀ run, (event run).type ∈
      [.runCreated, .runStarted, .runCompleted, .runFailed, .runCancelled, .runSuspended, .runResumed])
    (hstatus : ∀ run, JsonObject.prop (event run).data "status" = some tr.target.json) : Agrees t := by
  unfold State.finish at h
  split at h
  · exact Except.ok.inj h ▸ hs
  · exact agrees_transition h htype hstatus

/-- An operation keeps the two in step exactly when it is not a `markRunning` whose session state fails to. -/
theorem agrees_run_iff {s t : State N} (hs : Agrees s) {env : Env} {op : Operation} (h : s.run env op = .ok t) :
    Agrees t ↔ RunningAgrees s (env, op) := by
  cases op with
  | createRun request =>
    refine iff_of_true ?_ trivial
    simp only [State.run] at h
    split at h
    · exact Except.ok.inj h ▸ hs
    · exact absurd h nofun
  | markStarted request =>
    exact iff_of_true (agrees_transition h (fun _ => by simp) fun _ => rfl) trivial
  | bindSession request session =>
    refine iff_of_true ?_ trivial
    simp only [State.run] at h
    split at h
    · exact Except.ok.inj h ▸ hs
    · obtain ⟨row, htarget, -, rfl⟩ := transition_ok h
      intro hscope
      have hstatus : row.status = .bindingSession := htarget
      simp [State.emit, hstatus, RunStatus.terminal] at hscope
  | markRunning runtimeSessionId sessionState =>
    obtain ⟨row, htarget, hid, rfl⟩ := transition_ok h
    have hstatus : row.status = .running := htarget
    have hprojected := projected_running { s with row } env row runtimeSessionId sessionState env.now
    rw [projected_row hid] at hprojected
    have hscope : Agrees ({ s with row }.emit env (runningEvents row runtimeSessionId sessionState env.now)) ↔
        Reducer.sessionStatus (some sessionState) s.projected.status = RunStatus.running.json := by
      unfold Agrees
      rw [hprojected]
      simp [State.emit, hstatus]
    exact hscope.trans (sessionStatus_eq_running_iff sessionState s.projected.status)
  | markSuspended =>
    refine iff_of_true ?_ trivial
    simp only [State.run] at h
    split at h
    · exact Except.ok.inj h ▸ hs
    · exact agrees_transition h (fun _ => by simp) fun _ => rfl
  | markResumed =>
    refine iff_of_true ?_ trivial
    simp only [State.run] at h
    split at h
    · exact Except.ok.inj h ▸ hs
    · exact agrees_transition h (fun _ => by simp) fun _ => rfl
  | markCompleted => exact iff_of_true (agrees_finish hs h (fun _ => by simp) fun _ => rfl) trivial
  | markFailed message => exact iff_of_true (agrees_finish hs h (fun _ => by simp) fun _ => rfl) trivial
  | markCancelled => exact iff_of_true (agrees_finish hs h (fun _ => by simp) fun _ => rfl) trivial

private theorem agrees_created (env : Env) (request : RunDescriptor) (sessionId runId traceId : String) :
    Agrees (created env request sessionId runId traceId : State N) := by
  intro hscope
  simp [created, State.emit, createdRow, RunStatus.terminal] at hscope

/-- In a sequence of operations that all complete, the projected status agrees with the stored one after every
operation exactly when every `markRunning` comes with a session state that takes the projected status to `running`:
`OPEN` out of a projected `suspended`, or no change of a projected `running`. -/
theorem projected_status_agrees_iff {s₀ s : State N} {ops : List (Env × Operation)} (hstart : machine.start s₀)
    (hrun : machine.exec s₀ ops = some s) :
    (∀ a t, a <+: ops → machine.exec s₀ a = some t → Agrees t) ↔ machine.Throughout RunningAgrees s₀ ops := by
  obtain ⟨env, request, sessionId, runId, traceId, rfl⟩ := hstart
  refine Machine.throughout_iff_of_step (fun _ h => h) ?_ (agrees_created env request sessionId runId traceId) hrun
  intro s a t hs hnext
  have hok : s.run a.1 a.2 = .ok t := by
    change (s.run a.1 a.2).toOption = some t at hnext
    cases hr : s.run a.1 a.2 with
    | error e =>
      rw [hr] at hnext
      exact absurd hnext nofun
    | ok u =>
      rw [hr] at hnext
      rw [Option.some.inj hnext]
  exact iff_iff_implies_and_implies.1 (agrees_run_iff hs hok)

/-- A run whose session is bound while it is paused, and marked running when it is open again. -/
theorem projected_status_agrees_paused :
    let env : Env := { now := "10:00", uuid := fun n => s!"e{n}" }
    let request : RunDescriptor :=
      { runtimeKind := "rust", modeName := "decision", modeVersion := "1", configurationVersion := "1" }
    let session : BoundSession :=
      { runtimeSessionId := "session", initiator := "agent", sessionState := "SESSION_STATE_SUSPENDED" }
    let s₀ : State (Option Rat) := created env request "session" "run" "trace"
    ∃ s, machine.exec s₀ [(env, .markStarted request), (env, .bindSession request session),
      (env, .markRunning "session" "SESSION_STATE_OPEN")] = some s ∧ s.row.status = .running ∧ Agrees s := by
  intro env request session s₀
  have hstart : machine.start s₀ := ⟨env, request, "session", "run", "trace", rfl⟩
  obtain ⟨s, hs, hstatus⟩ : ∃ s, machine.exec s₀ [(env, .markStarted request), (env, .bindSession request session),
      (env, .markRunning "session" "SESSION_STATE_OPEN")] = some s ∧ s.row.status = .running := ⟨_, rfl, rfl⟩
  refine ⟨s, hs, hstatus, (projected_status_agrees_iff hstart hs).2 ?_ _ s (List.prefix_refl _) hs⟩
  refine ⟨trivial, fun t ht => ⟨trivial, fun u hu => ⟨?_, fun _ _ => trivial⟩⟩⟩
  rw [← Option.some.inj ht] at hu
  rw [← Option.some.inj hu]
  exact Or.inl ⟨rfl, rfl⟩

/-- The usual start of a run: the session is open, the row says `running`, and the projection says `starting`. -/
theorem projected_status_agrees_open :
    ¬ ∀ (s₀ s : State (Option Rat)) (ops : List (Env × Operation)), machine.start s₀ → machine.exec s₀ ops = some s →
      Agrees s := by
  intro h
  let env : Env := { now := "10:00", uuid := fun n => s!"e{n}" }
  let request : RunDescriptor :=
    { runtimeKind := "rust", modeName := "decision", modeVersion := "1", configurationVersion := "1" }
  let session : BoundSession :=
    { runtimeSessionId := "session", initiator := "agent", sessionState := "SESSION_STATE_OPEN" }
  have hagrees := h (created env request "session" "run" "trace") _
    [(env, .markStarted request), (env, .bindSession request session),
     (env, .markRunning "session" "SESSION_STATE_OPEN")]
    ⟨env, request, "session", "run", "trace", rfl⟩ rfl (Or.inl rfl)
  have hstatus : (RunStatus.starting.json : Json (Option Rat)) = RunStatus.running.json := hagrees
  exact absurd (RunStatus.json_inj.1 hstatus) nofun

end MacpControlPlane.ProjectedStatus

import MacpControlPlane.Runs.CancelCalls
import MacpControlPlane.Runs.ConsumerTermination

/-!
# Cancelling a run that is starting (`runs/run-executor.service.ts`)

`execute` and `cancel` of one run, statement by statement, with the consumer that `execute` starts.  Other services
move the row between any two statements, and a shutdown can come at any time.

`cancel` stops the consumer that is registered when it gets there.  Where `execute` has made the run `running` and is
about to start its consumer, `stop` finds nobody, and `execute` does not look at the status any more.
-/

namespace MacpControlPlane

open Js Lifecycle

variable {N E : Type}

namespace RunExecutor

/-- What `pollForOpenSession` makes of a snapshot: it returns it, throws, or polls again. -/
def polled (sessionId : String) (snapshot : RuntimeSessionSnapshot) :
    Option (Except Caught RuntimeSessionSnapshot) :=
  if snapshot.state = "SESSION_STATE_OPEN" then some (.ok snapshot)
  else if snapshot.state = "SESSION_STATE_EXPIRED" then
    some (.error { message := s!"session {sessionId} expired before any agent opened it" })
  else if snapshot.state = "SESSION_STATE_RESOLVED" then some (.ok snapshot)
  else if snapshot.state = "SESSION_STATE_CANCELLED" then
    some (.error { message := s!"session {sessionId} was cancelled before the control plane observed it open" })
  else none

/-- The `session` argument of the `bindSession` of `execute`. -/
def boundSession (sessionId : String) (snapshot : RuntimeSessionSnapshot) : BoundSession :=
  { runtimeSessionId := sessionId
    initiator := snapshot.initiator.getD ""
    sessionState := snapshot.state
    contextId := snapshot.contextId
    extensionKeys := snapshot.extensionKeys }

def alreadyResolved (sessionState : String) : Bool := sessionState = "SESSION_STATE_RESOLVED"

/-- The event of the trace of a run. -/
def artifactEvents (run : RunRow) (artifactId ts : String) : List (PartialEvent N) :=
  [{ ts
     type := .artifactCreated
     source := ⟨.macpControlPlane, "run-executor", none⟩
     subject := some ⟨.artifact, artifactId⟩
     trace := some { traceId := run.traceId }
     data :=
       [("kind", .str "trace"), ("label", .str "Root run trace"), ("traceId", nullable run.traceId),
        ("artifactId", .str artifactId)] }]

/-- Where `execute` is. -/
inductive ExecuteAt where
  /-- At a statement of an operation of the run manager. -/
  | marking (op : Op) (phase : Phase)
  /-- `provider.initialize` -/
  | initializing
  /-- The `getSession` of `pollForOpenSession`. -/
  | polling
  /-- The delay before the next poll. -/
  | sleeping
  /-- `markRunning` has returned. -/
  | marked (run : RunRow) (sessionState : String)
  /-- `artifactService.register` -/
  | registering (run : RunRow)
  | returned

/-- `execute` calls an operation. -/
def ExecuteAt.call (op : Op) : ExecuteAt := .marking op op.first

def handleExecuteError (error : Caught) : ExecuteAt := .call (.markFailed (failureMessage error))

/-- `subscribeSession`, which throws `refusal`, and `markRunning`. -/
def subscribe (sessionId sessionState : String) (refusal : Option Caught) : ExecuteAt :=
  match refusal with
  | some error =>
    if alreadyResolved sessionState then .call (.markRunning sessionId sessionState) else handleExecuteError error
  | none => .call (.markRunning sessionId sessionState)

/-- Where `execute` goes on from a statement of an operation. -/
def ExecuteAt.after (sessionId : String) (op : Op) (refusal : Option Caught) : Outcome → ExecuteAt
  | .goesOn phase => .marking op phase
  | .returned run =>
    match op with
    | .markStarted _ => .initializing
    | .bindSession _ session => subscribe sessionId session.sessionState refusal
    | .markRunning _ sessionState => .marked run sessionState
    | _ => .returned
  | .threw error =>
    match op with
    | .markFailed _ => .returned
    | _ => handleExecuteError { message := error.message }

/-- What `execute` and `cancel` of a run know of it: the arguments of the launch, the hooks in its metadata, and the
runtimes that are registered. -/
structure Launch extends CancelHooks where
  request : RunDescriptor
  sessionId : String
  kinds : List String

end RunExecutor

namespace CancelRaces

open RunExecutor
open ConsumerTermination (ended)

/-- A run in the database, its consumer once there has been one, and the two calls. -/
structure State (N E : Type) where
  record : Record N
  execute : ExecuteAt
  cancel : CancelAt := .reading
  consumer : Option (ConsumerTermination.State N E) := none
  shuttingDown : Bool := false
  sweeps : Nat := 0

/-- What can happen next. -/
inductive Action (N E : Type) where
  /-- The next statement of the operation that `execute` has called. -/
  | execute (env : Env) (refusal : Option Caught)
  /-- `initialize` settles; an unsupported mode is a failure, too. -/
  | initialized (failure : Option Caught)
  | snapshot (snapshot : RuntimeSessionSnapshot)
  /-- `getSession` throws; `retryable` tells whether `execute` polls again. -/
  | pollFailed (error : Caught) (retryable : Bool)
  /-- The delay is over, and maybe the time, too. -/
  | slept (timeout : Option Caught)
  /-- `execute` hands the run over to the consumer. -/
  | start
  | registered (env : Env) (artifactId : String)
  /-- The next statement of `cancel`. -/
  | cancel (env : Env)
  /-- The runtime, or the callback, has answered. -/
  | answered (answer : Answer)
  | stop
  /-- `streamHub.complete` -/
  | complete
  | consumer (action : ConsumerTermination.Action N E)
  /-- Another service moves the row. -/
  | other (transition : Transition) (operation : IsOperation transition) (now : String)
  /-- `RunExecutorService.onModuleDestroy` -/
  | shutdown
  /-- `StreamConsumerService.onModuleDestroy` -/
  | sweep
  | swept

/-- `active.has(runId)` -/
def State.active (s : State N E) : Bool := s.consumer.any fun consumer => !ended consumer.here

def State.start (s : State N E) (sessionState : String) : State N E :=
  if s.active ∨ 0 < s.sweeps then s
  else
    let sessionHandle := if alreadyResolved sessionState then none else some ⟨0, 0⟩
    let loop := StreamConsumer.start 0 0 sessionHandle (alreadyResolved sessionState)
    { s with consumer := some (.opened s.record loop) }

section Step

variable [JsNumber N]

/-- The marker of the consumer is aborted, if there is one. -/
def State.abort (config : StreamConfig) (sessionId : String) (s : State N E) : State N E :=
  { s with
    consumer := s.consumer.map fun consumer =>
      (ConsumerTermination.next config sessionId consumer .stop).getD consumer }

/-- One step. -/
def next (config : StreamConfig) (launch : Launch) (s : State N E) : Action N E → Option (State N E)
  | .execute env refusal =>
    match s.execute with
    | .marking op phase =>
      let result := step env op s.record phase
      some { s with record := result.1, execute := .after launch.sessionId op refusal result.2 }
    | _ => none
  | .initialized failure =>
    match s.execute with
    | .initializing =>
      match failure with
      | some error => some { s with execute := handleExecuteError error }
      | none => some { s with execute := if s.shuttingDown then .returned else .polling }
    | _ => none
  | .snapshot snapshot =>
    match s.execute with
    | .polling =>
      match polled launch.sessionId snapshot with
      | some (.ok snapshot) =>
        some { s with execute := .call (.bindSession launch.request (boundSession launch.sessionId snapshot)) }
      | some (.error error) => some { s with execute := handleExecuteError error }
      | none => some { s with execute := .sleeping }
    | _ => none
  | .pollFailed error retryable =>
    match s.execute with
    | .polling => some { s with execute := if retryable then .sleeping else handleExecuteError error }
    | _ => none
  | .slept timeout =>
    match s.execute with
    | .sleeping =>
      match timeout with
      | some error => some { s with execute := handleExecuteError error }
      | none => some { s with execute := if s.shuttingDown then .returned else .polling }
    | _ => none
  | .start =>
    match s.execute with
    | .marked run sessionState =>
      if s.shuttingDown then some { s with execute := .returned }
      else some { s.start sessionState with execute := .registering run }
    | _ => none
  | .registered env artifactId =>
    match s.execute with
    | .registering run =>
      let record :=
        if run.traceId.getD "" = "" then s.record else s.record.emit env (artifactEvents run artifactId env.now)
      some { s with record, execute := .returned }
    | _ => none
  | .cancel env =>
    match s.cancel with
    | .reading =>
      some { s with cancel := hooked launch.kinds launch.request.runtimeKind launch.toCancelHooks s.record.row }
    | .marking phase =>
      let result := step env .markCancelled s.record phase
      some { s with record := result.1, cancel := .after result.2 }
    | _ => none
  | .answered answer => (s.cancel.answered answer).map fun cancel => { s with cancel }
  | .stop =>
    match s.cancel with
    | .marked => some { s.abort config launch.sessionId with cancel := .stopped }
    | _ => none
  | .complete =>
    match s.cancel with
    | .stopped => some { s with cancel := .returned }
    | _ => none
  | .consumer action =>
    s.consumer.bind fun consumer =>
      (ConsumerTermination.next config launch.sessionId { consumer with record := s.record } action).map
        fun consumer => { s with record := consumer.record, consumer := some consumer }
  | .other transition _ now =>
    (compareAndSet transition now s.record.row).map fun row => { s with record := { s.record with row } }
  | .shutdown => some { s with shuttingDown := true }
  | .sweep => some { s.abort config launch.sessionId with sweeps := s.sweeps + 1 }
  | .swept => if 0 < s.sweeps then some { s with sweeps := s.sweeps - 1 } else none

/-- `execute` of a run in any status, with a `cancel`. -/
def machine (config : StreamConfig) (launch : Launch) : Machine (State N E) (Action N E) where
  start s := ∃ record, s = { record, execute := .call (.markStarted launch.request) }
  next := next config launch

end Step

/-- Once both calls have returned, no live consumer is left. -/
def Stopped (s : State N E) : Prop :=
  s.cancel = .returned → s.execute = .returned →
    ∀ consumer, s.consumer = some consumer → ended consumer.here = true ∨ consumer.marker.aborted = true

/-- `execute` has made the run `running`, and has yet to call `start`. -/
def handingOver : ExecuteAt → Bool
  | .marking (.markRunning _ _) (.emit _) | .marked _ _ => true
  | _ => false

/-- `stop` does not come while `execute` hands the run over, unless the process is shutting down. -/
def Apart (s : State N E) : Action N E → Prop
  | .stop => handingOver s.execute = true → s.shuttingDown = true
  | _ => True

/-! ### What holds after the stop -/

/-- `stop` has been called. -/
def pastStop : CancelAt → Bool
  | .stopped | .returned => true
  | _ => false

private theorem certain_of_pastStop {cancel : CancelAt} (h : pastStop cancel = true) : certain cancel = true := by
  cases cancel <;> first | rfl | exact absurd h (by simp [pastStop])

private theorem pastStop_of_not_certain {cancel : CancelAt} (h : certain cancel = false) : pastStop cancel = false :=
  Bool.eq_false_iff.2 fun hpast => absurd (h.symm.trans (certain_of_pastStop hpast)) (by simp)

/-- The consumer has ended, or its marker is aborted. -/
def State.Released (s : State N E) : Prop :=
  ∀ consumer, s.consumer = some consumer → ended consumer.here = true ∨ consumer.marker.aborted = true

/-- What holds of a run whose `cancel` has stayed apart from the hand-over. -/
structure Safe (s : State N E) : Prop where
  ended : certain s.cancel = true → s.record.row.status.terminal = true
  apart : pastStop s.cancel = true → handingOver s.execute = true → s.shuttingDown = true
  released : pastStop s.cancel = true → s.Released

private theorem Safe.stopped {s : State N E} (h : Safe s) : Stopped s := by
  intro hcancel _
  exact h.released (by rw [hcancel]; rfl)

@[simp] theorem handingOver_subscribe (sessionId sessionState : String) (refusal : Option Caught) :
    handingOver (subscribe sessionId sessionState refusal) = false := by
  unfold subscribe
  split
  · split_ifs <;> rfl
  · rfl

/-- `execute` does not come to the hand-over of a run that has ended. -/
theorem handingOver_after {env : Env} {op : Op} {r : Record N} {phase : Phase} {sessionId : String}
    {refusal : Option Caught} (hterminal : r.row.status.terminal = true)
    (h : handingOver (.after sessionId op refusal (step env op r phase).2) = true) :
    handingOver (.marking op phase) = true := by
  have hspec := step_spec env op r phase
  generalize step env op r phase = result at h hspec
  cases hspec with
  | left hleaves =>
    cases op with
    | markRunning runtimeSessionId sessionState => exact absurd hleaves (by simp [Op.leaves])
    | bindSession request session => exact absurd h (by simp [ExecuteAt.after])
    | _ => exact absurd h (by simp [ExecuteAt.after, handingOver])
  | checked | missed => exact absurd h (by simp [ExecuteAt.after, handingOver])
  | wrote hwrote =>
    rw [compareAndSet_of_terminal hterminal] at hwrote
    exact absurd hwrote (by simp)
  | agreed hagreed =>
    cases op with
    | markRunning runtimeSessionId sessionState =>
      rw [hagreed] at hterminal
      exact absurd hterminal Bool.false_ne_true
    | _ => exact absurd h (by simp [ExecuteAt.after, handingOver])
  | refused =>
    rename_i error _
    rcases op.caught_cases r.row error with hcaught | ⟨hcaught, htarget⟩
    · rw [hcaught] at h
      cases op <;> exact absurd h Bool.false_ne_true
    · rw [hcaught] at h
      cases op with
      | bindSession request session => exact absurd h (by simp [ExecuteAt.after])
      | _ => exact absurd htarget (by simp [Op.target])
  | emitted run =>
    cases op with
    | markRunning runtimeSessionId sessionState => rfl
    | bindSession request session => exact absurd h (by simp [ExecuteAt.after])
    | _ => exact absurd h (by simp [ExecuteAt.after, handingOver])

private theorem pastStop_after (outcome : Outcome) : pastStop (.after outcome) = false := by
  cases outcome <;> rfl

private theorem ended_of_certain {outcome : Outcome} {r : Record N} (h : outcome.Ended r)
    (hcancelled : certain (.after outcome) = true) : r.row.status.terminal = true := by
  cases outcome with
  | goesOn phase =>
    cases phase with
    | emit run => exact h
    | _ => exact absurd hcancelled (by simp [CancelAt.after, certain, pastMark])
  | returned run => exact h
  | threw error => exact absurd hcancelled (by simp [CancelAt.after, certain, pastMark])

/-- The row has moved, and `execute` is not closer to the hand-over. -/
theorem Safe.of_execute {s : State N E} (h : Safe s) {record : Record N} {execute : ExecuteAt}
    (hrow : RowMoved s.record.row record.row)
    (hexecute : pastStop s.cancel = true → handingOver execute = true → handingOver s.execute = true) :
    Safe { s with record, execute } where
  ended hcancelled := by
    have hterminal := h.ended hcancelled
    show record.row.status.terminal = true
    rwa [hrow.of_terminal hterminal]
  apart hstop hhands := h.apart hstop (hexecute hstop hhands)
  released := h.released

private theorem Safe.of_calling {s : State N E} (h : Safe s) {execute : ExecuteAt}
    (hexecute : handingOver execute = false) : Safe { s with execute } :=
  h.of_execute (Or.inl rfl) fun _ hhands => absurd hhands (by simp [hexecute])

/-- `cancel` goes on to another point before the stop. -/
theorem Safe.of_cancel {s : State N E} {record : Record N} {cancel : CancelAt}
    (hstop : pastStop cancel = false) (hended : certain cancel = true → record.row.status.terminal = true) :
    Safe { s with record, cancel } where
  ended := hended
  apart hpast := absurd hpast (by simp [hstop])
  released hpast := absurd hpast (by simp [hstop])

variable {config : StreamConfig} {launch : Launch} [JsNumber N]

private theorem released_abort (sessionId : String) (s : State N E) : (s.abort config sessionId).Released := by
  intro consumer hconsumer
  obtain ⟨consumer', -, rfl⟩ := Option.map_eq_some_iff.1 hconsumer
  by_cases hended : ended consumer'.here = true
  · left
    simp [ConsumerTermination.next, hended]
  · right
    simp [ConsumerTermination.next, hended]

/-- The hand-over: after the stop it comes only during a shutdown, and starts nothing. -/
theorem Safe.start {s t : State N E} (h : Safe s) (hnext : next config launch s .start = some t) : Safe t := by
  simp only [CancelRaces.next] at hnext
  split at hnext
  · rename_i run sessionState hexecute
    split_ifs at hnext with hshutting
    · rw [← Option.some.inj hnext]
      exact h.of_calling rfl
    · rw [← Option.some.inj hnext]
      have hbefore : pastStop s.cancel = false := by
        rw [Bool.eq_false_iff]
        exact fun hstop => hshutting (h.apart hstop (by rw [hexecute]; rfl))
      refine ⟨?_, fun hstop => ?_, fun hstop => ?_⟩
      · intro hcancelled
        unfold State.start at hcancelled ⊢
        split_ifs at hcancelled ⊢ <;> exact h.ended hcancelled
      all_goals
        unfold State.start at hstop
        split_ifs at hstop <;> exact absurd hstop (by simp [hbefore])
  · exact absurd hnext (by simp)

/-- A statement of `cancel`. -/
theorem Safe.cancel {s t : State N E} (h : Safe s) {env : Env}
    (hnext : next config launch s (.cancel env) = some t) : Safe t := by
  simp only [CancelRaces.next] at hnext
  split at hnext
  · rw [← Option.some.inj hnext]
    have hread := certain_hooked launch.kinds launch.request.runtimeKind launch.toCancelHooks s.record.row
    exact .of_cancel (pastStop_of_not_certain hread) fun hcertain => absurd (hread.symm.trans hcertain) (by simp)
  · rename_i phase hcancel
    rw [← Option.some.inj hnext]
    -- Once `markCancelled` is past its row, the run has ended.
    have hbefore : (Outcome.goesOn phase).Ended s.record := by
      cases phase with
      | emit run => exact h.ended (by rw [hcancel]; rfl)
      | _ => trivial
    have hended := step_ended env (show Op.markCancelled.ends = true from rfl) hbefore
    exact .of_cancel (pastStop_after _) fun hcancelled => ended_of_certain hended hcancelled
  · exact absurd hnext (by simp)

/-- One step keeps it, where `stop` stays apart from the hand-over. -/
theorem Safe.next {s t : State N E} (h : Safe s) {a : Action N E} (ha : Apart s a)
    (hnext : next config launch s a = some t) : Safe t := by
  cases a with
  | execute env refusal =>
    simp only [CancelRaces.next] at hnext
    split at hnext
    · rename_i op phase hexecute
      rw [← Option.some.inj hnext]
      refine h.of_execute (step_rowMoved env op s.record phase) fun hstop hhands => ?_
      rw [hexecute]
      exact handingOver_after (h.ended (certain_of_pastStop hstop)) hhands
    · exact absurd hnext (by simp)
  | initialized failure | slept timeout =>
    simp only [CancelRaces.next] at hnext
    split at hnext
    · split at hnext <;> rw [← Option.some.inj hnext] <;> apply h.of_calling
      · rfl
      · split_ifs <;> rfl
    · exact absurd hnext (by simp)
  | snapshot snapshot =>
    simp only [CancelRaces.next] at hnext
    split at hnext
    · split at hnext <;> rw [← Option.some.inj hnext] <;> apply h.of_calling <;> rfl
    · exact absurd hnext (by simp)
  | pollFailed error retryable =>
    simp only [CancelRaces.next] at hnext
    split at hnext
    · rw [← Option.some.inj hnext]
      apply h.of_calling
      split_ifs <;> rfl
    · exact absurd hnext (by simp)
  | start => exact h.start hnext
  | registered env artifactId =>
    simp only [CancelRaces.next] at hnext
    split at hnext
    · rw [← Option.some.inj hnext]
      refine h.of_execute (Or.inl ?_) fun _ hhands => absurd hhands (by simp [handingOver])
      split_ifs <;> rfl
    · exact absurd hnext (by simp)
  | cancel env => exact h.cancel hnext
  | answered answer =>
    obtain ⟨cancel, hanswered, rfl⟩ := Option.map_eq_some_iff.1 hnext
    have hopen := certain_answered hanswered
    exact .of_cancel (pastStop_of_not_certain hopen) fun hcertain => absurd (hopen.symm.trans hcertain) (by simp)
  | stop =>
    simp only [CancelRaces.next] at hnext
    split at hnext
    · rename_i hcancel
      rw [← Option.some.inj hnext]
      exact ⟨fun _ => h.ended (by rw [hcancel]; rfl), fun _ => ha, fun _ => released_abort _ s⟩
    · exact absurd hnext (by simp)
  | complete =>
    simp only [CancelRaces.next] at hnext
    split at hnext
    · rename_i hcancel
      rw [← Option.some.inj hnext]
      have hstop : pastStop s.cancel = true := by rw [hcancel]; rfl
      exact ⟨fun _ => h.ended (certain_of_pastStop hstop), fun _ => h.apart hstop, fun _ => h.released hstop⟩
    · exact absurd hnext (by simp)
  | consumer action =>
    obtain ⟨consumer, hconsumer, hmap⟩ := Option.bind_eq_some_iff.1 hnext
    obtain ⟨consumer', hstep, rfl⟩ := Option.map_eq_some_iff.1 hmap
    refine ⟨fun hcancelled => ?_, h.apart, fun hstop => ?_⟩
    · have hterminal := h.ended hcancelled
      have hrow := (ConsumerTermination.rowMoved_next hstep).of_terminal hterminal
      show consumer'.record.row.status.terminal = true
      rwa [hrow]
    · intro other hother
      rw [← Option.some.inj hother]
      exact ConsumerTermination.released_next hstep (h.released hstop consumer hconsumer)
  | other transition operation now =>
    obtain ⟨row, hrow, rfl⟩ := Option.map_eq_some_iff.1 hnext
    show Safe { s with record := { s.record with row }, execute := s.execute }
    exact h.of_execute (Or.inr ⟨transition, now, hrow⟩) fun _ hhands => hhands
  | shutdown =>
    rw [← Option.some.inj hnext]
    exact ⟨h.ended, fun _ _ => rfl, h.released⟩
  | sweep =>
    rw [← Option.some.inj hnext]
    exact ⟨h.ended, h.apart, fun _ => released_abort _ s⟩
  | swept =>
    simp only [CancelRaces.next] at hnext
    split_ifs at hnext
    rw [← Option.some.inj hnext]
    exact ⟨h.ended, h.apart, h.released⟩

/-! ### A stop during the hand-over -/

section Fresh

omit [JsNumber N]

private theorem State.start_consumer {s : State N E} (hconsumer : s.consumer = none) (hsweeps : s.sweeps = 0)
    (sessionState : String) :
    ∃ consumer, s.start sessionState = { s with consumer := some consumer } ∧ ended consumer.here = false ∧
      consumer.marker.aborted = false := by
  have hidle : ¬ (s.active = true ∨ 0 < s.sweeps) := by
    simp [State.active, hconsumer, hsweeps]
  unfold State.start
  rw [if_neg hidle]
  refine ⟨_, rfl, ?_⟩
  cases alreadyResolved sessionState <;> exact ⟨rfl, rfl⟩

/-- `execute` has called `start`, or is over. -/
def started : ExecuteAt → Bool
  | .registering _ | .returned => true
  | _ => false

/-- Nobody else registers a consumer. -/
def State.Fresh (s : State N E) : Prop := started s.execute = false → s.consumer = none

private theorem State.Fresh.of_execute {s : State N E} (h : s.Fresh) {record : Record N} {execute : ExecuteAt}
    (hexecute : started s.execute = false) : ({ s with record, execute } : State N E).Fresh :=
  fun _ => h hexecute

end Fresh

private theorem State.Fresh.next {s t : State N E} (h : s.Fresh) {a : Action N E}
    (hnext : CancelRaces.next config launch s a = some t) : t.Fresh := by
  have habort : (s.abort config launch.sessionId).Fresh := fun hstarted => by
    simp [State.abort, h hstarted]
  cases a with
  | execute env refusal | pollFailed error retryable =>
    simp only [CancelRaces.next] at hnext
    split at hnext
    · rename_i hexecute
      rw [← Option.some.inj hnext]
      exact h.of_execute (by rw [hexecute]; rfl)
    · exact absurd hnext (by simp)
  | initialized failure | snapshot snapshot | slept timeout =>
    simp only [CancelRaces.next] at hnext
    split at hnext
    · rename_i hexecute
      split at hnext <;> rw [← Option.some.inj hnext] <;> exact h.of_execute (by rw [hexecute]; rfl)
    · exact absurd hnext (by simp)
  | start =>
    simp only [CancelRaces.next] at hnext
    split at hnext
    · split_ifs at hnext <;> rw [← Option.some.inj hnext] <;> exact fun hstarted => absurd hstarted (by simp [started])
    · exact absurd hnext (by simp)
  | registered env artifactId =>
    simp only [CancelRaces.next] at hnext
    split at hnext
    · rw [← Option.some.inj hnext]
      exact fun hstarted => absurd hstarted (by simp [started])
    · exact absurd hnext (by simp)
  | cancel env =>
    simp only [CancelRaces.next] at hnext
    split at hnext
    · rw [← Option.some.inj hnext]
      exact h
    · rw [← Option.some.inj hnext]
      exact h
    · exact absurd hnext (by simp)
  | answered answer =>
    obtain ⟨cancel, -, rfl⟩ := Option.map_eq_some_iff.1 hnext
    exact h
  | stop =>
    simp only [CancelRaces.next] at hnext
    split at hnext
    · rw [← Option.some.inj hnext]
      exact habort
    · exact absurd hnext (by simp)
  | complete =>
    simp only [CancelRaces.next] at hnext
    split at hnext
    · rw [← Option.some.inj hnext]
      exact h
    · exact absurd hnext (by simp)
  | consumer action =>
    -- A consumer steps only once there is one.
    obtain ⟨consumer, hconsumer, hmap⟩ := Option.bind_eq_some_iff.1 hnext
    obtain ⟨consumer', -, rfl⟩ := Option.map_eq_some_iff.1 hmap
    exact fun hstarted => absurd (h hstarted) (by simp [hconsumer])
  | other transition operation now =>
    obtain ⟨row, -, rfl⟩ := Option.map_eq_some_iff.1 hnext
    exact h
  | shutdown =>
    rw [← Option.some.inj hnext]
    exact h
  | sweep =>
    rw [← Option.some.inj hnext]
    exact habort
  | swept =>
    simp only [CancelRaces.next] at hnext
    split_ifs at hnext
    rw [← Option.some.inj hnext]
    exact h

/-- The sweeps under way can all come to their end. -/
theorem exec_swept (s : State N E) :
    (machine config launch).exec s (List.replicate s.sweeps .swept) = some { s with sweeps := 0 } := by
  obtain ⟨record, execute, cancel, consumer, shuttingDown, sweeps⟩ := s
  induction sweeps with
  | zero => rfl
  | succ n ih => exact ih

private theorem exec_marked {s : State N E} {run : RunRow} {sessionState : String}
    (hexecute : s.execute = .marked run sessionState) (hcancel : s.cancel = .stopped)
    (hconsumer : s.consumer = none) (hshutting : s.shuttingDown = false) (hsweeps : s.sweeps = 0) :
    ∃ as u, (machine config launch).exec s as = some u ∧ ¬ Stopped u := by
  obtain ⟨consumer, hstart, hended, haborted⟩ := s.start_consumer hconsumer hsweeps sessionState
  let env : Env := { now := "", uuid := fun _ => "" }
  obtain ⟨u, hu, hcancelled, hreturned, hregistered⟩ :
      ∃ u, (machine config launch).exec s [.start, .registered env "", .complete] = some u ∧
        u.cancel = .returned ∧ u.execute = .returned ∧ u.consumer = some consumer := by
    simp [Machine.exec, machine, CancelRaces.next, hexecute, hshutting, hstart, hcancel]
  refine ⟨_, u, hu, fun hstopped => ?_⟩
  rcases hstopped hcancelled hreturned consumer hregistered with h | h
  · exact absurd h (by simp [hended])
  · exact absurd h (by simp [haborted])

private theorem exec_handingOver {s : State N E} (hhands : handingOver s.execute = true) (hcancel : s.cancel = .stopped)
    (hconsumer : s.consumer = none) (hshutting : s.shuttingDown = false) (hsweeps : s.sweeps = 0) :
    ∃ as u, (machine config launch).exec s as = some u ∧ ¬ Stopped u := by
  unfold handingOver at hhands
  split at hhands
  · -- `markRunning` appends its event and returns.
    rename_i runtimeSessionId sessionState run hexecute
    let env : Env := { now := "", uuid := fun _ => "" }
    obtain ⟨t, ht, hmarked, hcancel', hconsumer', hshutting', hsweeps'⟩ :
        ∃ t, (machine config launch).next s (.execute env none) = some t ∧ t.execute = .marked run sessionState ∧
          t.cancel = s.cancel ∧ t.consumer = s.consumer ∧ t.shuttingDown = s.shuttingDown ∧ t.sweeps = s.sweeps := by
      simp [machine, CancelRaces.next, hexecute, step, ExecuteAt.after]
    obtain ⟨as, u, hu, hnot⟩ : ∃ as u, (machine config launch).exec t as = some u ∧ ¬ Stopped u :=
      exec_marked hmarked (hcancel'.trans hcancel) (hconsumer'.trans hconsumer) (hshutting'.trans hshutting)
        (hsweeps'.trans hsweeps)
    exact ⟨_, u, Machine.exec_cons_eq_some.2 ⟨t, ht, hu⟩, hnot⟩
  · rename_i run sessionState hexecute
    exact exec_marked hexecute hcancel hconsumer hshutting hsweeps
  · exact absurd hhands (by simp)

/-- After a stop during the hand-over the two calls can go on to leave a live consumer. -/
theorem exec_of_not_apart {s t : State N E} (hfresh : s.Fresh) {a : Action N E} (ha : ¬ Apart s a)
    (hnext : (machine config launch).next s a = some t) :
    ∃ as u, (machine config launch).exec t as = some u ∧ ¬ Stopped u := by
  cases a with
  | stop =>
    obtain ⟨hhands, hshutting⟩ := Classical.not_imp.1 ha
    have hidle : s.consumer = none := by
      refine hfresh ?_
      cases hexecute : s.execute <;> first | rfl | exact absurd hhands (by simp [hexecute, handingOver])
    have ht : t = { s with cancel := .stopped } := by
      simp only [machine, CancelRaces.next] at hnext
      split at hnext
      · rw [← Option.some.inj hnext]
        simp [State.abort, hidle]
      · exact absurd hnext (by simp)
    rw [ht]
    -- The sweeps under way end first, so that `start` takes the run.
    obtain ⟨as, u, hu, hnot⟩ :
        ∃ as u, (machine config launch).exec { s with cancel := .stopped, sweeps := 0 } as = some u ∧ ¬ Stopped u :=
      exec_handingOver hhands rfl hidle (by simpa using hshutting) rfl
    refine ⟨_, u, Machine.exec_append_eq_some.2 ⟨_, exec_swept { s with cancel := .stopped }, hu⟩, hnot⟩
  | _ => exact absurd trivial ha

omit [JsNumber N] in
private theorem safe_start (record : Record N) (request : RunDescriptor) :
    Safe ({ record, execute := .call (.markStarted request) } : State N E) :=
  ⟨fun h => absurd h (by simp [certain, pastMark]), fun h => absurd h (by simp [pastStop]),
    fun h => absurd h (by simp [pastStop])⟩

/-- A run whose `stop` stays apart from the hand-over leaves no live consumer behind; one whose `stop` does not can go
on to leave one. -/
theorem cancel_stops_iff {s₀ s : State N E} {as : List (Action N E)} (hstart : (machine config launch).start s₀)
    (h : (machine config launch).exec s₀ as = some s) :
    ((machine config launch).Throughout Apart s₀ as → Stopped s) ∧
      (¬ (machine config launch).Throughout Apart s₀ as →
        ∃ bs cs u, bs <+: as ∧ (machine config launch).exec s₀ (bs ++ cs) = some u ∧ ¬ Stopped u) := by
  obtain ⟨record, rfl⟩ := hstart
  constructor
  · intro hapart
    have hsafe : Safe s :=
      hapart.invariant (fun _ _ _ hs ha hnext => hs.next ha hnext) (safe_start record launch.request) h
    exact hsafe.stopped
  · intro hnot
    -- The first `stop` that comes during the hand-over.
    obtain ⟨bs, a, cs, t, v, rfl, -, ht, ha, hv, -⟩ := Machine.exists_of_not_throughout hnot h
    have hfresh : t.Fresh :=
      Machine.exec_invariant (fun _ _ _ hs hnext => hs.next hnext) (fun _ => rfl) ht
    obtain ⟨ds, u, hu, hlive⟩ := exec_of_not_apart hfresh ha hv
    refine ⟨bs ++ [a], ds, u, ?_, ?_, hlive⟩
    · exact ⟨cs, by simp⟩
    · rw [List.append_assoc]
      exact Machine.exec_append_eq_some.2 ⟨t, ht, Machine.exec_cons_eq_some.2 ⟨v, hv, hu⟩⟩

/-- A run that is cancelled while it is running. -/
theorem cancel_stops_running :
    let launch : Launch :=
      { request := { runtimeKind := "rust", modeName := "mode", modeVersion := "1", configurationVersion := "1" },
        sessionId := "session", kinds := ["rust"], cancelCallback := some ⟨some "https://agent.example/cancel"⟩ }
    let s₀ : State (Option Rat) String :=
      { record := { row := { id := "run", status := .queued, runtimeSessionId := some "session" } },
        execute := .call (.markStarted launch.request) }
    ∃ (as : List (Action (Option Rat) String)) (s : State (Option Rat) String),
      (machine {} launch).exec s₀ as = some s ∧ s.cancel = .returned ∧ s.execute = .returned ∧ Stopped s := by
  intro launch s₀
  let env : Env := { now := "10:00", uuid := fun _ => "" }
  let opened : RuntimeSessionSnapshot := { sessionId := "session", mode := "mode", state := "SESSION_STATE_OPEN" }
  let as : List (Action (Option Rat) String) :=
    [.execute env none, .execute env none, .initialized none, .snapshot opened, .execute env none, .execute env none,
     .execute env none, .execute env none, .start, .registered env "artifact", .cancel env, .answered .ok,
     .cancel env, .cancel env, .cancel env, .stop, .complete]
  obtain ⟨s, hs, hcancel, hexecute⟩ : ∃ s, (machine {} launch).exec s₀ as = some s ∧ s.cancel = .returned ∧
      s.execute = .returned := ⟨_, rfl, rfl, rfl⟩
  have hapart : (machine {} launch).Throughout Apart s₀ as := by
    refine .cons trivial rfl (.cons trivial rfl (.cons trivial rfl (.cons trivial rfl (.cons trivial rfl ?_))))
    refine .cons trivial rfl (.cons trivial rfl (.cons trivial rfl (.cons trivial rfl (.cons trivial rfl ?_))))
    refine .cons trivial rfl (.cons trivial rfl (.cons trivial rfl (.cons trivial rfl (.cons trivial rfl ?_))))
    exact .cons (fun h => absurd h (by decide)) rfl (.cons trivial rfl trivial)
  have hstart : (machine {} launch).start s₀ := ⟨_, rfl⟩
  exact ⟨as, s, hs, hcancel, hexecute, (cancel_stops_iff hstart hs).1 hapart⟩

/-- A run that is cancelled between the two statements of `markRunning`: both calls return, and its consumer is
live. -/
theorem cancel_stops_handing_over :
    ¬ ∀ (config : StreamConfig) (launch : Launch) (as : List (Action (Option Rat) String))
      (s₀ s : State (Option Rat) String), (machine config launch).start s₀ →
        (machine config launch).exec s₀ as = some s → Stopped s := by
  intro h
  let launch : Launch :=
    { request := { runtimeKind := "rust", modeName := "mode", modeVersion := "1", configurationVersion := "1" },
      sessionId := "session", kinds := ["rust"], cancelCallback := some ⟨some "https://agent.example/cancel"⟩ }
  let s₀ : State (Option Rat) String :=
    { record := { row := { id := "run", status := .queued, runtimeSessionId := some "session" } },
      execute := .call (.markStarted launch.request) }
  let env : Env := { now := "10:00", uuid := fun _ => "" }
  let opened : RuntimeSessionSnapshot := { sessionId := "session", mode := "mode", state := "SESSION_STATE_OPEN" }
  let as : List (Action (Option Rat) String) :=
    [.execute env none, .execute env none, .initialized none, .snapshot opened, .execute env none, .execute env none,
     .execute env none, .cancel env, .answered .ok, .cancel env, .cancel env, .cancel env, .stop, .complete,
     .execute env none, .start, .registered env "artifact"]
  obtain ⟨s, consumer, hs, hcancel, hexecute, hconsumer, hended, haborted⟩ :
      ∃ s consumer, (machine {} launch).exec s₀ as = some s ∧ s.cancel = .returned ∧ s.execute = .returned ∧
        s.consumer = some consumer ∧ ended consumer.here = false ∧ consumer.marker.aborted = false :=
    ⟨_, _, rfl, rfl, rfl, rfl, rfl, rfl⟩
  rcases h {} launch as s₀ s ⟨_, rfl⟩ hs hcancel hexecute consumer hconsumer with hlive | hlive
  · exact absurd hlive (by simp [hended])
  · exact absurd hlive (by simp [haborted])

end CancelRaces

end MacpControlPlane

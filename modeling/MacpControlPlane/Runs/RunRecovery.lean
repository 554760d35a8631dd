import MacpControlPlane.Runs.ConsumerTermination

/-!
# Recovery of a run (`runs/run-recovery.service.ts`)

After a restart `recoverActiveRuns` hands every run that is not over to `recoverRun`, which starts a consumer for it.
Here the session of the run has ended in the meantime, nothing else moves the row, and no statement fails: what the
run ends with depends only on the status it is found in and on the state of the session.
-/

namespace MacpControlPlane.RunRecovery

open Js StreamConsumer Lifecycle ConsumerTermination

variable {N E : Type}

/-- What `recoverRun` reads of the row of the session. -/
structure RecoveredSession where
  runtimeSessionId : String
  lastStreamCursor : Option Nat := none
  lastEnvelopeOrdinal : Nat := 0

/-- The local variables of `recoverRun`; `lastEventSeq` is that of the row that `listActiveRuns` has returned. -/
structure Locals where
  session : Option RecoveredSession
  runtimeSessionId : String
  lastEventSeq : Nat

/-- Where the recovery of the run is. -/
inductive State (N E : Type) where
  /-- The run is listed; `executionRequest` tells whether its metadata has one. -/
  | listed (record : Record N) (executionRequest : Bool)
  /-- Another instance holds the lock. -/
  | skipped (record : Record N)
  | locked (record : Record N) (executionRequest : Bool)
  /-- The `markRunning` of a run in `binding_session`. -/
  | promoting (record : Record N) (locals : Locals) (phase : Phase)
  | opening (record : Record N) (locals : Locals)
  /-- The `markFailed` of a recovery that has failed. -/
  | failing (record : Record N) (message : String) (phase : Phase)
  | failed (record : Record N)
  | consuming (runtimeSessionId : String) (consumer : ConsumerTermination.State N E)

/-- What can happen next. -/
inductive Action (N E : Type) where
  | lock (acquired : Bool)
  | findSession (session : Option RecoveredSession)
  | statement (env : Env)
  /-- The event of `recoverRun`, after which it subscribes and starts the consumer. -/
  | opened (env : Env) (subscribed : Bool)
  | consumer (action : ConsumerTermination.Action N E)

/-- The statuses that `listActiveRuns` selects. -/
def activeStatuses : List RunStatus := [.starting, .bindingSession, .running, .suspended]

/-- The event of `recoverRun`. -/
def recoveredEvents (runtimeSessionId ts : String) : List (PartialEvent N) :=
  [{ ts
     type := .sessionStreamOpened
     source := ⟨.macpControlPlane, "run-recovery", none⟩
     subject := some ⟨.session, runtimeSessionId⟩
     data := [("status", .str "recovered"), ("detail", .str "stream resumed after restart")] }]

/-- The normalizer makes a `session.state.changed` of a snapshot, and of nothing else. -/
def Normalized (raw : RawRuntimeEvent E) (emitted : List (CanonicalEvent N)) : Prop :=
  sessionStateChange emitted = if raw.kind = .sessionSnapshot then raw.sessionState else none

/-- Every `getSession` reports `state`, the stream yields no snapshots, and no statement fails. -/
def Reports (state : String) : LoopAt N E → LoopEvent E → Prop
  | .getSession _, .snapshot _ reported => reported = state
  | .getSession _, .threw _ => False
  | .next _ _, .frame raw => raw.kind ≠ .sessionSnapshot
  | .persist (.poll _) _, .threw _ => False
  | here, event => statementFails here event = false

/-- The start of the consumer. -/
def consumer (config : StreamConfig) (record : Record N) (locals : Locals) (subscribed : Bool) :
    ConsumerTermination.State N E :=
  let resumeFromSeq := max ((locals.session.bind (·.lastStreamCursor)).getD 0) locals.lastEventSeq
  let resumeFromEnvelopeOrdinal := (locals.session.map (·.lastEnvelopeOrdinal)).getD 0
  let sessionHandle : Option RuntimeSessionHandle :=
    if config.streamResumeEnabled && subscribed then some ⟨resumeFromEnvelopeOrdinal, 0⟩ else none
  .opened record (StreamConsumer.start resumeFromSeq resumeFromEnvelopeOrdinal sessionHandle sessionHandle.isNone)

/-- What `recoverRun` does once it has the row of the session. -/
def found (record : Record N) (executionRequest : Bool) (session : Option RecoveredSession) : State N E :=
  if ¬ executionRequest then .failing record "missing executionRequest in run metadata" .check
  else
    let runtimeSessionId := (record.row.runtimeSessionId.or (session.map (·.runtimeSessionId))).getD ""
    if runtimeSessionId = "" then .failing record "no runtime session ID available for recovery" .check
    else
      let locals : Locals := { session, runtimeSessionId, lastEventSeq := record.lastEventSeq }
      if record.row.status = .bindingSession then .promoting record locals .update else .opening record locals

/-- One step. -/
def next [JsNumber N] (config : StreamConfig) : State N E → Action N E → Option (State N E)
  | .listed record executionRequest, .lock acquired =>
    some (if acquired then .locked record executionRequest else .skipped record)
  | .locked record executionRequest, .findSession session => some (found record executionRequest session)
  | .promoting record locals phase, .statement env =>
    match step env (.markRunning locals.runtimeSessionId "SESSION_STATE_OPEN") record phase with
    | (record, .goesOn phase) => some (.promoting record locals phase)
    | (record, .returned _) => some (.opening record locals)
    | (record, .threw error) => some (.failing record error.message .check)
  | .opening record locals, .opened env subscribed =>
    let record := record.emit env (recoveredEvents locals.runtimeSessionId env.now)
    some (.consuming locals.runtimeSessionId (consumer config record locals subscribed))
  | .failing record message phase, .statement env =>
    match step env (.markFailed message) record phase with
    | (record, .goesOn phase) => some (.failing record message phase)
    | (record, .returned _) | (record, .threw _) => some (.failed record)
  | .consuming runtimeSessionId consumer, .consumer action =>
    (ConsumerTermination.next config runtimeSessionId consumer action).map (.consuming runtimeSessionId)
  | _, _ => none

def machine [JsNumber N] (config : StreamConfig) : Machine (State N E) (Action N E) where
  start s := ∃ record executionRequest, s = .listed record executionRequest ∧ record.row.status ∈ activeStatuses
  next := next config

/-- The session is in `state`, nobody else has to do with the run, and no statement fails. -/
def Undisturbed (state : String) : State N E → Action N E → Prop
  | .consuming _ consumer, .consumer action =>
    match action with
    | .loop event => Reports state consumer.here event
    | .commit emitted => ∀ origin raw, consumer.here = .persist origin raw → Normalized raw emitted
    | .emit _ | .statement _ | .timeout => True
    | .failure _ | .other _ _ _ | .stop => False
  | _, _ => True

/-- The run in the database. -/
def State.record : State N E → Record N
  | .listed record _ | .skipped record | .locked record _ | .promoting record _ _ | .opening record _
  | .failing record _ _ | .failed record => record
  | .consuming _ consumer => consumer.record

/-- The recovery, and the consumer that it has started, have ended. -/
def State.Over : State N E → Prop
  | .failed _ => True
  | .consuming _ consumer => ended consumer.here = true
  | _ => False

/-- The type of the event that announces a terminal status. -/
def runEvent : RunStatus → Option CanonicalEventType
  | .completed => some .runCompleted
  | .failed => some .runFailed
  | .cancelled => some .runCancelled
  | _ => none

/-- The run has ended with `status`, and its log says so. -/
def Finished (status : RunStatus) (record : Record N) : Prop :=
  record.row.status = status ∧
    ∃ e ∈ record.log, e.runId = record.row.id ∧ runEvent status = some e.type

/-! ### The course of the loop -/

/-- What the loop knows of the session: only a poll finds its state, and that is `state`. -/
def OnCourse (state : String) (status : RunStatus) : LoopAt N E → Prop
  | .persist (.stream _ _) raw => raw.kind ≠ .sessionSnapshot
  | .persist (.poll _) raw => raw.kind = .sessionSnapshot ∧ raw.sessionState = some state
  | .committed (.stream _ _) _ emitted => sessionStateChange emitted = none
  | .committed (.poll _) _ emitted => sessionStateChange emitted = some state
  | .updateState _ _ found => found = state
  | .finalizing found _ => found = status
  | _ => True

section Loop

variable {config : StreamConfig} {marker : ActiveStream} {state : String} {status : RunStatus}

private theorem onCourse_pollLoop (retries : Nat) :
    OnCourse state status (pollLoop marker retries : ActiveStream × LoopAt N E).2 := by
  unfold pollLoop
  split_ifs <;> trivial

private theorem onCourse_afterStream (streamRetries : Nat) (gapDetected : Bool) :
    OnCourse state status (afterStream config marker streamRetries gapDetected : ActiveStream × LoopAt N E).2 := by
  unfold afterStream
  split_ifs <;> first | exact onCourse_pollLoop 0 | trivial

private theorem onCourse_finalizeRun (hstatus : StreamConsumer.terminalStatus state = some status) {found : RunStatus}
    (hfound : StreamConsumer.terminalStatus state = some found) (caught : Option Nat) :
    OnCourse state status (finalizeRun marker found caught : ActiveStream × LoopAt N E).2 := by
  unfold finalizeRun
  split_ifs
  · trivial
  · exact Option.some.inj (hfound.symm.trans hstatus)

private theorem onCourse_consumeLoop (hstatus : StreamConsumer.terminalStatus state = some status) {here : LoopAt N E}
    (h : OnCourse state status here) (hhere : finalizing here = false) {event : LoopEvent E}
    (hevent : Reports state here event) {loop : ActiveStream × LoopAt N E}
    (hloop : consumeLoop config marker here event = some loop) : OnCourse state status loop.2 := by
  -- One bullet for each equation of `consumeLoop`; a statement that fails is none of them.
  unfold consumeLoop at hloop
  split at hloop
  · split_ifs at hloop <;> rw [← Option.some.inj hloop]
    · trivial
    · exact onCourse_afterStream _ _
    · exact hevent
  · rw [← Option.some.inj hloop]
    exact onCourse_afterStream _ _
  · rw [← Option.some.inj hloop]
    exact onCourse_afterStream _ _
  · rename_i origin raw error
    rw [← Option.some.inj hloop]
    cases origin with
    | stream handle streamRetries => exact onCourse_afterStream _ _
    | poll retries => exact absurd hevent (by simp [Reports])
  · rename_i origin raw emitted
    cases origin with
    | stream handle streamRetries =>
      simp only [show sessionStateChange emitted = none from h] at hloop
      rw [← Option.some.inj hloop]
      show OnCourse state status (if _ then _ else _)
      split_ifs <;> trivial
    | poll retries =>
      simp only [show sessionStateChange emitted = some state from h] at hloop
      rw [← Option.some.inj hloop]
      trivial
  · rename_i origin raw found
    rw [show found = state from h] at hloop
    simp only [hstatus] at hloop
    rw [← Option.some.inj hloop]
    exact onCourse_finalizeRun hstatus hstatus _
  · exact absurd hevent (by simp [Reports, statementFails])
  · rw [← Option.some.inj hloop]
    exact onCourse_pollLoop 0
  · exact absurd hevent (by simp [Reports, statementFails])
  · rw [← Option.some.inj hloop]
    show OnCourse state status (if _ then _ else _)
    split_ifs <;> trivial
  · rw [← Option.some.inj hloop]
    exact onCourse_pollLoop 0
  · rename_i retries receivedAt reported
    rw [← Option.some.inj hloop]
    exact ⟨rfl, congrArg some hevent⟩
  · exact absurd hevent (by simp [Reports])
  · rw [← Option.some.inj hloop]
    trivial
  · exact absurd hevent (by simp [Reports, statementFails])
  · rw [← Option.some.inj hloop]
    exact onCourse_pollLoop _
  · exact absurd hhere (by simp [finalizing])
  · exact absurd hhere (by simp [finalizing])
  · exact absurd hhere (by simp [finalizing])
  · exact absurd hloop (by simp)

end Loop

/-! ### The fate of the run -/

/-- The operation of `finalizeRun`, on a run that the consumer has found in `first`. -/
def Writing (first status : RunStatus) (current : RunStatus) : Phase → Prop
  | .check | .update => current = first
  | .reread => current = first ∧ status ∉ validTransitions first
  | .emit _ => current = status ∧ status ∈ validTransitions first

/-- What the consumer does to a run that it has found in `first`, whose session has ended with `status`. -/
inductive Fate (state : String) (first status : RunStatus) (s : ConsumerTermination.State N E) : Prop
  | idle (call : s.call = none) (lastResort : s.lastResort = false) (finalized : s.marker.finalized = false)
      (aborted : s.marker.aborted = false) (course : OnCourse state status s.here)
      (awaits : finalizing s.here = false) (ended : ended s.here = false) (found : s.record.row.status = first)
  | writing {op : Op} {phase : Phase} (call : s.call = some (op, phase)) (lastResort : s.lastResort = false)
      (finalized : s.marker.finalized = true) (awaits : finalizing s.here = true) (ends : op.ends = true)
      (target : op.target = status) (writing : Writing first status s.record.row.status phase)
  | past (call : s.call = none) (finalized : s.marker.finalized = true) (awaits : finalizing s.here = false)
      (outcome : (status ∈ validTransitions first ∧ Finished status s.record) ∨
        (status ∉ validTransitions first ∧ s.record.row.status = first))

private theorem finished_emit {op : Op} (hop : op.ends = true) {r : Record N} (h : r.row.status = op.target)
    (run : RunRow) (env : Env) : Finished op.target (r.emit env (op.events run env.now)) := by
  cases op with
  | markCompleted | markFailed message | markCancelled =>
    exact ⟨h, _, List.mem_append_right _ (List.mem_singleton_self _), rfl, rfl⟩
  | _ => exact absurd hop Bool.false_ne_true

private theorem Finished.append {status : RunStatus} {r r' : Record N} (h : Finished status r) (hrow : r'.row = r.row)
    {events : List (CanonicalEvent N)} (hlog : r'.log = r.log ++ events) : Finished status r' := by
  obtain ⟨hstatus, e, he, hannounces⟩ := h
  unfold Finished
  rw [hrow, hlog]
  exact ⟨hstatus, e, List.mem_append_left _ he, hannounces⟩

private theorem finalizeOp_target {status : RunStatus} (h : status.terminal = true) (error : String) :
    (finalizeOp status error).target = status := by
  cases status <;> first | rfl | exact absurd h (by decide)

section Consumer

variable {config : StreamConfig} {state : String} {first status : RunStatus}

private theorem fate_resume (hstatus : StreamConsumer.terminalStatus state = some status)
    {s t : ConsumerTermination.State N E} (hlast : s.lastResort = false) (hfinalized : s.marker.finalized = false)
    (haborted : s.marker.aborted = false) (hcourse : OnCourse state status s.here)
    (hawaits : finalizing s.here = false) (hfound : s.record.row.status = first) {event : LoopEvent E}
    (hevent : Reports state s.here event) (hescapes : escapes s.here event = false)
    (h : s.resume config event = some t) : Fate state first status t := by
  obtain ⟨⟨marker', here'⟩, hloop, rfl⟩ := Option.map_eq_some_iff.1 h
  have hleaves := leaves_consumeLoop hfinalized hawaits hloop
  have hcourse' := onCourse_consumeLoop hstatus hcourse hawaits hevent hloop
  have hlast' : (s.lastResort || (escapes s.here event && !s.marker.aborted)) = false := by
    rw [hlast, hescapes]
    rfl
  cases here' with
  | ended => exact absurd hleaves (by simp [Leaves, haborted])
  | finalizing found caught =>
    obtain ⟨hfinalized', -, hterminal⟩ := hleaves
    have hfound' : found = status := hcourse'
    rw [hfound'] at hterminal
    obtain ⟨hends, hcheck⟩ := finalizeOp_ends found (finalizeError s.here event)
    have htarget : (finalizeOp found (finalizeError s.here event)).target = status := by
      rw [hfound']
      exact finalizeOp_target hterminal _
    refine .writing rfl hlast' hfinalized' rfl hends htarget ?_
    rw [hcheck]
    exact hfound
  | _ => exact .idle rfl hlast' hleaves.1 (hleaves.2.trans haborted) hcourse' rfl rfl hfound

/-- The loop goes on after the run is over. -/
theorem fate_past {s t : ConsumerTermination.State N E} (hfinalized : s.marker.finalized = true)
    (hover : (status ∈ validTransitions first ∧ Finished status s.record) ∨
      (status ∉ validTransitions first ∧ s.record.row.status = first)) {event : LoopEvent E}
    (h : s.resume config event = some t) : Fate state first status t := by
  obtain ⟨loop, hloop, rfl⟩ := Option.map_eq_some_iff.1 h
  obtain ⟨hmarker, hhere⟩ := over_consumeLoop hfinalized hloop
  exact .past (begins_of_not_finalizing hhere _) hmarker hhere hover

private theorem fate_statement (hfirst : first.terminal = false) {s t : ConsumerTermination.State N E} {op : Op}
    {phase : Phase} (hcall : s.call = some (op, phase)) (hlast : s.lastResort = false)
    (hfinalized : s.marker.finalized = true) (hawaits : finalizing s.here = true) (hends : op.ends = true)
    (htarget : op.target = status) (hwriting : Writing first status s.record.row.status phase) [JsNumber N]
    {runtimeSessionId : String} {env : Env}
    (h : ConsumerTermination.next config runtimeSessionId s (.statement env) = some t) :
    Fate state first status t := by
  have hspec := step_spec env op s.record phase
  simp only [ConsumerTermination.next, hcall] at h
  generalize step env op s.record phase = result at h hspec
  cases hspec with
  | left hleaves =>
    rw [op.leaves_of_ends hends, show s.record.row.status = first from hwriting, hfirst] at hleaves
    exact absurd hleaves (by simp)
  | checked =>
    rw [← Option.some.inj h]
    exact .writing rfl hlast hfinalized hawaits hends htarget hwriting
  | wrote hrow =>
    rw [← Option.some.inj h]
    have hedge := (compareAndSet_eq_some.1 hrow).1
    rw [op.transition_target, htarget, show s.record.row.status = first from hwriting] at hedge
    refine .writing rfl hlast hfinalized hawaits hends htarget ⟨?_, hedge⟩
    exact (compareAndSet_status hrow).trans ((op.transition_target env.now).trans htarget)
  | missed hmissed =>
    rw [← Option.some.inj h]
    rw [htarget, show s.record.row.status = first from hwriting] at hmissed
    exact .writing rfl hlast hfinalized hawaits hends htarget ⟨hwriting, hmissed⟩
  | agreed hagreed =>
    rw [hwriting.1] at hagreed
    rw [Op.ends, ← hagreed, hfirst] at hends
    exact absurd hends (by simp)
  | refused =>
    rename_i error _
    have hcaught : op.caught s.record.row error = .threw error := by
      refine (op.caught_cases s.record.row error).resolve_right fun hbind => ?_
      rw [Op.ends, hbind.2] at hends
      exact absurd hends (by decide)
    rw [hcaught] at h
    simp only [State.rejected, hawaits, if_true] at h
    refine fate_past ?_ ?_ h
    · exact hfinalized
    · exact Or.inr ⟨hwriting.2, hwriting.1⟩
  | emitted run =>
    simp only [State.finalized, hawaits, if_true] at h
    refine fate_past ?_ ?_ h
    · exact hfinalized
    · have hfinished := finished_emit hends (hwriting.1.trans htarget.symm) run env
      rw [htarget] at hfinished
      exact Or.inl ⟨hwriting.2, hfinished⟩

private theorem escapes_of_reports {here : LoopAt N E} {event : LoopEvent E} (h : Reports state here event) :
    escapes here event = false := by
  unfold escapes
  split
  · exact absurd h (by simp [Reports, statementFails])
  · exact absurd h (by simp [Reports, statementFails])
  · rfl

private theorem onCourse_commit {origin : Origin} {raw : RawRuntimeEvent E}
    (h : OnCourse (N := N) state status (.persist origin raw)) {emitted : List (CanonicalEvent N)}
    (hemitted : Normalized raw emitted) : OnCourse state status (.committed origin raw emitted) := by
  unfold Normalized at hemitted
  cases origin with
  | stream handle streamRetries => exact hemitted.trans (if_neg h)
  | poll retries => exact hemitted.trans ((if_pos h.1).trans h.2)

private theorem Fate.next [JsNumber N] (hstatus : StreamConsumer.terminalStatus state = some status)
    (hfirst : first.terminal = false) {s t : ConsumerTermination.State N E} (h : Fate state first status s)
    {runtimeSessionId : String} {a : ConsumerTermination.Action N E}
    (ha : Undisturbed state (.consuming runtimeSessionId s) (.consumer a))
    (hnext : ConsumerTermination.next config runtimeSessionId s a = some t) : Fate state first status t := by
  cases h with
  | idle call lastResort finalized aborted course awaits ended found =>
    cases a with
    | loop event =>
      simp only [ConsumerTermination.next] at hnext
      split_ifs at hnext
      exact fate_resume hstatus lastResort finalized aborted course awaits found ha (escapes_of_reports ha) hnext
    | commit emitted =>
      simp only [ConsumerTermination.next] at hnext
      split at hnext
      · rename_i origin raw hhere
        rw [← Option.some.inj hnext]
        rw [hhere] at course
        exact .idle call lastResort finalized aborted (onCourse_commit course (ha origin raw hhere)) rfl rfl found
      · exact absurd hnext (by simp)
    | emit env =>
      obtain ⟨record, marker, here, call, lastResort, completions, stopped, databaseFailed⟩ := s
      cases here with
      | emitGap | emitReconnecting retries =>
        apply fate_resume hstatus _ _ _ _ _ _ _ _ hnext <;> first | rfl | trivial
      | _ => exact absurd hnext (by simp [ConsumerTermination.next])
    | statement env => exact absurd hnext (by simp [ConsumerTermination.next, call])
    | timeout => exact absurd hnext (by simp [ConsumerTermination.next, lastResort])
    | failure | other | stop => exact absurd ha (by simp [Undisturbed])
  | writing call lastResort finalized awaits ends target writing =>
    have hhere : ∃ found caught, s.here = .finalizing found caught := by
      cases hhere : s.here with
      | finalizing found caught => exact ⟨found, caught, rfl⟩
      | _ => exact absurd awaits (by simp [hhere, finalizing])
    obtain ⟨found, caught, hhere⟩ := hhere
    cases a with
    | loop event => exact absurd hnext (by simp [ConsumerTermination.next, hhere, elsewhere])
    | commit emitted => exact absurd hnext (by simp [ConsumerTermination.next, hhere])
    | emit env => exact absurd hnext (by simp [ConsumerTermination.next, hhere])
    | statement env => exact fate_statement hfirst call lastResort finalized awaits ends target writing hnext
    | timeout => exact absurd hnext (by simp [ConsumerTermination.next, lastResort])
    | failure | other | stop => exact absurd ha (by simp [Undisturbed])
  | past call finalized awaits outcome =>
    cases a with
    | loop event =>
      simp only [ConsumerTermination.next] at hnext
      split_ifs at hnext
      exact fate_past finalized outcome hnext
    | commit emitted =>
      simp only [ConsumerTermination.next] at hnext
      split at hnext
      · rw [← Option.some.inj hnext]
        exact .past call finalized rfl (outcome.imp_left fun h => ⟨h.1, h.2.append rfl rfl⟩)
      · exact absurd hnext (by simp)
    | emit env =>
      simp only [ConsumerTermination.next] at hnext
      split at hnext
      · refine fate_past ?_ ?_ hnext
        · exact finalized
        · exact outcome.imp_left fun h => ⟨h.1, h.2.append rfl rfl⟩
      · refine fate_past ?_ ?_ hnext
        · exact finalized
        · exact outcome.imp_left fun h => ⟨h.1, h.2.append rfl rfl⟩
      · exact absurd hnext (by simp)
    | statement env => exact absurd hnext (by simp [ConsumerTermination.next, call])
    | timeout => exact absurd hnext (by simp [ConsumerTermination.next, awaits])
    | failure | other | stop => exact absurd ha (by simp [Undisturbed])

end Consumer

/-! ### Recovery -/

/-- The status in which the consumer finds a run. -/
def promoted (found : RunStatus) : RunStatus := if found = .bindingSession then .running else found

/-- The recovery of a run found in `found`, with an execution request and a session. -/
def Recovering (state : String) (status found : RunStatus) : State N E → Prop
  | .listed record executionRequest | .locked record executionRequest =>
    executionRequest = true ∧ record.row.runtimeSessionId.getD "" ≠ "" ∧ record.row.status = found
  | .skipped _ => True
  | .promoting record _ .update => found = .bindingSession ∧ record.row.status = .bindingSession
  | .promoting record _ (.emit _) => found = .bindingSession ∧ record.row.status = .running
  | .promoting _ _ _ | .failing _ _ _ | .failed _ => False
  | .opening record _ => record.row.status = promoted found
  | .consuming _ consumer => Fate state (promoted found) status consumer

private theorem promoted_not_terminal {found : RunStatus} (h : found ∈ activeStatuses) :
    (promoted found).terminal = false := by
  cases found <;> first | rfl | exact absurd h (by decide)

private theorem mem_validTransitions_promoted {found status : RunStatus} (h : found ∈ activeStatuses)
    (hstatus : status.terminal = true) :
    status ∈ validTransitions (promoted found) ↔ ¬ (found = .starting ∧ status = .completed) := by
  cases found <;> first
    | exact absurd h (by decide)
    | cases status <;> first | decide | exact absurd hstatus (by decide)

variable {config : StreamConfig} {state : String} {found status : RunStatus}

private theorem recovering_found {record : Record N} (hsession : record.row.runtimeSessionId.getD "" ≠ "")
    (hfound : record.row.status = found) (session : Option RecoveredSession) :
    Recovering (E := E) state status found (RunRecovery.found record true session) := by
  have hid : (record.row.runtimeSessionId.or (session.map (·.runtimeSessionId))).getD "" ≠ "" := by
    cases hrow : record.row.runtimeSessionId with
    | none => exact absurd (by rw [hrow]; rfl) hsession
    | some id =>
      rw [hrow] at hsession
      exact hsession
  unfold RunRecovery.found
  rw [if_neg (by simp), if_neg hid]
  split_ifs with hbinding
  · exact ⟨hfound.symm.trans hbinding, hbinding⟩
  · show record.row.status = promoted found
    rw [promoted, if_neg (hfound ▸ hbinding), hfound]

private theorem fate_consumer (record : Record N) (locals : Locals) (subscribed : Bool)
    (h : record.row.status = promoted found) :
    Fate (E := E) state (promoted found) status (consumer config record locals subscribed) := by
  unfold consumer
  cases hsubscribed : config.streamResumeEnabled && subscribed <;> exact .idle rfl rfl rfl rfl trivial rfl rfl h

private theorem recovering_next [JsNumber N] (hstatus : StreamConsumer.terminalStatus state = some status)
    (hactive : found ∈ activeStatuses) {s t : State N E} (h : Recovering state status found s) {a : Action N E}
    (ha : Undisturbed state s a) (hnext : next config s a = some t) : Recovering state status found t := by
  unfold next at hnext
  split at hnext
  · rename_i record executionRequest acquired
    rw [← Option.some.inj hnext]
    split
    · exact h
    · trivial
  · rename_i record executionRequest session
    obtain ⟨rfl, hsession, hfound⟩ := h
    rw [← Option.some.inj hnext]
    exact recovering_found hsession hfound session
  · rename_i record locals phase env
    have hspec := step_spec env (.markRunning locals.runtimeSessionId "SESSION_STATE_OPEN") record phase
    generalize step env (.markRunning locals.runtimeSessionId "SESSION_STATE_OPEN") record phase = result
      at hnext hspec
    cases hspec with
    | wrote hrow =>
      rw [← Option.some.inj hnext]
      exact ⟨h.1, compareAndSet_status hrow⟩
    | missed hmissed =>
      rw [h.2] at hmissed
      exact absurd (show RunStatus.running ∈ validTransitions .bindingSession by decide) hmissed
    | emitted run =>
      rw [← Option.some.inj hnext]
      show record.row.status = promoted found
      rw [h.1, h.2]
      rfl
    | left | checked | agreed | refused => exact absurd h (by simp [Recovering])
  · rename_i record locals env subscribed
    rw [← Option.some.inj hnext]
    exact fate_consumer _ _ _ h
  · exact absurd h (by simp [Recovering])
  · rename_i runtimeSessionId consumer action
    obtain ⟨consumer', hconsumer, rfl⟩ := Option.map_eq_some_iff.1 hnext
    exact Fate.next hstatus (promoted_not_terminal hactive) h ha hconsumer
  · exact absurd hnext (by simp)

/-- When the recovery of a run and its consumer have ended, the run has ended with its session, except where it was
found in `starting` and its session is resolved. -/
theorem recovery_finishes_iff [JsNumber N] (hstatus : StreamConsumer.terminalStatus state = some status)
    {record : Record N} (hactive : record.row.status ∈ activeStatuses)
    (hsession : record.row.runtimeSessionId.getD "" ≠ "") {as : List (Action N E)} {s : State N E}
    (h : (machine config).exec (.listed record true) as = some s)
    (hundisturbed : (machine config).Throughout (Undisturbed state) (.listed record true) as) (hover : s.Over) :
    Finished status s.record ↔ ¬ (record.row.status = .starting ∧ status = .completed) := by
  have hterminal := terminalStatus_terminal hstatus
  have hs : Recovering state status record.row.status s :=
    hundisturbed.invariant (fun _ _ _ hs ha hnext => recovering_next hstatus hactive hs ha hnext)
      ⟨rfl, hsession, rfl⟩ h
  rw [← mem_validTransitions_promoted hactive hterminal]
  cases s with
  | consuming runtimeSessionId consumer =>
    cases hs with
    | idle _ _ _ _ _ _ hended => exact absurd hover (by simp [State.Over, hended])
    | @writing op phase _ _ _ hawaits =>
      have hnot : ended consumer.here = false := by
        cases hhere : consumer.here with
        | ended => exact absurd hawaits (by simp [hhere, finalizing])
        | _ => rfl
      exact absurd hover (by simp [State.Over, hnot])
    | past _ _ _ houtcome =>
      rcases houtcome with ⟨hedge, hfinished⟩ | ⟨hedge, hrow⟩
      · exact iff_of_true hfinished hedge
      · refine iff_of_false (fun hfinished => ?_) hedge
        have hlive := promoted_not_terminal hactive
        rw [← hrow, show consumer.record.row.status = status from hfinished.1, hterminal] at hlive
        exact absurd hlive (by simp)
  | failed => exact absurd hs (by simp [Recovering])
  | _ => exact absurd hover (by simp [State.Over])

/-- A running run whose session is resolved after the restart. -/
theorem recovery_finishes_running :
    let record : Record (Option Rat) :=
      { row := { id := "run", status := .running, runtimeSessionId := some "session" } }
    ∃ (as : List (Action (Option Rat) String)) (s : State (Option Rat) String),
      (machine {}).exec (.listed record true) as = some s ∧ s.Over ∧ Finished .completed s.record := by
  intro record
  let env : Env := { now := "10:00", uuid := fun _ => "" }
  let changed : CanonicalEvent (Option Rat) :=
    { id := "e1", runId := "run", seq := 1, ts := "10:00", type := .sessionStateChanged,
      source := ⟨.runtime, "rust-runtime", none⟩, data := [("state", .str "SESSION_STATE_RESOLVED")] }
  let as : List (Action (Option Rat) String) :=
    [.lock true, .findSession none, .opened env false,
     .consumer (.loop (.snapshot "10:00" "SESSION_STATE_RESOLVED")), .consumer (.commit [changed]),
     .consumer (.loop .returned), .consumer (.loop .returned),
     .consumer (.statement env), .consumer (.statement env), .consumer (.statement env)]
  obtain ⟨s, hs, hover⟩ : ∃ s, (machine {}).exec (.listed record true) as = some s ∧ s.Over := ⟨_, rfl, rfl⟩
  have hundisturbed : (machine {}).Throughout (Undisturbed "SESSION_STATE_RESOLVED") (.listed record true) as := by
    refine .cons trivial rfl (.cons trivial rfl (.cons trivial rfl (.cons rfl rfl (.cons ?_ rfl ?_))))
    · intro origin raw hhere
      injection hhere with horigin hraw
      rw [← hraw]
      rfl
    · exact .cons rfl rfl (.cons rfl rfl (.cons trivial rfl (.cons trivial rfl (.cons trivial rfl trivial))))
  refine ⟨as, s, hs, hover, ?_⟩
  have hstatus : StreamConsumer.terminalStatus "SESSION_STATE_RESOLVED" = some .completed := rfl
  exact (recovery_finishes_iff hstatus (by decide) (by decide) hs hundisturbed hover).2 (by decide)

/-- A run that was starting when the process went down, and whose session is resolved when it is up again: it stays in
`starting`. -/
theorem recovery_finishes_starting :
    ¬ ∀ (config : StreamConfig) (state : String) (status : RunStatus) (record : Record (Option Rat))
      (as : List (Action (Option Rat) String)) (s : State (Option Rat) String),
      StreamConsumer.terminalStatus state = some status → record.row.status ∈ activeStatuses →
      record.row.runtimeSessionId.getD "" ≠ "" → (machine config).exec (.listed record true) as = some s →
      (machine config).Throughout (Undisturbed state) (.listed record true) as → s.Over →
        Finished status s.record := by
  intro h
  let record : Record (Option Rat) :=
    { row := { id := "run", status := .starting, runtimeSessionId := some "session" } }
  let env : Env := { now := "10:00", uuid := fun _ => "" }
  let changed : CanonicalEvent (Option Rat) :=
    { id := "e1", runId := "run", seq := 1, ts := "10:00", type := .sessionStateChanged,
      source := ⟨.runtime, "rust-runtime", none⟩, data := [("state", .str "SESSION_STATE_RESOLVED")] }
  let as : List (Action (Option Rat) String) :=
    [.lock true, .findSession none, .opened env false,
     .consumer (.loop (.snapshot "10:00" "SESSION_STATE_RESOLVED")), .consumer (.commit [changed]),
     .consumer (.loop .returned), .consumer (.loop .returned),
     .consumer (.statement env), .consumer (.statement env), .consumer (.statement env),
     .consumer (.emit env), .consumer (.loop .returned)]
  obtain ⟨s, hs, hover, hstatus⟩ : ∃ s, (machine {}).exec (.listed record true) as = some s ∧ s.Over ∧
      s.record.row.status = .starting := ⟨_, rfl, rfl, rfl⟩
  have hundisturbed : (machine {}).Throughout (Undisturbed "SESSION_STATE_RESOLVED") (.listed record true) as := by
    refine .cons trivial rfl (.cons trivial rfl (.cons trivial rfl (.cons rfl rfl (.cons ?_ rfl ?_))))
    · intro origin raw hhere
      injection hhere with horigin hraw
      rw [← hraw]
      rfl
    · refine .cons rfl rfl (.cons rfl rfl (.cons trivial rfl (.cons trivial rfl (.cons trivial rfl ?_))))
      exact .cons trivial rfl (.cons rfl rfl trivial)
  have hfinished :=
    h {} "SESSION_STATE_RESOLVED" .completed record as s rfl (by decide) (by decide) hs hundisturbed hover
  exact absurd (hstatus.symm.trans hfinished.1) (by decide)

end MacpControlPlane.RunRecovery

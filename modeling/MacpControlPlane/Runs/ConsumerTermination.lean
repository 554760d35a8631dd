import MacpControlPlane.Lib.Machine
import MacpControlPlane.Runs.Lifecycle
import MacpControlPlane.Runs.StreamConsumer

/-!
# How a consumer ends (`StreamConsumerService.start`)

The loop of a consumer with the row of its run, the operation that `finalizeRun` calls, and the handler that `start`
attaches to the loop.  Other services move the row between any two statements, and any statement can fail.

`finalizeRun` sets `finalized` and `aborted` before it writes.  When the write is refused, the loop takes its own end
for a stop from outside and returns; only the handler, when it was the one to call `finalizeRun`, completes the stream
of the run nevertheless.
-/

namespace MacpControlPlane

open Js

variable {N E : Type}

namespace StreamConsumer

/-- The operation that `finalizeRun` calls. -/
def finalizeOp (status : RunStatus) (error : String) : Lifecycle.Op :=
  if status = .completed then .markCompleted else if status = .cancelled then .markCancelled else .markFailed error

/-- The message of the error that `finalizeRun` is called with. -/
def finalizeError : LoopAt N E → LoopEvent E → String
  | .emitGap, .threw error | .emitReconnecting _, .threw error => error.message
  | .updateState _ raw state, .returned =>
    if terminalStatus state = some .failed ∨ raw.sessionState.bind terminalStatus = some .failed then
      "runtime session expired"
    else "polling exhausted without terminal session state"
  | .committed _ raw _, .returned =>
    if raw.sessionState.bind terminalStatus = some .failed then "runtime session expired"
    else "polling exhausted without terminal session state"
  | _, _ => "polling exhausted without terminal session state"

/-- An error that no `catch` of the loop is around. -/
def escapes : LoopAt N E → LoopEvent E → Bool
  | .emitGap, .threw _ | .emitReconnecting _, .threw _ => true
  | _, _ => false

/-- What throws is a statement. -/
def statementFails : LoopAt N E → LoopEvent E → Bool
  | .updateState _ _ _, .threw _ | .emitGap, .threw _ | .emitReconnecting _, .threw _ => true
  | _, _ => false

/-- `{ kind: 'macp-control-plane', name: 'stream-consumer' }` -/
def streamConsumerSource : EventSource := ⟨.macpControlPlane, "stream-consumer", none⟩

/-- The event of `emitStreamGap`. -/
def gapEvents [JsNumber N] (runtimeSessionId : String) (marker : ActiveStream) (ts : String) :
    List (PartialEvent N) :=
  [{ ts
     type := .sessionStreamGap
     source := streamConsumerSource
     subject := some ⟨.session, runtimeSessionId⟩
     data :=
       [("requestedAfter", .num (JsNumber.ofNat marker.envelopeOrdinal)),
        ("detail", .str ("session history before the resume point was compacted; " ++
          "some envelope-level events may be missing"))] }]

/-- The event between two polls. -/
def reconnectingEvents (runtimeSessionId ts : String) : List (PartialEvent N) :=
  [{ ts
     type := .sessionStreamOpened
     source := streamConsumerSource
     subject := some ⟨.session, runtimeSessionId⟩
     data := [("status", .str "reconnecting"), ("detail", .str "polling getSession for terminal state")] }]

end StreamConsumer

namespace ConsumerTermination

open StreamConsumer Lifecycle

/-- The run in the database, and the consumer.  `call` is the operation of `finalizeRun`, `lastResort` tells that the
handler of `start` has called it, and `stopped` that `stop` or a shutdown has aborted the marker. -/
structure State (N E : Type) where
  record : Record N
  marker : ActiveStream
  here : LoopAt N E
  call : Option (Op × Phase) := none
  lastResort : Bool := false
  completions : Nat := 0
  stopped : Bool := false
  databaseFailed : Bool := false

/-- What can happen next. -/
inductive Action (N E : Type) where
  /-- What the loop awaits comes to something. -/
  | loop (event : LoopEvent E)
  /-- The transaction of `persistRawAndCanonical`. -/
  | commit (emitted : List (CanonicalEvent N))
  /-- The transaction of an event that the loop emits itself. -/
  | emit (env : Env)
  /-- The next statement of `finalizeRun`. -/
  | statement (env : Env)
  /-- It fails. -/
  | failure (error : Caught)
  /-- The timer of the handler fires. -/
  | timeout
  /-- Another service moves the row. -/
  | other (transition : Transition) (operation : IsOperation transition) (now : String)
  /-- `stop`, or a shutdown. -/
  | stop

/-- The loop awaits `finalizeRun`. -/
def finalizing : LoopAt N E → Bool
  | .finalizing _ _ => true
  | _ => false

/-- The loop and the handler have settled. -/
def ended : LoopAt N E → Bool
  | .ended => true
  | _ => false

/-- Outcomes that are steps of their own here. -/
def elsewhere : LoopAt N E → LoopEvent E → Bool
  | .emitGap, .returned | .emitReconnecting _, .returned => true
  | .finalizing _ _, _ => true
  | _, _ => false

/-- `finalizeRun` starts with the first statement of its operation. -/
def begins (here : LoopAt N E) (error : String) : Option (Op × Phase) :=
  match here with
  | .finalizing status _ => some (finalizeOp status error, (finalizeOp status error).first)
  | _ => none

/-- The loop goes on. -/
def State.resume (config : StreamConfig) (s : State N E) (event : LoopEvent E) : Option (State N E) :=
  (consumeLoop config s.marker s.here event).map fun loop =>
    { s with
      marker := loop.1
      here := loop.2
      call := begins loop.2 (finalizeError s.here event)
      lastResort := s.lastResort || (escapes s.here event && !s.marker.aborted)
      databaseFailed := s.databaseFailed || statementFails s.here event }

/-- `finalizeRun` rejects.  Where the timer has fired before, nobody waits for it any more. -/
def State.rejected (config : StreamConfig) (s : State N E) (error : Caught) : Option (State N E) :=
  if finalizing s.here then
    { s with completions := s.completions + s.lastResort.toNat }.resume config (.threw error)
  else some { s with call := none }

/-- `finalizeRun` returns, after `streamHub.complete`. -/
def State.finalized (config : StreamConfig) (s : State N E) : Option (State N E) :=
  if finalizing s.here then { s with completions := s.completions + 1 }.resume config .returned
  else some { s with completions := s.completions + 1, call := none }

/-- One step. -/
def next [JsNumber N] (config : StreamConfig) (runtimeSessionId : String) (s : State N E) :
    Action N E → Option (State N E)
  | .loop event => if elsewhere s.here event then none else s.resume config event
  | .commit emitted =>
    match s.here with
    | .persist origin raw =>
      some { s with
        record := { s.record with log := s.record.log ++ emitted }
        here := .committed origin raw emitted }
    | _ => none
  | .emit env =>
    match s.here with
    | .emitGap =>
      { s with record := s.record.emit env (gapEvents runtimeSessionId s.marker env.now) }.resume config .returned
    | .emitReconnecting _ =>
      { s with record := s.record.emit env (reconnectingEvents runtimeSessionId env.now) }.resume config .returned
    | _ => none
  | .statement env =>
    match s.call with
    | some (op, phase) =>
      match step env op s.record phase with
      | (record, .goesOn phase) => some { s with record, call := some (op, phase) }
      | (record, .returned _) => { s with record }.finalized config
      | (record, .threw error) => { s with record }.rejected config { message := error.message }
    | none => none
  | .failure error => if s.call.isSome then { s with databaseFailed := true }.rejected config error else none
  | .timeout =>
    if s.lastResort ∧ finalizing s.here then some { s with here := .ended, completions := s.completions + 1 }
    else none
  | .other transition _ now =>
    (compareAndSet transition now s.record.row).map fun row => { s with record := { s.record with row } }
  | .stop =>
    if ended s.here then none else some { s with marker := { s.marker with aborted := true }, stopped := true }

/-- A consumer that `start` has registered. -/
def State.opened (record : Record N) (loop : ActiveStream × LoopAt N E) : State N E :=
  { record, marker := loop.1, here := loop.2 }

/-- A consumer of a runtime kind that is not registered: `consumeLoop` throws at once. -/
def State.unregistered (record : Record N) (marker : ActiveStream) (error : String) : State N E :=
  let loop : ActiveStream × LoopAt N E := StreamConsumer.lastResort marker
  { record, marker := loop.1, here := loop.2, call := begins loop.2 error, lastResort := true }

/-- A consumer, of a run in any status, with all that can happen to it. -/
def machine [JsNumber N] (config : StreamConfig) (runtimeSessionId : String) :
    Machine (State N E) (Action N E) where
  start s := ∃ record resumeFromSeq resumeFromEnvelopeOrdinal,
    (∃ sessionHandle pollOnly,
      s = .opened record (StreamConsumer.start resumeFromSeq resumeFromEnvelopeOrdinal sessionHandle pollOnly)) ∨
    ∃ error, s = .unregistered record
      { lastProcessedSeq := resumeFromSeq, envelopeOrdinal := resumeFromEnvelopeOrdinal } error
  next := next config runtimeSessionId

/-- The run is over for its subscribers, and in the database unless a statement has failed. -/
def Finalized (s : State N E) : Prop :=
  ended s.here = true → s.stopped = false →
    0 < s.completions ∧ (s.record.row.status.terminal = true ∨ s.databaseFailed = true)

/-- `finalizeRun` goes through: a second read finds the status that it was to write, no statement of it fails, and the
timer does not cut it off.  Where the handler has called it, it may reject, and the timer may cut it off once a
statement has failed or the run has ended. -/
def GoesThrough (s : State N E) : Action N E → Prop
  | .statement _ => s.lastResort = true ∨ ∀ op, s.call = some (op, .reread) → s.record.row.status = op.target
  | .failure _ => s.lastResort = true
  | .timeout => s.databaseFailed = true ∨ s.record.row.status.terminal = true
  | _ => True

/-! ### Where the loop goes -/

/-- Where a loop that is not finalized goes: it returns only when it is aborted. -/
def Leaves (marker : ActiveStream) (loop : ActiveStream × LoopAt N E) : Prop :=
  match loop.2 with
  | .ended => marker.aborted = true
  | .finalizing status _ => loop.1.finalized = true ∧ loop.1.aborted = true ∧ status.terminal = true
  | _ => loop.1.finalized = false ∧ loop.1.aborted = marker.aborted

section Loop

variable {config : StreamConfig} {marker marker' : ActiveStream}

/-- The flags of the marker stay as they are. -/
structure SameFlags (marker marker' : ActiveStream) : Prop where
  finalized : marker'.finalized = marker.finalized
  aborted : marker'.aborted = marker.aborted

/-- How the loop can go on; `awaits` tells that it awaits `finalizeRun`. -/
inductive Goes (marker : ActiveStream) (awaits : Bool) : ActiveStream × LoopAt N E → Prop
  | on {marker' : ActiveStream} {here : LoopAt N E} (same : SameFlags marker marker') (on : finalizing here = false)
    (live : ended here = false) : Goes marker awaits (marker', here)
  | returns {marker' : ActiveStream} (same : SameFlags marker marker')
    (done : marker.finalized = true ∨ marker.aborted = true ∨ awaits = true) : Goes marker awaits (marker', .ended)
  -- The handler of `start` finds the marker aborted.
  | resigns {marker' : ActiveStream} (finalized : marker'.finalized = true) (before : marker.aborted = true)
    (aborted : marker'.aborted = true) : Goes marker awaits (marker', .ended)
  | finalizes {marker' : ActiveStream} {status : RunStatus} {caught : Option Nat} (before : marker.finalized = false)
    (finalized : marker'.finalized = true) (aborted : marker'.aborted = true) (terminal : status.terminal = true) :
    Goes marker awaits (marker', .finalizing status caught)

variable {awaits : Bool}

private theorem SameFlags.refl (marker : ActiveStream) : SameFlags marker marker := ⟨rfl, rfl⟩

private theorem goes_finalizeRun (h : SameFlags marker marker') {status : RunStatus} (hstatus : status.terminal = true)
    (caught : Option Nat) : Goes (N := N) (E := E) marker awaits (finalizeRun marker' status caught) := by
  unfold finalizeRun
  split_ifs with hfinalized
  · exact .returns h (Or.inl (h.finalized ▸ hfinalized))
  · exact .finalizes (h.finalized ▸ (Bool.not_eq_true _).mp hfinalized) rfl rfl hstatus

private theorem goes_pollLoop (h : SameFlags marker marker') (retries : Nat) :
    Goes (N := N) (E := E) marker awaits (pollLoop marker' retries) := by
  unfold pollLoop
  split_ifs with hover
  · rw [h.finalized, h.aborted] at hover
    exact .returns h (hover.symm.imp_right Or.inl)
  · exact .on h rfl rfl

private theorem goes_lastResort (h : SameFlags marker marker') :
    Goes (N := N) (E := E) marker awaits (StreamConsumer.lastResort marker') := by
  unfold StreamConsumer.lastResort
  split_ifs with haborted
  · exact .resigns rfl (h.aborted ▸ haborted) haborted
  · exact goes_finalizeRun h rfl none

private theorem goes_retryPoll (h : SameFlags marker marker') (retries : Nat) :
    Goes (N := N) (E := E) marker awaits (retryPoll config marker' retries) := by
  unfold retryPoll
  split_ifs
  · exact goes_finalizeRun h rfl none
  · exact .on h rfl rfl

private theorem goes_afterStream (h : SameFlags marker marker') (streamRetries : Nat) (gapDetected : Bool) :
    Goes (N := N) (E := E) marker awaits (afterStream config marker' streamRetries gapDetected) := by
  unfold afterStream
  split_ifs with hover
  · rw [h.finalized, h.aborted] at hover
    exact .returns h (hover.imp_right Or.inl)
  · exact goes_pollLoop h 0
  · exact .on ⟨h.finalized, h.aborted⟩ rfl rfl
  · exact goes_pollLoop h 0
  · exact .on h rfl rfl
  · exact goes_pollLoop h 0

private theorem goes_caughtError (marker : ActiveStream) (error : Caught) (origin : Origin) :
    Goes (N := N) (E := E) marker awaits (caughtError config marker error origin) := by
  cases origin with
  | stream handle streamRetries =>
    apply goes_afterStream
    exact ⟨rfl, rfl⟩
  | poll retries => exact goes_retryPoll (.refl marker) retries

theorem terminalStatus_terminal {state : String} {status : RunStatus}
    (h : StreamConsumer.terminalStatus state = some status) : status.terminal = true := by
  unfold StreamConsumer.terminalStatus at h
  split_ifs at h <;> rw [← Option.some.inj h] <;> rfl

private theorem goes_afterHandled (h : SameFlags marker marker') (raw : RawRuntimeEvent E) (origin : Origin) :
    Goes (N := N) marker awaits (afterHandled config marker' raw origin) := by
  cases origin with
  | stream handle streamRetries =>
    rw [afterHandled]
    split_ifs with hfinalized
    · exact .returns h (Or.inl (h.finalized ▸ hfinalized))
    · exact .on h rfl rfl
    · exact .on h rfl rfl
  | poll retries =>
    rw [afterHandled]
    split_ifs with hfinalized
    · exact .returns h (Or.inl (h.finalized ▸ hfinalized))
    · split
      · rename_i status hstatus
        obtain ⟨state, -, hstate⟩ := Option.bind_eq_some_iff.1 hstatus
        exact goes_finalizeRun h (terminalStatus_terminal hstate) _
      · exact goes_retryPoll h retries

private theorem goes_consumeLoop {here : LoopAt N E} {event : LoopEvent E} {loop : ActiveStream × LoopAt N E}
    (hloop : consumeLoop config marker here event = some loop) : Goes marker (finalizing here) loop := by
  have hsame : SameFlags marker marker := .refl marker
  -- One bullet for each equation of `consumeLoop`, in its order.
  unfold consumeLoop at hloop
  split at hloop
  · split_ifs at hloop with haborted <;> rw [← Option.some.inj hloop]
    · exact .returns hsame (Or.inr (Or.inl haborted))
    · apply goes_afterStream
      exact ⟨rfl, rfl⟩
    · exact .on ⟨rfl, rfl⟩ rfl rfl
  · exact Option.some.inj hloop ▸ goes_afterStream hsame _ false
  · exact Option.some.inj hloop ▸ goes_caughtError marker _ _
  · exact Option.some.inj hloop ▸ goes_caughtError marker _ _
  · dsimp only at hloop
    split at hloop <;> rw [← Option.some.inj hloop]
    · exact .on ⟨rfl, rfl⟩ rfl rfl
    · apply goes_afterHandled
      exact ⟨rfl, rfl⟩
  · split at hloop <;> rw [← Option.some.inj hloop]
    · rename_i status hstatus
      exact goes_finalizeRun hsame (terminalStatus_terminal hstatus) _
    · exact goes_afterHandled hsame _ _
  · exact Option.some.inj hloop ▸ goes_caughtError marker _ _
  · exact Option.some.inj hloop ▸ goes_pollLoop hsame 0
  · exact Option.some.inj hloop ▸ goes_lastResort hsame
  · rw [← Option.some.inj hloop]
    split_ifs with hover
    · exact .returns hsame (hover.symm.imp_right Or.inl)
    · exact .on hsame rfl rfl
  · exact Option.some.inj hloop ▸ goes_pollLoop hsame 0
  · exact Option.some.inj hloop ▸ .on ⟨rfl, rfl⟩ rfl rfl
  · exact Option.some.inj hloop ▸ goes_retryPoll hsame _
  · exact Option.some.inj hloop ▸ .on hsame rfl rfl
  · exact Option.some.inj hloop ▸ goes_lastResort hsame
  · exact Option.some.inj hloop ▸ goes_pollLoop hsame _
  · exact Option.some.inj hloop ▸ .returns hsame (Or.inr (Or.inr rfl))
  · exact Option.some.inj hloop ▸ .returns hsame (Or.inr (Or.inr rfl))
  · exact Option.some.inj hloop ▸ goes_retryPoll hsame _
  · exact absurd hloop (by simp)

theorem leaves_consumeLoop (h : marker.finalized = false) {here : LoopAt N E} (hhere : finalizing here = false)
    {event : LoopEvent E} {loop : ActiveStream × LoopAt N E}
    (hloop : consumeLoop config marker here event = some loop) : Leaves marker loop := by
  cases goes_consumeLoop hloop with
  | @on marker' here' same on live =>
    have hflags : marker'.finalized = false ∧ marker'.aborted = marker.aborted :=
      ⟨same.finalized.trans h, same.aborted⟩
    cases here' with
    | finalizing status caught => exact absurd on (by simp [finalizing])
    | ended => exact absurd live (by simp [ended])
    | _ => exact hflags
  | returns same done =>
    rw [h, hhere] at done
    show marker.aborted = true
    simpa using done
  | resigns finalized before aborted => exact before
  | finalizes before finalized aborted terminal => exact ⟨finalized, aborted, terminal⟩

/-- The handler of `start` gets what escapes. -/
theorem consumeLoop_of_escapes {here : LoopAt N E} {event : LoopEvent E} (h : escapes here event = true) :
    consumeLoop config marker here event = some (StreamConsumer.lastResort marker) := by
  unfold escapes at h
  split at h
  · rfl
  · rfl
  · exact absurd h (by simp)

/-- A finalized loop calls `finalizeRun` no more. -/
def Over (loop : ActiveStream × LoopAt N E) : Prop := loop.1.finalized = true ∧ finalizing loop.2 = false

theorem over_consumeLoop (h : marker.finalized = true) {here : LoopAt N E} {event : LoopEvent E}
    {loop : ActiveStream × LoopAt N E} (hloop : consumeLoop config marker here event = some loop) : Over loop := by
  cases goes_consumeLoop hloop with
  | on same on live => exact ⟨same.finalized.trans h, on⟩
  | returns same done => exact ⟨same.finalized.trans h, rfl⟩
  | resigns finalized before aborted => exact ⟨finalized, rfl⟩
  | finalizes before finalized aborted terminal => exact absurd (h.symm.trans before) (by simp)

private theorem aborted_consumeLoop (h : marker.aborted = true) {here : LoopAt N E} {event : LoopEvent E}
    {loop : ActiveStream × LoopAt N E} (hloop : consumeLoop config marker here event = some loop) :
    loop.1.aborted = true := by
  cases goes_consumeLoop hloop with
  | on same on live => exact same.aborted.trans h
  | returns same done => exact same.aborted.trans h
  | resigns finalized before aborted => exact aborted
  | finalizes before finalized aborted terminal => exact aborted

end Loop

/-! ### A consumer whose `finalizeRun` goes through -/

/-- What is known of the state where the loop is. -/
def State.Stage (s : State N E) : Prop :=
  match s.here with
  | .ended =>
    (s.stopped = false → 0 < s.completions ∧ (s.record.row.status.terminal = true ∨ s.databaseFailed = true)) ∧
      (s.call.isSome = true → s.lastResort = true)
  | .finalizing status caught =>
    s.marker.finalized = true ∧ s.completions = 0 ∧ s.call.isSome = true ∧
      (s.lastResort = true → status = .failed ∧ caught = none)
  | _ => s.marker.finalized = false ∧ (s.marker.aborted = true → s.stopped = true) ∧ s.completions = 0 ∧
      s.lastResort = false ∧ s.call = none

/-- The operation of `finalizeRun`: where its event is due, the run has ended; and so has it where it was to fail and
the update has matched nothing. -/
def State.CallSound (s : State N E) : Prop :=
  ∀ op phase, s.call = some (op, phase) →
    op.ends = true ∧ (Outcome.goesOn phase).Ended s.record ∧ (s.lastResort = true → op.target = .failed) ∧
      (phase = .reread → op.target = .failed → s.record.row.status.terminal = true)

structure Sound (s : State N E) : Prop where
  stage : s.Stage
  call : s.CallSound

private theorem Sound.finalized {s : State N E} (h : Sound s) : Finalized s := by
  intro hended hstopped
  have hstage := h.stage
  obtain ⟨record, marker, here, call, lastResort, completions, stopped, databaseFailed⟩ := s
  cases here with
  | ended => exact hstage.1 hstopped
  | _ => exact absurd hended (by simp [ended])

theorem finalizeOp_ends (status : RunStatus) (error : String) :
    (finalizeOp status error).ends = true ∧ (finalizeOp status error).first = .check := by
  unfold finalizeOp
  split_ifs <;> exact ⟨rfl, rfl⟩

private theorem lastResort_cases {marker : ActiveStream} (h : marker.finalized = false) :
    (StreamConsumer.lastResort marker : ActiveStream × LoopAt N E).2 = .ended ∨
      (StreamConsumer.lastResort marker : ActiveStream × LoopAt N E).2 = .finalizing .failed none := by
  unfold StreamConsumer.lastResort
  split_ifs
  · exact Or.inl rfl
  · rw [finalizeRun, if_neg (by simp [h])]
    exact Or.inr rfl

section Steps

variable {config : StreamConfig}

/-- The loop goes on from a state in which it is not finalized. -/
theorem sound_resume {s t : State N E} (hhere : finalizing s.here = false) (hfinalized : s.marker.finalized = false)
    (haborted : s.marker.aborted = true → s.stopped = true) (hcompletions : s.completions = 0)
    (hlast : s.lastResort = false) {event : LoopEvent E} (h : s.resume config event = some t) : Sound t := by
  obtain ⟨⟨marker', here'⟩, hloop, rfl⟩ := Option.map_eq_some_iff.1 h
  have hleaves := leaves_consumeLoop hfinalized hhere hloop
  have hescapes : escapes s.here event = true → here' = .ended ∨ here' = .finalizing .failed none := by
    intro hesc
    rw [consumeLoop_of_escapes hesc] at hloop
    have hcases := lastResort_cases (N := N) (E := E) hfinalized
    rw [Option.some.inj hloop] at hcases
    exact hcases
  constructor
  · cases here' with
    | ended =>
      refine ⟨fun hstopped => ?_, fun hcall => absurd hcall (by simp [begins])⟩
      exact absurd (haborted hleaves) (by simp [show s.stopped = false from hstopped])
    | finalizing status caught =>
      refine ⟨hleaves.1, hcompletions, rfl, ?_⟩
      intro hlast'
      simp only [hlast, Bool.false_or, Bool.and_eq_true] at hlast'
      rcases hescapes hlast'.1 with hended | hfailed
      · exact absurd hended (by simp)
      · injection hfailed with h₁ h₂
        exact ⟨h₁, h₂⟩
    | _ =>
      have hesc : escapes s.here event = false := by
        rw [Bool.eq_false_iff]
        intro hesc
        rcases hescapes hesc with h' | h' <;> exact absurd h' (by simp)
      refine ⟨hleaves.1, fun h' => haborted (hleaves.2 ▸ h'), hcompletions, ?_, rfl⟩
      simp [hlast, hesc]
  · cases here' with
    | finalizing status caught =>
      intro op phase hcall
      obtain ⟨hop, hphase⟩ := Prod.mk.inj (Option.some.inj hcall)
      obtain ⟨hends, hfirst⟩ := finalizeOp_ends status (finalizeError s.here event)
      rw [← hop, ← hphase, hfirst]
      refine ⟨hends, trivial, ?_, fun h' => absurd h' (by simp)⟩
      intro hlast'
      simp only [hlast, Bool.false_or, Bool.and_eq_true] at hlast'
      rcases hescapes hlast'.1 with hended | hfailed
      · exact absurd hended (by simp)
      · injection hfailed with h₁ h₂
        rw [h₁]
        rfl
    | _ => exact fun op phase hcall => absurd hcall (by simp [begins])

private theorem State.Stage.of_record {s : State N E} (h : s.Stage) {record : Record N} {call : Option (Op × Phase)}
    (hrecord : s.record.row.status.terminal = true → record.row.status.terminal = true)
    (hcall : call.isSome = s.call.isSome) : ({ s with record, call } : State N E).Stage := by
  obtain ⟨record₀, marker, here, call₀, lastResort, completions, stopped, databaseFailed⟩ := s
  cases here with
  | ended =>
    refine ⟨fun hstopped => ?_, fun h' => h.2 (hcall ▸ h')⟩
    obtain ⟨hpos, hover⟩ := h.1 hstopped
    exact ⟨hpos, hover.imp_left hrecord⟩
  | finalizing status caught => exact ⟨h.1, h.2.1, hcall.trans h.2.2.1, h.2.2.2⟩
  | _ =>
    obtain ⟨hfinalized, haborted, hcompletions, hlast, hnone⟩ := h
    rw [show call₀ = none from hnone] at hcall
    exact ⟨hfinalized, haborted, hcompletions, hlast,
      Option.isSome_eq_false_iff.1 hcall |> Option.isNone_iff_eq_none.1⟩

/-- An operation is there only when the loop awaits it, or has ended. -/
theorem State.Stage.ended_of_call {s : State N E} (h : s.Stage) (hcall : s.call.isSome = true)
    (hhere : finalizing s.here = false) : s.here = .ended := by
  obtain ⟨record, marker, here, call, lastResort, completions, stopped, databaseFailed⟩ := s
  cases here with
  | ended => rfl
  | finalizing status caught => exact absurd hhere (by simp [finalizing])
  | _ =>
    obtain ⟨-, -, -, -, hnone⟩ := h
    rw [show call = none from hnone] at hcall
    exact absurd hcall (by simp)

private theorem State.Stage.fail {s : State N E} (h : s.Stage) :
    ({ s with databaseFailed := true } : State N E).Stage := by
  obtain ⟨record, marker, here, call, lastResort, completions, stopped, databaseFailed⟩ := s
  cases here with
  | ended => exact ⟨fun hstopped => ⟨(h.1 hstopped).1, Or.inr rfl⟩, h.2⟩
  | _ => exact h

/-- `finalizeRun` returns: the operation has ended the run. -/
theorem sound_finalized {s t : State N E} (h : s.Stage) (hcall : s.call.isSome = true)
    (hterminal : s.record.row.status.terminal = true) (ht : s.finalized config = some t) : Sound t := by
  unfold State.finalized at ht
  split_ifs at ht with hhere
  · obtain ⟨record, marker, here, call, lastResort, completions, stopped, databaseFailed⟩ := s
    cases here with
    | finalizing status caught =>
      rw [← Option.some.inj ht]
      refine ⟨⟨fun _ => ⟨Nat.succ_pos _, Or.inl hterminal⟩, fun hnone => absurd hnone (by simp [begins])⟩, ?_⟩
      exact fun op phase hnone => absurd hnone (by simp [begins])
    | _ => exact absurd hhere (by simp [finalizing])
  · have hended := h.ended_of_call hcall (by simpa using hhere)
    rw [← Option.some.inj ht]
    refine ⟨?_, fun op phase hnone => absurd hnone (by simp)⟩
    unfold State.Stage
    dsimp only
    rw [hended]
    exact ⟨fun _ => ⟨Nat.succ_pos _, Or.inl hterminal⟩, fun hnone => absurd hnone (by simp)⟩

/-- `finalizeRun` rejects, where the handler of `start` has called it. -/
theorem sound_rejected {s t : State N E} (h : s.Stage) (hcall : s.call.isSome = true) (hlast : s.lastResort = true)
    (hover : s.record.row.status.terminal = true ∨ s.databaseFailed = true) {error : Caught}
    (ht : s.rejected config error = some t) : Sound t := by
  unfold State.rejected at ht
  split_ifs at ht with hhere
  · obtain ⟨record, marker, here, call, lastResort, completions, stopped, databaseFailed⟩ := s
    cases here with
    | finalizing status caught =>
      obtain ⟨hfinalized, hcompletions, -, hhandler⟩ := h
      obtain ⟨-, rfl⟩ := hhandler hlast
      rw [← Option.some.inj ht]
      refine ⟨⟨fun _ => ⟨?_, ?_⟩, fun hnone => absurd hnone (by simp [begins])⟩,
        fun op phase hnone => absurd hnone (by simp [begins])⟩
      · show 0 < completions + lastResort.toNat
        rw [show lastResort = true from hlast]
        exact Nat.succ_pos _
      · exact hover.imp_right fun hfailed => Bool.or_eq_true_iff.2 (Or.inl hfailed)
    | _ => exact absurd hhere (by simp [finalizing])
  · have hended := h.ended_of_call hcall (by simpa using hhere)
    rw [← Option.some.inj ht]
    refine ⟨?_, fun op phase hnone => absurd hnone (by simp)⟩
    unfold State.Stage at h ⊢
    dsimp only
    rw [hended] at h ⊢
    exact ⟨h.1, fun hnone => absurd hnone (by simp)⟩

/-! ### A consumer whose `finalizeRun` does not go through -/

/-- The loop is finalized, and nobody will complete the stream. -/
structure Doomed (s : State N E) : Prop where
  finalized : s.marker.finalized = true
  here : finalizing s.here = false
  completions : s.completions = 0
  call : s.call = none

theorem begins_of_not_finalizing {here : LoopAt N E} (h : finalizing here = false) (error : String) :
    begins here error = none := by
  cases here with
  | finalizing status caught => exact absurd h (by simp [finalizing])
  | _ => rfl

private theorem doomed_resume {s t : State N E} (hfinalized : s.marker.finalized = true)
    (hcompletions : s.completions = 0) {event : LoopEvent E} (h : s.resume config event = some t) : Doomed t := by
  obtain ⟨loop, hloop, rfl⟩ := Option.map_eq_some_iff.1 h
  obtain ⟨hmarker, hhere⟩ := over_consumeLoop hfinalized hloop
  exact ⟨hmarker, hhere, hcompletions, begins_of_not_finalizing hhere _⟩

/-- `finalizeRun` rejects, where the loop has called it. -/
theorem Sound.rejected {s t : State N E} (h : Sound s) (hcall : s.call.isSome = true) (hlast : s.lastResort = false)
    {error : Caught} (ht : s.rejected config error = some t) : Doomed t := by
  unfold State.rejected at ht
  split_ifs at ht with hhere
  · obtain ⟨hstage, -⟩ := h
    obtain ⟨record, marker, here, call, lastResort, completions, stopped, databaseFailed⟩ := s
    cases here with
    | finalizing status caught =>
      refine doomed_resume ?_ ?_ ht
      · exact hstage.1
      · show completions + lastResort.toNat = 0
        rw [show lastResort = false from hlast, show completions = 0 from hstage.2.1]
        rfl
    | _ => exact absurd hhere (by simp [finalizing])
  · have hended := h.stage.ended_of_call hcall (by simpa using hhere)
    have hstage := h.stage
    unfold State.Stage at hstage
    rw [hended] at hstage
    exact absurd (hstage.2 hcall) (by simp [hlast])

/-- What a step does to the consumer: the loop goes on, or what it awaits does, or `aborted` is set from outside. -/
inductive Move (config : StreamConfig) (s t : State N E) : Prop
  | resumed {before : State N E} {event : LoopEvent E} (resume : before.resume config event = some t)
      (row : RowMoved s.record.row before.record.row) (marker : before.marker = s.marker)
      (here : before.here = s.here) (stopped : before.stopped = s.stopped)
  | kept (row : RowMoved s.record.row t.record.row) (marker : t.marker = s.marker) (here : t.here = s.here)
      (stopped : t.stopped = s.stopped)
  | committed (row : t.record.row = s.record.row) (marker : t.marker = s.marker) (before : ended s.here = false)
      (stopped : t.stopped = s.stopped)
  | timedOut (row : t.record.row = s.record.row) (marker : t.marker = s.marker) (here : t.here = .ended)
      (stopped : t.stopped = s.stopped)
  | aborted (row : t.record.row = s.record.row) (marker : t.marker = { s.marker with aborted := true })
      (stopped : t.stopped = true)

private theorem move_finalized {s t : State N E} {record : Record N} (hrow : RowMoved s.record.row record.row)
    (h : State.finalized config { s with record } = some t) : Move config s t := by
  unfold State.finalized at h
  split_ifs at h
  · exact .resumed h hrow rfl rfl rfl
  · rw [← Option.some.inj h]
    exact .kept hrow rfl rfl rfl

private theorem move_rejected {s t : State N E} {record : Record N} (hrow : RowMoved s.record.row record.row)
    {databaseFailed : Bool} {error : Caught}
    (h : State.rejected config { s with record, databaseFailed } error = some t) : Move config s t := by
  unfold State.rejected at h
  split_ifs at h
  · exact .resumed h hrow rfl rfl rfl
  · rw [← Option.some.inj h]
    exact .kept hrow rfl rfl rfl

private theorem resume_eq_some {s t : State N E} {event : LoopEvent E} (h : s.resume config event = some t) :
    consumeLoop config s.marker s.here event = some (t.marker, t.here) ∧ t.record = s.record ∧
      t.stopped = s.stopped := by
  obtain ⟨loop, hloop, rfl⟩ := Option.map_eq_some_iff.1 h
  exact ⟨hloop, rfl, rfl⟩

variable [JsNumber N] {runtimeSessionId : String}

private theorem next_move {s t : State N E} {a : Action N E} (h : next config runtimeSessionId s a = some t) :
    Move config s t := by
  unfold next at h
  split at h
  · split_ifs at h
    exact .resumed h (Or.inl rfl) rfl rfl rfl
  · split at h
    · rename_i hhere
      rw [← Option.some.inj h]
      exact .committed rfl rfl (by rw [hhere]; rfl) rfl
    · exact absurd h (by simp)
  · split at h
    · exact .resumed h (Or.inl rfl) rfl rfl rfl
    · exact .resumed h (Or.inl rfl) rfl rfl rfl
    · exact absurd h (by simp)
  · rename_i env
    split at h
    · rename_i op phase hcall
      have hrow := step_rowMoved env op s.record phase
      generalize step env op s.record phase = result at h hrow
      obtain ⟨record, phase' | run | error⟩ := result
      · rw [← Option.some.inj h]
        exact .kept hrow rfl rfl rfl
      · exact move_finalized hrow h
      · exact move_rejected hrow h
    · exact absurd h (by simp)
  · split_ifs at h
    exact move_rejected (Or.inl rfl) h
  · split_ifs at h
    rw [← Option.some.inj h]
    exact .timedOut rfl rfl rfl rfl
  · rename_i transition operation now
    obtain ⟨row, hrow, rfl⟩ := Option.map_eq_some_iff.1 h
    exact .kept (Or.inr ⟨transition, now, hrow⟩) rfl rfl rfl
  · split_ifs at h
    rw [← Option.some.inj h]
    exact .aborted rfl rfl rfl

private theorem stopped_next {s t : State N E} {a : Action N E} (hnext : next config runtimeSessionId s a = some t)
    (hstopped : s.stopped = true) : t.stopped = true := by
  cases next_move hnext with
  | resumed resume row marker here stopped => rw [(resume_eq_some resume).2.2, stopped, hstopped]
  | kept row marker here stopped => rw [stopped, hstopped]
  | committed row marker before stopped => rw [stopped, hstopped]
  | timedOut row marker here stopped => rw [stopped, hstopped]
  | aborted row marker stopped => exact stopped

/-- A consumer that has ended, or whose marker is aborted, stays so. -/
theorem released_next {s t : State N E} {a : Action N E} (hnext : next config runtimeSessionId s a = some t)
    (h : ended s.here = true ∨ s.marker.aborted = true) : ended t.here = true ∨ t.marker.aborted = true := by
  cases next_move hnext with
  | resumed resume row marker here stopped =>
    obtain ⟨hloop, -, -⟩ := resume_eq_some resume
    rw [marker, here] at hloop
    rcases h with h | h
    · cases hhere : s.here with
      | ended => exact absurd hloop (by simp [hhere, consumeLoop])
      | _ => exact absurd h (by simp [hhere, ended])
    · exact Or.inr (aborted_consumeLoop h hloop)
  | kept row marker here stopped => rwa [marker, here]
  | committed row marker before stopped =>
    rw [before] at h
    exact Or.inr (marker ▸ h.resolve_left (by simp))
  | timedOut row marker here stopped => exact Or.inl (by rw [here]; rfl)
  | aborted row marker stopped => exact Or.inr (by rw [marker])

theorem rowMoved_next {s t : State N E} {a : Action N E} (hnext : next config runtimeSessionId s a = some t) :
    RowMoved s.record.row t.record.row := by
  cases next_move hnext with
  | resumed resume row marker here stopped => rwa [(resume_eq_some resume).2.1]
  | kept row => exact row
  | committed row | timedOut row | aborted row => exact Or.inl row

private theorem Sound.statement {s t : State N E} (h : Sound s) {env : Env} (hP : GoesThrough s (.statement env))
    (hnext : next config runtimeSessionId s (.statement env) = some t) : Sound t := by
  cases hcall : s.call with
  | none => exact absurd hnext (by simp [next, hcall])
  | some c =>
    obtain ⟨op, phase⟩ := c
    obtain ⟨hends, hEnded, hfailed, hreread⟩ := h.call op phase hcall
    have hstep := step_ended env hends hEnded
    have hterminal : s.record.row.status.terminal = true → (step env op s.record phase).1.row.status.terminal = true :=
      fun hterm => (congrArg (fun row => row.status.terminal) (step_of_terminal env op phase hterm)).trans hterm
    have hmissed := @step_goesOn_reread N env op s.record phase
    have hthrew := @step_threw N env op s.record phase
    simp only [next, hcall] at hnext
    generalize step env op s.record phase = result at hnext hstep hterminal hmissed hthrew
    obtain ⟨record, outcome⟩ := result
    cases outcome with
    | goesOn phase' =>
      rw [← Option.some.inj hnext]
      refine ⟨h.stage.of_record hterminal (by rw [hcall]; rfl), ?_⟩
      intro op' phase'' hsome
      obtain ⟨rfl, rfl⟩ := Prod.mk.inj (Option.some.inj hsome)
      refine ⟨hends, hstep, hfailed, ?_⟩
      rintro rfl htarget
      obtain ⟨hnot, hrecord⟩ := hmissed rfl
      rw [htarget] at hnot
      show record.row.status.terminal = true
      rw [show record = s.record from hrecord]
      exact terminal_of_failed_not_mem hnot
    | returned run =>
      have hcall' : ({ s with record } : State N E).call.isSome = true := by simp [hcall]
      exact sound_finalized (h.stage.of_record hterminal rfl) hcall' hstep hnext
    | threw error =>
      -- The second read of `markFailed`, after an update that has matched nothing: the run has ended.
      obtain ⟨rfl, hstatus, hrecord⟩ := hthrew rfl
      have hlast : s.lastResort = true := hP.resolve_right fun hall => hstatus (hall op hcall)
      have hcall' : ({ s with record } : State N E).call.isSome = true := by simp [hcall]
      refine sound_rejected (h.stage.of_record hterminal rfl) hcall' hlast (Or.inl ?_) hnext
      exact hterminal (hreread rfl (hfailed hlast))

private theorem Sound.start {s : State N E} (h : (machine config runtimeSessionId).start s) : Sound s := by
  obtain ⟨record, resumeFromSeq, resumeFromEnvelopeOrdinal, ⟨sessionHandle, pollOnly, rfl⟩ | ⟨error, rfl⟩⟩ := h
  · refine ⟨?_, fun op phase hnone => absurd hnone (by simp [State.opened])⟩
    unfold StreamConsumer.start pollLoop
    cases sessionHandle with
    | none => exact ⟨rfl, fun h => h, rfl, rfl, rfl⟩
    | some handle => cases pollOnly <;> exact ⟨rfl, fun h => h, rfl, rfl, rfl⟩
  · refine ⟨⟨rfl, rfl, rfl, fun _ => ⟨rfl, rfl⟩⟩, ?_⟩
    intro op phase hcall
    obtain ⟨rfl, rfl⟩ := Prod.mk.inj (Option.some.inj hcall)
    exact ⟨rfl, trivial, fun _ => rfl, fun h => absurd h (by simp [finalizeOp, Op.first])⟩

/-- Every step of a consumer whose `finalizeRun` goes through. -/
theorem Sound.next {s t : State N E} (h : Sound s) {a : Action N E} (hP : GoesThrough s a)
    (hnext : next config runtimeSessionId s a = some t) : Sound t := by
  cases a with
  | loop event =>
    simp only [ConsumerTermination.next] at hnext
    split_ifs at hnext with helse
    obtain ⟨hstage, -⟩ := h
    obtain ⟨record, marker, here, call, lastResort, completions, stopped, databaseFailed⟩ := s
    cases here with
    | ended => exact absurd hnext (by simp [State.resume, consumeLoop])
    | finalizing status caught => exact absurd rfl helse
    | _ =>
      obtain ⟨hfinalized, haborted, hcompletions, hlast, -⟩ := hstage
      exact sound_resume rfl hfinalized haborted hcompletions hlast hnext
  | commit emitted =>
    obtain ⟨hstage, hcall⟩ := h
    obtain ⟨record, marker, here, call, lastResort, completions, stopped, databaseFailed⟩ := s
    cases here with
    | persist origin raw =>
      rw [← Option.some.inj hnext]
      obtain ⟨hfinalized, haborted, hcompletions, hlast, hnone⟩ := hstage
      refine ⟨⟨hfinalized, haborted, hcompletions, hlast, hnone⟩, ?_⟩
      exact fun op phase hsome => absurd hsome (by simp [show call = none from hnone])
    | _ => exact absurd hnext (by simp [ConsumerTermination.next])
  | emit env =>
    obtain ⟨hstage, -⟩ := h
    obtain ⟨record, marker, here, call, lastResort, completions, stopped, databaseFailed⟩ := s
    cases here with
    | emitGap | emitReconnecting retries =>
      obtain ⟨hfinalized, haborted, hcompletions, hlast, -⟩ := hstage
      apply sound_resume _ _ _ _ _ hnext <;> first | rfl | assumption
    | _ => exact absurd hnext (by simp [ConsumerTermination.next])
  | statement env => exact h.statement hP hnext
  | failure error =>
    simp only [ConsumerTermination.next] at hnext
    split_ifs at hnext with hcall
    exact sound_rejected h.stage.fail hcall hP (Or.inr rfl) hnext
  | timeout =>
    simp only [ConsumerTermination.next] at hnext
    split_ifs at hnext with hif
    rw [← Option.some.inj hnext]
    exact ⟨⟨fun _ => ⟨Nat.succ_pos _, hP.symm⟩, fun _ => hif.1⟩, h.call⟩
  | other transition operation now =>
    obtain ⟨row, hrow, rfl⟩ := Option.map_eq_some_iff.1 hnext
    -- The other service has moved the row, so that it had not ended.
    have hlive : s.record.row.status.terminal ≠ true := by
      intro hterm
      rw [compareAndSet_of_terminal hterm] at hrow
      exact absurd hrow (by simp)
    refine ⟨h.stage.of_record (fun hterm => absurd hterm hlive) rfl, ?_⟩
    intro op phase hcall
    obtain ⟨hends, hEnded, hfailed, hreread⟩ := h.call op phase hcall
    refine ⟨hends, ?_, hfailed, fun hphase htarget => absurd (hreread hphase htarget) hlive⟩
    cases phase with
    | emit run => exact absurd hEnded hlive
    | _ => trivial
  | stop =>
    simp only [ConsumerTermination.next] at hnext
    split_ifs at hnext with hended
    rw [← Option.some.inj hnext]
    refine ⟨?_, h.call⟩
    obtain ⟨hstage, -⟩ := h
    obtain ⟨record, marker, here, call, lastResort, completions, stopped, databaseFailed⟩ := s
    cases here with
    | ended => exact absurd rfl hended
    | finalizing status caught => exact hstage
    | _ => exact ⟨hstage.1, fun _ => rfl, hstage.2.2⟩

private theorem Doomed.next {s t : State N E} (h : Doomed s) {a : Action N E}
    (hnext : next config runtimeSessionId s a = some t) : Doomed t := by
  obtain ⟨hfinalized, hhere, hcompletions, hcall⟩ := h
  cases a with
  | loop event =>
    simp only [ConsumerTermination.next] at hnext
    split_ifs at hnext
    exact doomed_resume hfinalized hcompletions hnext
  | commit emitted =>
    simp only [ConsumerTermination.next] at hnext
    split at hnext
    · rw [← Option.some.inj hnext]
      exact ⟨hfinalized, rfl, hcompletions, hcall⟩
    · exact absurd hnext (by simp)
  | emit env =>
    simp only [ConsumerTermination.next] at hnext
    split at hnext
    · refine doomed_resume ?_ ?_ hnext
      · exact hfinalized
      · exact hcompletions
    · refine doomed_resume ?_ ?_ hnext
      · exact hfinalized
      · exact hcompletions
    · exact absurd hnext (by simp)
  | statement env => exact absurd hnext (by simp [ConsumerTermination.next, hcall])
  | failure error => exact absurd hnext (by simp [ConsumerTermination.next, hcall])
  | timeout => exact absurd hnext (by simp [ConsumerTermination.next, hhere])
  | other transition operation now =>
    obtain ⟨row, -, rfl⟩ := Option.map_eq_some_iff.1 hnext
    exact ⟨hfinalized, hhere, hcompletions, hcall⟩
  | stop =>
    simp only [ConsumerTermination.next] at hnext
    split_ifs at hnext
    rw [← Option.some.inj hnext]
    exact ⟨hfinalized, hhere, hcompletions, hcall⟩

/-- The step with which `finalizeRun` does not go through. -/
theorem Sound.of_not_goesThrough {s t : State N E} (h : Sound s) {a : Action N E} (hP : ¬ GoesThrough s a)
    (hnext : ConsumerTermination.next config runtimeSessionId s a = some t) :
    Doomed t ∨ (t.stopped = false → ¬ Finalized t) := by
  cases a with
  | statement env =>
    obtain ⟨hlast, hall⟩ := not_or.1 hP
    obtain ⟨op, hop⟩ := not_forall.1 hall
    obtain ⟨hcall, hstatus⟩ := Classical.not_imp.1 hop
    obtain ⟨hends, -⟩ := h.call op .reread hcall
    have hthrew : ∃ error, step env op s.record .reread = (s.record, .threw error) := by
      have hspec := step_spec env op s.record .reread
      generalize step env op s.record .reread = result at hspec ⊢
      cases hspec with
      | agreed hagreed => exact absurd hagreed hstatus
      | refused =>
        rename_i error _
        rcases op.caught_cases s.record.row error with hcaught | ⟨-, htarget⟩
        · exact ⟨error, by rw [hcaught]⟩
        · rw [Op.ends, htarget] at hends
          exact absurd hends (by decide)
    obtain ⟨error, hthrew⟩ := hthrew
    simp only [ConsumerTermination.next, hcall, hthrew] at hnext
    exact Or.inl (h.rejected (by simp [hcall]) (by simpa using hlast) hnext)
  | failure error =>
    simp only [ConsumerTermination.next] at hnext
    split_ifs at hnext with hcall
    have hfail : Sound ({ s with databaseFailed := true } : State N E) := ⟨h.stage.fail, h.call⟩
    have hlast : s.lastResort = false := by simpa [GoesThrough] using hP
    exact Or.inl (hfail.rejected hcall hlast hnext)
  | timeout =>
    simp only [ConsumerTermination.next] at hnext
    split_ifs at hnext with hif
    rw [← Option.some.inj hnext]
    exact Or.inr fun hstopped hfinalized => hP (hfinalized rfl hstopped).2.symm
  | _ => exact absurd trivial hP

/-- A consumer ends with its run finalized as long as `finalizeRun` goes through; where it has ended without being
stopped, only then. -/
theorem consumer_finalizes_iff {s₀ s : State N E} {as : List (Action N E)}
    (hstart : (machine config runtimeSessionId).start s₀)
    (h : (machine config runtimeSessionId).exec s₀ as = some s) :
    ((machine config runtimeSessionId).Throughout GoesThrough s₀ as → Finalized s) ∧
      (ended s.here = true → s.stopped = false →
        (∀ bs t, bs <+: as → (machine config runtimeSessionId).exec s₀ bs = some t → Finalized t) →
          (machine config runtimeSessionId).Throughout GoesThrough s₀ as) := by
  have hsound : ∀ bs t, (machine config runtimeSessionId).Throughout GoesThrough s₀ bs →
      (machine config runtimeSessionId).exec s₀ bs = some t → Sound t :=
    fun bs t hP ht => hP.invariant (fun _ _ _ hs hP hnext => hs.next hP hnext) (Sound.start hstart) ht
  refine ⟨fun hP => (hsound as s hP h).finalized, ?_⟩
  intro hended hstopped hall
  by_contra hnot
  -- At the first step that does not go through the consumer is doomed, or has ended too early.
  obtain ⟨bs, a, cs, t, v, rfl, hP, ht, hfails, hv, hs⟩ := Machine.exists_of_not_throughout hnot h
  rcases (hsound bs t hP ht).of_not_goesThrough hfails hv with hdoomed | hbad
  · have hs' : Doomed s := Machine.exec_invariant (fun _ _ _ hs hnext => hs.next hnext) hdoomed hs
    have hpos := (hall _ s (List.prefix_refl _) h hended hstopped).1
    rw [hs'.completions] at hpos
    exact absurd hpos (Nat.lt_irrefl 0)
  · have hlive : v.stopped = false := by
      rw [Bool.eq_false_iff]
      intro hv'
      have := Machine.exec_invariant (I := fun s => s.stopped = true)
        (fun _ _ _ hs hnext => stopped_next hnext hs) hv' hs
      rw [hstopped] at this
      exact absurd this (by simp)
    refine hbad hlive (hall (bs ++ [a]) v ?_ ?_)
    · exact ⟨cs, by simp⟩
    · exact Machine.exec_append_eq_some.2 ⟨t, ht, Machine.exec_cons_eq_some.2 ⟨v, hv, rfl⟩⟩

end Steps

/-- A poll finds the session of a running run resolved: the run is completed, and its stream with it. -/
theorem consumer_finalizes_completed :
    let env : Env := { now := "10:00", uuid := fun _ => "" }
    let changed : CanonicalEvent (Option Rat) :=
      { id := "e1", runId := "run", seq := 1, ts := "10:00", type := .sessionStateChanged,
        source := ⟨.runtime, "rust-runtime", none⟩, data := [("state", .str "SESSION_STATE_RESOLVED")] }
    let as : List (Action (Option Rat) String) :=
      [.loop (.snapshot "10:00" "SESSION_STATE_RESOLVED"), .commit [changed], .loop .returned, .loop .returned,
       .statement env, .statement env, .statement env]
    ∃ s₀ s, (machine {} "session").exec s₀ as = some s ∧ ended s.here = true ∧ Finalized s ∧
      (machine {} "session").Throughout GoesThrough s₀ as := by
  intro env changed as
  let s₀ : State (Option Rat) String :=
    .opened { row := { id := "run", status := .running } } (StreamConsumer.start 0 0 none true)
  obtain ⟨s, hs, hended, hstopped, hcompletions, hstatus⟩ : ∃ s, (machine {} "session").exec s₀ as = some s ∧
      ended s.here = true ∧ s.stopped = false ∧ s.completions = 1 ∧ s.record.row.status = .completed :=
    ⟨_, rfl, rfl, rfl, rfl, rfl⟩
  have hstart : (machine {} "session").start s₀ := ⟨_, 0, 0, Or.inl ⟨none, true, rfl⟩⟩
  have hP : (machine {} "session").Throughout GoesThrough s₀ as := by
    refine .cons trivial rfl (.cons trivial rfl (.cons trivial rfl (.cons trivial rfl ?_)))
    refine .cons (Or.inr ?_) rfl (.cons (Or.inr ?_) rfl (.cons (Or.inr ?_) rfl trivial)) <;> intro op hcall
    · exact absurd (show some (Op.markCompleted, Phase.check) = some (op, .reread) from hcall) (by simp)
    · exact absurd (show some (Op.markCompleted, Phase.update) = some (op, .reread) from hcall) (by simp)
    · exact absurd (show some (Op.markCompleted, Phase.emit _) = some (op, .reread) from hcall) (by simp)
  exact ⟨s₀, s, hs, hended, (consumer_finalizes_iff hstart hs).1 hP, hP⟩

/-- The session of a run that is still starting is resolved: `markCompleted` is refused, and the loop returns as if it
had been stopped. -/
theorem consumer_finalizes_starting :
    ¬ ∀ (config : StreamConfig) (runtimeSessionId : String) (s₀ s : State (Option Rat) String)
      (as : List (Action (Option Rat) String)),
      (machine config runtimeSessionId).start s₀ → (machine config runtimeSessionId).exec s₀ as = some s →
      Finalized s := by
  intro h
  let env : Env := { now := "10:00", uuid := fun _ => "" }
  let changed : CanonicalEvent (Option Rat) :=
    { id := "e1", runId := "run", seq := 1, ts := "10:00", type := .sessionStateChanged,
      source := ⟨.runtime, "rust-runtime", none⟩, data := [("state", .str "SESSION_STATE_RESOLVED")] }
  let s₀ : State (Option Rat) String :=
    .opened { row := { id := "run", status := .starting } } (StreamConsumer.start 0 0 none true)
  obtain ⟨s, hs, hended, hstopped, hcompletions⟩ : ∃ s, (machine {} "session").exec s₀
      [.loop (.snapshot "10:00" "SESSION_STATE_RESOLVED"), .commit [changed], .loop .returned, .loop .returned,
       .statement env, .statement env, .statement env, .emit env, .loop .returned] = some s ∧
      ended s.here = true ∧ s.stopped = false ∧ s.completions = 0 := ⟨_, rfl, rfl, rfl, rfl⟩
  have hpos := (h _ _ s₀ s _ ⟨_, 0, 0, Or.inl ⟨none, true, rfl⟩⟩ hs hended hstopped).1
  rw [hcompletions] at hpos
  exact absurd hpos (Nat.lt_irrefl 0)

end ConsumerTermination

end MacpControlPlane

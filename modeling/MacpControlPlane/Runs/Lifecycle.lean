import MacpControlPlane.Runs.RunManager

/-!
# The lifecycle operations, statement by statement (`runs/run-manager.service.ts`)

An operation reads the row, updates it under a condition on its status, reads it again when the update has matched
nothing, and appends its events.  Every statement has its own await point, so that other callers can run in between:
`step` is one statement, and says where the operation goes on from it.
-/

namespace MacpControlPlane.Lifecycle

open Js RunManager

variable {N : Type}

/-- The row of a run, and its canonical events. -/
structure Record (N : Type) where
  row : RunRow
  lastEventSeq : Nat := 0
  log : List (CanonicalEvent N) := []

/-- What a statement takes from its surroundings: the clock, the supply of ids, and the trace of the run. -/
structure Env where
  now : String
  uuid : Nat → String
  runCtx : Option TraceRef := none

/-- `emitControlPlaneEvents` -/
def Record.emit (r : Record N) (env : Env) (events : List (PartialEvent N)) : Record N :=
  { r with
    lastEventSeq := r.lastEventSeq + events.length
    log := r.log ++ RunEventService.prepareEmitted r.row.id env.runCtx env.uuid (r.lastEventSeq + 1) events }

/-- The operations on a run that exists, with their arguments. -/
inductive Op where
  | markStarted (request : RunDescriptor)
  | bindSession (request : RunDescriptor) (session : BoundSession)
  | markRunning (runtimeSessionId sessionState : String)
  | markSuspended
  | markResumed
  | markCompleted
  | markFailed (message : String)
  | markCancelled

namespace Op

/-- The status that the operation moves the run to. -/
def target : Op → RunStatus
  | markStarted _ => .starting
  | bindSession _ _ => .bindingSession
  | markRunning _ _ => .running
  | markSuspended => .suspended
  | markResumed => .running
  | markCompleted => .completed
  | markFailed _ => .failed
  | markCancelled => .cancelled

/-- The transition of the repository. -/
def transition (now : String) : Op → Transition
  | markStarted _ => RunRepository.markStarted now
  | bindSession _ session => RunRepository.markBindingSession session.runtimeSessionId
  | markRunning runtimeSessionId _ => RunRepository.markRunning (some runtimeSessionId)
  | markSuspended => RunRepository.markSuspended
  | markResumed => RunRepository.markResumed
  | markCompleted => RunRepository.markCompleted now
  | markFailed message => RunRepository.markFailed now (some "RUN_FAILED") (some message)
  | markCancelled => RunRepository.markCancelled now

/-- The events of the operation, of the row that the repository has returned. -/
def events (run : RunRow) (ts : String) : Op → List (PartialEvent N)
  | markStarted request => startedEvents request run ts
  | bindSession request session => boundEvents request session ts
  | markRunning runtimeSessionId sessionState => runningEvents run runtimeSessionId sessionState ts
  | markSuspended => suspendedEvents run ts
  | markResumed => resumedEvents run ts
  | markCompleted => completedEvents run ts
  | markFailed message => failedEvents run message ts
  | markCancelled => cancelledEvents run ts

/-- The statuses that the operation leaves alone: it returns the row it has read. -/
def leaves (status : RunStatus) : Op → Bool
  | markStarted _ | bindSession _ _ | markRunning _ _ => false
  | markSuspended => status.terminal || status = .suspended
  | markResumed => status ≠ .suspended
  | markCompleted | markFailed _ | markCancelled => status.terminal

/-- The operations that end the run. -/
def ends (op : Op) : Bool := op.target.terminal

end Op

/-- Where an operation is. -/
inductive Phase where
  /-- Before `getRun`. -/
  | check
  /-- Before the conditional update. -/
  | update
  /-- Before the second read, after an update that has matched nothing. -/
  | reread
  /-- Before `emitControlPlaneEvents`, with the row that the repository has returned. -/
  | emit (run : RunRow)

/-- The first statement of an operation: three of them do not read the row before they update it. -/
def Op.first : Op → Phase
  | markStarted _ | bindSession _ _ | markRunning _ _ => .update
  | _ => .check

/-- What comes after a statement. -/
inductive Outcome where
  | goesOn (phase : Phase)
  | returned (run : RunRow)
  | threw (error : RunError)

/-- What an operation makes of an error of the repository: `bindSession` swallows a conflict, and returns the row. -/
def Op.caught (current : RunRow) (error : RunError) : Op → Outcome
  | bindSession _ _ =>
    match error with
    | .conflict _ => .returned current
    | .error _ => .threw error
  | _ => .threw error

/-- One statement of an operation. -/
def step (env : Env) (op : Op) (r : Record N) : Phase → Record N × Outcome
  | .check => (r, if op.leaves r.row.status then .returned r.row else .goesOn .update)
  | .update =>
    match compareAndSet (op.transition env.now) env.now r.row with
    | some row => ({ r with row }, .goesOn (.emit row))
    | none => (r, .goesOn .reread)
  | .reread =>
    match afterMiss r.row.id op.target (some r.row) with
    | .ok run => (r, .goesOn (.emit run))
    | .error e => (r, op.caught r.row e)
  | .emit run => (r.emit env (op.events run env.now), .returned run)

/-! ### What a statement does -/

theorem Op.transition_target (op : Op) (now : String) : (op.transition now).target = op.target := by
  cases op <;> rfl

theorem Op.events_ne_nil (op : Op) (run : RunRow) (ts : String) : (op.events run ts : List (PartialEvent N)) ≠ [] := by
  cases op <;> exact List.cons_ne_nil _ _

theorem Op.caught_cases (op : Op) (current : RunRow) (error : RunError) :
    op.caught current error = .threw error ∨
      op.caught current error = .returned current ∧ op.target = .bindingSession := by
  cases op with
  | bindSession request session =>
    cases error with
    | conflict message => exact Or.inr ⟨rfl, rfl⟩
    | error message => exact Or.inl rfl
  | _ => exact Or.inl rfl

/-- The cases of a statement. -/
inductive StepSpec (env : Env) (op : Op) (r : Record N) : Phase → Record N × Outcome → Prop
  | left (h : op.leaves r.row.status = true) : StepSpec env op r .check (r, .returned r.row)
  | checked (h : op.leaves r.row.status = false) : StepSpec env op r .check (r, .goesOn .update)
  | wrote {row : RunRow} (h : compareAndSet (op.transition env.now) env.now r.row = some row) :
      StepSpec env op r .update ({ r with row }, .goesOn (.emit row))
  | missed (h : op.target ∉ validTransitions r.row.status) : StepSpec env op r .update (r, .goesOn .reread)
  | agreed (h : r.row.status = op.target) : StepSpec env op r .reread (r, .goesOn (.emit r.row))
  | refused {error : RunError} (h : r.row.status ≠ op.target) :
      StepSpec env op r .reread (r, op.caught r.row error)
  | emitted (run : RunRow) : StepSpec env op r (.emit run) (r.emit env (op.events run env.now), .returned run)

theorem step_spec (env : Env) (op : Op) (r : Record N) (phase : Phase) :
    StepSpec env op r phase (step env op r phase) := by
  cases phase with
  | check =>
    cases h : op.leaves r.row.status with
    | true =>
      rw [step, h]
      exact .left h
    | false =>
      rw [step, h]
      exact .checked h
  | update =>
    rw [step]
    split
    · exact .wrote ‹_›
    · rename_i h
      exact .missed (op.transition_target env.now ▸ compareAndSet_eq_none.1 h)
  | reread =>
    by_cases h : r.row.status = op.target
    · rw [step, afterMiss, if_pos h]
      exact .agreed h
    · rw [step, afterMiss, if_neg h]
      exact .refused h
  | emit run => exact .emitted run

/-- A statement moves the row along an edge of the table, or leaves it as it is. -/
theorem step_row (env : Env) (op : Op) (r : Record N) (phase : Phase) :
    (step env op r phase).1.row = r.row ∨
      ∃ now, compareAndSet (op.transition now) now r.row = some (step env op r phase).1.row := by
  have h := step_spec env op r phase
  generalize step env op r phase = result at h ⊢
  cases h with
  | wrote h => exact Or.inr ⟨_, h⟩
  | _ => exact Or.inl rfl

theorem compareAndSet_of_terminal {t : Transition} {now : String} {row : RunRow} (h : row.status.terminal = true) :
    compareAndSet t now row = none := by
  rw [compareAndSet_eq_none, validTransitions_eq_nil.2 h]
  exact List.not_mem_nil

/-- The row is as it was, or has made a transition. -/
def RowMoved (row row' : RunRow) : Prop :=
  row' = row ∨ ∃ transition now, compareAndSet transition now row = some row'

theorem RowMoved.of_terminal {row row' : RunRow} (h : RowMoved row row') (hterminal : row.status.terminal = true) :
    row' = row := by
  rcases h with h | ⟨transition, now, h⟩
  · exact h
  · rw [compareAndSet_of_terminal hterminal] at h
    exact absurd h (by simp)

theorem step_rowMoved (env : Env) (op : Op) (r : Record N) (phase : Phase) :
    RowMoved r.row (step env op r phase).1.row :=
  (step_row env op r phase).imp_right fun ⟨now, h⟩ => ⟨_, now, h⟩

theorem step_of_terminal (env : Env) (op : Op) {r : Record N} (phase : Phase) (h : r.row.status.terminal = true) :
    (step env op r phase).1.row = r.row :=
  (step_rowMoved env op r phase).of_terminal h

theorem Op.leaves_of_ends {op : Op} (h : op.ends = true) (status : RunStatus) :
    op.leaves status = status.terminal := by
  cases op <;> first | rfl | exact absurd h Bool.false_ne_true

/-- An operation that ends the run has ended it when it appends its event, and when it returns. -/
def Outcome.Ended (r : Record N) : Outcome → Prop
  | .goesOn (.emit _) | .returned _ => r.row.status.terminal = true
  | _ => True

theorem step_ended (env : Env) {op : Op} (hop : op.ends = true) {r : Record N} {phase : Phase}
    (hphase : (Outcome.goesOn phase).Ended r) : (step env op r phase).2.Ended (step env op r phase).1 := by
  have h := step_spec env op r phase
  generalize step env op r phase = result at h ⊢
  cases h with
  | left h => exact (op.leaves_of_ends hop r.row.status).symm.trans h
  | checked h => trivial
  | wrote h =>
    show RunStatus.terminal _ = true
    rw [compareAndSet_status h, op.transition_target]
    exact hop
  | missed h => trivial
  | agreed h =>
    show r.row.status.terminal = true
    rw [h]
    exact hop
  | refused h =>
    rename_i error
    rcases op.caught_cases r.row error with hthrew | ⟨-, htarget⟩
    · rw [hthrew]
      trivial
    · rw [Op.ends, htarget] at hop
      exact absurd hop (by decide)
  | emitted run => exact hphase

/-- Only the second read throws, when it finds another status than the one to write. -/
theorem step_threw {env : Env} {op : Op} {r : Record N} {phase : Phase} {error : RunError}
    (h : (step env op r phase).2 = .threw error) :
    phase = .reread ∧ r.row.status ≠ op.target ∧ (step env op r phase).1 = r := by
  have hspec := step_spec env op r phase
  generalize step env op r phase = result at h hspec ⊢
  cases hspec with
  | refused hstatus => exact ⟨rfl, hstatus, rfl⟩
  | left | checked | wrote | missed | agreed | emitted => exact absurd h (by simp)

/-- The second read comes after an update that has matched nothing. -/
theorem step_goesOn_reread {env : Env} {op : Op} {r : Record N} {phase : Phase}
    (h : (step env op r phase).2 = .goesOn .reread) :
    op.target ∉ validTransitions r.row.status ∧ (step env op r phase).1 = r := by
  have hspec := step_spec env op r phase
  generalize step env op r phase = result at h hspec ⊢
  cases hspec with
  | missed hstatus => exact ⟨hstatus, rfl⟩
  | refused hstatus =>
    rename_i error
    rcases op.caught_cases r.row error with hcaught | ⟨hcaught, -⟩ <;>
      exact absurd (hcaught.symm.trans h) (by simp)
  | left | checked | wrote | agreed | emitted => exact absurd h (by simp)

/-- What cannot be failed has ended. -/
theorem terminal_of_failed_not_mem {status : RunStatus} (h : .failed ∉ validTransitions status) :
    status.terminal = true := by
  cases status <;> first | rfl | exact absurd (by decide) h

end MacpControlPlane.Lifecycle

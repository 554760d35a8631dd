import MacpControlPlane.Lib.Callers
import MacpControlPlane.Lib.Machine
import MacpControlPlane.Runs.RunManager

/-!
# Who announces the end of a run

`markCompleted`, `markFailed` and `markCancelled` check the status, update it, append an event and fire a webhook,
each at its own await point.  A caller that has passed the check while another one ends the run finds, in its second
read, either another status (and throws) or its own target status.  The second read takes the latter for a success, so
such a caller announces the end of the run once more.
-/

namespace MacpControlPlane.TerminalEvents

open Js RunManager

variable {N : Type}

/-- `markCompleted`, `markFailed` with its message, and `markCancelled`. -/
inductive Ending where
  | completed
  | failed (message : String)
  | cancelled

namespace Ending

/-- The status the operation ends the run with. -/
def target : Ending → RunStatus
  | completed => .completed
  | failed _ => .failed
  | cancelled => .cancelled

/-- The transition of the repository. -/
def transition (now : String) : Ending → Transition
  | completed => RunRepository.markCompleted now
  | failed message => RunRepository.markFailed now (some "RUN_FAILED") (some message)
  | cancelled => RunRepository.markCancelled now

/-- The events that the operation emits. -/
def events (run : RunRow) (ts : String) : Ending → List (PartialEvent N)
  | completed => completedEvents run ts
  | failed message => failedEvents run message ts
  | cancelled => cancelledEvents run ts

/-- The type of the event and of the webhook. -/
def type : Ending → CanonicalEventType
  | completed => .runCompleted
  | failed _ => .runFailed
  | cancelled => .runCancelled

/-- `data: { error: message }` of the webhook of `markFailed`. -/
def error : Ending → Option String
  | failed message => some message
  | _ => none

end Ending

/-- The argument of `webhookService.fireEvent`. -/
structure Webhook where
  event : String
  runId : String
  status : RunStatus
  timestamp : String
  error : Option String := none

/-- Where a call is. -/
inductive Phase where
  /-- Before `getRun`. -/
  | check
  /-- Before the conditional update. -/
  | update
  /-- Before the second read, after an update that matched nothing. -/
  | reread
  /-- Before `emitControlPlaneEvents`, with the row the repository returned. -/
  | emit (run : RunRow)
  /-- Before `fireEvent`. -/
  | webhook (run : RunRow)
  /-- Returned. -/
  | done (result : Except RunError RunRow)

/-- A call of one of the operations. -/
structure Call where
  ending : Ending
  phase : Phase := .check

/-- The run in the database, the webhooks fired for it, and the calls. -/
structure State (N : Type) where
  row : RunRow
  lastEventSeq : Nat
  log : List (CanonicalEvent N)
  webhooks : List Webhook
  calls : List Call

/-- The await points of a call. -/
inductive Step where
  | check
  | update (now : String)
  | reread
  | emit (ts : String) (uuid : Nat → String) (runCtx : Option TraceRef)
  | webhook (now : String)

/-- The event types that announce the end of a run. -/
def announces (type : CanonicalEventType) : Bool :=
  type = .runCompleted || type = .runFailed || type = .runCancelled

/-- What can happen next. -/
inductive Action (N : Type) where
  /-- Some service calls one of the operations. -/
  | call (ending : Ending)
  /-- Call `i` takes its next step. -/
  | step (i : Nat) (step : Step)
  /-- Another operation moves the row to a status that is not terminal. -/
  | other (transition : Transition) (operation : IsOperation transition) (live : transition.target.terminal = false)
      (now : String)
  /-- Another event of the run is appended. -/
  | append (event : CanonicalEvent N) (other : announces event.type = false)

/-- Call `i` moves on to another phase. -/
def State.move (s : State N) (i : Nat) (c : Call) (phase : Phase) : State N :=
  { s with calls := s.calls.set i { c with phase } }

/-- The transaction of `emitControlPlaneEvents`. -/
def State.emit (s : State N) (events : List (PartialEvent N)) (uuid : Nat → String) (runCtx : Option TraceRef) :
    State N :=
  { s with
    lastEventSeq := s.lastEventSeq + events.length
    log := s.log ++ RunEventService.prepareEmitted s.row.id runCtx uuid (s.lastEventSeq + 1) events }

/-- `webhookService.fireEvent` -/
def State.fire (s : State N) (ending : Ending) (now : String) : State N :=
  { s with
    webhooks := s.webhooks ++
      [{ event := ending.type.name, runId := s.row.id, status := ending.target,
         timestamp := now, error := ending.error }] }

/-- A step of call `i`. -/
def State.step (s : State N) (i : Nat) (c : Call) (a : Step) : Option (State N) :=
  match a, c.phase with
  | .check, .check => some (if endedAlready s.row then s.move i c (.done (.ok s.row)) else s.move i c .update)
  | .update now, .update =>
    match compareAndSet (c.ending.transition now) now s.row with
    | some row => some ({ s with row }.move i c (.emit row))
    | none => some (s.move i c .reread)
  | .reread, .reread =>
    match afterMiss s.row.id c.ending.target (some s.row) with
    | .ok run => some (s.move i c (.emit run))
    | .error e => some (s.move i c (.done (.error e)))
  | .emit ts uuid runCtx, .emit run => some ((s.emit (c.ending.events run ts) uuid runCtx).move i c (.webhook run))
  | .webhook now, .webhook run => some ((s.fire c.ending now).move i c (.done (.ok run)))
  | _, _ => none

/-- One step of one of the callers, a new call, or something else that happens to the run. -/
def next (s : State N) : Action N → Option (State N)
  | .call ending => some { s with calls := s.calls ++ [{ ending }] }
  | .step i a => s.calls[i]?.bind fun c => s.step i c a
  | .other transition _ _ now => (compareAndSet transition now s.row).map fun row => { s with row }
  | .append event _ => some { s with lastEventSeq := s.lastEventSeq + 1, log := s.log ++ [event] }

/-- The callers race on a run that has not ended, and whose end nobody has announced. -/
def machine : Machine (State N) (Action N) where
  start s := s.row.status.terminal = false ∧ (∀ e ∈ s.log, announces e.type = false) ∧ s.webhooks = [] ∧ s.calls = []
  next := next

/-! ### What a step does -/

/-- What a step of call `i` does. -/
inductive StepSpec (s : State N) (i : Nat) (c : Call) : Step → State N → Prop
  | ended (hphase : c.phase = .check) : StepSpec s i c .check (s.move i c (.done (.ok s.row)))
  | live (hphase : c.phase = .check) : StepSpec s i c .check (s.move i c .update)
  | wrote {now : String} {row : RunRow} (hphase : c.phase = .update) (hlive : s.row.status.terminal = false)
      (hstatus : row.status = c.ending.target) : StepSpec s i c (.update now) ({ s with row }.move i c (.emit row))
  | missed {now : String} (hphase : c.phase = .update) : StepSpec s i c (.update now) (s.move i c .reread)
  | repeated {run : RunRow} (hphase : c.phase = .reread) (hstatus : s.row.status = c.ending.target) :
      StepSpec s i c .reread (s.move i c (.emit run))
  | refused {e : RunError} (hphase : c.phase = .reread) (hstatus : s.row.status ≠ c.ending.target) :
      StepSpec s i c .reread (s.move i c (.done (.error e)))
  | emitted {ts : String} {uuid : Nat → String} {runCtx : Option TraceRef} {run : RunRow} {e : CanonicalEvent N}
      {n : Nat}
      (hphase : c.phase = .emit run) (htype : e.type = c.ending.type) : StepSpec s i c (.emit ts uuid runCtx)
        ({ s with lastEventSeq := n, log := s.log ++ [e] }.move i c (.webhook run))
  | fired {now : String} {run : RunRow} (hphase : c.phase = .webhook run) :
      StepSpec s i c (.webhook now) ((s.fire c.ending now).move i c (.done (.ok run)))

private theorem Ending.transition_target (ending : Ending) (now : String) :
    (ending.transition now).target = ending.target := by
  cases ending <;> rfl

private theorem Ending.target_terminal (ending : Ending) : ending.target.terminal = true := by
  cases ending <;> rfl

private theorem step_spec {s t : State N} {i : Nat} {c : Call} {a : Step} (h : s.step i c a = some t) :
    StepSpec s i c a t := by
  unfold State.step at h
  split at h
  · rename_i hphase
    split at h
    · exact Option.some.inj h ▸ .ended hphase
    · exact Option.some.inj h ▸ .live hphase
  · rename_i now hphase
    split at h
    · rename_i row hrow
      obtain ⟨hedge, -⟩ := compareAndSet_eq_some.1 hrow
      have hlive : s.row.status.terminal = false := by
        rw [Bool.eq_false_iff]
        intro hterm
        rw [validTransitions_eq_nil.2 hterm] at hedge
        exact absurd hedge List.not_mem_nil
      exact Option.some.inj h ▸ .wrote hphase hlive
        ((compareAndSet_status hrow).trans (c.ending.transition_target now))
    · exact Option.some.inj h ▸ .missed hphase
  · rename_i hphase
    by_cases hstatus : s.row.status = c.ending.target
    · rw [afterMiss, if_pos hstatus] at h
      exact Option.some.inj h ▸ .repeated hphase hstatus
    · rw [afterMiss, if_neg hstatus] at h
      exact Option.some.inj h ▸ .refused hphase hstatus
  · rename_i ts uuid runCtx run hphase
    rw [← Option.some.inj h]
    cases hending : c.ending <;> exact .emitted hphase (by rw [hending]; rfl)
  · rename_i now run hphase
    exact Option.some.inj h ▸ .fired hphase
  · exact absurd h nofun

/-! ### Counting -/

/-- The call has a row, and its event is not appended yet. -/
def Phase.isEmit : Phase → Bool
  | .emit _ => true
  | _ => false

/-- The event of the call is appended, and its webhook is not fired yet. -/
def Phase.isWebhook : Phase → Bool
  | .webhook _ => true
  | _ => false

/-- The number of events that announce the end of the run. -/
def State.announced (s : State N) : Nat := s.log.countP fun e => announces e.type

/-- The number of calls that are about to announce the end of the run. -/
def State.emitting (s : State N) : Nat := s.calls.countP fun c => c.phase.isEmit

/-- The number of calls that are about to fire their webhook. -/
def State.firing (s : State N) : Nat := s.calls.countP fun c => c.phase.isWebhook

/-- The announcements made and to be made. -/
def State.total (s : State N) : Nat := s.announced + s.emitting

private theorem emitting_move {s : State N} {i : Nat} {c : Call} (hc : s.calls[i]? = some c) (phase : Phase) :
    (s.move i c phase).emitting + (if c.phase.isEmit then 1 else 0) = s.emitting + if phase.isEmit then 1 else 0 :=
  Callers.countP_set hc

private theorem firing_move {s : State N} {i : Nat} {c : Call} (hc : s.calls[i]? = some c) (phase : Phase) :
    (s.move i c phase).firing + (if c.phase.isWebhook then 1 else 0) = s.firing + if phase.isWebhook then 1 else 0 :=
  Callers.countP_set hc

private theorem Ending.type_eq_of_target_eq {a b : Ending} (h : a.target = b.target) : a.type = b.type := by
  cases a <;> cases b <;> first | rfl | exact absurd h nofun

private theorem Ending.announces_type (ending : Ending) : announces ending.type = true := by
  cases ending <;> rfl

/-- What holds of a run whatever the callers do. -/
structure Invariant (s : State N) : Prop where
  kinds : ∀ e ∈ s.log, announces e.type = true →
    ∃ ending : Ending, ending.target = s.row.status ∧ e.type = ending.type
  pending : ∀ (i : Nat) (c : Call), s.calls[i]? = some c → c.phase.isEmit = true ∨ c.phase.isWebhook = true →
    s.row.status = c.ending.target
  hooks : ∀ w ∈ s.webhooks, ∃ ending : Ending, ending.target = s.row.status ∧ w.event = ending.type.name
  live : s.row.status.terminal = false → s.total = 0
  ended : s.row.status.terminal = true → 1 ≤ s.total
  fired : s.webhooks.length + s.firing = s.announced

private theorem Invariant.start {s : State N} (h : machine.start s) : Invariant s := by
  obtain ⟨hlive, hlog, hhooks, hcalls⟩ := h
  have hannounced : s.announced = 0 := by
    rw [State.announced, List.countP_eq_zero]
    intro e he
    rw [hlog e he]
    exact Bool.false_ne_true
  have htotal : s.total = 0 := by rw [State.total, hannounced, State.emitting, hcalls]; rfl
  refine ⟨?_, ?_, ?_, fun _ => htotal, ?_, ?_⟩
  · intro e he hann
    rw [hlog e he] at hann
    exact absurd hann nofun
  · intro i c hc
    rw [hcalls] at hc
    exact absurd hc nofun
  · rw [hhooks]; exact nofun
  · intro hterm
    rw [hlive] at hterm
    exact absurd hterm nofun
  · rw [hannounced, hhooks, State.firing, hcalls]; rfl

/-- On a live run nothing is announced, fired or about to be. -/
theorem Invariant.live_quiet {s : State N} (h : Invariant s) (hlive : s.row.status.terminal = false) :
    s.announced = 0 ∧ s.webhooks = [] := by
  have htotal := h.live hlive
  have hfired := h.fired
  unfold State.total at htotal
  exact ⟨by omega, List.eq_nil_of_length_eq_zero (by omega)⟩

/-- A call that moves between phases in which it announces nothing. -/
theorem Invariant.move {s : State N} (h : Invariant s)
    {i : Nat} {c : Call} (hc : s.calls[i]? = some c) {phase : Phase}
    (hold : c.phase.isEmit = false ∧ c.phase.isWebhook = false)
    (hnew : phase.isEmit = false ∧ phase.isWebhook = false) :
    Invariant (s.move i c phase) ∧ (s.move i c phase).total = s.total := by
  have hemit := emitting_move hc phase
  have hfire := firing_move hc phase
  rw [hold.1, hnew.1] at hemit
  rw [hold.2, hnew.2] at hfire
  have hann : (s.move i c phase).announced = s.announced := rfl
  have htotal : (s.move i c phase).total = s.total := by
    rw [State.total, State.total, hann]
    exact congrArg (s.announced + ·) hemit
  refine ⟨⟨h.kinds, ?_, h.hooks, ?_, ?_, ?_⟩, htotal⟩
  · intro j d hd hphase
    rcases Callers.getElem?_set_cases hd with ⟨-, rfl⟩ | ⟨-, hd⟩
    · rw [hnew.1, hnew.2] at hphase
      exact absurd hphase (by decide)
    · exact h.pending j d hd hphase
  · rw [htotal]; exact h.live
  · rw [htotal]; exact h.ended
  · rw [hann, ← h.fired]
    exact congrArg (s.webhooks.length + ·) hfire

/-- A call that is about to announce an end that is already stored. -/
theorem Invariant.announceAgain {s : State N} (h : Invariant s)
    {i : Nat} {c : Call} (hc : s.calls[i]? = some c) {run : RunRow}
    (hphase : c.phase = .reread) (hstatus : s.row.status = c.ending.target) :
    Invariant (s.move i c (.emit run)) ∧ (s.move i c (.emit run)).total = s.total + 1 := by
  have hemit := emitting_move hc (.emit run)
  have hfire := firing_move hc (.emit run)
  rw [hphase] at hemit hfire
  have hann : (s.move i c (.emit run)).announced = s.announced := rfl
  have htotal : (s.move i c (.emit run)).total = s.total + 1 := by
    rw [State.total, State.total, hann, Nat.add_assoc]
    exact congrArg (s.announced + ·) hemit
  refine ⟨⟨h.kinds, ?_, h.hooks, ?_, ?_, ?_⟩, htotal⟩
  · intro j d hd hphase
    rcases Callers.getElem?_set_cases hd with ⟨-, rfl⟩ | ⟨-, hd⟩
    · exact hstatus
    · exact h.pending j d hd hphase
  · intro hlive
    have hterm : s.row.status.terminal = true := by rw [hstatus, c.ending.target_terminal]
    exact Bool.noConfusion (hterm.symm.trans hlive)
  · rw [htotal]; omega
  · rw [hann, ← h.fired]
    exact congrArg (s.webhooks.length + ·) hfire

/-- The call that ends the run. -/
theorem Invariant.write {s : State N} (h : Invariant s)
    {i : Nat} {c : Call} (hc : s.calls[i]? = some c) {row : RunRow}
    (hphase : c.phase = .update) (hlive : s.row.status.terminal = false) (hstatus : row.status = c.ending.target) :
    Invariant ({ s with row }.move i c (.emit row)) ∧ ({ s with row }.move i c (.emit row)).total = s.total + 1 := by
  obtain ⟨hannounced, hwebhooks⟩ := h.live_quiet hlive
  have hemit := emitting_move (s := { s with row }) hc (.emit row)
  have hfire := firing_move (s := { s with row }) hc (.emit row)
  rw [hphase] at hemit hfire
  have hann : ({ s with row }.move i c (.emit row)).announced = s.announced := rfl
  have htotal : ({ s with row }.move i c (.emit row)).total = s.total + 1 := by
    rw [State.total, State.total, hann, Nat.add_assoc]
    exact congrArg (s.announced + ·) hemit
  refine ⟨⟨?_, ?_, ?_, ?_, ?_, ?_⟩, htotal⟩
  · intro e he hann
    exact absurd hann (List.countP_eq_zero.1 hannounced e he)
  · intro j d hd hd'
    rcases Callers.getElem?_set_cases hd with ⟨-, rfl⟩ | ⟨-, hd⟩
    · exact hstatus
    · have hold := h.pending j d hd hd'
      rw [hold, d.ending.target_terminal] at hlive
      exact absurd hlive nofun
  · show ∀ w ∈ s.webhooks, _
    rw [hwebhooks]
    exact nofun
  · intro hnew
    have hterm : row.status.terminal = true := by rw [hstatus, c.ending.target_terminal]
    exact Bool.noConfusion (hterm.symm.trans hnew)
  · rw [htotal]; omega
  · rw [hann, ← h.fired]
    exact congrArg (s.webhooks.length + ·) hfire

/-- The transaction that appends an announcement. -/
theorem Invariant.emit {s : State N} (h : Invariant s) {i : Nat} {c : Call} (hc : s.calls[i]? = some c) {run : RunRow}
    {e : CanonicalEvent N} {n : Nat} (hphase : c.phase = .emit run) (htype : e.type = c.ending.type) :
    Invariant ({ s with lastEventSeq := n, log := s.log ++ [e] }.move i c (.webhook run)) ∧
      ({ s with lastEventSeq := n, log := s.log ++ [e] }.move i c (.webhook run)).total = s.total := by
  have hstatus := h.pending i c hc (Or.inl (by rw [hphase]; rfl))
  have hemit := emitting_move (s := { s with lastEventSeq := n, log := s.log ++ [e] }) hc (.webhook run)
  have hfire := firing_move (s := { s with lastEventSeq := n, log := s.log ++ [e] }) hc (.webhook run)
  rw [hphase] at hemit hfire
  have hann :
      ({ s with lastEventSeq := n, log := s.log ++ [e] }.move i c (.webhook run)).announced = s.announced + 1 := by
    show (s.log ++ [e]).countP _ = _
    rw [List.countP_append, List.countP_singleton, htype, c.ending.announces_type]
    rfl
  have htotal : ({ s with lastEventSeq := n, log := s.log ++ [e] }.move i c (.webhook run)).total = s.total := by
    rw [State.total, State.total, hann, Nat.add_assoc, Nat.add_comm 1]
    exact congrArg (s.announced + ·) hemit
  refine ⟨⟨?_, ?_, h.hooks, ?_, ?_, ?_⟩, htotal⟩
  · intro d hd hann
    rcases List.mem_append.1 hd with hd | hd
    · exact h.kinds d hd hann
    · rw [List.mem_singleton.1 hd]
      exact ⟨c.ending, hstatus.symm, htype⟩
  · intro j d hd hd'
    rcases Callers.getElem?_set_cases hd with ⟨-, rfl⟩ | ⟨-, hd⟩
    · exact hstatus
    · exact h.pending j d hd hd'
  · rw [htotal]; exact h.live
  · rw [htotal]; exact h.ended
  · rw [hann, ← h.fired, Nat.add_assoc]
    exact congrArg (s.webhooks.length + ·) hfire

/-- The webhook of an announcement. -/
theorem Invariant.fire {s : State N} (h : Invariant s) {i : Nat} {c : Call} (hc : s.calls[i]? = some c) {run : RunRow}
    (hphase : c.phase = .webhook run) (now : String) {phase : Phase}
    (hnew : phase.isEmit = false ∧ phase.isWebhook = false) :
    Invariant ((s.fire c.ending now).move i c phase) ∧ ((s.fire c.ending now).move i c phase).total = s.total := by
  have hstatus := h.pending i c hc (Or.inr (by rw [hphase]; rfl))
  have hemit := emitting_move (s := s.fire c.ending now) hc phase
  have hfire := firing_move (s := s.fire c.ending now) hc phase
  rw [hphase, hnew.1] at hemit
  rw [hphase, hnew.2] at hfire
  have hann : ((s.fire c.ending now).move i c phase).announced = s.announced := rfl
  have htotal : ((s.fire c.ending now).move i c phase).total = s.total := by
    rw [State.total, State.total, hann]
    exact congrArg (s.announced + ·) hemit
  refine ⟨⟨h.kinds, ?_, ?_, ?_, ?_, ?_⟩, htotal⟩
  · intro j d hd hd'
    rcases Callers.getElem?_set_cases hd with ⟨-, rfl⟩ | ⟨-, hd⟩
    · exact hstatus
    · exact h.pending j d hd hd'
  · intro w hw
    rcases List.mem_append.1 hw with hw | hw
    · exact h.hooks w hw
    · rw [List.mem_singleton.1 hw]
      exact ⟨c.ending, hstatus.symm, rfl⟩
  · rw [htotal]; exact h.live
  · rw [htotal]; exact h.ended
  · have hold : (s.fire c.ending now).firing = s.firing := rfl
    have hlength : ((s.fire c.ending now).move i c phase).webhooks.length = s.webhooks.length + 1 := by
      simp [State.move, State.fire]
    have hfired := h.fired
    simp only [Phase.isWebhook, hold, if_true] at hfire
    rw [hann, hlength]
    simp at hfire
    omega

/-- The events that are not announcements, and the moves between statuses that are not terminal. -/
theorem Invariant.environment {s : State N} (h : Invariant s) {row : RunRow} (n : Nat) {es : List (CanonicalEvent N)}
    (hes : ∀ e ∈ es, announces e.type = false)
    (hrow : row = s.row ∨ s.row.status.terminal = false ∧ row.status.terminal = false) :
    Invariant { s with row, lastEventSeq := n, log := s.log ++ es } ∧
      ({ s with row, lastEventSeq := n, log := s.log ++ es } : State N).total = s.total := by
  have hann : ({ s with row, lastEventSeq := n, log := s.log ++ es } : State N).announced = s.announced := by
    show (s.log ++ es).countP _ = _
    have hzero : es.countP (fun e => announces e.type) = 0 :=
      List.countP_eq_zero.2 fun e he => by rw [hes e he]; exact Bool.false_ne_true
    rw [List.countP_append, hzero]
    rfl
  have htotal : ({ s with row, lastEventSeq := n, log := s.log ++ es } : State N).total = s.total := by
    rw [State.total, State.total, hann]
    rfl
  refine ⟨?_, htotal⟩
  rcases hrow with rfl | ⟨hold, hnew⟩
  · refine ⟨?_, h.pending, h.hooks, ?_, ?_, ?_⟩
    · intro e he hannounces
      rcases List.mem_append.1 he with he | he
      · exact h.kinds e he hannounces
      · rw [hes e he] at hannounces
        exact absurd hannounces nofun
    · rw [htotal]; exact h.live
    · rw [htotal]; exact h.ended
    · rw [hann]; exact h.fired
  · obtain ⟨hannounced, hwebhooks⟩ := h.live_quiet hold
    refine ⟨?_, ?_, ?_, ?_, ?_, ?_⟩
    · intro e he hannounces
      rcases List.mem_append.1 he with he | he
      · exact absurd hannounces (List.countP_eq_zero.1 hannounced e he)
      · rw [hes e he] at hannounces
        exact absurd hannounces nofun
    · intro j d hd hphase
      have hstatus := h.pending j d hd hphase
      rw [hstatus, d.ending.target_terminal] at hold
      exact absurd hold nofun
    · show ∀ w ∈ s.webhooks, _
      rw [hwebhooks]
      exact nofun
    · rw [htotal]
      exact fun _ => h.live hold
    · intro hterm
      exact Bool.noConfusion (hterm.symm.trans hnew)
    · rw [hann]; exact h.fired

/-- A new call announces nothing yet. -/
theorem Invariant.call {s : State N} (h : Invariant s) (ending : Ending) :
    Invariant { s with calls := s.calls ++ [{ ending }] } ∧
      ({ s with calls := s.calls ++ [{ ending }] } : State N).total = s.total := by
  have hemit : ({ s with calls := s.calls ++ [{ ending }] } : State N).emitting = s.emitting :=
    Callers.countP_concat _ _
  have hfire : ({ s with calls := s.calls ++ [{ ending }] } : State N).firing = s.firing := Callers.countP_concat _ _
  have htotal : ({ s with calls := s.calls ++ [{ ending }] } : State N).total = s.total :=
    congrArg (s.announced + ·) hemit
  refine ⟨⟨h.kinds, ?_, h.hooks, ?_, ?_, ?_⟩, htotal⟩
  · intro j d hd hphase
    rcases Callers.getElem?_concat_cases hd with ⟨-, rfl⟩ | hd
    · rcases hphase with hphase | hphase <;> exact absurd hphase nofun
    · exact h.pending j d hd hphase
  · rw [htotal]; exact h.live
  · rw [htotal]; exact h.ended
  · rw [hfire]; exact h.fired

/-! ### Steps and runs -/

/-- The second read of a call finds the target of the call. -/
def Repeats (s : State N) (a : Action N) : Prop :=
  ∃ i c, a = .step i .reread ∧ s.calls[i]? = some c ∧ s.row.status = c.ending.target

/-- No call finds, in its second read, that the run has already ended the way the call wanted. -/
def NotRepeated (s : State N) (a : Action N) : Prop := ¬ Repeats s a

private theorem NotRepeated.of_ne {s : State N} {a : Action N} (h : ∀ i, a ≠ .step i .reread) : NotRepeated s a :=
  fun ⟨i, _, ha, _⟩ => h i ha

/-- A step adds an announcement exactly when it ends the run or repeats its end. -/
theorem Invariant.step {s t : State N} (h : Invariant s) {a : Action N} (hnext : next s a = some t) :
    Invariant t ∧
      (Repeats s a ∧ t.total = s.total + 1 ∧ s.row.status.terminal = true ∨
        NotRepeated s a ∧ (t.total = s.total ∨ t.total = s.total + 1 ∧ s.row.status.terminal = false)) := by
  have hquiet : ∀ phase : Phase, phase = .check ∨ phase = .update ∨ phase = .reread ∨ (∃ r, phase = .done r) →
      phase.isEmit = false ∧ phase.isWebhook = false := by
    rintro phase (rfl | rfl | rfl | ⟨r, rfl⟩) <;> exact ⟨rfl, rfl⟩
  cases a with
  | call ending =>
    obtain ⟨hinv, htotal⟩ := h.call ending
    rw [← Option.some.inj hnext]
    exact ⟨hinv, Or.inr ⟨fun ⟨_, _, ha, _⟩ => absurd ha nofun, Or.inl htotal⟩⟩
  | other transition operation live now =>
    obtain ⟨row, hrow, rfl⟩ := Option.map_eq_some_iff.1 hnext
    have hold : s.row.status.terminal = false := by
      rw [Bool.eq_false_iff]
      intro hterm
      have hedge := (compareAndSet_eq_some.1 hrow).1
      rw [validTransitions_eq_nil.2 hterm] at hedge
      exact absurd hedge List.not_mem_nil
    have hnew : row.status.terminal = false := by rw [compareAndSet_status hrow, live]
    obtain ⟨hinv, htotal⟩ := h.environment s.lastEventSeq (List.forall_mem_nil _) (Or.inr ⟨hold, hnew⟩)
    rw [List.append_nil] at hinv htotal
    exact ⟨hinv, Or.inr ⟨fun ⟨_, _, ha, _⟩ => absurd ha nofun, Or.inl htotal⟩⟩
  | append event other =>
    rw [← Option.some.inj hnext]
    have hes : ∀ e ∈ [event], announces e.type = false := by
      intro e he
      rw [List.mem_singleton.1 he, other]
    obtain ⟨hinv, htotal⟩ := h.environment (s.lastEventSeq + 1) hes (Or.inl rfl)
    exact ⟨hinv, Or.inr ⟨fun ⟨_, _, ha, _⟩ => absurd ha nofun, Or.inl htotal⟩⟩
  | step i a =>
    obtain ⟨c, hc, hstep⟩ := Option.bind_eq_some_iff.1 hnext
    have hother : a ≠ .reread → NotRepeated s (.step i a) := by
      rintro hne ⟨j, d, ha, -, -⟩
      exact hne (Action.step.inj ha).2
    cases step_spec hstep with
    | ended hphase =>
      obtain ⟨hinv, htotal⟩ := h.move hc (hquiet _ (by simp [hphase])) (hquiet (.done (.ok s.row)) (by simp))
      exact ⟨hinv, Or.inr ⟨hother nofun, Or.inl htotal⟩⟩
    | live hphase =>
      obtain ⟨hinv, htotal⟩ := h.move hc (hquiet _ (by simp [hphase])) (hquiet .update (by simp))
      exact ⟨hinv, Or.inr ⟨hother nofun, Or.inl htotal⟩⟩
    | wrote hphase hlive hstatus =>
      obtain ⟨hinv, htotal⟩ := h.write hc hphase hlive hstatus
      exact ⟨hinv, Or.inr ⟨hother nofun, Or.inr ⟨htotal, hlive⟩⟩⟩
    | missed hphase =>
      obtain ⟨hinv, htotal⟩ := h.move hc (hquiet _ (by simp [hphase])) (hquiet .reread (by simp))
      exact ⟨hinv, Or.inr ⟨hother nofun, Or.inl htotal⟩⟩
    | repeated hphase hstatus =>
      obtain ⟨hinv, htotal⟩ := h.announceAgain hc hphase hstatus
      refine ⟨hinv, Or.inl ⟨⟨i, c, rfl, hc, hstatus⟩, htotal, ?_⟩⟩
      rw [hstatus, c.ending.target_terminal]
    | refused hphase hstatus =>
      rename_i e
      obtain ⟨hinv, htotal⟩ := h.move hc (hquiet _ (by simp [hphase])) (hquiet (.done (.error e)) (by simp))
      refine ⟨hinv, Or.inr ⟨?_, Or.inl htotal⟩⟩
      rintro ⟨j, d, ha, hd, hstatus'⟩
      rw [← (Action.step.inj ha).1, hc] at hd
      rw [← Option.some.inj hd] at hstatus'
      exact hstatus hstatus'
    | emitted hphase htype =>
      obtain ⟨hinv, htotal⟩ := h.emit hc hphase htype
      exact ⟨hinv, Or.inr ⟨hother nofun, Or.inl htotal⟩⟩
    | fired hphase =>
      rename_i now run
      obtain ⟨hinv, htotal⟩ := h.fire hc hphase now (hquiet (.done (.ok run)) (by simp))
      exact ⟨hinv, Or.inr ⟨hother nofun, Or.inl htotal⟩⟩

/-- All calls have returned. -/
def State.AllReturned (s : State N) : Prop :=
  ∀ c ∈ s.calls, ∃ result, c.phase = .done result

/-- The types of the announcements, oldest first. -/
def State.announcements (s : State N) : List CanonicalEventType :=
  (s.log.map (·.type)).filter announces

/-- At most one event announces the end of the run; once the run has ended and all calls have returned, one does, of
the kind of the status, and one webhook of that kind has been fired. -/
def OncePerEnd (s : State N) : Prop :=
  s.announcements.length ≤ 1 ∧
    (s.row.status.terminal = true → s.AllReturned →
      ∃ ending : Ending, ending.target = s.row.status ∧ s.announcements = [ending.type] ∧
        s.webhooks.map (·.event) = [ending.type.name])

private theorem length_announcements (s : State N) : s.announcements.length = s.announced := by
  rw [State.announcements, State.announced, ← List.countP_eq_length_filter, List.countP_map]
  rfl

/-- When all calls have returned, every announcement has been made, and its webhook fired. -/
theorem Invariant.returned {s : State N} (h : Invariant s) (hret : s.AllReturned) :
    s.announced = s.total ∧ s.webhooks.length = s.total := by
  have hemit : s.emitting = 0 := by
    refine List.countP_eq_zero.2 fun c hc => ?_
    obtain ⟨r, hr⟩ := hret c hc
    rw [hr]
    exact Bool.false_ne_true
  have hfire : s.firing = 0 := by
    refine List.countP_eq_zero.2 fun c hc => ?_
    obtain ⟨r, hr⟩ := hret c hc
    rw [hr]
    exact Bool.false_ne_true
  have hfired := h.fired
  rw [State.total, hemit]
  omega

private theorem Invariant.oncePerEnd {s : State N} (h : Invariant s) (hle : s.total ≤ 1) : OncePerEnd s := by
  constructor
  · rw [length_announcements]
    unfold State.total at hle
    omega
  · intro hterm hret
    obtain ⟨hann, hhooks⟩ := h.returned hret
    have hone : s.total = 1 := Nat.le_antisymm hle (h.ended hterm)
    rw [hone] at hann hhooks
    rw [← length_announcements] at hann
    obtain ⟨type, htype⟩ := List.length_eq_one_iff.1 hann
    obtain ⟨hook, hhook⟩ := List.length_eq_one_iff.1 hhooks
    have hmem : type ∈ s.announcements := by rw [htype]; exact List.mem_singleton_self type
    obtain ⟨hmem, hannounces⟩ := List.mem_filter.1 hmem
    obtain ⟨e, he, rfl⟩ := List.mem_map.1 hmem
    obtain ⟨ending, htarget, hkind⟩ := h.kinds e he hannounces
    obtain ⟨ending', htarget', hevent⟩ := h.hooks hook (by rw [hhook]; exact List.mem_singleton_self hook)
    refine ⟨ending, htarget, ?_, ?_⟩
    · rw [htype, hkind]
    · rw [hhook, List.map_singleton, hevent, Ending.type_eq_of_target_eq (htarget'.trans htarget.symm)]

/-- Where no call repeats the end of the run, it is announced once in every state.  In a run after which all calls
have returned, that is the only way. -/
theorem one_announcement_iff {s₀ s : State N} {as : List (Action N)} (hstart : machine.start s₀)
    (hrun : machine.exec s₀ as = some s) :
    (machine.Throughout NotRepeated s₀ as → ∀ bs t, bs <+: as → machine.exec s₀ bs = some t → OncePerEnd t) ∧
    (s.AllReturned → (OncePerEnd s ↔ machine.Throughout NotRepeated s₀ as)) := by
  have hinv₀ : Invariant s₀ := Invariant.start hstart
  have hzero : s₀.total ≤ 1 := by rw [hinv₀.live hstart.1]; omega
  have hgood : machine.Throughout NotRepeated s₀ as →
      ∀ bs t, bs <+: as → machine.exec s₀ bs = some t → OncePerEnd t := by
    intro hthrough bs t hbs ht
    have hboth : Invariant t ∧ t.total ≤ 1 := by
      refine (hthrough.of_prefix hbs).invariant (I := fun u => Invariant u ∧ u.total ≤ 1) ?_ ⟨hinv₀, hzero⟩ ht
      rintro u a v ⟨hu, hle⟩ hnot hv
      obtain ⟨hinv, ⟨hrep, -, -⟩ | ⟨-, hsame | ⟨hadd, hlive⟩⟩⟩ := hu.step hv
      · exact absurd hrep hnot
      · exact ⟨hinv, hsame ▸ hle⟩
      · have := hu.live hlive
        exact ⟨hinv, by omega⟩
    exact hboth.1.oncePerEnd hboth.2
  refine ⟨hgood, fun hret => ⟨?_, fun hthrough => hgood hthrough as s (List.prefix_refl _) hrun⟩⟩
  intro honce
  by_contra hnot
  obtain ⟨bs, a, cs, t, u, -, -, ht, hrep, hu, hcs⟩ := Machine.exists_of_not_throughout hnot hrun
  have hstep : ∀ (v : State N) (b : Action N) (w : State N), Invariant v → machine.next v b = some w → Invariant w :=
    fun v b w hv hw => (hv.step hw).1
  have hmono : ∀ (v : State N) (b : Action N) (w : State N), Invariant v → machine.next v b = some w →
      v.total ≤ w.total := by
    intro v b w hv hw
    obtain ⟨-, ⟨-, hadd, -⟩ | ⟨-, hsame | ⟨hadd, -⟩⟩⟩ := hv.step hw <;> omega
  have htinv : Invariant t := Machine.exec_invariant hstep hinv₀ ht
  obtain ⟨huinv, ⟨-, hadd, hterm⟩ | ⟨hno, -⟩⟩ := htinv.step hu
  · have htwo : 2 ≤ u.total := by
      have := htinv.ended hterm
      omega
    have hle : u.total ≤ s.total := Machine.exec_le hstep hmono huinv hcs
    have hsinv : Invariant s := Machine.exec_invariant hstep hinv₀ hrun
    have hann := (hsinv.returned hret).1
    have hone := honce.1
    rw [length_announcements] at hone
    omega
  · exact hrep hno

/-- Two calls that both pass the check on a running run.  The update of the second misses, and its second read finds
another status than its own. -/
theorem one_announcement_completed :
    let row : RunRow := { id := "run", status := .running }
    let s₀ : State (Option Rat) := ⟨row, 0, [], [], []⟩
    ∃ s, machine.exec s₀ [.call .completed, .call (.failed "stream lost"), .step 0 .check, .step 1 .check,
      .step 0 (.update "10:00"), .step 1 (.update "10:01"), .step 1 .reread,
      .step 0 (.emit "10:00" (fun n => s!"e{n}") none), .step 0 (.webhook "10:00")] = some s ∧
      s.row.status = .completed ∧ s.AllReturned ∧ OncePerEnd s := by
  intro row s₀
  have hstart : machine.start s₀ := ⟨rfl, List.forall_mem_nil _, rfl, rfl⟩
  obtain ⟨s, hs, c, d, r, q, hrow, hcalls, hc, hd⟩ :
      ∃ s, machine.exec s₀ [.call .completed, .call (.failed "stream lost"), .step 0 .check, .step 1 .check,
      .step 0 (.update "10:00"), .step 1 (.update "10:01"), .step 1 .reread,
      .step 0 (.emit "10:00" (fun n => s!"e{n}") none), .step 0 (.webhook "10:00")] = some s ∧
      ∃ c d r q, s.row.status = .completed ∧ s.calls = [c, d] ∧ c.phase = .done r ∧ d.phase = .done q :=
    ⟨_, rfl, _, _, _, _, rfl, rfl, rfl, rfl⟩
  have hret : s.AllReturned := by
    intro e he
    rw [hcalls, List.mem_pair] at he
    rcases he with rfl | rfl
    · exact ⟨r, hc⟩
    · exact ⟨q, hd⟩
  refine ⟨s, hs, hrow, hret, ((one_announcement_iff hstart hs).2 hret).2 ?_⟩
  have hother : ∀ {s : State (Option Rat)} {a}, (∀ i, a ≠ .step i .reread) → NotRepeated s a := NotRepeated.of_ne
  refine .cons (hother nofun) rfl (.cons (hother nofun) rfl (.cons (hother nofun) rfl (.cons (hother nofun) rfl
    (.cons (hother nofun) rfl (.cons (hother nofun) rfl (.cons ?_ rfl (.cons (hother nofun) rfl
    (.cons (hother nofun) rfl trivial))))))))
  -- The row has ended as completed, and the call ends it as failed.
  rintro ⟨i, e, hstep, he, hstatus⟩
  obtain rfl := (Action.step.inj hstep).1
  obtain rfl := Option.some.inj he
  exact absurd hstatus nofun

/-- Two calls that both pass the check on a running run: the update of the second misses, its second read finds
`completed`, and it announces the end of the run again. -/
theorem one_announcement_race :
    ¬ ∀ (s₀ s : State (Option Rat)) (as : List (Action (Option Rat))),
      machine.start s₀ → machine.exec s₀ as = some s →
      OncePerEnd s := by
  intro h
  let row : RunRow := { id := "run", status := .running }
  let uuid : Nat → String := fun n => s!"e{n}"
  let s₀ : State (Option Rat) := ⟨row, 0, [], [], []⟩
  let as : List (Action (Option Rat)) :=
    [.call .completed, .call .completed, .step 0 .check, .step 1 .check,
     .step 0 (.update "10:00"), .step 0 (.emit "10:00" uuid none), .step 0 (.webhook "10:00"),
     .step 1 (.update "10:01"), .step 1 .reread, .step 1 (.emit "10:01" uuid none), .step 1 (.webhook "10:01")]
  have htwice : (machine.exec s₀ as).map (fun t => t.announcements.length) = some 2 := by decide +kernel
  obtain ⟨t, ht, htwo⟩ := Option.map_eq_some_iff.1 htwice
  have honce := (h s₀ t as ⟨rfl, List.forall_mem_nil _, rfl, rfl⟩ ht).1
  omega

end MacpControlPlane.TerminalEvents

import MacpControlPlane.Lib.Callers
import MacpControlPlane.Lib.Machine
import MacpControlPlane.Runs.StreamConsumer

/-!
# Who owns a session handle (`runs/run-executor.service.ts`, `runs/stream-consumer.service.ts`)

`subscribeSession` opens its call at once, so that every handle needs an owner: the set `unownedHandles` of the
executor from the subscription to `start`, and the marker of the consumer from there on.  Any number of `execute`
flows, the consumers, and the two `onModuleDestroy` are steps of one machine.  A handle is a number, in the order of
creation.

`onModuleDestroy` of the executor aborts what is in the set.  A handle that comes into the set after it is dropped by
the flow when `markRunning` returns, and nobody has aborted it.
-/

namespace MacpControlPlane.HandleOwnership

inductive FlowAt where
  /-- `markStarted` and `initialize`. -/
  | starting
  /-- The `getSession` of `pollForOpenSession`. -/
  | polling
  | sleeping
  | binding (alreadyResolved : Bool)
  /-- `markRunning`, with what `subscribeSession` has returned. -/
  | running (handle : Option Nat)
  /-- `start` has been called. -/
  | handing (handle : Option Nat)
  /-- What comes after the hand-over, or `handleExecuteError`. -/
  | ending
  | returned

structure Flow where
  runId : String
  here : FlowAt := .starting

structure Stream where
  runId : String
  handle : Option Nat
  aborted : Bool := false

/-- `aborted` holds the handles whose call is over: `abort` and the `return` of their iterator both end it.  `swept`
tells that the consumer's `onModuleDestroy` has been called. -/
structure State where
  flows : List Flow := []
  created : Nat := 0
  aborted : List Nat := []
  unowned : List Nat := []
  shuttingDown : Bool := false
  active : List Stream := []
  sweeps : Nat := 0
  swept : Bool := false

inductive FlowStep where
  /-- The head of the loop of `pollForOpenSession`. -/
  | poll
  | notOpen
  | opened (alreadyResolved : Bool)
  | failed
  /-- `bindSession` has returned; `subscribed` tells whether `subscribeSession` returns, too. -/
  | bound (subscribed : Bool)
  | marked
  | refused
  | settled
  | ended

inductive ConsumerStep where
  /-- The loop leaves the frames of its subscription, which ends the call. -/
  | disconnected
  | resubscribed
  /-- `finalizeRun`, or the handler of `start`, sets `aborted`. -/
  | finalized
  /-- The loop and its handler have settled. -/
  | finished

inductive Action where
  | launch (runId : String)
  | flow (k : Nat) (step : FlowStep)
  | consumer (j : Nat) (step : ConsumerStep)
  /-- Recovery, or discovery, subscribes and calls `start` at once. -/
  | start (runId : String) (subscribed : Bool)
  | stop (runId : String)
  /-- `RunExecutorService.onModuleDestroy` -/
  | shutdown
  /-- `StreamConsumerService.onModuleDestroy` begins. -/
  | sweep
  | drained

def State.abort (s : State) (handle : Option Nat) : State :=
  { s with aborted := handle.toList ++ s.aborted }

/-- `unownedHandles.delete` -/
def State.delete (s : State) (handle : Option Nat) : State :=
  { s with unowned := s.unowned.filter fun i => some i ≠ handle }

/-- `active.has(runId) || sweeps > 0` -/
def State.refuses (s : State) (runId : String) : Bool :=
  s.active.any (fun stream => stream.runId = runId) || 0 < s.sweeps

def State.start (s : State) (runId : String) (handle : Option Nat) : State :=
  if s.refuses runId then s.abort handle else { s with active := s.active ++ [⟨runId, handle, false⟩] }

def State.move (s : State) (k : Nat) (flow : Flow) (here : FlowAt) : State :=
  { s with flows := s.flows.set k { flow with here } }

def State.flow (s : State) (k : Nat) (flow : Flow) : FlowStep → Option State
  | .poll =>
    match flow.here with
    | .starting | .sleeping => some (s.move k flow (if s.shuttingDown then .returned else .polling))
    | _ => none
  | .notOpen =>
    match flow.here with
    | .polling => some (s.move k flow .sleeping)
    | _ => none
  | .opened alreadyResolved =>
    match flow.here with
    | .polling => some (s.move k flow (.binding alreadyResolved))
    | _ => none
  | .failed =>
    match flow.here with
    | .starting | .polling | .sleeping | .binding _ => some (s.move k flow .ending)
    | _ => none
  | .bound subscribed =>
    match flow.here with
    | .binding alreadyResolved =>
      if alreadyResolved then some (s.move k flow (.running none))
      else if subscribed then
        some ({ s with created := s.created + 1, unowned := s.created :: s.unowned }.move k flow
          (.running (some s.created)))
      else some (s.move k flow .ending)
    | _ => none
  | .marked =>
    match flow.here with
    | .running handle =>
      if s.shuttingDown then some ((s.delete handle).move k flow .returned)
      else some ((s.start flow.runId handle).move k flow (.handing handle))
    | _ => none
  | .refused =>
    match flow.here with
    | .running handle => some (((s.abort handle).delete handle).move k flow .ending)
    | _ => none
  | .settled =>
    match flow.here with
    | .handing handle => some ((s.delete handle).move k flow .ending)
    | _ => none
  | .ended =>
    match flow.here with
    | .ending => some (s.move k flow .returned)
    | _ => none

def State.consumer (s : State) (j : Nat) (stream : Stream) : ConsumerStep → Option State
  | .disconnected => some (s.abort stream.handle)
  | .resubscribed =>
    -- The loop subscribes only after it has left the frames of the last subscription, and only when it is not aborted.
    if stream.aborted = false ∧ stream.handle.any (fun i => decide (i ∈ s.aborted)) then
      some { s with
        created := s.created + 1
        active := s.active.set j { stream with handle := some s.created } }
    else none
  | .finalized => some { s with active := s.active.set j { stream with aborted := true } }
  | .finished =>
    if stream.handle.all fun i => decide (i ∈ s.aborted) then some { s with active := s.active.eraseIdx j } else none

def next (s : State) : Action → Option State
  | .launch runId => some { s with flows := s.flows ++ [{ runId := runId }] }
  | .flow k step => s.flows[k]?.bind fun flow => s.flow k flow step
  | .consumer j step => s.active[j]?.bind fun stream => s.consumer j stream step
  | .start runId subscribed =>
    if subscribed then some ({ s with created := s.created + 1 }.start runId (some s.created))
    else some (s.start runId none)
  | .stop runId =>
    some { s with
      active := s.active.map fun stream => if stream.runId = runId then { stream with aborted := true } else stream }
  | .shutdown => some { s with shuttingDown := true, aborted := s.unowned ++ s.aborted, unowned := [] }
  | .sweep =>
    some { s with
      sweeps := s.sweeps + 1
      swept := true
      active := s.active.map fun stream => { stream with aborted := true }
      aborted := s.active.filterMap Stream.handle ++ s.aborted }
  | .drained => if 0 < s.sweeps then some { s with sweeps := s.sweeps - 1 } else none

def machine : Machine State Action where
  start s := s = {}
  next := next

/-! ### Ownership -/

/-- The handle of a flow between `subscribe` and `start`. -/
def FlowAt.subscribed : FlowAt → Option Nat
  | .running handle => handle
  | _ => none

/-- The handle is aborted, or the marker of an active consumer has it. -/
def State.Held (s : State) (i : Nat) : Prop :=
  i ∈ s.aborted ∨ ∃ stream ∈ s.active, stream.handle = some i

/-- Every handle is held, or is in `unownedHandles` while its flow is between `subscribe` and `start`. -/
def Owned (s : State) : Prop :=
  ∀ i < s.created, s.Held i ∨
    ∃ (k : Nat) (flow : Flow), s.flows[k]? = some flow ∧ flow.here.subscribed = some i ∧ i ∈ s.unowned

/-- Both services are destroyed, and every `execute` has returned. -/
def Over (s : State) : Prop :=
  (∀ flow ∈ s.flows, flow.here = .returned) ∧ s.shuttingDown = true ∧ s.swept = true ∧ s.sweeps = 0

/-- Every handle is aborted, or belongs to a consumer whose marker is. -/
def Released (s : State) : Prop :=
  ∀ i < s.created, i ∈ s.aborted ∨ ∃ stream ∈ s.active, stream.handle = some i ∧ stream.aborted = true

/-- Where `markRunning` returns during a shutdown, the handle of its flow has been aborted: the flow has subscribed
before the shutdown. -/
def SubscribedBefore (s : State) : Action → Prop
  | .flow k .marked =>
    s.shuttingDown = true →
      ∀ (flow : Flow) (i : Nat), s.flows[k]? = some flow → flow.here.subscribed = some i → i ∈ s.aborted
  | _ => True

/-- No handle is handed to a new consumer once the consumers have been swept. -/
def StartedBefore (s : State) : Action → Prop
  | .flow k .marked =>
    s.swept = true → s.shuttingDown = false →
      ∀ (flow : Flow) (i : Nat),
        s.flows[k]? = some flow → flow.here.subscribed = some i → s.refuses flow.runId = true
  | .start runId true => s.swept = true → s.refuses runId = true
  | _ => True

/-! ### The invariant -/

/-- The handle of a flow whose `start` has been called. -/
def FlowAt.handed : FlowAt → Option Nat
  | .handing handle => handle
  | _ => none

/-- Every handle has an owner, and one that a flow has yet to hand over belongs to this flow alone. -/
structure Inv (s : State) : Prop where
  owned : Owned s
  handed : ∀ (k : Nat) (flow : Flow) i, s.flows[k]? = some flow → flow.here.handed = some i → s.Held i
  subscribed_lt : ∀ (k : Nat) (flow : Flow) i, s.flows[k]? = some flow → flow.here.subscribed = some i → i < s.created
  active_lt : ∀ stream ∈ s.active, ∀ i, stream.handle = some i → i < s.created
  distinct : ∀ (j k : Nat) (f g : Flow) i, s.flows[j]? = some f → s.flows[k]? = some g → f.here.subscribed = some i →
    g.here.subscribed = some i → j = k
  apart : ∀ (k : Nat) (flow : Flow) i, s.flows[k]? = some flow → flow.here.subscribed = some i →
    ∀ stream ∈ s.active, stream.handle ≠ some i

section Preservation

variable {s t : State}

private theorem Inv.of_streams (h : Inv s) (hflows : t.flows = s.flows) (hcreated : t.created = s.created)
    (hheld : ∀ i, s.Held i → t.Held i)
    (hactive : ∀ stream ∈ t.active, ∀ i, stream.handle = some i → ∃ stream' ∈ s.active, stream'.handle = some i)
    (hunowned : ∀ i ∈ s.unowned, i ∈ t.unowned ∨ t.Held i) : Inv t where
  owned := by
    intro i hi
    rw [hcreated] at hi
    rcases h.owned i hi with hi | ⟨k, flow, hflow, hsubscribed, hi⟩
    · exact Or.inl (hheld i hi)
    · rcases hunowned i hi with hi | hi
      · exact Or.inr ⟨k, flow, hflows ▸ hflow, hsubscribed, hi⟩
      · exact Or.inl hi
  handed k flow i hflow hi := hheld i (h.handed k flow i (hflows ▸ hflow) hi)
  subscribed_lt k flow i hflow hi := hcreated ▸ h.subscribed_lt k flow i (hflows ▸ hflow) hi
  active_lt stream hstream i hi := by
    obtain ⟨stream', hstream', hi⟩ := hactive stream hstream i hi
    exact hcreated ▸ h.active_lt stream' hstream' i hi
  distinct j k f g i hf hg := h.distinct j k f g i (hflows ▸ hf) (hflows ▸ hg)
  apart k flow i hflow hi stream hstream heq := by
    obtain ⟨stream', hstream', heq⟩ := hactive stream hstream i heq
    exact h.apart k flow i (hflows ▸ hflow) hi stream' hstream' heq

/-- The markers change, but not their handles. -/
theorem Inv.of_map (h : Inv s) {f : Stream → Stream} (hf : ∀ stream, (f stream).handle = stream.handle)
    (handles : List Nat) (sweeps : Nat) (swept : Bool) :
    Inv { s with active := s.active.map f, aborted := handles ++ s.aborted, sweeps, swept } := by
  refine h.of_streams rfl rfl ?_ ?_ (fun _ => Or.inl)
  · rintro i (hi | ⟨stream, hstream, hi⟩)
    · exact Or.inl (List.mem_append_right _ hi)
    · exact Or.inr ⟨f stream, List.mem_map_of_mem hstream, (hf stream).trans hi⟩
  · intro stream hstream i hi
    obtain ⟨stream', hstream', rfl⟩ := List.mem_map.1 hstream
    exact ⟨stream', hstream', (hf stream').symm.trans hi⟩

private theorem Inv.of_created (h : Inv s) (hflows : t.flows = s.flows) (hcreated : t.created = s.created + 1)
    (hunowned : t.unowned = s.unowned) (hheld : ∀ i, s.Held i → t.Held i) (hnew : t.Held s.created)
    (hactive : ∀ stream ∈ t.active, stream.handle = some s.created ∨
      ∃ stream' ∈ s.active, stream'.handle = stream.handle) : Inv t where
  owned := by
    intro i hi
    by_cases hlast : i = s.created
    · exact Or.inl (hlast ▸ hnew)
    · rcases h.owned i (by omega) with hi | ⟨k, flow, hflow, hsubscribed, hi⟩
      · exact Or.inl (hheld i hi)
      · exact Or.inr ⟨k, flow, hflows ▸ hflow, hsubscribed, hunowned ▸ hi⟩
  handed k flow i hflow hi := hheld i (h.handed k flow i (hflows ▸ hflow) hi)
  subscribed_lt k flow i hflow hi := by
    have := h.subscribed_lt k flow i (hflows ▸ hflow) hi
    omega
  active_lt stream hstream i hi := by
    rcases hactive stream hstream with hlast | ⟨stream', hstream', heq⟩
    · have := Option.some.inj (hlast.symm.trans hi)
      omega
    · have := h.active_lt stream' hstream' i (heq.trans hi)
      omega
  distinct j k f g i hf hg := h.distinct j k f g i (hflows ▸ hf) (hflows ▸ hg)
  apart k flow i hflow hi stream hstream := by
    have hlt := h.subscribed_lt k flow i (hflows ▸ hflow) hi
    rcases hactive stream hstream with hlast | ⟨stream', hstream', heq⟩
    · intro hstream'
      have := Option.some.inj (hlast.symm.trans hstream')
      omega
    · exact heq ▸ h.apart k flow i (hflows ▸ hflow) hi stream' hstream'

private theorem Inv.of_flow (h : Inv s) {k : Nat} {flow : Flow} {here : FlowAt} (hflow : s.flows[k]? = some flow)
    (hflows : t.flows = s.flows.set k { flow with here }) (hcreated : t.created = s.created)
    (hheld : ∀ i, s.Held i → t.Held i)
    (hactive : ∀ stream ∈ t.active, stream ∈ s.active ∨ stream.handle = flow.here.subscribed)
    (hhere : here.subscribed = none) (hleaves : ∀ i, flow.here.subscribed = some i → t.Held i)
    (hhanded : ∀ i, here.handed = some i → t.Held i)
    (hunowned : ∀ i ∈ s.unowned, i ∈ t.unowned ∨ t.Held i) : Inv t where
  owned := by
    intro i hi
    rw [hcreated] at hi
    rcases h.owned i hi with hi | ⟨j, other, hother, hsubscribed, hi⟩
    · exact Or.inl (hheld i hi)
    · by_cases hjk : j = k
      · rw [hjk, hflow] at hother
        rw [← Option.some.inj hother] at hsubscribed
        exact Or.inl (hleaves i hsubscribed)
      · rcases hunowned i hi with hi | hi
        · refine Or.inr ⟨j, other, ?_, hsubscribed, hi⟩
          rw [hflows]
          exact Callers.getElem?_set_of_ne (Ne.symm hjk) hother
        · exact Or.inl hi
  handed j other i hother hi := by
    rw [hflows] at hother
    rcases Callers.getElem?_set_cases hother with ⟨-, rfl⟩ | ⟨-, hother⟩
    · exact hhanded i hi
    · exact hheld i (h.handed j other i hother hi)
  subscribed_lt j other i hother hi := by
    rw [hflows] at hother
    rcases Callers.getElem?_set_cases hother with ⟨-, rfl⟩ | ⟨-, hother⟩
    · exact absurd hi (by simp [hhere])
    · exact hcreated ▸ h.subscribed_lt j other i hother hi
  active_lt stream hstream i hi := by
    rcases hactive stream hstream with hold | hnew
    · exact hcreated ▸ h.active_lt stream hold i hi
    · exact hcreated ▸ h.subscribed_lt k flow i hflow (hnew.symm.trans hi)
  distinct j l f g i hf hg hfi hgi := by
    rw [hflows] at hf hg
    rcases Callers.getElem?_set_cases hf with ⟨-, rfl⟩ | ⟨-, hf⟩
    · exact absurd hfi (by simp [hhere])
    · rcases Callers.getElem?_set_cases hg with ⟨-, rfl⟩ | ⟨-, hg⟩
      · exact absurd hgi (by simp [hhere])
      · exact h.distinct j l f g i hf hg hfi hgi
  apart j other i hother hi stream hstream := by
    rw [hflows] at hother
    rcases Callers.getElem?_set_cases hother with ⟨-, rfl⟩ | ⟨hjk, hother⟩
    · exact absurd hi (by simp [hhere])
    · rcases hactive stream hstream with hold | hnew
      · exact h.apart j other i hother hi stream hold
      · intro hstream'
        exact hjk (h.distinct j k other flow i hother hflow hi (hnew.symm.trans hstream'))

private theorem Inv.move (h : Inv s) {k : Nat} {flow : Flow} (hflow : s.flows[k]? = some flow)
    (hsubscribed : flow.here.subscribed = none) {here : FlowAt} (hhere : here.subscribed = none)
    (hhanded : here.handed = none) : Inv (s.move k flow here) := by
  refine h.of_flow hflow rfl rfl (fun _ hi => hi) (fun _ hstream => Or.inl hstream) hhere ?_ ?_
    (fun _ hi => Or.inl hi)
  · exact fun i hi => absurd hi (by simp [hsubscribed])
  · exact fun i hi => absurd hi (by simp [hhanded])

private theorem held_abort (handle : Option Nat) {i : Nat} (hi : s.Held i) : (s.abort handle).Held i :=
  hi.imp_left (List.mem_append_right _)

private theorem held_abort_self {handle : Option Nat} {i : Nat} (hi : handle = some i) : (s.abort handle).Held i := by
  left
  simp [State.abort, hi]

/-- `start` takes the handle, or aborts it. -/
theorem start_spec (s : State) (runId : String) (handle : Option Nat) :
    (s.start runId handle).flows = s.flows ∧ (s.start runId handle).created = s.created ∧
      (s.start runId handle).unowned = s.unowned ∧ (∀ i, s.Held i → (s.start runId handle).Held i) ∧
      (∀ i, handle = some i → (s.start runId handle).Held i) ∧
      ∀ stream ∈ (s.start runId handle).active, stream ∈ s.active ∨ stream.handle = handle := by
  by_cases hrefuses : s.refuses runId = true
  · rw [State.start, if_pos hrefuses]
    exact ⟨rfl, rfl, rfl, fun _ => held_abort handle, fun _ => held_abort_self, fun _ => Or.inl⟩
  · rw [State.start, if_neg hrefuses]
    refine ⟨rfl, rfl, rfl, ?_, ?_, ?_⟩
    · rintro i (hi | ⟨stream, hstream, hi⟩)
      · exact Or.inl hi
      · exact Or.inr ⟨stream, List.mem_append_left _ hstream, hi⟩
    · intro i hi
      exact Or.inr ⟨⟨runId, handle, false⟩, List.mem_append_right _ (List.mem_singleton_self _), hi⟩
    · intro stream hstream
      rcases List.mem_append.1 hstream with hold | hnew
      · exact Or.inl hold
      · exact Or.inr (by rw [List.mem_singleton.1 hnew])

private theorem mem_delete {handle : Option Nat} {i : Nat} (hi : i ∈ s.unowned) :
    i ∈ (s.delete handle).unowned ∨ handle = some i := by
  by_cases heq : some i = handle
  · exact Or.inr heq.symm
  · exact Or.inl (List.mem_filter.2 ⟨hi, by simpa using heq⟩)

private theorem Inv.subscribe (h : Inv s) {k : Nat} {flow : Flow} (hflow : s.flows[k]? = some flow)
    (hsubscribed : flow.here.subscribed = none) :
    Inv ({ s with created := s.created + 1, unowned := s.created :: s.unowned }.move k flow
      (.running (some s.created))) := by
  have hself : (s.flows.set k { flow with here := .running (some s.created) })[k]? =
      some { flow with here := .running (some s.created) } := Callers.getElem?_set_self_of_some hflow
  refine ⟨?_, ?_, ?_, ?_, ?_, ?_⟩
  · intro i hi
    by_cases hlast : i = s.created
    · exact Or.inr ⟨k, _, hself, by rw [hlast]; rfl, by rw [hlast]; exact List.mem_cons_self⟩
    · have hlt : i < s.created := Nat.lt_of_le_of_ne (Nat.le_of_lt_succ hi) hlast
      rcases h.owned i hlt with hheld | ⟨j, other, hother, hother', hunowned⟩
      · exact Or.inl hheld
      · have hjk : j ≠ k := by
          rintro rfl
          rw [hflow] at hother
          rw [← Option.some.inj hother, hsubscribed] at hother'
          exact absurd hother' (by simp)
        refine Or.inr ⟨j, other, Callers.getElem?_set_of_ne hjk.symm hother, hother', ?_⟩
        exact List.mem_cons_of_mem _ hunowned
  · intro j other i hother hi
    rcases Callers.getElem?_set_cases hother with ⟨-, rfl⟩ | ⟨-, hother⟩
    · exact absurd hi (by simp [FlowAt.handed])
    · exact h.handed j other i hother hi
  · intro j other i hother hi
    rcases Callers.getElem?_set_cases hother with ⟨-, rfl⟩ | ⟨-, hother⟩
    · rw [← Option.some.inj hi]
      exact Nat.lt_succ_self _
    · exact Nat.lt_succ_of_lt (h.subscribed_lt j other i hother hi)
  · exact fun stream hstream i hi => Nat.lt_succ_of_lt (h.active_lt stream hstream i hi)
  · intro j l f g i hf hg hfi hgi
    rcases Callers.getElem?_set_cases hf with ⟨hjk, rfl⟩ | ⟨-, hf⟩ <;>
      rcases Callers.getElem?_set_cases hg with ⟨hlk, rfl⟩ | ⟨-, hg⟩
    · rw [hjk, hlk]
    · have hlt := h.subscribed_lt l g i hg hgi
      rw [← Option.some.inj hfi] at hlt
      exact absurd hlt (Nat.lt_irrefl _)
    · have hlt := h.subscribed_lt j f i hf hfi
      rw [← Option.some.inj hgi] at hlt
      exact absurd hlt (Nat.lt_irrefl _)
    · exact h.distinct j l f g i hf hg hfi hgi
  · intro j other i hother hi stream hstream
    rcases Callers.getElem?_set_cases hother with ⟨-, rfl⟩ | ⟨-, hother⟩
    · intro hstream'
      have hlt := h.active_lt stream hstream i hstream'
      rw [← Option.some.inj hi] at hlt
      exact absurd hlt (Nat.lt_irrefl _)
    · exact h.apart j other i hother hi stream hstream

/-- A step of a flow; during a shutdown, `markRunning` returns only to a flow that has subscribed before. -/
theorem Inv.flow (h : Inv s) {k : Nat} {flow : Flow} (hflow : s.flows[k]? = some flow) {step : FlowStep}
    (hbefore : SubscribedBefore s (.flow k step)) (hnext : s.flow k flow step = some t) : Inv t := by
  have hnone : ∀ {here : FlowAt}, flow.here = here → here.subscribed = none → flow.here.subscribed = none :=
    fun hhere hsubscribed => hhere ▸ hsubscribed
  cases step with
  | poll =>
    simp only [State.flow] at hnext
    split at hnext
    · rename_i hhere
      rw [← Option.some.inj hnext]
      apply h.move hflow (hnone hhere rfl) <;> split_ifs <;> rfl
    · rename_i hhere
      rw [← Option.some.inj hnext]
      apply h.move hflow (hnone hhere rfl) <;> split_ifs <;> rfl
    · exact absurd hnext (by simp)
  | notOpen | opened alreadyResolved | ended =>
    simp only [State.flow] at hnext
    split at hnext
    · rename_i hhere
      rw [← Option.some.inj hnext]
      exact h.move hflow (hnone hhere rfl) rfl rfl
    · exact absurd hnext (by simp)
  | failed =>
    have hhere : flow.here.subscribed = none ∧ s.move k flow .ending = t := by
      simp only [State.flow] at hnext
      cases hhere : flow.here with
      | starting | polling | sleeping | binding => exact ⟨rfl, by simpa [hhere] using hnext⟩
      | _ => exact absurd hnext (by simp [hhere])
    rw [← hhere.2]
    exact h.move hflow hhere.1 rfl rfl
  | bound subscribed =>
    simp only [State.flow] at hnext
    split at hnext
    · rename_i hhere
      split_ifs at hnext <;> rw [← Option.some.inj hnext]
      · exact h.move hflow (hnone hhere rfl) rfl rfl
      · exact h.subscribe hflow (hnone hhere rfl)
      · exact h.move hflow (hnone hhere rfl) rfl rfl
    · exact absurd hnext (by simp)
  | marked =>
    simp only [State.flow] at hnext
    split at hnext
    · rename_i handle hhere
      have hhandle : flow.here.subscribed = handle := by rw [hhere]; rfl
      split_ifs at hnext with hshutting <;> rw [← Option.some.inj hnext]
      · -- The flow has subscribed before the shutdown, which has aborted its handle.
        have haborted : ∀ i, handle = some i → i ∈ s.aborted :=
          fun i hi => hbefore hshutting flow i hflow (hhandle.trans hi)
        refine h.of_flow hflow rfl rfl (fun _ hi => hi) (fun _ => Or.inl) rfl ?_ ?_ ?_
        · exact fun i hi => Or.inl (haborted i (hhandle.symm.trans hi))
        · exact fun i hi => absurd hi (by simp [FlowAt.handed])
        · exact fun i hi => (mem_delete hi).imp_right fun heq => Or.inl (haborted i heq)
      · -- `start` has the handle now, while `unownedHandles` has it still.
        obtain ⟨hflows, hcreated, hunowned, hheld, hnew, hactive⟩ := start_spec s flow.runId handle
        have hset : ((s.start flow.runId handle).move k flow (.handing handle)).flows =
            s.flows.set k { flow with here := .handing handle } := congrArg (List.set · k _) hflows
        refine h.of_flow hflow hset hcreated hheld ?_ rfl ?_ hnew ?_
        · exact fun stream hstream => (hactive stream hstream).imp_right fun heq => heq.trans hhandle.symm
        · exact fun i hi => hnew i (hhandle.symm.trans hi)
        · exact fun i hi => Or.inl (hunowned.symm ▸ hi)
    · exact absurd hnext (by simp)
  | refused =>
    simp only [State.flow] at hnext
    split at hnext
    · rename_i handle hhere
      have hhandle : flow.here.subscribed = handle := by rw [hhere]; rfl
      rw [← Option.some.inj hnext]
      refine h.of_flow hflow rfl rfl (fun _ => held_abort handle) (fun _ => Or.inl) rfl ?_ ?_ ?_
      · exact fun i hi => held_abort_self (hhandle.symm.trans hi)
      · exact fun i hi => absurd hi (by simp [FlowAt.handed])
      · exact fun i hi => (mem_delete (s := s.abort handle) hi).imp_right held_abort_self
    · exact absurd hnext (by simp)
  | settled =>
    simp only [State.flow] at hnext
    split at hnext
    · rename_i handle hhere
      rw [← Option.some.inj hnext]
      refine h.of_flow hflow rfl rfl (fun _ hi => hi) (fun _ => Or.inl) rfl ?_ ?_ ?_
      · exact fun i hi => absurd hi (by simp [hhere, FlowAt.subscribed])
      · exact fun i hi => absurd hi (by simp [FlowAt.handed])
      · exact fun i hi => (mem_delete hi).imp_right fun heq => h.handed k flow i hflow (by rw [hhere]; exact heq)
    · exact absurd hnext (by simp)

private theorem Inv.consumer (h : Inv s) {j : Nat} {stream : Stream} (hstream : s.active[j]? = some stream)
    {step : ConsumerStep} (hnext : s.consumer j stream step = some t) : Inv t := by
  have hmem : stream ∈ s.active := List.mem_of_getElem? hstream
  cases step with
  | disconnected =>
    rw [← Option.some.inj hnext]
    refine h.of_streams rfl rfl (fun _ => held_abort _) (fun other hother i hi => ⟨other, hother, hi⟩) ?_
    exact fun _ => Or.inl
  | resubscribed =>
    simp only [State.consumer] at hnext
    split_ifs at hnext with hif
    obtain ⟨i, hi, haborted⟩ := (Option.any_eq_true _ _).1 hif.2
    rw [← Option.some.inj hnext]
    refine h.of_created rfl rfl rfl ?_ ?_ ?_
    · -- What the marker has had before is aborted.
      rintro i' (hi' | ⟨other, hother, hi'⟩)
      · exact Or.inl hi'
      · rcases Callers.mem_set_or_eq hstream hother { stream with handle := some s.created } with hother | rfl
        · exact Or.inr ⟨other, hother, hi'⟩
        · left
          rw [hi] at hi'
          rw [← Option.some.inj hi']
          simpa using haborted
    · exact Or.inr ⟨_, Callers.mem_set_self hstream _, rfl⟩
    · intro other hother
      rcases List.mem_or_eq_of_mem_set hother with hold | rfl
      · exact Or.inr ⟨other, hold, rfl⟩
      · exact Or.inl rfl
  | finalized =>
    rw [← Option.some.inj hnext]
    refine h.of_streams rfl rfl ?_ ?_ (fun _ => Or.inl)
    · rintro i (hi | ⟨other, hother, hi⟩)
      · exact Or.inl hi
      · rcases Callers.mem_set_or_eq hstream hother { stream with aborted := true } with hother | rfl
        · exact Or.inr ⟨other, hother, hi⟩
        · exact Or.inr ⟨_, Callers.mem_set_self hstream _, hi⟩
    · intro other hother i hi
      rcases List.mem_or_eq_of_mem_set hother with hold | rfl
      · exact ⟨other, hold, hi⟩
      · exact ⟨stream, hmem, hi⟩
  | finished =>
    simp only [State.consumer] at hnext
    split_ifs at hnext with haborted
    rw [← Option.some.inj hnext]
    refine h.of_streams rfl rfl ?_ (fun other hother i hi => ⟨other, List.mem_of_mem_eraseIdx hother, hi⟩)
      (fun _ => Or.inl)
    rintro i (hi | ⟨other, hother, hi⟩)
    · exact Or.inl hi
    · rcases Callers.mem_eraseIdx_or_eq hstream hother with hother | rfl
      · exact Or.inr ⟨other, hother, hi⟩
      · left
        simpa [hi] using haborted

/-- One step keeps the invariant, where `markRunning` returns during a shutdown only to flows that have subscribed
before it. -/
theorem Inv.next (h : Inv s) {a : Action} (hbefore : SubscribedBefore s a)
    (hnext : HandleOwnership.next s a = some t) : Inv t := by
  cases a with
  | launch runId =>
    rw [← Option.some.inj hnext]
    have hnew : ∀ {k : Nat} {flow : Flow} {i : Nat}, (s.flows ++ [{ runId := runId }])[k]? = some flow →
        (flow.here.subscribed = some i ∨ flow.here.handed = some i) → s.flows[k]? = some flow := by
      intro k flow i hflow hi
      rcases Callers.getElem?_concat_cases hflow with ⟨-, rfl⟩ | hold
      · exact absurd hi (by simp [FlowAt.subscribed, FlowAt.handed])
      · exact hold
    refine ⟨?_, ?_, ?_, h.active_lt, ?_, ?_⟩
    · intro i hi
      rcases h.owned i hi with hi | ⟨k, flow, hflow, hi, hunowned⟩
      · exact Or.inl hi
      · exact Or.inr ⟨k, flow, Callers.getElem?_concat_of_some hflow, hi, hunowned⟩
    · exact fun k flow i hflow hi => h.handed k flow i (hnew hflow (Or.inr hi)) hi
    · exact fun k flow i hflow hi => h.subscribed_lt k flow i (hnew hflow (Or.inl hi)) hi
    · exact fun j k f g i hf hg hfi hgi =>
        h.distinct j k f g i (hnew hf (Or.inl hfi)) (hnew hg (Or.inl hgi)) hfi hgi
    · exact fun k flow i hflow hi => h.apart k flow i (hnew hflow (Or.inl hi)) hi
  | flow k step =>
    obtain ⟨flow, hflow, hstep⟩ := Option.bind_eq_some_iff.1 hnext
    exact h.flow hflow hbefore hstep
  | consumer j step =>
    obtain ⟨stream, hstream, hstep⟩ := Option.bind_eq_some_iff.1 hnext
    exact h.consumer hstream hstep
  | start runId subscribed =>
    cases subscribed with
    | true =>
      rw [← Option.some.inj hnext]
      obtain ⟨hflows, hcreated, hunowned, hheld, hnew, hactive⟩ :=
        start_spec { s with created := s.created + 1 } runId (some s.created)
      refine h.of_created hflows hcreated hunowned hheld (hnew s.created rfl) fun stream hstream => ?_
      exact (hactive stream hstream).symm.imp_right fun hold => ⟨stream, hold, rfl⟩
    | false =>
      rw [← Option.some.inj hnext]
      obtain ⟨hflows, hcreated, hunowned, hheld, -, hactive⟩ := start_spec s runId none
      refine h.of_streams hflows hcreated hheld ?_ (fun i hi => Or.inl (hunowned.symm ▸ hi))
      intro stream hstream i hi
      rcases hactive stream hstream with hold | hnew
      · exact ⟨stream, hold, hi⟩
      · exact absurd (hnew.symm.trans hi) (by simp)
  | stop runId =>
    rw [← Option.some.inj hnext]
    refine h.of_map (fun stream => ?_) [] s.sweeps s.swept
    split_ifs <;> rfl
  | shutdown =>
    -- The executor aborts the handles in `unownedHandles`.
    rw [← Option.some.inj hnext]
    refine h.of_streams rfl rfl (fun i hi => hi.imp_left (List.mem_append_right _))
      (fun stream hstream i hi => ⟨stream, hstream, hi⟩) ?_
    exact fun i hi => Or.inr (Or.inl (List.mem_append_left _ hi))
  | sweep =>
    rw [← Option.some.inj hnext]
    exact h.of_map (f := fun stream => { stream with aborted := true }) (fun _ => rfl) _ _ _
  | drained =>
    simp only [HandleOwnership.next] at hnext
    split_ifs at hnext
    rw [← Option.some.inj hnext]
    exact h.of_streams rfl rfl (fun _ hi => hi) (fun stream hstream i hi => ⟨stream, hstream, hi⟩) (fun _ => Or.inl)

/-- Where `markRunning` returns to a flow that has subscribed during the shutdown, the handle has no owner any more. -/
theorem Inv.not_owned (h : Inv s) {a : Action} (hnext : HandleOwnership.next s a = some t)
    (howned : Owned t) : SubscribedBefore s a := by
  cases a with
  | flow k step =>
    cases step with
    | marked =>
      intro hshutting flow i hflow hi
      obtain ⟨handle, hhere⟩ : ∃ handle, flow.here = .running handle := by
        cases hhere : flow.here with
        | running handle => exact ⟨handle, rfl⟩
        | _ => exact absurd hi (by simp [hhere, FlowAt.subscribed])
      have hhandle : handle = some i := by simpa [hhere, FlowAt.subscribed] using hi
      have ht : (s.delete handle).move k flow .returned = t := by
        simpa [HandleOwnership.next, hflow, State.flow, hhere, hshutting] using hnext
      subst ht
      rcases howned i (h.subscribed_lt k flow i hflow hi) with
        (haborted | ⟨stream, hstream, heq⟩) | ⟨j, other, hother, hi', -⟩
      · exact haborted
      · exact absurd heq (h.apart k flow i hflow hi stream hstream)
      · rcases Callers.getElem?_set_cases hother with ⟨-, rfl⟩ | ⟨hjk, hother⟩
        · exact absurd hi' (by simp [FlowAt.subscribed])
        · exact absurd (h.distinct j k other flow i hother hflow hi' hi) hjk
    | _ => trivial
  | _ => trivial

/-! ### After both `onModuleDestroy` -/

/-- Once the consumers have been swept, every marker with a handle is aborted. -/
def Swept (s : State) : Prop :=
  s.swept = true → ∀ stream ∈ s.active, stream.handle.isSome = true → stream.aborted = true

private theorem Swept.of_active (h : Swept s) (hswept : t.swept = s.swept) (hactive : t.active = s.active) :
    Swept t := by
  unfold Swept
  rw [hswept, hactive]
  exact h

private theorem Swept.start (h : Swept s) {runId : String} {handle : Option Nat}
    (hrefuses : s.swept = true → handle.isSome = true → s.refuses runId = true) : Swept (s.start runId handle) := by
  by_cases hif : s.refuses runId = true
  · rw [State.start, if_pos hif]
    exact h
  · rw [State.start, if_neg hif]
    intro hswept stream hstream hsome
    rcases List.mem_append.1 hstream with hold | hnew
    · exact h hswept stream hold hsome
    · rw [List.mem_singleton.1 hnew] at hsome
      exact absurd (hrefuses hswept hsome) hif

private theorem Swept.flow (h : Swept s) {k : Nat} {flow : Flow} (hflow : s.flows[k]? = some flow) {step : FlowStep}
    (hstarted : StartedBefore s (.flow k step)) (hnext : s.flow k flow step = some t) : Swept t := by
  cases step with
  | marked =>
    simp only [State.flow] at hnext
    split at hnext
    · rename_i handle hhere
      split_ifs at hnext with hshutting <;> rw [← Option.some.inj hnext]
      · exact h
      · have hstart : Swept (s.start flow.runId handle) := by
          refine h.start fun hswept hsome => ?_
          obtain ⟨i, hi⟩ := Option.isSome_iff_exists.1 hsome
          exact hstarted hswept (by simpa using hshutting) flow i hflow (by rw [hhere]; exact hi)
        exact hstart.of_active rfl rfl
    · exact absurd hnext (by simp)
  | bound subscribed =>
    simp only [State.flow] at hnext
    split at hnext
    · split_ifs at hnext <;> rw [← Option.some.inj hnext] <;> exact h
    · exact absurd hnext (by simp)
  | poll | notOpen | opened | failed | refused | settled | ended =>
    simp only [State.flow] at hnext
    split at hnext <;> first | (rw [← Option.some.inj hnext]; exact h) | exact absurd hnext (by simp)

private theorem Swept.consumer (h : Swept s) {j : Nat} {stream : Stream} (hstream : s.active[j]? = some stream)
    {step : ConsumerStep} (hnext : s.consumer j stream step = some t) : Swept t := by
  have hmem : stream ∈ s.active := List.mem_of_getElem? hstream
  cases step with
  | disconnected =>
    rw [← Option.some.inj hnext]
    exact h
  | resubscribed =>
    simp only [State.consumer] at hnext
    split_ifs at hnext with hif
    rw [← Option.some.inj hnext]
    intro hswept other hother hsome
    rcases List.mem_or_eq_of_mem_set hother with hold | rfl
    · exact h hswept other hold hsome
    · have hhandle : stream.handle.isSome = true := by
        obtain ⟨i, hi, -⟩ := (Option.any_eq_true _ _).1 hif.2
        rw [hi]
        rfl
      exact absurd (h hswept stream hmem hhandle) (by simp [hif.1])
  | finalized =>
    rw [← Option.some.inj hnext]
    intro hswept other hother hsome
    rcases List.mem_or_eq_of_mem_set hother with hold | rfl
    · exact h hswept other hold hsome
    · rfl
  | finished =>
    simp only [State.consumer] at hnext
    split_ifs at hnext
    rw [← Option.some.inj hnext]
    exact fun hswept other hother => h hswept other (List.mem_of_mem_eraseIdx hother)

private theorem Swept.next (h : Swept s) {a : Action} (hstarted : StartedBefore s a)
    (hnext : HandleOwnership.next s a = some t) : Swept t := by
  cases a with
  | launch runId =>
    rw [← Option.some.inj hnext]
    exact h
  | flow k step =>
    obtain ⟨flow, hflow, hstep⟩ := Option.bind_eq_some_iff.1 hnext
    exact h.flow hflow hstarted hstep
  | consumer j step =>
    obtain ⟨stream, hstream, hstep⟩ := Option.bind_eq_some_iff.1 hnext
    exact h.consumer hstream hstep
  | start runId subscribed =>
    cases subscribed with
    | true =>
      rw [← Option.some.inj hnext]
      have hcreated : Swept { s with created := s.created + 1 } := h
      exact hcreated.start fun hswept _ => hstarted hswept
    | false =>
      rw [← Option.some.inj hnext]
      exact h.start fun _ hsome => absurd hsome (by simp)
  | stop runId =>
    rw [← Option.some.inj hnext]
    intro hswept stream hstream hsome
    obtain ⟨stream', hstream', rfl⟩ := List.mem_map.1 hstream
    split_ifs at hsome ⊢
    · rfl
    · exact h hswept stream' hstream' hsome
  | shutdown =>
    rw [← Option.some.inj hnext]
    exact h
  | sweep =>
    rw [← Option.some.inj hnext]
    intro _ stream hstream _
    obtain ⟨stream', -, rfl⟩ := List.mem_map.1 hstream
    rfl
  | drained =>
    simp only [HandleOwnership.next] at hnext
    split_ifs at hnext
    rw [← Option.some.inj hnext]
    exact h

/-- Where every flow has returned, what is not aborted belongs to a consumer. -/
theorem Inv.released (h : Inv s) (hswept : Swept s) (hover : Over s) : Released s := by
  intro i hi
  rcases h.owned i hi with (haborted | ⟨stream, hstream, heq⟩) | ⟨k, flow, hflow, hsubscribed, -⟩
  · exact Or.inl haborted
  · exact Or.inr ⟨stream, hstream, heq, hswept hover.2.2.1 stream hstream (by rw [heq]; rfl)⟩
  · rw [hover.1 flow (List.mem_of_getElem? hflow)] at hsubscribed
    exact absurd hsubscribed (by simp [FlowAt.subscribed])

private theorem inv_start : Inv {} := by
  refine ⟨?_, ?_, ?_, ?_, ?_, ?_⟩
  · exact fun i hi => absurd hi (Nat.not_lt_zero i)
  · exact fun k flow i hflow => absurd hflow (by simp)
  · exact fun k flow i hflow => absurd hflow (by simp)
  · exact fun stream hstream => absurd hstream (by simp)
  · exact fun j k f g i hf => absurd hf (by simp)
  · exact fun k flow i hflow => absurd hflow (by simp)

/-- Every handle has an owner all along exactly when `markRunning` returns during a shutdown only to flows that have
subscribed before it.  When, in addition, no handle is handed to a new consumer after the sweep, everything is released
once both services are destroyed and all flows have returned. -/
theorem handles_owned_iff {s₀ : State} {as : List Action} (hstart : machine.start s₀)
    (h : machine.exec s₀ as = some s) :
    ((∀ bs t, bs <+: as → machine.exec s₀ bs = some t → Owned t) ↔ machine.Throughout SubscribedBefore s₀ as) ∧
      (machine.Throughout SubscribedBefore s₀ as → machine.Throughout StartedBefore s₀ as → Over s → Released s) := by
  obtain rfl : s₀ = {} := hstart
  constructor
  · refine Machine.throughout_iff_of_step (fun _ h => h.owned) ?_ inv_start h
    exact fun s a t hs hnext => ⟨hs.not_owned hnext, fun hbefore => hs.next hbefore hnext⟩
  · intro hbefore hstarted hover
    have hinv : Inv s := hbefore.invariant (fun _ _ _ hs hP hnext => hs.next hP hnext) inv_start h
    have hswept : Swept s :=
      hstarted.invariant (fun _ _ _ hs hP hnext => hs.next hP hnext) (fun hswept => absurd hswept (by simp)) h
    exact hinv.released hswept hover

/-- A flow that subscribes, and hands its handle over, before the two services are destroyed. -/
theorem handles_owned_handed :
    let as : List Action :=
      [.launch "run", .flow 0 .poll, .flow 0 (.opened false), .flow 0 (.bound true), .flow 0 .marked, .flow 0 .settled,
       .flow 0 .ended, .shutdown, .sweep, .drained]
    ∃ s, machine.exec {} as = some s ∧ (∀ bs t, bs <+: as → machine.exec {} bs = some t → Owned t) ∧ Over s ∧
      Released s := by
  intro as
  obtain ⟨s, hs, hover⟩ : ∃ s, machine.exec {} as = some s ∧ Over s := by
    refine ⟨_, rfl, ?_, rfl, rfl, rfl⟩
    intro flow hflow
    rw [List.mem_singleton.1 hflow]
  have hbefore : machine.Throughout SubscribedBefore {} as := by
    refine .cons trivial rfl (.cons trivial rfl (.cons trivial rfl (.cons trivial rfl (.cons ?_ rfl ?_))))
    · exact fun hshutting => absurd hshutting (by decide)
    · exact .cons trivial rfl (.cons trivial rfl (.cons trivial rfl (.cons trivial rfl (.cons trivial rfl trivial))))
  have hstarted : machine.Throughout StartedBefore {} as := by
    refine .cons trivial rfl (.cons trivial rfl (.cons trivial rfl (.cons trivial rfl (.cons ?_ rfl ?_))))
    · exact fun hswept => absurd hswept (by decide)
    · exact .cons trivial rfl (.cons trivial rfl (.cons trivial rfl (.cons trivial rfl (.cons trivial rfl trivial))))
  obtain ⟨howned, hreleased⟩ := handles_owned_iff rfl hs
  exact ⟨s, hs, howned.2 hbefore, hover, hreleased hbefore hstarted hover⟩

/-- A flow that subscribes after the executor has been destroyed: `markRunning` returns, the flow returns, and its
handle is left open. -/
theorem handles_owned_late :
    ¬ ∀ (as : List Action) (s : State), machine.exec {} as = some s →
      (∀ bs t, bs <+: as → machine.exec {} bs = some t → Owned t) ∧ (Over s → Released s) := by
  intro h
  let as : List Action :=
    [.launch "run", .flow 0 .poll, .flow 0 (.opened false), .shutdown, .sweep, .flow 0 (.bound true), .flow 0 .marked,
     .drained]
  obtain ⟨s, hs, hover, hcreated, haborted, hactive⟩ :
      ∃ s, machine.exec {} as = some s ∧ Over s ∧ s.created = 1 ∧ s.aborted = [] ∧ s.active = [] := by
    refine ⟨_, rfl, ⟨?_, rfl, rfl, rfl⟩, rfl, rfl, rfl⟩
    intro flow hflow
    rw [List.mem_singleton.1 hflow]
  rcases (h as s hs).2 hover 0 (by omega) with hi | ⟨stream, hstream, -⟩
  · exact absurd hi (by simp [haborted])
  · exact absurd hstream (by simp [hactive])

end Preservation

end MacpControlPlane.HandleOwnership

import MacpControlPlane.Lib.Callers
import MacpControlPlane.Lib.Machine
import MacpControlPlane.Lib.Promises
import MacpControlPlane.Projection.Store

/-!
# The projection queue (`applyLocks` of `projection/projection.service.ts`)

`applyAndPersist` chains its work on the promise that `applyLocks` holds for the run, and stores `next.finally(…)`
there. The callback of `finally` compares the stored promise with `next`, which is another object, so the entry is
never deleted; and a rejected promise stays the head of the chain, so every later call of the run is rejected without
running.
-/

namespace MacpControlPlane.ApplyQueue

open Js Promises

variable {N : Type} [JsNumber N]

/-- The promises that call `i` creates: `Promise.resolve()`, `prior.then(…)`, `next.finally(…)` and the one it
returns. The promise of the async callback is adopted by `next` as soon as the callback is called, so the two are one
here. -/
inductive Id where
  | resolved (i : Nat)
  | next (i : Nat)
  | fin (i : Nat)
  | ret (i : Nat)
  deriving DecidableEq, Repr

/-- Where the callback of a call is. -/
inductive Phase (N : Type) where
  /-- It has not been called. -/
  | waiting
  /-- Between `get` and `upsert`, with the row that was read. -/
  | loaded (row : Option (ProjectionRow N))
  /-- It has run to its end, or thrown. -/
  | executed
  /-- It will not be called: `prior` was rejected. -/
  | skipped

/-- A call of `applyAndPersist`, with what its own load and its own upsert do when they are executed. -/
structure Call (N : Type) where
  runId : String
  events : List (CanonicalEvent N)
  load : Except String (Option (ProjectionRow N))
  upsert : Except String Unit
  prior : Id
  phase : Phase N := .waiting

/-- What the load and the upsert of the call lead to when they are executed. -/
def Call.outcome (c : Call N) : Except String (RunStateProjection N) :=
  match c.load, c.upsert with
  | .ok row, .ok () => .ok (ProjectionService.applyAndPersist c.runId c.events row).1
  | .ok _, .error e => .error e
  | .error e, _ => .error e

/-- The promises, `applyLocks`, and the calls. -/
structure State (N : Type) where
  heap : Heap Id String (Option (RunStateProjection N))
  locks : String → Option Id
  calls : List (Call N)

/-- The steps of a call after `applyAndPersist` has reached its first await point. -/
inductive Step where
  /-- The callback starts, and its load is executed. -/
  | load
  /-- The upsert is executed. -/
  | upsert
  /-- `next` is rejected because `prior` was. -/
  | skip
  /-- The callback of `finally`. -/
  | release
  /-- The promise that the call has returned is settled. -/
  | settle

/-- What can happen next. -/
inductive Action (N : Type) where
  /-- A call of `applyAndPersist`, up to its first await point. -/
  | call (runId : String) (events : List (CanonicalEvent N)) (load : Except String (Option (ProjectionRow N)))
      (upsert : Except String Unit)
  /-- Call `i` takes its next step. -/
  | step (i : Nat) (step : Step)

/-- Call `i` moves on to another phase. -/
def State.move (s : State N) (i : Nat) (c : Call N) (phase : Phase N) : State N :=
  { s with calls := s.calls.set i { c with phase } }

/-- `next` of call `i` is settled. -/
def State.settleNext (s : State N) (i : Nat) (r : Except String (Option (RunStateProjection N))) : State N :=
  { s with heap := s.heap.settle (.next i) r }

/-- `applyAndPersist`, up to its first await point. -/
def State.call (s : State N) (runId : String) (events : List (CanonicalEvent N))
    (load : Except String (Option (ProjectionRow N))) (upsert : Except String Unit) : State N :=
  let i := s.calls.length
  let prior := (s.locks runId).getD (.resolved i)
  let heap :=
    if (s.locks runId).isSome then s.heap
    else (s.heap.create (.resolved i) .value).settle (.resolved i) (.ok none)
  { heap := ((heap.create (.next i) (.onFulfilled prior)).create (.fin i) (.onSettled (.next i))).create (.ret i)
      (.adopts (.next i))
    locks := Function.update s.locks runId (some (.fin i))
    calls := s.calls ++ [{ runId, events, load, upsert, prior }] }

/-- `if (this.applyLocks.get(runId) === next) this.applyLocks.delete(runId)` -/
def State.release (s : State N) (i : Nat) (runId : String) : State N :=
  if s.locks runId = some (.next i) then { s with locks := Function.update s.locks runId none } else s

/-- A step of call `i`. -/
def State.step (s : State N) (i : Nat) (c : Call N) : Step → Option (State N)
  | .load =>
    match c.phase, s.heap.result c.prior with
    | .waiting, some (.ok _) =>
      match c.load with
      | .ok row => some (s.move i c (.loaded row))
      | .error e => some ((s.settleNext i (.error e)).move i c .executed)
    | _, _ => none
  | .upsert =>
    match c.phase with
    | .loaded row =>
      match c.upsert with
      | .ok () =>
        some ((s.settleNext i (.ok (some
          (ProjectionService.applyAndPersist c.runId c.events row).1))).move i c .executed)
      | .error e => some ((s.settleNext i (.error e)).move i c .executed)
    | _ => none
  | .skip =>
    match c.phase, s.heap.result c.prior with
    | .waiting, some (.error e) => some ((s.settleNext i (.error e)).move i c .skipped)
    | _, _ => none
  | .release =>
    match s.heap.result (.next i), s.heap.result (.fin i) with
    | some r, none =>
      let s' := s.release i c.runId
      some { s' with heap := s'.heap.settle (.fin i) r }
    | _, _ => none
  | .settle =>
    match s.heap.result (.next i), s.heap.result (.ret i) with
    | some r, none => some { s with heap := s.heap.settle (.ret i) r }
    | _, _ => none

/-- A new call, or a step of one of the calls. -/
def next (s : State N) : Action N → Option (State N)
  | .call runId events load upsert => some (s.call runId events load upsert)
  | .step i a => s.calls[i]?.bind fun c => s.step i c a

/-- Any calls for any runs, with any of their loads and upserts failing. -/
def machine : Machine (State N) (Action N) where
  start s :=
    s.heap.source = (fun _ => none) ∧ s.heap.result = (fun _ => none) ∧ s.locks = (fun _ => none) ∧ s.calls = []
  next := next

/-! ### The property -/

/-- No step of a call is left. -/
def Quiescent (s : State N) : Prop :=
  ∀ i a, next s (.step i a) = none

/-- Every call whose own load and upsert succeed has executed them, and its promise is fulfilled with the result. -/
def EachExecuted (s : State N) : Prop :=
  ∀ (i : Nat) (c : Call N) (p : RunStateProjection N), s.calls[i]? = some c → c.outcome = .ok p →
    c.phase = .executed ∧ s.heap.result (.ret i) = some (.ok (some p))

/-- When the callback of a call has started, the callbacks of the earlier calls of the run are over. -/
def InOrder (s : State N) : Prop :=
  ∀ (i j : Nat) (c d : Call N), i < j → s.calls[i]? = some c → s.calls[j]? = some d → c.runId = d.runId →
    (∃ row, d.phase = .loaded row) ∨ d.phase = .executed → c.phase = .executed ∨ c.phase = .skipped

/-- No promise but a returned one is rejected without a handler. -/
def NoUnhandled (s : State N) : Prop :=
  ∀ p e, s.heap.result p = some (.error e) → (∀ i, p ≠ .ret i) → s.heap.Handled p

/-- The four parts together, for a state in which nothing is left to do. -/
def Isolated (s : State N) : Prop :=
  EachExecuted s ∧ InOrder s ∧ (∀ runId, s.locks runId = none) ∧ NoUnhandled s

/-- No call that would succeed comes after one of the same run that fails. -/
def NoFailureBefore (s : State N) : Prop :=
  ∀ (i j : Nat) (c d : Call N), i < j → s.calls[i]? = some c → s.calls[j]? = some d → c.runId = d.runId →
    d.outcome.isOk = true → c.outcome.isOk = true

/-- No call fails. -/
def NoFailure (s : State N) : Prop :=
  ∀ (i : Nat) (c : Call N), s.calls[i]? = some c → c.outcome.isOk = true

/-! ### The invariant -/

/-- The runs of the calls. -/
def State.runIds (s : State N) : List String := s.calls.map (·.runId)

/-- The promises that the calls were chained on. -/
def State.priors (s : State N) : List Id := s.calls.map (·.prior)

/-- The source of every promise, from what the calls were chained on. -/
def sourceOf (priors : List Id) : Id → Option (Source Id)
  | .resolved i => if priors[i]? = some (.resolved i) then some .value else none
  | .next i => priors[i]?.map .onFulfilled
  | .fin i => priors[i]?.map fun _ => .onSettled (.next i)
  | .ret i => priors[i]?.map fun _ => .adopts (.next i)

/-- Call `i` is chained on the promise of the previous call of its run, or on a fulfilled one if it is the first. -/
def Call.Chained (result : Id → Option (Except String (Option (RunStateProjection N))))
    (runIds : List String) (i : Nat)
    (c : Call N) : Prop :=
  c.prior = .resolved i ∧ (∃ v, result (.resolved i) = some (.ok v)) ∧ (∀ m < i, runIds[m]? ≠ some c.runId) ∨
    ∃ k < i, c.prior = .fin k ∧ runIds[k]? = some c.runId ∧ ∀ m < i, k < m → runIds[m]? ≠ some c.runId

/-- What holds of call `i`, given the results there are and the runs of the calls. -/
structure Call.Ok (result : Id → Option (Except String (Option (RunStateProjection N))))
    (runIds : List String) (i : Nat)
    (c : Call N) : Prop where
  prior : c.Chained result runIds i
  waiting : c.phase = .waiting → result (.next i) = none
  loaded : ∀ row, c.phase = .loaded row →
    result (.next i) = none ∧ (∃ v, result c.prior = some (.ok v)) ∧ c.load = .ok row
  executed : c.phase = .executed → (∃ v, result c.prior = some (.ok v)) ∧ result (.next i) = some (c.outcome.map some)
  skipped : c.phase = .skipped → ∃ e, result c.prior = some (.error e) ∧ result (.next i) = some (.error e)

/-- What holds of the queue whatever fails. -/
structure Invariant (s : State N) : Prop where
  consistent : s.heap.Consistent
  source : ∀ p, s.heap.source p = sourceOf s.priors p
  free : ∀ r, s.locks r = none → ∀ m : Nat, s.runIds[m]? ≠ some r
  last : ∀ r p, s.locks r = some p →
    ∃ k : Nat, p = .fin k ∧ s.runIds[k]? = some r ∧ ∀ m : Nat, k < m → s.runIds[m]? ≠ some r
  calls : ∀ (i : Nat) (c : Call N), s.calls[i]? = some c → c.Ok s.heap.result s.runIds i

omit [JsNumber N] in
private theorem Call.Chained.mono {result result' : Id → Option (Except String (Option (RunStateProjection N)))}
    {runIds : List String} {i : Nat} {c : Call N} (h : c.Chained result runIds i)
    (hle : ∀ p r, result p = some r → result' p = some r) : c.Chained result' runIds i := by
  rcases h with ⟨hprior, ⟨v, hv⟩, hfirst⟩ | hprior
  · exact Or.inl ⟨hprior, ⟨v, hle _ _ hv⟩, hfirst⟩
  · exact Or.inr hprior

/-- Results that come in later do no harm to a call whose own `next` stays as it is. -/
theorem Call.Ok.mono {result result' : Id → Option (Except String (Option (RunStateProjection N)))}
    {runIds : List String}
    {i : Nat} {c : Call N} (h : c.Ok result runIds i) (hle : ∀ p r, result p = some r → result' p = some r)
    (hnext : result' (.next i) = result (.next i)) : c.Ok result' runIds i := by
  have hok : (∃ v, result c.prior = some (.ok v)) → ∃ v, result' c.prior = some (.ok v) :=
    fun ⟨v, hv⟩ => ⟨v, hle _ _ hv⟩
  refine ⟨h.prior.mono hle, ?_, ?_, ?_, ?_⟩
  · rw [hnext]
    exact h.waiting
  · intro row hrow
    obtain ⟨hnone, hprior, hload⟩ := h.loaded row hrow
    exact ⟨hnext.trans hnone, hok hprior, hload⟩
  · intro hphase
    obtain ⟨hprior, hres⟩ := h.executed hphase
    exact ⟨hok hprior, hnext.trans hres⟩
  · intro hphase
    obtain ⟨e, hprior, hres⟩ := h.skipped hphase
    exact ⟨e, hle _ _ hprior, hnext.trans hres⟩

private theorem Invariant.start {s : State N} (h : machine.start s) : Invariant s := by
  obtain ⟨hsource, hresult, hlocks, hcalls⟩ := h
  have hruns : s.runIds = [] := by rw [State.runIds, hcalls, List.map_nil]
  refine ⟨?_, ?_, ?_, ?_, ?_⟩
  · intro p r hp
    rw [hresult] at hp
    exact absurd hp nofun
  · intro p
    rw [hsource, State.priors, hcalls]
    cases p <;> rfl
  · intro r _ m
    rw [hruns]
    exact nofun
  · intro r p hp
    rw [hlocks] at hp
    exact absurd hp nofun
  · intro i c hc
    rw [hcalls] at hc
    exact absurd hc nofun

omit [JsNumber N] in
private theorem runIds_move {s : State N} {i : Nat} {c : Call N} (hc : s.calls[i]? = some c) (phase : Phase N) :
    (s.move i c phase).runIds = s.runIds :=
  Callers.map_set_of_eq hc rfl

omit [JsNumber N] in
private theorem priors_move {s : State N} {i : Nat} {c : Call N} (hc : s.calls[i]? = some c) (phase : Phase N) :
    (s.move i c phase).priors = s.priors :=
  Callers.map_set_of_eq hc rfl

private theorem source_next {s : State N} (h : Invariant s) {i : Nat} {c : Call N} (hc : s.calls[i]? = some c) :
    s.heap.source (.next i) = some (.onFulfilled c.prior) := by
  rw [h.source, sourceOf, State.priors, List.getElem?_map, hc]
  rfl

private theorem source_fin {s : State N} (h : Invariant s) {i : Nat} {c : Call N} (hc : s.calls[i]? = some c) :
    s.heap.source (.fin i) = some (.onSettled (.next i)) := by
  rw [h.source, sourceOf, State.priors, List.getElem?_map, hc]
  rfl

private theorem source_ret {s : State N} (h : Invariant s) {i : Nat} {c : Call N} (hc : s.calls[i]? = some c) :
    s.heap.source (.ret i) = some (.adopts (.next i)) := by
  rw [h.source, sourceOf, State.priors, List.getElem?_map, hc]
  rfl

/-- Call `i` moves on, and nothing is settled. -/
theorem Invariant.move {s : State N} (h : Invariant s)
    {i : Nat} {c : Call N} (hc : s.calls[i]? = some c) {phase : Phase N}
    (hok : Call.Ok s.heap.result s.runIds i { c with phase }) : Invariant (s.move i c phase) := by
  refine ⟨h.consistent, ?_, ?_, ?_, ?_⟩
  · rw [priors_move hc]
    exact h.source
  · rw [runIds_move hc]
    exact h.free
  · rw [runIds_move hc]
    exact h.last
  · rw [runIds_move hc]
    intro j d hd
    rcases Callers.getElem?_set_cases hd with ⟨rfl, rfl⟩ | ⟨-, hd⟩
    · exact hok
    · exact h.calls j d hd

/-- A promise that was pending is settled the way it can be; the calls are not chained on the `next` of another. -/
theorem Invariant.settle {s : State N} (h : Invariant s) {p : Id} {src : Source Id}
    {r : Except String (Option (RunStateProjection N))} (hnone : s.heap.result p = none)
    (hsrc : s.heap.source p = some src)
    (hallows : s.heap.Allows r src) (hnext : ∀ i, p ≠ .next i) : Invariant { s with heap := s.heap.settle p r } := by
  refine ⟨h.consistent.settle hnone hsrc hallows, h.source, h.free, h.last, ?_⟩
  intro i c hc
  refine (h.calls i c hc).mono (fun q r' => Heap.settle_mono hnone) ?_
  rw [Heap.settle_result, if_neg (hnext i).symm]

/-- `next` of call `i` is settled, and its callback is over. -/
theorem Invariant.settleNext {s : State N} (h : Invariant s) {i : Nat} {c : Call N} (hc : s.calls[i]? = some c)
    {r : Except String (Option (RunStateProjection N))} {phase : Phase N} (hnone : s.heap.result (.next i) = none)
    (hallows : s.heap.Allows r (.onFulfilled c.prior))
    (hok : Call.Ok (s.heap.settle (.next i) r).result s.runIds i { c with phase }) :
    Invariant ((s.settleNext i r).move i c phase) := by
  refine ⟨h.consistent.settle hnone (source_next h hc) hallows, ?_, ?_, ?_, ?_⟩
  · rw [priors_move (s := s.settleNext i r) hc]
    exact h.source
  · rw [runIds_move (s := s.settleNext i r) hc]
    exact h.free
  · rw [runIds_move (s := s.settleNext i r) hc]
    exact h.last
  · rw [runIds_move (s := s.settleNext i r) hc]
    intro j d hd
    rcases Callers.getElem?_set_cases hd with ⟨rfl, rfl⟩ | ⟨hne, hd⟩
    · exact hok
    · refine (h.calls j d hd).mono (fun q r' => Heap.settle_mono hnone) ?_
      show (s.heap.settle (.next i) r).result (.next j) = _
      rw [Heap.settle_result, if_neg]
      exact fun heq => hne (Id.next.inj heq)

private theorem Invariant.result_fresh {s : State N} (h : Invariant s) {p : Id} (hp : s.heap.source p = none) :
    s.heap.result p = none := by
  cases hr : s.heap.result p with
  | none => rfl
  | some r =>
    obtain ⟨src, hsrc, -⟩ := h.consistent p r hr
    rw [hp] at hsrc
    exact absurd hsrc nofun

omit [JsNumber N] in
/-- The sources after a new call, when its `Promise.resolve()` is there if it needs one. -/
theorem sourceOf_concat {heap : Heap Id String (Option (RunStateProjection N))} {priors : List Id} {prior : Id}
    {i : Nat}
    (hi : i = priors.length)
    (hsource : ∀ p, heap.source p = if p = .resolved i ∧ prior = .resolved i then some .value else sourceOf priors p)
    (p : Id) :
    (((heap.create (.next i) (.onFulfilled prior)).create (.fin i) (.onSettled (.next i))).create (.ret i)
      (.adopts (.next i))).source p = sourceOf (priors ++ [prior]) p := by
  simp only [Heap.create_source, hsource]
  cases p with
  | resolved j =>
    by_cases hj : j = i
    · simp [sourceOf, hj, hi]
    · simp [sourceOf, Callers.getElem?_concat, hj, ← hi]
  | next j | fin j | ret j =>
    by_cases hj : j = i
    · simp [sourceOf, hj, hi]
    · simp [sourceOf, Callers.getElem?_concat, hj, ← hi]

/-- A promise of a call that has not been made. -/
theorem Invariant.source_fresh {s : State N} (h : Invariant s) :
    s.heap.source (.resolved s.calls.length) = none ∧ s.heap.source (.next s.calls.length) = none ∧
      s.heap.source (.fin s.calls.length) = none ∧ s.heap.source (.ret s.calls.length) = none := by
  have hnone : s.priors[s.calls.length]? = none :=
    List.getElem?_eq_none (Nat.le_of_eq (by rw [State.priors, List.length_map]))
  simp [h.source, sourceOf, hnone]

/-- The heap of a new call: its `Promise.resolve()` is there when nothing is stored for the run. -/
theorem Invariant.call_heap {s : State N} (h : Invariant s) (runId : String) (events : List (CanonicalEvent N))
    (load : Except String (Option (ProjectionRow N))) (upsert : Except String Unit) :
    let t := s.call runId events load upsert
    t.heap.Consistent ∧ (∀ p, t.heap.source p = sourceOf t.priors p) ∧
      (∀ p r, s.heap.result p = some r → t.heap.result p = some r) ∧
      (∀ j, t.heap.result (.next j) = s.heap.result (.next j)) ∧
      (s.locks runId = none → t.heap.result (.resolved s.calls.length) = some (.ok none)) := by
  intro t
  obtain ⟨hresolved, hnext, hfin, hret⟩ := h.source_fresh
  have hpriors : t.priors = s.priors ++ [(s.locks runId).getD (.resolved s.calls.length)] := List.map_append
  have hlength : s.calls.length = s.priors.length := (List.length_map _).symm
  -- The heap before the three promises that every call creates.
  have hbase : ∃ heap : Heap Id String (Option (RunStateProjection N)),
      t.heap = ((heap.create (.next s.calls.length)
        (.onFulfilled ((s.locks runId).getD (.resolved s.calls.length)))).create
        (.fin s.calls.length) (.onSettled (.next s.calls.length))).create (.ret s.calls.length)
        (.adopts (.next s.calls.length)) ∧
      heap.Consistent ∧
      (∀ p, heap.source p = if p = .resolved s.calls.length ∧
          (s.locks runId).getD (.resolved s.calls.length) = .resolved s.calls.length then some .value
        else s.heap.source p) ∧
      (∀ p r, s.heap.result p = some r → heap.result p = some r) ∧
      (∀ j, heap.result (.next j) = s.heap.result (.next j)) ∧
      (s.locks runId = none → heap.result (.resolved s.calls.length) = some (.ok none)) := by
    cases hlock : s.locks runId with
    | some q =>
      obtain ⟨k, rfl, -⟩ := h.last runId q hlock
      refine ⟨s.heap, by simp [t, State.call, hlock], h.consistent, ?_, fun _ _ hr => hr, fun _ => rfl, nofun⟩
      intro p
      rw [if_neg]
      exact fun hp => absurd hp.2 nofun
    | none =>
      have hnone := h.result_fresh hresolved
      refine ⟨(s.heap.create (.resolved s.calls.length) .value).settle (.resolved s.calls.length) (.ok none),
        by simp [t, State.call, hlock], ?_, ?_, ?_, ?_, ?_⟩
      · have hsource :
            (s.heap.create (.resolved s.calls.length) .value).source (.resolved s.calls.length) = some .value := by
          rw [Heap.create_source, if_pos rfl]
        exact (h.consistent.create hresolved .value).settle hnone hsource trivial
      · intro p
        rw [Heap.settle_source, Heap.create_source]
        simp
      · exact fun p r hr => Heap.settle_mono (h := s.heap.create (.resolved s.calls.length) .value) hnone hr
      · intro j
        rw [Heap.settle_result, if_neg nofun, Heap.create_result]
      · intro _
        rw [Heap.settle_result, if_pos rfl]
  obtain ⟨heap, hheap, hcons, hsource, hmono, hnexts, hprior⟩ := hbase
  rw [hheap, hpriors]
  refine ⟨?_, ?_, hmono, hnexts, hprior⟩
  · have hfresh : ∀ p, p ≠ .resolved s.calls.length → s.heap.source p = none → heap.source p = none := by
      intro p hp hnone
      rw [hsource, if_neg fun hand => hp hand.1, hnone]
    have hnext' := hfresh (.next s.calls.length) nofun hnext
    have hfin' := hfresh (.fin s.calls.length) nofun hfin
    have hret' := hfresh (.ret s.calls.length) nofun hret
    refine ((hcons.create hnext' _).create (p := .fin s.calls.length) ?_ _).create (p := .ret s.calls.length) ?_ _
    · rw [Heap.create_source, if_neg nofun, hfin']
    · rw [Heap.create_source, if_neg nofun, Heap.create_source, if_neg nofun, hret']
  · refine sourceOf_concat hlength fun p => ?_
    rw [hsource, h.source]

private theorem Invariant.call {s : State N} (h : Invariant s) (runId : String) (events : List (CanonicalEvent N))
    (load : Except String (Option (ProjectionRow N))) (upsert : Except String Unit) :
    Invariant (s.call runId events load upsert) := by
  obtain ⟨hcons, hsource, hmono, hnexts, hresolved⟩ := h.call_heap runId events load upsert
  have hruns : (s.call runId events load upsert).runIds = s.runIds ++ [runId] := List.map_append
  have hlength : s.runIds.length = s.calls.length := List.length_map _
  have hlocks : ∀ r, (s.call runId events load upsert).locks r =
      if r = runId then some (.fin s.calls.length) else s.locks r :=
    fun r => Function.update_apply _ _ _ _
  refine ⟨hcons, hsource, ?_, ?_, ?_⟩
  · intro r hr m hm
    rw [hlocks] at hr
    rw [hruns, Callers.getElem?_concat] at hm
    split at hr
    · exact absurd hr nofun
    · rename_i hne
      split at hm
      · exact hne (Option.some.inj hm).symm
      · exact h.free r hr m hm
  · intro r p hp
    rw [hlocks] at hp
    rw [hruns]
    split at hp
    · rename_i heq
      refine ⟨s.calls.length, (Option.some.inj hp).symm, ?_, ?_⟩
      · rw [Callers.getElem?_concat, if_pos hlength.symm, heq]
      · intro m hm
        rw [List.getElem?_eq_none (by rw [List.length_append, hlength]; exact hm)]
        exact nofun
    · rename_i hne
      obtain ⟨k, hk, hrun, hlast⟩ := h.last r p hp
      refine ⟨k, hk, Callers.getElem?_concat_of_some hrun, ?_⟩
      intro m hm heq
      rw [Callers.getElem?_concat] at heq
      split at heq
      · exact hne (Option.some.inj heq).symm
      · exact hlast m hm heq
  · intro i c hc
    rw [hruns]
    rcases Callers.getElem?_concat_cases hc with ⟨rfl, rfl⟩ | hc
    · have hnew : ∀ r, (∀ m : Nat, s.runIds[m]? ≠ some r) →
        ∀ m < s.calls.length, (s.runIds ++ [runId])[m]? ≠ some r := by
        intro r hr m hm
        rw [List.getElem?_append_left (by rw [hlength]; exact hm)]
        exact hr m
      refine ⟨?_, fun _ => ?_, fun row hphase => ?_, fun hphase => ?_, fun hphase => ?_⟩
      · cases hlock : s.locks runId with
        | none =>
          refine Or.inl ⟨rfl, ⟨none, hresolved hlock⟩, hnew runId (h.free runId hlock)⟩
        | some p =>
          obtain ⟨k, rfl, hrun, hlast⟩ := h.last runId p hlock
          have hk : k < s.calls.length := by
            rw [← hlength]
            exact (List.getElem?_eq_some_iff.1 hrun).1
          refine Or.inr ⟨k, hk, rfl, Callers.getElem?_concat_of_some hrun, ?_⟩
          intro m hm hkm
          rw [List.getElem?_append_left (by rw [hlength]; exact hm)]
          exact hlast m hkm
      · rw [hnexts]
        exact h.result_fresh h.source_fresh.2.1
      all_goals exact absurd hphase (by simp)
    · have hi : i < s.runIds.length := by
        rw [hlength]
        exact (List.getElem?_eq_some_iff.1 hc).1
      have hold := (h.calls i c hc).mono hmono (hnexts i)
      have hsame : ∀ m < i, (s.runIds ++ [runId])[m]? = s.runIds[m]? :=
        fun m hm => List.getElem?_append_left (Nat.lt_trans hm hi)
      refine ⟨?_, hold.waiting, hold.loaded, hold.executed, hold.skipped⟩
      rcases hold.prior with ⟨hprior, hv, hfirst⟩ | ⟨k, hk, hprior, hrun, hlast⟩
      · exact Or.inl ⟨hprior, hv, fun m hm => hsame m hm ▸ hfirst m hm⟩
      · exact Or.inr ⟨k, hk, hprior, (hsame k hk).trans hrun, fun m hm hkm => hsame m hm ▸ hlast m hm hkm⟩

/-- The stored promise is the one that `finally` returned, and never `next`: nothing is deleted. -/
theorem Invariant.release {s : State N} (h : Invariant s) (i : Nat) (runId : String) : s.release i runId = s := by
  unfold State.release
  rw [if_neg]
  intro hlock
  obtain ⟨k, hk, -⟩ := h.last runId _ hlock
  exact absurd hk nofun

/-- The callback of call `i` is over. -/
theorem Invariant.execute {s : State N} (h : Invariant s) {i : Nat} {c : Call N} (hc : s.calls[i]? = some c)
    (hnone : s.heap.result (.next i) = none) (hprior : ∃ v, s.heap.result c.prior = some (.ok v))
    {r : Except String (Option (RunStateProjection N))} (hr : r = c.outcome.map some) :
    Invariant ((s.settleNext i r).move i c .executed) := by
  obtain ⟨v, hv⟩ := hprior
  have hmono : ∀ p r', s.heap.result p = some r' → (s.heap.settle (.next i) r).result p = some r' :=
    fun p r' => Heap.settle_mono hnone
  refine h.settleNext hc hnone (Or.inl ⟨v, hv⟩) ⟨(h.calls i c hc).prior.mono hmono, fun hphase => ?_,
    fun row hphase => ?_,
    fun _ => ⟨⟨v, hmono _ _ hv⟩, ?_⟩, fun hphase => ?_⟩
  · exact absurd hphase (by simp)
  · exact absurd hphase (by simp)
  · rw [Heap.settle_result, if_pos rfl, hr]
    rfl
  · exact absurd hphase (by simp)

/-- The rejection of `prior` has reached call `i`. -/
theorem Invariant.skip {s : State N} (h : Invariant s) {i : Nat} {c : Call N} (hc : s.calls[i]? = some c)
    (hnone : s.heap.result (.next i) = none) {e : String} (hprior : s.heap.result c.prior = some (.error e)) :
    Invariant ((s.settleNext i (.error e)).move i c .skipped) := by
  have hmono : ∀ p r', s.heap.result p = some r' → (s.heap.settle (.next i) (.error e)).result p = some r' :=
    fun p r' => Heap.settle_mono hnone
  refine h.settleNext hc hnone (Or.inr ⟨e, rfl, hprior⟩) ⟨(h.calls i c hc).prior.mono hmono, fun hphase => ?_,
    fun row hphase => ?_, fun hphase => ?_, fun _ => ⟨e, hmono _ _ hprior, ?_⟩⟩
  · exact absurd hphase (by simp)
  · exact absurd hphase (by simp)
  · exact absurd hphase (by simp)
  · rw [Heap.settle_result, if_pos rfl]

private theorem Invariant.step {s t : State N} (h : Invariant s) {i : Nat} {c : Call N} (hc : s.calls[i]? = some c)
    {a : Step} (hstep : s.step i c a = some t) : Invariant t := by
  have hok := h.calls i c hc
  cases a with
  | load =>
    simp only [State.step] at hstep
    split at hstep
    · rename_i v hphase hprior
      have hnone := hok.waiting hphase
      split at hstep
      · rename_i row hload
        rw [← Option.some.inj hstep]
        refine h.move hc ⟨hok.prior, fun hphase' => ?_, fun row' hphase' => ?_, fun hphase' => ?_, fun hphase' => ?_⟩
        · exact absurd hphase' (by simp)
        · rw [← Phase.loaded.inj hphase']
          exact ⟨hnone, ⟨v, hprior⟩, hload⟩
        · exact absurd hphase' (by simp)
        · exact absurd hphase' (by simp)
      · rename_i e hload
        rw [← Option.some.inj hstep]
        refine h.execute hc hnone ⟨v, hprior⟩ ?_
        rw [Call.outcome, hload]
        rfl
    · exact absurd hstep nofun
  | upsert =>
    simp only [State.step] at hstep
    split at hstep
    · rename_i row hphase
      obtain ⟨hnone, hprior, hload⟩ := hok.loaded row hphase
      split at hstep <;> rename_i hupsert
      · rw [← Option.some.inj hstep]
        refine h.execute hc hnone hprior ?_
        rw [Call.outcome, hload, hupsert]
        rfl
      · rw [← Option.some.inj hstep]
        refine h.execute hc hnone hprior ?_
        rw [Call.outcome, hload, hupsert]
        rfl
    · exact absurd hstep nofun
  | skip =>
    simp only [State.step] at hstep
    split at hstep
    · rename_i e hphase hprior
      exact Option.some.inj hstep ▸ h.skip hc (hok.waiting hphase) hprior
    · exact absurd hstep nofun
  | release =>
    simp only [State.step] at hstep
    split at hstep
    · rename_i r hnext hfin
      rw [h.release] at hstep
      rw [← Option.some.inj hstep]
      exact h.settle hfin (source_fin h hc) hnext nofun
    · exact absurd hstep nofun
  | settle =>
    simp only [State.step] at hstep
    split at hstep
    · rename_i r hnext hret
      rw [← Option.some.inj hstep]
      exact h.settle hret (source_ret h hc) hnext nofun
    · exact absurd hstep nofun

private theorem Invariant.of_reachable {s : State N} (h : machine.Reachable s) : Invariant s := by
  refine h.invariant (fun _ => Invariant.start) ?_
  intro s a t hs hnext
  cases a with
  | call runId events load upsert => exact Option.some.inj hnext ▸ hs.call runId events load upsert
  | step i a =>
    obtain ⟨c, hc, hstep⟩ := Option.bind_eq_some_iff.1 hnext
    exact hs.step hc hstep

/-! ### What the chain does -/

omit [JsNumber N] in
private theorem runIds_of_call {s : State N} {i : Nat} {c : Call N} (hc : s.calls[i]? = some c) :
    s.runIds[i]? = some c.runId := by
  rw [State.runIds, List.getElem?_map, hc]
  rfl

omit [JsNumber N] in
private theorem call_of_runIds {s : State N} {i : Nat} {runId : String} (h : s.runIds[i]? = some runId) :
    ∃ c, s.calls[i]? = some c ∧ c.runId = runId := by
  rw [State.runIds, List.getElem?_map] at h
  exact Option.map_eq_some_iff.1 h

omit [JsNumber N] in
private theorem call_of_priors {s : State N} {i : Nat} {prior : Id} (h : s.priors[i]? = some prior) :
    ∃ c, s.calls[i]? = some c ∧ c.prior = prior := by
  rw [State.priors, List.getElem?_map] at h
  exact Option.map_eq_some_iff.1 h

/-- `finally` keeps the result. -/
theorem Invariant.fin_result {s : State N} (h : Invariant s) {i : Nat} {c : Call N} (hc : s.calls[i]? = some c)
    {r : Except String (Option (RunStateProjection N))} (hr : s.heap.result (.fin i) = some r) :
    s.heap.result (.next i) = some r := by
  obtain ⟨src, hsrc, hallows⟩ := h.consistent _ r hr
  rw [source_fin h hc] at hsrc
  rw [← Option.some.inj hsrc] at hallows
  exact hallows

/-- The caller gets the result of `next`. -/
theorem Invariant.ret_result {s : State N} (h : Invariant s) {i : Nat} {c : Call N} (hc : s.calls[i]? = some c)
    {r : Except String (Option (RunStateProjection N))} (hr : s.heap.result (.ret i) = some r) :
    s.heap.result (.next i) = some r := by
  obtain ⟨src, hsrc, hallows⟩ := h.consistent _ r hr
  rw [source_ret h hc] at hsrc
  rw [← Option.some.inj hsrc] at hallows
  exact hallows

/-- A call whose `next` is fulfilled has executed its load and its upsert, after a fulfilled `prior`. -/
theorem Invariant.executed_of_fulfilled {s : State N} (h : Invariant s)
    {i : Nat} {c : Call N} (hc : s.calls[i]? = some c)
    {v : Option (RunStateProjection N)} (hv : s.heap.result (.next i) = some (.ok v)) :
    c.phase = .executed ∧ (∃ v', s.heap.result c.prior = some (.ok v')) ∧ c.outcome.map some = .ok v := by
  have hok := h.calls i c hc
  cases hphase : c.phase with
  | waiting =>
    rw [hok.waiting hphase] at hv
    exact absurd hv nofun
  | loaded row =>
    rw [(hok.loaded row hphase).1] at hv
    exact absurd hv nofun
  | executed =>
    obtain ⟨hprior, hres⟩ := hok.executed hphase
    rw [hres] at hv
    exact ⟨rfl, hprior, Option.some.inj hv⟩
  | skipped =>
    obtain ⟨e, -, hres⟩ := hok.skipped hphase
    rw [hres] at hv
    exact absurd (Option.some.inj hv) nofun

private theorem isOk_of_map_eq_ok {c : Call N} {v : Option (RunStateProjection N)} (h : c.outcome.map some = .ok v) :
    c.outcome.isOk = true := by
  cases ho : c.outcome with
  | ok p => rfl
  | error e =>
    rw [ho] at h
    exact absurd h nofun

/-- A fulfilled `prior` means that all earlier calls of the run are fulfilled. -/
theorem Invariant.earlier_fulfilled {s : State N} (h : Invariant s) (j : Nat) :
    ∀ (i : Nat) (c d : Call N), i < j → s.calls[i]? = some c → s.calls[j]? = some d → c.runId = d.runId →
      (∃ v, s.heap.result d.prior = some (.ok v)) → ∃ v, s.heap.result (.next i) = some (.ok v) := by
  induction j using Nat.strongRecOn with
  | _ j ih =>
    intro i c d hij hc hd hrun hprior
    have hi := runIds_of_call hc
    rw [hrun] at hi
    rcases (h.calls j d hd).prior with ⟨-, -, hfirst⟩ | ⟨k, hk, hfin, hrunk, hlast⟩
    · exact absurd hi (hfirst i hij)
    · obtain ⟨e, he, herun⟩ := call_of_runIds hrunk
      obtain ⟨v, hv⟩ := hprior
      rw [hfin] at hv
      have hnext := h.fin_result he hv
      have hik : i ≤ k := by
        by_contra hlt
        exact hlast i hij (Nat.lt_of_not_le hlt) hi
      rcases Nat.lt_or_eq_of_le hik with hlt | heq
      · exact ih k hk i c e hlt hc he (hrun.trans herun.symm) (h.executed_of_fulfilled he hnext).2.1
      · exact ⟨v, heq ▸ hnext⟩

private theorem Invariant.inOrder {s : State N} (h : Invariant s) : InOrder s := by
  intro i j c d hij hc hd hrun hphase
  have hprior : ∃ v, s.heap.result d.prior = some (.ok v) := by
    rcases hphase with ⟨row, hrow⟩ | hexec
    · exact ((h.calls j d hd).loaded row hrow).2.1
    · exact ((h.calls j d hd).executed hexec).1
  obtain ⟨v, hv⟩ := h.earlier_fulfilled j i c d hij hc hd hrun hprior
  exact Or.inl (h.executed_of_fulfilled hc hv).1

/-- The entry of a run that has had a call stays. -/
theorem Invariant.locks_eq_none_iff {s : State N} (h : Invariant s) (runId : String) :
    s.locks runId = none ↔ ∀ c ∈ s.calls, c.runId ≠ runId := by
  constructor
  · intro hnone c hc hrun
    obtain ⟨i, hi⟩ := List.mem_iff_getElem?.1 hc
    exact h.free runId hnone i (hrun ▸ runIds_of_call hi)
  · intro hall
    by_contra hsome
    obtain ⟨p, hp⟩ := Option.ne_none_iff_exists'.1 hsome
    obtain ⟨k, -, hk, -⟩ := h.last runId p hp
    obtain ⟨c, hc, hrun⟩ := call_of_runIds hk
    exact hall c (List.mem_of_getElem? hc) hrun

/-- When nothing is left to do, every call is settled. -/
theorem Invariant.settled {s : State N} (h : Invariant s) (hquiet : Quiescent s) (i : Nat) :
    ∀ c, s.calls[i]? = some c → ∃ r, s.heap.result (.next i) = some r ∧ s.heap.result (.fin i) = some r ∧
      s.heap.result (.ret i) = some r := by
  induction i using Nat.strongRecOn with
  | _ i ih =>
    intro c hc
    have hok := h.calls i c hc
    have hstuck : ∀ a, s.step i c a = none := by
      intro a
      have := hquiet i a
      rwa [next, hc, Option.bind_some] at this
    have hprior : ∃ r, s.heap.result c.prior = some r := by
      rcases hok.prior with ⟨hprior, ⟨v, hv⟩, -⟩ | ⟨k, hk, hprior, hrun, -⟩
      · exact ⟨_, hprior ▸ hv⟩
      · obtain ⟨d, hd, -⟩ := call_of_runIds hrun
        obtain ⟨r, -, hfin, -⟩ := ih k hk d hd
        exact ⟨r, hprior ▸ hfin⟩
    obtain ⟨r, hr⟩ : ∃ r, s.heap.result (.next i) = some r := by
      cases hphase : c.phase with
      | waiting =>
        obtain ⟨r, hr⟩ := hprior
        cases r with
        | ok v =>
          have hload := hstuck .load
          simp only [State.step, hphase, hr] at hload
          split at hload <;> exact absurd hload nofun
        | error e =>
          have hskip := hstuck .skip
          simp only [State.step, hphase, hr] at hskip
          exact absurd hskip nofun
      | loaded row =>
        have hupsert := hstuck .upsert
        simp only [State.step, hphase] at hupsert
        split at hupsert <;> exact absurd hupsert nofun
      | executed => exact ⟨_, (hok.executed hphase).2⟩
      | skipped =>
        obtain ⟨e, -, hres⟩ := hok.skipped hphase
        exact ⟨_, hres⟩
    refine ⟨r, hr, ?_, ?_⟩
    · cases hfin : s.heap.result (.fin i) with
      | none =>
        have hrelease := hstuck .release
        simp only [State.step, hr, hfin] at hrelease
        exact absurd hrelease nofun
      | some r' => rw [← h.fin_result hc hfin, hr]
    · cases hret : s.heap.result (.ret i) with
      | none =>
        have hsettle := hstuck .settle
        simp only [State.step, hr, hret] at hsettle
        exact absurd hsettle nofun
      | some r' => rw [← h.ret_result hc hret, hr]

/-- When nothing is left to do, a call is fulfilled exactly when neither it nor an earlier call of its run fails. -/
theorem Invariant.fulfilled_iff {s : State N} (h : Invariant s) (hquiet : Quiescent s) (i : Nat) :
    ∀ c, s.calls[i]? = some c → ((∃ v, s.heap.result (.next i) = some (.ok v)) ↔
      ∀ (k : Nat) (d : Call N), k ≤ i → s.calls[k]? = some d → d.runId = c.runId → d.outcome.isOk = true) := by
  induction i using Nat.strongRecOn with
  | _ i ih =>
    intro c hc
    constructor
    · rintro ⟨v, hv⟩ k d hk hd hrun
      obtain ⟨-, hprior, hout⟩ := h.executed_of_fulfilled hc hv
      rcases Nat.lt_or_eq_of_le hk with hlt | rfl
      · obtain ⟨w, hw⟩ := h.earlier_fulfilled i k d c hlt hd hc hrun hprior
        exact isOk_of_map_eq_ok (h.executed_of_fulfilled hd hw).2.2
      · rw [hc] at hd
        exact Option.some.inj hd ▸ isOk_of_map_eq_ok hout
    · intro hall
      have hprior : ∃ v, s.heap.result c.prior = some (.ok v) := by
        rcases (h.calls i c hc).prior with ⟨hprior, hv, -⟩ | ⟨k, hk, hprior, hrun, -⟩
        · exact hprior ▸ hv
        · obtain ⟨d, hd, hdrun⟩ := call_of_runIds hrun
          obtain ⟨v, hv⟩ := (ih k hk d hd).2 fun m e hm he herun =>
            hall m e (Nat.le_trans hm (Nat.le_of_lt hk)) he (herun.trans hdrun)
          obtain ⟨r, hr, hfin, -⟩ := h.settled hquiet k d hd
          exact ⟨v, by rw [hprior, hfin, ← hr, hv]⟩
      obtain ⟨r, hr, -, -⟩ := h.settled hquiet i c hc
      have hok := h.calls i c hc
      have hgood := hall i c (Nat.le_refl i) hc rfl
      cases hphase : c.phase with
      | waiting =>
        rw [hok.waiting hphase] at hr
        exact absurd hr nofun
      | loaded row =>
        rw [(hok.loaded row hphase).1] at hr
        exact absurd hr nofun
      | executed =>
        have hres := (hok.executed hphase).2
        cases hout : c.outcome with
        | ok p => exact ⟨some p, by rw [hres, hout]; rfl⟩
        | error e =>
          rw [hout] at hgood
          exact absurd hgood nofun
      | skipped =>
        obtain ⟨e, he, -⟩ := hok.skipped hphase
        obtain ⟨v, hv⟩ := hprior
        rw [he] at hv
        exact absurd (Option.some.inj hv) nofun

private theorem Invariant.eachExecuted_iff {s : State N} (h : Invariant s) (hquiet : Quiescent s) :
    EachExecuted s ↔ NoFailureBefore s := by
  constructor
  · intro heach i j c d hij hc hd hrun hgood
    obtain ⟨p, hp⟩ : ∃ p, d.outcome = .ok p := by
      cases hout : d.outcome with
      | ok p => exact ⟨p, rfl⟩
      | error e =>
        rw [hout] at hgood
        exact absurd hgood nofun
    have hnext := h.ret_result hd (heach j d p hd hp).2
    exact (h.fulfilled_iff hquiet j d hd).1 ⟨_, hnext⟩ i c (Nat.le_of_lt hij) hc hrun
  · intro hbefore i c p hc hp
    have hgood : c.outcome.isOk = true := by rw [hp]; rfl
    obtain ⟨v, hv⟩ := (h.fulfilled_iff hquiet i c hc).2 fun k d hk hd hrun => by
      rcases Nat.lt_or_eq_of_le hk with hlt | rfl
      · exact hbefore k i d c hlt hd hc hrun hgood
      · rw [hc] at hd
        exact Option.some.inj hd ▸ hgood
    obtain ⟨hphase, -, hout⟩ := h.executed_of_fulfilled hc hv
    obtain ⟨r, hr, -, hret⟩ := h.settled hquiet i c hc
    refine ⟨hphase, ?_⟩
    rw [hp] at hout
    rw [hret, ← hr, hv, ← hout]
    rfl

/-- The last `finally` of a run has no handler. -/
theorem Invariant.not_handled {s : State N} (h : Invariant s) {k : Nat} {runId : String}
    (hk : s.runIds[k]? = some runId)
    (hlast : ∀ m : Nat, k < m → s.runIds[m]? ≠ some runId) : ¬ s.heap.Handled (.fin k) := by
  rintro ⟨q, src, hsrc, hon⟩
  rw [h.source] at hsrc
  cases q with
  | resolved j =>
    simp only [sourceOf] at hsrc
    split at hsrc
    · rw [← Option.some.inj hsrc] at hon
      exact absurd hon nofun
    · exact absurd hsrc nofun
  | next j =>
    obtain ⟨prior, hprior, rfl⟩ := Option.map_eq_some_iff.1 hsrc
    obtain ⟨d, hd, rfl⟩ := call_of_priors hprior
    have hfin : d.prior = .fin k := Option.some.inj hon
    rcases (h.calls j d hd).prior with ⟨hresolved, -⟩ | ⟨k', hk', hfin', hrun, -⟩
    · exact absurd (hfin.symm.trans hresolved) nofun
    · obtain rfl := Id.fin.inj (hfin.symm.trans hfin')
      rw [hk] at hrun
      exact hlast j hk' (Option.some.inj hrun ▸ runIds_of_call hd)
  | fin j =>
    obtain ⟨prior, -, rfl⟩ := Option.map_eq_some_iff.1 hsrc
    exact absurd (Option.some.inj hon) nofun
  | ret j =>
    obtain ⟨prior, -, rfl⟩ := Option.map_eq_some_iff.1 hsrc
    exact absurd (Option.some.inj hon) nofun

private theorem Invariant.noUnhandled_iff {s : State N} (h : Invariant s) (hquiet : Quiescent s) :
    NoUnhandled s ↔ NoFailure s := by
  constructor
  · intro hno i c hc
    by_contra hbad
    obtain ⟨p, hp⟩ : ∃ p, s.locks c.runId = some p := by
      rw [← Option.ne_none_iff_exists', Ne, h.locks_eq_none_iff]
      exact fun hall => hall c (List.mem_of_getElem? hc) rfl
    obtain ⟨k, -, hk, hlast⟩ := h.last c.runId p hp
    obtain ⟨d, hd, hrun⟩ := call_of_runIds hk
    have hik : i ≤ k := by
      by_contra hlt
      exact hlast i (Nat.lt_of_not_le hlt) (runIds_of_call hc)
    -- The rejection of call `i` has reached the last call of the run.
    obtain ⟨r, hr, hfin, -⟩ := h.settled hquiet k d hd
    cases r with
    | ok v => exact hbad ((h.fulfilled_iff hquiet k d hd).1 ⟨v, hr⟩ i c hik hc hrun.symm)
    | error e => exact h.not_handled hk hlast (hno (.fin k) e hfin nofun)
  · intro hgood p e hp hne
    have hfulfilled : ∀ i c, s.calls[i]? = some c → s.heap.result (.next i) ≠ some (.error e) := by
      intro i c hc herr
      obtain ⟨v, hv⟩ := (h.fulfilled_iff hquiet i c hc).2 fun k d _ hd _ => hgood k d hd
      rw [herr] at hv
      exact absurd (Option.some.inj hv) nofun
    obtain ⟨src, hsrc, hallows⟩ := h.consistent p _ hp
    rw [h.source] at hsrc
    cases p with
    | resolved j =>
      simp only [sourceOf] at hsrc
      split at hsrc
      · rename_i hprior
        obtain ⟨d, hd, hresolved⟩ := call_of_priors hprior
        rcases (h.calls j d hd).prior with ⟨-, ⟨v, hv⟩, -⟩ | ⟨k, -, hfin, -⟩
        · rw [hp] at hv
          exact absurd (Option.some.inj hv) nofun
        · exact absurd (hresolved.symm.trans hfin) nofun
      · exact absurd hsrc nofun
    | next j =>
      obtain ⟨prior, hprior, -⟩ := Option.map_eq_some_iff.1 hsrc
      obtain ⟨d, hd, -⟩ := call_of_priors hprior
      exact absurd hp (hfulfilled j d hd)
    | fin j =>
      obtain ⟨prior, hprior, -⟩ := Option.map_eq_some_iff.1 hsrc
      obtain ⟨d, hd, -⟩ := call_of_priors hprior
      exact absurd (h.fin_result hd hp) (hfulfilled j d hd)
    | ret j => exact absurd rfl (hne j)

private theorem Invariant.isolated_iff {s : State N} (h : Invariant s) (hquiet : Quiescent s) :
    Isolated s ↔ s.calls = [] := by
  constructor
  · rintro ⟨-, -, hlocks, -⟩
    refine List.eq_nil_iff_forall_not_mem.2 fun c hc => ?_
    exact (h.locks_eq_none_iff c.runId).1 (hlocks c.runId) c hc rfl
  · intro hnil
    have hnone : ∀ (i : Nat) (c : Call N), s.calls[i]? ≠ some c := by
      intro i c hc
      rw [hnil] at hc
      exact absurd hc nofun
    refine ⟨fun i c p hc _ => absurd hc (hnone i c), h.inOrder, fun runId => ?_, ?_⟩
    · rw [h.locks_eq_none_iff, hnil]
      exact List.forall_mem_nil _
    · exact (h.noUnhandled_iff hquiet).2 fun i c hc => absurd hc (hnone i c)

/-- The calls of a run are executed in call order, and the entry of a run that has had a call stays in `applyLocks`.
When nothing is left to do, every call that would succeed has executed and is fulfilled exactly when none comes after
a failing call of its run; no rejection is left without a handler exactly when no call fails; and all of it holds only
without calls. -/
theorem failure_isolation_iff {s : State N} (hs : machine.Reachable s) :
    InOrder s ∧ (∀ runId, s.locks runId = none ↔ ∀ c ∈ s.calls, c.runId ≠ runId) ∧
      (Quiescent s → (EachExecuted s ↔ NoFailureBefore s) ∧ (NoUnhandled s ↔ NoFailure s) ∧
        (Isolated s ↔ s.calls = [])) := by
  have h := Invariant.of_reachable hs
  exact ⟨h.inOrder, h.locks_eq_none_iff, fun hquiet =>
    ⟨h.eachExecuted_iff hquiet, h.noUnhandled_iff hquiet, h.isolated_iff hquiet⟩⟩

/-- A single call that succeeds leaves its entry behind. -/
theorem failure_isolation_single :
    ∃ s : State (Option Rat), machine.Reachable s ∧ (∃ p, s.heap.result (.ret 0) = some (.ok p)) ∧
      s.locks "run" ≠ none := by
  let s₀ : State (Option Rat) := ⟨⟨fun _ => none, fun _ => none⟩, fun _ => none, []⟩
  obtain ⟨s, hs, hret, c, hc, hrun⟩ : ∃ s,
    machine.exec s₀ [.call "run" [] (.ok none) (.ok ()), .step 0 .load, .step 0 .upsert,
      .step 0 .release, .step 0 .settle] = some s ∧ (∃ p, s.heap.result (.ret 0) = some (.ok p)) ∧
      ∃ c, s.calls = [c] ∧ c.runId = "run" := ⟨_, rfl, ⟨_, rfl⟩, _, rfl, rfl⟩
  have hreach : machine.Reachable s := ⟨s₀, _, ⟨rfl, rfl, rfl, rfl⟩, hs⟩
  refine ⟨s, hreach, hret, fun hnone => ?_⟩
  exact ((failure_isolation_iff hreach).2.1 "run").1 hnone c (hc ▸ List.mem_singleton_self c) hrun

/-- A call whose load throws, and then one of the same run that would succeed: the second is rejected without
running. -/
theorem failure_isolation_poisoned : ¬ ∀ s : State (Option Rat), machine.Reachable s → Quiescent s → Isolated s := by
  intro h
  let s₀ : State (Option Rat) := ⟨⟨fun _ => none, fun _ => none⟩, fun _ => none, []⟩
  obtain ⟨s, hs, hquiet, c, p, hc, hp, hphase⟩ : ∃ s,
    machine.exec s₀ [.call "run" [] (.error "connection lost") (.ok ()),
      .step 0 .load, .step 0 .release, .step 0 .settle, .call "run" [] (.ok none) (.ok ()), .step 1 .skip,
      .step 1 .release, .step 1 .settle] = some s ∧ Quiescent s ∧
      ∃ c p, s.calls[1]? = some c ∧ c.outcome = .ok p ∧ c.phase = .skipped := by
    refine ⟨_, rfl, ?_, _, _, rfl, rfl, rfl⟩
    intro i a
    match i with
    | 0 => cases a <;> rfl
    | 1 => cases a <;> rfl
    | _ + 2 => rfl
  have heach := (h s ⟨s₀, _, ⟨rfl, rfl, rfl, rfl⟩, hs⟩ hquiet).1 1 c p hc hp
  rw [hphase] at heach
  exact absurd heach.1 (by simp)

end MacpControlPlane.ApplyQueue

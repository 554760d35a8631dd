import Mathlib.Data.Rat.Defs
import Mathlib.Algebra.Order.Ring.Unbundled.Rat
import Mathlib.Algebra.Order.Ring.Rat
import MacpControlPlane.Lib.Machine
import MacpControlPlane.Lib.TransitionLog

/-!
# The circuit breaker (`runtime/circuit-breaker.ts`)

All unary calls to the runtime share one breaker.  `execute` reads the state, awaits the protected call, and writes the
breaker again when the call has settled; the reads and writes of the calls that are in flight, the reads of the state,
resets and the clock interleave in any order.

The configured numbers are finite (`readNumber`).  Times are milliseconds, and `enteredAt` is the instant that the
source renders with `toISOString`.
-/

namespace MacpControlPlane.CircuitBreaker

open Machine

inductive CircuitBreakerState where
  | closed
  | opened
  | halfOpen
  deriving DecidableEq

def historySize : Nat := 200

def circuitBreakerOpenMessage : String := "Circuit breaker is OPEN — runtime calls are temporarily disabled"

structure CircuitBreakerStateChange where
  state : CircuitBreakerState
  enteredAt : Nat
  reason : String
  deriving DecidableEq

structure CircuitBreakerConfig where
  failureThreshold : Rat
  resetTimeoutMs : Rat

/-- The fields of the breaker. -/
structure Breaker where
  state : CircuitBreakerState := .closed
  failureCount : Nat := 0
  lastFailureTime : Nat := 0
  history : List CircuitBreakerStateChange
  deriving DecidableEq

variable (config : CircuitBreakerConfig)

/-- The breaker as it is constructed at `now`. -/
def Breaker.new (now : Nat) : Breaker :=
  { history := [⟨.closed, now, "initial"⟩] }

def recordTransition (now : Nat) (state : CircuitBreakerState) (reason : String)
    (history : List CircuitBreakerStateChange) : List CircuitBreakerStateChange :=
  TransitionLog.record CircuitBreakerStateChange.state historySize history ⟨state, now, reason⟩

/-- The write of `getState`; what it returns is the state of the result. -/
def getState (now : Nat) (b : Breaker) : Breaker :=
  if b.state = .opened then
    let elapsed : Int := now - b.lastFailureTime
    if config.resetTimeoutMs ≤ elapsed then
      { b with
        state := .halfOpen
        history := recordTransition now .halfOpen s!"reset timeout after {elapsed}ms" b.history }
    else b
  else b

/-- `execute` up to the protected call: the state it has read, or the error it throws. -/
def beginExecute (now : Nat) (b : Breaker) : Except String CircuitBreakerState × Breaker :=
  let read := getState config now b
  if read.state = .opened then (.error circuitBreakerOpenMessage, read) else (.ok read.state, read)

def onSuccess (now : Nat) (b : Breaker) : Breaker :=
  let wasHalfOpen := b.state = .halfOpen
  let previous := b.state
  { b with
    failureCount := 0
    state := .closed
    history :=
      if previous ≠ .closed then
        recordTransition now .closed (if wasHalfOpen then "half-open probe succeeded" else "success") b.history
      else b.history }

def onFailure (now : Nat) (b : Breaker) : Breaker :=
  let failureCount := b.failureCount + 1
  let previous := b.state
  if config.failureThreshold ≤ failureCount then
    { state := .opened
      failureCount
      lastFailureTime := now
      history :=
        if previous ≠ .opened then
          recordTransition now .opened s!"{failureCount} consecutive failures" b.history
        else b.history }
  else { b with failureCount, lastFailureTime := now }

def reset (now : Nat) (b : Breaker) : Breaker :=
  let wasDifferent := b.state ≠ .closed
  { b with
    failureCount := 0
    state := .closed
    history := if wasDifferent then recordTransition now .closed "manual reset" b.history else b.history }

/-! ### Calls, reads and resets in any order -/

/-- How a protected call settles.  The instrumentation and `onStateChange` run after the fields have been written; what
they throw in `onSuccess` is caught as an error of the call is.  The `Bool` is `isExpectedError` of the error, true also
where that function throws itself. -/
inductive Outcome where
  | fulfilled (thrown : Option Bool)
  | rejected (expected : Bool)
  deriving DecidableEq

/-- `execute` from the settlement on: the breaker after each method that writes it. -/
def settle (now : Nat) (b : Breaker) : Outcome → List Breaker
  | .fulfilled none | .fulfilled (some true) => [onSuccess now b]
  | .fulfilled (some false) => [onSuccess now b, onFailure config now (onSuccess now b)]
  | .rejected true => []
  | .rejected false => [onFailure config now b]

/-- A failure is recorded. -/
def Outcome.records : Outcome → Bool
  | .fulfilled (some false) | .rejected false => true
  | _ => false

inductive Action where
  | execute (call : Nat)
  | settle (call : Nat) (outcome : Outcome)
  | advance (ms : Nat)
  | getState
  | reset
  deriving DecidableEq

structure State where
  breaker : Breaker
  now : Nat
  /-- The calls in flight, with the state that each has read. -/
  inFlight : List (Nat × CircuitBreakerState) := []
  /-- When failures have been recorded, in order. -/
  failures : List Nat := []
  deriving DecidableEq

def State.initial (now : Nat) : State := { breaker := .new now, now }

/-- The breaker after each method that the action runs. -/
def writes (s : State) : Action → List Breaker
  | .execute _ => [(beginExecute config s.now s.breaker).2]
  | .settle _ outcome => CircuitBreaker.settle config s.now s.breaker outcome
  | .advance _ => []
  | .getState => [CircuitBreaker.getState config s.now s.breaker]
  | .reset => [CircuitBreaker.reset s.now s.breaker]

def next (s : State) (a : Action) : Option State :=
  let breaker := (writes config s a).getLastD s.breaker
  match a with
  | .execute call =>
    if call ∈ s.inFlight.map Prod.fst then none
    else
      match (beginExecute config s.now s.breaker).1 with
      | .error _ => some { s with breaker }
      | .ok currentState => some { s with breaker, inFlight := s.inFlight ++ [(call, currentState)] }
  | .settle call outcome =>
    if call ∈ s.inFlight.map Prod.fst then
      some
        { s with
          breaker
          inFlight := s.inFlight.filter (·.1 ≠ call)
          failures := if outcome.records then s.failures ++ [s.now] else s.failures }
    else none
  | .advance ms => some { s with now := s.now + ms }
  | .getState | .reset => some { s with breaker }

/-- The breaker of a process, with what uses it. -/
def machine : Machine State Action where
  start s := ∃ now, s = .initial now
  next := next config

variable {config} {now : Nat} {b b' : Breaker} {s t : State} {a : Action}

/-! ### What the methods write -/

@[simp] theorem onSuccess_state : (onSuccess now b).state = .closed := rfl

@[simp] theorem reset_state : (CircuitBreaker.reset now b).state = .closed := rfl

@[simp] theorem beginExecute_snd : (beginExecute config now b).2 = getState config now b := by
  unfold beginExecute
  dsimp only
  split <;> rfl

/-- `getState` writes nothing, or takes an expired `OPEN` to `HALF_OPEN`. -/
theorem getState_cases (config : CircuitBreakerConfig) (now : Nat) (b : Breaker) :
    getState config now b = b ∨
      b.state = .opened ∧ config.resetTimeoutMs ≤ ((now - b.lastFailureTime : Int) : Rat) ∧
        ∃ reason, getState config now b =
          { b with state := .halfOpen, history := recordTransition now .halfOpen reason b.history } := by
  unfold getState
  split
  · dsimp only
    split
    · exact .inr ⟨‹_›, ‹_›, _, rfl⟩
    · exact .inl rfl
  · exact .inl rfl

/-- `onFailure` opens the breaker, or counts a failure below the threshold. -/
theorem onFailure_cases (config : CircuitBreakerConfig) (now : Nat) (b : Breaker) :
    config.failureThreshold ≤ ((b.failureCount + 1 : Nat) : Rat) ∧ (onFailure config now b).state = .opened ∨
      ((b.failureCount + 1 : Nat) : Rat) < config.failureThreshold ∧
        onFailure config now b = { b with failureCount := b.failureCount + 1, lastFailureTime := now } := by
  unfold onFailure
  dsimp only
  split
  · exact .inl ⟨‹_›, rfl⟩
  · exact .inr ⟨lt_of_not_ge ‹_›, rfl⟩

@[simp] theorem onFailure_failureCount : (onFailure config now b).failureCount = b.failureCount + 1 := by
  unfold onFailure
  dsimp only
  split <;> rfl

@[simp] theorem onFailure_lastFailureTime : (onFailure config now b).lastFailureTime = now := by
  unfold onFailure
  dsimp only
  split <;> rfl

/-- A failure leaves the state as it is, or opens the breaker. -/
theorem onFailure_state (config : CircuitBreakerConfig) (now : Nat) (b : Breaker) :
    (onFailure config now b).state = b.state ∨ (onFailure config now b).state = .opened := by
  rcases onFailure_cases config now b with ⟨-, hopened⟩ | ⟨-, hcounted⟩
  · exact .inr hopened
  · exact .inl (by rw [hcounted])

/-! ### The representation invariant -/

/-- The history is a log of transitions that ends in `state`. -/
structure Logged (state : CircuitBreakerState) (history : List CircuitBreakerStateChange) : Prop where
  isLog : TransitionLog.IsLog CircuitBreakerStateChange.state historySize history
  last : history.getLast?.map CircuitBreakerStateChange.state = some state

private theorem Logged.record {state : CircuitBreakerState} {history : List CircuitBreakerStateChange}
    (h : Logged state history) (now : Nat) (state' : CircuitBreakerState) (reason : String) :
    Logged state' (recordTransition now state' reason history) := by
  have hsize : 0 < historySize := by decide
  exact ⟨h.isLog.record hsize _, TransitionLog.getLast?_record hsize history ⟨state', now, reason⟩⟩

/-- A write of a state that records the transition where the state differs. -/
theorem Logged.record_of_ne {state : CircuitBreakerState} {history : List CircuitBreakerStateChange}
    (h : Logged state history) (now : Nat) (state' : CircuitBreakerState) (reason : String) :
    Logged state' (if state ≠ state' then recordTransition now state' reason history else history) := by
  by_cases hne : state = state'
  · simpa [hne] using hne ▸ h
  · simpa [hne] using h.record now state' reason

structure WellFormed (config : CircuitBreakerConfig) (b : Breaker) : Prop where
  closed_iff : b.state = .closed ↔ (b.failureCount : Rat) < config.failureThreshold
  logged : Logged b.state b.history

private theorem wellFormed_new (hthreshold : 1 ≤ config.failureThreshold) (now : Nat) :
    WellFormed config (.new now) := by
  constructor
  · have hpos : (0 : Rat) < config.failureThreshold := lt_of_lt_of_le (by decide) hthreshold
    simpa [Breaker.new] using hpos
  · refine ⟨⟨?_, ?_, ?_⟩, rfl⟩
    · simp [Breaker.new]
    · simp [Breaker.new, historySize]
    · exact List.isChain_singleton _

private theorem WellFormed.getState (h : WellFormed config b) : WellFormed config (getState config now b) := by
  rcases getState_cases config now b with heq | ⟨hopened, -, reason, heq⟩
  · rwa [heq]
  · have hnot : ¬ (b.failureCount : Rat) < config.failureThreshold := by
      rw [← h.closed_iff, hopened]
      decide
    rw [heq]
    exact ⟨by simpa using hnot, h.logged.record now .halfOpen reason⟩

private theorem WellFormed.onSuccess (hthreshold : 1 ≤ config.failureThreshold) (h : WellFormed config b) :
    WellFormed config (onSuccess now b) := by
  have hpos : (0 : Rat) < config.failureThreshold := lt_of_lt_of_le (by decide) hthreshold
  exact ⟨by simpa [CircuitBreaker.onSuccess] using hpos, h.logged.record_of_ne now .closed _⟩

private theorem WellFormed.reset (hthreshold : 1 ≤ config.failureThreshold) (h : WellFormed config b) :
    WellFormed config (CircuitBreaker.reset now b) := by
  have hpos : (0 : Rat) < config.failureThreshold := lt_of_lt_of_le (by decide) hthreshold
  exact ⟨by simpa [CircuitBreaker.reset] using hpos, h.logged.record_of_ne now .closed _⟩

private theorem WellFormed.onFailure (h : WellFormed config b) : WellFormed config (onFailure config now b) := by
  by_cases hle : config.failureThreshold ≤ ((b.failureCount + 1 : Nat) : Rat)
  · simp only [CircuitBreaker.onFailure, if_pos hle]
    exact ⟨iff_of_false nofun (not_lt_of_ge hle), h.logged.record_of_ne now .opened _⟩
  · simp only [CircuitBreaker.onFailure, if_neg hle]
    have hcounted : ((b.failureCount + 1 : Nat) : Rat) < config.failureThreshold := lt_of_not_ge hle
    have hbefore : (b.failureCount : Rat) < config.failureThreshold := by
      refine lt_of_le_of_lt ?_ hcounted
      exact_mod_cast Nat.le_succ b.failureCount
    exact ⟨iff_of_true (h.closed_iff.2 hbefore) hcounted, h.logged⟩

private theorem WellFormed.writes (hthreshold : 1 ≤ config.failureThreshold) (h : WellFormed config s.breaker) :
    ∀ b ∈ writes config s a, WellFormed config b := by
  intro b hb
  cases a with
  | execute call =>
    obtain rfl : b = _ := by simpa [CircuitBreaker.writes] using hb
    exact h.getState
  | settle call outcome =>
    rcases outcome with (_ | _ | _) | _ | _ <;> simp only [CircuitBreaker.writes, settle, List.mem_cons,
      List.not_mem_nil, or_false] at hb
    · exact hb ▸ h.onSuccess hthreshold
    · rcases hb with rfl | rfl
      · exact h.onSuccess hthreshold
      · exact (h.onSuccess hthreshold).onFailure
    · exact hb ▸ h.onSuccess hthreshold
    · exact hb ▸ h.onFailure
  | advance ms => simp [CircuitBreaker.writes] at hb
  | getState =>
    obtain rfl : b = _ := by simpa [CircuitBreaker.writes] using hb
    exact h.getState
  | reset =>
    obtain rfl : b = _ := by simpa [CircuitBreaker.writes] using hb
    exact h.reset hthreshold

/-! ### Steps and runs -/

/-- The breaker after a step is the one that the action has written last. -/
theorem next_breaker (h : next config s a = some t) : t.breaker = (writes config s a).getLastD s.breaker := by
  unfold next at h
  cases a with
  | execute call =>
    dsimp only at h
    split at h
    · cases h
    · split at h <;> exact Option.some.inj h ▸ rfl
  | settle call outcome =>
    dsimp only at h
    split at h
    · exact Option.some.inj h ▸ rfl
    · cases h
  | advance ms => exact Option.some.inj h ▸ rfl
  | getState => exact Option.some.inj h ▸ rfl
  | reset => exact Option.some.inj h ▸ rfl

private theorem WellFormed.next (hthreshold : 1 ≤ config.failureThreshold) (hs : WellFormed config s.breaker)
    (h : next config s a = some t) : WellFormed config t.breaker := by
  rw [next_breaker h]
  rcases List.eq_nil_or_concat (CircuitBreaker.writes config s a) with hnil | ⟨bs, b, hconcat⟩
  · simpa [hnil] using hs
  · have hb : WellFormed config b := hs.writes (a := a) hthreshold b (by simp [hconcat])
    simpa [hconcat] using hb

theorem wellFormed_of_reachable (hthreshold : 1 ≤ config.failureThreshold) (hs : (machine config).Reachable s) :
    WellFormed config s.breaker := by
  refine hs.invariant (I := fun s => WellFormed config s.breaker) ?_ ?_
  · rintro s ⟨now, rfl⟩
    exact wellFormed_new hthreshold now
  · intro s a t hs h
    exact hs.next hthreshold h

/-- In every reachable state the breaker is `CLOSED` exactly below the threshold, its history is a bounded log of
transitions that ends in its state, and a failure recorded in `HALF_OPEN` opens it anew. -/
theorem breaker_representation (hthreshold : 1 ≤ config.failureThreshold) (hs : (machine config).Reachable s) :
    (s.breaker.state = .closed ↔ (s.breaker.failureCount : Rat) < config.failureThreshold) ∧
      (s.breaker.history ≠ [] ∧ s.breaker.history.length ≤ 200 ∧
        s.breaker.history.IsChain (fun x y => x.state ≠ y.state) ∧
        s.breaker.history.getLast?.map CircuitBreakerStateChange.state = some s.breaker.state) ∧
      ∀ call t, s.breaker.state = .halfOpen → next config s (.settle call (.rejected false)) = some t →
        t.breaker.state = .opened ∧ t.breaker.lastFailureTime = s.now := by
  have hwf := wellFormed_of_reachable hthreshold hs
  refine ⟨hwf.closed_iff, ?_, ?_⟩
  · exact ⟨hwf.logged.isLog.ne_nil, hwf.logged.isLog.length_le, hwf.logged.isLog.isChain, hwf.logged.last⟩
  · intro call t hhalf hnext
    have hbreaker : t.breaker = onFailure config s.now s.breaker := next_breaker hnext
    have hreached : config.failureThreshold ≤ (s.breaker.failureCount : Rat) := by
      refine le_of_not_gt fun hlt => ?_
      rw [hwf.closed_iff.2 hlt] at hhalf
      cases hhalf
    rw [hbreaker]
    constructor
    · rcases onFailure_cases config s.now s.breaker with ⟨-, hopened⟩ | ⟨hlt, -⟩
      · exact hopened
      · have hsucc : (s.breaker.failureCount : Rat) ≤ ((s.breaker.failureCount + 1 : Nat) : Rat) := by
          exact_mod_cast Nat.le_succ s.breaker.failureCount
        exact absurd (lt_of_le_of_lt (hreached.trans hsucc) hlt) (lt_irrefl _)
    · exact onFailure_lastFailureTime

/-- A breaker that one failure opens, for ten milliseconds. -/
def probeConfig : CircuitBreakerConfig := ⟨1, 10⟩

/-- A call fails, and ten milliseconds later another one probes the runtime. -/
def probeActions : List Action :=
  [.execute 1, .settle 1 (.rejected false), .advance 10, .execute 2]

theorem breaker_representation_probe :
    ∃ s t, (machine probeConfig).exec (.initial 0) probeActions = some s ∧ s.breaker.state = .halfOpen ∧
      next probeConfig s (.settle 2 (.rejected false)) = some t ∧
      t.breaker.state = .opened ∧ t.breaker.lastFailureTime = 10 := by
  have hrun : ∃ s t, (machine probeConfig).exec (.initial 0) probeActions = some s ∧ s.breaker.state = .halfOpen ∧
      s.now = 10 ∧ next probeConfig s (.settle 2 (.rejected false)) = some t :=
    ⟨_, _, rfl, by decide +kernel, rfl, rfl⟩
  obtain ⟨s, t, hexec, hhalf, hnow, hnext⟩ := hrun
  have hreach : (machine probeConfig).Reachable s := ⟨_, _, ⟨0, rfl⟩, hexec⟩
  have hthreshold : 1 ≤ probeConfig.failureThreshold := by decide +kernel
  refine ⟨s, t, hexec, hhalf, hnext, ?_⟩
  simpa only [hnow] using (breaker_representation hthreshold hreach).2.2 2 t hhalf hnext

/-! ### Leaving `OPEN` -/

/-- A write takes the breaker out of `OPEN` only where a reset does, or to `HALF_OPEN` when the timeout has passed since
the last recorded failure. -/
def LeavesOpenLate (config : CircuitBreakerConfig) (s : State) (a : Action) (b b' : Breaker) : Prop :=
  b.state = .opened → b'.state ≠ .opened →
    a = .reset ∨
      b'.state = .halfOpen ∧
        ∃ last, s.failures.getLast? = some last ∧ config.resetTimeoutMs ≤ ((s.now - last : Int) : Rat)

/-- No write of the action takes the breaker out of `OPEN` otherwise. -/
def StaysOpen (config : CircuitBreakerConfig) (s : State) (a : Action) : Prop :=
  (s.breaker :: writes config s a).IsChain (LeavesOpenLate config s a)

/-- The action is not the success of a call that finds the breaker in `OPEN`. -/
def NoSuccessWhileOpen (s : State) (a : Action) : Prop :=
  ∀ call thrown, a = .settle call (.fulfilled thrown) → s.breaker.state ≠ .opened

/-- In `OPEN`, `lastFailureTime` is when the last failure was recorded. -/
def FailureTimed (s : State) : Prop :=
  s.breaker.state = .opened → s.failures.getLast? = some s.breaker.lastFailureTime

private theorem FailureTimed.getState (hs : FailureTimed s) (hb : s.breaker = b)
    (hopened : (CircuitBreaker.getState config now b).state = .opened) :
    s.failures.getLast? = some (CircuitBreaker.getState config now b).lastFailureTime := by
  rcases getState_cases config now b with heq | ⟨-, -, reason, heq⟩
  · rw [heq] at hopened ⊢
    exact hb ▸ hs (hb ▸ hopened)
  · rw [heq] at hopened
    cases hopened

private theorem FailureTimed.next (hs : FailureTimed s) (h : next config s a = some t) : FailureTimed t := by
  intro hopened
  have hbreaker := next_breaker h
  rw [hbreaker] at hopened ⊢
  unfold CircuitBreaker.next at h
  cases a with
  | execute call =>
    simp only [writes, beginExecute_snd, List.getLastD_cons, List.getLastD_nil] at hopened ⊢
    have hfailures : t.failures = s.failures := by
      dsimp only at h
      split at h
      · cases h
      · split at h <;> exact Option.some.inj h ▸ rfl
    rw [hfailures]
    exact hs.getState rfl hopened
  | settle call outcome =>
    dsimp only at h
    split at h
    · obtain rfl := Option.some.inj h
      -- a write that leaves the breaker open has recorded a failure at `s.now`, or there is no write
      rcases outcome with (_ | _ | _) | _ | _
      · simp [writes, settle] at hopened
      · simp [writes, settle, Outcome.records]
      · simp [writes, settle] at hopened
      · simp [writes, settle, Outcome.records]
      · simpa [writes, settle, Outcome.records] using hs hopened
    · cases h
  | advance ms => exact Option.some.inj h ▸ hs hopened
  | getState => exact Option.some.inj h ▸ hs.getState rfl hopened
  | reset => simp [writes] at hopened

private theorem leavesOpenLate_of_ne (h : b.state ≠ .opened) : LeavesOpenLate config s a b b' :=
  fun hopened => absurd hopened h

private theorem leavesOpenLate_onFailure : LeavesOpenLate config s a b (onFailure config now b) := by
  intro hopened hleft
  rcases onFailure_state config now b with hstate | hstate
  · exact absurd (hstate.trans hopened) hleft
  · exact absurd hstate hleft

/-- A read leaves `OPEN` only for `HALF_OPEN`, after the timeout. -/
theorem leavesOpenLate_getState (hs : FailureTimed s) :
    LeavesOpenLate config s a s.breaker (CircuitBreaker.getState config s.now s.breaker) := by
  intro hopened hleft
  rcases getState_cases config s.now s.breaker with heq | ⟨-, htimeout, reason, heq⟩
  · rw [heq] at hleft
    exact absurd hopened hleft
  · exact .inr ⟨by rw [heq], s.breaker.lastFailureTime, hs hopened, htimeout⟩

/-- A success closes an open breaker, at any time. -/
theorem not_leavesOpenLate_onSuccess {call : Nat} {outcome : Outcome} (hopened : b.state = .opened) :
    ¬ LeavesOpenLate config s (.settle call outcome) b (onSuccess now b) := by
  intro h
  rcases h hopened (by simp) with hreset | ⟨hhalf, -⟩
  · cases hreset
  · simp at hhalf

private theorem staysOpen_iff (hs : FailureTimed s) : StaysOpen config s a ↔ NoSuccessWhileOpen s a := by
  unfold StaysOpen
  cases a with
  | execute call =>
    refine iff_of_true ?_ (fun _ _ h => by cases h)
    simpa [writes] using leavesOpenLate_getState hs
  | settle call outcome =>
    cases outcome with
    | fulfilled thrown =>
      have hfirst : LeavesOpenLate config s (.settle call (.fulfilled thrown)) s.breaker (onSuccess s.now s.breaker) ↔
          s.breaker.state ≠ .opened :=
        ⟨fun h hopened => not_leavesOpenLate_onSuccess hopened h, leavesOpenLate_of_ne⟩
      have hcondition : NoSuccessWhileOpen s (.settle call (.fulfilled thrown)) ↔ s.breaker.state ≠ .opened :=
        ⟨fun h => h call thrown rfl, fun h _ _ _ => h⟩
      rw [hcondition]
      rcases thrown with _ | _ | _
      · simpa [writes, settle] using hfirst
      · simpa [writes, settle, leavesOpenLate_onFailure] using hfirst
      · simpa [writes, settle] using hfirst
    | rejected expected =>
      refine iff_of_true ?_ (fun _ _ h => by cases h)
      cases expected with
      | false => simpa [writes, settle] using leavesOpenLate_onFailure
      | true => simp [writes, settle]
  | advance ms => exact iff_of_true (by simp [writes]) (fun _ _ h => by cases h)
  | getState =>
    refine iff_of_true ?_ (fun _ _ h => by cases h)
    simpa [writes] using leavesOpenLate_getState hs
  | reset =>
    refine iff_of_true ?_ (fun _ _ h => by cases h)
    have hreset : LeavesOpenLate config s .reset s.breaker (CircuitBreaker.reset s.now s.breaker) :=
      fun _ _ => .inl rfl
    simpa [writes] using hreset

/-- A run leaves `OPEN` only by a reset or, once the timeout has passed, for `HALF_OPEN`, exactly when no call succeeds
while the breaker is in `OPEN`. -/
theorem stays_open_iff (config : CircuitBreakerConfig) (now : Nat) (as : List Action) :
    (machine config).Throughout (StaysOpen config) (.initial now) as ↔
      (machine config).Throughout NoSuccessWhileOpen (.initial now) as := by
  refine throughout_congr (I := FailureTimed) (fun s a t hs h => hs.next h) (fun s a hs => staysOpen_iff hs) ?_
  intro hopened
  cases hopened

/-- Two calls start in `CLOSED`; the failure of one opens the breaker, and the other one succeeds at once. -/
def lateSuccess : List Action :=
  [.execute 1, .execute 2, .settle 1 (.rejected false), .settle 2 (.fulfilled none)]

theorem late_success_closes_open_breaker :
    1 ≤ probeConfig.failureThreshold ∧
      ((machine probeConfig).exec (.initial 0) (lateSuccess.take 3)).map (·.breaker.state) = some .opened ∧
      ((machine probeConfig).exec (.initial 0) lateSuccess).map (·.breaker.state) = some .closed ∧
      ((machine probeConfig).exec (.initial 0) lateSuccess).map (·.now) = some 0 ∧
      ¬ (machine probeConfig).Throughout (StaysOpen probeConfig) (.initial 0) lateSuccess := by
  refine ⟨by decide +kernel, by decide +kernel, by decide +kernel, by decide +kernel, fun h => ?_⟩
  have hopened : ∃ s, (machine probeConfig).exec (.initial 0) (lateSuccess.take 3) = some s ∧
      s.breaker.state = .opened := ⟨_, rfl, by decide +kernel⟩
  obtain ⟨s, hexec, hs⟩ := hopened
  rw [← List.take_append_drop 3 lateSuccess, throughout_append] at h
  have hlast := h.2 s hexec
  exact not_leavesOpenLate_onSuccess hs (List.isChain_cons_cons.1 hlast.1).1

end MacpControlPlane.CircuitBreaker

import Mathlib.Algebra.Order.Archimedean.Basic
import Mathlib.Tactic.Linarith
import MacpControlPlane.Runtime.CallFailures

/-!
# Waiting for the session to open (`RunExecutorService.pollForOpenSession`)

A run is bound to a session that an agent opens later.  The executor asks for the session, waits, and asks again, each
time for longer, until it gets an answer that settles the matter or the time is up.

`Round` is what the program finds in one pass of the loop: the clock at its head, counted from `startedAt`, whether the
service is shutting down, and the answer to `getSession`.
-/

namespace MacpControlPlane.SessionPolling

open Js

variable {N : Type}

structure PollConfig where
  sessionPollBaseMs : Rat
  sessionPollMaxMs : Rat
  sessionPollTimeoutMs : Rat

/-- What is thrown in the loop. -/
inductive PollError where
  | appException (errorCode : ErrorCode) (message : String) (http : Nat) (macpErrorCode : Option String)
  /-- Any other error, as that of an open breaker. -/
  | other
  deriving DecidableEq

/-- What `unary('GetSession', …)` throws for a failure of the call. -/
def PollError.ofFailure (N : Type) [JsNumber N] : CallFailure → PollError
  | .service error =>
    let mapped := mapGrpcError (N := N) error "GetSession"
    .appException mapped.errorCode mapped.message mapped.http mapped.metadata.macpErrorCode
  | .other => .other

def sessionExpired (sessionId : String) : PollError :=
  .appException .sessionExpired s!"session {sessionId} expired before any agent opened it" 400 none

def sessionCancelled (sessionId : String) : PollError :=
  .appException .sessionCancelled
    s!"session {sessionId} was cancelled before the control plane observed it open" 409 none

/-- The text has the configured number as JavaScript writes it. -/
def timedOut (timeoutMs sessionId : String) : PollError :=
  .appException .runtimeTimeout
    s!"timed out after {timeoutMs}ms waiting for initiator agent to open session {sessionId}" 504 none

/-- `pollError instanceof AppException && !isRetryableNotFound`, negated. -/
def PollError.isRetryable : PollError → Bool
  | .appException errorCode _ _ macpErrorCode =>
    errorCode = .notFound && (macpErrorCode = none || macpErrorCode = some "SESSION_NOT_FOUND")
  | .other => true

/-- The body of the `try`: `none` where it falls through. -/
def inspected (sessionId : String) (snapshot : RuntimeSessionSnapshot) :
    Except PollError (Option RuntimeSessionSnapshot) :=
  if snapshot.state = "SESSION_STATE_OPEN" then .ok (some snapshot)
  else if snapshot.state = "SESSION_STATE_EXPIRED" then .error (sessionExpired sessionId)
  else if snapshot.state = "SESSION_STATE_RESOLVED" then .ok (some snapshot)
  else if snapshot.state = "SESSION_STATE_CANCELLED" then .error (sessionCancelled sessionId)
  else .ok none

structure Round where
  headAt : Rat
  shuttingDown : Bool := false
  answer : Except PollError RuntimeSessionSnapshot

/-- How the loop ends. -/
inductive PollEnd where
  | session (snapshot : RuntimeSessionSnapshot)
  /-- `undefined`, on shutdown. -/
  | undefined
  | throws (error : PollError)
  deriving DecidableEq

/-- The `try` of a pass with its `catch`: `none` where the loop goes on. -/
def settled (sessionId : String) (answer : Except PollError RuntimeSessionSnapshot) : Option PollEnd :=
  match answer.bind (inspected sessionId) with
  | .ok (some snapshot) => some (.session snapshot)
  | .ok none => none
  | .error error => if error.isRetryable then none else some (.throws error)

/-- `Math.min(base * 2 ** (attempt - 1), max)` after the pass `i`, of which `attempt` is `i + 1`. -/
def delay (config : PollConfig) (i : Nat) : Rat := min (config.sessionPollBaseMs * 2 ^ i) config.sessionPollMaxMs

/-- The calls of `getSession`, and how the loop ends. -/
structure PollRun where
  polls : Nat
  ending : PollEnd
  deriving DecidableEq

variable (config : PollConfig) (sessionId timeoutText : String) (rounds : Nat → Round)

/-- The loop from its pass `i` on, with a bound on the passes. -/
def pollLoop : Nat → Nat → Option PollRun
  | 0, _ => none
  | fuel + 1, i =>
    if (rounds i).headAt < config.sessionPollTimeoutMs then
      if (rounds i).shuttingDown then some ⟨i, .undefined⟩
      else
        match settled sessionId (rounds i).answer with
        | some ending => some ⟨i + 1, ending⟩
        | none => pollLoop fuel (i + 1)
    else some ⟨i, .throws (timedOut timeoutText sessionId)⟩

def pollForOpenSession (fuel : Nat) : Option PollRun := pollLoop config sessionId timeoutText rounds fuel 0

/-! ### What is not settled yet -/

/-- An answer that the loop takes for a session that has not been opened yet. -/
inductive NotYet (N : Type) [JsNumber N] : Except PollError RuntimeSessionSnapshot → Prop
  | notFound {error : ServiceError} (hcode : error.registryCode = some "SESSION_NOT_FOUND") :
    NotYet N (.error (.ofFailure N (.service error)))
  | uncoded {error : ServiceError} (hcode : error.registryCode = none) (hstatus : error.code = 5) :
    NotYet N (.error (.ofFailure N (.service error)))
  | other : NotYet N (.error .other)
  | snapshot {snapshot : RuntimeSessionSnapshot}
    (hstate : snapshot.state ∉ ["SESSION_STATE_OPEN", "SESSION_STATE_EXPIRED", "SESSION_STATE_RESOLVED",
      "SESSION_STATE_CANCELLED"]) : NotYet N (.ok snapshot)

/-- Of the statuses without a code only NOT_FOUND says that there is no such thing. -/
theorem mapping_notFound_iff (code : Int) :
    (grpcStatusToHttp.lookup code).map ErrorMapping.code = some .notFound ↔ code = 5 := by
  have htable : ∀ entry ∈ grpcStatusToHttp, entry.2.code = .notFound → entry.1 = 5 := by decide
  constructor
  · intro h
    obtain ⟨mapping, hlookup, hcode⟩ := Option.map_eq_some_iff.1 h
    exact htable (code, mapping) (mem_of_lookup hlookup) hcode
  · rintro rfl
    rfl

/-- The errors of the runtime that the loop does not stop at. -/
theorem isRetryable_ofFailure [JsNumber N] (error : ServiceError) :
    (PollError.ofFailure N (.service error)).isRetryable = true ↔
      error.registryCode = some "SESSION_NOT_FOUND" ∨ error.registryCode = none ∧ error.code = 5 := by
  have hmapped : (PollError.ofFailure N (.service error)).isRetryable = true ↔
      (error.mapping.map ErrorMapping.code).getD .internalError = .notFound ∧
        (error.registryCode = none ∨ error.registryCode = some "SESSION_NOT_FOUND") := by
    simp only [PollError.ofFailure, PollError.isRetryable, mapGrpcError_errorCode, mapGrpcError_macpErrorCode,
      Bool.and_eq_true, Bool.or_eq_true, decide_eq_true_eq]
  rw [hmapped]
  cases hcode : error.registryCode with
  | none =>
    have hmapping : error.mapping = grpcStatusToHttp.lookup error.code := by
      unfold ServiceError.mapping
      rw [hcode]
      rfl
    have hiff := mapping_notFound_iff error.code
    rw [← hmapping] at hiff
    cases hvalue : error.mapping with
    | none => simpa [hvalue] using hiff
    | some mapping => simpa [hvalue] using hiff
  | some code =>
    by_cases hsession : code = "SESSION_NOT_FOUND"
    · subst hsession
      have hmapping : error.mapping = some ⟨404, .notFound⟩ := by
        unfold ServiceError.mapping
        rw [hcode]
        rfl
      simp [hmapping]
    · simp [hsession]

private theorem NotYet.settled [JsNumber N] {answer : Except PollError RuntimeSessionSnapshot} (h : NotYet N answer)
    (sessionId : String) : settled sessionId answer = none := by
  unfold SessionPolling.settled
  cases h with
  | notFound hcode =>
    have hretry := (isRetryable_ofFailure (N := N) _).2 (Or.inl hcode)
    simp [Except.bind, hretry]
  | uncoded hcode hstatus =>
    have hretry := (isRetryable_ofFailure (N := N) _).2 (Or.inr ⟨hcode, hstatus⟩)
    simp [Except.bind, hretry]
  | other => rfl
  | snapshot hstate =>
    simp only [List.mem_cons, List.not_mem_nil, or_false, not_or] at hstate
    simp [Except.bind, inspected, hstate]

/-! ### How long the loop goes on -/

variable {config sessionId timeoutText rounds}

/-- A timer does not fire early. -/
def TimersWait (config : PollConfig) (rounds : Nat → Round) : Prop :=
  0 ≤ (rounds 0).headAt ∧ ∀ i, (rounds i).headAt + delay config i ≤ (rounds (i + 1)).headAt

private theorem min_le_delay (hbase : 0 < config.sessionPollBaseMs) (i : Nat) :
    min config.sessionPollBaseMs config.sessionPollMaxMs ≤ delay config i := by
  have hpow : (1 : Rat) ≤ 2 ^ i := one_le_pow₀ (by decide)
  have hgrows : config.sessionPollBaseMs ≤ config.sessionPollBaseMs * 2 ^ i := le_mul_of_one_le_right hbase.le hpow
  exact min_le_min_right _ hgrows

private theorem TimersWait.headAt_ge (h : TimersWait config rounds) (hbase : 0 < config.sessionPollBaseMs) (i : Nat) :
    i * min config.sessionPollBaseMs config.sessionPollMaxMs ≤ (rounds i).headAt := by
  induction i with
  | zero => simpa using h.1
  | succ i ih =>
    have hdelay := min_le_delay hbase i
    have hnext := h.2 i
    push_cast
    linarith

/-- The loop ends by the first pass that comes too late, and each of its calls has been made in time. -/
theorem exists_pollLoop (fuel i : Nat) (hlate : config.sessionPollTimeoutMs ≤ (rounds (i + fuel)).headAt) :
    ∃ run, pollLoop config sessionId timeoutText rounds (fuel + 1) i = some run ∧
      ∀ j, i ≤ j → j < run.polls → (rounds j).headAt < config.sessionPollTimeoutMs := by
  induction fuel generalizing i with
  | zero =>
    have hover : ¬ (rounds i).headAt < config.sessionPollTimeoutMs := not_lt.2 hlate
    unfold pollLoop
    rw [if_neg hover]
    exact ⟨_, rfl, fun j hij hj => absurd hj (Nat.not_lt.2 hij)⟩
  | succ fuel ih =>
    unfold pollLoop
    by_cases htime : (rounds i).headAt < config.sessionPollTimeoutMs
    · rw [if_pos htime]
      split
      · exact ⟨_, rfl, fun j hij hj => absurd hj (Nat.not_lt.2 hij)⟩
      · cases hsettled : settled sessionId (rounds i).answer with
        | some ending =>
          refine ⟨_, rfl, fun j hij hj => ?_⟩
          have hlast : j < i + 1 := hj
          obtain rfl : j = i := by omega
          exact htime
        | none =>
          have hlate' : config.sessionPollTimeoutMs ≤ (rounds (i + 1 + fuel)).headAt := by
            rw [Nat.add_right_comm]
            exact hlate
          obtain ⟨run, hrun, hpolls⟩ := ih (i + 1) hlate'
          refine ⟨run, hrun, fun j hij hj => ?_⟩
          rcases Nat.eq_or_lt_of_le hij with rfl | hlt
          · exact htime
          · exact hpolls j hlt hj
    · rw [if_neg htime]
      exact ⟨_, rfl, fun j hij hj => absurd hj (Nat.not_lt.2 hij)⟩

/-- Whatever the runtime answers, the loop ends, after at most one call more than there are shortest delays in the
time. -/
theorem pollForOpenSession_ends (hbase : 0 < config.sessionPollBaseMs) (hwait : TimersWait config rounds) {fuel : Nat}
    (hfuel : config.sessionPollTimeoutMs ≤ fuel * min config.sessionPollBaseMs config.sessionPollMaxMs) :
    ∃ run, pollForOpenSession config sessionId timeoutText rounds (fuel + 1) = some run ∧
      ∀ n, run.polls = n + 1 →
        n * min config.sessionPollBaseMs config.sessionPollMaxMs < config.sessionPollTimeoutMs := by
  have hlate : config.sessionPollTimeoutMs ≤ (rounds (0 + fuel)).headAt := by
    rw [Nat.zero_add]
    exact hfuel.trans (hwait.headAt_ge hbase fuel)
  obtain ⟨run, hrun, hpolls⟩ := exists_pollLoop fuel 0 hlate
  refine ⟨run, hrun, fun n hn => ?_⟩
  have hlast := hpolls n (Nat.zero_le n) (by omega)
  exact lt_of_le_of_lt (hwait.headAt_ge hbase n) hlast

/-- A poll with a pass each second. -/
def secondsConfig : PollConfig := ⟨100, 1000, 5000⟩

/-- The session opens in the third second. -/
def secondsRounds (i : Nat) : Round where
  headAt := i * 1000
  answer :=
    if i < 2 then .error (.ofFailure (Option Rat) (.service { code := 5, macpErrorCode := some "SESSION_NOT_FOUND" }))
    else .ok { sessionId := "s", mode := "m", state := "SESSION_STATE_OPEN" }

private theorem timersWait_seconds : TimersWait secondsConfig secondsRounds := by
  refine ⟨by decide +kernel, fun i => ?_⟩
  have hdelay : delay secondsConfig i ≤ 1000 := min_le_right _ _
  simp only [secondsRounds]
  push_cast
  linarith

theorem pollForOpenSession_ends_seconds :
    ∃ run, pollForOpenSession secondsConfig "s" "5000" secondsRounds 51 = some run ∧
      ∀ n, run.polls = n + 1 → n * min secondsConfig.sessionPollBaseMs secondsConfig.sessionPollMaxMs < 5000 :=
  pollForOpenSession_ends (by decide) timersWait_seconds (by decide +kernel)

/-! ### The session is seen when it opens -/

/-- A pass takes at most `latency` more than its delay: the call, and what the timer is late. -/
def PassesQuick (config : PollConfig) (latency : Rat) (rounds : Nat → Round) : Prop :=
  (rounds 0).headAt ≤ latency ∧ ∀ i, (rounds (i + 1)).headAt ≤ (rounds i).headAt + delay config i + latency

/-- The passes that do not settle the matter come before the one that does. -/
theorem pollLoop_eq {i j fuel : Nat} (hij : i ≤ j) (hfuel : j < i + fuel)
    (hgo : ∀ k, i ≤ k → k < j → (rounds k).headAt < config.sessionPollTimeoutMs ∧ (rounds k).shuttingDown = false ∧
      settled sessionId (rounds k).answer = none)
    (htime : (rounds j).headAt < config.sessionPollTimeoutMs) (hup : (rounds j).shuttingDown = false)
    {ending : PollEnd} (hsettled : settled sessionId (rounds j).answer = some ending) :
    pollLoop config sessionId timeoutText rounds fuel i = some ⟨j + 1, ending⟩ := by
  induction fuel generalizing i with
  | zero => omega
  | succ fuel ih =>
    unfold pollLoop
    rcases Nat.eq_or_lt_of_le hij with rfl | hlt
    · simp only [htime, hup, hsettled, if_true, Bool.false_eq_true, if_false]
    · obtain ⟨htime', hup', hnone⟩ := hgo i (Nat.le_refl i) hlt
      simp only [htime', hup', hnone, if_true, Bool.false_eq_true, if_false]
      exact ih hlt (by omega) fun k hk => hgo k (by omega)

/-- Let an agent open the session at `opensAt`, and let the calls before that find no session, or fail without a status
of the runtime.  If there is time for one more delay and one more call after `opensAt`, the loop returns the session, in
its first pass from `opensAt` on, and at most that much later. -/
theorem pollForOpenSession_sees [JsNumber N] (hbase : 0 < config.sessionPollBaseMs)
    (hmax : 0 < config.sessionPollMaxMs) (hwait : TimersWait config rounds) {latency opensAt : Rat}
    (hquick : PassesQuick config latency rounds) (hopensAt : 0 ≤ opensAt) (hup : ∀ i, (rounds i).shuttingDown = false)
    (hbefore : ∀ i, (rounds i).headAt < opensAt → NotYet N (rounds i).answer)
    (hafter : ∀ i, opensAt ≤ (rounds i).headAt → ∃ snapshot, (rounds i).answer = .ok snapshot ∧
      (snapshot.state = "SESSION_STATE_OPEN" ∨ snapshot.state = "SESSION_STATE_RESOLVED"))
    (hroom : opensAt + config.sessionPollMaxMs + latency < config.sessionPollTimeoutMs) {fuel : Nat}
    (hfuel : config.sessionPollTimeoutMs ≤ fuel * min config.sessionPollBaseMs config.sessionPollMaxMs) :
    ∃ n snapshot, pollForOpenSession config sessionId timeoutText rounds (fuel + 1) = some ⟨n + 1, .session snapshot⟩ ∧
      (rounds n).answer = .ok snapshot ∧ opensAt ≤ (rounds n).headAt ∧
      (rounds n).headAt ≤ opensAt + config.sessionPollMaxMs + latency ∧
      ∀ i < n, (rounds i).headAt < opensAt := by
  have hlatency : 0 ≤ latency := hwait.1.trans hquick.1
  have hfound : ∃ n, opensAt ≤ (rounds n).headAt := by
    refine ⟨fuel, ?_⟩
    have hlate := hfuel.trans (hwait.headAt_ge hbase fuel)
    linarith
  classical
  have hn := Nat.find_spec hfound
  have hleast : ∀ i < Nat.find hfound, (rounds i).headAt < opensAt := fun i hi => not_le.1 (Nat.find_min hfound hi)
  have hfuelLe : Nat.find hfound ≤ fuel := by
    refine Nat.find_min' hfound ?_
    have hlate := hfuel.trans (hwait.headAt_ge hbase fuel)
    linarith
  generalize Nat.find hfound = n at hn hleast hfuelLe
  have hsoon : (rounds n).headAt ≤ opensAt + config.sessionPollMaxMs + latency := by
    cases n with
    | zero =>
      have hfirst := hquick.1
      linarith
    | succ n =>
      have hlast := hleast n (Nat.lt_succ_self n)
      have hnext := hquick.2 n
      have hdelay : delay config n ≤ config.sessionPollMaxMs := min_le_right _ _
      linarith
  obtain ⟨snapshot, hanswer, hstate⟩ := hafter n hn
  have hsettled : settled sessionId (rounds n).answer = some (.session snapshot) := by
    rw [hanswer]
    rcases hstate with hstate | hstate <;> simp [settled, Except.bind, inspected, hstate]
  refine ⟨n, snapshot, ?_, hanswer, hn, hsoon, hleast⟩
  refine pollLoop_eq (Nat.zero_le n) (by omega) (fun k _ hk => ?_) (lt_of_le_of_lt hsoon hroom) (hup n) hsettled
  have hearly := hleast k hk
  exact ⟨by linarith, hup k, (hbefore k hearly).settled sessionId⟩

theorem pollForOpenSession_sees_seconds :
    ∃ n snapshot, pollForOpenSession secondsConfig "s" "5000" secondsRounds 51 = some ⟨n + 1, .session snapshot⟩ ∧
      (secondsRounds n).answer = .ok snapshot ∧ 1500 ≤ (secondsRounds n).headAt ∧
      (secondsRounds n).headAt ≤ 1500 + 1000 + 900 ∧ ∀ i < n, (secondsRounds i).headAt < 1500 := by
  have hquick : PassesQuick secondsConfig 900 secondsRounds := by
    refine ⟨by decide +kernel, fun i => ?_⟩
    have hbase : 0 < secondsConfig.sessionPollBaseMs := by decide
    have hdelay : 100 ≤ delay secondsConfig i := min_le_delay hbase i
    simp only [secondsRounds]
    push_cast
    linarith
  have hbefore : ∀ i, (secondsRounds i).headAt < 1500 → NotYet (Option Rat) (secondsRounds i).answer := by
    intro i hi
    have hlt : i < 2 := by
      have hcast : (i : Rat) * 1000 < 1500 := hi
      by_contra hge
      have hmany : (2 : Rat) ≤ i := by exact_mod_cast Nat.not_lt.1 hge
      linarith
    simp only [secondsRounds, hlt, if_true]
    exact .notFound (by decide)
  have hafter : ∀ i, 1500 ≤ (secondsRounds i).headAt → ∃ snapshot, (secondsRounds i).answer = .ok snapshot ∧
      (snapshot.state = "SESSION_STATE_OPEN" ∨ snapshot.state = "SESSION_STATE_RESOLVED") := by
    intro i hi
    have hge : ¬ i < 2 := by
      intro hlt
      have hfew : (i : Rat) ≤ 1 := by exact_mod_cast Nat.le_of_lt_succ hlt
      have hcast : 1500 ≤ (i : Rat) * 1000 := hi
      linarith
    simp only [secondsRounds, hge, if_false]
    exact ⟨_, rfl, Or.inl rfl⟩
  exact pollForOpenSession_sees (by decide) (by decide) timersWait_seconds hquick (by decide) (fun _ => rfl) hbefore
    hafter (by decide +kernel) (by decide +kernel)

end MacpControlPlane.SessionPolling

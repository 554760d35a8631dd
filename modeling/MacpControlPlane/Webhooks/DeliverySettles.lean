import MacpControlPlane.Lib.Progress
import MacpControlPlane.Lib.Promises
import MacpControlPlane.Webhooks.WebhookDelivery

/-!
# Deliveries that settle (`webhooks/webhook.service.ts`)

`track` puts the promise of a delivery into `inFlight` and chains the removal onto it.  `onModuleDestroy` clears the
timers of the deliveries that sleep in their backoff and waits, for two seconds at most, for those in flight.

A delivery goes through the phases of `WebhookDelivery`, by the same functions; here its timer, what it throws and the
set `inFlight` matter, and not the row that it writes.  The deliveries of a process settle if and only if no failure
that cannot be recorded is thrown before the shutdown and the shutdown finds nobody asleep (`deliveries_settle_iff`).
-/

namespace MacpControlPlane.DeliverySettles

open WebhookDelivery (Phase Outcome loopHead callPhase settledPhase maxAttempts)

/-- A delivery that is tracked. -/
structure Tracked where
  /-- Where `deliverWithTracking` is; `returned` if its promise has settled. -/
  phase : Phase
  /-- Its timer is in `pendingTimers`. -/
  timer : Bool := false
  /-- What it has thrown. -/
  error : Option String := none
  /-- Its promise is in `inFlight`: the callback of `finally` has not run. -/
  inFlight : Bool := true
  deriving DecidableEq

/-- What a delivery waits for. -/
inductive Step where
  /-- The head of the loop. -/
  | fetch
  | settle (outcome : Outcome)
  | markDelivered (error : Option String)
  | markFailed (error : Option String)
  /-- The timer of the backoff fires. -/
  | fire
  /-- The callback of `finally`. -/
  | cleanup

def Tracked.next (shuttingDown : Bool) (d : Tracked) : Step → Option Tracked
  | .fetch =>
    match d.phase with
    | .attempting attempt => some { d with phase := if shuttingDown then .returned else .posted attempt }
    | _ => none
  | .settle outcome =>
    match d.phase with
    | .posted attempt => some { d with phase := settledPhase attempt outcome }
    | _ => none
  | .markDelivered error =>
    match d.phase with
    | .delivering attempt _ =>
      match error with
      | none => some { d with phase := .returned }
      -- `markDeliveredSafe` throws into the `catch` of the loop.
      | some message => some { d with phase := if shuttingDown then .returned else .failing attempt message }
    | _ => none
  | .markFailed error =>
    match d.phase with
    | .failing attempt _ =>
      match error with
      | none =>
        if attempt < maxAttempts then some { d with phase := .waiting attempt, timer := true }
        else some { d with phase := .returned }
      -- Nobody catches what `markFailedSafe` throws.
      | some message => some { d with phase := .returned, error := if shuttingDown then none else some message }
    | .skipping =>
      match error with
      | none => some { d with phase := .returned }
      | some message => some { d with phase := .returned, error := if shuttingDown then none else some message }
    | _ => none
  | .fire =>
    match d.phase with
    | .waiting attempt =>
      if d.timer then
        some { d with phase := if shuttingDown then .returned else loopHead (attempt + 1), timer := false }
      else none
    | _ => none
  | .cleanup =>
    match d.phase with
    | .returned => if d.inFlight then some { d with inFlight := false } else none
    | _ => none

structure State where
  tracked : List Tracked := []
  shuttingDown : Bool := false
  /-- The deliveries that `onModuleDestroy` is waiting for. -/
  drain : Option (List Nat) := none

inductive Action where
  /-- `fireEvent` or `retryPending` starts a delivery. -/
  | track (secret : String) (startAttempt : Nat)
  | step (i : Nat) (step : Step)
  /-- `onModuleDestroy` -/
  | destroy
  /-- The `allSettled` of `onModuleDestroy` settles. -/
  | drained
  /-- The two seconds are over. -/
  | timeout

/-- `[...this.inFlight]` -/
def State.inFlight (s : State) : List Nat :=
  (List.range s.tracked.length).filter fun i => s.tracked[i]?.any (·.inFlight)

/-- One step. -/
def next (s : State) : Action → Option State
  | .track secret startAttempt =>
    some { s with tracked := s.tracked ++ [{ phase := callPhase startAttempt (some secret) }] }
  | .step i step =>
    s.tracked[i]?.bind fun d =>
      (d.next s.shuttingDown step).map fun d' => { s with tracked := s.tracked.set i d' }
  | .destroy =>
    if s.shuttingDown then none
    else
      some
        { shuttingDown := true
          tracked := s.tracked.map fun d => { d with timer := false }
          drain := if s.inFlight = [] then none else some s.inFlight }
  | .drained =>
    s.drain.bind fun waiting =>
      if ∀ i ∈ waiting, ∀ d ∈ s.tracked[i]?, d.phase = .returned then some { s with drain := none } else none
  | .timeout => s.drain.map fun _ => { s with drain := none }

def machine : Machine State Action where
  start s := s = {}
  next := next

/-- A step of a delivery. -/
def own : Action → Prop
  | .step _ _ => True
  | _ => False

/-! ### Promises -/

/-- The promise of a delivery, and the one that `finally` returns. -/
inductive Link where
  | delivery | cleanup
  deriving DecidableEq

/-- What the promise of a delivery has settled with. -/
def Tracked.result (d : Tracked) : Option (Except String Unit) :=
  if d.phase = .returned then some (d.error.elim (.ok ()) .error) else none

/-- The promises of the deliveries. -/
def State.heap (s : State) : Promises.Heap (Nat × Link) String Unit where
  source
    | (i, .delivery) => s.tracked[i]?.map fun _ => .value
    | (i, .cleanup) => s.tracked[i]?.map fun _ => .onSettled (i, .delivery)
  result
    | (i, .delivery) => s.tracked[i]?.bind Tracked.result
    | (i, .cleanup) => s.tracked[i]?.bind fun d => if d.inFlight then none else d.result

/-- Every delivery has resolved and is not in `inFlight` any more; no rejection is unhandled; and `onModuleDestroy` can
go on. -/
structure Settled (s : State) : Prop where
  resolved : ∀ i < s.tracked.length, s.heap.result (i, .delivery) = some (.ok ())
  removed : s.inFlight = []
  handled : ∀ p e, s.heap.result p = some (.error e) → s.heap.Handled p
  drained : s.drain.isSome → (next s .drained).isSome

/-- A failure that cannot be recorded comes after the shutdown has begun, and the shutdown finds no delivery in its
backoff. -/
def Absorbed (s : State) : Action → Prop
  | .step _ (.markFailed (some _)) => s.shuttingDown = true
  | .destroy => ∀ d ∈ s.tracked, ∀ attempt, d.phase ≠ .waiting attempt
  | _ => True

/-! ### One delivery -/

variable {shuttingDown : Bool} {d d' : Tracked} {step : Step} {s t : State} {a : Action} {i : Nat}

/-- The steps to the end of the loop, at most: five for each attempt. -/
def phaseWork : Phase → Nat
  | .attempting attempt => 5 * (maxAttempts - attempt) + 5
  | .posted attempt => 5 * (maxAttempts - attempt) + 4
  | .delivering attempt _ => 5 * (maxAttempts - attempt) + 3
  | .failing attempt _ => 5 * (maxAttempts - attempt) + 2
  | .waiting attempt => 5 * (maxAttempts - attempt) + 1
  | .skipping => 1
  | .called _ | .returned => 0

def Tracked.work (d : Tracked) : Nat := phaseWork d.phase + d.inFlight.toNat

private theorem phaseWork_loopHead (attempt : Nat) :
    phaseWork (loopHead (attempt + 1)) < 5 * (maxAttempts - attempt) + 1 := by
  unfold loopHead
  split
  · simp only [phaseWork]
    omega
  · exact Nat.succ_pos _

private theorem phaseWork_settledPhase (attempt : Nat) (outcome : Outcome) :
    phaseWork (settledPhase attempt outcome) < 5 * (maxAttempts - attempt) + 4 := by
  unfold settledPhase
  cases outcome with
  | response status => by_cases hok : WebhookDelivery.ok status <;> simp [hok, phaseWork]
  | error message => simp [phaseWork]

private theorem Tracked.next_work (h : d.next shuttingDown step = some d') : d'.work < d.work := by
  obtain ⟨phase, timer, error, inFlight⟩ := d
  cases step with
  | fetch =>
    cases phase <;> cases h
    cases shuttingDown <;> simp [Tracked.work, phaseWork]
  | settle outcome =>
    cases phase <;> cases h
    exact Nat.add_lt_add_right (phaseWork_settledPhase _ outcome) _
  | markDelivered failure =>
    cases phase <;> cases failure <;> cases h
    · simp [Tracked.work, phaseWork]
    · cases shuttingDown <;> simp [Tracked.work, phaseWork]
  | markFailed failure =>
    cases phase <;> cases failure <;> try cases h
    case failing.none attempt message =>
      simp only [Tracked.next] at h
      split at h <;> cases h <;> simp [Tracked.work, phaseWork]
    all_goals simp [Tracked.work, phaseWork]
  | fire =>
    cases phase <;> try cases h
    rename_i attempt
    simp only [Tracked.next, Option.ite_none_right_eq_some, Option.some.injEq] at h
    obtain ⟨-, rfl⟩ := h
    cases shuttingDown
    · exact Nat.add_lt_add_right (phaseWork_loopHead attempt) _
    · simp [Tracked.work, phaseWork]
  | cleanup =>
    cases phase <;> try cases h
    simp only [Tracked.next, Option.ite_none_right_eq_some, Option.some.injEq] at h
    obtain ⟨hflight, rfl⟩ := h
    simp [Tracked.work, hflight]

/-- The delivery goes on: it has thrown nothing, and if it sleeps, its timer will wake it. -/
structure Tracked.Live (d : Tracked) : Prop where
  started : ∀ startAttempt, d.phase ≠ .called startAttempt
  timer : ∀ attempt, d.phase = .waiting attempt → d.timer = true
  error : d.error = none
  removed : d.inFlight = false → d.phase = .returned

/-- The delivery has thrown, or sleeps without a timer. -/
def Tracked.Broken (d : Tracked) : Prop :=
  (d.phase = .returned ∧ d.error ≠ none) ∨ ∃ attempt, d.phase = .waiting attempt ∧ d.timer = false

/-- `deliverWithTracking` has begun, and does not sleep. -/
def awake : Phase → Bool
  | .called _ | .waiting _ => false
  | _ => true

private theorem awake_loopHead (attempt : Nat) : awake (loopHead attempt) = true := by
  unfold loopHead
  split <;> rfl

private theorem awake_settledPhase (attempt : Nat) (outcome : Outcome) :
    awake (settledPhase attempt outcome) = true := by
  unfold settledPhase
  split
  · split <;> rfl
  · rfl

private theorem awake_callPhase (startAttempt : Nat) (secret : String) :
    awake (callPhase startAttempt (some secret)) = true := by
  simp only [callPhase]
  split
  · exact awake_loopHead _
  · rfl

private theorem Tracked.live_of_awake {phase : Phase} {timer inFlight : Bool} (hawake : awake phase = true)
    (hremoved : inFlight = false → phase = .returned) : Tracked.Live { phase, timer, inFlight } where
  started startAttempt h := by
    change phase = _ at h
    rw [h] at hawake
    cases hawake
  timer attempt h := by
    change phase = _ at h
    rw [h] at hawake
    cases hawake
  error := rfl
  removed := hremoved

/-- A delivery goes on, unless a failure of its own is thrown. -/
theorem Tracked.Live.next (hlive : d.Live) (h : d.next shuttingDown step = some d')
    (habsorbed : ∀ message, step = .markFailed (some message) → shuttingDown = true) : d'.Live := by
  obtain ⟨phase, timer, error, inFlight⟩ := d
  obtain ⟨hstarted, htimer, herror, hremoved⟩ := hlive
  change error = none at herror
  change inFlight = false → phase = .returned at hremoved
  subst herror
  have hflight : phase ≠ .returned → inFlight = false → ∀ phase', phase' = Phase.returned :=
    fun hne hfalse => absurd (hremoved hfalse) hne
  cases step with
  | fetch =>
    cases phase <;> cases h
    refine live_of_awake ?_ fun hfalse => hflight nofun hfalse _
    cases shuttingDown <;> rfl
  | settle outcome =>
    cases phase <;> cases h
    exact live_of_awake (awake_settledPhase _ outcome) fun hfalse => hflight nofun hfalse _
  | markDelivered failure =>
    cases phase <;> cases failure <;> cases h
    · exact live_of_awake rfl fun _ => rfl
    · refine live_of_awake ?_ fun hfalse => hflight nofun hfalse _
      cases shuttingDown <;> rfl
  | markFailed failure =>
    cases failure with
    | none =>
      cases phase with
      | failing attempt message =>
        simp only [Tracked.next] at h
        split at h
        · cases h
          exact ⟨nofun, fun _ _ => rfl, rfl, fun hfalse => hflight nofun hfalse _⟩
        · cases h
          exact live_of_awake rfl fun _ => rfl
      | skipping =>
        cases h
        exact live_of_awake rfl fun _ => rfl
      | _ => cases h
    | some message =>
      rw [habsorbed message rfl] at h
      cases phase <;> cases h <;> exact live_of_awake rfl fun _ => rfl
  | fire =>
    cases phase <;> try cases h
    simp only [Tracked.next, Option.ite_none_right_eq_some, Option.some.injEq] at h
    obtain ⟨-, rfl⟩ := h
    refine live_of_awake ?_ fun hfalse => hflight nofun hfalse _
    cases shuttingDown
    · exact awake_loopHead _
    · rfl
  | cleanup =>
    cases phase <;> try cases h
    simp only [Tracked.next, Option.ite_none_right_eq_some, Option.some.injEq] at h
    obtain ⟨-, rfl⟩ := h
    exact live_of_awake rfl fun _ => rfl

/-- A delivery that goes on can, until it has settled and has been removed. -/
theorem Tracked.Live.exists_next (hlive : d.Live) (hopen : d.phase ≠ .returned ∨ d.inFlight = true) :
    ∃ step, d.next shuttingDown step ≠ none := by
  obtain ⟨phase, timer, error, inFlight⟩ := d
  cases phase with
  | called startAttempt => exact absurd rfl (hlive.started startAttempt)
  | skipping => exact ⟨.markFailed none, by simp [Tracked.next]⟩
  | attempting attempt => exact ⟨.fetch, by simp [Tracked.next]⟩
  | posted attempt => exact ⟨.settle (.error ""), by simp [Tracked.next]⟩
  | delivering attempt status => exact ⟨.markDelivered none, by simp [Tracked.next]⟩
  | failing attempt message => exact ⟨.markFailed (some ""), by simp [Tracked.next]⟩
  | waiting attempt =>
    have htimer : timer = true := hlive.timer attempt rfl
    exact ⟨.fire, by simp [Tracked.next, htimer]⟩
  | returned =>
    have hflight : inFlight = true := hopen.resolve_left fun hne => hne rfl
    exact ⟨.cleanup, by simp [Tracked.next, hflight]⟩

/-- What has thrown, or sleeps for ever, stays so. -/
theorem Tracked.Broken.next (hbroken : d.Broken) (h : d.next shuttingDown step = some d') : d'.Broken := by
  obtain ⟨phase, timer, error, inFlight⟩ := d
  rcases hbroken with ⟨hphase, herror⟩ | ⟨attempt, hphase, htimer⟩
  · change phase = _ at hphase
    subst hphase
    cases step <;> try cases h
    simp only [Tracked.next, Option.ite_none_right_eq_some, Option.some.injEq] at h
    obtain ⟨-, rfl⟩ := h
    exact Or.inl ⟨rfl, herror⟩
  · change phase = _ at hphase
    change timer = false at htimer
    subst hphase htimer
    cases step <;> cases h

private theorem Tracked.broken_of_thrown {message : String} (h : d.next false (.markFailed (some message)) = some d') :
    d'.Broken := by
  obtain ⟨phase, timer, error, inFlight⟩ := d
  cases phase <;> cases h <;> exact Or.inl ⟨rfl, nofun⟩

/-! ### All deliveries -/

def State.work (s : State) : Nat := (s.tracked.map Tracked.work).sum

private theorem next_step_eq (h : next s (.step i step) = some t) :
    ∃ d d', s.tracked[i]? = some d ∧ d.next s.shuttingDown step = some d' ∧
      t = { s with tracked := s.tracked.set i d' } := by
  rw [DeliverySettles.next, Option.bind_eq_some_iff] at h
  obtain ⟨d, hd, h⟩ := h
  obtain ⟨d', hd', rfl⟩ := Option.map_eq_some_iff.1 h
  exact ⟨d, d', hd, hd', rfl⟩

/-- Every step of a delivery brings all of them nearer to their ends. -/
theorem next_work (howns : own a) (h : next s a = some t) : t.work < s.work := by
  cases a with
  | step i step =>
    obtain ⟨d, d', hd, hnext, rfl⟩ := next_step_eq h
    exact Machine.sum_map_set_lt hd (Tracked.next_work hnext)
  | _ => exact howns.elim

/-- Every delivery goes on. -/
def Inv (s : State) : Prop := ∀ d ∈ s.tracked, d.Live

private theorem Inv.next (h : Inv s) (habsorbed : Absorbed s a) (hnext : next s a = some t) : Inv t := by
  cases a with
  | track secret startAttempt =>
    cases hnext
    intro d hd
    rcases List.mem_append.1 hd with hd | hd
    · exact h d hd
    · rw [List.mem_singleton.1 hd]
      exact Tracked.live_of_awake (awake_callPhase startAttempt secret) fun hfalse => nomatch hfalse
  | step i step =>
    obtain ⟨d, d', hd, hd', rfl⟩ := next_step_eq hnext
    intro other hother
    rcases List.mem_or_eq_of_mem_set hother with hother | rfl
    · exact h other hother
    · refine (h d (List.mem_of_getElem? hd)).next hd' fun message hstep => ?_
      subst hstep
      exact habsorbed
  | destroy =>
    rw [DeliverySettles.next, Option.ite_none_left_eq_some] at hnext
    obtain ⟨-, heq⟩ := hnext
    cases heq
    intro d' hd'
    obtain ⟨d, hd, rfl⟩ := List.mem_map.1 hd'
    obtain ⟨hstarted, -, herror, hremoved⟩ := h d hd
    exact ⟨hstarted, fun attempt hphase => absurd hphase (habsorbed d hd attempt), herror, hremoved⟩
  | drained =>
    rw [DeliverySettles.next, Option.bind_eq_some_iff] at hnext
    obtain ⟨waiting, -, hnext⟩ := hnext
    rw [Option.ite_none_right_eq_some] at hnext
    obtain ⟨-, heq⟩ := hnext
    cases heq
    exact h
  | timeout =>
    rw [DeliverySettles.next, Option.map_eq_some_iff] at hnext
    obtain ⟨waiting, -, rfl⟩ := hnext
    exact h

/-- When the deliveries have come to rest, those that go on have settled and have been removed. -/
theorem Inv.settled_of_quiet (h : Inv s) (hquiet : machine.Quiet own s) :
    ∀ d ∈ s.tracked, d.phase = .returned ∧ d.error = none ∧ d.inFlight = false := by
  intro d hd
  obtain ⟨i, hi⟩ := List.mem_iff_getElem?.1 hd
  have hlive := h d hd
  by_contra hsettled
  have hopen : d.phase ≠ .returned ∨ d.inFlight = true := by
    by_contra hboth
    rw [not_or, not_not, Bool.not_eq_true] at hboth
    exact hsettled ⟨hboth.1, hlive.error, hboth.2⟩
  obtain ⟨step, hstep⟩ := hlive.exists_next hopen
  obtain ⟨d', hd'⟩ := Option.ne_none_iff_exists'.1 hstep
  have hnone : DeliverySettles.next s (.step i step) = none := hquiet (.step i step) trivial
  rw [DeliverySettles.next, hi, Option.bind_some, hd'] at hnone
  cases hnone

private theorem settled_of_returned
    (h : ∀ d ∈ s.tracked, d.phase = .returned ∧ d.error = none ∧ d.inFlight = false) : Settled s := by
  have hresult : ∀ d ∈ s.tracked, d.result = some (.ok ()) := by
    intro d hd
    obtain ⟨hphase, herror, -⟩ := h d hd
    rw [Tracked.result, if_pos hphase, herror]
    rfl
  refine ⟨fun i hi => ?_, ?_, ?_, ?_⟩
  · change s.tracked[i]?.bind Tracked.result = _
    rw [List.getElem?_eq_getElem hi]
    exact hresult _ (List.getElem_mem hi)
  · unfold State.inFlight
    rw [List.filter_eq_nil_iff]
    intro i _ hany
    obtain ⟨d, hd, hflight⟩ := Option.any_eq_true _ _ |>.1 hany
    rw [(h d (List.mem_of_getElem? hd)).2.2] at hflight
    cases hflight
  · rintro ⟨i, link⟩ e hrejected
    have hsome : ∃ d ∈ s.tracked, d.result = some (.error e) := by
      cases link with
      | delivery =>
        obtain ⟨d, hd, hresult⟩ := Option.bind_eq_some_iff.1 hrejected
        exact ⟨d, List.mem_of_getElem? hd, hresult⟩
      | cleanup =>
        obtain ⟨d, hd, hresult⟩ := Option.bind_eq_some_iff.1 hrejected
        rw [Option.ite_none_left_eq_some] at hresult
        exact ⟨d, List.mem_of_getElem? hd, hresult.2⟩
    obtain ⟨d, hd, hrejected⟩ := hsome
    rw [hresult d hd] at hrejected
    cases hrejected
  · intro hdrain
    obtain ⟨waiting, hwaiting⟩ := Option.isSome_iff_exists.1 hdrain
    rw [DeliverySettles.next, hwaiting, Option.bind_some, if_pos]
    · rfl
    · intro i _ d hd
      exact (h d (List.mem_of_getElem? hd)).1

/-- A delivery has thrown, or sleeps for ever. -/
def Lost (i : Nat) (s : State) : Prop := ∃ d, s.tracked[i]? = some d ∧ d.Broken

private theorem Lost.next (h : Lost i s) (hnext : next s a = some t) : Lost i t := by
  obtain ⟨d, hd, hbroken⟩ := h
  cases a with
  | track secret startAttempt =>
    cases hnext
    exact ⟨d, Callers.getElem?_concat_of_some hd, hbroken⟩
  | step j step =>
    obtain ⟨other, other', hother, hother', rfl⟩ := next_step_eq hnext
    by_cases hij : i = j
    · subst hij
      rw [hd, Option.some.injEq] at hother
      subst hother
      exact ⟨other', Callers.getElem?_set_self_of_some hd, hbroken.next hother'⟩
    · exact ⟨d, Callers.getElem?_set_of_ne (Ne.symm hij) hd, hbroken⟩
  | destroy =>
    rw [DeliverySettles.next, Option.ite_none_left_eq_some] at hnext
    obtain ⟨-, heq⟩ := hnext
    cases heq
    refine ⟨{ d with timer := false }, ?_, hbroken.imp_right ?_⟩
    · rw [List.getElem?_map, hd]
      rfl
    · rintro ⟨attempt, hphase, -⟩
      exact ⟨attempt, hphase, rfl⟩
  | drained =>
    rw [DeliverySettles.next, Option.bind_eq_some_iff] at hnext
    obtain ⟨waiting, -, hnext⟩ := hnext
    rw [Option.ite_none_right_eq_some] at hnext
    obtain ⟨-, heq⟩ := hnext
    cases heq
    exact ⟨d, hd, hbroken⟩
  | timeout =>
    rw [DeliverySettles.next, Option.map_eq_some_iff] at hnext
    obtain ⟨waiting, -, rfl⟩ := hnext
    exact ⟨d, hd, hbroken⟩

/-- A step that does not meet the condition loses a delivery. -/
theorem lost_of_not_absorbed (habsorbed : ¬ Absorbed s a) (hnext : next s a = some t) : ∃ i, Lost i t := by
  cases a with
  | step i step =>
    cases step with
    | markFailed error =>
      cases error with
      | none => exact absurd trivial habsorbed
      | some message =>
        have hrunning : s.shuttingDown = false := by simpa [Absorbed] using habsorbed
        obtain ⟨d, d', hd, hd', rfl⟩ := next_step_eq hnext
        rw [hrunning] at hd'
        exact ⟨i, d', Callers.getElem?_set_self_of_some hd, Tracked.broken_of_thrown hd'⟩
    | _ => exact absurd trivial habsorbed
  | destroy =>
    unfold Absorbed at habsorbed
    push Not at habsorbed
    obtain ⟨d, hd, attempt, hphase⟩ := habsorbed
    obtain ⟨i, hi⟩ := List.mem_iff_getElem?.1 hd
    rw [DeliverySettles.next, Option.ite_none_left_eq_some] at hnext
    obtain ⟨-, heq⟩ := hnext
    cases heq
    refine ⟨i, { d with timer := false }, ?_, Or.inr ⟨attempt, hphase, rfl⟩⟩
    rw [List.getElem?_map, hi]
    rfl
  | _ => exact absurd trivial habsorbed

private theorem Lost.not_settled (h : Lost i s) : ¬ Settled s := by
  obtain ⟨d, hd, hbroken⟩ := h
  intro hsettled
  have hresolved := hsettled.resolved i (List.getElem?_eq_some_iff.1 hd).1
  change s.tracked[i]?.bind Tracked.result = _ at hresolved
  rw [hd, Option.bind_some, Tracked.result] at hresolved
  rcases hbroken with ⟨hphase, herror⟩ | ⟨attempt, hphase, -⟩
  · obtain ⟨message, hmessage⟩ := Option.ne_none_iff_exists'.1 herror
    rw [if_pos hphase, hmessage] at hresolved
    cases hresolved
  · rw [if_neg (by rw [hphase]; nofun)] at hresolved
    cases hresolved

/-- The deliveries that have been started always come to rest, after a number of steps that is fixed beforehand.  Once
they have, all of them have settled, without an unhandled rejection, if and only if every failure to record a failure
has come after the shutdown has begun, and the shutdown has found nobody asleep. -/
theorem deliveries_settle_iff {as : List Action} (hstart : machine.start s) (h : machine.exec s as = some t) :
    (∃ bs u, (∀ a ∈ bs, own a) ∧ machine.exec t bs = some u ∧ machine.Quiet own u) ∧
      (∀ bs u, (∀ a ∈ bs, own a) → machine.exec t bs = some u → bs.length ≤ t.work) ∧
      (machine.Quiet own t → (Settled t ↔ machine.Throughout Absorbed s as)) := by
  have hwork : ∀ s a t, own a → machine.next s a = some t → State.work t < State.work s :=
    fun _ _ _ howns hnext => next_work howns hnext
  refine ⟨Machine.exists_quiet hwork t, ?_, ?_⟩
  · intro bs u hown hu
    exact Nat.le_of_add_right_le (Machine.length_add_work_le hwork hown hu)
  · intro hquiet
    constructor
    · intro hsettled
      by_contra habsorbed
      obtain ⟨bs, a, cs, v, w, rfl, -, -, hnot, hw, hcs⟩ := Machine.exists_of_not_throughout habsorbed h
      obtain ⟨i, hlost⟩ := lost_of_not_absorbed hnot hw
      have hend : Lost i t := Machine.exec_invariant (fun _ _ _ hs hnext => hs.next hnext) hlost hcs
      exact hend.not_settled hsettled
    · intro habsorbed
      have hinv : Inv s := by
        rw [show s = {} from hstart]
        exact fun d hd => absurd hd List.not_mem_nil
      have hend : Inv t := habsorbed.invariant (fun _ _ _ hs hP hnext => hs.next hP hnext) hinv h
      exact settled_of_returned (hend.settled_of_quiet hquiet)

/-- The only delivery can do nothing more. -/
theorem quiet_of_tracked {d : Tracked} (htracked : t.tracked = [d])
    (hd : ∀ step, d.next t.shuttingDown step = none) : machine.Quiet own t := by
  intro a howns
  cases a with
  | step i step =>
    change next t (.step i step) = none
    rw [next, htracked]
    cases i with
    | zero => simp [hd step]
    | succ i => rfl
  | _ => exact howns.elim

/-- A delivery whose first attempt fails and whose second one succeeds. -/
theorem delivery_settles_after_retry :
    ∃ (as : List Action) (t : State), machine.exec {} as = some t ∧ t.tracked.length = 1 ∧ Settled t := by
  let as : List Action :=
    [.track "secret" 0, .step 0 .fetch, .step 0 (.settle (.response 503)), .step 0 (.markFailed none), .step 0 .fire,
     .step 0 .fetch, .step 0 (.settle (.response 200)), .step 0 (.markDelivered none), .step 0 .cleanup]
  obtain ⟨t, ht, htracked⟩ : ∃ t, machine.exec {} as = some t ∧
      t.tracked = [{ phase := .returned, inFlight := false }] := ⟨_, rfl, rfl⟩
  have hquiet : machine.Quiet own t := quiet_of_tracked htracked fun step => by cases step <;> rfl
  have habsorbed : machine.Throughout Absorbed {} as := by
    refine .cons trivial rfl (.cons trivial rfl (.cons trivial rfl (.cons trivial rfl (.cons trivial rfl ?_))))
    exact .cons trivial rfl (.cons trivial rfl (.cons trivial rfl (.cons trivial rfl trivial)))
  have hsettles := deliveries_settle_iff (show machine.start {} from rfl) ht
  exact ⟨as, t, ht, by rw [htracked]; rfl, (hsettles.2.2 hquiet).2 habsorbed⟩

/-- A delivery that sleeps when the shutdown begins never settles, and the shutdown waits for it.  One whose failure
cannot be recorded rejects, and nobody handles the promise that `finally` returns. -/
theorem shutdown_in_backoff :
    (∃ (as : List Action) (t : State), machine.exec {} as = some t ∧ machine.Quiet own t ∧
      t.heap.result (0, .delivery) = none ∧ t.drain = some [0] ∧ next t .drained = none) ∧
    ∃ (as : List Action) (t : State), machine.exec {} as = some t ∧
      t.heap.result (0, .cleanup) = some (.error "connection lost") ∧ ¬ t.heap.Handled (0, .cleanup) := by
  constructor
  · let as : List Action :=
      [.track "secret" 0, .step 0 .fetch, .step 0 (.settle (.response 503)), .step 0 (.markFailed none), .destroy]
    obtain ⟨t, ht, htracked, hdrain, hdrained⟩ : ∃ t, machine.exec {} as = some t ∧
        t.tracked = [{ phase := .waiting 1 }] ∧ t.drain = some [0] ∧ next t .drained = none :=
      ⟨_, rfl, rfl, rfl, rfl⟩
    refine ⟨as, t, ht, quiet_of_tracked htracked fun step => by cases step <;> rfl, ?_, hdrain, hdrained⟩
    change t.tracked[0]?.bind Tracked.result = none
    rw [htracked]
    rfl
  · let as : List Action :=
      [.track "secret" 0, .step 0 .fetch, .step 0 (.settle (.response 503)),
       .step 0 (.markFailed (some "connection lost")), .step 0 .cleanup]
    obtain ⟨t, ht, hresult⟩ : ∃ t, machine.exec {} as = some t ∧
        t.heap.result (0, .cleanup) = some (.error "connection lost") := ⟨_, rfl, rfl⟩
    refine ⟨as, t, ht, hresult, ?_⟩
    rintro ⟨⟨i, link⟩, src, hsrc, hon⟩
    cases link <;> obtain ⟨d, -, rfl⟩ := Option.map_eq_some_iff.1 hsrc <;> cases hon

end MacpControlPlane.DeliverySettles

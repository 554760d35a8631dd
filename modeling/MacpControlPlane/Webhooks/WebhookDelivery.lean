import MacpControlPlane.Lib.Callers
import MacpControlPlane.Lib.Js
import MacpControlPlane.Lib.Machine

/-!
# Webhook deliveries (`webhooks/webhook.service.ts`, `webhooks/webhook-delivery.repository.ts`)

`fireEvent` inserts the row of a delivery and starts a loop that posts it; `retryPending` starts a loop of its own for
every row that it finds pending.  The loops of one row, in any number of processes, share nothing but the row.
-/

namespace MacpControlPlane.WebhookDelivery

open Js

inductive DeliveryStatus where
  | pending | delivered | failed
  deriving DecidableEq, Repr

/-- A row of `webhook_deliveries`, as far as the loops write it. -/
structure Delivery where
  status : DeliveryStatus := .pending
  attempts : Nat := 0
  lastAttemptAt : Option String := none
  responseStatus : Option Nat := none
  errorMessage : Option String := none
  deliveredAt : Option String := none
  deriving DecidableEq, Repr

def maxAttempts : Nat := 3

def skippedNoSecretMessage : String := "skipped: webhook has no signing secret"

def hasUsableSecret (secret : String) : Bool := trim secret ≠ ""

/-- `markDelivered` -/
def Delivery.markDelivered (row : Delivery) (responseStatus : Nat) (now : String) : Delivery :=
  { row with
    status := .delivered
    responseStatus := some responseStatus
    lastAttemptAt := some now
    deliveredAt := some now
    attempts := 1 }

/-- `markFailed`, which the service calls without a response status. -/
def Delivery.markFailed (row : Delivery) (attempt : Nat) (errorMessage now : String) : Delivery :=
  { row with
    status := if attempt ≥ 3 then .failed else .pending
    attempts := attempt
    lastAttemptAt := some now
    errorMessage := some errorMessage }

/-- What `fetch` comes to. -/
inductive Outcome where
  | response (status : Nat)
  | error (message : String)

/-- `response.ok` -/
def ok (status : Nat) : Bool := 200 ≤ status && status ≤ 299

/-- Where a call of `deliverWithTracking` is. -/
inductive Phase where
  /-- It is about to be called, for a row with so many attempts. -/
  | called (startAttempt : Nat)
  /-- It is about to mark a delivery without a usable secret. -/
  | skipping
  /-- At the head of the loop. -/
  | attempting (attempt : Nat)
  | posted (attempt : Nat)
  | delivering (attempt status : Nat)
  | failing (attempt : Nat) (message : String)
  | waiting (attempt : Nat)
  | returned
  deriving DecidableEq

structure Loop where
  process : Nat
  phase : Phase
  deriving DecidableEq

/-- The row, its loops, the processes that shut down, and what has happened: how many POSTs have been started, how many
of them have been recorded, and how many there were when the row became delivered. -/
structure State where
  row : Delivery := {}
  loops : List Loop
  shuttingDown : List Nat := []
  posts : Nat := 0
  recorded : Nat := 0
  delivered : Option Nat := none
  deriving DecidableEq

/-- The row has been inserted by `fireEvent`. -/
def State.initial (process : Nat) : State := { loops := [⟨process, .called 0⟩] }

/-- A step of a loop.  A write that fails throws and has no effect. -/
inductive Step where
  /-- The call; `none` if `retryPending` finds no webhook. -/
  | call (secret : Option String)
  | fetch
  | settle (outcome : Outcome)
  | markDelivered (now : String) (error : Option String)
  | markFailed (now : String) (error : Option String)
  | wake

inductive Action where
  /-- `listPending` of a `retryPending` finds the row. -/
  | listPending (process : Nat)
  | step (i : Nat) (step : Step)
  | shutDown (process : Nat)

def State.move (s : State) (i : Nat) (l : Loop) (phase : Phase) : State :=
  { s with loops := s.loops.set i { l with phase } }

/-- The head of the loop, or its end. -/
def loopHead (attempt : Nat) : Phase := if attempt ≤ maxAttempts then .attempting attempt else .returned

/-- The start of `deliverWithTracking` -/
def callPhase (startAttempt : Nat) : Option String → Phase
  | none => .returned
  | some secret => if hasUsableSecret secret then loopHead (startAttempt + 1) else .skipping

/-- The `catch` and what comes before it: how `fetch` has settled. -/
def settledPhase (attempt : Nat) : Outcome → Phase
  | .response status =>
    if ok status then .delivering attempt status else .failing attempt ("webhook returned " ++ toString status)
  | .error message => .failing attempt message

/-- A step of loop `i` -/
def State.step (s : State) (i : Nat) (l : Loop) : Step → Option State
  | .call secret =>
    match l.phase with
    | .called startAttempt => some (s.move i l (callPhase startAttempt secret))
    | _ => none
  | .fetch =>
    match l.phase with
    | .attempting attempt =>
      if l.process ∈ s.shuttingDown then some (s.move i l .returned)
      else some { s.move i l (.posted attempt) with posts := s.posts + 1 }
    | _ => none
  | .settle outcome =>
    match l.phase with
    | .posted attempt => some (s.move i l (settledPhase attempt outcome))
    | _ => none
  | .markDelivered now error =>
    match l.phase with
    | .delivering attempt status =>
      match error with
      | none =>
        some { s.move i l .returned with
          row := s.row.markDelivered status now
          recorded := s.recorded + 1
          delivered := s.delivered.or (some s.posts) }
      | some error => some (s.move i l (if l.process ∈ s.shuttingDown then .returned else .failing attempt error))
    | _ => none
  | .markFailed now error =>
    match l.phase with
    | .failing attempt message =>
      match error with
      | none =>
        some { s.move i l (if attempt < maxAttempts then .waiting attempt else .returned) with
          row := s.row.markFailed attempt message now
          recorded := s.recorded + 1 }
      | some _ => some (s.move i l .returned)
    | .skipping =>
      match error with
      | none =>
        some { s.move i l .returned with row := s.row.markFailed maxAttempts skippedNoSecretMessage now }
      | some _ => some (s.move i l .returned)
    | _ => none
  | .wake =>
    match l.phase with
    | .waiting attempt =>
      some (s.move i l (if l.process ∈ s.shuttingDown then .returned else loopHead (attempt + 1)))
    | _ => none

def next (s : State) : Action → Option State
  | .listPending process =>
    if s.row.status = .pending then some { s with loops := s.loops ++ [⟨process, .called s.row.attempts⟩] } else none
  | .step i step =>
    match s.loops[i]? with
    | some l => s.step i l step
    | none => none
  | .shutDown process => some { s with shuttingDown := process :: s.shuttingDown }

def machine : Machine State Action where
  start s := ∃ process, s = .initial process
  next := next

/-! ### Accounting -/

/-- There are at most three POSTs, `attempts` counts those that have been recorded, and a delivered row stays as it is
without another POST. -/
structure Accounted (s : State) : Prop where
  bounded : s.posts ≤ maxAttempts
  attempts : s.row.attempts = s.recorded
  absorbing : ∀ n ∈ s.delivered, s.row.status = .delivered ∧ s.posts = n

/-- A loop does not begin without a usable secret.  It posts its attempt when all earlier POSTs have been recorded and
the row is the one before this attempt; and only a first attempt is recorded as delivered. -/
def InTurn (s : State) : Action → Prop
  | .step i (.call (some secret)) => (s.loops[i]?).isSome → hasUsableSecret secret = true
  | .step i .fetch => ∀ l ∈ s.loops[i]?, ∀ attempt, l.phase = .attempting attempt → l.process ∉ s.shuttingDown →
      s.posts = s.recorded ∧ s.row.attempts + 1 = attempt ∧ s.row.status ≠ .delivered
  | .step i (.markDelivered _ none) => ∀ l ∈ s.loops[i]?, ∀ attempt status, l.phase = .delivering attempt status →
      attempt = 1
  | _ => True

/-! ### Loops in turn -/

/-- The attempt whose POST has been started and not recorded. -/
def Phase.inFlight : Phase → Option Nat
  | .posted attempt | .delivering attempt _ | .failing attempt _ => some attempt
  | _ => none

def Phase.Bounded : Phase → Prop
  | .attempting attempt => attempt ≤ maxAttempts
  | .skipping => False
  | _ => True

/-- The row has counted the POSTs before the one in flight, and there is one at most. -/
structure Inv (s : State) : Prop where
  accounted : Accounted s
  inFlight : ∀ (i : Nat) l attempt, s.loops[i]? = some l → l.phase.inFlight = some attempt →
    s.posts = s.recorded + 1 ∧ s.row.attempts + 1 = attempt ∧ s.row.status ≠ .delivered
  single : ∀ (i j : Nat) l m, s.loops[i]? = some l → s.loops[j]? = some m → l.phase.inFlight ≠ none →
    m.phase.inFlight ≠ none → i = j
  bounded : ∀ (i : Nat) l, s.loops[i]? = some l → l.phase.Bounded

private theorem inv_initial (process : Nat) : Inv (.initial process) := by
  have hloop : ∀ (i : Nat) l, (State.initial process).loops[i]? = some l → l.phase = .called 0 := by
    intro i l hl
    have hmem : l ∈ [(⟨process, .called 0⟩ : Loop)] := List.mem_of_getElem? hl
    rw [List.mem_singleton.1 hmem]
  refine ⟨⟨Nat.zero_le _, rfl, nofun⟩, ?_, ?_, ?_⟩
  · intro i l attempt hl hflight
    rw [hloop i l hl] at hflight
    exact absurd hflight nofun
  · intro i j l m hl hm hflight
    rw [hloop i l hl] at hflight
    exact absurd rfl hflight
  · intro i l hl
    rw [hloop i l hl]
    trivial

variable {s t : State} {i : Nat} {l : Loop}

/-- A loop that moves on with the same POST in flight, or with none. -/
theorem Inv.move (h : Inv s) (hl : s.loops[i]? = some l) {phase : Phase}
    (hflight : phase.inFlight = none ∨ phase.inFlight = l.phase.inFlight) (hbounded : phase.Bounded) :
    Inv (s.move i l phase) := by
  have hold : ∀ (j : Nat) m, (s.move i l phase).loops[j]? = some m → m.phase.inFlight ≠ none →
      ∃ m', s.loops[j]? = some m' ∧ m'.phase.inFlight = m.phase.inFlight := by
    intro j m hm hsome
    rcases Callers.getElem?_set_cases hm with ⟨rfl, rfl⟩ | ⟨-, hm⟩
    · exact ⟨l, hl, (hflight.resolve_left hsome).symm⟩
    · exact ⟨m, hm, rfl⟩
  refine ⟨⟨h.accounted.bounded, h.accounted.attempts, h.accounted.absorbing⟩, ?_, ?_, ?_⟩
  · intro j m attempt hm hattempt
    obtain ⟨m', hm', hsame⟩ := hold j m hm (by simp [hattempt])
    exact h.inFlight j m' attempt hm' (hsame.trans hattempt)
  · intro j k m n hm hn hmsome hnsome
    obtain ⟨m', hm', hmsame⟩ := hold j m hm hmsome
    obtain ⟨n', hn', hnsame⟩ := hold k n hn hnsome
    exact h.single j k m' n' hm' hn' (hmsame ▸ hmsome) (hnsame ▸ hnsome)
  · intro j m hm
    rcases Callers.getElem?_set_cases hm with ⟨-, rfl⟩ | ⟨-, hm⟩
    · exact hbounded
    · exact h.bounded j m hm

/-- A POST that is started when all earlier ones have been recorded is the only one in flight. -/
theorem Inv.post (h : Inv s) (hl : s.loops[i]? = some l) {attempt : Nat} (hphase : l.phase = .attempting attempt)
    (hposts : s.posts = s.recorded) (hattempts : s.row.attempts + 1 = attempt) (hpending : s.row.status ≠ .delivered) :
    Inv { s.move i l (.posted attempt) with posts := s.posts + 1 } := by
  have hle : attempt ≤ maxAttempts := by
    have hbounded := h.bounded i l hl
    rw [hphase] at hbounded
    exact hbounded
  have hcount := h.accounted.attempts
  have hnone : ∀ (j : Nat) m, s.loops[j]? = some m → m.phase.inFlight = none := by
    intro j m hm
    by_contra hsome
    obtain ⟨k, hk⟩ := Option.ne_none_iff_exists'.1 hsome
    have hflight := h.inFlight j m k hm hk
    omega
  have hnew : ∀ (j : Nat) m, (s.move i l (.posted attempt)).loops[j]? = some m → m.phase.inFlight ≠ none →
      j = i ∧ m.phase = .posted attempt := by
    intro j m hm hsome
    rcases Callers.getElem?_set_cases hm with ⟨hj, rfl⟩ | ⟨-, hm⟩
    · exact ⟨hj, rfl⟩
    · exact absurd (hnone j m hm) hsome
  refine ⟨⟨?_, hcount, ?_⟩, ?_, ?_, ?_⟩
  · show s.posts + 1 ≤ maxAttempts
    omega
  · intro n hn
    exact absurd (h.accounted.absorbing n hn).1 hpending
  · intro j m k hm hk
    obtain ⟨-, hm⟩ := hnew j m hm (by simp [hk])
    rw [hm] at hk
    obtain rfl := Option.some.inj hk
    exact ⟨congrArg (· + 1) hposts, hattempts, hpending⟩
  · intro j k m n hm hn hmsome hnsome
    exact (hnew j m hm hmsome).1.trans (hnew k n hn hnsome).1.symm
  · intro j m hm
    rcases Callers.getElem?_set_cases hm with ⟨-, rfl⟩ | ⟨-, hm⟩
    · trivial
    · exact h.bounded j m hm

/-- The POST in flight is recorded: the row counts it, and no other is in flight. -/
theorem Inv.record (h : Inv s) (hl : s.loops[i]? = some l) {attempt : Nat} (hflight : l.phase.inFlight = some attempt)
    {phase : Phase} (hphase : phase.inFlight = none) (hbounded : phase.Bounded) {row : Delivery}
    (hattempts : row.attempts = attempt) {delivered : Option Nat}
    (hdelivered : ∀ n ∈ delivered, row.status = .delivered ∧ s.posts = n) :
    Inv { s.move i l phase with row, recorded := s.recorded + 1, delivered } := by
  have hcount := h.accounted.attempts
  have hin := h.inFlight i l attempt hl hflight
  have hnone : ∀ (j : Nat) m, (s.move i l phase).loops[j]? = some m → m.phase.inFlight = none := by
    intro j m hm
    rcases Callers.getElem?_set_cases hm with ⟨-, rfl⟩ | ⟨hne, hm⟩
    · exact hphase
    · by_contra hsome
      exact hne (h.single j i m l hm hl hsome (by simp [hflight]))
  refine ⟨⟨h.accounted.bounded, ?_, hdelivered⟩, ?_, ?_, ?_⟩
  · show row.attempts = s.recorded + 1
    omega
  · intro j m k hm hk
    rw [hnone j m hm] at hk
    exact absurd hk nofun
  · intro j k m n hm hn hmsome
    exact absurd (hnone j m hm) hmsome
  · intro j m hm
    rcases Callers.getElem?_set_cases hm with ⟨-, rfl⟩ | ⟨-, hm⟩
    · exact hbounded
    · exact h.bounded j m hm

/-- A row with a POST in flight has not been delivered before. -/
theorem Inv.not_delivered (h : Inv s) (hl : s.loops[i]? = some l) {attempt : Nat}
    (hflight : l.phase.inFlight = some attempt) : s.delivered = none := by
  by_contra hsome
  obtain ⟨n, hn⟩ := Option.ne_none_iff_exists'.1 hsome
  exact (h.inFlight i l attempt hl hflight).2.2 (h.accounted.absorbing n hn).1

/-- `attempts` is 1, as it should be after a first attempt. -/
theorem Inv.markDelivered (h : Inv s) (hl : s.loops[i]? = some l) {status : Nat}
    (hphase : l.phase = .delivering 1 status) (now : String) :
    Inv { s.move i l .returned with
      row := s.row.markDelivered status now
      recorded := s.recorded + 1
      delivered := s.delivered.or (some s.posts) } := by
  have hflight : l.phase.inFlight = some 1 := by
    rw [hphase]
    rfl
  have hreturned : Phase.Bounded .returned := trivial
  refine h.record hl hflight rfl hreturned rfl ?_
  intro n hn
  rw [h.not_delivered hl hflight] at hn
  exact ⟨rfl, Option.some.inj hn⟩

private theorem Inv.markFailed (h : Inv s) (hl : s.loops[i]? = some l) {attempt : Nat} {message : String}
    (hphase : l.phase = .failing attempt message) (now : String) :
    Inv { s.move i l (if attempt < maxAttempts then .waiting attempt else .returned) with
      row := s.row.markFailed attempt message now
      recorded := s.recorded + 1 } := by
  have hflight : l.phase.inFlight = some attempt := by
    rw [hphase]
    rfl
  refine h.record hl hflight ?_ ?_ rfl ?_
  · split <;> rfl
  · split <;> trivial
  · intro n hn
    change n ∈ s.delivered at hn
    rw [h.not_delivered hl hflight] at hn
    exact absurd hn nofun

/-! ### Steps -/

private theorem inFlight_loopHead (attempt : Nat) : (loopHead attempt).inFlight = none := by
  unfold loopHead
  split <;> rfl

private theorem bounded_loopHead (attempt : Nat) : (loopHead attempt).Bounded := by
  unfold loopHead
  split
  · rename_i hle
    exact hle
  · trivial

private theorem inFlight_settledPhase (attempt : Nat) (outcome : Outcome) :
    (settledPhase attempt outcome).inFlight = some attempt := by
  unfold settledPhase
  split
  · split <;> rfl
  · rfl

private theorem bounded_settledPhase (attempt : Nat) (outcome : Outcome) : (settledPhase attempt outcome).Bounded := by
  unfold settledPhase
  split
  · split <;> trivial
  · trivial

/-- A step of a loop in its turn. -/
theorem Inv.step (h : Inv s) (hl : s.loops[i]? = some l) {step : Step} (hin : InTurn s (.step i step))
    (hstep : s.step i l step = some t) : Inv t := by
  have hbounded := h.bounded i l hl
  cases step with
  | call secret =>
    simp only [State.step] at hstep
    split at hstep
    · rename_i startAttempt hphase
      rw [← Option.some.inj hstep]
      cases secret with
      | none => exact h.move hl (.inl rfl) trivial
      | some secret =>
        have husable : hasUsableSecret secret = true := hin (by simp [hl])
        rw [callPhase, if_pos husable]
        exact h.move hl (.inl (inFlight_loopHead _)) (bounded_loopHead _)
    · exact absurd hstep nofun
  | fetch =>
    simp only [State.step] at hstep
    split at hstep
    · rename_i attempt hphase
      split at hstep
      · rw [← Option.some.inj hstep]
        exact h.move hl (.inl rfl) trivial
      · rename_i hrunning
        obtain ⟨hposts, hattempts, hpending⟩ := hin l hl attempt hphase hrunning
        rw [← Option.some.inj hstep]
        exact h.post hl hphase hposts hattempts hpending
    · exact absurd hstep nofun
  | settle outcome =>
    simp only [State.step] at hstep
    split at hstep
    · rename_i attempt hphase
      rw [← Option.some.inj hstep]
      refine h.move hl (.inr ?_) (bounded_settledPhase _ _)
      rw [inFlight_settledPhase, hphase]
      rfl
    · exact absurd hstep nofun
  | markDelivered now error =>
    simp only [State.step] at hstep
    split at hstep
    · rename_i attempt status hphase
      split at hstep
      · obtain rfl := hin l hl attempt status hphase
        rw [← Option.some.inj hstep]
        exact h.markDelivered hl hphase now
      · rename_i error
        rw [← Option.some.inj hstep]
        split
        · exact h.move hl (.inl rfl) trivial
        · exact h.move hl (.inr (by rw [hphase]; rfl)) trivial
    · exact absurd hstep nofun
  | markFailed now error =>
    simp only [State.step] at hstep
    split at hstep
    · rename_i attempt message hphase
      split at hstep
      · rw [← Option.some.inj hstep]
        exact h.markFailed hl hphase now
      · rw [← Option.some.inj hstep]
        exact h.move hl (.inl rfl) trivial
    · rename_i hphase
      rw [hphase] at hbounded
      exact hbounded.elim
    · exact absurd hstep nofun
  | wake =>
    simp only [State.step] at hstep
    split at hstep
    · rename_i attempt hphase
      rw [← Option.some.inj hstep]
      split
      · exact h.move hl (.inl rfl) trivial
      · exact h.move hl (.inl (inFlight_loopHead _)) (bounded_loopHead _)
    · exact absurd hstep nofun

private theorem Inv.listPending (h : Inv s) (process : Nat) :
    Inv { s with loops := s.loops ++ [⟨process, .called s.row.attempts⟩] } := by
  refine ⟨⟨h.accounted.bounded, h.accounted.attempts, h.accounted.absorbing⟩, ?_, ?_, ?_⟩
  · intro j m attempt hm hflight
    rcases Callers.getElem?_concat_cases hm with ⟨-, rfl⟩ | hm
    · exact absurd hflight nofun
    · exact h.inFlight j m attempt hm hflight
  · intro j k m n hm hn hmsome hnsome
    rcases Callers.getElem?_concat_cases hm with ⟨-, rfl⟩ | hm
    · exact absurd rfl hmsome
    · rcases Callers.getElem?_concat_cases hn with ⟨-, rfl⟩ | hn
      · exact absurd rfl hnsome
      · exact h.single j k m n hm hn hmsome hnsome
  · intro j m hm
    rcases Callers.getElem?_concat_cases hm with ⟨-, rfl⟩ | hm
    · trivial
    · exact h.bounded j m hm

private theorem step_inv {a : Action} (h : Inv s) (hin : InTurn s a) (ha : next s a = some t) : Inv t := by
  cases a with
  | listPending process =>
    simp only [next] at ha
    split at ha
    · rw [← Option.some.inj ha]
      exact h.listPending process
    · exact absurd ha nofun
  | step i step =>
    simp only [next] at ha
    split at ha
    · rename_i l hl
      exact h.step hl hin ha
    · exact absurd ha nofun
  | shutDown process =>
    rw [← Option.some.inj ha]
    exact ⟨⟨h.accounted.bounded, h.accounted.attempts, h.accounted.absorbing⟩, h.inFlight, h.single, h.bounded⟩

/-- Where the loops of a row take turns, the row accounts for their POSTs at any time. -/
theorem accounted_of_inTurn {process : Nat} {as : List Action} {s : State}
    (h : machine.exec (.initial process) as = some s) (hin : machine.Throughout InTurn (.initial process) as) :
    Accounted s := by
  have hinv : Inv s := hin.invariant (fun _ _ _ hs hP ha => step_inv hs hP ha) (inv_initial process) h
  exact hinv.accounted

/-! ### One row -/

def now : String := "2026-10-24T00:00:00.000Z"

/-- The first POST is answered with 500, and its process shuts down before the next one; another process finds the row
pending, and its two POSTs fail too. -/
def retried : List Action :=
  [.step 0 (.call (some "s3cret")), .step 0 .fetch, .step 0 (.settle (.response 500)), .step 0 (.markFailed now none),
    .shutDown 0, .step 0 .wake, .listPending 1, .step 1 (.call (some "s3cret")), .step 1 .fetch,
    .step 1 (.settle (.error "timeout")), .step 1 (.markFailed now none), .step 1 .wake, .step 1 .fetch,
    .step 1 (.settle (.response 503)), .step 1 (.markFailed now none)]

/-- The first POST is answered with 500, the second one with 200. -/
def secondTry : List Action :=
  [.step 0 (.call (some "s3cret")), .step 0 .fetch, .step 0 (.settle (.response 500)), .step 0 (.markFailed now none),
    .step 0 .wake, .step 0 .fetch, .step 0 (.settle (.response 200)), .step 0 (.markDelivered now none)]

def afterRun (as : List Action) : State := (machine.exec (.initial 0) as).getD (.initial 0)

private theorem inTurn_fetch {s : State} {i : Nat} {l : Loop} {attempt : Nat} (hl : s.loops[i]? = some l)
    (hphase : l.phase = .attempting attempt) (hposts : s.posts = s.recorded) (hattempts : s.row.attempts + 1 = attempt)
    (hpending : s.row.status ≠ .delivered) : InTurn s (.step i .fetch) := by
  intro m hm other hother _
  obtain rfl := Option.some.inj (hl.symm.trans hm)
  obtain rfl := Phase.attempting.inj (hphase.symm.trans hother)
  exact ⟨hposts, hattempts, hpending⟩

private theorem inTurn_retried : machine.Throughout InTurn (.initial 0) retried := by
  have hsecret : hasUsableSecret "s3cret" = true := by decide +kernel
  have hcall : machine.next (.initial 0) (.step 0 (.call (some "s3cret"))) =
      some { loops := [⟨0, .attempting 1⟩] } := by decide +kernel
  have hagain : ∀ s : State, s.loops = [⟨0, .returned⟩, ⟨1, .called 1⟩] →
      machine.next s (.step 1 (.call (some "s3cret"))) =
        some { s with loops := [⟨0, .returned⟩, ⟨1, .attempting 2⟩] } := by
    rintro ⟨row, loops, shuttingDown, posts, recorded, delivered⟩ rfl
    simp [machine, next, State.step, State.move, callPhase, hsecret, loopHead, maxAttempts]
  refine .cons (fun _ => hsecret) hcall (.cons (inTurn_fetch rfl rfl rfl rfl nofun) rfl (.cons trivial rfl
    (.cons trivial rfl (.cons trivial rfl (.cons trivial rfl (.cons trivial rfl
    (.cons (fun _ => hsecret) (hagain _ rfl) (.cons (inTurn_fetch rfl rfl rfl rfl nofun) rfl (.cons trivial rfl
    (.cons trivial rfl (.cons trivial rfl (.cons (inTurn_fetch rfl rfl rfl rfl nofun) rfl (.cons trivial rfl
    (.cons trivial rfl trivial))))))))))))))

theorem accounted_retried : (afterRun retried).row.status = .failed ∧ (afterRun retried).posts = 3 ∧
    Accounted (afterRun retried) := by
  have hexec : machine.exec (.initial 0) retried = some (afterRun retried) := by decide +kernel
  exact ⟨by decide +kernel, by decide +kernel, accounted_of_inTurn hexec inTurn_retried⟩

/-- Both POSTs have been recorded, and the row counts one. -/
theorem not_accounted_secondTry : machine.exec (.initial 0) secondTry = some (afterRun secondTry) ∧
    ¬ Accounted (afterRun secondTry) := by
  refine ⟨by decide +kernel, fun h => ?_⟩
  exact absurd h.attempts (by decide +kernel)

end MacpControlPlane.WebhookDelivery

import Mathlib.Algebra.BigOperators.Group.List.Basic
import Mathlib.Tactic.Linarith
import MacpControlPlane.Lib.Callers
import MacpControlPlane.Lib.Machine
import MacpControlPlane.Metrics.MetricsService

/-!
# Racing metrics updates

A transaction of the run has released its lock when `runPostCommitSideEffects` calls `recordEvents`, so that the calls
of several batches overlap.  Each one loads the row and later writes a whole row, or throws when a value of its events
cannot be converted.  The state keeps the batches whose calls have returned, in their order, and how many there were
when a call loaded the row.
-/

namespace MacpControlPlane.MetricsRaces

open Js EventNormalizer MetricsService

variable {N : Type} [JsNumber N] [ExactNumber N]

/-- Where a call of `recordEvents` is. -/
inductive Phase where
  /-- Its batch has been committed. -/
  | committed
  /-- It has loaded `row`, after `seen` calls had returned. -/
  | loaded (row : Option RunMetrics) (seen : Nat)
  | done
  deriving DecidableEq

structure Call (N : Type) where
  events : List (CanonicalEvent N)
  phase : Phase := .committed

structure State (N : Type) where
  /-- The row of `run_metrics`. -/
  row : Option RunMetrics := none
  calls : List (Call N) := []
  /-- The batches whose calls have returned. -/
  recorded : List (List (CanonicalEvent N)) := []

/-- A run without metrics. -/
def State.initial : State N := {}

inductive Action (N : Type) where
  /-- A transaction commits a batch. -/
  | commit (events : List (CanonicalEvent N))
  /-- `repository.get` of call `i`. -/
  | get (i : Nat)
  /-- `repository.upsert` of call `i`. -/
  | upsert (i : Nat)
  /-- Call `i` throws at an event; `runPostCommitSideEffects` catches the error. -/
  | throw (i : Nat)

def next (s : State N) : Action N → Option (State N)
  | .commit events => some { s with calls := s.calls ++ [{ events }] }
  | .get i =>
    match s.calls[i]? with
    | some ⟨events, .committed⟩ =>
      some { s with calls := s.calls.set i ⟨events, .loaded s.row s.recorded.length⟩ }
    | _ => none
  | .upsert i =>
    match s.calls[i]? with
    | some ⟨events, .loaded row _⟩ =>
      if events.all isRecordable then
        some
          { row := some (recordEvents row events)
            calls := s.calls.set i ⟨events, .done⟩
            recorded := s.recorded ++ [events] }
      else none
    | _ => none
  | .throw i =>
    match s.calls[i]? with
    | some ⟨events, .loaded _ _⟩ =>
      if events.all isRecordable then none
      else some { s with calls := s.calls.set i ⟨events, .done⟩, recorded := s.recorded ++ [events] }
    | _ => none

def machine : Machine (State N) (Action N) where
  start s := s = .initial
  next := next

/-! ### What a step does -/

private theorem next_cases {s t : State N} {a : Action N} (h : next s a = some t) :
    (∃ events, a = .commit events ∧ t = { s with calls := s.calls ++ [{ events }] }) ∨
      (∃ i events, a = .get i ∧ s.calls[i]? = some ⟨events, .committed⟩ ∧
        t = { s with calls := s.calls.set i ⟨events, .loaded s.row s.recorded.length⟩ }) ∨
      (∃ i events row seen, a = .upsert i ∧ s.calls[i]? = some ⟨events, .loaded row seen⟩ ∧
        t = ⟨some (recordEvents row events), s.calls.set i ⟨events, .done⟩, s.recorded ++ [events]⟩) ∨
      (∃ i events row seen, a = .throw i ∧ s.calls[i]? = some ⟨events, .loaded row seen⟩ ∧
        events.all isRecordable = false ∧
        t = { s with calls := s.calls.set i ⟨events, .done⟩, recorded := s.recorded ++ [events] }) := by
  cases a with
  | commit events => exact .inl ⟨events, rfl, (Option.some.inj h).symm⟩
  | get i =>
    simp only [next] at h
    split at h
    · rename_i events hcall
      exact .inr (.inl ⟨i, events, rfl, hcall, (Option.some.inj h).symm⟩)
    · exact absurd h nofun
  | upsert i =>
    simp only [next] at h
    split at h
    · rename_i events row seen hcall
      split at h
      · exact .inr (.inr (.inl ⟨i, events, row, seen, rfl, hcall, (Option.some.inj h).symm⟩))
      · exact absurd h nofun
    · exact absurd h nofun
  | throw i =>
    simp only [next] at h
    split at h
    · rename_i events row seen hcall
      split at h
      · exact absurd h nofun
      · rename_i hthrows
        exact .inr (.inr (.inr ⟨i, events, row, seen, rfl, hcall, eq_false_of_ne_true hthrows,
          (Option.some.inj h).symm⟩))
    · exact absurd h nofun

/-! ### What is counted -/

/-- The counters are the contributions of the batches whose calls have returned; the cost is, as long as every one of
their events has one. -/
def Accounted (s : State N) : Prop :=
  ∀ counter, Priced counter s.recorded.flatten →
    (s.row.getD {}).count counter = contributions counter s.recorded.flatten

/-- No call throws, and a call that is about to write still has the counters of the row: the calls that have returned
since it has loaded the row had empty batches. -/
def UpToDate (s : State N) : Action N → Prop
  | .upsert i =>
    match s.calls[i]? with
    | some ⟨_, .loaded _ seen⟩ => ∀ batch ∈ s.recorded.drop seen, batch = []
    | _ => True
  | .throw _ => False
  | _ => True

/-- Every call has returned. -/
def Settled (s : State N) : Prop := ∀ c ∈ s.calls, c.phase = .done

/-- No update is lost: the row has the batches whose calls have returned, and finally all that have been committed. -/
structure Kept (s : State N) : Prop where
  accounted : Accounted s
  final : Settled s → ∀ counter, Priced counter (s.calls.map (·.events)).flatten →
    (s.row.getD {}).count counter = contributions counter (s.calls.map (·.events)).flatten

/-- The batch of a call that has returned. -/
def Call.written (c : Call N) : Option (List (CanonicalEvent N)) :=
  match c.phase with
  | .done => some c.events
  | _ => none

/-- The batches are those of the calls that have returned, and a call has loaded the counters of its time. -/
structure Inv (s : State N) : Prop where
  accounted : Accounted s
  written : s.recorded.Perm (s.calls.filterMap Call.written)
  loaded : ∀ (i : Nat) events row seen, s.calls[i]? = some ⟨events, .loaded row seen⟩ → seen ≤ s.recorded.length ∧
    ∀ counter, Priced counter (s.recorded.take seen).flatten →
      (row.getD {}).count counter = contributions counter (s.recorded.take seen).flatten

private theorem inv_initial : Inv (.initial : State N) where
  accounted counter _ := by
    rw [State.initial, List.flatten_nil, contributions_nil]
    cases counter <;> simp [RunMetrics.count]
  written := .refl _
  loaded := by simp [State.initial]

private theorem contributions_flatten (counter : Counter) (batches : List (List (CanonicalEvent N))) :
    contributions counter batches.flatten = (batches.map (contributions counter)).sum := by
  induction batches with
  | nil => rfl
  | cons batch batches ih => rw [List.flatten_cons, contributions_append, ih, List.map_cons, List.sum_cons]

/-- When every call has returned, everything has been written. -/
theorem Inv.kept {s : State N} (h : Inv s) : Kept s where
  accounted := h.accounted
  final hsettled counter hpriced := by
    have hall : s.calls.filterMap Call.written = s.calls.map (·.events) := by
      rw [← List.filterMap_eq_map]
      apply List.filterMap_congr
      intro c hc
      simp [Call.written, hsettled c hc]
    have hwritten : s.recorded.Perm (s.calls.map (·.events)) := h.written.trans (.of_eq hall)
    have hrecorded : Priced counter s.recorded.flatten := by
      intro hcost
      rw [hwritten.flatten.any_eq]
      exact hpriced hcost
    rw [h.accounted counter hrecorded, contributions_flatten, contributions_flatten]
    exact (hwritten.map _).sum_eq

private theorem contributions_take_drop (counter : Counter) (batches : List (List (CanonicalEvent N))) (n : Nat) :
    contributions counter batches.flatten =
      contributions counter (batches.take n).flatten + contributions counter (batches.drop n).flatten := by
  rw [← contributions_append, ← List.flatten_append, List.take_append_drop]

/-- Batches that add nothing to the events are empty. -/
theorem forall_eq_nil_iff {batches : List (List (CanonicalEvent N))} :
    (∀ batch ∈ batches, batch = []) ↔ contributions .eventCount batches.flatten = 0 := by
  rw [← List.flatten_eq_nil_iff, contributions_eventCount, ← List.length_eq_zero_iff]
  norm_cast

/-- An upsert keeps the account exactly when the call is up to date. -/
theorem accounted_upsert_iff {s : State N} (h : Inv s) {i : Nat} {events : List (CanonicalEvent N)}
    {row : Option RunMetrics} {seen : Nat} (hcall : s.calls[i]? = some ⟨events, .loaded row seen⟩) :
    Accounted ⟨some (recordEvents row events), s.calls.set i ⟨events, .done⟩, s.recorded ++ [events]⟩ ↔
      ∀ batch ∈ s.recorded.drop seen, batch = [] := by
  obtain ⟨-, hloaded⟩ := h.loaded i events row seen hcall
  have hflatten : (s.recorded ++ [events]).flatten = s.recorded.flatten ++ events := by simp
  unfold Accounted
  constructor
  · intro haccounted
    have hne : Counter.eventCount ≠ .estimatedCostUsd := by decide
    have hcount := haccounted .eventCount (priced_of_ne hne _)
    rw [Option.getD_some, count_recordEvents _ _ (priced_of_ne hne _), hloaded _ (priced_of_ne hne _), hflatten,
      contributions_append, contributions_take_drop .eventCount s.recorded seen] at hcount
    rw [forall_eq_nil_iff]
    linarith
  · intro hnil counter hpriced
    rw [hflatten] at hpriced ⊢
    obtain ⟨hrecorded, hevents⟩ := Priced.append_iff.1 hpriced
    have hseen : (s.recorded.take seen).flatten = s.recorded.flatten := by
      rw [← List.take_append_drop seen s.recorded, List.flatten_append, List.flatten_eq_nil_iff.2 hnil,
        List.append_nil, List.take_append_drop]
    rw [Option.getD_some, count_recordEvents _ _ hevents, hloaded counter (by rwa [hseen]), hseen, contributions_append]

/-- A call that throws is not counted. -/
theorem not_accounted_throw {s : State N} (h : Inv s) {i : Nat} {events : List (CanonicalEvent N)}
    (hthrows : events.all isRecordable = false) :
    ¬Accounted { s with calls := s.calls.set i ⟨events, .done⟩, recorded := s.recorded ++ [events] } := by
  intro haccounted
  have hne : Counter.eventCount ≠ .estimatedCostUsd := by decide
  have hcount := haccounted .eventCount (priced_of_ne hne _)
  have hflatten : (s.recorded ++ [events]).flatten = s.recorded.flatten ++ events := by simp
  have hzero : contributions .eventCount events = 0 := by
    rw [hflatten, contributions_append, ← h.accounted .eventCount (priced_of_ne hne _)] at hcount
    linarith
  rw [contributions_eventCount, Nat.cast_eq_zero, List.length_eq_zero_iff] at hzero
  rw [hzero] at hthrows
  exact absurd hthrows nofun

private theorem step_inv {s t : State N} {a : Action N} (h : Inv s) (ha : next s a = some t) :
    (Kept t → UpToDate s a) ∧ (UpToDate s a → Inv t) := by
  obtain ⟨events, rfl, rfl⟩ | ⟨i, events, rfl, hcall, rfl⟩ | ⟨i, events, row, seen, rfl, hcall, rfl⟩ |
    ⟨i, events, row, seen, rfl, hcall, hthrows, rfl⟩ := next_cases ha
  · have hwritten : (s.calls ++ [(⟨events, .committed⟩ : Call N)]).filterMap Call.written =
        s.calls.filterMap Call.written := by
      simp [List.filterMap_append, Call.written]
    refine ⟨fun _ => trivial, fun _ => ⟨h.accounted, h.written.trans (.of_eq hwritten.symm), ?_⟩⟩
    intro j events' row seen hj
    rcases Callers.getElem?_concat_cases hj with ⟨-, hnew⟩ | hj
    · exact absurd hnew nofun
    · exact h.loaded j events' row seen hj
  · have hwritten :=
      Callers.filterMap_set_of_none (f := Call.written) hcall rfl ⟨events, .loaded s.row s.recorded.length⟩
    refine ⟨fun _ => trivial, fun _ => ⟨h.accounted, h.written.trans hwritten.symm, ?_⟩⟩
    intro j events' row seen hj
    rcases Callers.getElem?_set_cases hj with ⟨-, hnew⟩ | ⟨-, hj⟩
    · obtain ⟨rfl, rfl, rfl⟩ : events' = events ∧ row = s.row ∧ seen = s.recorded.length := by simpa using hnew
      refine ⟨le_refl _, fun counter hpriced => ?_⟩
      rw [List.take_length] at hpriced ⊢
      exact h.accounted counter hpriced
    · exact h.loaded j events' row seen hj
  · have hiff := accounted_upsert_iff h hcall
    simp only [UpToDate, hcall]
    constructor
    · intro hkept
      exact hiff.1 hkept.accounted
    · intro hup
      have hwritten := Callers.filterMap_set_of_none (f := Call.written) hcall rfl ⟨events, .done⟩
      have hrecorded : (s.recorded ++ [events]).Perm (events :: s.calls.filterMap Call.written) :=
        (List.perm_append_singleton _ _).trans (h.written.cons events)
      refine ⟨hiff.2 hup, hrecorded.trans hwritten.symm, ?_⟩
      intro j events' row' seen' hj
      rcases Callers.getElem?_set_cases hj with ⟨-, hnew⟩ | ⟨-, hj⟩
      · exact absurd hnew nofun
      · obtain ⟨hle, hcounts⟩ := h.loaded j events' row' seen' hj
        rw [List.length_append, List.take_append_of_le_length hle]
        exact ⟨by omega, hcounts⟩
  · constructor
    · intro hkept
      exact absurd hkept.accounted (not_accounted_throw h hthrows)
    · exact nofun

/-- In a run of the calls no update is lost, at any time, exactly when no call throws and every call is up to date when
it writes. -/
theorem kept_iff {s : State N} {as : List (Action N)} (h : machine.exec .initial as = some s) :
    (∀ bs t, bs <+: as → machine.exec .initial bs = some t → Kept t) ↔
      machine.Throughout UpToDate .initial as :=
  Machine.throughout_iff_of_step (fun _ hs => hs.kept) (fun _ _ _ hs ha => step_inv hs ha) inv_initial h

/-! ### Two batches of one event -/

def event : CanonicalEvent (Option Rat) where
  id := "e1"
  runId := "r1"
  seq := 1
  ts := "2026-10-24T00:00:00.000Z"
  type := .messageReceived
  schemaVersion := some 3
  subject := none
  source := { kind := .runtime, name := "rust-runtime" }
  data := []

/-- One call after the other. -/
def inTurn : List (Action (Option Rat)) :=
  [.commit [event], .get 0, .upsert 0, .commit [event], .get 1, .upsert 1]

/-- Both calls load before either writes. -/
def overlapping : List (Action (Option Rat)) :=
  [.commit [event], .commit [event], .get 0, .get 1, .upsert 0, .upsert 1]

/-- The state after the actions. -/
def after (as : List (Action (Option Rat))) : State (Option Rat) :=
  (machine.exec .initial as).getD .initial

private theorem exec_inTurn : machine.exec .initial inTurn = some (after inTurn) := rfl

private theorem upToDate_inTurn : machine.Throughout UpToDate .initial inTurn := by
  refine .cons trivial rfl (.cons trivial rfl (.cons ?_ rfl (.cons trivial rfl (.cons trivial rfl (.cons ?_ rfl
    trivial)))))
  · exact nofun
  · exact nofun

theorem kept_inTurn : machine.exec .initial inTurn = some (after inTurn) ∧
    ∀ bs t, bs <+: inTurn → machine.exec .initial bs = some t → Kept t :=
  ⟨exec_inTurn, (kept_iff exec_inTurn).2 upToDate_inTurn⟩

/-- Two messages have been committed, and one is counted. -/
theorem not_kept_overlapping : machine.exec .initial overlapping = some (after overlapping) ∧
    Settled (after overlapping) ∧ ((after overlapping).row.getD {}).count .eventCount ≠
      contributions .eventCount ((after overlapping).calls.map (·.events)).flatten := by
  refine ⟨rfl, ?_, by decide +kernel⟩
  unfold Settled
  decide

end MacpControlPlane.MetricsRaces

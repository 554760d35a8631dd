import MacpControlPlane.Lib.Statements
import MacpControlPlane.Runs.Lifecycle

/-!
# A lifecycle operation that fails, and its repetition (`runs/run-manager.service.ts`)

An operation stores the status in one statement and appends its event in a later transaction.  The machine here runs
one operation, statement by statement, over the one run that it is about; a statement that fails leaves what the ones
before it have written.  The transaction of `emitControlPlaneEvents` is one statement: whatever fails in it is rolled
back, and nothing that comes after its commit reaches the caller.

The main result says when a failed operation can be repeated: unless it has failed after its own write, and its guard
takes the status it has written for one that somebody else has stored.
-/

namespace MacpControlPlane.LifecycleRetry

open Js RunManager Lifecycle Statements

variable {N : Type}

/-- What a statement takes from its surroundings: for `createRun` the trace id that it has started, and for `getRun`
what `healStaleRunMetadata` finds out about an ended run. -/
structure Env extends Lifecycle.Env where
  traceId : String
  /-- `run.metadata?.finalAction` is `undefined`. -/
  unenriched : Bool
  /-- `metrics.decisionCount` is positive. -/
  decided : Bool
  /-- `enrichRunMetadata` has updated the metadata. -/
  enriched : Bool

abbrev Result : Type := Except RunError RunRow

def notFound {φ : Type} (runId : String) : Next φ Result := .ends (.error (.error s!"run {runId} not found"))

/-- What `allocateSequence` throws. -/
def notAllocated {φ : Type} (runId : String) : Next φ Result :=
  .ends (.error (.error s!"run {runId} not found while allocating sequence"))

/-! ### `createRun` -/

/-- The arguments of `createRun`. -/
structure Creation where
  request : RunDescriptor
  sessionId : String
  explicitRunId : Option String := none

namespace Creation

/-- Where a `createRun` is. -/
inductive Point where
  /-- Before `findByIdempotencyKey`. -/
  | lookup
  /-- Before the `INSERT`. -/
  | insert
  /-- Before the `findByIdOrThrow` of `create`. -/
  | load (runId traceId : String)
  /-- Before the event. -/
  | append (record : RunRow) (traceId : String)

/-- The request has an idempotency key, which the empty string is not. -/
def keyed (c : Creation) : Prop := c.request.idempotencyKey.getD "" ≠ ""

instance (c : Creation) : Decidable c.keyed := inferInstanceAs (Decidable (_ ≠ _))

def first (c : Creation) : Point := if c.keyed then .lookup else .insert

/-- A statement of `createRun`.  The state is the run that has the key of the request. -/
def step (c : Creation) (env : Env) (s : Option (Record N)) : Point → Option (Record N) × Next Point Result
  | .lookup =>
    match s with
    | some existing => (s, .ends (.ok existing.row))
    | none => (s, .goesOn .insert)
  | .insert =>
    match s with
    | some _ =>
      (s, .ends (.error (.error "duplicate key value violates unique constraint \"runs_idempotency_key_unique\"")))
    | none =>
      let runId := c.explicitRunId.getD (env.uuid 0)
      (some { row := createdRow c.request c.sessionId runId env.traceId env.now }, .goesOn (.load runId env.traceId))
  | .load runId traceId =>
    match s with
    | some record => (s, .goesOn (.append record.row traceId))
    | none => (s, notFound runId)
  | .append record traceId =>
    match s with
    | some r =>
      (some (r.emit env.toEnv (createdEvents c.request c.sessionId record traceId env.now)), .ends (.ok record))
    | none => (s, notAllocated record.id)

end Creation

/-! ### The operations on a run that exists -/

/-- The arguments of another operation. -/
structure Marking where
  runId : String
  op : Op

namespace Marking

/-- Where such an operation is. -/
inductive Point where
  /-- Before the `findById` of `getRun`. -/
  | getRun
  /-- Before the metrics that `healStaleRunMetadata` reads. -/
  | metrics
  /-- Before `enrichRunMetadata`. -/
  | enrich
  /-- Before a statement on the row; the check is the second read of `healStaleRunMetadata`. -/
  | statement (phase : Phase)

def first (m : Marking) : Point :=
  match m.op.first with
  | .check => .getRun
  | phase => .statement phase

def nextOf : Outcome → Next Point Result
  | .goesOn phase => .goesOn (.statement phase)
  | .returned run => .ends (.ok run)
  | .threw error => .ends (.error error)

/-- A statement on a row that is there. -/
def onRecord (m : Marking) (env : Env) (r : Record N) (phase : Phase) : Option (Record N) × Next Point Result :=
  let result := Lifecycle.step env.toEnv m.op r phase
  (some result.1, nextOf result.2)

/-- A statement on a row that is not. -/
def onNone (m : Marking) : Phase → Next Point Result
  | .update => .goesOn (.statement .reread)
  | .check | .reread => notFound m.runId
  | .emit _ => notAllocated m.runId

/-- A statement of the operation.  The state is the run with the id. -/
def step (m : Marking) (env : Env) (s : Option (Record N)) : Point → Option (Record N) × Next Point Result
  | .getRun =>
    match s with
    | none => (s, notFound m.runId)
    | some r => if r.row.status.terminal && env.unenriched then (s, .goesOn .metrics) else m.onRecord env r .check
  | .metrics =>
    match s with
    | none => (s, notFound m.runId)
    | some r => if env.decided then (s, .goesOn .enrich) else m.onRecord env r .check
  | .enrich =>
    -- The update sets `metadata`, which no operation reads, and the time.
    let touched := s.map fun r => { r with row := { r.row with updatedAt := env.now } }
    (if env.enriched then touched else s, .goesOn (.statement .check))
  | .statement phase =>
    match s with
    | none => (s, m.onNone phase)
    | some r => m.onRecord env r phase

end Marking

/-! ### An operation that fails, and is repeated -/

/-- A lifecycle operation, with its arguments. -/
inductive Operation where
  | createRun (c : Creation)
  | mark (m : Marking)

namespace Operation

/-- Where the operation is. -/
def Point : Operation → Type
  | createRun _ => Creation.Point
  | mark _ => Marking.Point

def first : (op : Operation) → op.Point
  | createRun c => c.first
  | mark m => m.first

def step (env : Env) (s : Option (Record N)) : (op : Operation) → op.Point → Option (Record N) × Next op.Point Result
  | createRun c => c.step env s
  | mark m => m.step env s

/-- The statements before the point have succeeded, and led from `s` to `t`. -/
def Reaches (op : Operation) (s t : Option (Record N)) (p : op.Point) : Prop :=
  Statements.Reaches (fun env s => op.step env s) s op.first t p

/-- All statements have succeeded, and led from `s` to `t`. -/
def Returns (op : Operation) (s t : Option (Record N)) (result : Result) : Prop :=
  Statements.Returns (fun env s => op.step env s) s op.first t result

/-- The event of the operation, of the row that is stored. -/
def events (run : RunRow) (ts : String) : Operation → List (PartialEvent N)
  | createRun c => createdEvents c.request c.sessionId run (run.traceId.getD "") ts
  | mark m => m.op.events run ts

end Operation

/-- The row is the same, up to the time of its last update. -/
def SameRow (s t : Option (Record N)) : Prop :=
  (t.map fun r => { r.row with updatedAt := "" }) = s.map fun r => { r.row with updatedAt := "" }

/-- Later there is the same run in the same status; its log may have grown. -/
def Later (s t : Option (Record N)) : Prop :=
  (t.map fun r => (r.row.id, r.row.status)) = s.map fun r => (r.row.id, r.row.status)

/-- From `s`, every call of the operation whose statements all succeed appends its event. -/
def Operation.Appends (op : Operation) (s : Option (Record N)) : Prop :=
  (∃ t result, op.Returns s t result) ∧
    ∀ t result, op.Returns s t result →
      ∃ r env, s = some r ∧ t = some (r.emit env (op.events r.row env.now)) ∧ result = .ok r.row

/-- A call has led from `s` to `t` and failed there: the row is as it was, or the operation can be repeated. -/
def Operation.Converges (op : Operation) (s t : Option (Record N)) : Prop :=
  SameRow s t ∨ ∀ later, Later t later → op.Appends later

/-- The operations that the result is about: `createRun` with an idempotency key, and all others but `bindSession`,
which has a statement of its own between its write and its events. -/
def Operation.InScope : Operation → Prop
  | createRun c => c.keyed
  | mark m => m.op.target ≠ .bindingSession

/-- The operation writes a row that has this status. -/
def Marking.Writes (m : Marking) (status : RunStatus) : Prop :=
  m.op.leaves status = false ∧ m.op.target ∈ validTransitions status

/-- A failure at the point, of a call that started from `s`, comes after the write of the operation, and the operation
leaves alone what it has written. -/
def Operation.Strands (s : Option (Record N)) : (op : Operation) → op.Point → Prop
  | createRun _, p =>
    match p with
    | .load _ _ | .append _ _ => True
    | .lookup | .insert => False
  | mark m, p =>
    match p with
    | .statement (.emit _) => m.op.leaves m.op.target = true ∧ ∃ r ∈ s, m.Writes r.row.status
    | _ => False

/-! ### The rows at the points of a call -/

private theorem SameRow.refl (s : Option (Record N)) : SameRow s s := rfl

private theorem SameRow.exists_mem {s : Option (Record N)} {r : Record N} (h : SameRow s (some r)) :
    ∃ r' ∈ s, r'.row.status = r.row.status := by
  cases s with
  | none => cases h
  | some r' =>
    have hstatus := congrArg (Option.map RunRow.status) h
    exact ⟨r', rfl, (Option.some.inj hstatus).symm⟩

private theorem SameRow.status {s : Option (Record N)} {r r' : Record N} (h : SameRow s (some r)) (hr' : r' ∈ s) :
    r'.row.status = r.row.status := by
  obtain ⟨r'', hr'', hstatus⟩ := h.exists_mem
  rwa [Option.mem_unique hr' hr'']

namespace Creation

/-- What a `createRun` with a key has done before a point. -/
def Stage (s t : Option (Record N)) : Point → Prop
  | .lookup => t = s
  | .insert => t = s ∧ s = none
  | .load _ _ | .append _ _ => s = none ∧ t.isSome = true

private theorem Stage.step {c : Creation} {env : Env} {s t u : Option (Record N)} {p q : Point} (h : Stage s t p)
    (hstep : c.step env t p = (u, .goesOn q)) : Stage s u q := by
  cases p with
  | lookup =>
    obtain rfl : t = s := h
    cases t with
    | none => cases hstep; exact ⟨rfl, rfl⟩
    | some r => cases hstep
  | insert =>
    obtain ⟨rfl, rfl⟩ := h
    cases hstep
    exact ⟨rfl, rfl⟩
  | load runId traceId =>
    obtain ⟨hnone, hsome⟩ := h
    cases t with
    | none => cases hsome
    | some r => cases hstep; exact ⟨hnone, rfl⟩
  | append record traceId =>
    cases t with
    | none => cases hstep
    | some r => cases hstep

private theorem stage_of_reaches {c : Creation} (hkeyed : c.keyed) {s t : Option (Record N)} {p : Point}
    (h : Statements.Reaches (fun env s => c.step env s) s c.first t p) : Stage s t p := by
  refine h.invariant (I := Stage s) ?_ fun env t p u q => Stage.step
  unfold first
  rw [if_pos hkeyed]
  rfl

end Creation

namespace Marking

variable (m : Marking)

/-- What an operation on a run that exists has done before a point. -/
def Stage (s t : Option (Record N)) : Point → Prop
  | .getRun | .metrics | .enrich | .statement .check => SameRow s t
  | .statement .update => SameRow s t ∧ ∀ r ∈ s, m.op.leaves r.row.status = false
  | .statement .reread => SameRow s t ∧ ∀ r ∈ s, ¬ m.Writes r.row.status
  | .statement (.emit _) =>
    (SameRow s t ∧ ∀ r ∈ s, ¬ m.Writes r.row.status) ∨
      (∃ r ∈ s, m.Writes r.row.status) ∧ ∃ r ∈ t, r.row.status = m.op.target

variable {m} {env : Env} {s t u : Option (Record N)} {r : Record N}

private theorem Stage.onRecord {phase : Phase} {q : Point} (h : m.Stage s (some r) (.statement phase))
    (hstep : m.onRecord env r phase = (u, .goesOn q)) : m.Stage s u q := by
  have hspec := step_spec env.toEnv m.op r phase
  obtain ⟨hrow, hnext⟩ := Prod.mk.inj hstep
  subst hrow
  generalize Lifecycle.step env.toEnv m.op r phase = result at hspec hnext ⊢
  cases hspec with
  | left => cases hnext
  | checked hleaves =>
    cases hnext
    exact ⟨h, fun r' hr' => SameRow.status h hr' ▸ hleaves⟩
  | wrote hwrote =>
    cases hnext
    obtain ⟨hsame, hleaves⟩ := h
    obtain ⟨r', hr', hstatus⟩ := hsame.exists_mem
    have hedge := (compareAndSet_eq_some.1 hwrote).1
    rw [m.op.transition_target, ← hstatus] at hedge
    exact Or.inr ⟨⟨r', hr', hleaves r' hr', hedge⟩, _, rfl,
      (compareAndSet_status hwrote).trans (m.op.transition_target env.now)⟩
  | missed hmissed =>
    cases hnext
    refine ⟨h.1, fun r' hr' hwrites => hmissed ?_⟩
    rw [← h.1.status hr']
    exact hwrites.2
  | agreed => cases hnext; exact Or.inl h
  | refused =>
    rename_i error _
    rcases m.op.caught_cases r.row error with hcaught | ⟨hcaught, -⟩ <;> simp [hcaught, nextOf] at hnext
  | emitted => cases hnext

private theorem Stage.step {p q : Point} (h : m.Stage s t p) (hstep : m.step env t p = (u, .goesOn q)) :
    m.Stage s u q := by
  cases p with
  | getRun | metrics =>
    cases t with
    | none => cases hstep
    | some r =>
      simp only [Marking.step] at hstep
      split at hstep
      · cases hstep; exact h
      · have hcheck : m.Stage s (some r) (.statement .check) := h
        exact Stage.onRecord hcheck hstep
  | enrich =>
    cases hstep
    show SameRow s _
    unfold SameRow
    rw [← show SameRow s t from h]
    cases t with
    | none => split <;> rfl
    | some r => split <;> rfl
  | statement phase =>
    cases t with
    | some r => exact Stage.onRecord h hstep
    | none =>
      cases phase with
      | update =>
        cases hstep
        refine ⟨h.1, fun r' hr' => ?_⟩
        obtain rfl : s = some r' := hr'
        exact absurd h.1 nofun
      | check | reread | emit => cases hstep

private theorem stage_of_reaches {p : Point} (h : Statements.Reaches (fun env s => m.step env s) s m.first t p) :
    m.Stage s t p := by
  refine h.invariant (I := m.Stage s) ?_ fun env t p u q => Stage.step
  obtain ⟨runId, op⟩ := m
  cases op <;> first | exact SameRow.refl s | exact ⟨SameRow.refl s, fun _ _ => rfl⟩

/-! ### What the repeated call does -/

/-- The statements come in an order, so that a call ends. -/
def rank : Point → Nat
  | .getRun => 6
  | .metrics => 5
  | .enrich => 4
  | .statement .check => 3
  | .statement .update => 2
  | .statement .reread => 1
  | .statement (.emit _) => 0

private theorem rank_onRecord {phase : Phase} {q : Point} (hstep : m.onRecord env r phase = (u, .goesOn q)) :
    rank q < rank (.statement phase) := by
  have hspec := step_spec env.toEnv m.op r phase
  have hnext := (Prod.mk.inj hstep).2
  generalize Lifecycle.step env.toEnv m.op r phase = result at hspec hnext
  cases hspec with
  | checked | wrote | missed | agreed => cases hnext; simp only [rank]; omega
  | left | emitted => cases hnext
  | refused =>
    rename_i error _
    rcases m.op.caught_cases r.row error with hcaught | ⟨hcaught, -⟩ <;> simp [hcaught, nextOf] at hnext

private theorem rank_step {p q : Point} (hstep : m.step env t p = (u, .goesOn q)) : rank q < rank p := by
  cases p with
  | getRun | metrics =>
    cases t with
    | none => cases hstep
    | some r =>
      simp only [Marking.step] at hstep
      split at hstep
      · cases hstep; simp only [rank]; omega
      · have hlt := rank_onRecord hstep
        simp only [rank] at hlt ⊢
        omega
  | enrich => cases hstep; simp only [rank]; omega
  | statement phase =>
    cases t with
    | some r => exact rank_onRecord hstep
    | none =>
      cases phase with
      | update => cases hstep; simp only [rank]; omega
      | check | reread | emit => cases hstep

private theorem miss_of_target {now : String} (htarget : r.row.status = m.op.target) :
    compareAndSet (m.op.transition now) now r.row = none := by
  rw [compareAndSet_eq_none, m.op.transition_target, htarget]
  exact validTransitions_irrefl _

/-- What a call finds whose run has the target status already, of an operation that does not leave it alone. -/
def Again (r : Record N) (t : Option (Record N)) : Point → Prop
  | .statement .update | .statement .reread => t = some r
  | .statement (.emit run) => t = some r ∧ run = r.row
  | _ => False

private theorem Again.next {p q : Point} (htarget : r.row.status = m.op.target) (h : Again r t p)
    (hstep : m.step env t p = (u, .goesOn q)) : Again r u q := by
  cases p with
  | getRun | metrics | enrich => exact h.elim
  | statement phase =>
    cases phase with
    | check => exact h.elim
    | update =>
      obtain rfl : t = some r := h
      simp only [Marking.step, Marking.onRecord, Lifecycle.step, miss_of_target htarget] at hstep
      cases hstep
      rfl
    | reread =>
      obtain rfl : t = some r := h
      simp only [Marking.step, Marking.onRecord, Lifecycle.step, afterMiss, if_pos htarget] at hstep
      cases hstep
      exact ⟨rfl, rfl⟩
    | emit run =>
      obtain ⟨rfl, -⟩ := h
      cases hstep

private theorem Again.ends {p : Point} {result : Result} (htarget : r.row.status = m.op.target) (h : Again r t p)
    (hstep : m.step env t p = (u, .ends result)) :
    u = some (r.emit env.toEnv (m.op.events r.row env.now)) ∧ result = .ok r.row := by
  cases p with
  | getRun | metrics | enrich => exact h.elim
  | statement phase =>
    cases phase with
    | check => exact h.elim
    | update =>
      obtain rfl : t = some r := h
      simp only [Marking.step, Marking.onRecord, Lifecycle.step, miss_of_target htarget] at hstep
      cases hstep
    | reread =>
      obtain rfl : t = some r := h
      simp only [Marking.step, Marking.onRecord, Lifecycle.step, afterMiss, if_pos htarget] at hstep
      cases hstep
    | emit run =>
      obtain ⟨rfl, rfl⟩ := h
      cases hstep
      exact ⟨rfl, rfl⟩

private theorem first_of_leaves (h : m.op.leaves m.op.target = false) : m.first = .statement .update := by
  obtain ⟨runId, op⟩ := m
  cases op <;> first | rfl | exact absurd h.symm Bool.false_ne_true

end Marking

private theorem Operation.appends_of_target {m : Marking} {s : Option (Record N)}
    (hleaves : m.op.leaves m.op.target = false)
    (hs : ∃ r ∈ s, r.row.status = m.op.target) : (Operation.mark m).Appends s := by
  obtain ⟨r, rfl, htarget⟩ := hs
  constructor
  · exact exists_returns Marking.rank
      ⟨⟨"", fun _ => "", none⟩, "", false, false, false⟩ (fun _ _ _ _ => Marking.rank_step) _ _
  · intro t result h
    have hfirst : Marking.Again r (some r) m.first := by
      rw [Marking.first_of_leaves hleaves]
      rfl
    obtain ⟨env, u, p, hreaches, hlast⟩ := h
    have hagain : Marking.Again r u p := hreaches.invariant hfirst fun _ _ _ _ _ => Marking.Again.next htarget
    obtain ⟨ht, hresult⟩ := hagain.ends htarget hlast
    exact ⟨r, env.toEnv, rfl, ht, hresult⟩

/-! ### When a failed call can be repeated -/

private theorem Operation.events_ne_nil (op : Operation) (run : RunRow) (ts : String) :
    (op.events run ts : List (PartialEvent N)) ≠ [] := by
  cases op with
  | createRun c => exact List.cons_ne_nil _ _
  | mark m => exact m.op.events_ne_nil run ts

/-- A call that returns with the run as it was appends nothing. -/
theorem Operation.not_appends {op : Operation} {s : Option (Record N)} {result : Result} (h : op.Returns s s result) :
    ¬ op.Appends s := by
  rintro ⟨-, hall⟩
  obtain ⟨r, env, hs, hemitted, -⟩ := hall s result h
  rw [hs] at hemitted
  have hlog := congrArg (·.log.length) (Option.some.inj hemitted)
  have hpos : 0 < (op.events r.row env.now : List (PartialEvent N)).length :=
    List.length_pos_iff.2 (op.events_ne_nil r.row env.now)
  simp only [Record.emit, List.length_append, RunEventService.length_prepareEmitted] at hlog
  omega

/-- With the key of a run that is there, `createRun` returns the run. -/
theorem Creation.returns_of_keyed {c : Creation} (hkeyed : c.keyed) (r : Record N) :
    (Operation.createRun c).Returns (some r) (some r) (.ok r.row) := by
  have hfirst : (Operation.createRun c).first = Creation.Point.lookup := if_pos hkeyed
  refine ⟨⟨⟨"", fun _ => "", none⟩, "", false, false, false⟩, some r, _, Statements.Reaches.start, ?_⟩
  rw [hfirst]
  rfl

/-- What an operation leaves alone, it returns. -/
theorem Marking.returns_of_leaves {m : Marking} {r : Record N} (h : m.op.leaves r.row.status = true) :
    (Operation.mark m).Returns (some r) (some r) (.ok r.row) := by
  have hfirst : (Operation.mark m).first = Marking.Point.getRun := by
    obtain ⟨runId, op⟩ := m
    cases op <;> first | rfl | exact absurd h Bool.false_ne_true
  refine ⟨⟨⟨"", fun _ => "", none⟩, "", false, false, false⟩, some r, _, Statements.Reaches.start, ?_⟩
  rw [hfirst]
  simp [Operation.step, Marking.step, Marking.onRecord, Lifecycle.step, h, Marking.nextOf]
  rfl

private theorem Creation.converges_iff {c : Creation} (hkeyed : c.keyed) {s t : Option (Record N)} {p : Creation.Point}
    (h : (Operation.createRun c).Reaches s t p) :
    (Operation.createRun c).Converges s t ↔ ¬ (Operation.createRun c).Strands s p := by
  have hstage := Creation.stage_of_reaches hkeyed h
  have hstranded : s = none ∧ t.isSome = true → ¬ (Operation.createRun c).Converges s t := by
    rintro ⟨rfl, hsome⟩
    obtain ⟨r, rfl⟩ := Option.isSome_iff_exists.1 hsome
    rintro (hsame | hall)
    · exact absurd hsame nofun
    · exact Operation.not_appends (Creation.returns_of_keyed hkeyed r) (hall (some r) rfl)
  cases p with
  | lookup => exact iff_of_true (Or.inl (hstage ▸ SameRow.refl s)) id
  | insert => exact iff_of_true (Or.inl (hstage.1 ▸ SameRow.refl s)) id
  | load | append => exact iff_of_false (hstranded hstage) (not_not_intro trivial)

private theorem Marking.converges_iff {m : Marking} {s t : Option (Record N)} {p : Marking.Point}
    (h : (Operation.mark m).Reaches s t p) :
    (Operation.mark m).Converges s t ↔ ¬ (Operation.mark m).Strands s p := by
  have hstage : m.Stage s t p := Marking.stage_of_reaches h
  cases p with
  | getRun | metrics | enrich => exact iff_of_true (Or.inl hstage) id
  | statement phase =>
    cases phase with
    | check => exact iff_of_true (Or.inl hstage) id
    | update | reread => exact iff_of_true (Or.inl hstage.1) id
    | emit run =>
      rcases hstage with ⟨hsame, hnot⟩ | ⟨hwrites, r, rfl, htarget⟩
      · exact iff_of_true (Or.inl hsame) fun ⟨_, r, hr, hwrites⟩ => hnot r hr hwrites
      · -- The operation has written its target; what its guard says of the target decides.
        cases hleaves : m.op.leaves m.op.target with
        | true =>
          refine iff_of_false ?_ (not_not_intro ⟨hleaves, hwrites⟩)
          rintro (hsame | hall)
          · obtain ⟨r', hr', -, hedge⟩ := hwrites
            rw [hsame.status hr', htarget] at hedge
            exact validTransitions_irrefl _ hedge
          · exact Operation.not_appends (Marking.returns_of_leaves (htarget ▸ hleaves)) (hall (some r) rfl)
        | false =>
          refine iff_of_true (Or.inr fun later hlater => ?_) fun hstrands => ?_
          · cases later with
            | none => exact absurd hlater nofun
            | some r' =>
              have hstatus : r'.row.status = r.row.status := congrArg Prod.snd (Option.some.inj hlater)
              exact Operation.appends_of_target hleaves ⟨r', rfl, hstatus.trans htarget⟩
          · exact absurd (hleaves.symm.trans hstrands.1) Bool.false_ne_true

/-- A call that has failed can be repeated, unless it has failed after its own write and leaves alone what it has
written: `createRun` behind its `INSERT`, and at the event every operation that looks at the status first. -/
theorem dual_write_converges_iff {op : Operation} (hscope : op.InScope) {s t : Option (Record N)} {p : op.Point}
    (h : op.Reaches s t p) : op.Converges s t ↔ ¬ op.Strands s p := by
  cases op with
  | createRun c => exact Creation.converges_iff hscope h
  | mark m => exact Marking.converges_iff h

/-- `markStarted` fails at its event: it can be repeated. -/
theorem dual_write_converges_started :
    (Operation.mark ⟨"r", .markStarted ⟨"k", none, "m", "1", "1", none, none, [], none⟩⟩).Converges
      (some (⟨{ id := "r", status := .queued }, 1, []⟩ : Record Int))
      (some ⟨{ id := "r", status := .starting, startedAt := some "1", updatedAt := "1" }, 1, []⟩) := by
  let env : Env := ⟨⟨"1", fun _ => "e", none⟩, "t", false, false, false⟩
  let op : Operation := .mark ⟨"r", .markStarted ⟨"k", none, "m", "1", "1", none, none, [], none⟩⟩
  have hscope : op.InScope := show RunStatus.starting ≠ .bindingSession by decide
  have hreaches : op.Reaches (some (⟨{ id := "r", status := .queued }, 1, []⟩ : Record Int))
      (some ⟨{ id := "r", status := .starting, startedAt := some "1", updatedAt := "1" }, 1, []⟩)
      (Marking.Point.statement (.emit { id := "r", status := .starting, startedAt := some "1", updatedAt := "1" })) :=
    .next (e := env) .start rfl
  refine (dual_write_converges_iff hscope hreaches).2 ?_
  rintro ⟨hleaves, -⟩
  exact Bool.false_ne_true hleaves

/-- `markCompleted` fails at its event: a repeated call finds the run completed, and returns it. -/
theorem completion_not_repeated :
    ¬ ∀ (op : Operation) (s t : Option (Record Int)) (p : op.Point), op.InScope → op.Reaches s t p →
      op.Converges s t := by
  intro hall
  let running : Record Int := { row := { id := "r", status := .running }, lastEventSeq := 1 }
  let completed : Record Int :=
    { running with row := { running.row with status := .completed, endedAt := some "1", updatedAt := "1" } }
  let env : Env := ⟨⟨"1", fun _ => "e", none⟩, "t", false, false, false⟩
  let op : Operation := .mark ⟨"r", .markCompleted⟩
  have hscope : op.InScope := show RunStatus.completed ≠ .bindingSession by decide
  have hreaches : op.Reaches (some running) (some completed) (Marking.Point.statement (.emit completed.row)) :=
    .next (e := env) (.next (e := env) .start rfl) rfl
  exact (Marking.converges_iff hreaches).1 (hall op _ _ _ hscope hreaches) ⟨rfl, running, rfl, rfl, by decide⟩

end MacpControlPlane.LifecycleRetry

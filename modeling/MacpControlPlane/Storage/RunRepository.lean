import MacpControlPlane.Contracts

/-!
# The `runs` row and its status transitions (`storage/run.repository.ts`)

A status transition is a table lookup (`validFrom`), one conditional `UPDATE` (`compareAndSet`) and, when that matched
no row, a second read (`afterMiss`).  The three are separate definitions because other callers can run between the
update and the second read; `transitionTo` is their composition when nobody does.
-/

namespace MacpControlPlane

/-- `VALID_TRANSITIONS` -/
def validTransitions : RunStatus → List RunStatus
  | .queued => [.starting, .failed, .cancelled]
  | .starting => [.bindingSession, .failed, .cancelled]
  | .bindingSession => [.running, .failed, .cancelled]
  | .running => [.suspended, .completed, .failed, .cancelled]
  | .suspended => [.running, .completed, .failed, .cancelled]
  | .completed => []
  | .failed => []
  | .cancelled => []

/-- The columns of a `runs` row that the transitions and their callers read or write. -/
structure RunRow where
  id : String
  status : RunStatus
  runtimeSessionId : Option String := none
  traceId : Option String := none
  idempotencyKey : Option String := none
  errorCode : Option String := none
  errorMessage : Option String := none
  createdAt : String := ""
  startedAt : Option String := none
  endedAt : Option String := none
  updatedAt : String := ""
  deriving DecidableEq, Repr

/-- `Partial<typeof runs.$inferInsert>`, as far as the transitions use it: a field that is `undefined` is not set. -/
structure RunPatch where
  runtimeSessionId : Option String := none
  errorCode : Option String := none
  errorMessage : Option String := none
  startedAt : Option String := none
  endedAt : Option String := none
  deriving DecidableEq, Repr

/-- The errors the repository throws, with their messages. -/
inductive RunError where
  | conflict (message : String)
  | error (message : String)
  deriving DecidableEq, Repr

def RunError.message : RunError → String
  | conflict message | error message => message

/-- A target status with the other columns to set. -/
structure Transition where
  target : RunStatus
  patch : RunPatch := {}
  deriving DecidableEq, Repr

/-- `.set(patch)` -/
def RunRow.patched (row : RunRow) (patch : RunPatch) : RunRow :=
  { row with
    runtimeSessionId := patch.runtimeSessionId.or row.runtimeSessionId
    errorCode := patch.errorCode.or row.errorCode
    errorMessage := patch.errorMessage.or row.errorMessage
    startedAt := patch.startedAt.or row.startedAt
    endedAt := patch.endedAt.or row.endedAt }

/-- The statuses from which `target` can be reached. -/
def validFrom (target : RunStatus) : List RunStatus :=
  RunStatus.all.filter fun source => target ∈ validTransitions source

/-- `UPDATE runs SET … WHERE id = … AND status IN validFrom RETURNING *`; `none` when no row matched. -/
def compareAndSet (t : Transition) (now : String) (row : RunRow) : Option RunRow :=
  if row.status ∈ validFrom t.target then
    some { row.patched t.patch with status := t.target, updatedAt := now }
  else none

/-- What `transitionTo` does with the row it reads after an update that matched nothing. -/
def afterMiss (id : String) (target : RunStatus) (current : Option RunRow) : Except RunError RunRow :=
  match current with
  | none => .error (.error s!"run {id} not found")
  | some row =>
    if row.status = target then .ok row
    else .error (.conflict s!"cannot transition run {id} from '{row.status.name}' to '{target.name}'")

/-- What `transitionTo` throws for a target with no way in. -/
def noWayIn (target : RunStatus) : RunError :=
  .conflict s!"no valid transitions to '{target.name}'"

/-- `transitionTo`, when nothing runs between its statements: the row afterwards, and the result. -/
def transitionTo (t : Transition) (now : String) (row : RunRow) : RunRow × Except RunError RunRow :=
  if validFrom t.target = [] then (row, .error (noWayIn t.target))
  else
    match compareAndSet t now row with
    | some row' => (row', .ok row')
    | none => (row, afterMiss row.id t.target (some row))

/-! ### The transition operations -/

def RunRepository.markStarted (now : String) : Transition :=
  ⟨.starting, { startedAt := some now }⟩

def RunRepository.markBindingSession (runtimeSessionId : String) : Transition :=
  ⟨.bindingSession, { runtimeSessionId := some runtimeSessionId }⟩

def RunRepository.markRunning (runtimeSessionId : Option String) : Transition :=
  ⟨.running, { runtimeSessionId }⟩

def RunRepository.markCompleted (now : String) (runtimeSessionId : Option String := none) : Transition :=
  ⟨.completed, { runtimeSessionId, endedAt := some now }⟩

def RunRepository.markCancelled (now : String) : Transition :=
  ⟨.cancelled, { endedAt := some now }⟩

def RunRepository.markSuspended : Transition :=
  ⟨.suspended, {}⟩

def RunRepository.markResumed : Transition :=
  ⟨.running, {}⟩

def RunRepository.markFailed (now : String) (errorCode errorMessage : Option String) : Transition :=
  ⟨.failed, { errorCode, errorMessage, endedAt := some now }⟩

/-- A transition that one of the operations makes. -/
inductive IsOperation : Transition → Prop
  | markStarted (now) : IsOperation (RunRepository.markStarted now)
  | markBindingSession (sid) : IsOperation (RunRepository.markBindingSession sid)
  | markRunning (sid) : IsOperation (RunRepository.markRunning sid)
  | markCompleted (now sid) : IsOperation (RunRepository.markCompleted now sid)
  | markCancelled (now) : IsOperation (RunRepository.markCancelled now)
  | markSuspended : IsOperation RunRepository.markSuspended
  | markResumed : IsOperation RunRepository.markResumed
  | markFailed (now code message) : IsOperation (RunRepository.markFailed now code message)

/-! ### What one statement does -/

private theorem mem_validFrom {source target : RunStatus} :
    source ∈ validFrom target ↔ target ∈ validTransitions source := by
  simp [validFrom, RunStatus.mem_all]

/-- Nothing leads out of a terminal status. -/
theorem validTransitions_eq_nil {s : RunStatus} : validTransitions s = [] ↔ s.terminal = true := by
  cases s <;> decide

theorem validTransitions_irrefl (s : RunStatus) : s ∉ validTransitions s := by
  cases s <;> decide

/-- The conditional update writes only along an edge of the table. -/
theorem compareAndSet_eq_some {t : Transition} {now : String} {row row' : RunRow} :
    compareAndSet t now row = some row' ↔
      t.target ∈ validTransitions row.status ∧
        row' = { row.patched t.patch with status := t.target, updatedAt := now } := by
  unfold compareAndSet
  rw [← mem_validFrom]
  split <;> rename_i h
  · rw [Option.some.injEq, and_iff_right h, eq_comm]
  · simp [h]

theorem compareAndSet_eq_none {t : Transition} {now : String} {row : RunRow} :
    compareAndSet t now row = none ↔ t.target ∉ validTransitions row.status := by
  unfold compareAndSet
  rw [← mem_validFrom]
  split <;> simp_all

theorem compareAndSet_status {t : Transition} {now : String} {row row' : RunRow}
    (h : compareAndSet t now row = some row') : row'.status = t.target := by
  rw [(compareAndSet_eq_some.1 h).2]

theorem compareAndSet_id {t : Transition} {now : String} {row row' : RunRow}
    (h : compareAndSet t now row = some row') : row'.id = row.id := by
  rw [(compareAndSet_eq_some.1 h).2]
  rfl

/-- The operations set `ended_at` exactly when their target is terminal. -/
theorem IsOperation.patch_endedAt {t : Transition} (h : IsOperation t) :
    t.patch.endedAt.isSome = t.target.terminal := by
  cases h <;> rfl

private theorem validFrom_eq_nil {target : RunStatus} : validFrom target = [] ↔ target = .queued := by
  cases target <;> decide

/-- The operations have targets with a way in, so the guard at the head of `transitionTo` never fires for them. -/
theorem IsOperation.validFrom_ne_nil {t : Transition} (h : IsOperation t) : validFrom t.target ≠ [] := by
  rw [Ne, validFrom_eq_nil]
  cases h <;> exact nofun

/-- A row whose `ended_at` is set exactly when it is terminal stays so under the operations. -/
theorem compareAndSet_endedAt {t : Transition} (ht : IsOperation t) {now : String} {row row' : RunRow}
    (h : compareAndSet t now row = some row') (hrow : row.endedAt.isSome = row.status.terminal) :
    row'.endedAt.isSome = row'.status.terminal := by
  obtain ⟨hedge, rfl⟩ := compareAndSet_eq_some.1 h
  have hnot : row.status.terminal = false := by
    rw [Bool.eq_false_iff]
    intro hterm
    rw [validTransitions_eq_nil.2 hterm] at hedge
    exact absurd hedge List.not_mem_nil
  have hnone : row.endedAt = none := by
    rw [hnot] at hrow
    simpa using hrow
  simp only [RunRow.patched, hnone, Option.or_none]
  exact ht.patch_endedAt

/-- A transition that succeeds returns the row, which has the target status. -/
theorem transitionTo_ok {t : Transition} {now : String} {row row' run : RunRow}
    (h : transitionTo t now row = (row', .ok run)) : run = row' ∧ row'.status = t.target ∧ row'.id = row.id := by
  unfold transitionTo at h
  split at h
  · exact absurd (Prod.mk.inj h).2 nofun
  · split at h
    · rename_i hrow
      obtain ⟨hfst, hsnd⟩ := Prod.mk.inj h
      rw [← Except.ok.inj hsnd, ← hfst]
      obtain ⟨-, rfl⟩ := compareAndSet_eq_some.1 hrow
      exact ⟨rfl, rfl, rfl⟩
    · obtain ⟨hfst, hsnd⟩ := Prod.mk.inj h
      unfold afterMiss at hsnd
      dsimp only at hsnd
      split at hsnd
      · rename_i hstatus
        rw [← Except.ok.inj hsnd, ← hfst]
        exact ⟨rfl, hstatus, rfl⟩
      · exact absurd hsnd nofun

/-- After a miss the caller gets a row that has the target status, or an error. -/
theorem afterMiss_cases (id : String) (target : RunStatus) (row : RunRow) :
    (afterMiss id target (some row) = .ok row ∧ row.status = target) ∨
      ∃ e, afterMiss id target (some row) = .error e := by
  by_cases h : row.status = target
  · exact Or.inl ⟨if_pos h, h⟩
  · exact Or.inr ⟨_, if_neg h⟩

end MacpControlPlane

import MacpControlPlane.Lib.Callers
import MacpControlPlane.Lib.Grouping
import MacpControlPlane.Lib.Progress
import MacpControlPlane.Lib.Table
import MacpControlPlane.Storage.RunRepository

/-!
# Deleting runs (`retention/data-retention.service.ts`, `RunManagerService.deleteRun`)

Runs are deleted by `purgeTerminalRuns`, which selects a batch of ids and then deletes them in a statement of its own,
and by `deleteRun`, which reads the run before it deletes it.  Neither DELETE looks at the status again.  Between two
statements of one caller anything can happen: other passes and calls, status transitions, new runs, and new rows in the
tables that refer to the run.  A new run may have the id of one that has been deleted: session discovery takes the id of
the session, and comes upon that again with every watch.  Then what has been selected, or read, is not what is deleted.

The other tables refer to `runs.id` with `ON DELETE CASCADE`.  `removed` keeps what has been deleted and by whom, and
`ids` and `inserted` what there has ever been.
-/

namespace MacpControlPlane.RunDeletion

/-- The tables with a column `run_id` that refers to `runs.id`. -/
inductive ChildTable where
  | runtimeSessions | runEventsRaw | runEventsCanonical | runProjections | runArtifacts | runMetrics
  | runOutboundMessages
  deriving DecidableEq, Repr

structure Child where
  table : ChildTable
  key : String
  runId : String
  deriving DecidableEq, Repr

def terminalStatuses : List RunStatus := [.completed, .failed, .cancelled]

/-- Where a call of `purgeTerminalRuns` is; it counts in `total` what it has deleted. -/
inductive Phase where
  | selecting (total : Nat)
  | deleting (total : Nat) (ids : List String)
  | returned (total : Nat)
  | threw
  deriving DecidableEq, Repr

structure Pass where
  cutoff : Int
  batchSize : Nat
  phase : Phase := .selecting 0
  deriving DecidableEq, Repr

/-- Where a call of `deleteRun` is. -/
inductive CallAt where
  /-- Before `getRun`. -/
  | reading
  /-- Before the DELETE. -/
  | removing
  | over (result : Except String Unit)

structure Call where
  runId : String
  here : CallAt := .reading

/-- Whose DELETE it was. -/
inductive Deleter where
  | pass (i : Nat)
  | call (k : Nat)
  deriving DecidableEq, Repr

structure Removal where
  row : RunRow
  /-- The rows that went with it. -/
  children : List Child
  deleter : Deleter
  deriving DecidableEq

structure State where
  runs : List RunRow
  children : List Child
  passes : List Pass := []
  calls : List Call := []
  removed : List Removal := []
  ids : List String
  inserted : List Child

inductive Action where
  /-- `runRetention` calls `purgeTerminalRuns`. -/
  | purgeTerminalRuns (cutoff : Int) (batchSize : Nat)
  /-- The SELECT of pass `i`, which comes in any order. -/
  | select (i : Nat) (ids : List String)
  /-- The DELETE of pass `i`. -/
  | delete (i : Nat)
  /-- A statement of pass `i` throws. -/
  | passFails (i : Nat)
  | deleteRun (runId : String)
  /-- The reads of call `k`, up to the audit record. -/
  | read (k : Nat)
  /-- The DELETE of call `k`. -/
  | remove (k : Nat)
  /-- A statement of call `k` throws. -/
  | callFails (k : Nat) (message : String)
  | insertRun (row : RunRow)
  | insertChild (child : Child)
  /-- The conditional update of a transition. -/
  | transition (runId : String) (t : Transition) (now : String)
  /-- Any other update of a run, which leaves its status and its end as they are. -/
  | update (row : RunRow)

variable (instant : String → Int)

/-- `status IN (…) AND ended_at < cutoff` -/
def stale (cutoff : Int) (row : RunRow) : Bool :=
  row.status ∈ terminalStatuses && row.endedAt.any fun endedAt => instant endedAt < cutoff

def notFound (runId : String) : String := s!"run {runId} not found"

def notTerminal : String := "only terminal runs (completed, failed, cancelled) can be deleted"

/-- `DELETE FROM runs WHERE id IN ids`, and its cascades. -/
def State.drop (s : State) (deleter : Deleter) (ids : List String) : State :=
  { s with
    runs := s.runs.filter (·.id ∉ ids)
    children := s.children.filter (·.runId ∉ ids)
    removed := s.removed ++ (s.runs.filter (·.id ∈ ids)).map fun row =>
      ⟨row, Grouping.group Child.runId s.children row.id, deleter⟩ }

def State.setPass (s : State) (i : Nat) (p : Pass) (phase : Phase) : State :=
  { s with passes := s.passes.set i { p with phase } }

def State.setCall (s : State) (k : Nat) (c : Call) (here : CallAt) : State :=
  { s with calls := s.calls.set k { c with here } }

/-- What a SELECT of the pass can return. -/
def Selects (s : State) (p : Pass) (ids : List String) : Prop :=
  ids.Nodup ∧ (∀ id ∈ ids, ∃ row ∈ s.runs, row.id = id ∧ stale instant p.cutoff row = true) ∧
    ids.length = min p.batchSize (s.runs.countP (stale instant p.cutoff))

instance (s : State) (p : Pass) (ids : List String) : Decidable (Selects instant s p ids) := by
  unfold Selects
  infer_instance

/-- After the SELECT. -/
def selected (total : Nat) (ids : List String) : Phase := if ids = [] then .returned total else .deleting total ids

/-- After the DELETE of `deleted` rows. -/
def purged (batchSize total deleted : Nat) : Phase :=
  if deleted = batchSize then .selecting (total + deleted) else .returned (total + deleted)

/-- What `deleteRun` does with the run it has read. -/
def checked (runId : String) (run : Option RunRow) : CallAt :=
  match run with
  | none => .over (.error (notFound runId))
  | some row => if row.status ∈ terminalStatuses then .removing else .over (.error notTerminal)

def next (s : State) : Action → Option State
  | .purgeTerminalRuns cutoff batchSize => some { s with passes := s.passes ++ [{ cutoff, batchSize }] }
  | .select i ids =>
    match s.passes[i]? with
    | some p =>
      match p.phase with
      | .selecting total => if Selects instant s p ids then some (s.setPass i p (selected total ids)) else none
      | _ => none
    | none => none
  | .delete i =>
    match s.passes[i]? with
    | some p =>
      match p.phase with
      | .deleting total ids =>
        some ((s.drop (.pass i) ids).setPass i p (purged p.batchSize total (s.runs.countP (·.id ∈ ids))))
      | _ => none
    | none => none
  | .passFails i =>
    match s.passes[i]? with
    | some p =>
      match p.phase with
      | .selecting _ | .deleting _ _ => some (s.setPass i p .threw)
      | _ => none
    | none => none
  | .deleteRun runId => some { s with calls := s.calls ++ [{ runId }] }
  | .read k =>
    match s.calls[k]? with
    | some c =>
      match c.here with
      | .reading => some (s.setCall k c (checked c.runId (Table.get RunRow.id s.runs c.runId)))
      | _ => none
    | none => none
  | .remove k =>
    match s.calls[k]? with
    | some c =>
      match c.here with
      | .removing => some ((s.drop (.call k) [c.runId]).setCall k c (.over (.ok ())))
      | _ => none
    | none => none
  | .callFails k message =>
    match s.calls[k]? with
    | some c =>
      match c.here with
      | .reading | .removing => some (s.setCall k c (.over (.error message)))
      | _ => none
    | none => none
  | .insertRun row =>
    if row.id ∈ s.runs.map RunRow.id then none
    else some { s with runs := s.runs ++ [row], ids := s.ids ++ [row.id] }
  | .insertChild child =>
    if child.runId ∈ s.runs.map RunRow.id then
      some { s with children := s.children ++ [child], inserted := s.inserted ++ [child] }
    else none
  | .transition runId t now =>
    match Table.get RunRow.id s.runs runId with
    | some row => (compareAndSet t now row).map fun row' => { s with runs := Table.put RunRow.id s.runs runId row' }
    | none => none
  | .update row' =>
    match Table.get RunRow.id s.runs row'.id with
    | some row =>
      if row'.status = row.status ∧ row'.endedAt = row.endedAt then
        some { s with runs := Table.put RunRow.id s.runs row'.id row' }
      else none
    | none => none

/-- The callers of both on any tables in which every row of a child table refers to a run. -/
def machine : Machine State Action where
  start s := (s.runs.map RunRow.id).Nodup ∧ (∀ c ∈ s.children, c.runId ∈ s.runs.map RunRow.id) ∧ s.passes = [] ∧
    s.calls = [] ∧ s.removed = [] ∧ s.ids = s.runs.map RunRow.id ∧ s.inserted = s.children
  next := next instant

/-- The ids that the pass has selected and not deleted yet. -/
def Pass.awaits (p : Pass) : List String :=
  match p.phase with
  | .deleting _ ids => ids
  | _ => []

/-- The id of the run that the call has read and not deleted yet. -/
def Call.awaits (c : Call) : List String :=
  match c.here with
  | .removing => [c.runId]
  | _ => []

def State.awaited (s : State) : List String := s.passes.flatMap Pass.awaits ++ s.calls.flatMap Call.awaits

/-- No run is created under an id that somebody is about to delete. -/
def Unawaited (s : State) : Action → Prop
  | .insertRun row => row.id ∉ s.awaited
  | _ => True

instance (s : State) (a : Action) : Decidable (Unawaited s a) := by
  cases a <;> unfold Unawaited <;> infer_instance

variable {instant} {s t : State} {a : Action}

/-! ### What the statements do -/

private theorem mem_terminalStatuses {status : RunStatus} : status ∈ terminalStatuses ↔ status.terminal = true := by
  cases status <;> decide

private theorem stale_congr {cutoff : Int} {row row' : RunRow} (hstatus : row'.status = row.status)
    (hended : row'.endedAt = row.endedAt) : stale instant cutoff row' = stale instant cutoff row := by
  unfold stale
  rw [hstatus, hended]

private theorem terminal_of_stale {cutoff : Int} {row : RunRow} (h : stale instant cutoff row = true) :
    row.status.terminal = true := by
  unfold stale at h
  rw [Bool.and_eq_true, decide_eq_true_iff, mem_terminalStatuses] at h
  exact h.1

/-- A run that there is under this id was there before the step, and an ended one has kept its status and its end. -/
def Later (s t : State) (id : String) : Prop :=
  ∀ row' ∈ t.runs, row'.id = id → ∃ row ∈ s.runs, row.id = id ∧
    (row.status.terminal = true → row'.status = row.status ∧ row'.endedAt = row.endedAt)

private theorem Later.of_subset {id : String} (hruns : t.runs ⊆ s.runs) : Later s t id :=
  fun row hrow hid => ⟨row, hruns hrow, hid, fun _ => ⟨rfl, rfl⟩⟩

private theorem Later.of_put {runId id : String} {row row' : RunRow}
    (hrow : Table.get RunRow.id s.runs runId = some row) (hid : row'.id = row.id)
    (hkeep : row.status.terminal = true → row'.status = row.status ∧ row'.endedAt = row.endedAt) :
    Later s { s with runs := Table.put RunRow.id s.runs runId row' } id := by
  intro x hx hxid
  rcases Table.mem_put hx with hx | rfl
  · exact ⟨x, hx, hxid, fun _ => ⟨rfl, rfl⟩⟩
  · exact ⟨row, Table.mem_of_get hrow, hid.symm.trans hxid, hkeep⟩

/-- A run under this id has been removed since `v`. -/
def RemovedSince (v s : State) (id : String) : Prop := ∃ r ∈ s.removed.drop v.removed.length, r.row.id = id

/-- What an action does, with what it needs. -/
inductive NextSpec (instant : String → Int) (s : State) : Action → State → Prop
  | purgeTerminalRuns {cutoff batchSize} :
    NextSpec instant s (.purgeTerminalRuns cutoff batchSize) { s with passes := s.passes ++ [{ cutoff, batchSize }] }
  | select {i p total ids} (hp : s.passes[i]? = some p) (hphase : p.phase = .selecting total)
      (hselects : Selects instant s p ids) :
    NextSpec instant s (.select i ids) (s.setPass i p (selected total ids))
  | delete {i p total ids} (hp : s.passes[i]? = some p) (hphase : p.phase = .deleting total ids) :
    NextSpec instant s (.delete i)
      ((s.drop (.pass i) ids).setPass i p (purged p.batchSize total (s.runs.countP (·.id ∈ ids))))
  | passFails {i p} (hp : s.passes[i]? = some p) : NextSpec instant s (.passFails i) (s.setPass i p .threw)
  | deleteRun {runId} : NextSpec instant s (.deleteRun runId) { s with calls := s.calls ++ [{ runId }] }
  | read {k c} (hc : s.calls[k]? = some c) (hhere : c.here = .reading) :
    NextSpec instant s (.read k) (s.setCall k c (checked c.runId (Table.get RunRow.id s.runs c.runId)))
  | remove {k c} (hc : s.calls[k]? = some c) (hhere : c.here = .removing) :
    NextSpec instant s (.remove k) ((s.drop (.call k) [c.runId]).setCall k c (.over (.ok ())))
  | callFails {k c message} (hc : s.calls[k]? = some c) :
    NextSpec instant s (.callFails k message) (s.setCall k c (.over (.error message)))
  | insertRun {row} (hfree : row.id ∉ s.runs.map RunRow.id) :
    NextSpec instant s (.insertRun row) { s with runs := s.runs ++ [row], ids := s.ids ++ [row.id] }
  | insertChild {child} (hrun : child.runId ∈ s.runs.map RunRow.id) :
    NextSpec instant s (.insertChild child)
      { s with children := s.children ++ [child], inserted := s.inserted ++ [child] }
  | transition {runId t now row row'} (hrow : Table.get RunRow.id s.runs runId = some row)
      (hrow' : compareAndSet t now row = some row') :
    NextSpec instant s (.transition runId t now) { s with runs := Table.put RunRow.id s.runs runId row' }
  | update {row row'} (hrow : Table.get RunRow.id s.runs row'.id = some row)
      (hkeep : row'.status = row.status ∧ row'.endedAt = row.endedAt) :
    NextSpec instant s (.update row') { s with runs := Table.put RunRow.id s.runs row'.id row' }

private theorem next_spec (h : next instant s a = some t) : NextSpec instant s a t := by
  cases a <;> simp only [next] at h
  case purgeTerminalRuns cutoff batchSize => exact Option.some.inj h ▸ .purgeTerminalRuns
  case deleteRun runId => exact Option.some.inj h ▸ .deleteRun
  case select i ids =>
    split at h
    · split at h
      · split at h
        · exact Option.some.inj h ▸ .select ‹_› ‹_› ‹_›
        · exact absurd h nofun
      · exact absurd h nofun
    · exact absurd h nofun
  case delete i =>
    split at h
    · split at h
      · exact Option.some.inj h ▸ .delete ‹_› ‹_›
      · exact absurd h nofun
    · exact absurd h nofun
  case passFails i =>
    split at h
    · split at h
      · exact Option.some.inj h ▸ .passFails ‹_›
      · exact Option.some.inj h ▸ .passFails ‹_›
      · exact absurd h nofun
    · exact absurd h nofun
  case read k =>
    split at h
    · split at h
      · exact Option.some.inj h ▸ .read ‹_› ‹_›
      · exact absurd h nofun
    · exact absurd h nofun
  case remove k =>
    split at h
    · split at h
      · exact Option.some.inj h ▸ .remove ‹_› ‹_›
      · exact absurd h nofun
    · exact absurd h nofun
  case callFails k message =>
    split at h
    · split at h
      · exact Option.some.inj h ▸ .callFails ‹_›
      · exact Option.some.inj h ▸ .callFails ‹_›
      · exact absurd h nofun
    · exact absurd h nofun
  case insertRun row =>
    split at h
    · exact absurd h nofun
    · exact Option.some.inj h ▸ .insertRun ‹_›
  case insertChild child =>
    split at h
    · exact Option.some.inj h ▸ .insertChild ‹_›
    · exact absurd h nofun
  case transition runId t now =>
    split at h
    · obtain ⟨row', hrow', rfl⟩ := Option.map_eq_some_iff.1 h
      exact .transition ‹_› hrow'
    · exact absurd h nofun
  case update row' =>
    split at h
    · split at h
      · exact Option.some.inj h ▸ .update ‹_› ‹_›
      · exact absurd h nofun
    · exact absurd h nofun

/-- No transition leads out of a terminal status. -/
private theorem keeps_of_compareAndSet {transition : Transition} {now : String} {row row' : RunRow}
    (h : compareAndSet transition now row = some row') (hterminal : row.status.terminal = true) :
    row'.status = row.status ∧ row'.endedAt = row.endedAt := by
  rw [compareAndSet_eq_some, validTransitions_eq_nil.2 hterminal] at h
  exact absurd h.1 List.not_mem_nil

private theorem NextSpec.later (h : NextSpec instant s a t) {id : String}
    (hnew : ∀ row, a = .insertRun row → row.id ≠ id) : Later s t id := by
  cases h with
  | purgeTerminalRuns | select | passFails | deleteRun | read | callFails | insertChild =>
    exact .of_subset (List.Subset.refl _)
  | delete | remove => exact .of_subset (List.filter_subset_self _)
  | @insertRun row hfree =>
    intro x hx hid
    rcases List.mem_append.1 hx with hx | hx
    · exact ⟨x, hx, hid, fun _ => ⟨rfl, rfl⟩⟩
    · rw [List.mem_singleton.1 hx] at hid
      exact absurd hid (hnew row rfl)
  | transition hrow hrow' => exact .of_put hrow (compareAndSet_id hrow') (keeps_of_compareAndSet hrow')
  | update hrow hkeep => exact .of_put hrow (Table.key_of_get hrow).symm fun _ => hkeep

/-- What has been removed stays on record. -/
private theorem NextSpec.removed_grows (h : NextSpec instant s a t) : s.removed <+: t.removed := by
  cases h with
  | delete | remove => exact List.prefix_append _ _
  | purgeTerminalRuns | select | passFails | deleteRun | read | callFails | insertRun | insertChild | transition
  | update => exact List.prefix_refl _

private theorem mem_removed_drop {deleter : Deleter} {ids : List String} {r : Removal} :
    r ∈ (s.drop deleter ids).removed ↔ r ∈ s.removed ∨ ∃ row ∈ s.runs, row.id ∈ ids ∧
      r = ⟨row, Grouping.group Child.runId s.children row.id, deleter⟩ := by
  simp only [State.drop, List.mem_append, List.mem_map, List.mem_filter, decide_eq_true_eq]
  refine or_congr_right ⟨?_, ?_⟩
  · rintro ⟨row, ⟨hrow, hid⟩, heq⟩
    exact ⟨row, hrow, hid, heq.symm⟩
  · rintro ⟨row, hrow, hid, heq⟩
    exact ⟨row, ⟨hrow, hid⟩, heq.symm⟩

private theorem mem_runs_drop {deleter : Deleter} {ids : List String} {row : RunRow} :
    row ∈ (s.drop deleter ids).runs ↔ row ∈ s.runs ∧ row.id ∉ ids := by
  simp [State.drop]

private theorem removedSince_drop {deleter : Deleter} {ids : List String} {row : RunRow} (hrow : row ∈ s.runs)
    (hid : row.id ∈ ids) : RemovedSince s (s.drop deleter ids) row.id := by
  refine ⟨⟨row, Grouping.group Child.runId s.children row.id, deleter⟩, ?_, rfl⟩
  simp only [State.drop, List.drop_left, List.mem_map, List.mem_filter, decide_eq_true_eq]
  exact ⟨row, ⟨hrow, hid⟩, rfl⟩

private theorem RemovedSince.mono {u v : State} {id : String} (h : RemovedSince v s id) (hu : u.removed <+: v.removed)
    (ht : s.removed <+: t.removed) : RemovedSince u t id := by
  obtain ⟨r, hr, hid⟩ := h
  refine ⟨r, ?_, hid⟩
  have hmem : r ∈ t.removed.drop v.removed.length := by
    obtain ⟨rest, hrest⟩ := ht
    rw [← hrest, List.drop_append]
    exact List.mem_append_left _ hr
  exact (List.drop_sublist_drop_left _ hu.length_le).subset hmem

/-- An ended run keeps its status and its end until it is removed. -/
private theorem NextSpec.kept (h : NextSpec instant s a t) (hdistinct : (s.runs.map RunRow.id).Nodup) {row : RunRow}
    (hrow : row ∈ s.runs) (hended : row.status.terminal = true) :
    RemovedSince s t row.id ∨
      ∃ row' ∈ t.runs, row'.id = row.id ∧ row'.status = row.status ∧ row'.endedAt = row.endedAt := by
  have hdrop : ∀ (deleter : Deleter) (ids : List String), RemovedSince s (s.drop deleter ids) row.id ∨
      row ∈ (s.drop deleter ids).runs := by
    intro deleter ids
    by_cases hid : row.id ∈ ids
    · exact Or.inl (removedSince_drop hrow hid)
    · exact Or.inr (mem_runs_drop.2 ⟨hrow, hid⟩)
  have hput : ∀ {runId : String} {old new : RunRow}, Table.get RunRow.id s.runs runId = some old → new.id = old.id →
      (old.status.terminal = true → new.status = old.status ∧ new.endedAt = old.endedAt) →
        ∃ row' ∈ Table.put RunRow.id s.runs runId new,
          row'.id = row.id ∧ row'.status = row.status ∧ row'.endedAt = row.endedAt := by
    intro runId old new hold hid hkeep
    have holdId : old.id = runId := Table.key_of_get hold
    by_cases hsame : row.id = runId
    · have heq := List.inj_on_of_nodup_map hdistinct (Table.mem_of_get hold) hrow (holdId.trans hsame.symm)
      subst heq
      have hget := Table.get_put_self hold (hid.trans holdId)
      exact ⟨new, Table.mem_of_get hget, hid, hkeep hended⟩
    · have hget :
          Table.get RunRow.id (Table.put RunRow.id s.runs runId new) row.id = Table.get RunRow.id s.runs row.id :=
        Table.get_put_of_ne (hid.trans holdId) hsame
      rw [Table.get_eq_some_of_mem hdistinct hrow] at hget
      exact ⟨row, Table.mem_of_get hget, rfl, rfl, rfl⟩
  cases h with
  | purgeTerminalRuns | select | passFails | deleteRun | read | callFails | insertChild =>
    exact Or.inr ⟨row, hrow, rfl, rfl, rfl⟩
  | delete | remove => exact (hdrop _ _).imp_right fun hleft => ⟨row, hleft, rfl, rfl, rfl⟩
  | insertRun => exact Or.inr ⟨row, List.mem_append_left _ hrow, rfl, rfl, rfl⟩
  | transition hold hmoved => exact Or.inr (hput hold (compareAndSet_id hmoved) (keeps_of_compareAndSet hmoved))
  | update hold hkeep => exact Or.inr (hput hold (Table.key_of_get hold).symm fun _ => hkeep)

/-- A pass keeps its cutoff. -/
private theorem NextSpec.passes (h : NextSpec instant s a t) {i : Nat} {p : Pass} (hp : s.passes[i]? = some p) :
    ∃ p', t.passes[i]? = some p' ∧ p'.cutoff = p.cutoff := by
  have hset : ∀ {j : Nat} {q : Pass} (phase : Phase), s.passes[j]? = some q →
      ∃ p', (s.passes.set j { q with phase })[i]? = some p' ∧ p'.cutoff = p.cutoff := by
    intro j q phase hq
    by_cases hij : j = i
    · subst hij
      rw [hp] at hq
      exact ⟨_, Callers.getElem?_set_self_of_some hp, (congrArg Pass.cutoff (Option.some.inj hq)).symm⟩
    · exact ⟨p, Callers.getElem?_set_of_ne hij hp, rfl⟩
  cases h with
  | purgeTerminalRuns => exact ⟨p, Callers.getElem?_concat_of_some hp, rfl⟩
  | select hq | delete hq | passFails hq => exact hset _ hq
  | deleteRun | read | remove | callFails | insertRun | insertChild | transition | update => exact ⟨p, hp, rfl⟩

/-! ### The tables -/

/-- Every run that has been created is there or has been removed, and so is every row that refers to one: it has been
removed with its run, or its run is there. -/
structure Books (s : State) : Prop where
  distinct : (s.runs.map RunRow.id).Nodup
  refers : ∀ c ∈ s.children, c.runId ∈ s.runs.map RunRow.id
  runs : (s.runs.map RunRow.id ++ s.removed.map (·.row.id)).Perm s.ids
  children : (s.children ++ s.removed.flatMap Removal.children).Perm s.inserted
  cascaded : ∀ r ∈ s.removed, ∀ c ∈ r.children, c.runId = r.row.id
  deleters : ∀ r ∈ s.removed, ∀ i, r.deleter = .pass i → i < s.passes.length

/-- What is taken out of `b` is added to `r`. -/
private theorem perm_append_of_split {α : Type} {a b c n r : List α} (hsplit : (a ++ n).Perm b)
    (hall : (b ++ r).Perm c) : (a ++ (r ++ n)).Perm c := by
  have hswap : (a ++ (r ++ n)).Perm ((a ++ n) ++ r) := by
    rw [List.append_assoc]
    exact List.perm_append_comm.append_left a
  exact (hswap.trans (hsplit.append_right r)).trans hall

private theorem Books.drop (h : Books s) {deleter : Deleter} (hdeleter : ∀ i, deleter = .pass i → i < s.passes.length)
    (ids : List String) : Books (s.drop deleter ids) := by
  -- The rows of the child tables refer to runs that are there.
  have hgone : s.children.filter (·.runId ∉ ids) =
      s.children.filter fun c => c.runId ∉ (s.runs.filter (·.id ∈ ids)).map RunRow.id := by
    refine List.filter_congr fun c hc => ?_
    obtain ⟨row, hrow, hid⟩ := List.mem_map.1 (h.refers c hc)
    rw [Bool.eq_iff_iff, decide_eq_true_iff, decide_eq_true_iff, not_iff_not, ← hid]
    constructor
    · exact fun hmem => List.mem_map_of_mem (List.mem_filter.2 ⟨hrow, decide_eq_true hmem⟩)
    · intro hmem
      obtain ⟨other, hother, hsame⟩ := List.mem_map.1 hmem
      exact hsame ▸ of_decide_eq_true (List.mem_filter.1 hother).2
  refine ⟨h.distinct.sublist (List.filter_sublist.map _), fun c hc => ?_, ?_, ?_, fun r hr => ?_, fun r hr => ?_⟩
  · obtain ⟨hc, hleft⟩ := List.mem_filter.1 hc
    obtain ⟨row, hrow, hid⟩ := List.mem_map.1 (h.refers c hc)
    rw [← hid] at hleft ⊢
    exact List.mem_map_of_mem (mem_runs_drop.2 ⟨hrow, of_decide_eq_true hleft⟩)
  · have hsplit := (List.filter_append_perm (fun row : RunRow => decide (row.id ∈ ids)) s.runs).map RunRow.id
    simp only [State.drop, List.map_append, List.map_map, Function.comp_def] at hsplit ⊢
    refine perm_append_of_split (List.perm_append_comm.trans ?_) h.runs
    simpa using hsplit
  · simp only [State.drop, List.flatMap_append, List.flatMap_map]
    refine perm_append_of_split ?_ h.children
    rw [hgone, ← List.flatMap_map RunRow.id]
    exact Grouping.perm_flatMap_group (h.distinct.sublist (List.filter_sublist.map _))
  · rcases mem_removed_drop.1 hr with hr | ⟨row, -, -, rfl⟩
    · exact h.cascaded r hr
    · exact fun c hc => (Grouping.mem_group.1 hc).2
  · rcases mem_removed_drop.1 hr with hr | ⟨row, -, -, rfl⟩
    · exact h.deleters r hr
    · exact hdeleter

private theorem Books.put (h : Books s) {runId : String} {row row' : RunRow}
    (hrow : Table.get RunRow.id s.runs runId = some row) (hid : row'.id = row.id) :
    Books { s with runs := Table.put RunRow.id s.runs runId row' } := by
  have hkeys : (Table.put RunRow.id s.runs runId row').map RunRow.id = s.runs.map RunRow.id :=
    Table.map_key_put (hid.trans (Table.key_of_get hrow))
  refine ⟨hkeys.symm ▸ h.distinct, fun c hc => ?_, ?_, h.children, h.cascaded, h.deleters⟩
  · rw [hkeys]
    exact h.refers c hc
  · rw [hkeys]
    exact h.runs

private theorem Books.next (h : Books s) (hnext : NextSpec instant s a t) : Books t := by
  cases hnext with
  | purgeTerminalRuns =>
    refine ⟨h.distinct, h.refers, h.runs, h.children, h.cascaded, fun r hr i hi => ?_⟩
    rw [List.length_append]
    exact Nat.lt_add_right _ (h.deleters r hr i hi)
  | deleteRun | read | callFails => exact ⟨h.distinct, h.refers, h.runs, h.children, h.cascaded, h.deleters⟩
  | select | passFails =>
    refine ⟨h.distinct, h.refers, h.runs, h.children, h.cascaded, fun r hr i hi => ?_⟩
    exact (h.deleters r hr i hi).trans_eq List.length_set.symm
  | @delete i p total ids hp hphase =>
    have hdrop : Books (s.drop (.pass i) ids) := h.drop (fun j hj => ?_) ids
    · refine ⟨hdrop.distinct, hdrop.refers, hdrop.runs, hdrop.children, hdrop.cascaded, fun r hr j hj => ?_⟩
      exact (hdrop.deleters r hr j hj).trans_eq List.length_set.symm
    · cases hj
      exact (List.getElem?_eq_some_iff.1 hp).1
  | @remove k c hc hhere =>
    have hdrop : Books (s.drop (.call k) [c.runId]) := h.drop (by nofun) [c.runId]
    exact ⟨hdrop.distinct, hdrop.refers, hdrop.runs, hdrop.children, hdrop.cascaded, hdrop.deleters⟩
  | @insertRun row hfree =>
    refine ⟨Table.nodup_concat h.distinct ?_, fun c hc => ?_, ?_, h.children, h.cascaded, h.deleters⟩
    · rw [Table.get_eq_none]
      intro other hother heq
      exact hfree (List.mem_map.2 ⟨other, hother, heq⟩)
    · rw [List.map_append, List.mem_append]
      exact Or.inl (h.refers c hc)
    · rw [List.map_append, List.append_assoc]
      refine (List.perm_append_comm.append_left _).trans ?_
      rw [← List.append_assoc]
      exact h.runs.append_right _
  | @insertChild child hrun =>
    refine ⟨h.distinct, fun c hc => ?_, h.runs, ?_, h.cascaded, h.deleters⟩
    · rcases List.mem_append.1 hc with hc | hc
      · exact h.refers c hc
      · rw [List.mem_singleton.1 hc]
        exact hrun
    · rw [List.append_assoc]
      refine (List.perm_append_comm.append_left _).trans ?_
      rw [← List.append_assoc]
      exact h.children.append_right _
  | transition hrow hrow' => exact h.put hrow (compareAndSet_id hrow')
  | update hrow hkeep => exact h.put hrow (Table.key_of_get hrow).symm

private theorem books_start (h : (machine instant).start s) : Books s := by
  obtain ⟨hdistinct, hrefers, -, -, hremoved, hids, hinserted⟩ := h
  refine ⟨hdistinct, hrefers, ?_, ?_, ?_, ?_⟩ <;> simp [hremoved, hids, hinserted]

private theorem books_exec {s₀ : State} {as : List Action} (hs : (machine instant).start s₀)
    (h : (machine instant).exec s₀ as = some s) : Books s :=
  Machine.exec_invariant (fun _ _ _ hbooks hnext => hbooks.next (next_spec hnext)) (books_start hs) h

/-! ### Only ended runs are deleted -/

/-- The runs that a pass is about to delete ended before its cutoff. -/
def Pass.Safe (instant : String → Int) (s : State) (p : Pass) : Prop :=
  ∀ id ∈ p.awaits, ∀ row ∈ s.runs, row.id = id → stale instant p.cutoff row = true

/-- The run that a call is about to delete has ended. -/
def Call.Safe (s : State) (c : Call) : Prop :=
  ∀ id ∈ c.awaits, ∀ row ∈ s.runs, row.id = id → row.status.terminal = true

/-- The run had ended when it was removed, by a pass before its cutoff. -/
def Removal.Due (instant : String → Int) (s : State) (r : Removal) : Prop :=
  r.row.status.terminal = true ∧
    ∀ i, r.deleter = .pass i → ∃ p, s.passes[i]? = some p ∧ stale instant p.cutoff r.row = true

structure Inv (instant : String → Int) (s : State) : Prop where
  books : Books s
  passes : ∀ p ∈ s.passes, p.Safe instant s
  calls : ∀ c ∈ s.calls, c.Safe s
  removed : ∀ r ∈ s.removed, r.Due instant s

private theorem Pass.Safe.later {p : Pass} (h : p.Safe instant s) (hlater : ∀ id ∈ p.awaits, Later s t id) :
    p.Safe instant t := by
  intro id hid row' hrow' heq
  obtain ⟨row, hrow, hsame, hkeep⟩ := hlater id hid row' hrow' heq
  have hold := h id hid row hrow hsame
  obtain ⟨hstatus, hended⟩ := hkeep (terminal_of_stale hold)
  rw [stale_congr hstatus hended]
  exact hold

private theorem Call.Safe.later {c : Call} (h : c.Safe s) (hlater : ∀ id ∈ c.awaits, Later s t id) : c.Safe t := by
  intro id hid row' hrow' heq
  obtain ⟨row, hrow, hsame, hkeep⟩ := hlater id hid row' hrow' heq
  have hold := h id hid row hrow hsame
  rw [(hkeep hold).1]
  exact hold

private theorem Removal.Due.next {r : Removal} (h : r.Due instant s) (hnext : NextSpec instant s a t) :
    r.Due instant t := by
  refine ⟨h.1, fun i hi => ?_⟩
  obtain ⟨p, hp, hstale⟩ := h.2 i hi
  obtain ⟨p', hp', hcutoff⟩ := hnext.passes hp
  exact ⟨p', hp', hcutoff ▸ hstale⟩

/-- What a SELECT returns are the ids of old ended runs. -/
private theorem safe_selected (hdistinct : (s.runs.map RunRow.id).Nodup) {p : Pass} {total : Nat}
    {ids : List String} (hselects : Selects instant s p ids) :
    Pass.Safe instant s { p with phase := selected total ids } := by
  intro id hid other hother heq
  have hmem : id ∈ ids := by
    unfold Pass.awaits selected at hid
    split_ifs at hid
    · exact absurd hid List.not_mem_nil
    · exact hid
  obtain ⟨row, hrow, rfl, hstale⟩ := hselects.2.1 id hmem
  rw [List.inj_on_of_nodup_map hdistinct hother hrow heq]
  exact hstale

/-- A run that `deleteRun` has read as ended. -/
private theorem safe_checked (hdistinct : (s.runs.map RunRow.id).Nodup) (runId : String) :
    Call.Safe s { runId, here := checked runId (Table.get RunRow.id s.runs runId) } := by
  intro id hid other hother heq
  cases hget : Table.get RunRow.id s.runs runId with
  | none =>
    rw [hget] at hid
    exact absurd hid List.not_mem_nil
  | some row =>
    rw [hget] at hid
    unfold checked at hid
    dsimp only at hid
    split_ifs at hid with hterminal
    · have hrowId : row.id = id := (Table.key_of_get hget).trans (List.mem_singleton.1 hid).symm
      rw [List.inj_on_of_nodup_map hdistinct hother (Table.mem_of_get hget) (heq.trans hrowId.symm)]
      exact mem_terminalStatuses.1 hterminal
    · exact absurd hid List.not_mem_nil

/-- A list of which one entry is replaced. -/
private theorem forall_mem_set {α : Type} {P : α → Prop} {xs : List α} {i : Nat} {y : α} (h : ∀ x ∈ xs, P x)
    (hy : P y) : ∀ x ∈ xs.set i y, P x := by
  intro x hx
  rcases List.mem_or_eq_of_mem_set hx with hx | rfl
  · exact h x hx
  · exact hy

private theorem Inv.next (h : Inv instant s) (hnew : Unawaited s a) (hnext : NextSpec instant s a t) :
    Inv instant t := by
  have hlater : ∀ id ∈ s.awaited, Later s t id := by
    intro id hid
    refine hnext.later ?_
    rintro row rfl rfl
    exact hnew hid
  have hpasses : ∀ p ∈ s.passes, p.Safe instant t := fun p hp => (h.passes p hp).later fun id hid =>
    hlater id (List.mem_append_left _ (List.mem_flatMap.2 ⟨p, hp, hid⟩))
  have hcalls : ∀ c ∈ s.calls, c.Safe t := fun c hc => (h.calls c hc).later fun id hid =>
    hlater id (List.mem_append_right _ (List.mem_flatMap.2 ⟨c, hc, hid⟩))
  have hremoved : ∀ r ∈ s.removed, r.Due instant t := fun r hr => (h.removed r hr).next hnext
  have hbooks := h.books.next hnext
  cases hnext with
  | purgeTerminalRuns =>
    refine ⟨hbooks, fun p hp => ?_, hcalls, hremoved⟩
    rcases List.mem_append.1 hp with hp | hp
    · exact hpasses p hp
    · rw [List.mem_singleton.1 hp]
      exact List.forall_mem_nil _
  | @select i p total ids hp hphase hselects =>
    exact ⟨hbooks, forall_mem_set hpasses (safe_selected h.books.distinct hselects), hcalls, hremoved⟩
  | @delete i p total ids hp hphase =>
    have hawaits : p.awaits = ids := by rw [Pass.awaits, hphase]
    have hsafe := h.passes p (List.mem_of_getElem? hp)
    refine ⟨hbooks, forall_mem_set hpasses fun id hid => ?_, hcalls, fun r hr => ?_⟩
    · unfold Pass.awaits purged at hid
      split_ifs at hid <;> exact absurd hid List.not_mem_nil
    · rcases mem_removed_drop.1 hr with hr | ⟨row, hrow, hid, rfl⟩
      · exact hremoved r hr
      · have hstale := hsafe row.id (hawaits ▸ hid) row hrow rfl
        refine ⟨terminal_of_stale hstale, fun j hj => ?_⟩
        cases hj
        exact ⟨_, Callers.getElem?_set_self_of_some hp, hstale⟩
  | passFails hp => exact ⟨hbooks, forall_mem_set hpasses (List.forall_mem_nil _), hcalls, hremoved⟩
  | deleteRun =>
    refine ⟨hbooks, hpasses, fun c hc => ?_, hremoved⟩
    rcases List.mem_append.1 hc with hc | hc
    · exact hcalls c hc
    · rw [List.mem_singleton.1 hc]
      exact List.forall_mem_nil _
  | read hc hhere => exact ⟨hbooks, hpasses, forall_mem_set hcalls (safe_checked h.books.distinct _), hremoved⟩
  | @remove k c hc hhere =>
    have hawaits : c.awaits = [c.runId] := by rw [Call.awaits, hhere]
    have hsafe := h.calls c (List.mem_of_getElem? hc)
    refine ⟨hbooks, hpasses, forall_mem_set hcalls (List.forall_mem_nil _), fun r hr => ?_⟩
    rcases mem_removed_drop.1 hr with hr | ⟨row, hrow, hid, rfl⟩
    · exact hremoved r hr
    · exact ⟨hsafe row.id (hawaits ▸ hid) row hrow rfl, fun i hi => absurd hi nofun⟩
  | callFails hc => exact ⟨hbooks, hpasses, forall_mem_set hcalls (List.forall_mem_nil _), hremoved⟩
  | insertRun | insertChild | transition | update => exact ⟨hbooks, hpasses, hcalls, hremoved⟩

private theorem inv_start (h : (machine instant).start s) : Inv instant s := by
  refine ⟨books_start h, ?_, ?_, ?_⟩
  all_goals
    obtain ⟨-, -, hpasses, hcalls, hremoved, -, -⟩ := h
    simp [hpasses, hcalls, hremoved]

/-- Whatever runs between the statements of the passes and of the calls: every run that has been created is there or has
been removed, once; the rows that refer to a run are there with it, or have been removed with it.  And a run that has
been removed had ended when it was, before the cutoff if it was a pass that removed it, unless a run was created under
an id that somebody was about to delete. -/
theorem removed_runs_ended {s₀ : State} {as : List Action} (hs : (machine instant).start s₀)
    (h : (machine instant).exec s₀ as = some s) :
    (s.runs.map RunRow.id ++ s.removed.map (·.row.id)).Perm s.ids ∧
    (s.children ++ s.removed.flatMap Removal.children).Perm s.inserted ∧
    (∀ c ∈ s.children, c.runId ∈ s.runs.map RunRow.id) ∧
    (∀ r ∈ s.removed, ∀ c ∈ r.children, c.runId = r.row.id) ∧
    ((machine instant).Throughout Unawaited s₀ as →
      ∀ r ∈ s.removed, r.row.status.terminal = true ∧
        ∀ i, r.deleter = .pass i → ∃ p, s.passes[i]? = some p ∧ stale instant p.cutoff r.row = true) := by
  have hbooks := books_exec hs h
  refine ⟨hbooks.runs, hbooks.children, hbooks.refers, hbooks.cascaded, fun hnew => ?_⟩
  have hinv : Inv instant s :=
    hnew.invariant (fun _ _ _ hinv hnew hnext => hinv.next hnew (next_spec hnext)) (inv_start hs) h
  exact hinv.removed

/-- A call deletes a run that a pass has selected; after the pass the run is discovered anew. -/
theorem removed_runs_ended_example :
    let row : RunRow := { id := "run", status := .completed, endedAt := some "T0" }
    let child : Child := { table := .runMetrics, key := "metrics", runId := "run" }
    let anew : RunRow := { id := "run", status := .running }
    let s : State :=
      { runs := [anew], children := [], passes := [{ cutoff := 1, batchSize := 5, phase := .returned 0 }]
        calls := [{ runId := "run", here := .over (.ok ()) }], removed := [⟨row, [child], .call 0⟩]
        ids := ["run", "run"], inserted := [child] }
    (s.runs.map RunRow.id ++ s.removed.map (·.row.id)).Perm s.ids ∧
    (s.children ++ s.removed.flatMap Removal.children).Perm s.inserted ∧
    (∀ c ∈ s.children, c.runId ∈ s.runs.map RunRow.id) ∧
    (∀ r ∈ s.removed, ∀ c ∈ r.children, c.runId = r.row.id) ∧
    ∀ r ∈ s.removed, r.row.status.terminal = true ∧
      ∀ i, r.deleter = .pass i → ∃ p, s.passes[i]? = some p ∧ stale (fun _ => 0) p.cutoff r.row = true := by
  intro row child anew s
  let s₀ : State := { runs := [row], children := [child], ids := ["run"], inserted := [child] }
  let as : List Action :=
    [.deleteRun "run", .read 0, .purgeTerminalRuns 1 5, .select 0 ["run"], .remove 0, .delete 0, .insertRun anew]
  have hstart : (machine fun _ => 0).start s₀ := ⟨by decide, by decide, rfl, rfl, rfl, rfl, rfl⟩
  have hexec : (machine fun _ => 0).exec s₀ as = some s := rfl
  have hnew : (machine fun _ => 0).Throughout Unawaited s₀ as := by decide
  obtain ⟨hruns, hchildren, hrefers, hcascaded, hended⟩ := removed_runs_ended hstart hexec
  exact ⟨hruns, hchildren, hrefers, hcascaded, hended hnew⟩

/-- The run is discovered anew before the pass deletes it: it is running when it is removed. -/
example :
    let row : RunRow := { id := "run", status := .completed, endedAt := some "T0" }
    let anew : RunRow := { id := "run", status := .running }
    ∃ s, (machine fun _ => 0).exec { runs := [row], children := [], ids := ["run"], inserted := [] }
        [.deleteRun "run", .read 0, .purgeTerminalRuns 1 5, .select 0 ["run"], .remove 0, .insertRun anew, .delete 0] =
          some s ∧ s.runs = [] ∧ s.removed = [⟨row, [], .call 0⟩, ⟨anew, [], .pass 0⟩] :=
  ⟨_, rfl, rfl, rfl⟩

/-! ### A pass deletes all that is due -/

/-- The DELETE of pass `i` finds all runs that its SELECT has returned. -/
def FindsAll (i : Nat) (s : State) : Action → Prop
  | .delete j => j = i → ∀ p ∈ s.passes[i]?, ∀ total ids, p.phase = .deleting total ids →
      ∀ id ∈ ids, id ∈ s.runs.map RunRow.id
  | _ => True

instance (i : Nat) (s : State) (a : Action) : Decidable (FindsAll i s a) :=
  match a with
  | .delete j =>
    match h : s.passes[i]? with
    | none => isTrue fun _ p hp => by
      rw [h] at hp
      exact absurd hp nofun
    | some p =>
      match hphase : p.phase with
      | .deleting _ ids =>
        decidable_of_iff (j = i → ∀ id ∈ ids, id ∈ s.runs.map RunRow.id) (by simp [FindsAll, h, hphase])
      | .selecting _ | .returned _ | .threw => isTrue (by simp [FindsAll, h, hphase])
  | .purgeTerminalRuns _ _ | .select _ _ | .passFails _ | .deleteRun _ | .read _ | .remove _ | .callFails _ _
  | .insertRun _ | .insertChild _ | .transition _ _ _ | .update _ => isTrue trivial

def State.removedBy (s : State) (deleter : Deleter) : Nat := s.removed.countP (·.deleter = deleter)

/-- Where pass `i` is with the runs that were due in `v`, when it started: it counts what it has removed, it has all of
them in its hands that have not been removed where it has selected less than a batch, and none is left when it
returns. -/
structure Purging (instant : String → Int) (i : Nat) (cutoff : Int) (batchSize : Nat) (v s : State) : Prop where
  since : v.removed <+: s.removed
  due : ∀ row ∈ v.runs, stale instant cutoff row = true → RemovedSince v s row.id ∨
    ∃ row' ∈ s.runs, row'.id = row.id ∧ stale instant cutoff row' = true
  pass : ∃ p, s.passes[i]? = some p ∧ p.cutoff = cutoff ∧ p.batchSize = batchSize ∧
    match p.phase with
    | .selecting total => total = s.removedBy (.pass i)
    | .deleting total ids => total = s.removedBy (.pass i) ∧ ids.Nodup ∧ (ids.length ≠ batchSize →
        ∀ row ∈ v.runs, stale instant cutoff row = true → RemovedSince v s row.id ∨ row.id ∈ ids)
    | .returned total => total = s.removedBy (.pass i) ∧
        ∀ row ∈ v.runs, stale instant cutoff row = true → RemovedSince v s row.id
    | .threw => True

private theorem countP_id_mem (hdistinct : (s.runs.map RunRow.id).Nodup) {ids : List String} (hnodup : ids.Nodup)
    (hfinds : ∀ id ∈ ids, id ∈ s.runs.map RunRow.id) : s.runs.countP (·.id ∈ ids) = ids.length := by
  have hperm : ((s.runs.filter (·.id ∈ ids)).map RunRow.id).Perm ids := by
    refine (List.perm_ext_iff_of_nodup (hdistinct.sublist (List.filter_sublist.map _)) hnodup).2 fun id => ?_
    rw [List.mem_map]
    constructor
    · rintro ⟨row, hrow, rfl⟩
      simpa using (List.mem_filter.1 hrow).2
    · intro hid
      obtain ⟨row, hrow, rfl⟩ := List.mem_map.1 (hfinds id hid)
      exact ⟨row, List.mem_filter.2 ⟨hrow, by simpa using hid⟩, rfl⟩
  rw [List.countP_eq_length_filter, ← hperm.length_eq, List.length_map]

/-- A SELECT that returns less than a batch returns all there is. -/
private theorem mem_of_selects {p : Pass} {ids : List String} (hselects : Selects instant s p ids)
    (hless : ids.length ≠ p.batchSize) {row : RunRow} (hrow : row ∈ s.runs)
    (hstale : RunDeletion.stale instant p.cutoff row = true) : row.id ∈ ids := by
  obtain ⟨hnodup, hall, hlength⟩ := hselects
  have hcount : ids.length = ((s.runs.filter (RunDeletion.stale instant p.cutoff)).map RunRow.id).length := by
    rw [List.length_map, ← List.countP_eq_length_filter]
    omega
  have hsubset : ids ⊆ (s.runs.filter (RunDeletion.stale instant p.cutoff)).map RunRow.id := by
    intro id hid
    obtain ⟨other, hother, rfl, hdue⟩ := hall id hid
    exact List.mem_map_of_mem (List.mem_filter.2 ⟨hother, hdue⟩)
  have hperm := (List.subperm_of_subset hnodup hsubset).perm_of_length_le (Nat.le_of_eq hcount.symm)
  exact hperm.mem_iff.2 (List.mem_map_of_mem (List.mem_filter.2 ⟨hrow, hstale⟩))

private theorem removedBy_drop (s : State) (deleter other : Deleter) (ids : List String) :
    (s.drop deleter ids).removedBy other =
      s.removedBy other + if deleter = other then s.runs.countP (·.id ∈ ids) else 0 := by
  unfold State.removedBy State.drop
  rw [List.countP_append, List.countP_map]
  by_cases h : deleter = other
  · simp [h, List.countP_eq_length_filter, Function.comp_def]
  · simp [h, Function.comp_def]

section Purging

variable {i : Nat} {cutoff : Int} {batchSize : Nat} {v : State}

/-- The runs that are due stay due until they are removed. -/
private theorem Purging.due_next (h : Purging instant i cutoff batchSize v s)
    (hdistinct : (s.runs.map RunRow.id).Nodup) (hnext : NextSpec instant s a t) (row : RunRow) (hrow : row ∈ v.runs)
    (hstale : RunDeletion.stale instant cutoff row = true) :
    RemovedSince v t row.id ∨ ∃ row' ∈ t.runs, row'.id = row.id ∧ RunDeletion.stale instant cutoff row' = true := by
  rcases h.due row hrow hstale with hremoved | ⟨old, hold, hid, holdStale⟩
  · exact Or.inl (hremoved.mono (List.prefix_refl _) hnext.removed_grows)
  · rcases hnext.kept hdistinct hold (terminal_of_stale holdStale) with hremoved | ⟨row', hrow', hid', hstatus, hended⟩
    · exact Or.inl (hid ▸ hremoved.mono h.since (List.prefix_refl _))
    · exact Or.inr ⟨row', hrow', hid'.trans hid, (stale_congr hstatus hended).trans holdStale⟩

/-- What the others do. -/
private theorem Purging.other (h : Purging instant i cutoff batchSize v s) (hdistinct : (s.runs.map RunRow.id).Nodup)
    (hnext : NextSpec instant s a t) (hpass : t.passes[i]? = s.passes[i]?)
    (hremoved : t.removedBy (.pass i) = s.removedBy (.pass i)) : Purging instant i cutoff batchSize v t := by
  obtain ⟨p, hp, hcutoff, hbatch, hphase⟩ := h.pass
  have hmono : ∀ {id : String}, RemovedSince v s id → RemovedSince v t id := fun hsince =>
    hsince.mono (List.prefix_refl _) hnext.removed_grows
  refine ⟨h.since.trans hnext.removed_grows, fun row hrow hstale => h.due_next hdistinct hnext row hrow hstale,
    p, hpass.trans hp, hcutoff, hbatch, ?_⟩
  rw [hremoved]
  split at hphase
  · exact hphase
  · exact ⟨hphase.1, hphase.2.1, fun hless row hrow hstale => (hphase.2.2 hless row hrow hstale).imp_left hmono⟩
  · exact ⟨hphase.1, fun row hrow hstale => hmono (hphase.2 row hrow hstale)⟩
  · trivial

private theorem Purging.select (h : Purging instant i cutoff batchSize v s) (hpos : 0 < batchSize) {p : Pass}
    {total : Nat} {ids : List String} (hp : s.passes[i]? = some p) (hphase : p.phase = .selecting total)
    (hselects : Selects instant s p ids) :
    Purging instant i cutoff batchSize v (s.setPass i p (selected total ids)) := by
  obtain ⟨q, hq, rfl, rfl, htotal⟩ := h.pass
  rw [hp] at hq
  cases hq
  rw [hphase] at htotal
  have hmem : ids.length ≠ p.batchSize → ∀ row ∈ v.runs, RunDeletion.stale instant p.cutoff row = true →
      RemovedSince v s row.id ∨ row.id ∈ ids := by
    intro hless row hrow hstale
    refine (h.due row hrow hstale).imp_right ?_
    rintro ⟨row', hrow', hid, hstale'⟩
    exact hid ▸ mem_of_selects hselects hless hrow' hstale'
  refine ⟨h.since, h.due, _, Callers.getElem?_set_self_of_some hp, rfl, rfl, ?_⟩
  unfold selected
  by_cases hids : ids = []
  · subst hids
    refine ⟨htotal, fun row hrow hstale => ?_⟩
    exact (hmem (Nat.ne_of_lt hpos) row hrow hstale).resolve_right List.not_mem_nil
  · simp only [hids, if_false]
    exact ⟨htotal, hselects.1, hmem⟩

private theorem Purging.delete (h : Purging instant i cutoff batchSize v s)
    (hdistinct : (s.runs.map RunRow.id).Nodup) {p : Pass} {total : Nat} {ids : List String}
    (hp : s.passes[i]? = some p) (hphase : p.phase = .deleting total ids)
    (hfinds : ∀ id ∈ ids, id ∈ s.runs.map RunRow.id) :
    Purging instant i cutoff batchSize v
      ((s.drop (.pass i) ids).setPass i p (purged p.batchSize total (s.runs.countP (·.id ∈ ids)))) := by
  have hprefix : s.removed <+: (s.drop (.pass i) ids).removed := List.prefix_append _ _
  have hnext : NextSpec instant s (.delete i) _ := .delete hp hphase
  have hdue := fun row => h.due_next hdistinct hnext row
  obtain ⟨q, hq, rfl, rfl, htotal⟩ := h.pass
  rw [hp] at hq
  cases hq
  rw [hphase] at htotal
  obtain ⟨htotal, hnodup, hmem⟩ := htotal
  have hdeleted : s.runs.countP (·.id ∈ ids) = ids.length := countP_id_mem hdistinct hnodup hfinds
  have hremoved : total + ids.length = (s.drop (.pass i) ids).removedBy (.pass i) := by
    rw [removedBy_drop, if_pos rfl, hdeleted, htotal]
  refine ⟨h.since.trans hprefix, hdue, _, Callers.getElem?_set_self_of_some hp, rfl, rfl, ?_⟩
  rw [hdeleted]
  unfold purged
  by_cases hfull : ids.length = p.batchSize
  · simp only [hfull, if_true]
    rw [← hfull]
    exact hremoved
  · simp only [hfull, if_false]
    refine ⟨hremoved, fun row hrow hstale => ?_⟩
    rcases hmem hfull row hrow hstale with hsince | hid
    · exact hsince.mono (List.prefix_refl _) hprefix
    · -- The DELETE has found it.
      obtain ⟨found, hfound, hfoundId⟩ := List.mem_map.1 (hfinds row.id hid)
      have hdropped : RemovedSince s (s.drop (.pass i) ids) row.id :=
        hfoundId ▸ removedSince_drop hfound (hfoundId ▸ hid)
      exact hdropped.mono h.since (List.prefix_refl _)

private theorem Purging.next (h : Purging instant i cutoff batchSize v s) (hdistinct : (s.runs.map RunRow.id).Nodup)
    (hpos : 0 < batchSize) (hfinds : FindsAll i s a) (hnext : NextSpec instant s a t) :
    Purging instant i cutoff batchSize v t := by
  obtain ⟨q, hq, -⟩ := h.pass
  have hspec := hnext
  cases hnext with
  | purgeTerminalRuns => exact h.other hdistinct hspec ((Callers.getElem?_concat_of_some hq).trans hq.symm) rfl
  | @select j p total ids hp hphase hselects =>
    by_cases hij : j = i
    · subst hij
      exact h.select hpos hp hphase hselects
    · exact h.other hdistinct hspec (List.getElem?_set_ne hij) rfl
  | @delete j p total ids hp hphase =>
    by_cases hij : j = i
    · subst hij
      exact h.delete hdistinct hp hphase (hfinds rfl p hp total ids hphase)
    · refine h.other hdistinct hspec (List.getElem?_set_ne hij) ?_
      exact (removedBy_drop s (.pass j) (.pass i) ids).trans (by simp [hij])
  | @passFails j p hp =>
    by_cases hij : j = i
    · subst hij
      obtain ⟨p', hp', rfl, rfl, -⟩ := h.pass
      rw [hp] at hp'
      cases hp'
      exact ⟨h.since, h.due, _, Callers.getElem?_set_self_of_some hp, rfl, rfl, trivial⟩
    · exact h.other hdistinct hspec (List.getElem?_set_ne hij) rfl
  | @remove k c hc hhere =>
    refine h.other hdistinct hspec rfl ?_
    exact (removedBy_drop s (.call k) (.pass i) [c.runId]).trans (by simp)
  | deleteRun | read | callFails | insertRun | insertChild | transition | update =>
    exact h.other hdistinct hspec rfl rfl

/-- What a pass has removed was removed by one there was. -/
private theorem removedBy_new (h : Books s) : s.removedBy (.pass s.passes.length) = 0 := by
  refine List.countP_eq_zero.2 fun r hr => ?_
  rw [decide_eq_true_iff]
  exact fun hby => Nat.lt_irrefl _ (h.deleters r hr _ hby)

/-- A pass that has been started, at the start. -/
private theorem purging_start (h : Books s) (cutoff : Int) (batchSize : Nat) :
    Purging instant s.passes.length cutoff batchSize s { s with passes := s.passes ++ [{ cutoff, batchSize }] } := by
  refine ⟨List.prefix_refl _, fun row hrow hstale => Or.inr ⟨row, hrow, rfl, hstale⟩, _, List.getElem?_concat_length,
    rfl, rfl, (removedBy_new h).symm⟩

/-- The runs that have been created under an id are counted by `ids`. -/
private theorem count_ids_exec {as : List Action} {id : String} (h : (machine instant).exec s as = some t)
    (hnew : ∀ row, .insertRun row ∈ as → row.id ≠ id) : t.ids.count id = s.ids.count id := by
  have hall : (machine instant).Throughout (fun _ a => ∀ row, a = .insertRun row → row.id ≠ id) s as := by
    refine Machine.throughout_of_forall (fun a ha _ => ?_) s
    rintro row rfl
    exact hnew row ha
  refine hall.invariant (I := fun t => t.ids.count id = s.ids.count id) (fun u a v hu hne hnext => ?_) rfl h
  cases next_spec hnext with
  | @insertRun row hfree =>
    rw [List.count_append, hu, List.count_cons_of_ne (hne row rfl), List.count_nil, Nat.add_zero]
  | purgeTerminalRuns | select | delete | passFails | deleteRun | read | remove | callFails | insertChild | transition
  | update => exact hu

/-- A run that has been removed is there only if it has been created anew. -/
private theorem exists_insertRun {as : List Action} {row : RunRow} (hs : Books s) (ht : Books t)
    (h : (machine instant).exec s as = some t) (hrow : row ∈ s.runs) (hremoved : RemovedSince s t row.id)
    (hthere : row.id ∈ t.runs.map RunRow.id) : ∃ row', .insertRun row' ∈ as ∧ row'.id = row.id := by
  by_contra hnone
  have hids := count_ids_exec h fun row' hrow' hid => hnone ⟨row', hrow', hid⟩
  have hprefix : s.removed <+: t.removed :=
    Machine.exec_invariant (I := fun t => s.removed <+: t.removed)
      (fun _ _ _ hp hnext => hp.trans (next_spec hnext).removed_grows) (List.prefix_refl _) h
  have hbefore := hs.runs.count_eq row.id
  have hafter := ht.runs.count_eq row.id
  rw [List.prefix_append_drop hprefix, List.map_append] at hafter
  rw [List.count_append, List.count_eq_one_of_mem hs.distinct (List.mem_map_of_mem hrow)] at hbefore
  rw [List.count_append, List.count_append] at hafter
  have hleft := List.count_pos_iff.2 hthere
  obtain ⟨r, hr, hid⟩ := hremoved
  have hgone : 0 < List.count row.id ((t.removed.drop s.removed.length).map (·.row.id)) :=
    List.count_pos_iff.2 (List.mem_map.2 ⟨r, hr, hid⟩)
  omega

end Purging

/-- When a pass has returned, with any other callers between its statements, all runs that were due when it started have
been removed (a run under such an id has been created anew), and it returns the number of those it has removed itself;
provided that no other caller has deleted a run that it had selected and not yet deleted (then it takes the short count
for the last batch). -/
theorem purge_complete {s₀ u : State} {as bs : List Action} {cutoff : Int} {batchSize : Nat}
    (hs : (machine instant).start s₀) (has : (machine instant).exec s₀ as = some s)
    (hbs : (machine instant).exec s (.purgeTerminalRuns cutoff batchSize :: bs) = some u)
    (hfinds : (machine instant).Throughout (FindsAll s.passes.length) s (.purgeTerminalRuns cutoff batchSize :: bs))
    (hpos : 0 < batchSize) {p : Pass} {total : Nat} (hp : u.passes[s.passes.length]? = some p)
    (hreturned : p.phase = .returned total) :
    (∀ row ∈ s.runs, stale instant cutoff row = true → RemovedSince s u row.id ∧
      (row.id ∈ u.runs.map RunRow.id → ∃ row', .insertRun row' ∈ bs ∧ row'.id = row.id)) ∧
      total = u.removedBy (.pass s.passes.length) := by
  have hbooks := books_exec hs has
  obtain ⟨v, hv, hrest⟩ := Machine.exec_cons_eq_some.1 hbs
  have hnext := next_spec (show next instant s (.purgeTerminalRuns cutoff batchSize) = some v from hv)
  have hstart : Books v ∧ Purging instant s.passes.length cutoff batchSize s v := by
    refine ⟨hbooks.next hnext, ?_⟩
    cases hnext
    exact purging_start hbooks cutoff batchSize
  have hend : Books u ∧ Purging instant s.passes.length cutoff batchSize s u := by
    refine (hfinds.2 v hv).invariant (fun w a x (hw : Books w ∧ _) hfinds hx => ?_) hstart hrest
    exact ⟨hw.1.next (next_spec hx), hw.2.next hw.1.distinct hpos hfinds (next_spec hx)⟩
  obtain ⟨-, -, q, hq, -, -, hphase⟩ := hend.2
  rw [hp] at hq
  cases hq
  rw [hreturned] at hphase
  refine ⟨fun row hrow hstale => ⟨hphase.2 row hrow hstale, fun hthere => ?_⟩, hphase.1⟩
  obtain ⟨row', hrow', hid⟩ := exists_insertRun hbooks hend.1 hbs hrow (hphase.2 row hrow hstale) hthere
  exact ⟨row', (List.mem_cons.1 hrow').resolve_left nofun, hid⟩

/-- The pass deletes two runs, between which another one is deleted by a call and then created anew. -/
theorem purge_complete_example :
    let old (id : String) : RunRow := { id, status := .failed, endedAt := some "T0" }
    let anew : RunRow := { id := "b", status := .running }
    let s : State := { runs := [old "a", old "b", old "c"], children := [], ids := ["a", "b", "c"], inserted := [] }
    let u : State :=
      { runs := [anew], children := [], passes := [{ cutoff := 1, batchSize := 1, phase := .returned 2 }]
        calls := [{ runId := "b", here := .over (.ok ()) }]
        removed := [⟨old "a", [], .pass 0⟩, ⟨old "b", [], .call 0⟩, ⟨old "c", [], .pass 0⟩]
        ids := ["a", "b", "c", "b"], inserted := [] }
    (∀ row ∈ s.runs, stale (fun _ => 0) 1 row = true → RemovedSince s u row.id) ∧ 2 = u.removedBy (.pass 0) := by
  intro old anew s u
  let bs : List Action :=
    [.select 0 ["a"], .deleteRun "b", .read 0, .delete 0, .remove 0, .insertRun anew, .select 0 ["c"], .delete 0,
      .select 0 []]
  have hstart : (machine fun _ => 0).start s := ⟨by decide, by decide, rfl, rfl, rfl, rfl, rfl⟩
  have hnone : (machine fun _ => 0).exec s [] = some s := rfl
  have hexec : (machine fun _ => 0).exec s (.purgeTerminalRuns 1 1 :: bs) = some u := rfl
  have hfinds : (machine fun _ => 0).Throughout (FindsAll s.passes.length) s (.purgeTerminalRuns 1 1 :: bs) := by
    decide
  obtain ⟨hremoved, htotal⟩ := purge_complete hstart hnone hexec hfinds Nat.one_pos rfl rfl
  exact ⟨fun row hrow hstale => (hremoved row hrow hstale).1, htotal⟩

/-! ### A pass left alone -/

/-- A statement of pass `i` that does not throw. -/
def OfPass (i : Nat) : Action → Prop
  | .select j _ | .delete j => j = i
  | _ => False

/-- What the pass still has to do: a batch that it deletes makes the table smaller. -/
def State.workOf (s : State) (i : Nat) : Nat :=
  match s.passes[i]? with
  | none => 0
  | some p =>
    match p.phase with
    | .selecting _ => if p.batchSize = 0 then 1 else 2 * s.runs.length + 2
    | .deleting _ _ => if p.batchSize = 0 then 2 else 2 * s.runs.length + 1
    | .returned _ | .threw => 0

private theorem length_drop (s : State) (deleter : Deleter) (ids : List String) :
    (s.drop deleter ids).runs.length + s.runs.countP (·.id ∈ ids) = s.runs.length := by
  have hsum := List.length_eq_countP_add_countP (fun row : RunRow => decide (row.id ∈ ids)) (l := s.runs)
  unfold State.drop
  rw [← List.countP_eq_length_filter, hsum]
  simp [Nat.add_comm]

private theorem workOf_setPass {i : Nat} {p : Pass} (hp : s.passes[i]? = some p) (u : State)
    (hpasses : u.passes = s.passes) (phase : Phase) : (u.setPass i p phase).workOf i =
      match phase with
      | .selecting _ => if p.batchSize = 0 then 1 else 2 * u.runs.length + 2
      | .deleting _ _ => if p.batchSize = 0 then 2 else 2 * u.runs.length + 1
      | .returned _ | .threw => 0 := by
  have hset : (u.setPass i p phase).passes[i]? = some { p with phase } := by
    unfold State.setPass
    rw [hpasses]
    exact Callers.getElem?_set_self_of_some hp
  unfold State.workOf
  rw [hset]
  rfl

private theorem workOf_lt {i : Nat} (hown : OfPass i a) (hnext : NextSpec instant s a t) : t.workOf i < s.workOf i := by
  cases hnext with
  | @select j p total ids hp hphase hselects =>
    have hj : j = i := hown
    subst hj
    rw [workOf_setPass hp s rfl]
    unfold State.workOf selected
    rw [hp]
    dsimp only
    rw [hphase]
    dsimp only
    by_cases hids : ids = []
    · rw [if_pos hids]
      dsimp only
      split <;> omega
    · rw [if_neg hids]
      have hbatch : p.batchSize ≠ 0 := by
        intro hzero
        refine hids (List.length_eq_zero_iff.1 ?_)
        rw [hselects.2.2, hzero, Nat.zero_min]
      dsimp only
      rw [if_neg hbatch, if_neg hbatch]
      omega
  | @delete j p total ids hp hphase =>
    have hj : j = i := hown
    subst hj
    rw [workOf_setPass hp (s.drop (.pass j) ids) rfl]
    unfold State.workOf purged
    rw [hp]
    dsimp only
    rw [hphase]
    dsimp only
    split
    · rename_i hphase'
      by_cases hbatch : p.batchSize = 0
      · rw [if_pos hbatch, if_pos hbatch]
        omega
      · -- A full batch is not empty.
        rw [if_neg hbatch, if_neg hbatch]
        have hfull : s.runs.countP (·.id ∈ ids) = p.batchSize := by
          by_contra hless
          rw [if_neg hless] at hphase'
          exact absurd hphase' nofun
        have hlength := length_drop s (.pass j) ids
        omega
    · rename_i hphase'
      split at hphase' <;> exact absurd hphase' nofun
    all_goals split <;> omega
  | purgeTerminalRuns | passFails | deleteRun | read | remove | callFails | insertRun | insertChild | transition
  | update => exact absurd hown id

/-- Where a pass is that was started in `v` and has been left alone. -/
structure Alone (instant : String → Int) (i : Nat) (cutoff : Int) (batchSize : Nat) (v s : State) : Prop where
  distinct : (s.runs.map RunRow.id).Nodup
  kept : s.runs.filter (fun row => !stale instant cutoff row) = v.runs.filter fun row => !stale instant cutoff row
  children : s.children = v.children.filter fun c => c.runId ∈ s.runs.map RunRow.id
  counted : s.removedBy (.pass i) + s.runs.countP (stale instant cutoff) = v.runs.countP (stale instant cutoff)
  pass : ∃ p, s.passes[i]? = some p ∧ p.cutoff = cutoff ∧ p.batchSize = batchSize ∧
    match p.phase with
    | .selecting total => total = s.removedBy (.pass i)
    | .deleting total ids => total = s.removedBy (.pass i) ∧ ids.Nodup ∧
        (∀ id ∈ ids, ∃ row ∈ s.runs, row.id = id ∧ stale instant cutoff row = true) ∧
        ids.length = min batchSize (s.runs.countP (stale instant cutoff))
    | .returned total => total = s.removedBy (.pass i) ∧ s.runs.countP (stale instant cutoff) = 0
    | .threw => False

section Alone

variable {i : Nat} {cutoff : Int} {batchSize : Nat} {v : State}

private theorem Alone.select (h : Alone instant i cutoff batchSize v s) (hpos : 0 < batchSize) {p : Pass} {total : Nat}
    {ids : List String} (hp : s.passes[i]? = some p) (hphase : p.phase = .selecting total)
    (hselects : Selects instant s p ids) : Alone instant i cutoff batchSize v (s.setPass i p (selected total ids)) := by
  obtain ⟨q, hq, rfl, rfl, htotal⟩ := h.pass
  rw [hp] at hq
  cases hq
  rw [hphase] at htotal
  obtain ⟨hnodup, hall, hlength⟩ := hselects
  refine ⟨h.distinct, h.kept, h.children, h.counted, _, Callers.getElem?_set_self_of_some hp, rfl, rfl, ?_⟩
  unfold selected
  by_cases hids : ids = []
  · rw [hids, List.length_nil] at hlength
    simp only [hids, if_true]
    refine ⟨htotal, ?_⟩
    change s.runs.countP _ = 0
    omega
  · simp only [hids, if_false]
    exact ⟨htotal, hnodup, hall, hlength⟩

/-- The DELETE of old runs leaves the others. -/
private theorem filter_drop (hdistinct : (s.runs.map RunRow.id).Nodup) {ids : List String}
    (hstale : ∀ id ∈ ids, ∃ row ∈ s.runs, row.id = id ∧ stale instant cutoff row = true) (deleter : Deleter) :
    (s.drop deleter ids).runs.filter (fun row => !stale instant cutoff row) =
      s.runs.filter fun row => !stale instant cutoff row := by
  unfold State.drop
  rw [List.filter_filter]
  refine List.filter_congr fun row hrow => ?_
  by_cases hid : row.id ∈ ids
  · obtain ⟨other, hother, hsame, hdue⟩ := hstale row.id hid
    rw [← List.inj_on_of_nodup_map hdistinct hother hrow hsame, hdue]
    rfl
  · simp [hid]

private theorem countP_drop (hdistinct : (s.runs.map RunRow.id).Nodup) {ids : List String} (hnodup : ids.Nodup)
    (hstale : ∀ id ∈ ids, ∃ row ∈ s.runs, row.id = id ∧ stale instant cutoff row = true) (deleter : Deleter) :
    ids.length + (s.drop deleter ids).runs.countP (stale instant cutoff) = s.runs.countP (stale instant cutoff) := by
  have hlength : s.runs.countP (·.id ∈ ids) = ids.length := by
    refine countP_id_mem hdistinct hnodup fun id hid => ?_
    obtain ⟨row, hrow, rfl, -⟩ := hstale id hid
    exact List.mem_map_of_mem hrow
  have hsplit := List.length_eq_countP_add_countP (stale instant cutoff) (l := s.runs)
  have hsplit' := List.length_eq_countP_add_countP (stale instant cutoff) (l := (s.drop deleter ids).runs)
  have hothers := congrArg List.length (filter_drop hdistinct hstale deleter)
  have hdrop := length_drop s deleter ids
  rw [← List.countP_eq_length_filter, ← List.countP_eq_length_filter] at hothers
  simp only [Bool.not_eq_true, ← Bool.not_eq_true', Bool.decide_eq_true] at hsplit hsplit' hothers
  omega

private theorem Alone.delete (h : Alone instant i cutoff batchSize v s) {p : Pass} {total : Nat} {ids : List String}
    (hp : s.passes[i]? = some p) (hphase : p.phase = .deleting total ids) :
    Alone instant i cutoff batchSize v
      ((s.drop (.pass i) ids).setPass i p (purged p.batchSize total (s.runs.countP (·.id ∈ ids)))) := by
  have hkept : ∀ row, row ∈ (s.drop (.pass i) ids).runs ↔ row ∈ s.runs ∧ row.id ∉ ids := fun row => mem_runs_drop
  obtain ⟨q, hq, rfl, rfl, htotal⟩ := h.pass
  rw [hp] at hq
  cases hq
  rw [hphase] at htotal
  obtain ⟨htotal, hnodup, hall, hlength⟩ := htotal
  have hdeleted : s.runs.countP (·.id ∈ ids) = ids.length := by
    refine countP_id_mem h.distinct hnodup fun id hid => ?_
    obtain ⟨row, hrow, rfl, -⟩ := hall id hid
    exact List.mem_map_of_mem hrow
  have hleft := countP_drop h.distinct hnodup hall (.pass i)
  have hremoved : (s.drop (.pass i) ids).removedBy (.pass i) = total + ids.length := by
    rw [removedBy_drop, if_pos rfl, hdeleted, htotal]
  have hcounted := h.counted
  refine ⟨h.distinct.sublist (List.filter_sublist.map _), (filter_drop h.distinct hall (.pass i)).trans h.kept, ?_, ?_,
    _, Callers.getElem?_set_self_of_some hp, rfl, rfl, ?_⟩
  · change s.children.filter _ = _
    rw [h.children, List.filter_filter]
    refine List.filter_congr fun c _ => Bool.eq_iff_iff.2 ?_
    simp only [Bool.and_eq_true, decide_eq_true_eq, List.mem_map]
    constructor
    · rintro ⟨hleft, row, hrow, hid⟩
      exact ⟨row, (hkept row).2 ⟨hrow, hid.symm ▸ hleft⟩, hid⟩
    · rintro ⟨row, hrow, hid⟩
      obtain ⟨hrow, hleft⟩ := (hkept row).1 hrow
      exact ⟨hid ▸ hleft, row, hrow, hid⟩
  · change (s.drop (.pass i) ids).removedBy (.pass i) + (s.drop (.pass i) ids).runs.countP _ = _
    omega
  · rw [hdeleted]
    unfold purged
    by_cases hfull : ids.length = p.batchSize
    · simp only [hfull, if_true]
      exact (hremoved.trans (by rw [hfull])).symm
    · simp only [hfull, if_false]
      refine ⟨hremoved.symm, ?_⟩
      change (s.drop (.pass i) ids).runs.countP _ = 0
      omega

private theorem Alone.next (h : Alone instant i cutoff batchSize v s) (hpos : 0 < batchSize) (hown : OfPass i a)
    (hnext : NextSpec instant s a t) : Alone instant i cutoff batchSize v t := by
  cases hnext with
  | @select j p total ids hp hphase hselects =>
    have hj : j = i := hown
    subst hj
    exact h.select hpos hp hphase hselects
  | @delete j p total ids hp hphase =>
    have hj : j = i := hown
    subst hj
    exact h.delete hp hphase
  | purgeTerminalRuns | passFails | deleteRun | read | remove | callFails | insertRun | insertChild | transition
  | update => exact absurd hown id

/-- A pass that cannot go on has returned. -/
private theorem Alone.returned (h : Alone instant i cutoff batchSize v s)
    (hquiet : (machine instant).Quiet (OfPass i) s) :
    s.runs = v.runs.filter (fun row => !stale instant cutoff row) ∧
      ∃ p, s.passes[i]? = some p ∧ p.phase = .returned (v.runs.countP (stale instant cutoff)) := by
  obtain ⟨p, hp, rfl, rfl, hphase⟩ := h.pass
  have hcounted := h.counted
  rcases hat : p.phase with total | ⟨total, ids⟩ | total | _ <;> rw [hat] at hphase
  · -- There is a batch to select.
    let ids := ((s.runs.filter (stale instant p.cutoff)).map RunRow.id).take p.batchSize
    have hselects : Selects instant s p ids := by
      refine ⟨?_, fun id hid => ?_, ?_⟩
      · exact ((h.distinct.sublist (List.filter_sublist.map _)).sublist (List.take_sublist _ _))
      · obtain ⟨row, hrow, rfl⟩ := List.mem_map.1 (List.mem_of_mem_take hid)
        obtain ⟨hrow, hdue⟩ := List.mem_filter.1 hrow
        exact ⟨row, hrow, rfl, hdue⟩
      · rw [List.length_take, List.length_map, List.countP_eq_length_filter]
    have hnone := hquiet (.select i ids) rfl
    simp [machine, RunDeletion.next, hp, hat, hselects] at hnone
  · have hnone := hquiet (.delete i) rfl
    simp [machine, RunDeletion.next, hp, hat] at hnone
  · have htotal : total = v.runs.countP (stale instant p.cutoff) := by omega
    refine ⟨?_, p, hp, by rw [hat, htotal]⟩
    rw [← h.kept]
    refine (List.filter_eq_self.2 fun row hrow => ?_).symm
    have hfresh := List.countP_eq_zero.1 hphase.2 row hrow
    rw [Bool.not_eq_true] at hfresh
    rw [hfresh]
    rfl
  · exact hphase.elim

end Alone

private theorem alone_start (h : Books s) (hnone : s.removedBy (.pass s.passes.length) = 0) (cutoff : Int)
    (batchSize : Nat) :
    Alone instant s.passes.length cutoff batchSize s { s with passes := s.passes ++ [{ cutoff, batchSize }] } := by
  refine ⟨h.distinct, rfl, ?_, ?_, _, List.getElem?_concat_length, rfl, rfl, hnone.symm⟩
  · refine (List.filter_eq_self.2 fun c hc => ?_).symm
    rw [decide_eq_true_iff]
    exact h.refers c hc
  · change s.removedBy _ + _ = _
    rw [hnone, Nat.zero_add]

/-- A pass that is left alone makes at most two statements for a run and two more, wherever it has got to it goes on to
its return, and then the runs that were due are gone with what refers to them, all others are there, and it returns the
number of those that are gone. -/
theorem purge_settles {s₀ t : State} {as bs : List Action} {cutoff : Int} {batchSize : Nat}
    (hs : (machine instant).start s₀) (has : (machine instant).exec s₀ as = some s) (hpos : 0 < batchSize)
    (hown : ∀ b ∈ bs, OfPass s.passes.length b)
    (hbs : (machine instant).exec s (.purgeTerminalRuns cutoff batchSize :: bs) = some t) :
    bs.length ≤ 2 * s.runs.length + 2 ∧
    ∃ cs u, (∀ c ∈ cs, OfPass s.passes.length c) ∧ (machine instant).exec t cs = some u ∧
      u.runs = s.runs.filter (fun row => !stale instant cutoff row) ∧
      u.children = s.children.filter (fun c => c.runId ∈ u.runs.map RunRow.id) ∧
      ∃ p, u.passes[s.passes.length]? = some p ∧ p.phase = .returned (s.runs.countP (stale instant cutoff)) := by
  have hbooks := books_exec hs has
  obtain ⟨v, hv, hbs⟩ := Machine.exec_cons_eq_some.1 hbs
  have hwork : ∀ w a x, OfPass s.passes.length a → (machine instant).next w a = some x →
      x.workOf s.passes.length < w.workOf s.passes.length := fun _ _ _ hown hx => workOf_lt hown (next_spec hx)
  have hstarted := next_spec (show next instant s (.purgeTerminalRuns cutoff batchSize) = some v from hv)
  have halone : Alone instant s.passes.length cutoff batchSize s v ∧
      v.workOf s.passes.length = 2 * s.runs.length + 2 := by
    cases hstarted
    refine ⟨alone_start hbooks (removedBy_new hbooks) cutoff batchSize, ?_⟩
    unfold State.workOf
    rw [List.getElem?_concat_length]
    exact if_neg (Nat.ne_of_gt hpos)
  obtain ⟨cs, u, hcs, hu, hquiet⟩ := Machine.exists_quiet hwork t
  have hall : ∀ b ∈ bs ++ cs, OfPass s.passes.length b := by
    intro b hb
    exact (List.mem_append.1 hb).elim (hown b) (hcs b)
  have hend : Alone instant s.passes.length cutoff batchSize s u := by
    have hexec : (machine instant).exec v (bs ++ cs) = some u := Machine.exec_append_eq_some.2 ⟨t, hbs, hu⟩
    have hthroughout : (machine instant).Throughout (fun _ a => OfPass s.passes.length a) v (bs ++ cs) :=
      Machine.throughout_of_forall (fun a ha _ => hall a ha) v
    exact hthroughout.invariant (fun w a x hw hown hx => hw.next hpos hown (next_spec hx)) halone.1 hexec
  have hlength := Machine.length_add_work_le hwork hown hbs
  obtain ⟨hruns, hreturned⟩ := hend.returned hquiet
  refine ⟨by omega, cs, u, hcs, hu, hruns, hend.children, hreturned⟩

theorem purge_settles_example :
    let old (id : String) : RunRow := { id, status := .failed, endedAt := some "T0" }
    let fresh : RunRow := { id := "c", status := .running }
    let s : State :=
      { runs := [old "a", fresh, old "b"], children := [], ids := ["a", "c", "b"], inserted := [] }
    ∃ cs u, (∀ c ∈ cs, OfPass 0 c) ∧
      (machine fun _ => 0).exec { s with passes := [{ cutoff := 1, batchSize := 1, phase := .deleting 0 ["a"] }] } cs =
        some u ∧ u.runs = [fresh] := by
  intro old fresh s
  have hstart : (machine fun _ => 0).start s := ⟨by decide, by decide, rfl, rfl, rfl, rfl, rfl⟩
  have hnone : (machine fun _ => 0).exec s [] = some s := rfl
  have hown : ∀ b ∈ [Action.select 0 ["a"]], OfPass s.passes.length b := by
    intro b hb
    rw [List.mem_singleton.1 hb]
    rfl
  obtain ⟨-, cs, u, hcs, hu, hruns, -⟩ :=
    purge_settles hstart hnone Nat.one_pos hown
      (show (machine fun _ => 0).exec s [.purgeTerminalRuns 1 1, .select 0 ["a"]] = some _ from rfl)
  exact ⟨cs, u, hcs, hu, hruns⟩

end MacpControlPlane.RunDeletion

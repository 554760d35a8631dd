import Mathlib.Data.List.Chain
import MacpControlPlane.Lib.Callers
import MacpControlPlane.Lib.Machine
import MacpControlPlane.Storage.RunRepository

/-!
# Racing status transitions

Any number of callers run the transition operations on one row.  A caller's conditional update and its second read are
two steps, and other callers can run before and between them.  The state keeps every version of the row that was
committed, oldest first, with the caller that wrote it, so that statements about the row's history are statements
about one state.
-/

namespace MacpControlPlane.TransitionRaces

/-- Where a call of a transition operation is. -/
inductive Phase where
  /-- Before its conditional update. -/
  | update
  /-- Its update matched no row; it is about to read the row again. -/
  | reread
  /-- It has returned; `missed` tells whether its update matched no row. -/
  | done (missed : Bool) (result : Except RunError RunRow)

/-- A call of a transition operation. -/
structure Call where
  transition : Transition
  operation : IsOperation transition
  phase : Phase := .update

/-- A committed version of the row, with the index of the call that wrote it. -/
structure Version where
  writer : Option Nat
  row : RunRow

/-- The row, its committed versions (oldest first; the last one is the row), and the calls. -/
structure State where
  row : RunRow
  versions : List Version
  calls : List Call := []

/-- What can happen next. -/
inductive Action where
  /-- Some service calls a transition operation. -/
  | call (transition : Transition) (operation : IsOperation transition)
  /-- The conditional update of call `i`, at time `now`. -/
  | update (i : Nat) (now : String)
  /-- The second read of call `i`. -/
  | reread (i : Nat)

/-- Call `i` moves on to another phase. -/
def State.move (s : State) (i : Nat) (c : Call) (phase : Phase) : State :=
  { s with calls := s.calls.set i { c with phase } }

/-- Call `i` commits a new version of the row. -/
def State.write (s : State) (i : Nat) (c : Call) (row : RunRow) : State :=
  { row, versions := s.versions ++ [⟨some i, row⟩], calls := s.calls.set i { c with phase := .done false (.ok row) } }

/-- The conditional update of call `i`. -/
def State.update (s : State) (i : Nat) (c : Call) (now : String) : State :=
  if validFrom c.transition.target = [] then
    s.move i c (.done true (.error (noWayIn c.transition.target)))
  else
    match compareAndSet c.transition now s.row with
    | some row => s.write i c row
    | none => s.move i c .reread

/-- The second read of call `i`. -/
def State.reread (s : State) (i : Nat) (c : Call) : State :=
  s.move i c (.done true (afterMiss s.row.id c.transition.target (some s.row)))

/-- One step of one of the callers, or a new call. -/
def next (s : State) : Action → Option State
  | .call transition operation => some { s with calls := s.calls ++ [{ transition, operation }] }
  | .update i now =>
    match s.calls[i]? with
    | some c => match c.phase with
      | .update => some (s.update i c now)
      | _ => none
    | none => none
  | .reread i =>
    match s.calls[i]? with
    | some c => match c.phase with
      | .reread => some (s.reread i c)
      | _ => none
    | none => none

/-- The callers of the operations race on a row that `create` has inserted as `queued`. -/
def machine : Machine State Action where
  start s := s.row.status = .queued ∧ s.row.endedAt = none ∧ s.versions = [⟨none, s.row⟩] ∧ s.calls = []
  next := next

/-! ### What a step does -/

private theorem next_update {s t : State} {i : Nat} {now : String} (h : next s (.update i now) = some t) :
    ∃ c, s.calls[i]? = some c ∧ c.phase = .update ∧ s.update i c now = t := by
  simp only [next] at h
  split at h
  · rename_i c hc
    split at h
    · rename_i hphase
      exact ⟨c, hc, hphase, Option.some.inj h⟩
    · exact absurd h nofun
  · exact absurd h nofun

private theorem next_reread {s t : State} {i : Nat} (h : next s (.reread i) = some t) :
    ∃ c, s.calls[i]? = some c ∧ c.phase = .reread ∧ s.reread i c = t := by
  simp only [next] at h
  split at h
  · rename_i c hc
    split at h
    · rename_i hphase
      exact ⟨c, hc, hphase, Option.some.inj h⟩
    · exact absurd h nofun
  · exact absurd h nofun

/-- An update writes one edge of the table, or it only moves the caller on to the second read. -/
theorem update_cases (s : State) (i : Nat) (c : Call) (now : String) :
    (∃ row, compareAndSet c.transition now s.row = some row ∧ s.update i c now = s.write i c row) ∨
      (compareAndSet c.transition now s.row = none ∧ s.update i c now = s.move i c .reread) := by
  unfold State.update
  rw [if_neg c.operation.validFrom_ne_nil]
  cases hrow : compareAndSet c.transition now s.row with
  | some row => exact Or.inl ⟨row, rfl, rfl⟩
  | none => exact Or.inr ⟨rfl, rfl⟩

/-- What can change in a step: nothing of the row and its history, or one new version behind an edge of the table. -/
theorem next_row {s t : State} {a : Action} (h : next s a = some t) :
    (t.row = s.row ∧ t.versions = s.versions) ∨ t.row.status ∈ validTransitions s.row.status := by
  cases a with
  | call transition operation =>
    have ht := Option.some.inj h
    subst ht
    exact Or.inl ⟨rfl, rfl⟩
  | update i now =>
    obtain ⟨c, -, -, rfl⟩ := next_update h
    rcases update_cases s i c now with ⟨row, hrow, hup⟩ | ⟨-, hup⟩
    · rw [hup]
      refine Or.inr ?_
      rw [show (s.write i c row).row = row from rfl, compareAndSet_status hrow]
      exact (compareAndSet_eq_some.1 hrow).1
    · rw [hup]
      exact Or.inl ⟨rfl, rfl⟩
  | reread i =>
    obtain ⟨c, -, -, rfl⟩ := next_reread h
    exact Or.inl ⟨rfl, rfl⟩

/-- A terminal row is never written again. -/
theorem exec_terminal {s t : State} {as : List Action} (hs : s.row.status.terminal = true)
    (h : machine.exec s as = some t) : t.row = s.row ∧ t.versions = s.versions := by
  refine Machine.exec_invariant (I := fun u => u.row = s.row ∧ u.versions = s.versions) ?_ ⟨rfl, rfl⟩ h
  rintro u a v ⟨hrow, hversions⟩ hv
  rcases next_row hv with ⟨hr, hw⟩ | hedge
  · exact ⟨hr.trans hrow, hw.trans hversions⟩
  · rw [hrow, validTransitions_eq_nil.2 hs] at hedge
    exact absurd hedge List.not_mem_nil

/-! ### The invariant -/

/-- What holds of the row's history whatever the callers do. -/
structure Invariant (s : State) : Prop where
  current : s.versions.getLast?.map (·.row) = some s.row
  head : (s.versions.map (·.row.status)).head? = some .queued
  path : (s.versions.map (·.row.status)).IsChain fun a b => b ∈ validTransitions a
  ended : ∀ v ∈ s.versions, v.row.endedAt.isSome = v.row.status.terminal
  writers : ∀ v ∈ s.versions, ∀ i, v.writer = some i →
    ∃ (c : Call) (result : Except RunError RunRow), s.calls[i]? = some c ∧ c.phase = .done false result
  missed : ∀ (i : Nat) (c : Call) (result : Except RunError RunRow), s.calls[i]? = some c →
    c.phase = .done true result →
      (∃ v ∈ s.versions, result = .ok v.row ∧ v.row.status = c.transition.target) ∨ ∃ e, result = .error e

private theorem Invariant.row_mem {s : State} (h : Invariant s) : ∃ v ∈ s.versions, v.row = s.row := by
  obtain ⟨v, hv, hrow⟩ := Option.map_eq_some_iff.1 h.current
  exact ⟨v, List.mem_of_getLast? hv, hrow⟩

/-- The last status of the history is the row's. -/
theorem Invariant.getLast?_status {s : State} (h : Invariant s) :
    (s.versions.map (·.row.status)).getLast? = some s.row.status := by
  obtain ⟨v, hv, hrow⟩ := Option.map_eq_some_iff.1 h.current
  rw [List.getLast?_map, hv, Option.map_some, hrow]

private theorem Invariant.start {s : State} (h : machine.start s) : Invariant s := by
  obtain ⟨hq, he, hv, hc⟩ := h
  refine ⟨?_, ?_, ?_, ?_, ?_, ?_⟩
  · rw [hv]; rfl
  · rw [hv]; simp [hq]
  · rw [hv]; simp
  · rw [hv]; simp [hq, he, RunStatus.terminal]
  · rw [hv]; simp
  · rw [hc]; simp

/-- A call that moves on without writing keeps the invariant. -/
theorem Invariant.move {s : State} (h : Invariant s) {i : Nat} {c : Call} (hc : s.calls[i]? = some c)
    (hphase : ∀ result, c.phase ≠ .done false result) {phase : Phase}
    (hmissed : ∀ result, phase = .done true result →
      (∃ v ∈ s.versions, result = .ok v.row ∧ v.row.status = c.transition.target) ∨ ∃ e, result = .error e) :
    Invariant (s.move i c phase) := by
  refine ⟨h.current, h.head, h.path, h.ended, ?_, ?_⟩
  · intro v hv j hj
    obtain ⟨d, result, hd, hdone⟩ := h.writers v hv j hj
    have hij : i ≠ j := by
      rintro rfl
      rw [hc] at hd
      exact hphase result (Option.some.inj hd ▸ hdone)
    exact ⟨d, result, Callers.getElem?_set_of_ne hij hd, hdone⟩
  · intro j d result hd hdone
    rcases Callers.getElem?_set_cases hd with ⟨-, rfl⟩ | ⟨-, hd⟩
    · exact hmissed result hdone
    · exact h.missed j d result hd hdone

/-- A call whose update matches appends one version, one edge further in the table. -/
theorem Invariant.write {s : State} (h : Invariant s) {i : Nat} {c : Call} (hc : s.calls[i]? = some c) {now : String}
    {row : RunRow} (hrow : compareAndSet c.transition now s.row = some row) : Invariant (s.write i c row) := by
  obtain ⟨w, hw, hwrow⟩ := h.row_mem
  have hended : row.endedAt.isSome = row.status.terminal := by
    apply compareAndSet_endedAt c.operation hrow
    rw [← hwrow]
    exact h.ended w hw
  unfold State.write
  refine ⟨by simp, ?_, ?_, ?_, ?_, ?_⟩
  · simp only [List.map_append, List.head?_append, h.head, Option.some_or]
  · simp only [List.map_append, List.map_cons, List.map_nil]
    refine h.path.append (List.isChain_singleton _) ?_
    intro a ha b hb
    rw [h.getLast?_status] at ha
    cases ha
    cases hb
    rw [compareAndSet_status hrow]
    exact (compareAndSet_eq_some.1 hrow).1
  · intro v hv
    rcases List.mem_append.1 hv with hv | hv
    · exact h.ended v hv
    · rw [List.mem_singleton.1 hv]; exact hended
  · intro v hv j hj
    by_cases hij : j = i
    · subst hij
      exact ⟨_, _, Callers.getElem?_set_self_of_some hc, rfl⟩
    · rcases List.mem_append.1 hv with hv | hv
      · obtain ⟨d, result, hd, hdone⟩ := h.writers v hv j hj
        exact ⟨d, result, Callers.getElem?_set_of_ne (Ne.symm hij) hd, hdone⟩
      · rw [List.mem_singleton.1 hv] at hj
        exact absurd (Option.some.inj hj).symm hij
  · intro j d result hd hdone
    rcases Callers.getElem?_set_cases hd with ⟨-, rfl⟩ | ⟨-, hd⟩
    · exact absurd (Phase.done.inj hdone).1 nofun
    · rcases h.missed j d result hd hdone with ⟨v, hv, hr⟩ | he
      · exact Or.inl ⟨v, List.mem_append_left _ hv, hr⟩
      · exact Or.inr he

/-- A new call changes nothing that the invariant speaks of. -/
theorem Invariant.call {s : State} (h : Invariant s) (transition : Transition) (operation : IsOperation transition) :
    Invariant { s with calls := s.calls ++ [{ transition, operation }] } := by
  refine ⟨h.current, h.head, h.path, h.ended, ?_, ?_⟩
  · intro v hv i hi
    obtain ⟨c, result, hc, hdone⟩ := h.writers v hv i hi
    exact ⟨c, result, Callers.getElem?_concat_of_some hc, hdone⟩
  · intro i c result hc hdone
    rcases Callers.getElem?_concat_cases hc with ⟨-, rfl⟩ | hc
    · exact Phase.noConfusion hdone
    · exact h.missed i c result hc hdone

private theorem Invariant.step {s t : State} {a : Action} (h : Invariant s) (hnext : next s a = some t) :
    Invariant t := by
  cases a with
  | call transition operation => exact Option.some.inj hnext ▸ h.call transition operation
  | update i now =>
    obtain ⟨c, hc, hphase, rfl⟩ := next_update hnext
    have hno : ∀ result, c.phase ≠ .done false result := by
      intro result hdone
      exact Phase.noConfusion (hphase.symm.trans hdone)
    rcases update_cases s i c now with ⟨row, hrow, hup⟩ | ⟨-, hup⟩
    · rw [hup]
      exact h.write hc hrow
    · rw [hup]
      exact h.move hc hno fun _ hdone => Phase.noConfusion hdone
  | reread i =>
    obtain ⟨c, hc, hphase, rfl⟩ := next_reread hnext
    have hno : ∀ result, c.phase ≠ .done false result := by
      intro result hdone
      exact Phase.noConfusion (hphase.symm.trans hdone)
    unfold State.reread
    refine h.move hc hno fun result hresult => ?_
    have heq := (Phase.done.inj hresult).2
    rw [← heq]
    rcases afterMiss_cases s.row.id c.transition.target s.row with ⟨hok, hst⟩ | he
    · obtain ⟨v, hv, hrow⟩ := h.row_mem
      exact Or.inl ⟨v, hv, by rw [hrow]; exact hok, by rw [hrow]; exact hst⟩
    · exact Or.inr he

private theorem invariant_of_reachable {s : State} (h : machine.Reachable s) : Invariant s :=
  h.invariant (fun _ => Invariant.start) fun _ _ _ => Invariant.step

/-! ### The history of a row -/

/-- A version that a later version follows is not terminal. -/
theorem Invariant.not_terminal_of_lt {s : State} (h : Invariant s) {i j : Nat} {v w : Version} (hij : i < j)
    (hv : s.versions[i]? = some v) (hw : s.versions[j]? = some w) : v.row.status.terminal = false := by
  have hj : j < s.versions.length := (List.getElem?_eq_some_iff.1 hw).1
  have hnext := List.isChain_iff_getElem.1 h.path i (by rw [List.length_map]; omega)
  have hi : i < s.versions.length := by omega
  have hvi : s.versions[i] = v := (List.getElem?_eq_some_iff.1 hv).2
  rw [List.getElem_map, List.getElem_map, hvi] at hnext
  rw [Bool.eq_false_iff]
  intro hterm
  rw [validTransitions_eq_nil.2 hterm] at hnext
  exact absurd hnext List.not_mem_nil

/-- Whatever the callers do, the committed statuses are a path of the table from `queued`, nothing follows a terminal
version, `ended_at` is set in exactly the terminal versions and stays as it is, and a call whose update matched no row
has written no version and, once it has returned, returned a committed row that has its target status or thrown. -/
theorem row_history {s : State} (h : machine.Reachable s) :
    (s.versions.map (·.row.status)).head? = some .queued ∧
    (s.versions.map (·.row.status)).IsChain (fun a b => b ∈ validTransitions a) ∧
    (∀ (i j : Nat) (v w : Version), i < j → s.versions[i]? = some v → s.versions[j]? = some w →
      v.row.status.terminal = false) ∧
    (∀ v ∈ s.versions, v.row.endedAt.isSome = v.row.status.terminal) ∧
    (∀ (t : State) (as : List Action), s.row.status.terminal = true → machine.exec s as = some t →
      t.row = s.row ∧ t.versions = s.versions) ∧
    (∀ (i : Nat) (c : Call), s.calls[i]? = some c → c.phase = .reread ∨ (∃ result, c.phase = .done true result) →
      ∀ v ∈ s.versions, v.writer ≠ some i) ∧
    (∀ (i : Nat) (c : Call) (result : Except RunError RunRow), s.calls[i]? = some c → c.phase = .done true result →
      (∃ v ∈ s.versions, result = .ok v.row ∧ v.row.status = c.transition.target) ∨ ∃ e, result = .error e) := by
  have hinv := invariant_of_reachable h
  refine ⟨hinv.head, hinv.path, fun i j v w => hinv.not_terminal_of_lt, hinv.ended, fun t as => exec_terminal, ?_,
    hinv.missed⟩
  intro i c hc hmissed v hv hwriter
  obtain ⟨d, r, hd, hmatched⟩ := hinv.writers v hv i hwriter
  rw [hc] at hd
  rw [← Option.some.inj hd] at hmatched
  rcases hmissed with hreread | ⟨result, hdone⟩
  · exact Phase.noConfusion (hreread.symm.trans hmatched)
  · exact Bool.noConfusion (Phase.done.inj (hdone.symm.trans hmatched)).1

/-- A failure and a cancellation race; the failure is first, and the cancellation misses and throws. -/
theorem row_history_failed_before_cancelled :
    ∃ s, machine.Reachable s ∧ s.versions.map (·.row.status) = [.queued, .failed] ∧
      (∀ v ∈ s.versions, v.writer ≠ some 1) ∧ ∀ v ∈ s.versions, v.row.endedAt.isSome = v.row.status.terminal := by
  let row : RunRow := { id := "run", status := .queued }
  have hreach : ∃ s, machine.Reachable s ∧ s.versions.map (·.row.status) = [.queued, .failed] ∧
      ∃ c, s.calls[1]? = some c ∧ c.phase = .reread :=
    ⟨_, ⟨⟨row, [⟨none, row⟩], []⟩,
      [.call _ (.markFailed "10:00" none none), .call _ (.markCancelled "10:01"),
       .update 0 "10:00", .update 1 "10:01"],
      ⟨rfl, rfl, rfl, rfl⟩, rfl⟩, rfl, _, rfl, rfl⟩
  obtain ⟨s, hs, hstatuses, c, hc, hphase⟩ := hreach
  obtain ⟨-, -, -, hended, -, hwriter, -⟩ := row_history hs
  exact ⟨s, hs, hstatuses, hwriter 1 c hc (Or.inl hphase), hended⟩

end MacpControlPlane.TransitionRaces

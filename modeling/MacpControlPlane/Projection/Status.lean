import MacpControlPlane.Projection.Sections

/-!
# The projected status

Which events leave `run.status` and `run.endedAt` as they are.  Of the cases that write the status only the one of
`SESSION_STATE_SUSPENDED` asks whether the run has ended, so a terminal status is absorbing just as far as the events
that follow it are quiet.
-/

namespace MacpControlPlane

open Js

variable {N : Type} [JsNumber N]

/-! ### Quiet events -/

omit [JsNumber N] in
/-- `x ?? v` is `v`. -/
def Agrees (x v : Option (Json N)) : Prop :=
  defined x = none ∨ defined x = v

/-- The session states that leave a status as it is. -/
structure SessionQuiet (state : Option String) (status : Json N) : Prop where
  resolved : state = some "SESSION_STATE_RESOLVED" → status = RunStatus.completed.json
  expired : state = some "SESSION_STATE_EXPIRED" → status = RunStatus.failed.json
  cancelled : state = some "SESSION_STATE_CANCELLED" → status = RunStatus.cancelled.json
  suspended : state = some "SESSION_STATE_SUSPENDED" →
    terminalStatus status = true ∨ status = RunStatus.suspended.json
  reopened : state = some "SESSION_STATE_OPEN" → status ≠ RunStatus.suspended.json

/-- An event that leaves the status and the end of a run as they are. -/
def Quiet (run : RunSummaryProjection N) (event : CanonicalEvent N) : Prop :=
  match event.type with
  | .runCreated | .runStarted | .runCompleted | .runFailed | .runCancelled =>
    Agrees (event.datum "status") (some run.status) ∧ Agrees (event.datum "endedAt") run.endedAt
  | .runSuspended | .runResumed => Agrees (event.datum "status") (some run.status)
  | .sessionBound | .sessionStateChanged => SessionQuiet (asString (event.datum "state")) run.status
  | .decisionFinalized => run.status = RunStatus.completed.json
  | _ => True

omit [JsNumber N] in
private theorem coalesce_eq_iff (x v : Option (Json N)) : coalesce x v = v ↔ Agrees x v := by
  rw [coalesce_eq_or, Agrees]
  cases hx : defined x with
  | none => simp
  | some d => simp

omit [JsNumber N] in
private theorem eventStatus_eq_iff (status : Json N) (e : CanonicalEvent N) :
    Reducer.eventStatus status e = status ↔ Agrees (e.datum "status") (some status) := by
  rw [Reducer.eventStatus, Agrees]
  cases hx : defined (e.datum "status") with
  | none => simp
  | some d => simp

omit [JsNumber N] in
private theorem sessionStatus_eq_iff (state : Option String) (status : Json N) :
    Reducer.sessionStatus state status = status ↔ SessionQuiet state status := by
  unfold Reducer.sessionStatus
  split
  · rename_i h
    subst h
    constructor
    · intro hs
      refine ⟨fun _ => hs.symm, ?_, ?_, ?_, ?_⟩ <;> exact fun h => absurd h (by decide)
    · exact fun h => (h.resolved rfl).symm
  rename_i hresolved
  split
  · rename_i h
    subst h
    constructor
    · intro hs
      refine ⟨?_, fun _ => hs.symm, ?_, ?_, ?_⟩ <;> exact fun h => absurd h (by decide)
    · exact fun h => (h.expired rfl).symm
  rename_i hexpired
  split
  · rename_i h
    subst h
    constructor
    · intro hs
      refine ⟨?_, ?_, fun _ => hs.symm, ?_, ?_⟩ <;> exact fun h => absurd h (by decide)
    · exact fun h => (h.cancelled rfl).symm
  rename_i hcancelled
  split
  · rename_i h
    subst h
    constructor
    · intro hs
      refine ⟨?_, ?_, ?_, fun _ => ?_, ?_⟩
      · exact fun h => absurd h (by decide)
      · exact fun h => absurd h (by decide)
      · exact fun h => absurd h (by decide)
      · split at hs
        · rename_i hterm
          exact Or.inl hterm
        · exact Or.inr hs.symm
      · exact fun h => absurd h (by decide)
    · intro h
      split
      · rfl
      · rename_i hterm
        exact ((h.suspended rfl).resolve_left hterm).symm
  rename_i hsuspended
  split
  · rename_i h
    subst h
    have hne : (RunStatus.running.json : Json N) ≠ RunStatus.suspended.json := by
      rw [Ne, RunStatus.json_inj]
      decide
    constructor
    · intro hs
      refine ⟨?_, ?_, ?_, ?_, fun _ => ?_⟩
      · exact fun h => absurd h (by decide)
      · exact fun h => absurd h (by decide)
      · exact fun h => absurd h (by decide)
      · exact fun h => absurd h (by decide)
      · rintro rfl
        exact hne hs
    · intro h
      have hnot : ¬ status.is "suspended" = true := fun his => h.reopened rfl (Json.is_iff.1 his)
      rw [if_neg hnot]
  · rename_i hopen
    exact ⟨fun _ => ⟨fun h => absurd h hresolved, fun h => absurd h hexpired, fun h => absurd h hcancelled,
      fun h => absurd h hsuspended, fun h => absurd h hopen⟩, fun _ => rfl⟩

/-- An event keeps the status and the end of a run exactly when it is quiet. -/
theorem runStep_keeps_iff (r : String) (run : RunSummaryProjection N) (e : CanonicalEvent N) :
    (Reducer.runStep r run e).status = run.status ∧ (Reducer.runStep r run e).endedAt = run.endedAt ↔ Quiet run e := by
  have hlifecycle : (Reducer.lifecycleSummary r run e).status = run.status ∧
      (Reducer.lifecycleSummary r run e).endedAt = run.endedAt ↔
        Agrees (e.datum "status") (some run.status) ∧ Agrees (e.datum "endedAt") run.endedAt :=
    and_congr (eventStatus_eq_iff _ e) (coalesce_eq_iff _ _)
  have hpaused : (Reducer.pausedSummary r run e).status = run.status ∧
      (Reducer.pausedSummary r run e).endedAt = run.endedAt ↔ Agrees (e.datum "status") (some run.status) :=
    (and_iff_left rfl).trans (eventStatus_eq_iff _ e)
  have hsession : (Reducer.sessionSummary run e).status = run.status ∧
      (Reducer.sessionSummary run e).endedAt = run.endedAt ↔
        SessionQuiet (asString (e.datum "state")) run.status :=
    (and_iff_left rfl).trans (sessionStatus_eq_iff _ _)
  unfold Reducer.runStep Quiet
  cases e.type with
  | runCreated | runStarted | runCompleted | runFailed | runCancelled => exact hlifecycle
  | runSuspended | runResumed => exact hpaused
  | sessionBound | sessionStateChanged => exact hsession
  | decisionFinalized => exact (and_iff_left rfl).trans eq_comm
  | messageReceived =>
    refine iff_of_true ?_ trivial
    dsimp only [Reducer.suspendLimit]
    split
    · split
      · exact ⟨rfl, rfl⟩
      · exact ⟨rfl, rfl⟩
    · exact ⟨rfl, rfl⟩
  | _ => exact iff_of_true ⟨rfl, rfl⟩ trivial

omit [JsNumber N] in
/-- Being quiet asks about the status and the end of the run only. -/
theorem Quiet.congr {run run' : RunSummaryProjection N} {e : CanonicalEvent N} (hstatus : run'.status = run.status)
    (hended : run'.endedAt = run.endedAt) : Quiet run' e ↔ Quiet run e := by
  unfold Quiet
  rw [hstatus, hended]

/-! ### Whole logs -/

/-- A log keeps the status and the end of a run all along exactly when its events are quiet. -/
theorem foldl_runStep_keeps_iff (r : String) (run : RunSummaryProjection N) (es : List (CanonicalEvent N)) :
    (∀ a, a <+: es → (a.foldl (Reducer.runStep r) run).status = run.status ∧
      (a.foldl (Reducer.runStep r) run).endedAt = run.endedAt) ↔ ∀ e ∈ es, Quiet run e := by
  induction es generalizing run with
  | nil =>
    refine iff_of_true ?_ fun e he => absurd he List.not_mem_nil
    intro a ha
    rw [List.prefix_nil.1 ha]
    exact ⟨rfl, rfl⟩
  | cons e es ih =>
    have hrest := ih (Reducer.runStep r run e)
    constructor
    · intro h
      have hkeep := h [e] (List.cons_prefix_cons.2 ⟨rfl, List.nil_prefix⟩)
      obtain ⟨hstatus, hended⟩ := hkeep
      have htail : ∀ d ∈ es, Quiet (Reducer.runStep r run e) d := by
        refine hrest.1 ?_
        intro a ha
        obtain ⟨hs, he⟩ := h (e :: a) (List.cons_prefix_cons.2 ⟨rfl, ha⟩)
        exact ⟨hs.trans hstatus.symm, he.trans hended.symm⟩
      intro d hd
      rcases List.mem_cons.1 hd with rfl | hd
      · exact (runStep_keeps_iff r run d).1 ⟨hstatus, hended⟩
      · exact (Quiet.congr hstatus hended).1 (htail d hd)
    · intro h a ha
      obtain ⟨hstatus, hended⟩ := (runStep_keeps_iff r run e).2 (h e List.mem_cons_self)
      rcases List.prefix_cons_iff.1 ha with rfl | ⟨rest, rfl, hprefix⟩
      · exact ⟨rfl, rfl⟩
      · have htail : ∀ d ∈ es, Quiet (Reducer.runStep r run e) d := fun d hd =>
          (Quiet.congr hstatus hended).2 (h d (List.mem_cons_of_mem e hd))
        obtain ⟨hs, he⟩ := hrest.2 htail rest hprefix
        exact ⟨hs.trans hstatus, he.trans hended⟩

/-- The run summary that `applyEvents` has reached after `log`. -/
def summaryAfter (current : RunStateProjection N) (log : List (CanonicalEvent N)) : RunSummaryProjection N :=
  (applyEvents current log).run

private theorem summaryAfter_append (current : RunStateProjection N) (log rest : List (CanonicalEvent N)) :
    summaryAfter current (log ++ rest) =
      rest.foldl (Reducer.runStep current.run.runId) (summaryAfter current log) := by
  unfold summaryAfter
  rw [applyEvents_run, applyEvents_run, List.foldl_append]

/-- After `run.completed`, `run.failed` or `run.cancelled` has set the status it carries, the later events other than
`run.created` keep the status and the end of the run exactly when each is quiet where it comes.  Where no
`run.created` follows, that is a condition on the later events alone. -/
theorem terminal_status_absorbing_iff {current : RunStateProjection N} {earlier later : List (CanonicalEvent N)}
    {settling : CanonicalEvent N} {outcome : RunStatus}
    (htype : settling.type = .runCompleted ∨ settling.type = .runFailed ∨ settling.type = .runCancelled)
    (hstatus : settling.datum "status" = some outcome.json) :
    let log := earlier ++ [settling]
    let after := fun rest => summaryAfter current (log ++ rest)
    (after []).status = outcome.json ∧
    ((∀ a e b, later = a ++ e :: b → e.type ≠ .runCreated →
        (after (a ++ [e])).status = (after a).status ∧ (after (a ++ [e])).endedAt = (after a).endedAt) ↔
      ∀ a e b, later = a ++ e :: b → e.type ≠ .runCreated → Quiet (after a) e) ∧
    ((∀ e ∈ later, e.type ≠ .runCreated) →
      ((∀ a, a <+: later → (after a).status = outcome.json ∧ (after a).endedAt = (after []).endedAt) ↔
        ∀ e ∈ later, Quiet (after []) e)) := by
  intro log after
  have hsettled : (after []).status = outcome.json := by
    have hlog : after [] = Reducer.runStep current.run.runId (summaryAfter current earlier) settling := by
      show summaryAfter current (log ++ []) = _
      rw [List.append_nil, summaryAfter_append]
      rfl
    have hevent : Reducer.eventStatus (summaryAfter current earlier).status settling = outcome.json := by
      rw [Reducer.eventStatus, hstatus]
      rfl
    rw [hlog, Reducer.runStep]
    rcases htype with h | h | h <;> rw [h] <;> exact hevent
  refine ⟨hsettled, ?_, ?_⟩
  · have hstep : ∀ a e, after (a ++ [e]) = Reducer.runStep current.run.runId (after a) e := by
      intro a e
      show summaryAfter current (log ++ (a ++ [e])) = _
      rw [← List.append_assoc, summaryAfter_append]
      rfl
    constructor
    · intro h a e b hsplit hne
      have hkeep := h a e b hsplit hne
      rw [hstep] at hkeep
      exact (runStep_keeps_iff _ _ e).1 hkeep
    · intro h a e b hsplit hne
      rw [hstep]
      exact (runStep_keeps_iff _ _ e).2 (h a e b hsplit hne)
  · intro _
    have hall := foldl_runStep_keeps_iff current.run.runId (after []) later
    have hafter : ∀ a, after a = a.foldl (Reducer.runStep current.run.runId) (after []) := by
      intro a
      show summaryAfter current (log ++ a) = a.foldl _ (summaryAfter current (log ++ []))
      rw [List.append_nil, summaryAfter_append]
    rw [← hall]
    simp only [← hafter, hsettled]

/-- A cancellation, followed by an artifact and by a late `SESSION_STATE_SUSPENDED`. -/
theorem terminal_status_absorbing_quiet :
    let cancelled : CanonicalEvent (Option Rat) :=
      { id := "e1", runId := "run", seq := 1, ts := "10:00", type := .runCancelled,
        source := ⟨.macpControlPlane, "run-manager", none⟩
        data := [("status", .str "cancelled"), ("endedAt", .str "10:00")] }
    let paused : CanonicalEvent (Option Rat) :=
      { id := "e2", runId := "run", seq := 2, ts := "10:01", type := .sessionStateChanged,
        source := ⟨.runtime, "macp", none⟩
        data := [("state", .str "SESSION_STATE_SUSPENDED")] }
    (summaryAfter (.empty "run") ([] ++ [cancelled] ++ [paused])).status = RunStatus.cancelled.json := by
  intro cancelled paused
  have hstatus : cancelled.datum "status" = some RunStatus.cancelled.json := rfl
  have hkeep :=
    @terminal_status_absorbing_iff (Option Rat) _ (.empty "run") [] [paused] cancelled .cancelled
      (Or.inr (Or.inr rfl)) hstatus
  have hquiet : ∀ e ∈ [paused], Quiet (summaryAfter (.empty "run") ([] ++ [cancelled] ++ [])) e := by
    intro e he
    rw [List.mem_singleton.1 he]
    refine ⟨?_, ?_, ?_, fun _ => Or.inl rfl, ?_⟩ <;> exact fun h => absurd h (by decide)
  have hcreated : ∀ e ∈ [paused], e.type ≠ .runCreated := by decide
  exact ((hkeep.2.2 hcreated).2 hquiet [paused] (List.prefix_refl _)).1

/-- A commitment that arrives after the cancellation turns the projected status to `completed`. -/
theorem terminal_status_absorbing_finalized :
    ¬ ∀ (runId : String) (earlier later : List (CanonicalEvent (Option Rat))) (settling : CanonicalEvent (Option Rat))
      (outcome : RunStatus),
      settling.type = .runCompleted ∨ settling.type = .runFailed ∨ settling.type = .runCancelled →
      outcome.terminal = true → settling.datum "status" = some outcome.json →
      ∀ a e b, later = a ++ e :: b → e.type ≠ .runCreated →
        (applyEvents (.empty runId) (earlier ++ [settling] ++ (a ++ [e]))).run.status =
          (applyEvents (.empty runId) (earlier ++ [settling] ++ a)).run.status ∧
        (applyEvents (.empty runId) (earlier ++ [settling] ++ (a ++ [e]))).run.endedAt =
          (applyEvents (.empty runId) (earlier ++ [settling] ++ a)).run.endedAt := by
  intro h
  let cancelled : CanonicalEvent (Option Rat) :=
    { id := "e1", runId := "run", seq := 1, ts := "10:00", type := .runCancelled,
      source := ⟨.macpControlPlane, "run-manager", none⟩
      data := [("status", .str "cancelled"), ("endedAt", .str "10:00")] }
  let finalized : CanonicalEvent (Option Rat) :=
    { id := "e2", runId := "run", seq := 2, ts := "10:01", type := .decisionFinalized,
      source := ⟨.runtime, "macp", none⟩
      data := [("sender", .str "agent")] }
  have hkeep := (h "run" [] [finalized] cancelled .cancelled
    (Or.inr (Or.inr rfl)) rfl rfl [] finalized [] rfl nofun).1
  have hstatus : (RunStatus.completed.json : Json (Option Rat)) = RunStatus.cancelled.json := hkeep
  exact absurd (RunStatus.json_inj.1 hstatus) nofun

end MacpControlPlane

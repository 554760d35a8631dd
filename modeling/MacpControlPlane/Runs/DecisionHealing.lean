import MacpControlPlane.Projection.Rebuild
import MacpControlPlane.Verification.IngestedCommitments

/-!
# The decision of an ended run (`RunManagerService.getState`)

A lost write leaves a projection that is the fold of only some events of the log.  `getState` looks for one that shows
an undecided decision in a run that has ended, although the metrics have counted a decision, and rebuilds it from the
log.  Whether the run has ended, and whether there is a decision, it asks the projection itself.
-/

namespace MacpControlPlane

open Js Reducer EventRepository CommitmentVerification

variable {N : Type} [JsNumber N]

namespace RunManagerService

/-- What `getState` returns, the stored projection afterwards, and whether it has been rebuilt. -/
structure StateRead (N : Type) where
  projection : RunStateProjection N
  row : Option (ProjectionRow N)
  rebuilt : Bool := false

/-- `decisionCount` is the one of the metrics, 0 without a row. -/
def healStaleTerminalDecision (runId : String) (table : List (CanonicalRow N)) (row : Option (ProjectionRow N))
    (decisionCount : Nat) (projection : RunStateProjection N) : StateRead N :=
  let decisionUnfinalized := projection.decision.current.any fun current => !current.finalized
  if !terminalStatus projection.run.status || !decisionUnfinalized then { projection, row }
  else if decisionCount = 0 then { projection, row }
  else
    let (rebuilt, row') := ProjectionService.rebuild runId ((listCanonicalUpTo table runId).map CanonicalRow.cast) row
    { projection := if rebuilt.decision.current.any (·.finalized) then rebuilt else projection
      row := some row'
      rebuilt := true }

/-- `getState`, for a run that is there. -/
def getState (runId : String) (table : List (CanonicalRow N)) (row : Option (ProjectionRow N)) (decisionCount : Nat) :
    StateRead N :=
  healStaleTerminalDecision runId table row decisionCount ((ProjectionService.get row).getD (.empty runId))

/-- What `verify` reads is what `getState` returns. -/
theorem getState_projection {E : Type} (runId : String) (d : RunData N E) (decisionCount : Nat) :
    (getState runId d.canonical d.projection decisionCount).projection =
      CommitmentVerification.getState runId d decisionCount := by
  unfold getState healStaleTerminalDecision CommitmentVerification.getState
  dsimp only
  by_cases hfine : (!terminalStatus ((ProjectionService.get d.projection).getD (.empty runId)).run.status ||
      !((ProjectionService.get d.projection).getD (.empty runId)).decision.current.any fun c => !c.finalized) = true
  · simp [hfine]
  · by_cases hcount : decisionCount = 0
    · simp [hcount]
    · simp [hfine, hcount]

/-! ### What is asked of `getState` -/

/-- The stored projection is the fold of some events. -/
def Stores (runId : String) (es : List (CanonicalEvent N)) (row : Option (ProjectionRow N)) : Prop :=
  (row = none ∧ es = []) ∨
    ∃ version schemaVersion, row = some (.ofProjection (applyEvents (.empty runId) es) version schemaVersion)

/-- `getState` returns a final decision with the action, and the next `getState` rebuilds nothing. -/
structure Healed (runId : String) (table : List (CanonicalRow N)) (row : Option (ProjectionRow N))
    (decisionCount : Nat) (action : String) : Prop where
  decided : ∃ current, (getState runId table row decisionCount).projection.decision.current = some current ∧
    current.finalized = true ∧ current.action = action
  settled : (getState runId table (getState runId table row decisionCount).row decisionCount).rebuilt = false

/-- The last `decision.finalized` of some events. -/
def lastFinalized (es : List (CanonicalEvent N)) : Option (CanonicalEvent N) :=
  es.reverse.find? fun e => e.type = .decisionFinalized

/-- The event puts an undecided decision in place where there is none. -/
def opensDecision (event : CanonicalEvent N) : Bool :=
  event.type = .proposalCreated || event.type = .proposalUpdated ||
    (event.type = .runCreated && (asString (event.datum "decisionPrompt")).isSome)

/-- The events of a stored projection have a commitment with the action as their last one; or they have none, there is
an undecided decision, and the status is that of a run that has ended. -/
def Detected (runId : String) (es : List (CanonicalEvent N)) (action : String) : Prop :=
  match lastFinalized es with
  | some e => finalAction e = action
  | none => terminalStatus (applyEvents (.empty runId) es).run.status = true ∧ ∃ e ∈ es, opensDecision e = true

/-! ### Stale folds -/

private theorem Stores.get {runId : String} {es : List (CanonicalEvent N)} {row : Option (ProjectionRow N)}
    (h : Stores runId es row) :
    ((ProjectionService.get row).getD (.empty runId)).decision = (applyEvents (.empty runId) es).decision ∧
      ((ProjectionService.get row).getD (.empty runId)).run = (applyEvents (.empty runId) es).run := by
  rcases h with ⟨rfl, rfl⟩ | ⟨version, schemaVersion, rfl⟩
  · exact ⟨rfl, rfl⟩
  · rw [get_ofProjection (applyEvents_complete (empty_complete runId) es)]
    exact ⟨rfl, rfl⟩

/-- One event that is no commitment, on an undecided decision. -/
theorem decisionStep_unfinalized {d : DecisionProjection N} {e : CanonicalEvent N} (he : e.type ≠ .decisionFinalized)
    (hd : ∀ current ∈ d.current, current.finalized = false) :
    (∀ current ∈ (decisionStep d e).current, current.finalized = false) ∧
      ((decisionStep d e).current.isSome = true ↔ d.current.isSome = true ∨ opensDecision e = true) := by
  have hbase : (d.current.getD { finalized := false }).finalized = false := by
    cases hcurrent : d.current with
    | none => rfl
    | some current => exact hd current hcurrent
  unfold decisionStep
  cases htype : e.type with
  | runCreated =>
    cases hprompt : asString (e.datum "decisionPrompt") with
    | none => simpa [promptedDecision, hprompt, opensDecision, htype] using hd
    | some prompt => simpa [promptedDecision, hprompt, opensDecision, htype] using hbase
  | proposalCreated | proposalUpdated => simp [proposedDecision, hbase, opensDecision, htype]
  | decisionFinalized => exact absurd htype he
  | _ => simpa [opensDecision, htype] using hd

/-- Without a commitment the decision stays undecided, and there is one once an event has opened it. -/
theorem foldl_decisionStep_unfinalized {es : List (CanonicalEvent N)} (hes : ∀ e ∈ es, e.type ≠ .decisionFinalized) :
    (∀ current ∈ (es.foldl decisionStep ({} : DecisionProjection N)).current, current.finalized = false) ∧
      ((es.foldl decisionStep ({} : DecisionProjection N)).current.isSome = true ↔
        ∃ e ∈ es, opensDecision e = true) := by
  induction es using List.reverseRecOn with
  | nil => simp
  | append_singleton es e ih =>
    obtain ⟨hall, hsome⟩ := ih fun d hd => hes d (List.mem_append_left [e] hd)
    obtain ⟨hstep, hstepSome⟩ := decisionStep_unfinalized (hes e (by simp)) hall
    rw [List.foldl_append, List.foldl_cons, List.foldl_nil]
    refine ⟨hstep, ?_⟩
    rw [hstepSome, hsome]
    simp [or_and_right, exists_or]

/-- The decision of a fold that has a commitment. -/
theorem finalized_of_lastFinalized (runId : String) {es : List (CanonicalEvent N)} {last : CanonicalEvent N}
    (h : lastFinalized es = some last) :
    Finalized (finalAction last) (finalOutcome last) (applyEvents (.empty runId) es).decision := by
  obtain ⟨htype, before, after, rfl, hafter⟩ := Table.exists_of_find?_reverse h
  rw [applyEvents_decision]
  exact finalized_foldl (of_decide_eq_true htype) (fun e he => of_decide_eq_false (hafter e he)) _

omit [JsNumber N] in
private theorem ne_of_lastFinalized_eq_none {es : List (CanonicalEvent N)} (h : lastFinalized es = none) :
    ∀ e ∈ es, e.type ≠ .decisionFinalized := by
  intro e he htype
  exact List.find?_eq_none.1 h e (List.mem_reverse.2 he) (decide_eq_true htype)

/-! ### The heal -/

section Heal

variable {runId : String} {table : List (CanonicalRow N)} {row : Option (ProjectionRow N)} {decisionCount : Nat}

/-- A final decision is returned as it is stored. -/
theorem getState_of_finalized {action : String} {outcome : Option Bool} (table : List (CanonicalRow N))
    (decisionCount : Nat) (h : Finalized action outcome ((ProjectionService.get row).getD (.empty runId)).decision) :
    getState runId table row decisionCount =
      { projection := (ProjectionService.get row).getD (.empty runId), row } := by
  obtain ⟨current, hcurrent, hfinalized, -, -⟩ := h.current
  simp [getState, healStaleTerminalDecision, hcurrent, hfinalized]

private theorem rebuild_row (runId : String) (events : List (CanonicalEvent N)) (row : Option (ProjectionRow N)) :
    ∃ version, (ProjectionService.rebuild runId events row).2 =
      .ofProjection (applyEvents (.empty runId) events) version projectionSchemaVersion := by
  cases row with
  | none => exact ⟨_, rfl⟩
  | some old => exact ⟨_, rfl⟩

/-- Where the rebuild has a final decision, it is returned, and the next `getState` finds it. -/
theorem getState_rebuilds {action : String} {outcome : Option Bool}
    (hundecided : ∃ current, ((ProjectionService.get row).getD (.empty runId)).decision.current = some current ∧
      current.finalized = false)
    (hterminal : terminalStatus ((ProjectionService.get row).getD (.empty runId)).run.status = true)
    (hcount : 0 < decisionCount)
    (hrebuilt : Finalized action outcome
      (applyEvents (.empty runId) ((listCanonicalUpTo table runId).map CanonicalRow.cast) :
        RunStateProjection N).decision) :
    Healed runId table row decisionCount action := by
  obtain ⟨stale, hstale, hunfinalized⟩ := hundecided
  obtain ⟨current, hcurrent, hfinalized, haction, -⟩ := hrebuilt.current
  have hcount' : decisionCount ≠ 0 := by omega
  obtain ⟨version, hrow⟩ := rebuild_row runId ((listCanonicalUpTo table runId).map CanonicalRow.cast) row
  set rebuilt : RunStateProjection N :=
    applyEvents (.empty runId) ((listCanonicalUpTo table runId).map CanonicalRow.cast) with hdef
  have hread : getState runId table row decisionCount =
      { projection := rebuilt
        row := some (.ofProjection rebuilt version projectionSchemaVersion)
        rebuilt := true } := by
    unfold getState healStaleTerminalDecision
    simp only [hterminal, hstale, hunfinalized, Option.any_some, Bool.not_true, Bool.not_false, Bool.or_self,
      Bool.false_eq_true, if_false, hcount', hrow]
    simp only [ProjectionService.rebuild, ← hdef, hcurrent, Option.any_some, hfinalized, if_true]
  constructor
  · rw [hread]
    exact ⟨current, hcurrent, hfinalized, haction⟩
  · rw [hread]
    have hget : Finalized action outcome ((ProjectionService.get
        (some (.ofProjection rebuilt version projectionSchemaVersion))).getD (.empty runId)).decision := by
      rw [get_ofProjection (applyEvents_complete (empty_complete runId) _)]
      exact hrebuilt
    rw [getState_of_finalized table decisionCount hget]

/-- What is not looked at is returned as it is stored. -/
theorem getState_of_not_detected
    (h : terminalStatus ((ProjectionService.get row).getD (.empty runId)).run.status = false ∨
      ((ProjectionService.get row).getD (.empty runId)).decision.current = none) :
    getState runId table row decisionCount =
      { projection := (ProjectionService.get row).getD (.empty runId), row } := by
  rcases h with h | h
  · simp [getState, healStaleTerminalDecision, h]
  · simp [getState, healStaleTerminalDecision, h]

end Heal

/-- The decision of a run whose log has a commitment is healed exactly when its stored projection is detected. -/
theorem healed_iff {es : List (CanonicalEvent N)} {runId : String} (hdistinct : Distinct es)
    (hlog : IsLog runId (logOf runId es)) {last : CanonicalEvent N}
    (hlast : lastFinalized (logOf runId es) = some last)
    {stale : List (CanonicalEvent N)} {row : Option (ProjectionRow N)} (hrow : Stores runId stale row)
    {decisionCount : Nat} (hcount : 0 < decisionCount) :
    Healed runId (appendCanonical [] es) row decisionCount (finalAction last) ↔
      Detected runId stale (finalAction last) := by
  obtain ⟨hdecision, hrun⟩ := hrow.get
  unfold Detected
  cases hstale : lastFinalized stale with
  | some e =>
    have hfinal := finalized_of_lastFinalized runId hstale
    rw [← hdecision] at hfinal
    obtain ⟨current, hcurrent, hfinalized, haction, -⟩ := hfinal.current
    have hread := getState_of_finalized (appendCanonical [] es) decisionCount hfinal
    dsimp only
    constructor
    · rintro ⟨⟨current', hcurrent', -, haction'⟩, -⟩
      rw [hread, hcurrent] at hcurrent'
      rw [← haction, ← haction', Option.some.inj hcurrent']
    · intro hsame
      refine ⟨?_, ?_⟩
      · rw [hread]
        exact ⟨current, hcurrent, hfinalized, haction.trans hsame⟩
      · rw [hread, hread]
  | none =>
    have hnone := ne_of_lastFinalized_eq_none hstale
    obtain ⟨hall, hsome⟩ := foldl_decisionStep_unfinalized hnone
    have hfold : (applyEvents (.empty runId) stale).decision = stale.foldl decisionStep ({} : DecisionProjection N) :=
      applyEvents_decision _ _
    rw [← hfold, ← hdecision] at hall hsome
    rw [← hrun]
    dsimp only
    constructor
    · rintro ⟨⟨current, hcurrent, hfinalized, -⟩, -⟩
      by_contra hnot
      have hread : getState runId (appendCanonical [] es) row decisionCount =
          { projection := (ProjectionService.get row).getD (.empty runId), row } := by
        refine getState_of_not_detected ?_
        rw [← hsome, not_and_or, Bool.not_eq_true, Bool.not_eq_true, Option.isSome_eq_false_iff,
          Option.isNone_iff_eq_none] at hnot
        exact hnot
      rw [hread] at hcurrent
      exact absurd (hfinalized.symm.trans (hall current hcurrent)) nofun
    · rintro ⟨hterminal, hopen⟩
      obtain ⟨current, hcurrent⟩ := Option.isSome_iff_exists.1 (hsome.2 hopen)
      have hrebuilt : Finalized (finalAction last) (finalOutcome last)
          (RunEventService.rebuildProjection (appendCanonical [] es) runId).decision := by
        rw [rebuildProjection_eq hdistinct hlog]
        have hcast : lastFinalized ((logOf runId es).map fun e => (CanonicalRow.ofEvent e).cast) =
            some (CanonicalRow.ofEvent last).cast := by
          have hmap := congrArg (Option.map fun e => (CanonicalRow.ofEvent e).cast) hlast
          rw [lastFinalized, ← List.map_reverse, List.find?_map]
          exact hmap
        have hfinal := finalized_of_lastFinalized runId hcast
        exact hfinal
      exact getState_rebuilds ⟨current, hcurrent, hall current hcurrent⟩ hterminal hcount hrebuilt

/-! ### Lost writes -/

def eventOf (seq : Nat) (type : CanonicalEventType) (data : JsonObject (Option Rat)) :
    CanonicalEvent (Option Rat) where
  id := toString seq
  runId := "run"
  seq := seq
  ts := "2026-10-24T00:00:00.000Z"
  type := type
  source := { kind := .runtime, name := "rust-runtime" }
  data := data

def proposalEvent : CanonicalEvent (Option Rat) := eventOf 1 .proposalCreated [("messageType", .str "Proposal")]

def commitmentEvent : CanonicalEvent (Option Rat) :=
  eventOf 2 .decisionFinalized [("decodedPayload", .obj [("action", .str "approve")])]

def completedEvent : CanonicalEvent (Option Rat) := eventOf 3 .runCompleted [("status", .str "completed")]

/-- A proposal, a commitment and the end of the run. -/
def decidedLog : List (CanonicalEvent (Option Rat)) := [proposalEvent, commitmentEvent, completedEvent]

/-- The stored fold of some events. -/
def storedOf (es : List (CanonicalEvent (Option Rat))) : Option (ProjectionRow (Option Rat)) :=
  some (.ofProjection (applyEvents (.empty "run") es) 3 projectionSchemaVersion)

private theorem stores_storedOf (es : List (CanonicalEvent (Option Rat))) : Stores "run" es (storedOf es) :=
  .inr ⟨3, projectionSchemaVersion, rfl⟩

private theorem distinct_decidedLog : Distinct decidedLog := ⟨by decide, by decide⟩

private theorem isLog_decidedLog : IsLog "run" (logOf "run" decidedLog) := ⟨by decide, by decide, by decide⟩

/-- Without the write of the commitment there is the proposal, and the heal sees that it is undecided. -/
theorem healed_proposal : Healed "run" (appendCanonical [] decidedLog) (storedOf [proposalEvent, completedEvent]) 1
    (finalAction commitmentEvent) := by
  refine (healed_iff distinct_decidedLog isLog_decidedLog rfl (stores_storedOf _) (by decide)).2 ?_
  exact ⟨by decide +kernel, proposalEvent, by simp, rfl⟩

/-- Without that of the proposal too, `getState` returns a completed run without a decision. -/
theorem not_healed_completed :
    (getState "run" (appendCanonical [] decidedLog) (storedOf [completedEvent]) 1).projection.decision.current = none ∧
      ¬∀ (es : List (CanonicalEvent (Option Rat))) (runId : String), Distinct es → IsLog runId (logOf runId es) →
        ∀ last, lastFinalized (logOf runId es) = some last → ∀ stale, stale.Sublist (logOf runId es) →
        ∀ row, Stores runId stale row → ∀ decisionCount, 0 < decisionCount →
        Healed runId (appendCanonical [] es) row decisionCount (finalAction last) := by
  have hnone : (getState "run" (appendCanonical [] decidedLog) (storedOf [completedEvent])
      1).projection.decision.current = none := rfl
  refine ⟨hnone, ?_⟩
  intro hall
  have hsublist : [completedEvent].Sublist (logOf "run" decidedLog) :=
    .cons proposalEvent (.cons commitmentEvent (.refl _))
  have hhealed := hall decidedLog "run" distinct_decidedLog isLog_decidedLog commitmentEvent rfl [completedEvent]
    hsublist _ (stores_storedOf _) 1 (by decide)
  obtain ⟨current, hcurrent, -, -⟩ := hhealed.decided
  rw [hnone] at hcurrent
  exact absurd hcurrent nofun

end RunManagerService

end MacpControlPlane

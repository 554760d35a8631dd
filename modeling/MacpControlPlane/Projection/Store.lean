import Mathlib.Data.List.Basic
import Mathlib.Data.List.Induction
import MacpControlPlane.Projection.Sections

/-!
# The stored projection (`storage/projection.repository.ts`, `projection/projection.service.ts`)

A row of `run_projections` has a column for every section but `outboundMessages` and `llm`.  `upsert` writes the
columns, `get` reads them back and fills in the two sections without a column, and `applyAndPersist` is a read, a fold
and a write.
-/

namespace MacpControlPlane

open Js Reducer

variable {N : Type} [JsNumber N]

/-- The columns of `run_projections`.  A `jsonb` column holds the section it stores. -/
structure ProjectionRow (N : Type) where
  version : Nat
  schemaVersion : Nat
  runSummary : RunSummaryProjection N
  participants : List ParticipantProjection
  graph : GraphProjection
  decision : DecisionProjection N
  signals : SignalProjection N
  timeline : TimelineProjection
  traceSummary : TraceSummary
  progress : ProgressProjection N
  policy : PolicyProjection N

/-- `PROJECTION_SCHEMA_VERSION` -/
def projectionSchemaVersion : Nat := 3

omit [JsNumber N] in
/-- The `data` of `upsert`, with the version. -/
def ProjectionRow.ofProjection (projection : RunStateProjection N) (version schemaVersion : Nat) :
    ProjectionRow N where
  version
  schemaVersion
  runSummary := projection.run
  participants := projection.participants
  graph := projection.graph
  decision := projection.decision
  signals := projection.signals
  timeline := projection.timeline
  traceSummary := projection.trace
  progress := projection.progress
  policy := projection.policy

omit [JsNumber N] in
/-- `ProjectionRepository.upsert`: the row of the run afterwards. -/
def ProjectionRepository.upsert (row : Option (ProjectionRow N)) (projection : RunStateProjection N)
    (version schemaVersion : Nat) (force : Bool := false) : ProjectionRow N :=
  let new := ProjectionRow.ofProjection projection version schemaVersion
  match row with
  | none => new
  | some old => if force || old.version < version then new else old

/-- `ProjectionService.get`, for the row of the run. -/
def ProjectionService.get (row : Option (ProjectionRow N)) : Option (RunStateProjection N) :=
  row.map fun row =>
    { run := row.runSummary
      participants := row.participants
      graph := row.graph
      decision := deriveMissingCanonical row.decision
      signals := row.signals
      progress := row.progress
      timeline := row.timeline
      trace := row.traceSummary
      -- The table has no column for these two.
      outboundMessages := {}
      policy := row.policy
      llm := .none }

/-- The body of `applyAndPersist`: the projection it returns, and the row of the run afterwards. -/
def ProjectionService.applyAndPersist (runId : String) (events : List (CanonicalEvent N))
    (row : Option (ProjectionRow N)) : RunStateProjection N × ProjectionRow N :=
  let current := (ProjectionService.get row).getD (.empty runId)
  let merged := applyEvents current events
  let version := (events.getLast?.map (·.seq)).getD current.timeline.latestSeq
  (merged, ProjectionRepository.upsert row merged version projectionSchemaVersion)

/-- `applyAndPersist` for batch after batch. -/
def ProjectionService.persistBatches (runId : String) (batches : List (List (CanonicalEvent N))) :
    Option (ProjectionRow N) :=
  batches.foldl (fun row events => some (ProjectionService.applyAndPersist runId events row).2) none

omit [JsNumber N] in
/-- The events of a run in the order of their sequence numbers, which start at 1. -/
structure IsLog (runId : String) (es : List (CanonicalEvent N)) : Prop where
  run : ∀ e ∈ es, e.runId = runId
  positive : ∀ e ∈ es, 0 < e.seq
  increasing : (es.map (·.seq)).Pairwise (· < ·)

/-! ### Storing and loading -/

omit [JsNumber N] in
theorem upsert_of_lt {old : ProjectionRow N} {p : RunStateProjection N} {version schemaVersion : Nat}
    (h : old.version < version) :
    ProjectionRepository.upsert (some old) p version schemaVersion = .ofProjection p version schemaVersion := by
  simp [ProjectionRepository.upsert, h]

omit [JsNumber N] in
/-- The guard drops a write whose version is not higher. -/
theorem upsert_of_le {old : ProjectionRow N} {p : RunStateProjection N} {version schemaVersion : Nat}
    (h : version ≤ old.version) : ProjectionRepository.upsert (some old) p version schemaVersion = old := by
  simp [ProjectionRepository.upsert, Nat.not_lt.2 h]

omit [JsNumber N] in
/-- Every `supersedes` of a decision says whether its hash is canonical. -/
def DecisionProjection.Complete (d : DecisionProjection N) : Prop :=
  ∀ c ∈ d.current, ∀ s ∈ c.supersedes, s.canonical.isSome = true

omit [JsNumber N] in
private theorem deriveMissingCanonical_of_complete {d : DecisionProjection N} (h : d.Complete) :
    deriveMissingCanonical d = d := by
  unfold deriveMissingCanonical
  split
  · rename_i current hcurrent
    split
    · rename_i sessionId commitmentHash hsupersedes
      exact absurd (h current hcurrent _ hsupersedes) nofun
    · rfl
  · rfl

private theorem extractSupersedes_canonical {raw : Option (Json N)} {s : CommitmentSupersedes}
    (h : s ∈ extractSupersedes raw) : s.canonical.isSome = true := by
  unfold extractSupersedes at h
  dsimp only at h
  split at h
  · exact absurd h nofun
  · rw [← Option.some.inj h]
    rfl

omit [JsNumber N] in
private theorem complete_of_supersedes {d : DecisionProjection N} (h : d.Complete) {c : DecisionCurrent N}
    (hc : c.supersedes = (d.current.getD { finalized := false }).supersedes) :
    (⟨some c⟩ : DecisionProjection N).Complete := by
  intro c' hc' s hs
  rw [← Option.some.inj hc', hc] at hs
  cases hd : d.current with
  | none =>
    rw [hd] at hs
    exact absurd hs nofun
  | some current =>
    rw [hd] at hs
    exact h current hd s hs

private theorem decisionStep_complete {d : DecisionProjection N} (h : d.Complete) (e : CanonicalEvent N) :
    (decisionStep d e).Complete := by
  have hproposed : (proposedDecision d e).Complete := by
    dsimp only [proposedDecision]
    split
    · exact complete_of_supersedes h rfl
    · exact complete_of_supersedes h rfl
  unfold decisionStep
  split
  · unfold promptedDecision
    split
    · exact complete_of_supersedes h rfl
    · exact h
  · exact hproposed
  · exact hproposed
  · intro c hc s hs
    rw [← Option.some.inj hc] at hs
    dsimp only [finalizedDecision] at hs
    cases hraw : extractSupersedes (field (e.datum "decodedPayload") "supersedes") with
    | some s' =>
      rw [hraw, Option.some_or] at hs
      rw [← Option.some.inj hs]
      exact extractSupersedes_canonical hraw
    | none =>
      rw [hraw, Option.none_or] at hs
      cases hd : d.current with
      | none =>
        rw [hd] at hs
        exact absurd hs nofun
      | some current =>
        rw [hd] at hs
        exact h current hd s hs
  · exact h

theorem applyEvents_complete {p : RunStateProjection N} (h : p.decision.Complete) (es : List (CanonicalEvent N)) :
    (applyEvents p es).decision.Complete := by
  rw [applyEvents_decision]
  exact List.foldlRecOn es decisionStep (motive := DecisionProjection.Complete) h fun d hd e _ =>
    decisionStep_complete hd e

theorem empty_complete (runId : String) : (RunStateProjection.empty runId : RunStateProjection N).decision.Complete :=
  fun _ h => absurd h nofun

/-- A stored projection comes back with fresh counters and no llm calls. -/
theorem get_ofProjection {p : RunStateProjection N} (h : p.decision.Complete) (version schemaVersion : Nat) :
    ProjectionService.get (some (ProjectionRow.ofProjection p version schemaVersion)) =
      some (p.rebook p.timeline {} .none) := by
  simp only [ProjectionService.get, ProjectionRow.ofProjection, Option.map_some, deriveMissingCanonical_of_complete h]
  rfl

omit [JsNumber N] in
private theorem ofProjection_rebook (p : RunStateProjection N) (o : OutboundMessageSummary) (l : LlmProjection N)
    (version schemaVersion : Nat) :
    ProjectionRow.ofProjection (p.rebook p.timeline o l) version schemaVersion =
      ProjectionRow.ofProjection p version schemaVersion := rfl

/-! ### Batch after batch -/

omit [JsNumber N] in
/-- The sequence number of the last event, or 0. -/
def lastSeq (es : List (CanonicalEvent N)) : Nat :=
  (es.getLast?.map (·.seq)).getD 0

/-- The row that stores the fold of a log. -/
def storedFold (runId : String) (es : List (CanonicalEvent N)) : ProjectionRow N :=
  .ofProjection (applyEvents (.empty runId) es) (lastSeq es) projectionSchemaVersion

/-- What `get` returns for the row that stores the fold of a log. -/
theorem get_storedFold (runId : String) (es : List (CanonicalEvent N)) :
    ProjectionService.get (some (storedFold runId es)) =
      some ((applyEvents (.empty runId) es).rebook (applyEvents (.empty runId) es).timeline {} .none) :=
  get_ofProjection (applyEvents_complete (empty_complete runId) es) _ _

omit [JsNumber N] in
private theorem lastSeq_append {es fs : List (CanonicalEvent N)} (hfs : fs ≠ []) : lastSeq (es ++ fs) = lastSeq fs := by
  unfold lastSeq
  rw [List.getLast?_append_of_ne_nil es hfs]

omit [JsNumber N] in
theorem IsLog.of_append {runId : String} {es fs : List (CanonicalEvent N)} (h : IsLog runId (es ++ fs)) :
    IsLog runId es := by
  refine ⟨?_, ?_, ?_⟩
  · intro e he
    exact h.run e (List.mem_append_left _ he)
  · intro e he
    exact h.positive e (List.mem_append_left _ he)
  · have hpair := h.increasing
    rw [List.map_append] at hpair
    exact (List.pairwise_append.1 hpair).1

omit [JsNumber N] in
/-- In a log a later part ends at a higher sequence number, so the version guard lets its write through. -/
theorem IsLog.lastSeq_lt {runId : String} {es fs : List (CanonicalEvent N)} (h : IsLog runId (es ++ fs))
    (hfs : fs ≠ []) :
    lastSeq es < lastSeq fs := by
  obtain ⟨init, e, rfl⟩ := (List.eq_nil_or_concat fs).resolve_left hfs
  have hlast : lastSeq (init.concat e) = e.seq := by
    rw [lastSeq, List.concat_eq_append, List.getLast?_concat]
    rfl
  have he : e ∈ es ++ init.concat e := by simp
  rw [hlast]
  rcases List.eq_nil_or_concat es with rfl | ⟨init', d, rfl⟩
  · exact h.positive e he
  · have hd : lastSeq (init'.concat d) = d.seq := by
      rw [lastSeq, List.concat_eq_append, List.getLast?_concat]
      rfl
    rw [hd]
    have hpair := h.increasing
    rw [List.map_append, List.pairwise_append] at hpair
    exact hpair.2.2 d.seq (List.mem_map_of_mem (by simp)) e.seq (List.mem_map_of_mem (by simp))

/-- A batch takes the row of a log to the row of the longer log. -/
theorem applyAndPersist_storedFold {runId : String} {es batch : List (CanonicalEvent N)}
    (hlog : IsLog runId (es ++ batch)) :
    (ProjectionService.applyAndPersist runId batch (some (storedFold runId es))).2 =
      storedFold runId (es ++ batch) := by
  have hrun : ∀ e ∈ es, e.runId = runId := fun e he => hlog.run e (List.mem_append_left _ he)
  have hfold : applyEvents (.empty runId) (es ++ batch) = applyEvents (applyEvents (.empty runId) es) batch :=
    applyEvents_append hrun
  unfold ProjectionService.applyAndPersist
  rw [get_storedFold]
  simp only [Option.getD_some, applyEvents_rebook]
  by_cases hbatch : batch = []
  · subst hbatch
    have hseq : (applyEvents (.empty runId : RunStateProjection N) es).timeline.latestSeq = lastSeq es :=
      latestSeq_applyEvents
    rw [List.append_nil]
    apply upsert_of_le
    exact Nat.le_of_eq hseq
  · obtain ⟨init, e, rfl⟩ := (List.eq_nil_or_concat batch).resolve_left hbatch
    have hlt : lastSeq es < lastSeq (init.concat e) := hlog.lastSeq_lt hbatch
    have hlast : lastSeq (init.concat e) = e.seq := by simp [lastSeq]
    rw [hlast] at hlt
    have hstored : storedFold runId (es ++ init.concat e) =
        .ofProjection (applyEvents (applyEvents (.empty runId) es) (init.concat e)) e.seq projectionSchemaVersion := by
      rw [storedFold, hfold, lastSeq_append hbatch, hlast]
    have hversion : ((init.concat e).getLast?.map (·.seq)) = some e.seq := by simp
    rw [hstored, hversion, ← applyEvents_timeline, Option.getD_some, upsert_of_lt hlt, ofProjection_rebook]

/-- Batch after batch stores the fold of the whole list. -/
theorem persistBatches_eq {runId : String} {batches : List (List (CanonicalEvent N))} (hne : batches ≠ [])
    (hlog : IsLog runId batches.flatten) :
    ProjectionService.persistBatches runId batches = some (storedFold runId batches.flatten) := by
  induction batches using List.reverseRecOn with
  | nil => exact absurd rfl hne
  | append_singleton batches batch ih =>
    rw [List.flatten_append, List.flatten_singleton] at hlog ⊢
    have hprefix : IsLog runId batches.flatten := hlog.of_append
    unfold ProjectionService.persistBatches at ih ⊢
    rw [List.foldl_append]
    by_cases hbatches : batches = []
    · subst hbatches
      rfl
    · rw [ih hbatches hprefix, List.foldl_cons, List.foldl_nil, applyAndPersist_storedFold hlog]

/-! ### What gets lost -/

/-- The event adds to a section that has no column. -/
def CountsUnstored (e : CanonicalEvent N) : Prop :=
  e.type = .messageSent ∨ e.type = .messageSendFailed ∨
    e.type = .llmCallCompleted ∧ truthy (e.datum "decodedPayload") = true

instance (e : CanonicalEvent N) : Decidable (CountsUnstored e) :=
  inferInstanceAs (Decidable (_ ∨ _ ∨ _ ∧ _))

/-- The number of messages and calls that the two sections count. -/
def unstoredCount (p : RunStateProjection N) : Nat :=
  p.outboundMessages.total + p.llm.callCount

private theorem llmCall_callCount (l : LlmProjection N) (e : CanonicalEvent N) :
    (llmCall l e).callCount = l.callCount + if truthy (e.datum "decodedPayload") then 1 else 0 := by
  unfold llmCall
  dsimp only
  split
  · rfl
  · rfl

/-- The two sections stay as they are under the other events. -/
theorem applyEvent_unstored (r : String) (p : RunStateProjection N) {e : CanonicalEvent N} (h : ¬ CountsUnstored e) :
    (applyEvent r p e).outboundMessages = p.outboundMessages ∧ (applyEvent r p e).llm = p.llm := by
  rw [applyEvent_outbound, applyEvent_llm]
  unfold CountsUnstored at h
  unfold outbound llm
  cases he : e.type with
  | messageSent => exact absurd (Or.inl he) h
  | messageSendFailed => exact absurd (Or.inr (Or.inl he)) h
  | llmCallCompleted =>
    have hpayload : ¬ truthy (e.datum "decodedPayload") = true := fun ht => h (Or.inr (Or.inr ⟨he, ht⟩))
    refine ⟨rfl, ?_⟩
    dsimp only [llmCall]
    rw [if_neg hpayload]
  | _ => exact ⟨rfl, rfl⟩

private theorem unstoredCount_applyEvent (r : String) (p : RunStateProjection N) (e : CanonicalEvent N) :
    unstoredCount (applyEvent r p e) = unstoredCount p + if CountsUnstored e then 1 else 0 := by
  by_cases h : CountsUnstored e
  · rw [if_pos h]
    unfold unstoredCount
    rw [applyEvent_outbound, applyEvent_llm]
    unfold outbound llm
    rcases h with he | he | ⟨he, hpayload⟩
    · rw [he]
      exact Nat.add_right_comm _ 1 _
    · rw [he]
      exact Nat.add_right_comm _ 1 _
    · simp only [he, llmCall_callCount, hpayload, if_true]
      omega
  · obtain ⟨ho, hl⟩ := applyEvent_unstored r p h
    rw [if_neg h, unstoredCount, ho, hl]
    rfl

private theorem unstoredCount_applyEvents (p : RunStateProjection N) (es : List (CanonicalEvent N)) :
    unstoredCount (applyEvents p es) = unstoredCount p + es.countP (CountsUnstored ·) := by
  unfold applyEvents
  generalize p.run.runId = r
  induction es generalizing p with
  | nil => rfl
  | cons e es ih =>
    rw [List.foldl_cons, ih, unstoredCount_applyEvent, List.countP_cons]
    simp only [decide_eq_true_eq]
    omega

private theorem applyEvents_unstored (p : RunStateProjection N) {es : List (CanonicalEvent N)}
    (h : ∀ e ∈ es, ¬ CountsUnstored e) :
    (applyEvents p es).outboundMessages = p.outboundMessages ∧ (applyEvents p es).llm = p.llm := by
  unfold applyEvents
  refine List.foldlRecOn es (applyEvent p.run.runId)
    (motive := fun q => q.outboundMessages = p.outboundMessages ∧ q.llm = p.llm) ⟨rfl, rfl⟩ ?_
  intro q hq e he
  obtain ⟨ho, hl⟩ := applyEvent_unstored p.run.runId q (h e he)
  exact ⟨ho.trans hq.1, hl.trans hq.2⟩

/-- Batch after batch gives the fold of the whole log exactly when there is a batch, and no event adds to a section
that has no column. -/
theorem get_persistBatches_iff {runId : String} {batches : List (List (CanonicalEvent N))}
    (hlog : IsLog runId batches.flatten) :
    ProjectionService.get (ProjectionService.persistBatches runId batches) =
        some (applyEvents (.empty runId) batches.flatten) ↔
      batches ≠ [] ∧ ∀ e ∈ batches.flatten, ¬ CountsUnstored e := by
  have hempty : unstoredCount (RunStateProjection.empty runId : RunStateProjection N) = 0 := rfl
  constructor
  · intro h
    have hne : batches ≠ [] := by
      rintro rfl
      exact absurd h nofun
    refine ⟨hne, ?_⟩
    rw [persistBatches_eq hne hlog, get_storedFold] at h
    have hcount := congrArg unstoredCount (Option.some.inj h)
    rw [unstoredCount_applyEvents, hempty, Nat.zero_add] at hcount
    have hzero : batches.flatten.countP (CountsUnstored ·) = 0 := hcount.symm
    intro e he hcounts
    exact absurd (decide_eq_true hcounts) (List.countP_eq_zero.1 hzero e he)
  · rintro ⟨hne, h⟩
    obtain ⟨ho, hl⟩ := applyEvents_unstored (.empty runId) h
    rw [persistBatches_eq hne hlog, get_storedFold]
    have hsame : (applyEvents (.empty runId) batches.flatten : RunStateProjection N) =
        (applyEvents (.empty runId) batches.flatten).rebook _ _ _ := (rebook_self _).symm
    rw [ho, hl] at hsame
    exact congrArg some hsame.symm

/-- Two batches without messages or calls come back as their fold. -/
theorem get_persistBatches_lifecycle :
    let started : CanonicalEvent (Option Rat) :=
      { id := "e1", runId := "run", seq := 1, ts := "10:00", type := .runStarted,
        source := ⟨.macpControlPlane, "run-manager", none⟩
        data := [("status", .str "starting")] }
    let bound : CanonicalEvent (Option Rat) :=
      { id := "e2", runId := "run", seq := 2, ts := "10:01", type := .sessionBound,
        source := ⟨.macpControlPlane, "run-manager", none⟩
        data := [("sessionId", .str "session")] }
    ProjectionService.get (ProjectionService.persistBatches "run" [[started], [bound]]) =
      some (applyEvents (.empty "run") [started, bound]) := by
  intro started bound
  have hlog : IsLog "run" [[started], [bound]].flatten := by
    refine ⟨?_, ?_, ?_⟩ <;> decide
  exact (get_persistBatches_iff hlog).2 ⟨nofun, by decide⟩

/-- A failed send is counted in the fold, and the counter is lost on the way through the table. -/
theorem get_persistBatches_sendFailed :
    ¬ ∀ (runId : String) (batches : List (List (CanonicalEvent (Option Rat)))),
      batches ≠ [] → IsLog runId batches.flatten →
      ProjectionService.get (ProjectionService.persistBatches runId batches) =
        some (applyEvents (.empty runId) batches.flatten) := by
  intro h
  let failed : CanonicalEvent (Option Rat) :=
    { id := "e1", runId := "run", seq := 1, ts := "10:00", type := .messageSendFailed,
      source := ⟨.runtime, "macp", none⟩, data := [] }
  have hlog : IsLog "run" [[failed]].flatten := by
    refine ⟨?_, ?_, ?_⟩ <;> decide
  have htotal : (some 0 : Option Nat) = some 1 :=
    congrArg (Option.map fun p => p.outboundMessages.total) (h "run" [[failed]] nofun hlog)
  exact absurd htotal (by decide)

end MacpControlPlane

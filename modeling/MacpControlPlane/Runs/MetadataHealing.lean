import MacpControlPlane.Projection.ReplayStream
import MacpControlPlane.Storage.RunRepository

/-!
# The metadata of an ended run (`RunManagerService.getRun`)

When a run has ended, `enrichRunMetadata` writes what it finds out about the decision into the metadata of the run.
That may be too early: `getRun` tries again as long as there is no `finalAction`, if the metrics have counted a
decision.

The statements succeed, and nothing comes between them.  `elapsed` is the difference of two timestamps in milliseconds.
-/

namespace MacpControlPlane

open Js EventRepository ReplayService

variable {N : Type} [JsNumber N]

/-- A row of `runs` with its metadata. -/
structure RunRecord (N : Type) where
  row : RunRow
  metadata : JsonObject N

/-- The fields of the metrics that end up in the metadata. -/
structure MetricsSummary (N : Type) where
  eventCount : Nat
  signalCount : Nat
  decisionCount : Nat
  durationMs : Option N

/-- What `getRun` reads: the row of the run, the canonical events, and the metrics of the run. -/
structure RunTables (N : Type) where
  run : Option (RunRecord N)
  events : CanonicalTable N
  metrics : Option (MetricsSummary N)

/-- What `getRun` returns, which is the row as it is afterwards, and the metadata that it has written. -/
structure RunRead (N : Type) where
  run : RunRecord N
  write : Option (JsonObject N) := none

omit [JsNumber N] in
/-- `{ ...fields, ...more }` -/
def spread (fields more : JsonObject N) : JsonObject N :=
  more ++ fields.filter fun f => (more.lookup f.1).isNone

namespace RunManagerService

variable (elapsed : String → String → N) (now : String)

/-- A count, unless it is zero. -/
def counted (n : Nat) : Option (Json N) := if n = 0 then none else some (.num (JsNumber.ofNat n))

/-- `decodedPayload?.action` of an event, unless it is falsy. -/
def actionOf (row : CanonicalRow N) : Option String :=
  let action := field (JsonObject.prop row.data "decodedPayload") "action"
  if truthy action then action.map Json.toJsString else none

/-- `enrichment` -/
def enrichment (run : RunRecord N) (metrics : Option (MetricsSummary N)) (events : List (CanonicalRow N)) :
    JsonObject N :=
  let decisionEvent := events.reverse.find? fun e => e.type = .decisionFinalized
  let decodedPayload := decisionEvent.bind fun e => JsonObject.prop e.data "decodedPayload"
  let durationMs :=
    match run.row.startedAt.filter (· ≠ ""), run.row.endedAt.filter (· ≠ "") with
    | some startedAt, some endedAt => some (elapsed startedAt endedAt)
    | _, _ => metrics.bind (·.durationMs)
  object
    [("durationMs", durationMs.map .num),
      ("eventCount", metrics.bind fun m => counted m.eventCount),
      ("signalCount", metrics.bind fun m => counted m.signalCount),
      ("decisionCount", metrics.bind fun m => counted m.decisionCount),
      ("finalAction", (decisionEvent.bind actionOf).map .str),
      ("finalConfidence", (defined (field decodedPayload "confidence")).map fun c => .num (toNumber (some c)))]

/-- `enrichRunMetadata`: the metadata that it writes. -/
def enrichRunMetadata (run : RunRecord N) (t : RunTables N) : Option (JsonObject N) :=
  let fields := enrichment elapsed run t.metrics (listCanonicalByRun t.events.rows run.row.id 0 2000)
  if fields.isEmpty then none else some (spread run.metadata fields)

def healStaleRunMetadata (run : RunRecord N) (t : RunTables N) : RunRead N :=
  if !run.row.status.terminal || (JsonObject.prop run.metadata "finalAction").isSome then { run }
  else if t.metrics.all (·.decisionCount = 0) then { run }
  else
    match enrichRunMetadata elapsed run t with
    | none => { run }
    | some metadata => { run := { row := { run.row with updatedAt := now }, metadata }, write := some metadata }

def getRun (runId : String) (t : RunTables N) : Except String (RunRead N) :=
  match t.run with
  | none => .error s!"run {runId} not found"
  | some run => .ok (healStaleRunMetadata elapsed now run t)

/-- After `getRun` the run has the action, and a further `getRun` finds nothing to write. -/
def Converges (runId : String) (t : RunTables N) (action : String) : Prop :=
  ∃ read, getRun elapsed now runId t = .ok read ∧
    JsonObject.prop read.run.metadata "finalAction" = some (.str action) ∧
    getRun elapsed now runId { t with run := some read.run } = .ok { run := read.run }

/-! ### What the heal finds -/

variable {elapsed now}

omit [JsNumber N] in
/-- The prefix that is read. -/
theorem listCanonicalByRun_zero (table : CanonicalTable N) (runId : String) (limit : Nat) :
    listCanonicalByRun table.rows runId 0 limit = (listCanonicalUpTo table.rows runId).take limit := by
  rw [← listCanonicalAfter_natCast, listCanonicalAfter_eq]
  congr 1
  rw [List.filter_eq_self]
  intro row hrow
  simpa using table.positive row (mem_listCanonicalUpTo.1 hrow).1

omit [JsNumber N] in
private theorem prop_spread (fields more : JsonObject N) (k : String) :
    JsonObject.prop (spread fields more) k = (JsonObject.prop more k).or (JsonObject.prop fields k) := by
  unfold spread JsonObject.prop
  rw [List.lookup_append]
  cases hmore : more.lookup k with
  | some v => rfl
  | none =>
    rw [Option.none_or, Option.none_or]
    induction fields with
    | nil => rfl
    | cons f fields ih =>
      by_cases hk : k = f.1
      · subst hk
        rw [List.filter_cons_of_pos (by simp [hmore]), List.lookup_cons, List.lookup_cons, beq_self_eq_true]
      · have hne : (k == f.1) = false := by simpa using hk
        rw [List.lookup_cons, hne, ← ih, List.filter_cons]
        split
        · rw [List.lookup_cons, hne]
        · rfl

private theorem prop_enrichment_finalAction (elapsed : String → String → N) (run : RunRecord N)
    (metrics : Option (MetricsSummary N)) (events : List (CanonicalRow N)) :
    JsonObject.prop (enrichment elapsed run metrics events) "finalAction" =
      ((events.reverse.find? fun e => e.type = .decisionFinalized).bind actionOf).map .str := by
  simp [enrichment]

omit [JsNumber N] in
/-- Where the last rows have no commitment, the last commitment of the log is among the first ones. -/
theorem find?_reverse_take {rows : List (CanonicalRow N)} {n : Nat} {p : CanonicalRow N → Bool}
    (h : ∀ row ∈ rows.drop n, p row = false) : (rows.take n).reverse.find? p = rows.reverse.find? p := by
  have hnone : (rows.drop n).reverse.find? p = none := by
    rw [List.find?_eq_none]
    intro row hrow
    simp [h row (List.mem_reverse.1 hrow)]
  have hsplit : rows.reverse = (rows.drop n).reverse ++ (rows.take n).reverse := by
    rw [← List.reverse_append, List.take_append_drop]
  rw [hsplit, List.find?_append, hnone, Option.none_or]

/-- A run that has been healed, or enriched, is left as it is. -/
theorem getRun_of_finalAction {runId : String} {t : RunTables N} {run : RunRecord N} (hrun : t.run = some run)
    (haction : (JsonObject.prop run.metadata "finalAction").isSome = true) :
    getRun elapsed now runId t = .ok { run } := by
  simp [getRun, healStaleRunMetadata, hrun, haction]

/-- A run without `finalAction` is given that of the last commitment among the events that are read. -/
theorem getRun_of_no_finalAction (elapsed : String → String → N) (now runId : String) {t : RunTables N}
    {run : RunRecord N} {metrics : MetricsSummary N} (hrun : t.run = some run)
    (hterminal : run.row.status.terminal = true) (hmetrics : t.metrics = some metrics)
    (hcounted : 0 < metrics.decisionCount) (hnone : JsonObject.prop run.metadata "finalAction" = none) :
    ∃ read, getRun elapsed now runId t = .ok read ∧ JsonObject.prop read.run.metadata "finalAction" =
      (((listCanonicalByRun t.events.rows run.row.id 0 2000).reverse.find?
        fun e => e.type = .decisionFinalized).bind actionOf).map .str := by
  set fields := enrichment elapsed run t.metrics (listCanonicalByRun t.events.rows run.row.id 0 2000) with hfields
  have haction := prop_enrichment_finalAction elapsed run t.metrics
    (listCanonicalByRun t.events.rows run.row.id 0 2000)
  rw [← hfields] at haction
  have hcount : t.metrics.all (·.decisionCount = 0) = false := by
    rw [hmetrics, Option.all_some, decide_eq_false_iff_not]
    omega
  cases hempty : fields.isEmpty with
  | true =>
    refine ⟨{ run }, ?_, ?_⟩
    · simp [getRun, healStaleRunMetadata, enrichRunMetadata, hrun, hterminal, hnone, hcount, ← hfields, hempty]
    · rw [← haction, hnone, List.isEmpty_iff.1 hempty]
      rfl
  | false =>
    refine ⟨⟨⟨{ run.row with updatedAt := now }, spread run.metadata fields⟩, some (spread run.metadata fields)⟩, ?_,
      ?_⟩
    · simp [getRun, healStaleRunMetadata, enrichRunMetadata, hrun, hterminal, hnone, hcount, ← hfields, hempty]
    · rw [prop_spread, hnone, Option.or_none, haction]

/-- `getRun` brings the action of the last commitment into the metadata, when there is none yet, the commitments are
among the first 2000 events, and the last one has an action.  A further call writes nothing, and neither does one that
finds an action, be it that of an earlier commitment. -/
theorem getRun_heals (elapsed : String → String → N) (now runId : String) {t : RunTables N} {run : RunRecord N}
    {metrics : MetricsSummary N} {action : String} (hrun : t.run = some run)
    (hterminal : run.row.status.terminal = true) (hmetrics : t.metrics = some metrics)
    (hcounted : 0 < metrics.decisionCount)
    (hearlier : ∀ row ∈ (listCanonicalUpTo t.events.rows run.row.id).drop 2000, row.type ≠ .decisionFinalized)
    (hlast : ((listCanonicalUpTo t.events.rows run.row.id).reverse.find?
      fun e => e.type = .decisionFinalized).bind actionOf = some action) :
    (JsonObject.prop run.metadata "finalAction" = none → Converges elapsed now runId t action) ∧
      ∀ v, JsonObject.prop run.metadata "finalAction" = some v → getRun elapsed now runId t = .ok { run } := by
  constructor
  · intro hnone
    have hfound : ((listCanonicalByRun t.events.rows run.row.id 0 2000).reverse.find?
        fun e => e.type = .decisionFinalized).bind actionOf = some action := by
      rw [listCanonicalByRun_zero, find?_reverse_take fun row hrow => decide_eq_false (hearlier row hrow)]
      exact hlast
    obtain ⟨read, hread, haction⟩ := getRun_of_no_finalAction elapsed now runId hrun hterminal hmetrics hcounted hnone
    rw [hfound, Option.map_some] at haction
    exact ⟨read, hread, haction, getRun_of_finalAction rfl (by simp [haction])⟩
  · intro v hv
    exact getRun_of_finalAction hrun (by simp [hv])

/-! ### Two commitments -/

def commitment (seq : Nat) (action : String) : CanonicalRow (Option Rat) where
  id := "e"
  runId := "r1"
  seq := seq
  ts := "2026-10-24T00:00:00.000Z"
  type := .decisionFinalized
  subjectKind := none
  subjectId := none
  sourceKind := "runtime"
  sourceName := "rust-runtime"
  rawType := none
  traceId := none
  spanId := none
  parentSpanId := none
  data := [("decodedPayload", .obj [("action", .str action)])]
  schemaVersion := 3

/-- The log of a run with a commitment. -/
def oneCommitment : CanonicalTable (Option Rat) where
  rows := [commitment 1 "approve"]
  unique := by decide
  positive := by decide

/-- The log with a later one. -/
def twoCommitments (action : String) : CanonicalTable (Option Rat) where
  rows := [commitment 1 "approve", commitment 2 action]
  unique := by simp [commitment]
  positive := by simp [commitment]

def reported (seq : Nat) : CanonicalRow (Option Rat) := { commitment seq "" with type := .progressReported }

/-- The commitment is preceded by 2000 other events. -/
def lateCommitmentRows : List (CanonicalRow (Option Rat)) :=
  (List.range' 1 2000).map reported ++ [commitment 2001 "approve"]

private theorem map_seq_lateCommitmentRows : lateCommitmentRows.map (·.seq) = List.range' 1 2001 := by
  have hmap : ((List.range' 1 2000).map reported).map (·.seq) = List.range' 1 2000 :=
    List.map_map.trans (List.map_id _)
  have hconcat : List.range' 1 (2000 + 1) = List.range' 1 2000 ++ [1 + 1 * 2000] := List.range'_concat
  exact List.map_append.trans ((congrArg (· ++ [2001]) hmap).trans hconcat.symm)

private theorem runId_lateCommitmentRows : ∀ row ∈ lateCommitmentRows, row.runId = "r1" := by
  intro row hrow
  rcases List.mem_append.1 hrow with hrow | hrow
  · obtain ⟨seq, -, rfl⟩ := List.mem_map.1 hrow
    rfl
  · rw [List.mem_singleton.1 hrow]
    rfl

def lateCommitment : CanonicalTable (Option Rat) where
  rows := lateCommitmentRows
  unique := by
    have hseqs : (lateCommitmentRows.map (·.seq)).Nodup := by
      rw [map_seq_lateCommitmentRows]
      exact List.nodup_range'
    refine List.Nodup.of_map Prod.snd ?_
    rw [List.map_map]
    exact hseqs
  positive := by
    intro row hrow
    have hmem : row.seq ∈ lateCommitmentRows.map (·.seq) := List.mem_map_of_mem hrow
    rw [map_seq_lateCommitmentRows, List.mem_range'_1] at hmem
    omega

/-- A run that has completed, with its metadata and its log. -/
def completedRun (metadata : JsonObject (Option Rat)) (events : CanonicalTable (Option Rat)) :
    RunTables (Option Rat) where
  run := some ⟨{ id := "r1", status := .completed }, metadata⟩
  events := events
  metrics := some { eventCount := 2, signalCount := 0, decisionCount := 1, durationMs := none }

private theorem listCanonicalUpTo_oneCommitment : listCanonicalUpTo oneCommitment.rows "r1" = oneCommitment.rows :=
  listCanonicalUpTo_of_increasing (by decide) (by decide)

private theorem listCanonicalUpTo_twoCommitments (action : String) :
    listCanonicalUpTo (twoCommitments action).rows "r1" = (twoCommitments action).rows :=
  listCanonicalUpTo_of_increasing (by simp [twoCommitments, commitment]) (by simp [twoCommitments, commitment])

private theorem listCanonicalUpTo_lateCommitment : listCanonicalUpTo lateCommitmentRows "r1" = lateCommitmentRows := by
  have hincreasing : (lateCommitmentRows.map (·.seq)).Pairwise (· < ·) := by
    rw [map_seq_lateCommitmentRows]
    exact List.pairwise_lt_range'
  exact listCanonicalUpTo_of_increasing runId_lateCommitmentRows hincreasing

theorem getRun_heals_oneCommitment :
    Converges (fun _ _ => none) "now" "r1" (completedRun [] oneCommitment) "approve" := by
  have hrun : (completedRun [] oneCommitment).run = some ⟨{ id := "r1", status := .completed }, []⟩ := rfl
  have hlog : listCanonicalUpTo (completedRun [] oneCommitment).events.rows "r1" = oneCommitment.rows :=
    listCanonicalUpTo_oneCommitment
  refine (getRun_heals (fun _ _ => none) "now" "r1" hrun rfl rfl (by decide) ?_ ?_).1 rfl
  · rw [hlog]
    exact List.forall_mem_nil _
  · rw [hlog]
    rfl

/-- A run that has `approve` keeps it. -/
theorem not_converges_of_approve {metadata : JsonObject (Option Rat)}
    (h : JsonObject.prop metadata "finalAction" = some (.str "approve")) (events : CanonicalTable (Option Rat)) :
    ¬Converges (fun _ _ => none) "now" "r1" (completedRun metadata events) "reject" := by
  rintro ⟨read, hread, haction, -⟩
  rw [getRun_of_finalAction rfl (by simp [h])] at hread
  obtain rfl := (Except.ok.inj hread).symm
  rw [h] at haction
  exact absurd haction (by decide)

/-- What a completed run without `finalAction` is given. -/
theorem getRun_completedRun {events : CanonicalTable (Option Rat)}
    (hlog : listCanonicalUpTo events.rows "r1" = events.rows) :
    ∃ read, getRun (fun _ _ => none) "now" "r1" (completedRun [] events) = .ok read ∧
      JsonObject.prop read.run.metadata "finalAction" =
        (((events.rows.take 2000).reverse.find? fun e => e.type = .decisionFinalized).bind actionOf).map .str := by
  have hrun : (completedRun [] events).run = some ⟨{ id := "r1", status := .completed }, []⟩ := rfl
  have hread : listCanonicalByRun (completedRun [] events).events.rows "r1" 0 2000 = events.rows.take 2000 := by
    rw [← hlog]
    exact listCanonicalByRun_zero events "r1" 2000
  rw [← hread]
  exact getRun_of_no_finalAction (fun _ _ => none) "now" "r1" hrun rfl rfl (by decide) rfl

/-- No commitment is among the rows that are read. -/
theorem find?_take_lateCommitment :
    (lateCommitmentRows.take 2000).reverse.find? (fun e => e.type = .decisionFinalized) = none := by
  have htake : lateCommitmentRows.take 2000 = (List.range' 1 2000).map reported := by
    refine List.take_left' ?_
    rw [List.length_map, List.length_range']
  rw [htake, List.find?_eq_none]
  intro row hrow
  obtain ⟨seq, -, rfl⟩ := List.mem_map.1 (List.mem_reverse.1 hrow)
  simp [reported]

/-- A commitment after the heal does not reach the metadata; nor does an earlier one, if the last has no action, or one
after 2000 other events. -/
theorem not_converges_later :
    (∃ read, getRun (fun _ _ => none) "now" "r1" (completedRun [] oneCommitment) = .ok read ∧
      JsonObject.prop read.run.metadata "finalAction" = some (.str "approve") ∧
      ¬Converges (fun _ _ => none) "now" "r1" (completedRun read.run.metadata (twoCommitments "reject")) "reject") ∧
    ¬Converges (fun _ _ => none) "now" "r1" (completedRun [] (twoCommitments "")) "approve" ∧
    ¬Converges (fun _ _ => none) "now" "r1" (completedRun [] lateCommitment) "approve" ∧
    ¬∀ (t : RunTables (Option Rat)) (run : RunRecord (Option Rat)) (metrics : MetricsSummary (Option Rat))
      (action : String), t.run = some run → run.row.status.terminal = true → t.metrics = some metrics →
      0 < metrics.decisionCount →
      ((listCanonicalUpTo t.events.rows run.row.id).reverse.findSome?
        fun row => if row.type = .decisionFinalized then actionOf row else none) = some action →
      Converges (fun _ _ => none) "now" run.row.id t action := by
  refine ⟨?_, ?_, ?_, ?_⟩
  · obtain ⟨read, hread, haction⟩ := getRun_completedRun listCanonicalUpTo_oneCommitment
    exact ⟨read, hread, haction, not_converges_of_approve haction _⟩
  · rintro ⟨read, hread, haction, -⟩
    obtain ⟨read', hread', hnone⟩ := getRun_completedRun (listCanonicalUpTo_twoCommitments "")
    rw [hread] at hread'
    rw [Except.ok.inj hread', hnone] at haction
    exact absurd haction (by decide +kernel)
  · rintro ⟨read, hread, haction, -⟩
    have hlog : listCanonicalUpTo lateCommitment.rows "r1" = lateCommitment.rows := listCanonicalUpTo_lateCommitment
    obtain ⟨read', hread', hnone⟩ := getRun_completedRun hlog
    rw [lateCommitment, find?_take_lateCommitment] at hnone
    rw [hread] at hread'
    rw [Except.ok.inj hread', hnone] at haction
    exact absurd haction nofun
  · intro hall
    have hlog : listCanonicalUpTo (completedRun [("finalAction", .str "approve")] (twoCommitments "reject")).events.rows
        "r1" = (twoCommitments "reject").rows := listCanonicalUpTo_twoCommitments "reject"
    have hconverges := hall (completedRun [("finalAction", .str "approve")] (twoCommitments "reject"))
      ⟨{ id := "r1", status := .completed }, [("finalAction", .str "approve")]⟩ _ "reject" rfl rfl rfl (by decide)
      (by rw [hlog]; rfl)
    exact not_converges_of_approve rfl _ hconverges

end RunManagerService

end MacpControlPlane

import Mathlib.Algebra.Order.Floor.Ring
import Mathlib.Data.Rat.Floor
import MacpControlPlane.Contracts
import MacpControlPlane.Lib.Grouping

/-!
# The dashboard overview (`dashboard/dashboard.service.ts`)

`getOverview` works out a lower bound and a bucket size, and hands both to a dozen queries.  Each query keeps the rows
from its lower bound on and aggregates them.  What the queries use of Postgres is a `Sql`; sums and averages are exact
here.  The lists of recent runs and the health of the runtime are left out.
-/

namespace MacpControlPlane

open Js Grouping

variable {N : Type}

namespace Dashboard

/-- An instant, in milliseconds. -/
abbrev Instant := Int

inductive Bucket where
  | minute | hour | day
  deriving DecidableEq

inductive Window where
  | h1 | h6 | h24 | d7 | d30

/-! ### The tables -/

/-- The columns of `runs` that the queries read. -/
structure Run where
  id : String
  status : RunStatus
  createdAt : Instant
  startedAt : Option Instant
  endedAt : Option Instant
  sourceRef : Option String
  errorCode : Option String
  /-- `metadata->>'scenarioRef'` -/
  scenarioRef : Option String
  /-- `metadata->>'environment'` -/
  environment : Option String

/-- The columns of `run_events_canonical` that the queries read. -/
structure Event (N : Type) where
  runId : String
  seq : Nat
  ts : Instant
  type : CanonicalEventType
  data : JsonObject N

/-- The columns of `run_metrics` that the queries read. -/
structure Metrics where
  runId : String
  totalTokens : Int
  estimatedCostUsd : Rat

structure Database (N : Type) where
  runs : List Run
  events : List (Event N)
  metrics : List Metrics

/-- What the service uses of Postgres and of the clock. -/
structure Sql (N : Type) where
  /-- `now()` and `new Date()` -/
  now : Instant
  /-- `text ILIKE pattern` -/
  ilike : String → String → Bool
  dateTrunc : Bucket → Instant → Instant
  /-- `(…->>k)::boolean` of a JSON value -/
  toBoolean : Json N → Option Bool
  /-- `::int` of a number -/
  toInt : Rat → Int
  /-- `String(bucket)` -/
  label : Instant → String

/-! ### The range and the filters -/

structure DashboardOverviewOptions where
  window : Option Window := none
  fromTs : Option Instant := none
  toTs : Option Instant := none
  scenarioRef : Option String := none
  environment : Option String := none

structure RunFilters where
  scenarioRef : Option String
  environment : Option String

def hour : Int := 60 * 60 * 1000

def bucketFromRange (fromTs toTs : Instant) : Bucket :=
  let diffMs := toTs - fromTs
  if diffMs ≤ 6 * hour then .minute
  else if diffMs ≤ 48 * hour then .hour
  else .day

/-- The length of a window. -/
def Window.interval : Window → Int
  | .h1 => hour
  | .h6 => 6 * hour
  | .h24 => 24 * hour
  | .d7 => 7 * 24 * hour
  | .d30 => 30 * 24 * hour

def Window.bucket : Window → Bucket
  | .h1 | .h6 => .minute
  | .h24 => .hour
  | .d7 | .d30 => .day

/-- `resolveWindow`: the cutoff and the bucket size. -/
def resolveWindow (sql : Sql N) (opts : DashboardOverviewOptions) : Instant × Bucket :=
  match opts.fromTs with
  | some fromTs => (fromTs, bucketFromRange fromTs (opts.toTs.getD sql.now))
  | none =>
    let window := opts.window.getD .h24
    (sql.now - window.interval, window.bucket)

def buildRunFilters (opts : DashboardOverviewOptions) : RunFilters := ⟨opts.scenarioRef, opts.environment⟩

/-- `runsWhereClause`: an empty string filters nothing. -/
def runsWhereClause (sql : Sql N) (filters : RunFilters) (r : Run) : Bool :=
  (filters.scenarioRef.all fun ref =>
    ref = "" || r.sourceRef = some ref || r.scenarioRef.any fun text => sql.ilike text ("%" ++ ref ++ "%")) &&
  filters.environment.all fun environment => environment = "" || r.environment = some environment

/-! ### Which rows the queries keep -/

section Queries

variable (sql : Sql N) (db : Database N) (cutoff : Instant) (bucket : Bucket) (filters : RunFilters)

/-- `FROM runs r WHERE r.created_at >= cutoff AND …` -/
def createdSince : List Run :=
  db.runs.filter fun r => cutoff ≤ r.createdAt && runsWhereClause sql filters r

/-- `FROM runs r WHERE r.ended_at IS NOT NULL AND r.ended_at >= cutoff AND …`, with the end. -/
def endedSince : List (Run × Instant) :=
  db.runs.filterMap fun r =>
    match r.endedAt with
    | some endedAt => if cutoff ≤ endedAt ∧ runsWhereClause sql filters r then some (r, endedAt) else none
    | none => none

/-- `FROM run_events_canonical e JOIN runs r ON r.id = e.run_id WHERE e.type = type AND e.ts >= cutoff AND …` -/
def eventsSince (type : CanonicalEventType) : List (Event N) :=
  (db.events.flatMap fun e => (db.runs.filter (·.id = e.runId)).map fun r => (e, r)).filterMap fun row =>
    if row.1.type = type ∧ cutoff ≤ row.1.ts ∧ runsWhereClause sql filters row.2 then some row.1 else none

/-- A completed run with its start and its end. -/
structure Finished where
  run : Run
  startedAt : Instant
  endedAt : Instant

/-- `WHERE r.status = 'completed' AND r.started_at IS NOT NULL AND r.ended_at IS NOT NULL`, of the runs created
since. -/
def finishedSince : List Finished :=
  (createdSince sql db cutoff filters).filterMap fun r =>
    match r.startedAt, r.endedAt with
    | some startedAt, some endedAt => if r.status = .completed then some ⟨r, startedAt, endedAt⟩ else none
    | _, _ => none

/-! ### The outcome of a decision -/

/-- One of the two columns for the outcome holds `sign`. -/
def outcomeIs (sign : Bool) (e : Event N) : Bool :=
  ["outcome_positive", "outcomePositive"].any fun k =>
    (defined (field (JsonObject.prop e.data "decodedPayload") k)).bind sql.toBoolean = some sign

/-- `ORDER BY e.seq DESC LIMIT 1` of the decisions of a run. -/
def latestDecision (r : Run) : Option (Event N) :=
  ((db.events.filter fun e => e.runId = r.id && e.type = .decisionFinalized).mergeSort fun a b => b.seq ≤ a.seq).head?

/-- `COALESCE(d.negative, false)` -/
def negative (r : Run) : Bool := (latestDecision db r).any (outcomeIs sql false)

/-! ### KPIs -/

structure Kpis where
  totalRuns : Nat
  activeRuns : Nat
  completedRuns : Nat
  declinedRuns : Nat
  failedRuns : Nat
  cancelledRuns : Nat
  successRate : Rat
  totalSignals : Nat
  totalTokens : Int
  totalCostUsd : Rat

def isActive (r : Run) : Bool := r.status ∈ [.queued, .starting, .bindingSession, .running, .suspended]

def isDeclined (r : Run) : Bool := r.status = .completed && negative sql db r

/-- `FROM run_metrics m JOIN runs r ON r.id = m.run_id WHERE r.created_at >= cutoff AND …` -/
def metricsSince : List (Metrics × Run) :=
  (db.metrics.flatMap fun m => (db.runs.filter (·.id = m.runId)).map fun r => (m, r)).filter fun row =>
    cutoff ≤ row.2.createdAt && runsWhereClause sql filters row.2

/-- `Math.round(x * 100) / 100` -/
def roundCents (x : Rat) : Rat := ⌊x * 100 + 1 / 2⌋ / 100

def getKpis : Kpis :=
  let runs := createdSince sql db cutoff filters
  let completedRuns := runs.countP (·.status = .completed)
  let failedRuns := runs.countP (·.status = .failed)
  let cancelledRuns := runs.countP (·.status = .cancelled)
  let declinedRuns := runs.countP (isDeclined sql db)
  let terminalRuns := completedRuns + failedRuns + cancelledRuns
  let metrics := metricsSince sql db cutoff filters
  { totalRuns := runs.length
    activeRuns := runs.countP isActive
    completedRuns
    declinedRuns
    failedRuns
    cancelledRuns
    successRate := if terminalRuns = 0 then 0 else ((completedRuns : Rat) - declinedRuns) / terminalRuns
    totalSignals := (eventsSince sql db cutoff filters .signalEmitted).length
    totalTokens := (metrics.map (·.1.totalTokens)).sum
    totalCostUsd := roundCents (metrics.map (·.1.estimatedCostUsd)).sum }

/-! ### Charts -/

structure Series where
  labels : List String
  data : List Rat

def toSeries (rows : List (String × Rat)) : Series := ⟨rows.map (·.1), rows.map (·.2)⟩

/-- `GROUP BY 1 ORDER BY 1`, where the first column is the bucket of an instant of the row. -/
def perBucket {α : Type} (ts : α → Instant) (value : List α → Rat) (rows : List α) : Series :=
  let groups := (groupBy (fun row => sql.dateTrunc bucket (ts row)) value rows).mergeSort fun a b => a.1 ≤ b.1
  toSeries (groups.map fun g => (sql.label g.1, g.2))

/-- `GROUP BY 1 ORDER BY cnt DESC LIMIT 10`, where the first column is a text. -/
def topTen (key : Run → String) (rows : List Run) : List (String × Nat) :=
  ((groupBy key List.length rows).mergeSort fun a b => b.2 ≤ a.2).take 10

def getRunVolume : Series :=
  perBucket sql bucket (·.createdAt) (fun rows => (rows.length : Rat)) (createdSince sql db cutoff filters)

def getSignalVolume : Series :=
  perBucket sql bucket (·.ts) (fun rows => (rows.length : Rat)) (eventsSince sql db cutoff filters .signalEmitted)

/-- `COALESCE(r.error_code, 'UNKNOWN')` -/
def errorClass (r : Run) : String := r.errorCode.getD "UNKNOWN"

/-- The runs of `getErrorClasses`. -/
def failedSince : List Run := (createdSince sql db cutoff filters).filter (·.status = .failed)

def getErrorClasses : Series :=
  toSeries ((topTen errorClass (failedSince sql db cutoff filters)).map fun g => (g.1, (g.2 : Rat)))

def Finished.durationMs (f : Finished) : Rat := ((f.endedAt - f.startedAt : Int) : Rat)

/-- `avg(…)::int` of the durations. -/
def avgMs (rows : List Finished) : Rat := sql.toInt ((rows.map (·.durationMs)).sum / rows.length)

/-- `getLatencyStats`: the average, and the series. -/
def getLatencyStats : Option Rat × Series :=
  let rows := finishedSince sql db cutoff filters
  (if rows = [] then none else some (avgMs sql rows), perBucket sql bucket (·.endedAt) (avgMs sql) rows)

def getThroughput : Series :=
  perBucket sql bucket (·.2) (fun rows => (rows.countP (·.1.status = .completed) : Rat))
    (endedSince sql db cutoff filters)

def isWaiting (r : Run) : Bool := r.status ∈ [.queued, .starting, .bindingSession]

def getQueueDepth : Series :=
  perBucket sql bucket (·.createdAt) (fun rows => (rows.countP isWaiting : Rat)) (createdSince sql db cutoff filters)

/-- `percentile_cont(fraction)` -/
def percentileCont (fraction : Rat) (xs : List Rat) : Rat :=
  let sorted := xs.mergeSort fun a b => a ≤ b
  let position := fraction * (sorted.length - 1)
  let low := sorted.getD ⌊position⌋.toNat 0
  let high := sorted.getD ⌈position⌉.toNat 0
  low + (position - ⌊position⌋) * (high - low)

/-- `getLatencyPercentiles`, of one fraction. -/
def getLatencyPercentiles (fraction : Rat) : Series :=
  perBucket sql bucket (·.endedAt) (fun rows => sql.toInt (percentileCont fraction (rows.map (·.durationMs))))
    (finishedSince sql db cutoff filters)

/-- `SUM(m.estimated_cost_usd)` over `runs r LEFT JOIN run_metrics m ON m.run_id = r.id` -/
def cost (rows : List Run) : Rat :=
  (rows.flatMap fun r => (db.metrics.filter (·.runId = r.id)).map (·.estimatedCostUsd)).sum

def getCostSeries : Series :=
  perBucket sql bucket (·.createdAt) (cost db) (createdSince sql db cutoff filters)

def isTerminal (r : Run) : Bool := r.status ∈ [.completed, .failed, .cancelled]

def successPercent (rows : List Run) : Rat :=
  if rows.countP isTerminal = 0 then 0
  else rows.countP (fun r => r.status = .completed && !negative sql db r) / rows.countP isTerminal * 100

def getSuccessRate : Series :=
  perBucket sql bucket (·.createdAt) (successPercent sql db) (createdSince sql db cutoff filters)

def getDecisionOutcome : Series :=
  perBucket sql bucket (·.ts)
    (fun rows => (rows.countP (outcomeIs sql true) : Rat) - rows.countP (outcomeIs sql false))
    (eventsSince sql db cutoff filters .decisionFinalized)

/-- `COALESCE(r.source_ref, 'unknown')` -/
def scenario (r : Run) : String := r.sourceRef.getD "unknown"

def getPerScenarioVolume : Series :=
  toSeries ((topTen scenario (createdSince sql db cutoff filters)).map fun g => (g.1, (g.2 : Rat)))

end Queries

/-! ### The overview -/

structure Charts where
  runVolume : Series
  latency : Series
  signalVolume : Series
  errorClasses : Series
  throughput : Series
  queueDepth : Series
  latencyP50 : Series
  latencyP95 : Series
  latencyP99 : Series
  cost : Series
  successRate : Series
  decisionOutcome : Series
  perScenario : Series

structure Overview where
  kpis : Kpis
  avgDurationMs : Option Rat
  charts : Charts

def getOverview (sql : Sql N) (db : Database N) (opts : DashboardOverviewOptions) : Overview :=
  let (cutoff, bucket) := resolveWindow sql opts
  let filters := buildRunFilters opts
  let latencyStats := getLatencyStats sql db cutoff bucket filters
  { kpis := getKpis sql db cutoff filters
    avgDurationMs := latencyStats.1
    charts :=
      { runVolume := getRunVolume sql db cutoff bucket filters
        latency := latencyStats.2
        signalVolume := getSignalVolume sql db cutoff bucket filters
        errorClasses := getErrorClasses sql db cutoff filters
        throughput := getThroughput sql db cutoff bucket filters
        queueDepth := getQueueDepth sql db cutoff bucket filters
        latencyP50 := getLatencyPercentiles sql db cutoff bucket filters (1 / 2)
        latencyP95 := getLatencyPercentiles sql db cutoff bucket filters (95 / 100)
        latencyP99 := getLatencyPercentiles sql db cutoff bucket filters (99 / 100)
        cost := getCostSeries sql db cutoff bucket filters
        successRate := getSuccessRate sql db cutoff bucket filters
        decisionOutcome := getDecisionOutcome sql db cutoff bucket filters
        perScenario := getPerScenarioVolume sql db cutoff filters } }

end Dashboard

end MacpControlPlane

import Mathlib.Algebra.BigOperators.Ring.Finset
import MacpControlPlane.Dashboard.DashboardService

/-!
# The range of the overview

Each KPI and chart of `getOverview` is what its query makes of the rows that it keeps, and it keeps them by a timestamp
that it compares with the lower bound.  With `from` and `to` the lower bound is `from`; `to` only chooses the bucket
size.
-/

namespace MacpControlPlane

open Js Grouping

variable {N : Type}

namespace Dashboard

/-- A KPI or a chart: its value, the rows that its query keeps, the timestamp it keeps them by, and what it makes of
them. -/
structure Figure where
  Row : Type
  Value : Type
  value : Value
  ts : Row → Instant
  rows : List Row
  aggregate : List Row → Value

/-- The value is what is made of rows of the range. -/
def Figure.CountsOnly (figure : Figure) (fromTs toTs : Instant) : Prop :=
  figure.value = figure.aggregate figure.rows ∧ ∀ row ∈ figure.rows, fromTs ≤ figure.ts row ∧ figure.ts row ≤ toTs

section Figures

variable (sql : Sql N) (db : Database N) (opts : DashboardOverviewOptions)

/-- The KPI `successRate`, of the runs that have ended. -/
def successShare (ended : List Run) : Rat :=
  if ended = [] then 0
  else ((ended.countP (·.status = .completed) : Rat) - ended.countP (isDeclined sql db)) / ended.length

/-- The KPIs of the overview.  A count with a `FILTER` counts the rows that pass it. -/
def kpiFigures : List Figure :=
  let cutoff := (resolveWindow sql opts).1
  let filters := buildRunFilters opts
  let runs := createdSince sql db cutoff filters
  let metrics := metricsSince sql db cutoff filters
  let kpis := (getOverview sql db opts).kpis
  [⟨Run, Nat, kpis.totalRuns, (·.createdAt), runs, List.length⟩,
    ⟨Run, Nat, kpis.activeRuns, (·.createdAt), runs.filter isActive, List.length⟩,
    ⟨Run, Nat, kpis.completedRuns, (·.createdAt), runs.filter (·.status = .completed), List.length⟩,
    ⟨Run, Nat, kpis.declinedRuns, (·.createdAt), runs.filter (isDeclined sql db), List.length⟩,
    ⟨Run, Nat, kpis.failedRuns, (·.createdAt), runs.filter (·.status = .failed), List.length⟩,
    ⟨Run, Nat, kpis.cancelledRuns, (·.createdAt), runs.filter (·.status = .cancelled), List.length⟩,
    ⟨Run, Rat, kpis.successRate, (·.createdAt), runs.filter isTerminal, successShare sql db⟩,
    ⟨Event N, Nat, kpis.totalSignals, (·.ts), eventsSince sql db cutoff filters .signalEmitted, List.length⟩,
    ⟨Metrics × Run, Int, kpis.totalTokens, (·.2.createdAt), metrics, fun rows => (rows.map (·.1.totalTokens)).sum⟩,
    ⟨Metrics × Run, Rat, kpis.totalCostUsd, (·.2.createdAt), metrics,
      fun rows => roundCents (rows.map (·.1.estimatedCostUsd)).sum⟩,
    ⟨Finished, Option Rat, (getOverview sql db opts).avgDurationMs, (·.run.createdAt),
      finishedSince sql db cutoff filters, fun rows => if rows = [] then none else some (avgMs sql rows)⟩]

/-- The charts of the overview. -/
def chartFigures : List Figure :=
  let cutoff := (resolveWindow sql opts).1
  let bucket := (resolveWindow sql opts).2
  let filters := buildRunFilters opts
  let runs := createdSince sql db cutoff filters
  let finished := finishedSince sql db cutoff filters
  let percentiles := fun fraction rows =>
    sql.toInt (percentileCont fraction (rows.map (Finished.durationMs)))
  let charts := (getOverview sql db opts).charts
  [⟨Run, Series, charts.runVolume, (·.createdAt), runs, perBucket sql bucket (·.createdAt) fun rows => rows.length⟩,
    ⟨Finished, Series, charts.latency, (·.run.createdAt), finished, perBucket sql bucket (·.endedAt) (avgMs sql)⟩,
    ⟨Event N, Series, charts.signalVolume, (·.ts), eventsSince sql db cutoff filters .signalEmitted,
      perBucket sql bucket (·.ts) fun rows => rows.length⟩,
    ⟨Run, Series, charts.errorClasses, (·.createdAt), failedSince sql db cutoff filters,
      fun rows => toSeries ((topTen errorClass rows).map fun g => (g.1, (g.2 : Rat)))⟩,
    ⟨Run × Instant, Series, charts.throughput, (·.2), endedSince sql db cutoff filters,
      perBucket sql bucket (·.2) fun rows => rows.countP (·.1.status = .completed)⟩,
    ⟨Run, Series, charts.queueDepth, (·.createdAt), runs,
      perBucket sql bucket (·.createdAt) fun rows => rows.countP isWaiting⟩,
    ⟨Finished, Series, charts.latencyP50, (·.run.createdAt), finished,
      perBucket sql bucket (·.endedAt) fun rows => percentiles (1 / 2) rows⟩,
    ⟨Finished, Series, charts.latencyP95, (·.run.createdAt), finished,
      perBucket sql bucket (·.endedAt) fun rows => percentiles (95 / 100) rows⟩,
    ⟨Finished, Series, charts.latencyP99, (·.run.createdAt), finished,
      perBucket sql bucket (·.endedAt) fun rows => percentiles (99 / 100) rows⟩,
    ⟨Run, Series, charts.cost, (·.createdAt), runs, perBucket sql bucket (·.createdAt) (cost db)⟩,
    ⟨Run, Series, charts.successRate, (·.createdAt), runs,
      perBucket sql bucket (·.createdAt) (successPercent sql db)⟩,
    ⟨Event N, Series, charts.decisionOutcome, (·.ts), eventsSince sql db cutoff filters .decisionFinalized,
      perBucket sql bucket (·.ts) fun rows =>
        (rows.countP (outcomeIs sql true) : Rat) - rows.countP (outcomeIs sql false)⟩,
    ⟨Run, Series, charts.perScenario, (·.createdAt), runs,
      fun rows => toSeries ((topTen scenario rows).map fun g => (g.1, (g.2 : Rat)))⟩]

/-- Every KPI and every chart of the overview counts only what lies in the range. -/
def CountsWithin (fromTs toTs : Instant) : Prop :=
  (∀ figure ∈ kpiFigures sql db opts, figure.CountsOnly fromTs toTs) ∧
    ∀ figure ∈ chartFigures sql db opts, figure.CountsOnly fromTs toTs

/-- The tables hold nothing later: of the runs that pass the filters, none is created and none ended later, and no
signal and no decision of theirs is later. -/
structure NothingAfter (toTs : Instant) : Prop where
  created : ∀ r ∈ db.runs, runsWhereClause sql (buildRunFilters opts) r = true → r.createdAt ≤ toTs
  ended : ∀ r ∈ db.runs, runsWhereClause sql (buildRunFilters opts) r = true → ∀ endedAt ∈ r.endedAt, endedAt ≤ toTs
  events : ∀ e ∈ db.events, ∀ r ∈ db.runs, r.id = e.runId → runsWhereClause sql (buildRunFilters opts) r = true →
    e.type = .signalEmitted ∨ e.type = .decisionFinalized → e.ts ≤ toTs

end Figures

/-! ### What the queries keep -/

variable {sql : Sql N} {db : Database N} {cutoff : Instant} {bucket : Bucket} {filters : RunFilters}

private theorem mem_createdSince {r : Run} : r ∈ createdSince sql db cutoff filters ↔
    r ∈ db.runs ∧ cutoff ≤ r.createdAt ∧ runsWhereClause sql filters r = true := by
  simp [createdSince]

private theorem mem_endedSince {row : Run × Instant} : row ∈ endedSince sql db cutoff filters ↔
    row.1 ∈ db.runs ∧ row.1.endedAt = some row.2 ∧ cutoff ≤ row.2 ∧ runsWhereClause sql filters row.1 = true := by
  obtain ⟨r, endedAt⟩ := row
  unfold endedSince
  rw [List.mem_filterMap]
  constructor
  · rintro ⟨r', hr', hrow⟩
    split at hrow
    · rename_i t ht
      rw [Option.ite_none_right_eq_some] at hrow
      obtain ⟨⟨hcutoff, hwhere⟩, heq⟩ := hrow
      cases heq
      exact ⟨hr', ht, hcutoff, hwhere⟩
    · cases hrow
  · rintro ⟨hr, hended, hcutoff, hwhere⟩
    refine ⟨r, hr, ?_⟩
    rw [hended]
    exact if_pos ⟨hcutoff, hwhere⟩

private theorem mem_eventsSince {type : CanonicalEventType} {e : Event N} : e ∈ eventsSince sql db cutoff filters type ↔
    e ∈ db.events ∧ e.type = type ∧ cutoff ≤ e.ts ∧
      ∃ r ∈ db.runs, r.id = e.runId ∧ runsWhereClause sql filters r = true := by
  unfold eventsSince
  simp only [List.mem_filterMap, List.mem_flatMap, List.mem_map, List.mem_filter, decide_eq_true_eq,
    Option.ite_none_right_eq_some, Option.some.injEq]
  constructor
  · rintro ⟨_, ⟨e', he', r, ⟨hr, hid⟩, rfl⟩, ⟨htype, hcutoff, hwhere⟩, rfl⟩
    exact ⟨he', htype, hcutoff, r, hr, hid, hwhere⟩
  · rintro ⟨he, htype, hcutoff, r, hr, hid, hwhere⟩
    exact ⟨(e, r), ⟨e, he, r, ⟨hr, hid⟩, rfl⟩, ⟨htype, hcutoff, hwhere⟩, rfl⟩

private theorem run_of_mem_finishedSince {f : Finished} (h : f ∈ finishedSince sql db cutoff filters) :
    f.run ∈ createdSince sql db cutoff filters := by
  unfold finishedSince at h
  obtain ⟨r, hr, hrow⟩ := List.mem_filterMap.1 h
  split at hrow
  · rw [Option.ite_none_right_eq_some] at hrow
    obtain ⟨-, heq⟩ := hrow
    cases heq
    exact hr
  · cases hrow

private theorem run_of_mem_metricsSince {row : Metrics × Run} (h : row ∈ metricsSince sql db cutoff filters) :
    row.2 ∈ createdSince sql db cutoff filters := by
  unfold metricsSince at h
  simp only [List.mem_filter, List.mem_flatMap, List.mem_map, Bool.and_eq_true, decide_eq_true_eq] at h
  obtain ⟨⟨m, -, r, ⟨hr, -⟩, rfl⟩, hcutoff, hwhere⟩ := h
  exact mem_createdSince.2 ⟨hr, hcutoff, hwhere⟩

/-! ### Charts add up to what they count -/

private theorem sum_perBucket_countP {α : Type} (ts : α → Instant) (p : α → Bool) (rows : List α) :
    (perBucket sql bucket ts (fun rows => (rows.countP p : Rat)) rows).data.sum = rows.countP p := by
  have hperm := (List.mergeSort_perm
    (groupBy (fun row => sql.dateTrunc bucket (ts row)) (fun rows => (rows.countP p : Rat)) rows)
    fun a b => a.1 ≤ b.1).map Prod.snd
  have hsum : ((groupBy (fun row => sql.dateTrunc bucket (ts row)) (List.countP p) rows).map Prod.snd).sum =
      rows.countP p := sum_groupBy_countP p
  have hcast :
      (groupBy (fun row => sql.dateTrunc bucket (ts row)) (fun rows => (rows.countP p : Rat)) rows).map Prod.snd =
        ((groupBy (fun row => sql.dateTrunc bucket (ts row)) (List.countP p) rows).map Prod.snd).map Nat.cast := by
    simp only [groupBy, List.map_map]
    rfl
  have hsnd : (Prod.snd ∘ fun g : Instant × Rat => (sql.label g.1, g.2)) = Prod.snd := rfl
  unfold perBucket toSeries
  simp only [List.map_map]
  rw [hsnd, hperm.sum_eq, hcast, ← Nat.cast_list_sum, hsum]

private theorem sum_perBucket_length {α : Type} (ts : α → Instant) (rows : List α) :
    (perBucket sql bucket ts (fun rows => (rows.length : Rat)) rows).data.sum = rows.length := by
  have hsum : (perBucket sql bucket ts (fun rows => (rows.countP (fun _ => true) : Rat)) rows).data.sum =
      rows.countP (fun _ => true) := sum_perBucket_countP ts (fun _ => true) rows
  simpa only [List.countP_true] using hsum

/-! ### What the figures are made of -/

section Aggregates

variable (sql : Sql N) (db : Database N)

private theorem countP_isTerminal (runs : List Run) :
    runs.countP (·.status = .completed) + runs.countP (·.status = .failed) + runs.countP (·.status = .cancelled) =
      (runs.filter isTerminal).length := by
  induction runs with
  | nil => rfl
  | cons r runs ih =>
    simp only [List.countP_cons, List.filter_cons]
    cases hstatus : r.status <;> simp [isTerminal, hstatus] <;> omega

/-- The rate over all runs reads only the ones that have ended. -/
theorem successShare_filter (runs : List Run) :
    successShare sql db (runs.filter isTerminal) =
      if runs.countP (·.status = .completed) + runs.countP (·.status = .failed) +
          runs.countP (·.status = .cancelled) = 0 then 0
      else ((runs.countP (·.status = .completed) : Rat) - runs.countP (isDeclined sql db)) /
        ((runs.countP (·.status = .completed) + runs.countP (·.status = .failed) +
          runs.countP (·.status = .cancelled) : Nat) : Rat) := by
  have hcompleted : (runs.filter isTerminal).countP (·.status = .completed) = runs.countP (·.status = .completed) := by
    rw [List.countP_filter]
    refine List.countP_congr fun r _ => ?_
    cases hstatus : r.status <;> simp [isTerminal, hstatus]
  have hdeclined : (runs.filter isTerminal).countP (isDeclined sql db) = runs.countP (isDeclined sql db) := by
    rw [List.countP_filter]
    refine List.countP_congr fun r _ => ?_
    cases hstatus : r.status <;> simp [isTerminal, isDeclined, hstatus]
  unfold successShare
  rw [hcompleted, hdeclined, countP_isTerminal]
  simp only [← List.length_eq_zero_iff]

end Aggregates

section Overview

variable (sql : Sql N) (db : Database N) (opts : DashboardOverviewOptions)

/-- Every figure of the overview is made of the rows that its query keeps. -/
theorem kpi_aggregate : ∀ figure ∈ kpiFigures sql db opts, figure.value = figure.aggregate figure.rows := by
  simp only [kpiFigures, List.forall_mem_cons]
  refine ⟨rfl, ?_, ?_, ?_, ?_, ?_, (successShare_filter sql db _).symm, rfl, rfl, rfl, rfl, by simp⟩ <;>
  exact List.countP_eq_length_filter

private theorem chart_aggregate : ∀ figure ∈ chartFigures sql db opts, figure.value = figure.aggregate figure.rows := by
  simp only [chartFigures, List.forall_mem_cons]
  exact ⟨rfl, rfl, rfl, rfl, rfl, rfl, rfl, rfl, rfl, rfl, rfl, rfl, rfl, by simp⟩

private theorem sum_runVolume :
    (getOverview sql db opts).charts.runVolume.data.sum = (getOverview sql db opts).kpis.totalRuns :=
  sum_perBucket_length Run.createdAt (createdSince sql db (resolveWindow sql opts).1 (buildRunFilters opts))

end Overview

/-! ### The range -/

variable {opts : DashboardOverviewOptions} {fromTs toTs : Instant}

/-- Each figure keeps runs that are created, or ended, or whose events happen, from the lower bound on. -/
theorem CountsWithin.of_nothingAfter (hfrom : opts.fromTs = some fromTs) (h : NothingAfter sql db opts toTs) :
    CountsWithin sql db opts fromTs toTs := by
  have hcutoff : (resolveWindow sql opts).1 = fromTs := by
    unfold resolveWindow
    rw [hfrom]
  have hcreated : ∀ r ∈ createdSince sql db fromTs (buildRunFilters opts),
      fromTs ≤ r.createdAt ∧ r.createdAt ≤ toTs := by
    intro r hr
    obtain ⟨hmem, hle, hwhere⟩ := mem_createdSince.1 hr
    exact ⟨hle, h.created r hmem hwhere⟩
  have hruns : ∀ (p : Run → Bool), ∀ r ∈ (createdSince sql db fromTs (buildRunFilters opts)).filter p,
      fromTs ≤ r.createdAt ∧ r.createdAt ≤ toTs := fun p r hr => hcreated r (List.mem_filter.1 hr).1
  have hfinished : ∀ f ∈ finishedSince sql db fromTs (buildRunFilters opts),
      fromTs ≤ f.run.createdAt ∧ f.run.createdAt ≤ toTs := fun f hf => hcreated f.run (run_of_mem_finishedSince hf)
  have hmetrics : ∀ row ∈ metricsSince sql db fromTs (buildRunFilters opts),
      fromTs ≤ row.2.createdAt ∧ row.2.createdAt ≤ toTs := fun row hrow =>
    hcreated row.2 (run_of_mem_metricsSince hrow)
  have hended : ∀ row ∈ endedSince sql db fromTs (buildRunFilters opts), fromTs ≤ row.2 ∧ row.2 ≤ toTs := by
    intro row hrow
    obtain ⟨hmem, hended, hle, hwhere⟩ := mem_endedSince.1 hrow
    exact ⟨hle, h.ended row.1 hmem hwhere row.2 hended⟩
  have hevents : ∀ type, type = .signalEmitted ∨ type = .decisionFinalized →
      ∀ e ∈ eventsSince sql db fromTs (buildRunFilters opts) type, fromTs ≤ e.ts ∧ e.ts ≤ toTs := by
    intro type hkind e he
    obtain ⟨hmem, rfl, hle, r, hr, hid, hwhere⟩ := mem_eventsSince.1 he
    exact ⟨hle, h.events e hmem r hr hid hwhere hkind⟩
  refine ⟨fun figure hfigure => ⟨kpi_aggregate sql db opts figure hfigure, ?_⟩,
    fun figure hfigure => ⟨chart_aggregate sql db opts figure hfigure, ?_⟩⟩
  · revert figure
    simp only [kpiFigures, List.forall_mem_cons, hcutoff]
    exact ⟨hcreated, hruns _, hruns _, hruns _, hruns _, hruns _, hruns _, hevents _ (.inl rfl), hmetrics, hmetrics,
      hfinished, by simp⟩
  · revert figure
    simp only [chartFigures, List.forall_mem_cons, hcutoff]
    exact ⟨hcreated, hfinished, hevents _ (.inl rfl), hruns _, hended, hcreated, hfinished, hfinished, hfinished,
      hcreated, hcreated, hevents _ (.inr rfl), hcreated, by simp⟩

/-- Whatever the range, what lies after its end is counted. -/
theorem NothingAfter.of_countsWithin (hfrom : opts.fromTs = some fromTs) (hle : fromTs ≤ toTs)
    (h : CountsWithin sql db opts fromTs toTs) : NothingAfter sql db opts toTs := by
  have hcutoff : (resolveWindow sql opts).1 = fromTs := by
    unfold resolveWindow
    rw [hfrom]
  obtain ⟨hkpis, hcharts⟩ := h
  simp only [kpiFigures, List.forall_mem_cons, hcutoff] at hkpis
  simp only [chartFigures, List.forall_mem_cons, hcutoff] at hcharts
  obtain ⟨⟨-, hruns⟩, -, -, -, -, -, -, ⟨-, hsignals⟩, -⟩ := hkpis
  obtain ⟨-, -, -, -, ⟨-, hended⟩, -, -, -, -, -, -, ⟨-, hdecisions⟩, -⟩ := hcharts
  refine ⟨fun r hr hwhere => ?_, fun r hr hwhere endedAt hend => ?_, fun e he r hr hid hwhere hkind => ?_⟩
  · by_contra hafter
    exact hafter (hruns r (mem_createdSince.2 ⟨hr, hle.trans (le_of_not_ge hafter), hwhere⟩)).2
  · by_contra hafter
    exact hafter (hended (r, endedAt) (mem_endedSince.2 ⟨hr, hend, hle.trans (le_of_not_ge hafter), hwhere⟩)).2
  · by_contra hafter
    have hmem : ∀ type, e.type = type → e ∈ eventsSince sql db fromTs (buildRunFilters opts) type := fun type htype =>
      mem_eventsSince.2 ⟨he, htype, hle.trans (le_of_not_ge hafter), r, hr, hid, hwhere⟩
    rcases hkind with htype | htype
    · exact hafter (hsignals e (hmem _ htype)).2
    · exact hafter (hdecisions e (hmem _ htype)).2

/-- The options with a range. -/
def DashboardOverviewOptions.between (opts : DashboardOverviewOptions) (fromTs toTs : Instant) :
    DashboardOverviewOptions :=
  { opts with fromTs := some fromTs, toTs := some toTs }

/-- With a range, the figures count only what lies in it, and the runs per bucket add up to the runs, exactly when the
tables hold nothing after its end. -/
theorem overview_within_iff (sql : Sql N) (db : Database N) (opts : DashboardOverviewOptions) {fromTs toTs : Instant}
    (hle : fromTs ≤ toTs) :
    let opts := opts.between fromTs toTs
    CountsWithin sql db opts fromTs toTs ∧
        (getOverview sql db opts).charts.runVolume.data.sum = (getOverview sql db opts).kpis.totalRuns ↔
      NothingAfter sql db opts toTs := by
  intro opts
  constructor
  · rintro ⟨hwithin, -⟩
    exact NothingAfter.of_countsWithin rfl hle hwithin
  · exact fun h => ⟨CountsWithin.of_nothingAfter rfl h, sum_runVolume sql db opts⟩

/-! ### A run after the range -/

/-- Postgres, as far as the queries need it of whole hours and of no texts. -/
def plainSql : Sql (Option Rat) where
  now := 0
  ilike _ _ := false
  dateTrunc
    | .minute, t => t - t % 60000
    | .hour, t => t - t % hour
    | .day, t => t - t % (24 * hour)
  toBoolean
    | .bool b => some b
    | _ => none
  toInt x := ⌊x + 1 / 2⌋
  label := toString

/-- A run that is created in the third hour. -/
def lateRun : Run where
  id := "r1"
  status := .running
  createdAt := 3 * hour
  startedAt := none
  endedAt := none
  sourceRef := none
  errorCode := none
  scenarioRef := none
  environment := none

theorem overview_within_iff_late :
    let opts := DashboardOverviewOptions.between {} 0 (2 * hour)
    CountsWithin plainSql ⟨[lateRun], [], []⟩ opts 0 (2 * hour) ∧
        (getOverview plainSql ⟨[lateRun], [], []⟩ opts).charts.runVolume.data.sum =
          (getOverview plainSql ⟨[lateRun], [], []⟩ opts).kpis.totalRuns ↔
      NothingAfter plainSql ⟨[lateRun], [], []⟩ opts (2 * hour) :=
  overview_within_iff plainSql ⟨[lateRun], [], []⟩ {} (by decide)

/-- The overview of the first two hours counts the run. -/
theorem late_run_counted :
    let opts := DashboardOverviewOptions.between {} 0 (2 * hour)
    (getOverview plainSql ⟨[lateRun], [], []⟩ opts).kpis.totalRuns = 1 ∧
      ¬ CountsWithin plainSql ⟨[lateRun], [], []⟩ opts 0 (2 * hour) := by
  refine ⟨by decide, fun h => ?_⟩
  have hfigure := h.1
  simp only [kpiFigures, List.forall_mem_cons] at hfigure
  have hmem : lateRun ∈ createdSince plainSql ⟨[lateRun], [], []⟩ 0 (buildRunFilters {}) :=
    mem_createdSince.2 ⟨List.mem_singleton_self _, by decide, by decide⟩
  exact absurd (hfigure.1.2 lateRun hmem).2 (by decide)

end Dashboard

end MacpControlPlane

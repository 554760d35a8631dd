import Mathlib.Data.List.Infix
import MacpControlPlane.Runs.RunRecovery
import MacpControlPlane.Runtime.CircuitBreaker
import MacpControlPlane.Runtime.ListSessions

/-!
# Drift between the runtime and the runs (`AdminController.getRuntimeSessionDrift`)

The endpoint drains the session list of the runtime and then compares its live sessions with the active runs, in both
directions.
-/

namespace MacpControlPlane.SessionDrift

open Js ListSessions

variable {N : Type}

/-- What `listSessions` throws. -/
inductive ListError where
  | httpException (errorCode message : String)
  | error (message : String)
  | other
  deriving DecidableEq

/-- What the endpoint throws. -/
inductive DriftError where
  | rethrown (error : ListError)
  /-- `CIRCUIT_BREAKER_OPEN`, with the status 503. -/
  | circuitBreakerOpen (message : String)
  deriving DecidableEq

def translated : ListError → DriftError
  | .error message =>
    if CircuitBreaker.circuitBreakerOpenMessage.toList <:+: message.toList then .circuitBreakerOpen message
    else .rethrown (.error message)
  | error => .rethrown error

structure DriftReport (N : Type) where
  complete : Bool
  runtimeSessionCount : Nat
  liveRuntimeSessionCount : Nat
  trackedRunCount : Nat
  untrackedSessions : List (TimedSessionSnapshot N)
  /-- The ids of the run and of its session. -/
  missingFromRuntime : Option (List (String × String))

def isLive (session : TimedSessionSnapshot N) : Bool :=
  session.state = "SESSION_STATE_OPEN" || session.state = "SESSION_STATE_SUSPENDED"

/-- `listActiveRuns` -/
def listActiveRuns (rows : List RunRow) : List RunRow := rows.filter (·.status ∈ RunRecovery.activeStatuses)

/-- `run.runtimeSessionId`, where it is truthy. -/
def boundSession (run : RunRow) : Option String := run.runtimeSessionId.filter (· ≠ "")

def report (result : RuntimeListSessionsResult N) (rows : List RunRow) : DriftReport N :=
  let activeRuns := listActiveRuns rows
  let trackedSessionIds := activeRuns.filterMap boundSession
  let liveSessions := result.sessions.filter isLive
  let runtimeSessionIds := liveSessions.map (·.sessionId)
  { complete := result.complete
    runtimeSessionCount := result.sessions.length
    liveRuntimeSessionCount := liveSessions.length
    trackedRunCount := activeRuns.length
    untrackedSessions := liveSessions.filter (·.sessionId ∉ trackedSessionIds)
    missingFromRuntime :=
      if result.complete then
        some ((activeRuns.filter (·.status ≠ .starting)).filterMap fun run =>
          ((boundSession run).filter (· ∉ runtimeSessionIds)).map fun sessionId => (run.id, sessionId))
      else none }

def getRuntimeSessionDrift (listed : Except ListError (RuntimeListSessionsResult N)) (rows : List RunRow) :
    Except DriftError (DriftReport N) :=
  match listed with
  | .error error => .error (translated error)
  | .ok result => .ok (report result rows)

/-! ### What the two sides are -/

/-- A live session of the runtime. -/
def Live [JsNumber N] (store : SessionStore) (session : TimedSessionSnapshot N) : Prop :=
  (∃ metadata ∈ store.sessions, fromSessionMetadata metadata = session) ∧ isLive session = true

/-- An active run that is bound to the session, or is to be. -/
def Tracked (rows : List RunRow) (sessionId : String) : Prop :=
  ∃ row ∈ rows, row.status ∈ RunRecovery.activeStatuses ∧ boundSession row = some sessionId

/-- A run that should have a live session and has none. -/
def Missing (N : Type) [JsNumber N] (store : SessionStore) (rows : List RunRow) (runId sessionId : String) : Prop :=
  (∃ row ∈ rows, row.id = runId ∧ row.status ∈ RunRecovery.activeStatuses ∧ row.status ≠ .starting ∧
    boundSession row = some sessionId) ∧
    ∀ session : TimedSessionSnapshot N, Live store session → session.sessionId ≠ sessionId

variable [JsNumber N] {store : SessionStore} {result : RuntimeListSessionsResult N} {rows : List RunRow}

omit [JsNumber N] in
private theorem mem_trackedSessionIds {sessionId : String} :
    sessionId ∈ (listActiveRuns rows).filterMap boundSession ↔ Tracked rows sessionId := by
  unfold Tracked listActiveRuns
  simp only [List.mem_filterMap, List.mem_filter, decide_eq_true_eq, and_assoc]

omit [JsNumber N] in
private theorem mem_untrackedSessions {session : TimedSessionSnapshot N} :
    session ∈ (report result rows).untrackedSessions ↔
      session ∈ result.sessions ∧ isLive session = true ∧ ¬ Tracked rows session.sessionId := by
  unfold report
  simp only [List.mem_filter, decide_eq_true_eq, mem_trackedSessionIds, and_assoc]

/-- The sessions of a result are sessions of the store. -/
theorem exists_of_drained (h : store.Drained result) {session : TimedSessionSnapshot N}
    (hsession : session ∈ result.sessions) : ∃ metadata ∈ store.sessions, fromSessionMetadata metadata = session := by
  unfold SessionStore.Drained at h
  split at h
  · rw [h] at hsession
    exact List.mem_map.1 hsession
  · exact List.mem_map.1 (h.subset hsession)

/-- What the report says of a result that has the sessions of the store, or the first of them. -/
theorem report_of_drained (h : store.Drained result) :
    (∀ session ∈ (report result rows).untrackedSessions, Live store session ∧ ¬ Tracked rows session.sessionId) ∧
      (result.complete = false → (report result rows).missingFromRuntime = none) ∧
      (result.complete = true →
        (∀ session : TimedSessionSnapshot N, Live store session → ¬ Tracked rows session.sessionId →
          session ∈ (report result rows).untrackedSessions) ∧
        ∃ missing, (report result rows).missingFromRuntime = some missing ∧
          ∀ runId sessionId, (runId, sessionId) ∈ missing ↔ Missing N store rows runId sessionId) := by
  refine ⟨fun session hsession => ?_, fun hpartial => ?_, fun hcomplete => ⟨fun session hlive htracked => ?_, ?_⟩⟩
  · obtain ⟨hmem, hlive, htracked⟩ := mem_untrackedSessions.1 hsession
    exact ⟨⟨exists_of_drained h hmem, hlive⟩, htracked⟩
  · simp [report, hpartial]
  · obtain ⟨⟨metadata, hmetadata, rfl⟩, hlive⟩ := hlive
    unfold SessionStore.Drained at h
    rw [if_pos hcomplete] at h
    refine mem_untrackedSessions.2 ⟨?_, hlive, htracked⟩
    rw [h]
    exact List.mem_map_of_mem hmetadata
  · refine ⟨_, if_pos hcomplete, fun runId sessionId => ?_⟩
    have hlive : ∀ sessionId : String, sessionId ∈ (result.sessions.filter isLive).map (·.sessionId) ↔
        ∃ session : TimedSessionSnapshot N, Live store session ∧ session.sessionId = sessionId := by
      intro sessionId
      unfold SessionStore.Drained at h
      rw [if_pos hcomplete] at h
      simp only [List.mem_map, List.mem_filter, h, Live]
    simp only [List.mem_filterMap, List.mem_filter, decide_eq_true_eq, Option.map_eq_some_iff,
      Option.filter_eq_some_iff, Prod.mk.injEq, hlive, listActiveRuns, Missing]
    constructor
    · rintro ⟨row, ⟨⟨hrow, hactive⟩, hstarting⟩, bound, ⟨hbound, hnone⟩, rfl, rfl⟩
      exact ⟨⟨row, hrow, rfl, hactive, hstarting, hbound⟩, fun session hsession hid => hnone ⟨session, hsession, hid⟩⟩
    · rintro ⟨⟨row, hrow, rfl, hactive, hstarting, hbound⟩, hnone⟩
      exact ⟨row, ⟨⟨hrow, hactive⟩, hstarting⟩, sessionId, ⟨hbound, fun ⟨session, hsession, hid⟩ =>
        hnone session hsession hid⟩, rfl, rfl⟩

/-- Against a runtime that serves the pages of a list, whatever the sizes of the pages, the failures and the clock: an
untracked session of the report is a live one that no active run is bound to; where the drain was cut short nothing is
said of missing ones; and where it was not, the report has all untracked sessions and exactly the runs whose session is
missing. -/
theorem getRuntimeSessionDrift_exact {config : ListSessionsConfig} {rounds : Nat → Round} {startedAt : Int} {fuel : Nat}
    {run : ListSessions.Run N} (hanswers : store.Answers rounds)
    (hrun : listSessions config rounds startedAt fuel = some run) (hresult : run.outcome = .ok result)
    (rows : List RunRow) :
    ∃ drift, getRuntimeSessionDrift (.ok result) rows = .ok drift ∧ drift.complete = result.complete ∧
      (∀ session ∈ drift.untrackedSessions, Live store session ∧ ¬ Tracked rows session.sessionId) ∧
      (drift.complete = false → drift.missingFromRuntime = none) ∧
      (drift.complete = true →
        (∀ session : TimedSessionSnapshot N, Live store session → ¬ Tracked rows session.sessionId →
          session ∈ drift.untrackedSessions) ∧
        ∃ missing, drift.missingFromRuntime = some missing ∧
          ∀ runId sessionId, (runId, sessionId) ∈ missing ↔ Missing N store rows runId sessionId) := by
  have hstart : store.UpTo ({ pageSize := config.runtimeListSessionsPageSize } : Drain N) := by
    show [] = _
    rw [store.position_empty]
    rfl
  have hdrained : store.Drained result := drainLoop_drained hanswers hstart hrun hresult
  exact ⟨report result rows, rfl, rfl, report_of_drained hdrained⟩

/-- One session is tracked, one is not, and a run waits for one that is gone. -/
theorem getRuntimeSessionDrift_exact_three :
    let sessions : List SessionMetadata :=
      [{ sessionId := some "a", state := some "SESSION_STATE_OPEN" },
        { sessionId := some "b", state := some "SESSION_STATE_SUSPENDED" },
        { sessionId := some "c", state := some "SESSION_STATE_RESOLVED" }]
    ∃ drift : DriftReport (Option Rat), drift.complete = true ∧
      fromSessionMetadata sessions[1] ∈ drift.untrackedSessions ∧
      ∃ missing, drift.missingFromRuntime = some missing ∧ ("2", "c") ∈ missing := by
  intro sessions
  let rows : List RunRow :=
    [{ id := "1", status := .running, runtimeSessionId := some "a" },
      { id := "2", status := .running, runtimeSessionId := some "c" },
      { id := "3", status := .starting, runtimeSessionId := some "d" }]
  obtain ⟨run, result, hrun, hresult, hcomplete⟩ : ∃ (run : ListSessions.Run (Option Rat)) (result : _),
      listSessions smallConfig (fun _ => limited sessions 4) 0 8 = some run ∧ run.outcome = .ok result ∧
        result.complete = true := ⟨_, _, rfl, rfl, rfl⟩
  obtain ⟨drift, -, hdrift, -, -, hall⟩ :=
    getRuntimeSessionDrift_exact (limited_answers sessions 4) hrun hresult rows
  obtain ⟨huntracked, missing, hmissing, hiff⟩ := hall (hdrift.trans hcomplete)
  refine ⟨drift, hdrift.trans hcomplete, huntracked _ ⟨⟨sessions[1], by simp [limitedStore, sessions], rfl⟩, rfl⟩ ?_,
    missing, hmissing, (hiff "2" "c").2 ⟨⟨rows[1], by simp [rows], rfl, by decide, by decide, by decide⟩, ?_⟩⟩
  · rintro ⟨row, hrow, -, hbound⟩
    have hunbound : ∀ row ∈ rows, boundSession row ≠ some "b" := by decide
    exact hunbound row hrow hbound
  · rintro session ⟨⟨metadata, hmetadata, rfl⟩, hlive⟩
    have hothers : ∀ metadata ∈ sessions,
        isLive (fromSessionMetadata metadata : TimedSessionSnapshot (Option Rat)) = true →
        (fromSessionMetadata metadata : TimedSessionSnapshot (Option Rat)).sessionId ≠ "c" := by decide
    exact hothers metadata hmetadata hlive

end MacpControlPlane.SessionDrift

import MacpControlPlane.Lib.Js
import MacpControlPlane.Runs.RunManager
import MacpControlPlane.Runs.WatchReconnect

/-!
# The drain of the session list (`RustRuntimeProvider.listSessions`)

The pages of `ListSessions` are fetched one after another, each with the token of the page before it.  A page that is
too large to receive is asked for again with half the page size; the number of pages, the halvings and the time are
bounded for the drain as a whole.

The drain of the model starts where the credentials have been resolved.  `Round` is what the program finds in one pass
of the loop: the clock, wherever it is read, and the answer to the request.
-/

namespace MacpControlPlane

open Js WatchReconnect

variable {N : Type}

/-- `SessionMetadata` as the client decodes it, the two times as decimal strings. -/
structure SessionMetadata where
  sessionId : Option String := none
  mode : Option String := none
  state : Option String := none
  startedAtUnixMs : Option String := none
  expiresAtUnixMs : Option String := none
  modeVersion : Option String := none
  configurationVersion : Option String := none
  policyVersion : Option String := none
  initiator : Option String := none
  contextId : Option String := none
  extensionKeys : Option (List String) := none

/-- A `RuntimeSessionSnapshot` with its two times. -/
structure TimedSessionSnapshot (N : Type) extends RuntimeSessionSnapshot where
  startedAtUnixMs : Option N := none
  expiresAtUnixMs : Option N := none
  deriving DecidableEq

def fromSessionMetadata [JsNumber N] (metadata : SessionMetadata) : TimedSessionSnapshot N where
  sessionId := metadata.sessionId.getD ""
  mode := metadata.mode.getD ""
  state := metadata.state.getD "SESSION_STATE_UNSPECIFIED"
  startedAtUnixMs := (metadata.startedAtUnixMs.filter (· ≠ "")).map JsNumber.parse
  expiresAtUnixMs := (metadata.expiresAtUnixMs.filter (· ≠ "")).map JsNumber.parse
  modeVersion := metadata.modeVersion
  configurationVersion := metadata.configurationVersion
  policyVersion := metadata.policyVersion
  initiator := metadata.initiator
  contextId := metadata.contextId.filter (· ≠ "")
  extensionKeys := metadata.extensionKeys.filter (· ≠ [])

namespace ListSessions

def MAX_PAGE_SIZE_HALVINGS : Nat := 2

/-- The settings of the drain; the constructor of `AppConfigService` rejects those that are not positive. -/
structure ListSessionsConfig where
  runtimeListSessionsPageSize : {size : Nat // 0 < size}
  runtimeListSessionsMaxPages : {pages : Nat // 0 < pages}
  runtimeListSessionsTimeoutMs : {ms : Nat // 0 < ms}
  runtimeRequestTimeoutMs : Int

structure ListSessionsRequest where
  pageToken : String
  pageSize : Nat
  /-- The deadline of the call. -/
  deadline : Int
  deriving DecidableEq

/-- A response, under both of the names that its token may have. -/
structure ListSessionsResponse where
  sessions : Option (List SessionMetadata) := none
  nextPageToken : Option String := none
  next_page_token : Option String := none

def ListSessionsResponse.next (response : ListSessionsResponse) : String :=
  (response.nextPageToken.or response.next_page_token).getD ""

/-- What `unary` throws. -/
structure CallError where
  /-- `error.metadata.grpcCode` -/
  grpcCode : Option Int := none
  /-- `error.code` -/
  code : Option Int := none
  thrown : Thrown := .raw none
  deriving DecidableEq

/-- `grpc.status.DEADLINE_EXCEEDED` -/
def DEADLINE_EXCEEDED : Int := 4

/-- `grpc.status.RESOURCE_EXHAUSTED` -/
def RESOURCE_EXHAUSTED : Int := 8

def isDeadlineExceeded (error : CallError) : Bool := error.grpcCode.or error.code = some DEADLINE_EXCEEDED

def isResourceExhausted (error : CallError) : Bool :=
  error.grpcCode.or error.code = some RESOURCE_EXHAUSTED &&
    (macpErrorCodeOf error.thrown).all (· = "PAYLOAD_TOO_LARGE")

/-- What the program finds in one pass of the loop. -/
structure Round where
  /-- The clock where the rest of the budget is computed. -/
  checkedAt : Int
  /-- The clock where the deadline of the call is computed. -/
  issuedAt : Int
  /-- The clock where the error of the call is looked at. -/
  failedAt : Int
  /-- `unary('ListSessions', …)` -/
  answer : ListSessionsRequest → Except CallError ListSessionsResponse

structure RuntimeListSessionsResult (N : Type) where
  sessions : List (TimedSessionSnapshot N)
  complete : Bool
  pagesFetched : Nat
  deriving DecidableEq

/-- The local variables of `listSessions`. -/
structure Drain (N : Type) where
  snapshots : List (TimedSessionSnapshot N) := []
  pageToken : String := ""
  pageSize : Nat
  pagesFetched : Nat := 0
  pageSizeHalvings : Nat := 0

def finishListSessions (d : Drain N) (complete : Bool) : RuntimeListSessionsResult N where
  sessions := d.snapshots
  complete := complete
  pagesFetched := d.pagesFetched

/-- How a pass of the loop ends. -/
inductive Pass (N : Type) where
  | continues (d : Drain N)
  | returns (result : RuntimeListSessionsResult N)
  | throws (error : CallError)

/-- The `catch` of the call. -/
def caught (deadlineAt failedAt : Int) (d : Drain N) (error : CallError) : Pass N :=
  if isDeadlineExceeded error ∧ deadlineAt ≤ failedAt then .returns (finishListSessions d false)
  else if isResourceExhausted error ∧ 1 < d.pageSize ∧ d.pageSizeHalvings < MAX_PAGE_SIZE_HALVINGS then
    .continues
      { d with
        pageSizeHalvings := d.pageSizeHalvings + 1
        pageSize := max 1 (d.pageSize / 2) }
  else .throws error

variable [JsNumber N]

/-- What follows the call. -/
def received (d : Drain N) (response : ListSessionsResponse) : Pass N :=
  let d :=
    { d with
      pagesFetched := d.pagesFetched + 1
      snapshots := d.snapshots ++ (response.sessions.getD []).map fromSessionMetadata }
  if response.next = "" then .returns (finishListSessions d true)
  else .continues { d with pageToken := response.next }

def pass (deadlineAt : Int) (round : Round) (d : Drain N) (request : ListSessionsRequest) : Pass N :=
  match round.answer request with
  | .ok response => received d response
  | .error error => caught deadlineAt round.failedAt d error

/-- The calls of a drain, and what it returns or throws. -/
structure Run (N : Type) where
  requests : List ListSessionsRequest
  outcome : Except CallError (RuntimeListSessionsResult N)

variable (config : ListSessionsConfig) (deadlineAt : Int) (rounds : Nat → Round)

/-- The request of a pass; there is none once the time is up. -/
def issue (round : Round) (d : Drain N) : Option ListSessionsRequest :=
  let remainingMs := deadlineAt - round.checkedAt
  if remainingMs ≤ 0 then none
  else
    some
      { pageToken := d.pageToken
        pageSize := d.pageSize
        deadline := round.issuedAt + min remainingMs config.runtimeRequestTimeoutMs }

/-- The loop from its `i`-th pass on, with a bound on the passes. -/
def drainLoop : Nat → Nat → Drain N → Option (Run N)
  | 0, _, _ => none
  | fuel + 1, i, d =>
    if config.runtimeListSessionsMaxPages ≤ d.pagesFetched then some ⟨[], .ok (finishListSessions d false)⟩
    else
      match issue config deadlineAt (rounds i) d with
      | none => some ⟨[], .ok (finishListSessions d false)⟩
      | some request =>
        match pass deadlineAt (rounds i) d request with
        | .returns result => some ⟨[request], .ok result⟩
        | .throws error => some ⟨[request], .error error⟩
        | .continues d' => (drainLoop fuel (i + 1) d').map fun run => { run with requests := request :: run.requests }

def listSessions (startedAt : Int) (fuel : Nat) : Option (Run N) :=
  drainLoop config (startedAt + config.runtimeListSessionsTimeoutMs) rounds fuel 0
    { pageSize := config.runtimeListSessionsPageSize }

/-! ### The calls -/

/-- The calls that may still be made. -/
def callsLeft (d : Drain N) : Nat :=
  (config.runtimeListSessionsMaxPages - d.pagesFetched) + (MAX_PAGE_SIZE_HALVINGS - d.pageSizeHalvings)

variable {config deadlineAt rounds} {d d' : Drain N} {round : Round} {request : ListSessionsRequest}

/-- A pass that goes on has fetched a page or halved the page size. -/
theorem callsLeft_lt_of_continues (hpages : d.pagesFetched < config.runtimeListSessionsMaxPages)
    (h : pass deadlineAt round d request = .continues d') : callsLeft config d' < callsLeft config d := by
  unfold pass at h
  cases hanswer : round.answer request with
  | ok response =>
    simp only [hanswer, received] at h
    split at h
    · cases h
    · cases h
      simp only [callsLeft]
      omega
  | error error =>
    simp only [hanswer, caught] at h
    split at h
    · cases h
    · split at h
      next hhalve =>
        cases h
        simp only [callsLeft]
        omega
      · cases h

/-- The loop ends, and has not made more calls than were left. -/
theorem exists_drainLoop (fuel i : Nat) (hfuel : callsLeft config d < fuel) :
    ∃ run, drainLoop config deadlineAt rounds fuel i d = some run ∧ run.requests.length ≤ callsLeft config d := by
  induction fuel generalizing i d with
  | zero => omega
  | succ fuel ih =>
    unfold drainLoop
    by_cases hpages : config.runtimeListSessionsMaxPages ≤ d.pagesFetched
    · exact ⟨_, if_pos hpages, Nat.zero_le _⟩
    have hpos : 1 ≤ callsLeft config d := by
      unfold callsLeft
      omega
    rw [if_neg hpages]
    cases hissue : issue config deadlineAt (rounds i) d with
    | none => exact ⟨_, rfl, Nat.zero_le _⟩
    | some request =>
      cases hpass : pass deadlineAt (rounds i) d request with
      | returns result => exact ⟨⟨[request], .ok result⟩, by simp only [hpass], hpos⟩
      | throws error => exact ⟨⟨[request], .error error⟩, by simp only [hpass], hpos⟩
      | continues d' =>
        have hless : callsLeft config d' < callsLeft config d :=
          callsLeft_lt_of_continues (Nat.lt_of_not_le hpages) hpass
        have hfuel' : callsLeft config d' < fuel := by omega
        obtain ⟨run, hrun, hlength⟩ := ih (i + 1) hfuel'
        refine ⟨{ run with requests := request :: run.requests }, by simp only [hpass, hrun, Option.map_some], ?_⟩
        rw [List.length_cons]
        omega

/-! ### The sessions -/

/-- What the runtime lists, and where in the list a token stands. -/
structure SessionStore where
  sessions : List SessionMetadata
  position : String → Nat
  position_empty : position "" = 0

/-- A page: at most `pageSize` of the sessions from the position of the token on, and the token of what follows them,
which is empty at the end of the list. -/
def SessionStore.Serves (store : SessionStore) (request : ListSessionsRequest) (response : ListSessionsResponse) :
    Prop :=
  ∃ k ≤ request.pageSize,
    response.sessions.getD [] = (store.sessions.drop (store.position request.pageToken)).take k ∧
      (response.next = "" ↔ store.sessions.length ≤ store.position request.pageToken + k) ∧
      (response.next ≠ "" → store.position response.next = store.position request.pageToken + k)

/-- Every response is a page of the store; which requests fail, and how, is open. -/
def SessionStore.Answers (store : SessionStore) (rounds : Nat → Round) : Prop :=
  ∀ i request response, (rounds i).answer request = .ok response → store.Serves request response

/-- The snapshots are those of the sessions before the token. -/
def SessionStore.UpTo (store : SessionStore) (d : Drain N) : Prop :=
  d.snapshots = (store.sessions.take (store.position d.pageToken)).map fromSessionMetadata

/-- The result has all of the sessions where it is complete, and the first ones of them otherwise. -/
def SessionStore.Drained (store : SessionStore) (result : RuntimeListSessionsResult N) : Prop :=
  if result.complete then result.sessions = store.sessions.map fromSessionMetadata
  else result.sessions <+: store.sessions.map fromSessionMetadata

variable {store : SessionStore} {response : ListSessionsResponse}

private theorem drained_finishListSessions_false (h : store.UpTo d) : store.Drained (finishListSessions d false) := by
  unfold SessionStore.Drained
  rw [if_neg (by simp [finishListSessions])]
  show d.snapshots <+: _
  rw [h]
  exact (List.take_prefix _ _).map _

/-- The snapshots before a page and those of the page. -/
theorem snapshots_append (h : store.UpTo d) {k : Nat}
    (hsessions : response.sessions.getD [] = (store.sessions.drop (store.position d.pageToken)).take k) :
    d.snapshots ++ (response.sessions.getD []).map fromSessionMetadata =
      (store.sessions.take (store.position d.pageToken + k)).map fromSessionMetadata := by
  rw [h, hsessions, List.take_add, List.map_append]

private theorem received_of_next_empty (h : store.UpTo d) (htoken : request.pageToken = d.pageToken)
    (hserves : store.Serves request response) (hnext : response.next = "") :
    ∃ result, received d response = .returns result ∧ store.Drained result := by
  obtain ⟨k, -, hsessions, hend, -⟩ := hserves
  rw [htoken] at hsessions hend
  refine ⟨_, by simp only [received, if_pos hnext]; rfl, ?_⟩
  unfold SessionStore.Drained
  rw [if_pos (by rfl)]
  show d.snapshots ++ _ = _
  rw [snapshots_append h hsessions, List.take_of_length_le (hend.1 hnext)]

private theorem received_of_next_ne (h : store.UpTo d) (htoken : request.pageToken = d.pageToken)
    (hserves : store.Serves request response) (hnext : response.next ≠ "") :
    ∃ d', received d response = .continues d' ∧ store.UpTo d' := by
  obtain ⟨k, -, hsessions, -, hposition⟩ := hserves
  rw [htoken] at hsessions hposition
  refine ⟨_, by simp only [received, if_neg hnext]; rfl, ?_⟩
  show d.snapshots ++ _ = (store.sessions.take (store.position response.next)).map _
  rw [snapshots_append h hsessions, hposition hnext]

omit [JsNumber N] in
/-- A halving leaves the token and the snapshots alone. -/
theorem caught_continues {failedAt : Int} {error : CallError} (h : caught deadlineAt failedAt d error = .continues d') :
    d'.snapshots = d.snapshots ∧ d'.pageToken = d.pageToken := by
  unfold caught at h
  split at h
  · cases h
  · split at h
    · cases h
      exact ⟨rfl, rfl⟩
    · cases h

omit [JsNumber N] in
private theorem caught_returns {failedAt : Int} {error : CallError} {result : RuntimeListSessionsResult N}
    (h : caught deadlineAt failedAt d error = .returns result) : result = finishListSessions d false := by
  unfold caught at h
  split at h
  · cases h
    rfl
  · split at h
    · cases h
    · cases h

/-- What a pass does with the sessions. -/
theorem pass_upTo (deadlineAt : Int) (h : store.UpTo d) (htoken : request.pageToken = d.pageToken)
    (hserves : ∀ response, round.answer request = .ok response → store.Serves request response) :
    match pass deadlineAt round d request with
    | .continues d' => store.UpTo d'
    | .returns result => store.Drained result
    | .throws _ => True := by
  unfold pass
  cases hanswer : round.answer request with
  | ok response =>
    by_cases hnext : response.next = ""
    · obtain ⟨result, hreceived, hdrained⟩ := received_of_next_empty h htoken (hserves response hanswer) hnext
      simpa only [hreceived] using hdrained
    · obtain ⟨d', hreceived, hupTo⟩ := received_of_next_ne h htoken (hserves response hanswer) hnext
      simpa only [hreceived] using hupTo
  | error error =>
    cases hcaught : caught deadlineAt round.failedAt d error with
    | continues d' =>
      obtain ⟨hsnapshots, hpageToken⟩ := caught_continues hcaught
      simp only [hcaught]
      unfold SessionStore.UpTo
      rw [hsnapshots, hpageToken]
      exact h
    | returns result =>
      simp only [hcaught]
      rw [caught_returns hcaught]
      exact drained_finishListSessions_false h
    | throws error' => simp only [hcaught]

omit [JsNumber N] in
private theorem issue_pageToken (h : issue config deadlineAt round d = some request) :
    request.pageToken = d.pageToken := by
  unfold issue at h
  simp only at h
  split at h
  · cases h
  · cases h
    rfl

theorem drainLoop_drained (hanswers : store.Answers rounds) {fuel i : Nat} {run : Run N} (h : store.UpTo d)
    (hrun : drainLoop config deadlineAt rounds fuel i d = some run) {result : RuntimeListSessionsResult N}
    (hresult : run.outcome = .ok result) : store.Drained result := by
  induction fuel generalizing i d run with
  | zero => cases hrun
  | succ fuel ih =>
    unfold drainLoop at hrun
    split at hrun
    · cases hrun
      cases hresult
      exact drained_finishListSessions_false h
    · cases hissue : issue config deadlineAt (rounds i) d with
      | none =>
        rw [hissue] at hrun
        cases hrun
        cases hresult
        exact drained_finishListSessions_false h
      | some request =>
        have hpass := pass_upTo deadlineAt h (issue_pageToken hissue) (hanswers i request)
        simp only [hissue] at hrun
        cases hnext : pass deadlineAt (rounds i) d request with
        | continues d' =>
          simp only [hnext] at hpass hrun
          obtain ⟨more, hmore, rfl⟩ := Option.map_eq_some_iff.1 hrun
          exact ih hpass hmore hresult
        | returns result' =>
          simp only [hnext] at hpass hrun
          cases hrun
          cases hresult
          exact hpass
        | throws error =>
          simp only [hnext] at hrun
          cases hrun
          cases hresult

/-- The drain ends within `maxPages + MAX_PAGE_SIZE_HALVINGS` calls, whatever the runtime and the clock do.  Against a
runtime that serves the pages of a list it returns the whole list where it says that it is complete, and the first
sessions of the list where it does not. -/
theorem listSessions_drains (config : ListSessionsConfig) (rounds : Nat → Round) (startedAt : Int) {fuel : Nat}
    (hfuel : config.runtimeListSessionsMaxPages + MAX_PAGE_SIZE_HALVINGS < fuel) :
    ∃ run : Run N, listSessions config rounds startedAt fuel = some run ∧
      run.requests.length ≤ config.runtimeListSessionsMaxPages + MAX_PAGE_SIZE_HALVINGS ∧
      ∀ store : SessionStore, store.Answers rounds →
        ∀ result, run.outcome = .ok result → store.Drained result := by
  set start : Drain N := { pageSize := config.runtimeListSessionsPageSize }
  have hleft : callsLeft config start < fuel := hfuel
  obtain ⟨run, hrun, hlength⟩ := exists_drainLoop fuel 0 hleft
  refine ⟨run, hrun, hlength, ?_⟩
  intro store hanswers result hresult
  refine drainLoop_drained hanswers ?_ hrun hresult
  show [] = _
  rw [store.position_empty]
  rfl

/-- A runtime whose tokens are one longer than the number of the sessions before them, and to which a page of more than
`limit` sessions is too large. -/
def limited (sessions : List SessionMetadata) (limit : Nat) : Round where
  checkedAt := 0
  issuedAt := 0
  failedAt := 0
  answer request :=
    let first := request.pageToken.length - 1
    let last := first + request.pageSize
    if limit < request.pageSize then .error { code := some RESOURCE_EXHAUSTED }
    else
      .ok
        { sessions := some ((sessions.drop first).take request.pageSize)
          nextPageToken := some (if sessions.length ≤ last then "" else String.ofList (List.replicate (last + 1) 'x')) }

def limitedStore (sessions : List SessionMetadata) : SessionStore where
  sessions := sessions
  position token := token.length - 1
  position_empty := rfl

theorem limited_answers (sessions : List SessionMetadata) (limit : Nat) :
    (limitedStore sessions).Answers fun _ => limited sessions limit := by
  intro _ request response h
  simp only [limited] at h
  split at h
  · cases h
  cases h
  refine ⟨request.pageSize, Nat.le_refl _, rfl, ?_, ?_⟩
  all_goals
    simp only [ListSessionsResponse.next, Option.some_or, Option.getD_some, limitedStore]
    split
  · simpa
  next hmore => simpa [List.replicate_succ] using hmore
  · exact fun h => absurd rfl h
  · intro _
    simp

def smallConfig : ListSessionsConfig where
  runtimeListSessionsPageSize := ⟨4, by decide⟩
  runtimeListSessionsMaxPages := ⟨5, by decide⟩
  runtimeListSessionsTimeoutMs := ⟨60000, by decide⟩
  runtimeRequestTimeoutMs := 30000

def threeSessions : List SessionMetadata :=
  [{ sessionId := some "a" }, { sessionId := some "b" }, { sessionId := some "c" }]

/-- Three sessions, in pages of at most two: the first page is asked for twice. -/
theorem listSessions_limited :
    ∃ (run : Run (Option Rat)) (result : RuntimeListSessionsResult (Option Rat)),
      listSessions smallConfig (fun _ => limited threeSessions 2) 0 8 = some run ∧
        run.requests.map (·.pageSize) = [4, 2, 2] ∧ run.outcome = .ok result ∧ result.complete = true ∧
          result.sessions = threeSessions.map fromSessionMetadata := by
  obtain ⟨run, hrun, -, hdrained⟩ :=
    listSessions_drains (N := Option Rat) smallConfig (fun _ => limited threeSessions 2) 0 (show 7 < 8 by decide)
  have hvalue : (listSessions (N := Option Rat) smallConfig (fun _ => limited threeSessions 2) 0 8).map
      (fun run => (run.requests.map (·.pageSize), run.outcome.toOption.map (·.complete))) =
        some ([4, 2, 2], some true) := by rfl
  rw [hrun, Option.map_some, Option.some.injEq, Prod.mk.injEq] at hvalue
  obtain ⟨hsizes, houtcome⟩ := hvalue
  cases hresult : run.outcome with
  | error error => simp [hresult, Except.toOption] at houtcome
  | ok result =>
    have hcomplete : result.complete = true := by simpa [hresult, Except.toOption] using houtcome
    have hall := hdrained (limitedStore threeSessions) (limited_answers threeSessions 2) result hresult
    unfold SessionStore.Drained at hall
    rw [if_pos hcomplete] at hall
    exact ⟨run, result, hrun, hsizes, hresult, hcomplete, hall⟩

end ListSessions

end MacpControlPlane

import MacpControlPlane.Lib.JsonRoundTrip
import MacpControlPlane.Runtime.CircuitBreaker
import MacpControlPlane.Runtime.ListSessions

/-!
# Failures of runtime calls (`runtime/grpc-helpers.ts`, `RustRuntimeProvider.unary`)

A unary call goes through the breaker, which counts its error or excuses it (`isExpectedError`), and then
`mapGrpcError` makes an `AppException` of it for the callers.  Both look at the status and at the registry code that
the runtime attaches to it.

A binary trailer is here the text that it decodes to.
-/

namespace MacpControlPlane

open Js JsonText

variable {N : Type}

/-! ### The two tables -/

/-- The members of the source's `ErrorCode` that the tables and the poll of a session use. -/
inductive ErrorCode where
  | runtimeUnavailable | runtimeTimeout | sessionExpired | sessionCancelled | validationError | internalError
  | modeNotSupported | invalidSessionId
  | unknownPolicyVersion | policyDenied | invalidPolicyDefinition | sessionAlreadyExists | registryReadOnly | forbidden
  | notFound | conflict | unauthenticated | notImplemented | rateLimited | payloadTooLarge | sessionNotOpen
  | streamLagged | invalidEnvelope | duplicateMessage | historyUnavailable | receiptUnavailable
  deriving DecidableEq, Repr

/-- The HTTP status and the `ErrorCode` that the control plane answers with. -/
structure ErrorMapping where
  http : Nat
  code : ErrorCode
  deriving DecidableEq, Repr

/-- `GRPC_STATUS_TO_HTTP` -/
def grpcStatusToHttp : List (Int × ErrorMapping) :=
  [(3, ⟨400, .validationError⟩), -- INVALID_ARGUMENT
    (11, ⟨400, .validationError⟩), -- OUT_OF_RANGE
    (9, ⟨409, .conflict⟩), -- FAILED_PRECONDITION
    (10, ⟨409, .conflict⟩), -- ABORTED
    (6, ⟨409, .conflict⟩), -- ALREADY_EXISTS
    (5, ⟨404, .notFound⟩), -- NOT_FOUND
    (7, ⟨403, .forbidden⟩), -- PERMISSION_DENIED
    (16, ⟨401, .unauthenticated⟩), -- UNAUTHENTICATED
    (8, ⟨429, .rateLimited⟩), -- RESOURCE_EXHAUSTED
    (12, ⟨501, .notImplemented⟩), -- UNIMPLEMENTED
    (14, ⟨503, .runtimeUnavailable⟩), -- UNAVAILABLE
    (4, ⟨504, .runtimeTimeout⟩)] -- DEADLINE_EXCEEDED

/-- `MACP_ERROR_REGISTRY` -/
def macpErrorRegistry : List (String × ErrorMapping) :=
  [("UNAUTHENTICATED", ⟨401, .unauthenticated⟩),
    ("FORBIDDEN", ⟨403, .forbidden⟩),
    ("SESSION_NOT_FOUND", ⟨404, .notFound⟩),
    ("SESSION_NOT_OPEN", ⟨409, .sessionNotOpen⟩),
    ("DUPLICATE_MESSAGE", ⟨409, .duplicateMessage⟩),
    ("SESSION_ALREADY_EXISTS", ⟨409, .sessionAlreadyExists⟩),
    ("INVALID_ENVELOPE", ⟨400, .invalidEnvelope⟩),
    ("UNSUPPORTED_PROTOCOL_VERSION", ⟨400, .validationError⟩),
    ("MODE_NOT_SUPPORTED", ⟨400, .modeNotSupported⟩),
    ("PAYLOAD_TOO_LARGE", ⟨413, .payloadTooLarge⟩),
    ("RATE_LIMITED", ⟨429, .rateLimited⟩),
    ("INVALID_SESSION_ID", ⟨400, .invalidSessionId⟩),
    ("INTERNAL_ERROR", ⟨500, .internalError⟩),
    ("UNKNOWN_POLICY_VERSION", ⟨404, .unknownPolicyVersion⟩),
    ("POLICY_DENIED", ⟨403, .policyDenied⟩),
    ("INVALID_POLICY_DEFINITION", ⟨400, .invalidPolicyDefinition⟩),
    ("REGISTRY_READ_ONLY", ⟨405, .registryReadOnly⟩),
    ("INVALID_REQUEST", ⟨400, .validationError⟩),
    ("STREAM_LAGGED", ⟨503, .streamLagged⟩),
    ("AGENT_NOT_FOUND", ⟨404, .notFound⟩),
    ("HISTORY_UNAVAILABLE", ⟨409, .historyUnavailable⟩),
    ("RECEIPT_UNAVAILABLE", ⟨409, .receiptUnavailable⟩),
    ("UNAUTHORIZED", ⟨403, .forbidden⟩)]

/-- `BREAKER_COUNTED_MACP_CODES` -/
def breakerCountedMacpCodes : List String := ["INTERNAL_ERROR", "STREAM_LAGGED"]

/-- `BREAKER_COUNTED_GRPC_STATUSES`: UNAVAILABLE, DEADLINE_EXCEEDED, INTERNAL, UNKNOWN, DATA_LOSS. -/
def breakerCountedGrpcStatuses : List Int := [14, 4, 13, 2, 15]

/-! ### The errors -/

/-- A gRPC `ServiceError`. -/
structure ServiceError where
  code : Int
  details : String := ""
  message : String := ""
  /-- The first `macp-error-code` of its metadata. -/
  macpErrorCode : Option String := none
  /-- The first `macp-error-details-bin` of its metadata. -/
  macpErrorDetails : Option String := none
  deriving DecidableEq

/-- What the protected call of `unary` throws. -/
inductive CallFailure where
  | service (error : ServiceError)
  /-- Without a status, as where the client has no such method. -/
  | other
  deriving DecidableEq

structure PolicyDenyDetails (N : Type) where
  reasons : Option (List String) := none
  denials : Option (List (Json N)) := none

/-- `typeof d === 'object' && d !== null` -/
def isObjectValue : Json N → Bool
  | .arr _ | .obj _ => true
  | _ => false

def parsePolicyDenyDetails [JsNumber N] (text : Option String) : Option (PolicyDenyDetails N) :=
  match text.filter (· ≠ "") with
  | none => none
  | some text =>
    match parse (N := N) text with
    | none => none
    | some parsed =>
      let reasons := (asArray (parsed.prop "reasons")).bind fun xs =>
        if xs.all fun x => (asString (some x)).isSome then some (strings xs) else none
      let denials := (asArray (parsed.prop "denials")).filter fun xs => xs.all isObjectValue
      if reasons.isSome || denials.isSome then some { reasons, denials } else none

/-- The `metadata` of an `AppException` that `mapGrpcError` makes. -/
structure GrpcErrorMetadata (N : Type) where
  grpcCode : Int
  macpErrorCode : Option String := none
  reasons : Option (List String) := none
  denials : Option (List (Json N)) := none

structure MappedError (N : Type) where
  errorCode : ErrorCode
  message : String
  http : Nat
  metadata : GrpcErrorMetadata N

/-- `readMacpErrorCode(error)` -/
def ServiceError.registryCode (error : ServiceError) : Option String :=
  MacpControlPlane.readMacpErrorCode error.macpErrorCode

def ServiceError.mapping (error : ServiceError) : Option ErrorMapping :=
  (error.registryCode.bind fun code => macpErrorRegistry.lookup code).or (grpcStatusToHttp.lookup error.code)

def mapGrpcError [JsNumber N] (error : ServiceError) (method : String) : MappedError N :=
  let message :=
    if error.details ≠ "" then error.details
    else if error.message ≠ "" then error.message
    else s!"runtime {method} failed"
  let deny : Option (PolicyDenyDetails N) :=
    if error.registryCode = some "POLICY_DENIED" then parsePolicyDenyDetails error.macpErrorDetails else none
  let metadata : GrpcErrorMetadata N :=
    { grpcCode := error.code
      macpErrorCode := error.registryCode
      reasons := deny.bind PolicyDenyDetails.reasons
      denials := deny.bind PolicyDenyDetails.denials }
  match error.mapping with
  | none => ⟨.internalError, message, 500, metadata⟩
  | some mapping => ⟨mapping.code, message, mapping.http, metadata⟩

/-- The `isExpectedError` of the breaker that `buildCircuitBreaker` makes. -/
def isExpectedError : CallFailure → Bool
  | .other => false
  | .service error =>
    if error.code = 5 ∨ error.code = 7 then true
    else
      match error.registryCode with
      | none => false
      | some code => !(breakerCountedMacpCodes.contains code) && !(breakerCountedGrpcStatuses.contains error.code)

theorem mapGrpcError_errorCode [JsNumber N] (error : ServiceError) (method : String) :
    (mapGrpcError (N := N) error method).errorCode = (error.mapping.map ErrorMapping.code).getD .internalError := by
  unfold mapGrpcError
  cases error.mapping <;> rfl

theorem mapGrpcError_macpErrorCode [JsNumber N] (error : ServiceError) (method : String) :
    (mapGrpcError (N := N) error method).metadata.macpErrorCode = error.registryCode := by
  unfold mapGrpcError
  cases error.mapping <;> rfl

/-! ### What clients see of what the breaker counts -/

/-- Of the registry codes the breaker counts those that are answered with a server error. -/
theorem counted_iff_of_lookup {code : String} {mapping : ErrorMapping}
    (h : macpErrorRegistry.lookup code = some mapping) :
    breakerCountedMacpCodes.contains code = true ↔ 500 ≤ mapping.http := by
  have htable : ∀ entry ∈ macpErrorRegistry, breakerCountedMacpCodes.contains entry.1 = true ↔ 500 ≤ entry.2.http := by
    decide
  exact htable (code, mapping) (mem_of_lookup h)

/-- An error with a code of the registry, other than an uncoded refusal, is excused by the breaker exactly where it is
answered with a client error and has not got the status of a transport failure. -/
theorem isExpectedError_iff [JsNumber N] {error : ServiceError} {code : String} {mapping : ErrorMapping}
    (hcode : error.registryCode = some code) (hknown : macpErrorRegistry.lookup code = some mapping)
    (hstatus : error.code ≠ 5 ∧ error.code ≠ 7) (method : String) :
    isExpectedError (.service error) = true ↔
      (mapGrpcError (N := N) error method).http < 500 ∧ error.code ∉ breakerCountedGrpcStatuses := by
  have hmapping : error.mapping = some mapping := by
    unfold ServiceError.mapping
    rw [hcode, Option.bind_some, hknown]
    rfl
  have hhttp : (mapGrpcError (N := N) error method).http = mapping.http := by
    unfold mapGrpcError
    rw [hmapping]
  rw [hhttp, ← Nat.not_le, ← counted_iff_of_lookup hknown]
  unfold isExpectedError
  simp only [hstatus, or_self, if_false, hcode, Bool.and_eq_true, Bool.not_eq_true', List.contains_eq_mem,
    decide_eq_false_iff_not, decide_eq_true_eq]

theorem isExpectedError_iff_rateLimited :
    let error : ServiceError := { code := 8, macpErrorCode := some " RATE_LIMITED" }
    isExpectedError (.service error) = true ↔
      (mapGrpcError (N := Option Rat) error "ListModes").http < 500 ∧ error.code ∉ breakerCountedGrpcStatuses := by
  intro error
  have hcode : error.registryCode = some "RATE_LIMITED" := by decide
  have hknown : macpErrorRegistry.lookup "RATE_LIMITED" = some ⟨429, .rateLimited⟩ := by decide
  exact isExpectedError_iff hcode hknown ⟨by decide, by decide⟩ "ListModes"

/-! ### The details of a denial -/

/-- `error_details_bytes` of the runtime: `{ reasons, denials }` as a text. -/
def denyDetailsText [JsNumber N] (reasons : List String) (denials : List (JsonObject N)) : String :=
  stringify (.obj [("reasons", .arr (reasons.map .str)), ("denials", .arr (denials.map .obj))])

private theorem strings_map_str (reasons : List String) : strings (reasons.map (Json.str (N := N))) = reasons := by
  induction reasons with
  | nil => rfl
  | cons reason reasons ih =>
    rw [List.map_cons, strings, List.filterMap_cons]
    exact congrArg (reason :: ·) ih

private theorem wellFormedItems_iff [JsNumber N] {xs : List (Json N)} :
    WellFormedItems xs ↔ ∀ x ∈ xs, WellFormed x := by
  induction xs with
  | nil => simp [WellFormedItems]
  | cons x xs ih => simp [WellFormedItems, ih]

theorem parsePolicyDenyDetails_denyDetailsText [JsNumber N] {reasons : List String} {denials : List (JsonObject N)}
    (hread : ∀ denial ∈ denials, WellFormed (.obj denial)) :
    parsePolicyDenyDetails (some (denyDetailsText reasons denials)) =
      some { reasons := some reasons, denials := some (denials.map .obj) } := by
  have hreasons : WellFormedItems (reasons.map (Json.str (N := N))) := by
    rw [wellFormedItems_iff]
    rintro x hx
    obtain ⟨reason, -, rfl⟩ := List.mem_map.1 hx
    simp [WellFormed]
  have hdenials : WellFormedItems (denials.map Json.obj) := by
    rw [wellFormedItems_iff]
    rintro x hx
    obtain ⟨denial, hdenial, rfl⟩ := List.mem_map.1 hx
    exact hread denial hdenial
  have hnames : ["reasons", "denials"].Nodup := by decide
  have hwell : WellFormed (.obj [("reasons", .arr (reasons.map .str)), ("denials", .arr (denials.map .obj))]) := by
    simp only [WellFormed, WellFormedFields]
    exact ⟨hnames, hreasons, hdenials, trivial⟩
  have hne : denyDetailsText reasons denials ≠ "" := by
    intro hempty
    have hlist := congrArg String.toList hempty
    simp [denyDetailsText, stringify, stringifyChars] at hlist
  have hreasonsOf :
      asArray ((Json.obj [("reasons", .arr (reasons.map .str)), ("denials", .arr (denials.map .obj))]).prop
        "reasons") = some (reasons.map Json.str) := rfl
  have hdenialsOf :
      asArray ((Json.obj [("reasons", .arr (reasons.map .str)), ("denials", .arr (denials.map .obj))]).prop
        "denials") = some (denials.map Json.obj) := rfl
  have hstrings : ((reasons.map (Json.str (N := N))).all fun x => (asString (some x)).isSome) = true := by
    simp [asString]
  have hobjects : (denials.map Json.obj).all isObjectValue = true := by
    simp [isObjectValue]
  unfold parsePolicyDenyDetails
  rw [Option.filter_some, if_pos (by simpa using hne)]
  dsimp only
  rw [denyDetailsText, parse_stringify hwell]
  dsimp only
  rw [hreasonsOf, hdenialsOf, Option.bind_some, if_pos hstrings, Option.filter_some, if_pos hobjects, strings_map_str]
  rfl

/-- What the runtime writes is what clients read. -/
theorem mapGrpcError_policyDenied [JsNumber N] {error : ServiceError}
    (hcode : error.registryCode = some "POLICY_DENIED") {reasons : List String} {denials : List (JsonObject N)}
    (hread : ∀ denial ∈ denials, WellFormed (.obj denial))
    (hdetails : error.macpErrorDetails = some (denyDetailsText reasons denials)) (method : String) :
    let mapped := mapGrpcError (N := N) error method
    mapped.errorCode = .policyDenied ∧ mapped.http = 403 ∧ mapped.metadata.grpcCode = error.code ∧
      mapped.metadata.reasons = some reasons ∧ mapped.metadata.denials = some (denials.map .obj) := by
  intro mapped
  have hparsed := @parsePolicyDenyDetails_denyDetailsText N _ reasons denials hread
  have hmapping : error.mapping = some ⟨403, .policyDenied⟩ := by
    unfold ServiceError.mapping
    rw [hcode]
    rfl
  have hmapped : mapped = mapGrpcError error method := rfl
  unfold mapGrpcError at hmapped
  rw [hmapping, if_pos hcode, hdetails, hparsed] at hmapped
  rw [hmapped]
  exact ⟨rfl, rfl, rfl, rfl, rfl⟩

theorem mapGrpcError_policyDenied_vote :
    let denial : JsonObject (Option Rat) := [("code", .str "VOTE_MISSING"), ("participants", .arr [.str "agent-1"])]
    let error : ServiceError :=
      { code := 7, macpErrorCode := some "POLICY_DENIED"
        macpErrorDetails := some (denyDetailsText ["a vote is \"missing\""] [denial]) }
    (mapGrpcError (N := Option Rat) error "CancelSession").metadata.reasons = some ["a vote is \"missing\""] ∧
      (mapGrpcError (N := Option Rat) error "CancelSession").metadata.denials = some [.obj denial] := by
  intro denial error
  have hcode : error.registryCode = some "POLICY_DENIED" := by decide
  have hread : ∀ d ∈ [denial], WellFormed (.obj d) := by
    intro d hd
    rw [List.mem_singleton.1 hd]
    simp only [denial, WellFormed, WellFormedFields, WellFormedItems, and_true]
    decide
  have hmapped := mapGrpcError_policyDenied hcode hread rfl "CancelSession"
  exact ⟨hmapped.2.2.2.1, hmapped.2.2.2.2⟩

/-! ### When the breaker opens -/

open CircuitBreaker (CircuitBreakerConfig)

/-- What happens to the breaker of the provider. -/
inductive CallEvent where
  | called (call : Nat)
  | answered (call : Nat)
  | failed (call : Nat) (failure : CallFailure)
  | advanced (ms : Nat)
  | stateRead
  | reset
  deriving DecidableEq

def CallEvent.action : CallEvent → CircuitBreaker.Action
  | .called call => .execute call
  | .answered call => .settle call (.fulfilled none)
  | .failed call failure => .settle call (.rejected (isExpectedError failure))
  | .advanced ms => .advance ms
  | .stateRead => .getState
  | .reset => .reset

/-- The breaker starts to count anew. -/
def CallEvent.clears : CallEvent → Bool
  | .answered _ | .reset => true
  | _ => false

def CallEvent.counted : CallEvent → Bool
  | .failed _ failure => !isExpectedError failure
  | _ => false

def CallEvent.isFailed : CallEvent → Bool
  | .failed _ _ => true
  | _ => false

private theorem CallEvent.isFailed_of_counted {e : CallEvent} (h : e.counted = true) : e.isFailed = true := by
  cases e with
  | failed => rfl
  | called | answered | advanced | stateRead | reset => cases h

section Breaker

variable {config : CircuitBreakerConfig} {s t : CircuitBreaker.State} {now : Nat}

private theorem getState_failureCount (config : CircuitBreakerConfig) (now : Nat) (b : CircuitBreaker.Breaker) :
    (CircuitBreaker.getState config now b).failureCount = b.failureCount := by
  rcases CircuitBreaker.getState_cases config now b with heq | ⟨-, -, reason, heq⟩ <;> rw [heq]

private theorem next_failureCount {e : CallEvent} (h : CircuitBreaker.next config s e.action = some t) :
    t.breaker.failureCount =
      if e.clears then 0 else s.breaker.failureCount + if e.counted then 1 else 0 := by
  rw [CircuitBreaker.next_breaker h]
  cases e with
  | called | stateRead =>
    simp [CallEvent.action, CallEvent.clears, CallEvent.counted, CircuitBreaker.writes, getState_failureCount]
  | answered | reset =>
    simp [CallEvent.action, CallEvent.clears, CircuitBreaker.writes, CircuitBreaker.settle, CircuitBreaker.onSuccess,
      CircuitBreaker.reset]
  | advanced => simp [CallEvent.action, CallEvent.clears, CallEvent.counted, CircuitBreaker.writes]
  | failed call failure =>
    cases hexpected : isExpectedError failure <;>
      simp [CallEvent.action, CallEvent.clears, CallEvent.counted, CircuitBreaker.writes, CircuitBreaker.settle,
        hexpected]

/-- As long as the breaker does not start anew, it counts. -/
theorem exec_failureCount {es : List CallEvent} (hes : ∀ e ∈ es, e.clears = false)
    (h : (CircuitBreaker.machine config).exec s (es.map CallEvent.action) = some t) :
    t.breaker.failureCount = s.breaker.failureCount + es.countP CallEvent.counted := by
  induction es generalizing s with
  | nil =>
    cases h
    rfl
  | cons e es ih =>
    obtain ⟨u, hu, h⟩ := Machine.exec_cons_eq_some.1 h
    have hrest := ih (fun e' he' => hes e' (List.mem_cons_of_mem e he')) h
    have hfirst := next_failureCount hu
    rw [hes e List.mem_cons_self] at hfirst
    rw [hrest, hfirst, List.countP_cons, if_neg Bool.false_ne_true]
    omega

/-- Every list of events is one that ends where the breaker starts anew, or is empty, and one in which it does not. -/
theorem exists_since_clear (es : List CallEvent) :
    ∃ before since, es = before ++ since ∧ (∀ e ∈ since, e.clears = false) ∧
      (before = [] ∨ ∃ first e, before = first ++ [e] ∧ e.clears = true) := by
  induction es using List.reverseRecOn with
  | nil => exact ⟨[], [], rfl, nofun, Or.inl rfl⟩
  | append_singleton es e ih =>
    cases hclears : e.clears with
    | true => exact ⟨es ++ [e], [], (List.append_nil _).symm, nofun, Or.inr ⟨es, e, rfl, hclears⟩⟩
    | false =>
      obtain ⟨before, since, rfl, hsince, hbefore⟩ := ih
      refine ⟨before, since ++ [e], List.append_assoc _ _ _, fun e' he' => ?_, hbefore⟩
      rcases List.mem_append.1 he' with he' | he'
      · exact hsince e' he'
      · rw [List.mem_singleton.1 he']
        exact hclears

/-- Whatever the order of calls, answers, reads, resets and of the clock: the breaker is out of `CLOSED` exactly when as
many errors as the threshold says, none of them excused, have come in without an answer or a reset in between, and
nothing has cleared them since. -/
theorem not_closed_iff (hthreshold : 1 ≤ config.failureThreshold) {es : List CallEvent}
    (h : (CircuitBreaker.machine config).exec (.initial now) (es.map CallEvent.action) = some s) :
    s.breaker.state ≠ .closed ↔
      ∃ before since, es = before ++ since ∧ (∀ e ∈ since, e.clears = false) ∧
        config.failureThreshold ≤ (since.countP CallEvent.counted : Rat) := by
  have hwell := CircuitBreaker.wellFormed_of_reachable hthreshold ⟨_, _, ⟨now, rfl⟩, h⟩
  rw [Ne, hwell.closed_iff, not_lt]
  constructor
  · intro hreached
    obtain ⟨before, since, rfl, hsince, hbefore⟩ := exists_since_clear es
    refine ⟨before, since, rfl, hsince, ?_⟩
    rw [List.map_append] at h
    obtain ⟨u, hu, h⟩ := Machine.exec_append_eq_some.1 h
    have hzero : u.breaker.failureCount = 0 := by
      rcases hbefore with rfl | ⟨first, e, rfl, hclears⟩
      · cases hu
        rfl
      · rw [List.map_append, List.map_singleton] at hu
        obtain ⟨v, -, hu⟩ := Machine.exec_append_eq_some.1 hu
        obtain ⟨w, hw, hu⟩ := Machine.exec_cons_eq_some.1 hu
        cases hu
        rw [next_failureCount hw, if_pos hclears]
    rw [exec_failureCount hsince h, hzero, Nat.zero_add] at hreached
    exact hreached
  · rintro ⟨before, since, rfl, hsince, hreached⟩
    rw [List.map_append] at h
    obtain ⟨u, hu, h⟩ := Machine.exec_append_eq_some.1 h
    rw [exec_failureCount hsince h]
    refine hreached.trans ?_
    exact_mod_cast Nat.le_add_left _ _

/-- Five refusals do not open a breaker, and two timeouts after an answer open one with a threshold of two. -/
theorem not_closed_iff_timeouts :
    let refused : CallFailure := .service { code := 9, macpErrorCode := some "SESSION_NOT_OPEN" }
    let timedOut : CallFailure := .service { code := 4 }
    let es : List CallEvent :=
      [.called 1, .called 2, .called 3, .called 4, .failed 1 refused, .answered 2, .failed 3 timedOut,
        .failed 4 timedOut]
    ∃ s, (CircuitBreaker.machine ⟨2, 30000⟩).exec (.initial 0) (es.map CallEvent.action) = some s ∧
      s.breaker.state ≠ .closed := by
  intro refused timedOut es
  obtain ⟨s, hs⟩ : ∃ s, (CircuitBreaker.machine ⟨2, 30000⟩).exec (.initial 0) (es.map CallEvent.action) = some s :=
    ⟨_, rfl⟩
  refine ⟨s, hs, (not_closed_iff (by decide) hs).2 ?_⟩
  exact ⟨es.take 6, es.drop 6, rfl, by decide, by decide⟩

end Breaker

/-! ### A drain of the session list does not open the breaker -/

section Drain

open ListSessions

/-- What the program finds in one pass of `listSessions`, the answer as the client gets it. -/
structure WireRound where
  checkedAt : Int
  issuedAt : Int
  failedAt : Int
  answer : ListSessionsRequest → Except CallFailure ListSessionsResponse

variable [JsNumber N]

/-- `mapGrpcError(error, 'ListSessions') ?? error`, as `listSessions` reads it. -/
def unaryError (N : Type) [JsNumber N] : CallFailure → CallError
  | .service error =>
    let mapped := mapGrpcError (N := N) error "ListSessions"
    { grpcCode := some mapped.metadata.grpcCode, thrown := .appException mapped.metadata.macpErrorCode }
  | .other => {}

def WireRound.round (N : Type) [JsNumber N] (wire : WireRound) : Round where
  checkedAt := wire.checkedAt
  issuedAt := wire.issuedAt
  failedAt := wire.failedAt
  answer request := (wire.answer request).mapError (unaryError N)

/-- How the call of a pass settles. -/
def settlement (call : Nat) (wire : WireRound) (request : ListSessionsRequest) : CallEvent :=
  match wire.answer request with
  | .ok _ => .answered call
  | .error failure => .failed call failure

/-- How the calls of a drain settle, from its `i`-th pass on; `call` numbers them for the breaker. -/
def settlements (call : Nat → Nat) (wires : Nat → WireRound) : Nat → List ListSessionsRequest → List CallEvent
  | _, [] => []
  | i, request :: requests => settlement (call i) (wires i) request :: settlements call wires (i + 1) requests

variable {config : ListSessionsConfig} {deadlineAt : Int} {call : Nat → Nat} {wires : Nat → WireRound}

omit [JsNumber N] in
/-- A pass that has failed and goes on has used up one of the halvings. -/
theorem caught_halves {failedAt : Int} {d d' : ListSessions.Drain N} {error : CallError}
    (h : caught deadlineAt failedAt d error = .continues d') :
    d'.pageSizeHalvings = d.pageSizeHalvings + 1 ∧ d.pageSizeHalvings < MAX_PAGE_SIZE_HALVINGS := by
  unfold caught at h
  split at h
  · cases h
  · split at h
    next hhalve =>
      cases h
      exact ⟨rfl, hhalve.2.2⟩
    · cases h

/-- The failures of a drain are those that a halving answers, and one more at most. -/
theorem countP_settlements_le {fuel i : Nat} {d : ListSessions.Drain N} {run : ListSessions.Run N}
    (h : drainLoop config deadlineAt (fun j => (wires j).round N) fuel i d = some run)
    (hhalvings : d.pageSizeHalvings ≤ MAX_PAGE_SIZE_HALVINGS) :
    (settlements call wires i run.requests).countP CallEvent.isFailed ≤
      MAX_PAGE_SIZE_HALVINGS - d.pageSizeHalvings + 1 := by
  induction fuel generalizing i d run with
  | zero => cases h
  | succ fuel ih =>
    unfold drainLoop at h
    split at h
    · cases h
      exact Nat.zero_le _
    · cases hissue : issue config deadlineAt ((wires i).round N) d with
      | none =>
        rw [hissue] at h
        cases h
        exact Nat.zero_le _
      | some request =>
        simp only [hissue] at h
        have hlast : ∀ outcome : Except CallError (RuntimeListSessionsResult N),
            (settlements call wires i (Run.mk [request] outcome).requests).countP CallEvent.isFailed ≤ 1 := by
          intro outcome
          exact List.countP_le_length
        cases hpass : ListSessions.pass deadlineAt ((wires i).round N) d request with
        | returns result =>
          simp only [hpass] at h
          cases h
          exact (hlast _).trans (Nat.le_add_left _ _)
        | throws error =>
          simp only [hpass] at h
          cases h
          exact (hlast _).trans (Nat.le_add_left _ _)
        | continues d' =>
          simp only [hpass] at h
          obtain ⟨more, hmore, rfl⟩ := Option.map_eq_some_iff.1 h
          show (settlement (call i) (wires i) request :: settlements call wires (i + 1) more.requests).countP _ ≤ _
          rw [List.countP_cons]
          unfold ListSessions.pass at hpass
          cases hanswer : (wires i).answer request with
          | ok response =>
            have hround : ((wires i).round N).answer request = .ok response := by
              simp [WireRound.round, hanswer, Except.mapError]
            have hsame : d'.pageSizeHalvings = d.pageSizeHalvings := by
              rw [hround] at hpass
              unfold received at hpass
              dsimp only at hpass
              split at hpass
              · cases hpass
              · cases hpass
                rfl
            have hanswered : (settlement (call i) (wires i) request).isFailed = false := by
              simp [settlement, hanswer, CallEvent.isFailed]
            have hrest := ih hmore (hsame ▸ hhalvings)
            rw [hanswered, if_neg Bool.false_ne_true]
            omega
          | error failure =>
            have hround : ((wires i).round N).answer request = .error (unaryError N failure) := by
              simp [WireRound.round, hanswer, Except.mapError]
            rw [hround] at hpass
            obtain ⟨hhalved, hless⟩ := caught_halves hpass
            have hrest := ih hmore (by omega)
            split <;> omega

private theorem exec_failureCount_le {breaker : CircuitBreakerConfig} {s t : CircuitBreaker.State} {es : List CallEvent}
    (h : (CircuitBreaker.machine breaker).exec s (es.map CallEvent.action) = some t) :
    t.breaker.failureCount ≤ s.breaker.failureCount + es.countP CallEvent.counted := by
  induction es generalizing s with
  | nil =>
    cases h
    exact Nat.le_refl _
  | cons e es ih =>
    obtain ⟨u, hu, h⟩ := Machine.exec_cons_eq_some.1 h
    have hrest := ih h
    have hfirst := next_failureCount hu
    rw [List.countP_cons]
    split at hfirst <;> omega

/-- Where no other caller's error is counted, a drain that finds the breaker without failures leaves it `CLOSED` all
along, whatever the runtime answers and whatever runs between its calls, if the threshold is at least four: few of its
calls fail. -/
theorem drain_keeps_closed {breaker : CircuitBreakerConfig} (hthreshold : 4 ≤ breaker.failureThreshold)
    {startedAt : Int} {fuel : Nat} {run : ListSessions.Run N}
    (hrun : listSessions config (fun i => (wires i).round N) startedAt fuel = some run)
    {s t : CircuitBreaker.State} (hs : (CircuitBreaker.machine breaker).Reachable s)
    (hnone : s.breaker.failureCount = 0) {es : List CallEvent}
    (hes : (es.filter CallEvent.counted).Sublist (settlements call wires 0 run.requests))
    (h : (CircuitBreaker.machine breaker).exec s (es.map CallEvent.action) = some t) :
    t.breaker.state = .closed ∧
      (settlements call wires 0 run.requests).countP CallEvent.isFailed ≤ MAX_PAGE_SIZE_HALVINGS + 1 := by
  have hfailures : (settlements call wires 0 run.requests).countP CallEvent.isFailed ≤ MAX_PAGE_SIZE_HALVINGS + 1 :=
    countP_settlements_le hrun (Nat.zero_le _)
  have hcounted : es.countP CallEvent.counted ≤ 3 := by
    have hle := (hes.filter CallEvent.counted).length_le
    rw [List.filter_filter, ← List.countP_eq_length_filter, ← List.countP_eq_length_filter] at hle
    simp only [Bool.and_self] at hle
    exact hle.trans ((List.countP_mono_left fun e _ => CallEvent.isFailed_of_counted).trans hfailures)
  have hthreshold' : 1 ≤ breaker.failureThreshold := le_trans (by decide) hthreshold
  have hwell := CircuitBreaker.wellFormed_of_reachable hthreshold' (hs.exec h)
  refine ⟨hwell.closed_iff.2 (lt_of_lt_of_le ?_ hthreshold), hfailures⟩
  have hfew : t.breaker.failureCount ≤ 3 := by
    have hle := exec_failureCount_le h
    omega
  have hcast : (t.breaker.failureCount : Rat) ≤ (3 : Nat) := by exact_mod_cast hfew
  exact lt_of_le_of_lt hcast (by decide)

/-- A runtime none of whose pages can be received: three calls fail. -/
theorem drain_keeps_closed_tooLarge :
    let tooLarge : CallFailure := .service { code := 8 }
    let wire : WireRound := { checkedAt := 0, issuedAt := 0, failedAt := 0, answer := fun _ => .error tooLarge }
    let es : List CallEvent :=
      [.called 0, .failed 0 tooLarge, .called 1, .failed 1 tooLarge, .called 2, .failed 2 tooLarge]
    ∃ run : ListSessions.Run (Option Rat),
      listSessions smallConfig (fun _ => wire.round (Option Rat)) 0 8 = some run ∧ run.requests.length = 3 ∧
      ∃ t, (CircuitBreaker.machine ⟨5, 30000⟩).exec (.initial 0) (es.map CallEvent.action) = some t ∧
        t.breaker.state = .closed ∧ (settlements id (fun _ => wire) 0 run.requests).countP CallEvent.isFailed ≤ 3 := by
  intro tooLarge wire es
  obtain ⟨run, hrun, hrequests, hsettlements⟩ : ∃ run : ListSessions.Run (Option Rat),
      listSessions smallConfig (fun _ => wire.round (Option Rat)) 0 8 = some run ∧ run.requests.length = 3 ∧
        settlements id (fun _ => wire) 0 run.requests =
          [.failed 0 tooLarge, .failed 1 tooLarge, .failed 2 tooLarge] := ⟨_, rfl, rfl, rfl⟩
  obtain ⟨t, ht⟩ : ∃ t, (CircuitBreaker.machine ⟨5, 30000⟩).exec (.initial 0) (es.map CallEvent.action) = some t :=
    ⟨_, rfl⟩
  have hreachable : (CircuitBreaker.machine ⟨5, 30000⟩).Reachable (.initial 0) := ⟨_, [], ⟨0, rfl⟩, rfl⟩
  have hes : (es.filter CallEvent.counted).Sublist (settlements id (fun _ => wire) 0 run.requests) := by
    rw [hsettlements]
    decide
  exact ⟨run, hrun, hrequests, t, ht, drain_keeps_closed (by decide) hrun hreachable rfl hes ht⟩

end Drain

end MacpControlPlane

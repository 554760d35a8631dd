import MacpControlPlane.Lib.JsonSchema
import MacpControlPlane.Lib.Trim

/-!
# Who is let in (`auth/auth.guard.ts`, `config/app-config.service.ts`)

The guard compares the token of a request with the API keys of the environment, and lets everybody in where there are
none; `validate` refuses to start without keys outside development.  Put together: once the service has started, a
request to a route that is not public is admitted if and only if it names a key (`admitted_iff`).  What the runtime is
sent as a credential rests on the same checks (`runtime/runtime-credential-resolver.service.ts`).
-/

namespace MacpControlPlane.AuthGuard

open Js JsonSchema

variable {N : Type}

/-! ### The configuration -/

/-- `process.env` -/
abbrev Env := String → Option String

section Configuration

variable [JsNumber N] [SchemaNumber N]

def readBoolean (env : Env) (name : String) (defaultValue : Bool) : Bool :=
  match env name with
  | none => defaultValue
  | some raw => lowerCase raw ∈ ["1", "true", "yes", "on"]

def readNumber (env : Env) (name : String) (defaultValue : N) : N :=
  match env name with
  | none => defaultValue
  | some raw =>
    let parsed : N := JsNumber.parse raw
    if JsNumber.isFinite parsed then parsed else defaultValue

def readValidatedNumber (env : Env) (name : String) (defaultValue : N) : N :=
  match env name with
  | none => defaultValue
  | some raw => JsNumber.parse raw

def readStringList (env : Env) (name : String) : List String :=
  match env name with
  | none => []
  | some raw => ((raw.toList.splitOn ',').map fun piece => trim (String.ofList piece)).filter (· ≠ "")

/-- `AppConfigService`, as far as it is checked at the start or decides who is let in. -/
structure AppConfig (N : Type) where
  nodeEnv : String
  authApiKeys : List String
  runtimeTls : Bool
  runtimeAllowInsecure : Bool
  runtimeMaxReceiveMessageBytes : N
  runtimeMaxSendMessageBytes : N
  runtimeBearerToken : String
  runtimeUseDevHeader : Bool
  runtimeDevAgentId : String
  runtimeListSessionsPageSize : N
  runtimeListSessionsMaxPages : N
  runtimeListSessionsTimeoutMs : N
  authServiceUrl : String
  dbPoolMax : N
  dataRetentionEnabled : Bool
  dataRetentionTtlDays : N

variable (N) in
def AppConfig.read (env : Env) : AppConfig N where
  nodeEnv := (env "NODE_ENV").getD "development"
  authApiKeys := readStringList env "AUTH_API_KEYS"
  runtimeTls := readBoolean env "RUNTIME_TLS" false
  runtimeAllowInsecure := readBoolean env "RUNTIME_ALLOW_INSECURE" (env "NODE_ENV" = some "development")
  runtimeMaxReceiveMessageBytes :=
    readValidatedNumber env "RUNTIME_MAX_RECEIVE_MESSAGE_BYTES" (JsNumber.ofNat 16777216)
  runtimeMaxSendMessageBytes := readValidatedNumber env "RUNTIME_MAX_SEND_MESSAGE_BYTES" (JsNumber.ofNat 4194304)
  runtimeBearerToken := (env "RUNTIME_BEARER_TOKEN").getD ""
  runtimeUseDevHeader := readBoolean env "RUNTIME_USE_DEV_HEADER" (env "NODE_ENV" = some "development")
  runtimeDevAgentId := (env "RUNTIME_DEV_AGENT_ID").getD "macp-control-plane"
  runtimeListSessionsPageSize := readValidatedNumber env "RUNTIME_LIST_SESSIONS_PAGE_SIZE" (JsNumber.ofNat 200)
  runtimeListSessionsMaxPages := readValidatedNumber env "RUNTIME_LIST_SESSIONS_MAX_PAGES" (JsNumber.ofNat 200)
  runtimeListSessionsTimeoutMs := readValidatedNumber env "RUNTIME_LIST_SESSIONS_TIMEOUT_MS" (JsNumber.ofNat 60000)
  authServiceUrl := (env "MACP_AUTH_SERVICE_URL").getD ""
  dbPoolMax := readNumber env "DB_POOL_MAX" (JsNumber.ofNat 20)
  dataRetentionEnabled := readBoolean env "DATA_RETENTION_ENABLED" false
  dataRetentionTtlDays := readNumber env "DATA_RETENTION_TTL_DAYS" (JsNumber.ofNat 30)

/-- `Number.isInteger(n) && n > 0` -/
def positiveInteger (n : N) : Bool := SchemaNumber.isInteger n && JsNumber.positive n

/-- The check of a number that has to be a positive integer. -/
def assertPositiveInteger (name : String) (n : N) : Except String Unit :=
  if positiveInteger n then .ok () else .error (name ++ " must be a positive integer")

/-- `validate`, without its warnings. -/
def AppConfig.validate (config : AppConfig N) : Except String Unit := do
  assertPositiveInteger "RUNTIME_LIST_SESSIONS_PAGE_SIZE" config.runtimeListSessionsPageSize
  assertPositiveInteger "RUNTIME_LIST_SESSIONS_MAX_PAGES" config.runtimeListSessionsMaxPages
  assertPositiveInteger "RUNTIME_LIST_SESSIONS_TIMEOUT_MS" config.runtimeListSessionsTimeoutMs
  assertPositiveInteger "RUNTIME_MAX_RECEIVE_MESSAGE_BYTES" config.runtimeMaxReceiveMessageBytes
  assertPositiveInteger "RUNTIME_MAX_SEND_MESSAGE_BYTES" config.runtimeMaxSendMessageBytes
  if config.nodeEnv = "development" then return
  if config.runtimeBearerToken = "" ∧ config.authServiceUrl = "" ∧ config.runtimeUseDevHeader = true then
    throw ("RUNTIME_BEARER_TOKEN (or MACP_AUTH_SERVICE_URL) must be set in production; the RUNTIME_USE_DEV_HEADER " ++
      "dev-bearer fallback is not permitted")
  if config.runtimeTls = false ∧ config.runtimeAllowInsecure = false then
    throw "RUNTIME_TLS must be true in production, or set RUNTIME_ALLOW_INSECURE=true to override"
  if config.authApiKeys = [] then
    throw "AUTH_API_KEYS must be set in production. Empty value disables authentication."
  if config.dataRetentionEnabled = true ∧ SchemaNumber.atLeast config.dataRetentionTtlDays 1 = false then
    throw "DATA_RETENTION_TTL_DAYS must be >= 1 when retention is enabled"
  if SchemaNumber.atLeast config.dbPoolMax 2 = false then
    throw "DB_POOL_MAX must be >= 2 to avoid connection pool starvation"

end Configuration

/-! ### The guard -/

/-- What the guard attaches to a request. -/
structure Actor where
  actorId : String
  actorType : String
  deriving DecidableEq

def bearerPrefix : String := "Bearer "

/-- `canActivate`: the message of the `UnauthorizedException`, or what is attached to the request.  The text of a header
has one code unit for a character. -/
def canActivate (isPublic : Bool) (validTokens : List String) (authorization : Option String) :
    Except String (Option Actor) :=
  if isPublic then .ok none
  else
    let authHeader := authorization.getD ""
    if authHeader = "" then .error "Missing Authorization header"
    else
      let token :=
        if startsWith authHeader bearerPrefix then String.ofList (authHeader.toList.drop 7) else authHeader
      if token = "" then .error "Empty authorization token"
      else if validTokens = [] then .ok none
      else if token ∉ validTokens then .error "Invalid authorization token"
      else .ok (some ⟨String.ofList (token.toList.take 8) ++ "...", "api-key"⟩)

/-- `getTracker` of `ThrottleByUserGuard` -/
def getTracker (actor : Option Actor) (ip : Option String) : String :=
  ((actor.map Actor.actorId).or ip).getD "anonymous"

/-- `resolve` of `RuntimeCredentialResolverService`: the `authorization` that is sent to the runtime; `minted` is what
`getToken` comes to. -/
def resolve (config : AppConfig N) (minted : Except String String) : Option String :=
  match (if config.authServiceUrl ≠ "" then minted.toOption else none) with
  | some token => some (bearerPrefix ++ token)
  | none =>
    if config.runtimeBearerToken ≠ "" then some (bearerPrefix ++ config.runtimeBearerToken)
    else if config.runtimeUseDevHeader then some (bearerPrefix ++ config.runtimeDevAgentId)
    else none

/-! ### Keys -/

variable {env : Env} {config : AppConfig N}

/-- The pieces of a list that is split at a separator are without it. -/
theorem not_mem_of_mem_splitOn {α : Type} [BEq α] [LawfulBEq α] {sep : α} {xs piece : List α}
    (h : piece ∈ xs.splitOn sep) : sep ∉ piece := by
  induction xs generalizing piece with
  | nil =>
    rw [List.splitOn_nil, List.mem_singleton] at h
    rw [h]
    exact List.not_mem_nil
  | cons x xs ih =>
    rw [List.splitOn_cons_eq_if_modifyHead] at h
    split at h
    · rcases List.mem_cons.1 h with rfl | h
      · exact List.not_mem_nil
      · exact ih h
    · rename_i hne
      obtain ⟨first, rest, hsplit⟩ := List.exists_cons_of_ne_nil (List.splitOn_ne_nil sep xs)
      rw [hsplit] at h ih
      rcases List.mem_cons.1 h with rfl | h
      · refine fun hmem => (List.mem_cons.1 hmem).elim (fun heq => ?_) (ih List.mem_cons_self)
        exact hne (beq_iff_eq.2 heq.symm)
      · exact ih (List.mem_cons_of_mem _ h)

/-- A configured key is what is left of an entry of the list; there is no comma in it and no space around it. -/
theorem mem_readStringList {name key : String} (h : key ∈ readStringList env name) :
    (∃ raw piece, env name = some raw ∧ piece ∈ raw.toList.splitOn ',' ∧ key = trim (String.ofList piece)) ∧
      key ≠ "" ∧ trim key = key ∧ ',' ∉ key.toList := by
  unfold readStringList at h
  split at h
  · cases h
  · rename_i raw hraw
    obtain ⟨hmem, hne⟩ := List.mem_filter.1 h
    obtain ⟨piece, hpiece, rfl⟩ := List.mem_map.1 hmem
    refine ⟨⟨raw, piece, hraw, hpiece, rfl⟩, of_decide_eq_true hne, trim_trim _, fun hcomma => ?_⟩
    have hpiece' := (isInfix_trim _).subset hcomma
    rw [String.toList_ofList] at hpiece'
    exact not_mem_of_mem_splitOn hpiece hpiece'

/-! ### Requests -/

private theorem startsWith_iff {s p : String} : startsWith s p = true ↔ ∃ rest, s = p ++ rest := by
  rw [startsWith, List.isPrefixOf_iff_prefix]
  constructor
  · rintro ⟨rest, hrest⟩
    exact ⟨String.ofList rest, by rw [← String.toList_inj, String.toList_append, String.toList_ofList, hrest]⟩
  · rintro ⟨rest, rfl⟩
    exact ⟨rest.toList, (String.toList_append ..).symm⟩

/-- The text of a header that bears the key. -/
def Bears (authorization : Option String) (key : String) : Prop :=
  authorization = some (bearerPrefix ++ key) ∨ authorization = some key ∧ startsWith key bearerPrefix = false

def actorOf (key : String) : Actor := ⟨String.ofList (key.toList.take 8) ++ "...", "api-key"⟩

private theorem drop_bearer (key : String) : String.ofList ((bearerPrefix ++ key).toList.drop 7) = key := by
  rw [String.toList_append, List.drop_append_of_le_length (by decide), ← String.toList_inj, String.toList_ofList]
  rfl

/-- Where there are keys, the guard admits a request that bears one, and none else. -/
theorem canActivate_eq_ok {keys : List String} (hkeys : keys ≠ []) (hne : ∀ key ∈ keys, key ≠ "")
    {authorization : Option String} {actor : Option Actor} :
    canActivate false keys authorization = .ok actor ↔
      ∃ key ∈ keys, Bears authorization key ∧ actor = some (actorOf key) := by
  constructor
  · intro h
    simp only [canActivate, Bool.false_eq_true, if_false, hkeys] at h
    split at h
    · cases h
    · rename_i hheader
      obtain ⟨header, rfl⟩ : ∃ header, authorization = some header := by
        cases authorization with
        | none => exact absurd rfl hheader
        | some header => exact ⟨header, rfl⟩
      simp only [Option.getD_some] at h
      split_ifs at h with hbearer hempty hmem hempty hmem
      · obtain ⟨rest, rfl⟩ := startsWith_iff.1 hbearer
        rw [drop_bearer] at h hmem
        cases h
        exact ⟨rest, hmem, .inl rfl, rfl⟩
      · cases h
        exact ⟨header, hmem, .inr ⟨rfl, Bool.eq_false_iff.2 hbearer⟩, rfl⟩
  · rintro ⟨key, hmem, hbears, rfl⟩
    have hkey := hne key hmem
    rcases hbears with rfl | ⟨rfl, hplain⟩
    · have hstarts : startsWith (bearerPrefix ++ key) bearerPrefix = true := startsWith_iff.2 ⟨key, rfl⟩
      have hheader : bearerPrefix ++ key ≠ "" := by
        intro h
        rw [← String.toList_inj, String.toList_append] at h
        exact absurd (List.append_eq_nil_iff.1 h).1 (by decide)
      simp only [canActivate, Bool.false_eq_true, if_false, Option.getD_some, hheader, hstarts, if_true, drop_bearer,
        hkey, hkeys, hmem, not_true_eq_false, actorOf]
    · simp only [canActivate, Bool.false_eq_true, if_false, Option.getD_some, hplain, hkey, hkeys, hmem,
        not_true_eq_false, actorOf]

/-- The key is an entry of `AUTH_API_KEYS`. -/
def Configured (env : Env) (key : String) : Prop :=
  ∃ raw piece, env "AUTH_API_KEYS" = some raw ∧ piece ∈ raw.toList.splitOn ',' ∧ key = trim (String.ofList piece) ∧
    key ≠ ""

private theorem mem_authApiKeys {key : String} : key ∈ readStringList env "AUTH_API_KEYS" ↔ Configured env key := by
  constructor
  · intro h
    obtain ⟨⟨raw, piece, hraw, hpiece, heq⟩, hne, -⟩ := mem_readStringList h
    exact ⟨raw, piece, hraw, hpiece, heq, hne⟩
  · rintro ⟨raw, piece, hraw, hpiece, rfl, hne⟩
    simp only [readStringList, hraw]
    exact List.mem_filter.2 ⟨List.mem_map.2 ⟨piece, hpiece, rfl⟩, decide_eq_true hne⟩

/-- Callers are throttled together, and recorded under one name, if their keys begin with the same eight characters. -/
theorem getTracker_actorOf {key key' : String} {ip ip' : Option String} :
    getTracker (some (actorOf key)) ip = getTracker (some (actorOf key')) ip' ↔
      key.toList.take 8 = key'.toList.take 8 := by
  change String.ofList (key.toList.take 8) ++ "..." = String.ofList (key'.toList.take 8) ++ "..." ↔ _
  rw [← String.toList_inj, String.toList_append, String.toList_append, List.append_left_inj, String.toList_ofList,
    String.toList_ofList]

/-- An environment of production. -/
def productionEnv : Env
  | "NODE_ENV" => some "production"
  | "RUNTIME_TLS" => some "true"
  | "AUTH_API_KEYS" => some "key-one, key-two ,"
  | _ => none

variable [JsNumber N] [SchemaNumber N]

/-- What has been checked where the service starts outside development. -/
theorem validate_eq_ok (hproduction : config.nodeEnv ≠ "development") (h : config.validate = .ok ()) :
    ¬ (config.runtimeBearerToken = "" ∧ config.authServiceUrl = "" ∧ config.runtimeUseDevHeader = true) ∧
      config.authApiKeys ≠ [] := by
  simp only [AppConfig.validate, assertPositiveInteger, bind, Except.bind, pure, Except.pure, throw, throwThe,
    MonadExceptOf.throw, hproduction, if_false] at h
  split_ifs at h with _ _ _ _ _ hcredential _ hkeys
  exact ⟨hcredential, hkeys⟩

/-- Outside development, the name of the development agent is never sent to the runtime without an auth service. -/
theorem resolve_production (hproduction : config.nodeEnv ≠ "development") (hstart : config.validate = .ok ())
    (hurl : config.authServiceUrl = "") (minted : Except String String) :
    resolve config minted =
      if config.runtimeBearerToken = "" then none else some (bearerPrefix ++ config.runtimeBearerToken) := by
  obtain ⟨hcredential, -⟩ := validate_eq_ok hproduction hstart
  split_ifs with hbearer
  · have hdev : config.runtimeUseDevHeader = false := Bool.eq_false_iff.2 fun hdev => hcredential ⟨hbearer, hurl, hdev⟩
    simp [resolve, hurl, hbearer, hdev]
  · simp [resolve, hurl, hbearer]

/-- Once the service has started outside development, a request to a route that is not public is admitted if and only if
its header names an entry of `AUTH_API_KEYS`, bare or as a bearer token, and what is attached to it is that of the
entry.  No entry has a comma in it or space around it. -/
theorem admitted_iff (hproduction : (AppConfig.read N env).nodeEnv ≠ "development")
    (hstart : (AppConfig.read N env).validate = .ok ()) :
    (∀ authorization actor, canActivate false (AppConfig.read N env).authApiKeys authorization = .ok actor ↔
      ∃ key, Configured env key ∧ Bears authorization key ∧ actor = some (actorOf key)) ∧
    ∀ key, Configured env key → trim key = key ∧ ',' ∉ key.toList := by
  have hkeys : readStringList env "AUTH_API_KEYS" ≠ [] := (validate_eq_ok hproduction hstart).2
  have hne : ∀ key ∈ readStringList env "AUTH_API_KEYS", key ≠ "" := fun key hkey => (mem_readStringList hkey).2.1
  refine ⟨fun authorization actor => (canActivate_eq_ok hkeys hne).trans ?_, fun key hkey => ?_⟩
  · simp only [mem_authApiKeys]
  · exact (mem_readStringList (mem_authApiKeys.2 hkey)).2.2

theorem admitted_iff_production :
    (∀ authorization actor,
      canActivate false (AppConfig.read (Option Rat) productionEnv).authApiKeys authorization = .ok actor ↔
        ∃ key, Configured productionEnv key ∧ Bears authorization key ∧ actor = some (actorOf key)) ∧
    ∀ key, Configured productionEnv key → trim key = key ∧ ',' ∉ key.toList :=
  admitted_iff (by decide) (by decide +kernel)

end MacpControlPlane.AuthGuard

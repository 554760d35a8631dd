import Mathlib.Algebra.Order.Floor.Defs
import Mathlib.Data.Rat.Floor
import Mathlib.Tactic.Linarith
import MacpControlPlane.Lib.Callers
import MacpControlPlane.Lib.Machine

/-!
# The token of the control plane (`runtime/runtime-jwt-minter.service.ts`)

Every call to the runtime asks `getToken` for the token.  It comes from the cache, or from a request to the auth
service that the callers of that time share.  The steps are the calls, the moments at which a request has been answered
and `refresh` has run to its end, the callbacks of `finally`, and the clock.

Times are milliseconds.  `expires_in_seconds` is `none` when it is not a finite number.
-/

namespace MacpControlPlane.RuntimeJwtMinter

open Machine

def refreshBufferMs : Rat := 30000

def clockSkewMs : Rat := 10000

structure Config where
  authServiceUrl : String
  authTokenTtlSeconds : Rat

def Config.isEnabled (config : Config) : Bool := config.authServiceUrl ≠ ""

structure CacheEntry where
  token : String
  expiresAt : Rat
  deriving DecidableEq

/-- What comes back for a request. -/
inductive MintReply where
  /-- `fetch` throws. -/
  | networkError (reason : String)
  /-- The response is not `ok`. -/
  | http (status : Nat)
  /-- `response.json()` throws. -/
  | invalidJson (reason : String)
  | json (token : Option String) (expiresInSeconds : Option Rat)
  deriving DecidableEq

/-- A mint that has succeeded: what the response declares, and when it was received. -/
structure Minted where
  token : String
  expiresInSeconds : Option Rat
  receivedAt : Nat
  deriving DecidableEq

/-- `refresh` from the reply on: the error it throws, or the token it caches. -/
def refresh (now : Nat) : MintReply → Except String Minted
  | .networkError reason => .error s!"auth-service request failed: {reason}"
  | .http status => .error s!"auth-service returned {status}"
  | .invalidJson reason => .error s!"auth-service response parse failed: {reason}"
  | .json token expiresInSeconds =>
    match token with
    | none | some "" => .error "auth-service response missing token"
    | some token => .ok ⟨token, expiresInSeconds, now⟩

/-- `ttlSec` -/
def ttlSeconds (config : Config) : Option Rat → Rat
  | some expiresInSeconds => max 60 ⌊expiresInSeconds⌋
  | none => config.authTokenTtlSeconds

def cacheEntry (config : Config) (minted : Minted) : CacheEntry where
  token := minted.token
  expiresAt := minted.receivedAt + ttlSeconds config minted.expiresInSeconds * 1000

/-- A request to the auth service. -/
inductive Mint where
  /-- It has been sent. -/
  | requested
  /-- `refresh` has returned, or thrown; the callback of `finally` is waiting to run. -/
  | settled (ok : Bool)
  /-- `inflight` has been cleared, and the callers have the result. -/
  | done (ok : Bool)
  deriving DecidableEq

structure State where
  now : Nat := 0
  cache : Option CacheEntry := none
  /-- The request that `inflight` is the promise of. -/
  inflight : Option Nat := none
  mints : List Mint := []
  /-- The last mint that has succeeded. -/
  minted : Option Minted := none
  /-- A mint has failed, and `getToken` has not been called since its callers were told. -/
  failed : Bool := false
  deriving DecidableEq

/-- What a call of `getToken` returns. -/
inductive Answer where
  /-- It throws: there is no auth service. -/
  | disabled
  | cached (token : String)
  /-- The promise of a request that is in flight. -/
  | joined (mint : Nat)
  /-- The promise of a new request. -/
  | started (mint : Nat)
  deriving DecidableEq

/-- `now < this.cache.expiresAt - REFRESH_BUFFER_MS - CLOCK_SKEW_MS` -/
def CacheEntry.fresh (entry : CacheEntry) (now : Nat) : Bool :=
  (now : Rat) < entry.expiresAt - refreshBufferMs - clockSkewMs

def getToken (config : Config) (s : State) : Answer :=
  if !config.isEnabled then .disabled
  else
    match s.cache.filter fun entry => entry.fresh s.now, s.inflight with
    | some entry, _ => .cached entry.token
    | none, some mint => .joined mint
    | none, none => .started s.mints.length

inductive Action where
  | tick (ms : Nat)
  | getToken
  /-- `refresh` of a request runs to its end. -/
  | reply (mint : Nat) (reply : MintReply)
  /-- The callback of `finally`. -/
  | cleared (mint : Nat)
  deriving DecidableEq

def next (config : Config) (s : State) : Action → Option State
  | .tick ms => some { s with now := s.now + ms }
  | .getToken =>
    match getToken config s with
    | .started mint =>
      some { s with mints := s.mints ++ [.requested], inflight := some mint, failed := false }
    | .disabled | .cached _ | .joined _ => some { s with failed := false }
  | .reply mint reply =>
    match s.mints[mint]?, refresh s.now reply with
    | some .requested, .ok minted =>
      some
        { s with
          mints := s.mints.set mint (.settled true)
          cache := some (cacheEntry config minted)
          minted := some minted }
    | some .requested, .error _ => some { s with mints := s.mints.set mint (.settled false) }
    | _, _ => none
  | .cleared mint =>
    match s.mints[mint]? with
    | some (.settled ok) =>
      some { s with mints := s.mints.set mint (.done ok), inflight := none, failed := s.failed || !ok }
    | _ => none

def machine (config : Config) : Machine State Action where
  start s := s = {}
  next := next config

/-! ### What is asked of the cache -/

/-- The time at which a declared lifetime is over. -/
def Minted.lifetimeEnd (minted : Minted) (expiresInSeconds : Rat) : Rat := minted.receivedAt + expiresInSeconds * 1000

/-- At most one request is in flight. -/
def OneInFlight (s : State) : Prop :=
  ∀ i j : Nat, s.mints[i]? = some .requested → s.mints[j]? = some .requested → i = j

/-- What a step is to respect. -/
structure Safe (config : Config) (s : State) (a : Action) : Prop where
  oneInFlight : OneInFlight s
  /-- A token from the cache is that of the last mint, before the end of its declared lifetime. -/
  lifetime : a = .getToken → ∀ token, getToken config s = .cached token →
    ∃ minted, s.minted = some minted ∧ minted.token = token ∧
      ∀ seconds, minted.expiresInSeconds = some seconds → (s.now : Rat) < minted.lifetimeEnd seconds
  /-- After a failed mint, the next call starts a new one. -/
  retry : a = .getToken → s.failed = true → ∃ mint, getToken config s = .started mint

/-- The lifetime of the last token is at least 20 seconds, or the call does not come between its end and the moment 20
seconds after the response. -/
def Covered (s : State) (a : Action) : Prop :=
  a = .getToken → ∀ minted seconds, s.minted = some minted → minted.expiresInSeconds = some seconds →
    20 ≤ seconds ∨ (s.now : Rat) < minted.lifetimeEnd seconds ∨ (minted.receivedAt + 20000 : Rat) ≤ s.now

/-! ### What a step does -/

variable {config : Config} {s t : State}

/-- The cache has no token to return. -/
def Stale (s : State) : Prop := ∀ entry, s.cache = some entry → entry.fresh s.now = false

private theorem filter_eq_none_iff : (s.cache.filter fun entry => entry.fresh s.now) = none ↔ Stale s := by
  simp [Stale, Option.filter_eq_none_iff]

private theorem getToken_cases (config : Config) (s : State) :
    (config.isEnabled = false ∧ getToken config s = .disabled) ∨
      (∃ entry, s.cache = some entry ∧ entry.fresh s.now = true ∧ getToken config s = .cached entry.token) ∨
      (∃ mint, s.inflight = some mint ∧ getToken config s = .joined mint) ∨
      (config.isEnabled = true ∧ Stale s ∧ s.inflight = none ∧ getToken config s = .started s.mints.length) := by
  unfold getToken
  cases henabled : config.isEnabled with
  | false => exact .inl ⟨rfl, rfl⟩
  | true =>
    right
    cases hfresh : s.cache.filter fun entry => entry.fresh s.now with
    | some entry =>
      obtain ⟨hcache, hentry⟩ := Option.filter_eq_some_iff.1 hfresh
      exact .inl ⟨entry, hcache, hentry, rfl⟩
    | none =>
      right
      cases hinflight : s.inflight with
      | some mint => exact .inl ⟨mint, rfl, rfl⟩
      | none => exact .inr ⟨rfl, filter_eq_none_iff.1 hfresh, rfl, rfl⟩

/-- A token comes from the cache only while the entry is fresh. -/
theorem cached_of_getToken {token : String} (h : getToken config s = .cached token) :
    ∃ entry, s.cache = some entry ∧ entry.fresh s.now = true ∧ entry.token = token := by
  obtain ⟨-, h'⟩ | ⟨entry, hcache, hfresh, h'⟩ | ⟨mint, -, h'⟩ | ⟨-, -, -, h'⟩ := getToken_cases config s
  · exact absurd (h.symm.trans h') nofun
  · exact ⟨entry, hcache, hfresh, Answer.cached.inj (h'.symm.trans h)⟩
  · exact absurd (h.symm.trans h') nofun
  · exact absurd (h.symm.trans h') nofun

private theorem next_cases {a : Action} (h : next config s a = some t) :
    (∃ ms, a = .tick ms ∧ t = { s with now := s.now + ms }) ∨
      (a = .getToken ∧ t = { s with failed := false }) ∨
      (a = .getToken ∧ config.isEnabled = true ∧ Stale s ∧ s.inflight = none ∧
        t = { s with mints := s.mints ++ [.requested], inflight := some s.mints.length, failed := false }) ∨
      (∃ mint reply minted, a = .reply mint reply ∧ s.mints[mint]? = some .requested ∧
        refresh s.now reply = .ok minted ∧ t =
          { s with
            mints := s.mints.set mint (.settled true)
            cache := some (cacheEntry config minted)
            minted := some minted }) ∨
      (∃ mint reply, a = .reply mint reply ∧ s.mints[mint]? = some .requested ∧
        t = { s with mints := s.mints.set mint (.settled false) }) ∨
      (∃ mint ok, a = .cleared mint ∧ s.mints[mint]? = some (.settled ok) ∧
        t = { s with mints := s.mints.set mint (.done ok), inflight := none, failed := s.failed || !ok }) := by
  cases a with
  | tick ms => exact .inl ⟨ms, rfl, (Option.some.inj h).symm⟩
  | getToken =>
    right
    obtain ⟨-, htoken⟩ | ⟨entry, -, -, htoken⟩ | ⟨mint, -, htoken⟩ | ⟨henabled, hstale, hinflight, htoken⟩ :=
      getToken_cases config s
    · rw [next, htoken] at h
      exact .inl ⟨rfl, (Option.some.inj h).symm⟩
    · rw [next, htoken] at h
      exact .inl ⟨rfl, (Option.some.inj h).symm⟩
    · rw [next, htoken] at h
      exact .inl ⟨rfl, (Option.some.inj h).symm⟩
    · rw [next, htoken] at h
      exact .inr (.inl ⟨rfl, henabled, hstale, hinflight, (Option.some.inj h).symm⟩)
  | reply mint reply =>
    right; right; right
    simp only [next] at h
    split at h
    · rename_i minted hmint hreply
      exact .inl ⟨mint, reply, minted, rfl, hmint, hreply, (Option.some.inj h).symm⟩
    · rename_i hmint hreply
      exact .inr (.inl ⟨mint, reply, rfl, hmint, (Option.some.inj h).symm⟩)
    · exact absurd h nofun
  | cleared mint =>
    right; right; right; right; right
    simp only [next] at h
    split at h
    · rename_i ok hmint
      exact ⟨mint, ok, rfl, hmint, (Option.some.inj h).symm⟩
    · exact absurd h nofun

/-! ### What every step keeps -/

/-- The request is not over. -/
def Mint.live : Mint → Bool
  | .requested | .settled _ => true
  | .done _ => false

structure Inv (config : Config) (s : State) : Prop where
  cache : s.cache = s.minted.map (cacheEntry config)
  minted : s.minted ≠ none → config.isEnabled = true
  enabled : s.mints ≠ [] → config.isEnabled = true
  /-- Only the request of `inflight` is not over. -/
  live : ∀ (i : Nat) (mint : Mint), s.mints[i]? = some mint → mint.live = true → s.inflight = some i
  /-- A request is sent when the cache has no token, and so it stays until it succeeds. -/
  stale : ∀ (i : Nat) (mint : Mint), s.mints[i]? = some mint → mint.live = true → mint ≠ .settled true → Stale s
  failed : s.failed = true → s.inflight = none ∧ Stale s ∧ s.mints ≠ []

private theorem inv_initial : Inv config {} where
  cache := rfl
  minted h := absurd rfl h
  enabled h := absurd rfl h
  live := by simp
  stale := by simp
  failed := nofun

/-- A token that has gone stale stays so. -/
theorem Stale.tick (h : Stale s) (ms : Nat) : Stale { s with now := s.now + ms } := by
  intro entry hentry
  have hstale := h entry hentry
  simp only [CacheEntry.fresh, decide_eq_false_iff_not, not_lt] at hstale ⊢
  have hle : (s.now : Rat) ≤ ((s.now + ms : Nat) : Rat) := by exact_mod_cast Nat.le_add_right ..
  exact hstale.trans hle

private theorem ne_nil_of_getElem? {xs : List Mint} {i : Nat} {x : Mint} (h : xs[i]? = some x) : xs ≠ [] := by
  rintro rfl
  exact absurd h nofun

/-- What becomes of a request leaves the others alone. -/
theorem Inv.live_set (h : Inv config s) {i : Nat} {x y : Mint} (hi : s.mints[i]? = some x) (hx : x.live = true)
    {j : Nat} {mint : Mint} (hj : (s.mints.set i y)[j]? = some mint) (hlive : mint.live = true) :
    j = i ∧ mint = y := by
  rcases Callers.getElem?_set_cases hj with ⟨rfl, hy⟩ | ⟨hne, hj⟩
  · exact ⟨rfl, hy⟩
  · have hsame := (h.live i x hi hx).symm.trans (h.live j mint hj hlive)
    exact absurd (Option.some.inj hsame).symm hne

private theorem step_inv {a : Action} (h : Inv config s) (ha : next config s a = some t) : Inv config t := by
  obtain ⟨ms, rfl, rfl⟩ | ⟨rfl, rfl⟩ | ⟨rfl, henabled, hstale, hnone, rfl⟩ | ⟨i, reply, minted, rfl, hi, -, rfl⟩ |
    ⟨i, reply, rfl, hi, rfl⟩ | ⟨i, ok, rfl, hi, rfl⟩ := next_cases ha
  · exact ⟨h.cache, h.minted, h.enabled, h.live, fun i mint hi hlive hne => (h.stale i mint hi hlive hne).tick ms,
      fun hfailed => ⟨(h.failed hfailed).1, (h.failed hfailed).2.1.tick ms, (h.failed hfailed).2.2⟩⟩
  · exact ⟨h.cache, h.minted, h.enabled, h.live, h.stale, nofun⟩
  · refine ⟨h.cache, h.minted, fun _ => henabled, ?_, fun _ _ _ _ _ => hstale, nofun⟩
    intro j mint hj hlive
    rcases Callers.getElem?_concat_cases hj with ⟨rfl, -⟩ | hj
    · rfl
    · exact absurd (hnone.symm.trans (h.live j mint hj hlive)) nofun
  · have hinflight := h.live i _ hi rfl
    refine ⟨rfl, fun _ => h.enabled (ne_nil_of_getElem? hi), fun _ => h.enabled (ne_nil_of_getElem? hi), ?_, ?_, ?_⟩
    · intro j mint hj hlive
      obtain ⟨rfl, -⟩ := h.live_set hi rfl hj hlive
      exact hinflight
    · intro j mint hj hlive hne
      exact absurd (h.live_set hi rfl hj hlive).2 hne
    · intro hfailed
      exact absurd (hinflight.symm.trans (h.failed hfailed).1) nofun
  · have hinflight := h.live i _ hi rfl
    refine ⟨h.cache, h.minted, fun _ => h.enabled (ne_nil_of_getElem? hi), ?_, ?_, ?_⟩
    · intro j mint hj hlive
      obtain ⟨rfl, -⟩ := h.live_set hi rfl hj hlive
      exact hinflight
    · intro _ _ _ _ _
      exact h.stale i _ hi rfl nofun
    · intro hfailed
      exact absurd (hinflight.symm.trans (h.failed hfailed).1) nofun
  · have hinflight := h.live i _ hi rfl
    refine ⟨h.cache, h.minted, fun _ => h.enabled (ne_nil_of_getElem? hi), ?_, ?_, ?_⟩
    · intro j mint hj hlive
      obtain ⟨-, rfl⟩ := h.live_set hi rfl hj hlive
      exact absurd hlive nofun
    · intro j mint hj hlive
      obtain ⟨-, rfl⟩ := h.live_set hi rfl hj hlive
      exact absurd hlive nofun
    · intro hfailed
      have hnil : s.mints.set i (.done ok) ≠ [] := by
        simpa using ne_nil_of_getElem? hi
      cases ok with
      | true =>
        rw [Bool.not_true, Bool.or_false] at hfailed
        exact absurd (hinflight.symm.trans (h.failed hfailed).1) nofun
      | false => exact ⟨rfl, h.stale i _ hi rfl nofun, hnil⟩

private theorem Inv.oneInFlight (h : Inv config s) : OneInFlight s := by
  intro i j hi hj
  have hsame := (h.live i _ hi rfl).symm.trans (h.live j _ hj rfl)
  exact Option.some.inj hsame

/-- After a failed mint nothing is left to join, and nothing to take from the cache. -/
theorem Inv.started_of_failed (h : Inv config s) (hfailed : s.failed = true) :
    ∃ mint, getToken config s = .started mint := by
  obtain ⟨hnone, hstale, hmints⟩ := h.failed hfailed
  obtain ⟨hdisabled, -⟩ | ⟨entry, hcache, hfresh, -⟩ | ⟨mint, hmint, -⟩ | ⟨-, -, -, hstarted⟩ :=
    getToken_cases config s
  · exact absurd (hdisabled.symm.trans (h.enabled hmints)) nofun
  · exact absurd (hfresh.symm.trans (hstale entry hcache)) nofun
  · exact absurd (hnone.symm.trans hmint) nofun
  · exact ⟨_, hstarted⟩

/-! ### Lifetimes -/

private theorem fresh_cacheEntry {minted : Minted} {seconds : Rat} (hseconds : minted.expiresInSeconds = some seconds)
    (now : Nat) : (cacheEntry config minted).fresh now = true ↔
      (now : Rat) < minted.receivedAt + max 60 (⌊seconds⌋ : Rat) * 1000 - 40000 := by
  simp only [CacheEntry.fresh, cacheEntry, ttlSeconds, hseconds, refreshBufferMs, clockSkewMs, decide_eq_true_eq]
  constructor <;> intro h <;> linarith

/-- The buffers make up for the floor when the lifetime is 20 seconds or more. -/
theorem lt_lifetimeEnd_of_fresh {minted : Minted} {seconds : Rat} (hseconds : minted.expiresInSeconds = some seconds)
    {now : Nat} (hfresh : (cacheEntry config minted).fresh now = true) (h20 : 20 ≤ seconds) :
    (now : Rat) < minted.lifetimeEnd seconds := by
  rw [fresh_cacheEntry hseconds] at hfresh
  have hfloor : (⌊seconds⌋ : Rat) ≤ seconds := Int.floor_le seconds
  unfold Minted.lifetimeEnd
  rcases max_cases (60 : Rat) (⌊seconds⌋ : Rat) with ⟨hmax, -⟩ | ⟨hmax, -⟩
  · rw [hmax] at hfresh
    linarith
  · rw [hmax] at hfresh
    linarith

/-- A shorter one is taken for a minute, and the token is served for 20 seconds. -/
theorem fresh_iff_of_short {minted : Minted} {seconds : Rat} (hseconds : minted.expiresInSeconds = some seconds)
    {now : Nat} (h20 : seconds < 20) :
    (cacheEntry config minted).fresh now = true ↔ (now : Rat) < minted.receivedAt + 20000 := by
  have hfloor : (⌊seconds⌋ : Rat) ≤ seconds := Int.floor_le seconds
  have hmax : max (60 : Rat) (⌊seconds⌋ : Rat) = 60 := max_eq_left (by linarith)
  rw [fresh_cacheEntry hseconds, hmax]
  constructor <;> intro h <;> linarith

private theorem Inv.lifetime (h : Inv config s) (hcovered : Covered s .getToken) {token : String}
    (htoken : getToken config s = .cached token) :
    ∃ minted, s.minted = some minted ∧ minted.token = token ∧
      ∀ seconds, minted.expiresInSeconds = some seconds → (s.now : Rat) < minted.lifetimeEnd seconds := by
  obtain ⟨entry, hcache, hfresh, rfl⟩ := cached_of_getToken htoken
  rw [h.cache] at hcache
  obtain ⟨minted, hminted, rfl⟩ := Option.map_eq_some_iff.1 hcache
  refine ⟨minted, hminted, rfl, ?_⟩
  intro seconds hseconds
  by_cases h20 : 20 ≤ seconds
  · exact lt_lifetimeEnd_of_fresh hseconds hfresh h20
  · rcases hcovered rfl minted seconds hminted hseconds with hlong | hbefore | hafter
    · exact absurd hlong h20
    · exact hbefore
    · have hlt := (fresh_iff_of_short hseconds (not_le.1 h20)).1 hfresh
      exact absurd hafter (not_le.2 hlt)

/-- A call between the end of a short lifetime and the end of the 20 seconds is given the token. -/
theorem Inv.covered (h : Inv config s)
    (hlifetime : ∀ token, getToken config s = .cached token → ∃ minted, s.minted = some minted ∧ minted.token = token ∧
      ∀ seconds, minted.expiresInSeconds = some seconds → (s.now : Rat) < minted.lifetimeEnd seconds) :
    Covered s .getToken := by
  intro _ minted seconds hminted hseconds
  by_contra hnot
  simp only [not_or, not_le, not_lt] at hnot
  obtain ⟨h20, hend, hnow⟩ := hnot
  have hfresh : (cacheEntry config minted).fresh s.now = true := (fresh_iff_of_short hseconds h20).2 hnow
  have henabled : config.isEnabled = true := h.minted (by simp [hminted])
  have htoken : getToken config s = .cached (cacheEntry config minted).token := by
    have hfilter : (s.cache.filter fun entry => entry.fresh s.now) = some (cacheEntry config minted) := by
      rw [h.cache, hminted]
      exact Option.filter_eq_some_iff.2 ⟨rfl, hfresh⟩
    simp [getToken, henabled, hfilter]
  obtain ⟨minted', hminted', -, hlt⟩ := hlifetime _ htoken
  rw [hminted] at hminted'
  rw [← Option.some.inj hminted'] at hlt
  exact absurd (hlt seconds hseconds) (not_lt.2 hend)

/-- A run of calls, replies and the clock respects the lifetimes, has one request in flight and mints again after a
failure, exactly when no call comes after the end of a lifetime of less than 20 seconds and before the 20 seconds are
over. -/
theorem throughout_safe_iff (config : Config) (as : List Action) :
    (machine config).Throughout (Safe config) {} as ↔ (machine config).Throughout Covered {} as := by
  refine throughout_congr (I := Inv config) (fun _ _ _ hs ha => step_inv hs ha) ?_ inv_initial
  intro s a hs
  constructor
  · intro hsafe ha
    exact hs.covered (hsafe.lifetime ha) rfl
  · intro hcovered
    refine ⟨hs.oneInFlight, ?_, fun _ hfailed => hs.started_of_failed hfailed⟩
    rintro rfl token htoken
    exact hs.lifetime hcovered htoken

/-! ### A token of five seconds -/

def exampleConfig : Config := ⟨"https://auth.example", 3600⟩

/-- The token is asked for again ten seconds after it was minted. -/
def shortLived : List Action :=
  [.getToken, .reply 0 (.json (some "jwt-1") (some 5)), .cleared 0, .tick 10000]

/-- The state after it. -/
def afterShortLived : State where
  now := 10000
  cache := some ⟨"jwt-1", 60000⟩
  mints := [.done true]
  minted := some ⟨"jwt-1", some 5, 0⟩

/-- The token is served from the cache five seconds after its lifetime. -/
theorem not_safe_shortLived :
    (machine exampleConfig).exec {} shortLived = some afterShortLived ∧
      getToken exampleConfig afterShortLived = .cached "jwt-1" ∧
      ¬(machine exampleConfig).Throughout (Safe exampleConfig) {} (shortLived ++ [.getToken]) := by
  have hexec : (machine exampleConfig).exec {} shortLived = some afterShortLived := by decide +kernel
  have htoken : getToken exampleConfig afterShortLived = .cached "jwt-1" := by decide +kernel
  refine ⟨hexec, htoken, ?_⟩
  intro hall
  have hsafe := ((throughout_append.1 hall).2 _ hexec).1
  obtain ⟨minted, hminted, -, hlt⟩ := hsafe.lifetime rfl _ htoken
  rw [← Option.some.inj hminted] at hlt
  have hover := hlt 5 rfl
  simp only [afterShortLived, Minted.lifetimeEnd] at hover
  norm_num at hover

end MacpControlPlane.RuntimeJwtMinter

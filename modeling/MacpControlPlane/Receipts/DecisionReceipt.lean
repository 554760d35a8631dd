import Mathlib.Logic.Function.Basic
import MacpControlPlane.Lib.JsonText
import MacpControlPlane.Lib.Machine

/-!
# The keys of decision receipts (`receipts/decision-receipt.service.ts`)

`getReceiptKeys` returns the key set of the runtime, from a cache or from a request that concurrent calls share.
`getReceipt` drops the cached set when it lacks a key that has signed the receipt, once per key and TTL.  The two are
interleaved here at their awaits; the runtime answers what it likes, so that it may rotate its keys at any time.
-/

namespace MacpControlPlane.DecisionReceipt

open Js JsonText

variable {N : Type} [JsNumber N]

def receiptKeysTtlSeconds : Nat := 60

/-- How long a set is reused, in milliseconds. -/
def ttl : Nat := receiptKeysTtlSeconds * 1000

/-- An `AppException` -/
structure AppException where
  errorCode : String
  message : String
  status : Nat
  deriving DecidableEq

def badGateway (message : String) : AppException := ⟨"INTERNAL_ERROR", message, 502⟩

/-- `parseObject` -/
def parseObject (text what : String) : Except AppException (JsonObject N) :=
  match parse (N := N) text with
  | none => .error (badGateway (what ++ " is not valid JSON"))
  | some (.obj fields) => .ok fields
  | some _ => .error (badGateway (what ++ " is not a JSON object"))

def privateJwkMembers : List String := ["d", "p", "q", "dp", "dq", "qi", "oth", "k"]

/-- The `kid` of a key of the set, if it is a string. -/
def keyKid : Json N → Except AppException (Option String)
  | .obj key =>
    if privateJwkMembers.any fun m => (JsonObject.prop key m).isSome then
      .error (badGateway "GetReceiptKeys jwks_json carries private key material; refusing to serve it")
    else .ok (asString (JsonObject.prop key "kid"))
  | _ => .error (badGateway "GetReceiptKeys jwks_json has a key that is not an object")

variable (N) in
/-- The kids of a JWK Set. -/
def jwksKids (jwksJson : String) : Except AppException (List String) :=
  (parseObject (N := N) jwksJson "GetReceiptKeys jwks_json").bind fun jwks =>
    match JsonObject.prop jwks "keys" with
    | some (.arr keys) => (keys.mapM keyKid).map fun kids => kids.filterMap id
    | _ => .error (badGateway "GetReceiptKeys jwks_json is not a JWK Set (no \"keys\" array)")

/-- `signingKids`; `base64url` decodes the protected header of a JWS. -/
def signingKids (base64url : String → String) (receipt : JsonObject N) : List String :=
  let attestations :=
    match JsonObject.prop receipt "attestations" with
    | some (.arr attestations) => attestations
    | _ => []
  attestations.filterMap fun a =>
    (asString (a.prop "jws")).bind fun jws =>
      let header : Option (Json N) := parse (base64url (String.ofList (jws.toList.takeWhile (· ≠ '.'))))
      asString (field header "kid")

/-! ### The service -/

structure DecisionReceiptView (N : Type) where
  runId : String
  sessionId : String
  receiptJson : String
  receipt : JsonObject N

structure ReceiptKeysView where
  jwksJson : String
  maxAgeSeconds : Nat
  deriving DecidableEq

/-- A key set in the cache; `sentAt` is the step that has sent the request for it. -/
structure CachedKeys where
  jwksJson : String
  kids : List String
  expiresAt : Nat
  sentAt : Nat
  deriving DecidableEq

/-- Where a `fetchKeys` is. -/
inductive FetchAt where
  /-- `assertSupported` -/
  | gating
  /-- The runtime has been asked. -/
  | sent (sentAt : Nat)
  /-- Its promise has settled, and the callback of `finally` has not run; `none` for a rejection. -/
  | settled (keys : Option CachedKeys)

/-- A promise in `keyFetches`, and the steps at which the calls that wait for it have been made. -/
structure Fetch where
  here : FetchAt
  callers : List Nat

/-- A receipt that has been returned: the kids that it is signed with and that have not dropped the cache within the
last TTL. -/
structure Returned where
  runtimeKind : String
  due : List String
  step : Nat
  deriving DecidableEq

/-- A key that has dropped the cache. -/
structure Drop where
  runtimeKind : String
  kid : String
  time : Nat

/-- A result of `getReceiptKeys`: the set, the step of the call, and the step that has sent the request for the set. -/
structure Served where
  view : ReceiptKeysView
  kids : List String
  calledAt : Nat
  sentAt : Nat
  deriving DecidableEq

/-- The service, the clock, the number of steps so far, and what has happened. -/
structure State where
  now : Nat := 0
  steps : Nat := 0
  keyCache : String → Option CachedKeys := fun _ => none
  keyFetches : String → Option Fetch := fun _ => none
  /-- `invalidatedKids.get(kind)?.get(kid) ?? 0` -/
  invalidatedKids : String → String → Nat := fun _ _ => 0
  returned : List Returned := []
  drops : List Drop := []
  served : List Served := []

/-- The run of a receipt. -/
structure Run where
  id : String
  runtimeSessionId : String
  runtimeKind : String

inductive Action where
  | tick (ms : Nat)
  /-- `getDecisionReceipt` of the runtime resolves in a `getReceipt` of the run. -/
  | receipt (run : Run) (receiptJson : String)
  /-- A call of `getReceiptKeys`. -/
  | keys
  /-- The `assertSupported` of a `fetchKeys` settles. -/
  | supported (error : Option AppException)
  /-- `getReceiptKeys` of the runtime settles. -/
  | reply (answer : Except AppException String)
  /-- The callback of `finally`. -/
  | cleanup

def CachedKeys.view (cached : CachedKeys) (now : Nat) : ReceiptKeysView :=
  { jwksJson := cached.jwksJson, maxAgeSeconds := (cached.expiresAt - now + 999) / 1000 }

/-- A result for a call. -/
def CachedKeys.serve (cached : CachedKeys) (now calledAt : Nat) : Served :=
  { view := cached.view now, kids := cached.kids, calledAt, sentAt := cached.sentAt }

/-- `invalidateForUnknownKids` -/
def State.invalidateForUnknownKids (s : State) (kind : String) (receiptKids : List String) : State :=
  match s.keyCache kind with
  | none => s
  | some cached =>
    match receiptKids.find? fun kid => kid ∉ cached.kids && s.invalidatedKids kind kid ≤ s.now with
    | none => s
    | some trigger =>
      { s with
        keyCache := Function.update s.keyCache kind none
        invalidatedKids :=
          Function.update s.invalidatedKids kind (Function.update (s.invalidatedKids kind) trigger (s.now + ttl))
        drops := ⟨kind, trigger, s.now⟩ :: s.drops }

/-- The key has dropped the cache within the last TTL. -/
def State.recently (s : State) (kind kid : String) : Bool :=
  s.drops.any fun drop => drop.runtimeKind = kind && drop.kid = kid && s.now < drop.time + ttl

variable (N) in
/-- The end of a `getReceipt`. -/
def getReceipt (base64url : String → String) (s : State) (run : Run) (receiptJson : String) :
    State × Except AppException (DecisionReceiptView N) :=
  match parseObject receiptJson "GetDecisionReceipt receipt_json" with
  | .error e => (s, .error e)
  | .ok receipt =>
    let kids := signingKids base64url receipt
    let due := kids.filter fun kid => !s.recently run.runtimeKind kid
    let s' := s.invalidateForUnknownKids run.runtimeKind kids
    ({ s' with returned := ⟨run.runtimeKind, due, s.steps⟩ :: s'.returned },
      .ok { runId := run.id, sessionId := run.runtimeSessionId, receiptJson, receipt })

/-- A call of `getReceiptKeys`, up to its first await; `kind` is the runtime of the configuration. -/
def State.getReceiptKeys (kind : String) (s : State) : State :=
  match (s.keyCache kind).filter fun cached => s.now < cached.expiresAt with
  | some cached => { s with served := cached.serve s.now s.steps :: s.served }
  | none =>
    match s.keyFetches kind with
    | none => { s with keyFetches := Function.update s.keyFetches kind (some ⟨.gating, [s.steps]⟩) }
    | some fetch =>
      match fetch.here with
      | .settled (some keys) => { s with served := keys.serve (keys.expiresAt - ttl) s.steps :: s.served }
      | .settled none => s
      | _ =>
        { s with keyFetches := Function.update s.keyFetches kind (some ⟨fetch.here, s.steps :: fetch.callers⟩) }

variable (N) in
/-- The runtime has answered a `fetchKeys`. -/
def State.arrive (kind : String) (s : State) (sentAt : Nat) (callers : List Nat) (answer : Except AppException String) :
    State :=
  match answer.bind fun jwksJson => (jwksKids N jwksJson).map fun kids => (jwksJson, kids) with
  | .error _ => { s with keyFetches := Function.update s.keyFetches kind (some ⟨.settled none, []⟩) }
  | .ok (jwksJson, kids) =>
    let keys : CachedKeys := { jwksJson, kids, expiresAt := s.now + ttl, sentAt }
    { s with
      keyCache := Function.update s.keyCache kind (some keys)
      keyFetches := Function.update s.keyFetches kind (some ⟨.settled (some keys), []⟩)
      served := callers.map (keys.serve s.now) ++ s.served }

section Step

variable (N) (base64url : String → String) (kind : String)

/-- One step, but for the count. -/
def act (s : State) : Action → Option State
  | .tick ms => some { s with now := s.now + ms }
  | .receipt run receiptJson => some (getReceipt N base64url s run receiptJson).1
  | .keys => some (s.getReceiptKeys kind)
  | .supported error =>
    match s.keyFetches kind with
    | some ⟨.gating, callers⟩ =>
      let here : FetchAt := if error.isSome then .settled none else .sent s.steps
      some { s with keyFetches := Function.update s.keyFetches kind (some ⟨here, callers⟩) }
    | _ => none
  | .reply answer =>
    match s.keyFetches kind with
    | some ⟨.sent sentAt, callers⟩ => some (s.arrive N kind sentAt callers answer)
    | _ => none
  | .cleanup =>
    match s.keyFetches kind with
    | some ⟨.settled _, _⟩ => some { s with keyFetches := Function.update s.keyFetches kind none }
    | _ => none

def machine : Machine State Action where
  start s := s = {}
  next s a := (act N base64url kind s a).map fun t => { t with steps := s.steps + 1 }

end Step

/-- The set has each key of the receipts, or it has been asked for after the receipt was returned. -/
def UpToDate (kind : String) (returned : List Returned) (kids : List String) (sentAt : Nat) : Prop :=
  ∀ receipt ∈ returned, receipt.runtimeKind = kind → ∀ kid ∈ receipt.due, kid ∈ kids ∨ receipt.step < sentAt

/-- What `getReceiptKeys` returns is up to date for the receipts that have been returned before the call; what is in the
cache is for all. -/
structure Fresh (kind : String) (s : State) : Prop where
  served : ∀ result ∈ s.served,
    UpToDate kind (s.returned.filter fun receipt => receipt.step < result.calledAt) result.kids result.sentAt
  cached : ∀ cached ∈ s.keyCache kind, UpToDate kind s.returned cached.kids cached.sentAt

variable (N) in
/-- No set comes from a request that is older than a receipt whose key the set lacks: neither does the answer come after
the receipt, nor does the receipt come between the answer and the callback of `finally`. -/
def InOrder (base64url : String → String) (kind : String) (s : State) : Action → Prop
  | .reply (.ok jwksJson) =>
    match s.keyFetches kind, jwksKids N jwksJson with
    | some ⟨.sent sentAt, _⟩, .ok kids =>
      ∀ receipt ∈ s.returned, receipt.runtimeKind = kind → sentAt ≤ receipt.step → ∀ kid ∈ receipt.due, kid ∈ kids
    | _, _ => True
  | .receipt run receiptJson =>
    match s.keyFetches kind, parseObject (N := N) receiptJson "GetDecisionReceipt receipt_json" with
    | some ⟨.settled (some keys), _⟩, .ok receipt =>
      run.runtimeKind = kind → ∀ kid ∈ signingKids base64url receipt, s.recently kind kid = false → kid ∈ keys.kids
    | _, _ => True
  | _ => True

instance (base64url : String → String) (kind : String) (s : State) (a : Action) :
    Decidable (InOrder N base64url kind s a) := by
  unfold InOrder
  split
  · split <;> infer_instance
  · split <;> infer_instance
  · infer_instance

/-! ### What a receipt does to the cache -/

variable {base64url : String → String} {kind : String} {s t : State} {a : Action}

/-- The cache is dropped by a key, or it holds all keys that have not dropped it within the last TTL. -/
theorem invalidateForUnknownKids_cases (s : State) (runtimeKind : String) (kids : List String) :
    (s.invalidateForUnknownKids runtimeKind kids = s ∧ ∀ cached ∈ s.keyCache runtimeKind, ∀ kid ∈ kids,
      kid ∈ cached.kids ∨ s.now < s.invalidatedKids runtimeKind kid) ∨
    ∃ trigger, s.invalidateForUnknownKids runtimeKind kids =
      { s with
        keyCache := Function.update s.keyCache runtimeKind none
        invalidatedKids := Function.update s.invalidatedKids runtimeKind
          (Function.update (s.invalidatedKids runtimeKind) trigger (s.now + ttl))
        drops := ⟨runtimeKind, trigger, s.now⟩ :: s.drops } := by
  unfold State.invalidateForUnknownKids
  split
  · rename_i hcache
    exact Or.inl ⟨rfl, fun cached hcached => by rw [hcache] at hcached; cases hcached⟩
  · rename_i cached hcache
    split
    · rename_i hfind
      refine Or.inl ⟨rfl, fun cached' hcached' kid hkid => ?_⟩
      rw [hcache] at hcached'
      cases hcached'
      have hnot := List.find?_eq_none.1 hfind kid hkid
      by_cases hmem : kid ∈ cached.kids
      · exact Or.inl hmem
      · exact Or.inr (by simpa [hmem] using hnot)
    · rename_i trigger _
      exact Or.inr ⟨trigger, rfl⟩

/-- What has been marked has dropped the cache, a TTL before its mark. -/
def Marked (s : State) : Prop :=
  ∀ runtimeKind kid, s.invalidatedKids runtimeKind kid = 0 ∨
    ∃ drop ∈ s.drops, drop.runtimeKind = runtimeKind ∧ drop.kid = kid ∧
      s.invalidatedKids runtimeKind kid = drop.time + ttl

private theorem Marked.recently (h : Marked s) {runtimeKind kid : String}
    (hnow : s.now < s.invalidatedKids runtimeKind kid) : s.recently runtimeKind kid = true := by
  rcases h runtimeKind kid with hzero | ⟨drop, hdrop, hkind, hkid, htime⟩
  · omega
  · refine List.any_eq_true.2 ⟨drop, hdrop, ?_⟩
    rw [htime] at hnow
    simp [hkind, hkid, hnow]

private theorem Marked.invalidate (h : Marked s) (runtimeKind : String) (kids : List String) :
    Marked (s.invalidateForUnknownKids runtimeKind kids) := by
  rcases invalidateForUnknownKids_cases s runtimeKind kids with ⟨heq, -⟩ | ⟨trigger, heq⟩
  · rwa [heq]
  · rw [heq]
    intro runtimeKind' kid'
    have hold : s.invalidatedKids runtimeKind' kid' = 0 ∨
        ∃ drop ∈ (⟨runtimeKind, trigger, s.now⟩ : Drop) :: s.drops, drop.runtimeKind = runtimeKind' ∧
          drop.kid = kid' ∧ s.invalidatedKids runtimeKind' kid' = drop.time + ttl :=
      (h runtimeKind' kid').imp_right fun ⟨drop, hdrop, hrest⟩ => ⟨drop, List.mem_cons_of_mem _ hdrop, hrest⟩
    by_cases hkind : runtimeKind' = runtimeKind
    · subst hkind
      simp only [Function.update_self]
      by_cases hkid : kid' = trigger
      · subst hkid
        rw [Function.update_self]
        exact Or.inr ⟨_, List.mem_cons_self, rfl, rfl, rfl⟩
      · rw [Function.update_of_ne hkid]
        exact hold
    · simp only [Function.update_of_ne hkind]
      exact hold

/-! ### What one step keeps -/

private theorem UpToDate.mono {returned returned' : List Returned} {kids : List String} {sentAt : Nat}
    (h : UpToDate kind returned kids sentAt) (hsub : returned' ⊆ returned) : UpToDate kind returned' kids sentAt :=
  fun receipt hreceipt => h receipt (hsub hreceipt)

/-- Nothing stale is in the cache, or in a promise that has settled, and calls have been made before now. -/
structure Inv (kind : String) (s : State) : Prop where
  fresh : Fresh kind s
  settled : ∀ keys callers, s.keyFetches kind = some ⟨.settled (some keys), callers⟩ →
    UpToDate kind s.returned keys.kids keys.sentAt
  calls : ∀ result ∈ s.served, result.calledAt < s.steps
  callers : ∀ fetch ∈ s.keyFetches kind, ∀ calledAt ∈ fetch.callers, calledAt < s.steps
  marked : Marked s

private theorem Inv.initial : Inv kind {} where
  fresh := ⟨fun _ h => absurd h List.not_mem_nil, fun _ h => nomatch h⟩
  settled _ _ h := nomatch h
  calls _ h := absurd h List.not_mem_nil
  callers _ h := nomatch h
  marked _ _ := Or.inl rfl

/-- Only the count has changed. -/
theorem Inv.count (h : Inv kind s) : Inv kind { s with steps := s.steps + 1 } where
  fresh := ⟨h.fresh.served, h.fresh.cached⟩
  settled := h.settled
  calls result hresult := Nat.lt_succ_of_lt (h.calls result hresult)
  callers fetch hfetch calledAt hcalled := Nat.lt_succ_of_lt (h.callers fetch hfetch calledAt hcalled)
  marked := h.marked

/-- More results, of calls up to now. -/
theorem Inv.serve (h : Inv kind s) {results : List Served} (hcalls : ∀ result ∈ results, result.calledAt < s.steps)
    (hresults : ∀ result ∈ results, UpToDate kind s.returned result.kids result.sentAt) :
    Inv kind { s with served := results ++ s.served } where
  fresh := by
    refine ⟨fun result hresult => ?_, h.fresh.cached⟩
    rcases List.mem_append.1 hresult with hresult | hresult
    · exact (hresults result hresult).mono List.filter_sublist.subset
    · exact h.fresh.served result hresult
  settled := h.settled
  calls result hresult := by
    rcases List.mem_append.1 hresult with hresult | hresult
    · exact hcalls result hresult
    · exact h.calls result hresult
  callers := h.callers
  marked := h.marked

/-- The promise is replaced, or removed. -/
theorem Inv.fetch (h : Inv kind s) {fetch : Option Fetch}
    (hsettled : ∀ keys callers, fetch = some ⟨.settled (some keys), callers⟩ →
      UpToDate kind s.returned keys.kids keys.sentAt)
    (hcallers : ∀ f ∈ fetch, ∀ calledAt ∈ f.callers, calledAt < s.steps) :
    Inv kind { s with keyFetches := Function.update s.keyFetches kind fetch } where
  fresh := ⟨h.fresh.served, h.fresh.cached⟩
  settled := by
    change ∀ keys callers, Function.update s.keyFetches kind fetch kind = _ → _
    rw [Function.update_self]
    exact hsettled
  calls := h.calls
  callers := by
    change ∀ f ∈ Function.update s.keyFetches kind fetch kind, _
    rw [Function.update_self]
    exact hcallers
  marked := h.marked

/-- The cache is replaced. -/
theorem Inv.cache (h : Inv kind s) {cached : CachedKeys}
    (hcached : UpToDate kind s.returned cached.kids cached.sentAt) :
    Inv kind { s with keyCache := Function.update s.keyCache kind (some cached) } where
  fresh := by
    refine ⟨h.fresh.served, ?_⟩
    change ∀ c ∈ Function.update s.keyCache kind (some cached) kind, _
    rw [Function.update_self]
    rintro c hc
    cases hc
    exact hcached
  settled := h.settled
  calls := h.calls
  callers := h.callers
  marked := h.marked

private theorem Inv.getReceiptKeys (h : Inv kind s) : Inv kind { s.getReceiptKeys kind with steps := s.steps + 1 } := by
  have hserve : ∀ (keys : CachedKeys) (now : Nat), UpToDate kind s.returned keys.kids keys.sentAt →
      Inv kind { s with served := [keys.serve now s.steps] ++ s.served, steps := s.steps + 1 } := by
    intro keys now hkeys
    refine h.count.serve ?_ ?_
    · intro result hresult
      rw [List.mem_singleton.1 hresult]
      exact Nat.lt_succ_self _
    · intro result hresult
      rw [List.mem_singleton.1 hresult]
      exact hkeys
  unfold State.getReceiptKeys
  split
  · rename_i cached hcached
    exact hserve cached s.now (h.fresh.cached cached (Option.mem_filter_iff.1 hcached).1)
  · split
    · refine h.count.fetch (fun _ _ hfetch => nomatch hfetch) ?_
      rintro fetch hfetch calledAt hcalled
      cases hfetch
      rw [List.mem_singleton.1 hcalled]
      exact Nat.lt_succ_self _
    · rename_i fetch hfetch
      split
      · rename_i keys hhere
        refine hserve keys (keys.expiresAt - ttl) (h.settled keys fetch.callers ?_)
        rw [hfetch, ← hhere]
      · exact h.count
      · rename_i hsettled _
        refine h.count.fetch ?_ ?_
        · intro keys callers heq
          exact absurd (congrArg Fetch.here (Option.some.inj heq)) (hsettled keys)
        · rintro fetch' heq calledAt hcalled
          cases heq
          rcases List.mem_cons.1 hcalled with rfl | hcalled
          · exact Nat.lt_succ_self _
          · exact Nat.lt_succ_of_lt (h.callers fetch hfetch calledAt hcalled)

private theorem Inv.arrive (h : Inv kind s) {sentAt : Nat} {callers : List Nat} {answer : Except AppException String}
    (hfetch : s.keyFetches kind = some ⟨.sent sentAt, callers⟩)
    (horder : InOrder N base64url kind s (.reply answer)) :
    Inv kind { s.arrive N kind sentAt callers answer with steps := s.steps + 1 } := by
  have hcallers : ∀ calledAt ∈ callers, calledAt < s.steps + 1 :=
    fun calledAt hcalled => Nat.lt_succ_of_lt (h.callers _ hfetch calledAt hcalled)
  have hnone : ∀ here : FetchAt, ∀ f ∈ some (⟨here, []⟩ : Fetch), ∀ calledAt ∈ f.callers, calledAt < s.steps + 1 := by
    rintro here f hf calledAt hcalled
    cases hf
    exact absurd hcalled List.not_mem_nil
  unfold State.arrive
  split
  · exact h.count.fetch (fun _ _ hsettled => nomatch hsettled) (hnone _)
  · rename_i jwksJson kids hanswer
    obtain ⟨text, rfl, htext⟩ : ∃ text, answer = .ok text ∧
        (jwksKids N text).map (fun kids => (text, kids)) = .ok (jwksJson, kids) := by
      cases answer with
      | error e => cases hanswer
      | ok text => exact ⟨text, rfl, hanswer⟩
    obtain ⟨hkids, rfl⟩ : jwksKids N text = .ok kids ∧ text = jwksJson := by
      cases hkids : jwksKids N text with
      | error e =>
        rw [hkids] at htext
        cases htext
      | ok kids' =>
        rw [hkids] at htext
        cases htext
        exact ⟨rfl, rfl⟩
    have hupToDate : UpToDate kind s.returned kids sentAt := by
      intro receipt hreceipt hkind kid hkid
      by_cases hold : sentAt ≤ receipt.step
      · simp only [InOrder, hfetch, hkids] at horder
        exact Or.inl (horder receipt hreceipt hkind hold kid hkid)
      · exact Or.inr (by omega)
    have hcache := @Inv.cache kind _ h.count ⟨text, kids, s.now + ttl, sentAt⟩ hupToDate
    have hsettled : ∀ keys callers', some (⟨.settled (some ⟨text, kids, s.now + ttl, sentAt⟩), []⟩ : Fetch) =
        some ⟨.settled (some keys), callers'⟩ → UpToDate kind s.returned keys.kids keys.sentAt := by
      intro keys callers' heq
      cases heq
      exact hupToDate
    refine (hcache.fetch hsettled (hnone _)).serve ?_ ?_
    · intro result hresult
      obtain ⟨calledAt, hcalled, rfl⟩ := List.mem_map.1 hresult
      exact hcallers calledAt hcalled
    · intro result hresult
      obtain ⟨calledAt, hcalled, rfl⟩ := List.mem_map.1 hresult
      exact hupToDate

private theorem Inv.invalidate (h : Inv kind s) (runtimeKind : String) (kids : List String) :
    Inv kind (s.invalidateForUnknownKids runtimeKind kids) := by
  have hmarked := h.marked.invalidate runtimeKind kids
  rcases invalidateForUnknownKids_cases s runtimeKind kids with ⟨heq, -⟩ | ⟨trigger, heq⟩
  · rwa [heq]
  · rw [heq] at hmarked ⊢
    refine ⟨⟨h.fresh.served, ?_⟩, h.settled, h.calls, h.callers, hmarked⟩
    change ∀ cached ∈ Function.update s.keyCache runtimeKind none kind, _
    by_cases hkind : kind = runtimeKind
    · subst hkind
      rw [Function.update_self]
      exact fun _ hcached => nomatch hcached
    · rw [Function.update_of_ne hkind]
      exact h.fresh.cached

/-- A receipt is returned whose keys are in every set that is held. -/
theorem Inv.return (h : Inv kind s) {receipt : Returned} (hstep : receipt.step = s.steps)
    (hcached : receipt.runtimeKind = kind → ∀ kid ∈ receipt.due, ∀ cached ∈ s.keyCache kind, kid ∈ cached.kids)
    (hsettled : receipt.runtimeKind = kind → ∀ kid ∈ receipt.due, ∀ keys callers,
      s.keyFetches kind = some ⟨.settled (some keys), callers⟩ → kid ∈ keys.kids) :
    Inv kind { s with returned := receipt :: s.returned, steps := s.steps + 1 } where
  fresh := by
    refine ⟨fun result hresult other hother hkind kid hkid => ?_, fun cached hheld other hother hkind kid hkid => ?_⟩
    · obtain ⟨hother, hbefore⟩ := List.mem_filter.1 hother
      rcases List.mem_cons.1 hother with rfl | hother
      · have hcalls := h.calls result hresult
        have hlt : other.step < result.calledAt := of_decide_eq_true hbefore
        omega
      · exact h.fresh.served result hresult other (List.mem_filter.2 ⟨hother, hbefore⟩) hkind kid hkid
    · rcases List.mem_cons.1 hother with rfl | hother
      · exact Or.inl (hcached hkind kid hkid cached hheld)
      · exact h.fresh.cached cached hheld other hother hkind kid hkid
  settled keys callers hfetch other hother hkind kid hkid := by
    rcases List.mem_cons.1 hother with rfl | hother
    · exact Or.inl (hsettled hkind kid hkid keys callers hfetch)
    · exact h.settled keys callers hfetch other hother hkind kid hkid
  calls := h.count.calls
  callers := h.count.callers
  marked := h.marked

/-- Nothing but the cache changes where it is dropped. -/
theorem invalidateForUnknownKids_frame (s : State) (runtimeKind : String) (kids : List String) :
    (s.invalidateForUnknownKids runtimeKind kids).steps = s.steps ∧
      (s.invalidateForUnknownKids runtimeKind kids).keyFetches = s.keyFetches := by
  rcases invalidateForUnknownKids_cases s runtimeKind kids with ⟨heq, -⟩ | ⟨trigger, heq⟩ <;>
    rw [heq] <;> exact ⟨rfl, rfl⟩

/-- What is left in the cache has every key that is due. -/
theorem mem_kids_of_due (hmarked : Marked s) {runtimeKind kid : String} {kids : List String} (hkid : kid ∈ kids)
    (hrecently : s.recently runtimeKind kid = false) {cached : CachedKeys}
    (hcached : cached ∈ (s.invalidateForUnknownKids runtimeKind kids).keyCache runtimeKind) : kid ∈ cached.kids := by
  rcases invalidateForUnknownKids_cases s runtimeKind kids with ⟨heq, hkept⟩ | ⟨trigger, heq⟩
  · rw [heq] at hcached
    refine (hkept cached hcached kid hkid).resolve_right fun hnow => ?_
    rw [hmarked.recently hnow] at hrecently
    cases hrecently
  · rw [heq] at hcached
    change cached ∈ Function.update s.keyCache runtimeKind none runtimeKind at hcached
    rw [Function.update_self] at hcached
    cases hcached

private theorem Inv.getReceipt (h : Inv kind s) {run : Run} {receiptJson : String}
    (horder : InOrder N base64url kind s (.receipt run receiptJson)) :
    Inv kind { (getReceipt N base64url s run receiptJson).1 with steps := s.steps + 1 } := by
  unfold DecisionReceipt.getReceipt
  split
  · exact h.count
  · rename_i receipt hreceipt
    have hframe := invalidateForUnknownKids_frame s run.runtimeKind (signingKids base64url receipt)
    have hdue : ∀ kid ∈ (signingKids base64url receipt).filter (fun kid => !s.recently run.runtimeKind kid),
        kid ∈ signingKids base64url receipt ∧ s.recently run.runtimeKind kid = false := by
      intro kid hkid
      simpa using hkid
    have hinv := h.invalidate run.runtimeKind (signingKids base64url receipt)
    have hreturn := @Inv.return kind _ hinv
      ⟨run.runtimeKind, (signingKids base64url receipt).filter (fun kid => !s.recently run.runtimeKind kid), s.steps⟩
      hframe.1.symm ?_ ?_
    · rw [hframe.1] at hreturn
      exact hreturn
    · rintro hkind kid hkid cached hcached
      obtain ⟨hmem, hrecently⟩ := hdue kid hkid
      change run.runtimeKind = kind at hkind
      rw [← hkind] at hcached
      exact mem_kids_of_due h.marked hmem hrecently hcached
    · rintro hkind kid hkid keys callers hfetch
      obtain ⟨hmem, hrecently⟩ := hdue kid hkid
      change run.runtimeKind = kind at hkind
      rw [hframe.2] at hfetch
      rw [hkind] at hrecently
      simp only [InOrder, hfetch, hreceipt] at horder
      exact horder hkind kid hmem hrecently

private theorem Inv.next (h : Inv kind s) (horder : InOrder N base64url kind s a)
    (hnext : (machine N base64url kind).next s a = some t) : Inv kind t := by
  obtain ⟨u, hu, rfl⟩ := Option.map_eq_some_iff.1 hnext
  cases a with
  | tick ms =>
    cases hu
    exact ⟨⟨h.fresh.served, h.fresh.cached⟩, h.settled, h.count.calls, h.count.callers, h.marked⟩
  | receipt run receiptJson =>
    cases hu
    exact h.getReceipt horder
  | keys =>
    cases hu
    exact h.getReceiptKeys
  | supported error =>
    rw [act] at hu
    split at hu
    · rename_i callers hfetch
      cases hu
      refine h.count.fetch ?_ ?_
      · intro keys callers' heq
        cases error <;> cases heq
      · rintro f hf calledAt hcalled
        cases hf
        exact h.count.callers _ hfetch calledAt hcalled
    · cases hu
  | reply answer =>
    rw [act] at hu
    split at hu
    · rename_i sentAt callers hfetch
      cases hu
      exact h.arrive hfetch horder
    · cases hu
  | cleanup =>
    rw [act] at hu
    split at hu
    · cases hu
      exact h.count.fetch (fun _ _ heq => nomatch heq) fun _ hf => nomatch hf
    · cases hu

/-- Where every set comes from a request that is in order with the receipts, what `getReceiptKeys` returns and what is
in the cache are up to date. -/
theorem receiptKeys_fresh {as : List Action} (hstart : (machine N base64url kind).start s)
    (horder : (machine N base64url kind).Throughout (InOrder N base64url kind) s as)
    (h : (machine N base64url kind).exec s as = some t) : Fresh kind t := by
  have hinv : Inv kind s := by
    rw [show s = {} from hstart]
    exact Inv.initial
  have hend : Inv kind t := horder.invariant (fun _ _ _ hs hP hnext => hs.next hP hnext) hinv h
  exact hend.fresh

/-- Decodes the header of the receipt below. -/
def headerOf (segment : String) : String := if segment = "eyJraWQiOiJuZXcifQ" then "\x7b\"kid\":\"new\"\x7d" else ""

/-- A receipt that is signed with the key `new`. -/
def newReceipt : String := "\x7b\"attestations\":[\x7b\"jws\":\"eyJraWQiOiJuZXcifQ..c2ln\"\x7d]\x7d"

def oldKeys : String := "\x7b\"keys\":[\x7b\"kid\":\"old\"\x7d]\x7d"

def newKeys : String := "\x7b\"keys\":[\x7b\"kid\":\"old\"\x7d,\x7b\"kid\":\"new\"\x7d]\x7d"

/-- The runtime rotates its keys and signs a receipt; the keys that were asked for before have been answered. -/
def rotating : List Action :=
  [.keys, .supported none, .reply (.ok oldKeys), .cleanup, .receipt ⟨"run", "session", "rust"⟩ newReceipt, .keys,
   .supported none, .reply (.ok newKeys)]

theorem receiptKeys_fresh_rotating :
    ∃ t, (machine (Option Rat) headerOf "rust").exec {} rotating = some t ∧ Fresh "rust" t := by
  have hsome : ((machine (Option Rat) headerOf "rust").exec {} rotating).isSome := by decide +kernel
  have horder :
      (machine (Option Rat) headerOf "rust").Throughout (InOrder (Option Rat) headerOf "rust") {} rotating := by
    decide +kernel
  obtain ⟨t, ht⟩ := Option.isSome_iff_exists.1 hsome
  exact ⟨t, ht, receiptKeys_fresh rfl horder ht⟩

/-- The keys have been asked for before the rotation, and the answer comes after the receipt. -/
def spanning : List Action :=
  [.keys, .supported none, .receipt ⟨"run", "session", "rust"⟩ newReceipt, .reply (.ok oldKeys), .cleanup, .keys]

/-- The call after the receipt gets the old set. -/
theorem old_keys_served_after_rotation :
    ¬ ∀ (kind : String) (as : List Action) (t : State),
      (machine (Option Rat) headerOf kind).exec {} as = some t → Fresh kind t := by
  intro h
  have hsome : ((machine (Option Rat) headerOf "rust").exec {} spanning).map (fun t => (t.served, t.returned)) =
      some ([⟨⟨oldKeys, 60⟩, ["old"], 5, 1⟩, ⟨⟨oldKeys, 60⟩, ["old"], 0, 1⟩], [⟨"rust", ["new"], 2⟩]) := by
    decide +kernel
  obtain ⟨t, ht, heq⟩ := Option.map_eq_some_iff.1 hsome
  obtain ⟨hserved, hreturned⟩ := Prod.mk.inj heq
  have hmem : ⟨⟨oldKeys, 60⟩, ["old"], 5, 1⟩ ∈ t.served := by
    rw [hserved]
    exact List.mem_cons_self
  have hfresh := (h "rust" spanning t ht).served _ hmem
  rw [hreturned] at hfresh
  have hnew := hfresh ⟨"rust", ["new"], 2⟩ (by decide) rfl "new" (by decide)
  exact absurd hnew (by decide)

end MacpControlPlane.DecisionReceipt

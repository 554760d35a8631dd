import MacpControlPlane.Receipts.DecisionReceipt

/-!
# What `getReceiptKeys` serves (`receipts/decision-receipt.service.ts`)

The route of the keys is public.  Whatever the runtime answers and however calls, receipts and answers interleave: a set
that is served is the text of an answer as it came, no private key material is in it, and a key id that the runtime does
not publish drops the cache once per TTL at most.
-/

namespace MacpControlPlane.DecisionReceipt

open Js JsonText

variable {N : Type}

/-! ### Public sets -/

/-- An object without a private member. -/
def IsPublicKey : Json N → Prop
  | .obj key => ∀ m ∈ privateJwkMembers, JsonObject.prop key m = none
  | _ => False

variable (N) in
/-- The text of a JWK Set of public keys, and the kids of its keys. -/
def IsPublicSet [JsNumber N] (jwksJson : String) (kids : List String) : Prop :=
  ∃ (jwks : JsonObject N) (keys : List (Json N)), parse jwksJson = some (.obj jwks) ∧
    JsonObject.prop jwks "keys" = some (.arr keys) ∧ (∀ key ∈ keys, IsPublicKey key) ∧
    kids = keys.filterMap fun key => asString (key.prop "kid")

private theorem keyKid_eq_ok {key : Json N} {kid : Option String} (h : keyKid key = .ok kid) :
    IsPublicKey key ∧ kid = asString (key.prop "kid") := by
  cases key with
  | obj fields =>
    rw [keyKid] at h
    split at h
    · cases h
    · rename_i hnone
      cases h
      refine ⟨fun m hm => ?_, rfl⟩
      have hall := fun hsome => hnone (List.any_eq_true.2 ⟨m, hm, hsome⟩)
      exact Option.not_isSome_iff_eq_none.1 hall
  | null | bool _ | num _ | str _ | arr _ => cases h

private theorem mapM_keyKid {keys : List (Json N)} {kids : List (Option String)} (h : keys.mapM keyKid = .ok kids) :
    (∀ key ∈ keys, IsPublicKey key) ∧ kids.filterMap id = keys.filterMap fun key => asString (key.prop "kid") := by
  induction keys generalizing kids with
  | nil =>
    cases h
    exact ⟨fun _ hkey => absurd hkey List.not_mem_nil, rfl⟩
  | cons key keys ih =>
    rw [List.mapM_cons] at h
    cases hkid : keyKid key with
    | error e =>
      rw [hkid] at h
      cases h
    | ok kid =>
      cases hrest : keys.mapM keyKid with
      | error e =>
        rw [hkid, hrest] at h
        cases h
      | ok rest =>
        rw [hkid, hrest] at h
        cases h
        obtain ⟨hpublic, rfl⟩ := keyKid_eq_ok hkid
        obtain ⟨hall, hkids⟩ := ih hrest
        refine ⟨List.forall_mem_cons.2 ⟨hpublic, hall⟩, ?_⟩
        rw [List.filterMap_cons, List.filterMap_cons, hkids]
        rfl

variable [JsNumber N]

/-- Only public sets get past the checks of `fetchKeys`. -/
theorem isPublicSet_of_jwksKids {jwksJson : String} {kids : List String} (h : jwksKids N jwksJson = .ok kids) :
    IsPublicSet N jwksJson kids := by
  unfold jwksKids at h
  cases hparse : parse (N := N) jwksJson with
  | none =>
    rw [parseObject, hparse] at h
    cases h
  | some value =>
    cases value with
    | obj jwks =>
      rw [parseObject, hparse] at h
      dsimp only [Except.bind] at h
      split at h
      · rename_i keys hkeys
        cases hmap : keys.mapM keyKid with
        | error e =>
          rw [hmap] at h
          cases h
        | ok kids' =>
          rw [hmap] at h
          cases h
          obtain ⟨hall, heq⟩ := mapM_keyKid hmap
          exact ⟨jwks, keys, hparse, hkeys, hall, heq⟩
      · cases h
    | null | bool _ | num _ | str _ | arr _ =>
      rw [parseObject, hparse] at h
      cases h

/-! ### What is held and what is served -/

variable (N) in
/-- A set that is held comes from an answer and expires a TTL after it. -/
structure Held (answered : String → Prop) (now : Nat) (cached : CachedKeys) : Prop where
  answered : answered cached.jwksJson
  kids : jwksKids N cached.jwksJson = .ok cached.kids
  ttl_le : ttl ≤ cached.expiresAt
  expiresAt : cached.expiresAt ≤ now + ttl

variable (N) in
/-- The text of a result is that of an answer, and it may be reused for a second or more but no longer than the TTL. -/
structure IsServed (answered : String → Prop) (result : Served) : Prop where
  answered : answered result.view.jwksJson
  kids : jwksKids N result.view.jwksJson = .ok result.kids
  maxAge_pos : 1 ≤ result.view.maxAgeSeconds
  maxAge_le : result.view.maxAgeSeconds ≤ receiptKeysTtlSeconds

variable (N) in
structure Serving (answered : String → Prop) (kind : String) (s : State) : Prop where
  cached : ∀ cached ∈ s.keyCache kind, Held N answered s.now cached
  settled : ∀ keys callers, s.keyFetches kind = some ⟨.settled (some keys), callers⟩ → Held N answered s.now keys
  served : ∀ result ∈ s.served, IsServed N answered result

variable {answered : String → Prop} {base64url : String → String} {kind : String} {s t : State} {a : Action}
  {as : List Action}

private theorem Held.mono {now now' : Nat} {cached : CachedKeys} (h : Held N answered now cached) (hle : now ≤ now') :
    Held N answered now' cached :=
  ⟨h.answered, h.kids, h.ttl_le, Nat.le_trans h.expiresAt (Nat.add_le_add_right hle ttl)⟩

/-- A set is served before it expires. -/
theorem Held.serve {now : Nat} {cached : CachedKeys} (h : Held N answered now cached) {at' : Nat}
    (hbefore : at' < cached.expiresAt) (hafter : cached.expiresAt ≤ at' + ttl) (calledAt : Nat) :
    IsServed N answered (cached.serve at' calledAt) := by
  have hpos : 1 ≤ (cached.expiresAt - at' + 999) / 1000 := by omega
  have hle : (cached.expiresAt - at' + 999) / 1000 ≤ receiptKeysTtlSeconds := by
    unfold ttl receiptKeysTtlSeconds at hafter
    unfold receiptKeysTtlSeconds
    omega
  exact ⟨h.answered, h.kids, hpos, hle⟩

private theorem Serving.serve (h : Serving N answered kind s) (results : List Served)
    (hresults : ∀ result ∈ results, IsServed N answered result) :
    Serving N answered kind { s with served := results ++ s.served } :=
  ⟨h.cached, h.settled, fun result hresult => (List.mem_append.1 hresult).elim (hresults result) (h.served result)⟩

private theorem Serving.fetch (h : Serving N answered kind s) {fetch : Option Fetch}
    (hfetch : ∀ keys callers, fetch = some ⟨.settled (some keys), callers⟩ → Held N answered s.now keys) :
    Serving N answered kind { s with keyFetches := Function.update s.keyFetches kind fetch } := by
  refine ⟨h.cached, fun keys callers hsettled => ?_, h.served⟩
  exact hfetch keys callers ((Function.update_self kind fetch s.keyFetches).symm.trans hsettled)

private theorem Serving.getReceiptKeys (h : Serving N answered kind s) :
    Serving N answered kind (s.getReceiptKeys kind) := by
  unfold State.getReceiptKeys
  split
  · rename_i cached hcached
    obtain ⟨hmem, hfresh⟩ := Option.mem_filter_iff.1 hcached
    have hheld := h.cached cached hmem
    refine h.serve [cached.serve s.now s.steps] fun result hresult => ?_
    rw [List.mem_singleton.1 hresult]
    exact hheld.serve (of_decide_eq_true hfresh) hheld.expiresAt s.steps
  · split
    · exact h.fetch fun _ _ hsettled => by cases hsettled
    · rename_i fetch hfetch
      split
      · rename_i keys hhere
        have hheld : Held N answered s.now keys := h.settled keys fetch.callers (by rw [hfetch, ← hhere])
        have hpos : 0 < ttl := by decide
        have hle := hheld.ttl_le
        refine h.serve [keys.serve (keys.expiresAt - ttl) s.steps] fun result hresult => ?_
        rw [List.mem_singleton.1 hresult]
        exact hheld.serve (by omega) (by omega) s.steps
      · exact h
      · rename_i hsettled _
        refine h.fetch fun keys callers heq => ?_
        exact absurd (congrArg Fetch.here (Option.some.inj heq)) (hsettled keys)

private theorem Serving.arrive (h : Serving N answered kind s) {sentAt : Nat} {callers : List Nat}
    {answer : Except AppException String} (hanswer : ∀ text, answer = .ok text → answered text) :
    Serving N answered kind (s.arrive N kind sentAt callers answer) := by
  unfold State.arrive
  split
  · exact h.fetch fun _ _ hsettled => by cases hsettled
  · rename_i jwksJson kids hok
    obtain ⟨text, rfl⟩ : ∃ text, answer = .ok text := by
      cases answer with
      | error e => cases hok
      | ok text => exact ⟨text, rfl⟩
    obtain ⟨hkids, rfl⟩ : jwksKids N text = .ok kids ∧ text = jwksJson := by
      change (jwksKids N text).map (fun kids => (text, kids)) = .ok (jwksJson, kids) at hok
      cases hkids : jwksKids N text with
      | error e =>
        rw [hkids] at hok
        cases hok
      | ok kids' =>
        rw [hkids] at hok
        cases hok
        exact ⟨rfl, rfl⟩
    have hheld : Held N answered s.now ⟨text, kids, s.now + ttl, sentAt⟩ :=
      ⟨hanswer text rfl, hkids, Nat.le_add_left _ _, Nat.le_refl _⟩
    have hserved : ∀ result ∈ callers.map ((⟨text, kids, s.now + ttl, sentAt⟩ : CachedKeys).serve s.now),
        IsServed N answered result := by
      intro result hresult
      obtain ⟨calledAt, -, rfl⟩ := List.mem_map.1 hresult
      have hpos : 0 < ttl := by decide
      exact hheld.serve (Nat.lt_add_of_pos_right hpos) (Nat.le_refl _) calledAt
    refine ⟨fun cached hcached => ?_, fun keys callers' hsettled => ?_, fun result hresult => ?_⟩
    · change cached ∈ Function.update s.keyCache kind _ kind at hcached
      rw [Function.update_self] at hcached
      exact Option.some.inj hcached ▸ hheld
    · change Function.update s.keyFetches kind _ kind = _ at hsettled
      rw [Function.update_self] at hsettled
      cases hsettled
      exact hheld
    · exact (List.mem_append.1 hresult).elim (hserved result) (h.served result)

private theorem Serving.invalidate (h : Serving N answered kind s) (runtimeKind : String) (kids : List String) :
    Serving N answered kind (s.invalidateForUnknownKids runtimeKind kids) := by
  rcases invalidateForUnknownKids_cases s runtimeKind kids with ⟨heq, -⟩ | ⟨trigger, heq⟩
  · rwa [heq]
  · rw [heq]
    refine ⟨fun cached hcached => ?_, h.settled, h.served⟩
    change cached ∈ Function.update s.keyCache runtimeKind none kind at hcached
    by_cases hkind : kind = runtimeKind
    · rw [hkind, Function.update_self] at hcached
      cases hcached
    · rw [Function.update_of_ne hkind] at hcached
      exact h.cached cached hcached

private theorem Serving.getReceipt (h : Serving N answered kind s) (run : Run) (receiptJson : String) :
    Serving N answered kind (getReceipt N base64url s run receiptJson).1 := by
  unfold DecisionReceipt.getReceipt
  split
  · exact h
  · rename_i receipt _
    have hdropped := h.invalidate run.runtimeKind (signingKids base64url receipt)
    exact ⟨hdropped.cached, hdropped.settled, hdropped.served⟩

private theorem Serving.act (h : Serving N answered kind s) (hanswer : ∀ text, a = .reply (.ok text) → answered text)
    (hact : act N base64url kind s a = some t) : Serving N answered kind t := by
  cases a with
  | tick ms =>
    cases hact
    have hle : s.now ≤ s.now + ms := Nat.le_add_right _ _
    exact ⟨fun cached hcached => (h.cached cached hcached).mono hle,
      fun keys callers hsettled => (h.settled keys callers hsettled).mono hle, h.served⟩
  | receipt run receiptJson =>
    cases hact
    exact h.getReceipt run receiptJson
  | keys =>
    cases hact
    exact h.getReceiptKeys
  | supported error =>
    rw [DecisionReceipt.act] at hact
    split at hact
    · cases hact
      refine h.fetch fun keys callers heq => ?_
      cases error <;> cases heq
    · cases hact
  | reply answer =>
    rw [DecisionReceipt.act] at hact
    split at hact
    · cases hact
      exact h.arrive fun text htext => hanswer text (congrArg Action.reply htext)
    · cases hact
  | cleanup =>
    rw [DecisionReceipt.act] at hact
    split at hact
    · cases hact
      exact h.fetch fun _ _ heq => by cases heq
    · cases hact

private theorem serving_initial : Serving N answered kind ({} : State) where
  cached _ hcached := by cases hcached
  settled _ _ hsettled := by cases hsettled
  served _ hserved := absurd hserved List.not_mem_nil

/-- Every result of `getReceiptKeys` is the text of an answer of the runtime as it came; it is a JWK Set of public keys,
and it may be reused for a second or more but no longer than the TTL. -/
theorem served_public (h : (machine N base64url kind).exec {} as = some t) : ∀ result ∈ t.served,
    .reply (.ok result.view.jwksJson) ∈ as ∧ IsPublicSet N result.view.jwksJson result.kids ∧
      1 ≤ result.view.maxAgeSeconds ∧ result.view.maxAgeSeconds ≤ receiptKeysTtlSeconds := by
  have hserving : Serving N (fun text => .reply (.ok text) ∈ as) kind t := by
    have hfrom : (machine N base64url kind).Throughout
        (fun _ a => ∀ text, a = .reply (.ok text) → .reply (.ok text) ∈ as) {} as :=
      Machine.throughout_of_forall (fun a ha _ text htext => htext ▸ ha) _
    refine hfrom.invariant (fun s a u hs hanswer hnext => ?_) serving_initial h
    obtain ⟨v, hv, rfl⟩ := Option.map_eq_some_iff.1 hnext
    have hact := hs.act hanswer hv
    exact ⟨hact.cached, hact.settled, hact.served⟩
  intro result hresult
  have hserved := hserving.served result hresult
  exact ⟨hserved.answered, isPublicSet_of_jwksKids hserved.kids, hserved.maxAge_pos, hserved.maxAge_le⟩

theorem served_public_rotating :
    ∃ t, (machine (Option Rat) headerOf "rust").exec {} rotating = some t ∧ ∀ result ∈ t.served,
      .reply (.ok result.view.jwksJson) ∈ rotating ∧ IsPublicSet (Option Rat) result.view.jwksJson result.kids ∧
        1 ≤ result.view.maxAgeSeconds ∧ result.view.maxAgeSeconds ≤ receiptKeysTtlSeconds := by
  have hsome : ((machine (Option Rat) headerOf "rust").exec {} rotating).isSome := by decide +kernel
  obtain ⟨t, ht⟩ := Option.isSome_iff_exists.1 hsome
  exact ⟨t, ht, served_public ht⟩

/-! ### How often a key drops the cache -/

/-- Two drops by the same key are a TTL apart at least. -/
def Apart (later earlier : Drop) : Prop :=
  later.runtimeKind = earlier.runtimeKind → later.kid = earlier.kid → earlier.time + ttl ≤ later.time

/-- The newest drop comes first. -/
structure DropsApart (s : State) : Prop where
  marked : ∀ drop ∈ s.drops, drop.time + ttl ≤ s.invalidatedKids drop.runtimeKind drop.kid
  apart : s.drops.Pairwise Apart

/-- The cache is dropped by a key that it lacks and whose mark has run out. -/
theorem invalidateForUnknownKids_dropped (s : State) (runtimeKind : String) (kids : List String) :
    s.invalidateForUnknownKids runtimeKind kids = s ∨
    ∃ trigger, s.invalidatedKids runtimeKind trigger ≤ s.now ∧ trigger ∈ kids ∧
      (∀ cached ∈ s.keyCache runtimeKind, trigger ∉ cached.kids) ∧
      s.invalidateForUnknownKids runtimeKind kids =
        { s with
          keyCache := Function.update s.keyCache runtimeKind none
          invalidatedKids := Function.update s.invalidatedKids runtimeKind
            (Function.update (s.invalidatedKids runtimeKind) trigger (s.now + ttl))
          drops := ⟨runtimeKind, trigger, s.now⟩ :: s.drops } := by
  unfold State.invalidateForUnknownKids
  split
  · exact Or.inl rfl
  · rename_i cached hcache
    split
    · exact Or.inl rfl
    · rename_i trigger hfind
      have htrigger := List.find?_some hfind
      simp only [Bool.and_eq_true, decide_eq_true_eq] at htrigger
      refine Or.inr ⟨trigger, htrigger.2, List.mem_of_find?_eq_some hfind, fun cached' hcached' => ?_, rfl⟩
      rw [hcache] at hcached'
      exact Option.some.inj hcached' ▸ htrigger.1

private theorem DropsApart.invalidate (h : DropsApart s) (runtimeKind : String) (kids : List String) :
    DropsApart (s.invalidateForUnknownKids runtimeKind kids) := by
  rcases invalidateForUnknownKids_dropped s runtimeKind kids with heq | ⟨trigger, hdue, -, -, heq⟩
  · rwa [heq]
  · rw [heq]
    refine ⟨fun drop hdrop => ?_, List.pairwise_cons.2 ⟨fun earlier hearlier hkind hkid => ?_, h.apart⟩⟩
    · change drop.time + ttl ≤ Function.update s.invalidatedKids runtimeKind
        (Function.update (s.invalidatedKids runtimeKind) trigger (s.now + ttl)) drop.runtimeKind drop.kid
      rcases List.mem_cons.1 hdrop with rfl | hdrop
      · have hdueAt : Function.update s.invalidatedKids runtimeKind
            (Function.update (s.invalidatedKids runtimeKind) trigger (s.now + ttl)) runtimeKind trigger =
              s.now + ttl := by
          rw [Function.update_self, Function.update_self]
        exact Nat.le_of_eq hdueAt.symm
      · have hmarked := h.marked drop hdrop
        by_cases hkind : drop.runtimeKind = runtimeKind
        · rw [hkind] at hmarked ⊢
          rw [Function.update_self]
          by_cases hkid : drop.kid = trigger
          · rw [hkid] at hmarked ⊢
            rw [Function.update_self]
            omega
          · rwa [Function.update_of_ne hkid]
        · rwa [Function.update_of_ne hkind]
    · have hmarked := h.marked earlier hearlier
      change runtimeKind = earlier.runtimeKind at hkind
      change trigger = earlier.kid at hkid
      rw [← hkind, ← hkid] at hmarked
      exact Nat.le_trans hmarked hdue

/-- No other step changes the marks. -/
theorem DropsApart.frame (h : DropsApart s) (hdrops : t.drops = s.drops)
    (hmarks : t.invalidatedKids = s.invalidatedKids) : DropsApart t := by
  refine ⟨?_, hdrops ▸ h.apart⟩
  rw [hdrops, hmarks]
  exact h.marked

private theorem getReceiptKeys_frame (s : State) :
    (s.getReceiptKeys kind).drops = s.drops ∧ (s.getReceiptKeys kind).invalidatedKids = s.invalidatedKids := by
  unfold State.getReceiptKeys
  split
  · exact ⟨rfl, rfl⟩
  · split
    · exact ⟨rfl, rfl⟩
    · split <;> exact ⟨rfl, rfl⟩

private theorem arrive_frame (s : State) (sentAt : Nat) (callers : List Nat) (answer : Except AppException String) :
    (s.arrive N kind sentAt callers answer).drops = s.drops ∧
      (s.arrive N kind sentAt callers answer).invalidatedKids = s.invalidatedKids := by
  unfold State.arrive
  split <;> exact ⟨rfl, rfl⟩

private theorem DropsApart.act (h : DropsApart s) (hact : act N base64url kind s a = some t) : DropsApart t := by
  cases a with
  | tick ms =>
    cases hact
    exact h.frame rfl rfl
  | receipt run receiptJson =>
    cases hact
    unfold DecisionReceipt.getReceipt
    split
    · exact h
    · rename_i receipt _
      exact (h.invalidate run.runtimeKind (signingKids base64url receipt)).frame rfl rfl
  | keys =>
    cases hact
    exact h.frame (getReceiptKeys_frame s).1 (getReceiptKeys_frame s).2
  | supported error =>
    rw [DecisionReceipt.act] at hact
    split at hact
    · cases hact
      exact h.frame rfl rfl
    · cases hact
  | reply answer =>
    rw [DecisionReceipt.act] at hact
    split at hact
    · cases hact
      exact h.frame (arrive_frame s _ _ answer).1 (arrive_frame s _ _ answer).2
    · cases hact
  | cleanup =>
    rw [DecisionReceipt.act] at hact
    split at hact
    · cases hact
      exact h.frame rfl rfl
    · cases hact

/-- However many receipts are read: a key id drops the cache of a runtime once per TTL at most. -/
theorem drops_apart (h : (machine N base64url kind).exec {} as = some t) : t.drops.Pairwise Apart := by
  have hdrops : DropsApart t := by
    refine Machine.exec_invariant (I := DropsApart) (fun s a u hs hnext => ?_) ?_ h
    · obtain ⟨v, hv, rfl⟩ := Option.map_eq_some_iff.1 hnext
      exact (hs.act hv).frame rfl rfl
    · exact ⟨fun _ hdrop => absurd hdrop List.not_mem_nil, List.Pairwise.nil⟩
  exact hdrops.apart

/-- The runtime never publishes the key of its receipts: they drop the cache again after a TTL. -/
def unpublished : List Action :=
  [.keys, .supported none, .reply (.ok oldKeys), .cleanup, .receipt ⟨"run", "session", "rust"⟩ newReceipt, .keys,
   .supported none, .reply (.ok oldKeys), .cleanup, .receipt ⟨"run", "session", "rust"⟩ newReceipt, .tick ttl, .keys,
   .receipt ⟨"run", "session", "rust"⟩ newReceipt]

theorem drops_apart_unpublished :
    ∃ t, (machine (Option Rat) headerOf "rust").exec {} unpublished = some t ∧
      t.drops.map Drop.time = [ttl, 0] ∧ t.drops.Pairwise Apart := by
  have hsome : ((machine (Option Rat) headerOf "rust").exec {} unpublished).map (fun t => t.drops.map Drop.time) =
      some [ttl, 0] := by
    decide +kernel
  obtain ⟨t, ht, htimes⟩ := Option.map_eq_some_iff.1 hsome
  exact ⟨t, ht, htimes, drops_apart ht⟩

end MacpControlPlane.DecisionReceipt

import Mathlib.Logic.Function.Basic
import MacpControlPlane.Lib.Machine
import MacpControlPlane.Policy.PolicyAdmission

/-!
# Gates on capabilities (`runtime/runtime-capabilities.service.ts`)

The provider keeps the capabilities of the last `Initialize` that had any.  A what-if replay, a receipt and the keys of
receipts are only asked for if the runtime advertises them: in what is kept, or else in the answer to an `Initialize` of
their own.  Policies are registered and unregistered unless what is kept says that the registry is read-only
(`controllers/runtime.controller.ts`).  After the check every request waits for credentials, and is not checked again.
All of them are interleaved here with each other and with the `Initialize` of other callers, at their awaits; the
runtime may be exchanged at any time.
-/

namespace MacpControlPlane.CapabilityGate

open Js JsonSchema PolicyAdmission

variable {N : Type} [SchemaNumber N]

structure PolicyRegistry where
  registerPolicy : Option Bool
  ruleExtensions : Option (List String)
  whatIfReplay : Option Bool

/-- `RuntimeCapabilities`, what the gates read of them. -/
structure RuntimeCapabilities where
  policyRegistry : Option PolicyRegistry
  getDecisionReceipt : Option Bool

inductive Feature where
  | whatIfReplay
  | decisionReceipt
  deriving DecidableEq

def RuntimeCapabilities.advertises (capabilities : RuntimeCapabilities) : Feature → Bool
  | .whatIfReplay => (capabilities.policyRegistry.bind PolicyRegistry.whatIfReplay) = some true
  | .decisionReceipt => capabilities.getDecisionReceipt = some true

/-- `advertisedRuleExtensions` -/
def RuntimeCapabilities.ruleExtensions (capabilities : RuntimeCapabilities) : Option (List String) :=
  capabilities.policyRegistry.bind PolicyRegistry.ruleExtensions

/-- `assertRegistryWritable` throws. -/
def readOnly (capabilities : Option RuntimeCapabilities) : Bool :=
  ((capabilities.bind RuntimeCapabilities.policyRegistry).bind PolicyRegistry.registerPolicy) = some false

/-- `WhatIfCandidateInput` -/
structure WhatIfCandidateInput (N : Type) where
  mode : Option String
  rules : JsonObject N
  schemaVersion : Option Rat
  policyId : Option String
  description : Option String

/-- The candidate that is sent to the runtime. -/
def WhatIfCandidateInput.candidate (input : WhatIfCandidateInput N) (mode : String) : RuntimePolicyDescriptor N where
  policyId := input.policyId.getD ""
  mode := mode
  description := input.description.getD ""
  rules := input.rules
  schemaVersion := input.schemaVersion.getD defaultPolicySchemaVersion

/-- A call of `WhatIfReplayService.replay`, of `getReceipt`, or of `fetchKeys`. -/
inductive Call (N : Type) where
  | replay (sessionId : String) (input : WhatIfCandidateInput N)
  | getReceipt (sessionId : String)
  | fetchKeys

def Call.feature : Call N → Feature
  | .replay _ _ => .whatIfReplay
  | .getReceipt _ | .fetchKeys => .decisionReceipt

/-- Where a call is. -/
inductive CallAt where
  /-- `refresh` -/
  | refreshing
  /-- It has been let through. -/
  | passed (capabilities : RuntimeCapabilities)
  /-- `getSession`, for the mode -/
  | session (capabilities : RuntimeCapabilities)

/-- A call, and how many `Initialize` had been answered when it was made. -/
structure Pending (N : Type) where
  call : Call N
  begunAt : Nat
  here : CallAt

/-- What the runtime is asked. -/
inductive Request (N : Type) where
  | whatIfReplay (sessionId : String) (candidate : RuntimePolicyDescriptor N)
  | getDecisionReceipt (sessionId : String)
  | getReceiptKeys
  | registerPolicy (descriptor : RuntimePolicyDescriptor N)
  | unregisterPolicy (policyId : String)

/-- A request, and the answers to `Initialize` up to the check. -/
structure Checked (N : Type) where
  request : Request N
  checked : List (Option RuntimeCapabilities)

/-- A request that the runtime gets, and the answers up to then. -/
structure Sent (N : Type) extends Checked N where
  heard : List (Option RuntimeCapabilities)

/-- A call that has been refused with 501, on the answer. -/
structure Refused where
  feature : Feature
  answer : Option RuntimeCapabilities
  begunAt : Nat

structure State (N : Type) where
  /-- `provider.capabilities` -/
  capabilities : Option RuntimeCapabilities := none
  /-- The answers to `Initialize`, in order. -/
  heard : List (Option RuntimeCapabilities) := []
  pending : Nat → Option (Pending N) := fun _ => none
  /-- The requests in `credentialResolver.resolve`. -/
  resolving : List (Checked N) := []
  sent : List (Sent N) := []
  refused : List Refused := []

inductive Action (N : Type) where
  /-- An `Initialize` of another caller is answered: of the start of a run, a validation or
  `GET /runtime/capabilities`. -/
  | initialized (answer : Option RuntimeCapabilities)
  /-- A call reads the capabilities. -/
  | begin (i : Nat) (call : Call N)
  | refreshed (i : Nat) (answer : Option RuntimeCapabilities)
  | refreshFails (i : Nat)
  | proceed (i : Nat)
  | sessionRead (i : Nat) (mode : String)
  | sessionFails (i : Nat)
  | registerPolicy (body : PolicyBody N)
  | unregisterPolicy (policyId : String)
  /-- The credentials of the `i`-th request are there, or not. -/
  | resolved (i : Nat)
  | resolveFails (i : Nat)

/-- The end of `initialize` -/
def State.hear (s : State N) (answer : Option RuntimeCapabilities) : State N :=
  { s with capabilities := answer.or s.capabilities, heard := s.heard ++ [answer] }

def State.put (s : State N) (i : Nat) (p : Option (Pending N)) : State N :=
  { s with pending := Function.update s.pending i p }

/-- A method of the provider, up to the credentials. -/
def State.ask (s : State N) (request : Request N) : State N :=
  { s with resolving := s.resolving ++ [⟨request, s.heard⟩] }

section Step

variable (messageOf : ErrorObject → String)

/-- `replay` from the check of the candidate on. -/
def State.replay (s : State N) (i : Nat) (sessionId : String) (input : WhatIfCandidateInput N) (mode : String)
    (capabilities : RuntimeCapabilities) : State N :=
  match assertCandidateRules messageOf mode input.rules capabilities.ruleExtensions with
  | .ok () => (s.put i none).ask (.whatIfReplay sessionId (input.candidate mode))
  | .error _ => s.put i none

def next (s : State N) : Action N → Option (State N)
  | .initialized answer => some (s.hear answer)
  | .begin i call =>
    match s.pending i with
    | some _ => none
    | none =>
      let here :=
        match s.capabilities.filter fun cached => cached.advertises call.feature with
        | some cached => .passed cached
        | none => .refreshing
      some (s.put i (some ⟨call, s.heard.length, here⟩))
  | .refreshed i answer =>
    match s.pending i with
    | some ⟨call, begunAt, .refreshing⟩ =>
      let t := s.hear answer
      match answer.filter fun capabilities => capabilities.advertises call.feature with
      | some capabilities => some (t.put i (some ⟨call, begunAt, .passed capabilities⟩))
      | none => some { t.put i none with refused := ⟨call.feature, answer, begunAt⟩ :: s.refused }
    | _ => none
  | .refreshFails i =>
    match s.pending i with
    | some ⟨_, _, .refreshing⟩ => some (s.put i none)
    | _ => none
  | .proceed i =>
    match s.pending i with
    | some ⟨.replay sessionId input, begunAt, .passed capabilities⟩ =>
      match input.mode with
      | some mode => some (s.replay messageOf i sessionId input mode capabilities)
      | none => some (s.put i (some ⟨.replay sessionId input, begunAt, .session capabilities⟩))
    | some ⟨.getReceipt sessionId, _, .passed _⟩ => some ((s.put i none).ask (.getDecisionReceipt sessionId))
    | some ⟨.fetchKeys, _, .passed _⟩ => some ((s.put i none).ask .getReceiptKeys)
    | _ => none
  | .sessionRead i mode =>
    match s.pending i with
    | some ⟨.replay sessionId input, _, .session capabilities⟩ =>
      some (s.replay messageOf i sessionId input mode capabilities)
    | _ => none
  | .sessionFails i =>
    match s.pending i with
    | some ⟨_, _, .session _⟩ => some (s.put i none)
    | _ => none
  | .registerPolicy body =>
    match admitPolicy messageOf body (s.capabilities.bind RuntimeCapabilities.ruleExtensions) with
    | .ok descriptor => some (if readOnly s.capabilities then s else s.ask (.registerPolicy descriptor))
    | .error _ => some s
  | .unregisterPolicy policyId =>
    some (if readOnly s.capabilities then s else s.ask (.unregisterPolicy policyId))
  | .resolved i =>
    s.resolving[i]?.map fun r =>
      { s with resolving := s.resolving.eraseIdx i, sent := { r with heard := s.heard } :: s.sent }
  | .resolveFails i => s.resolving[i]?.map fun _ => { s with resolving := s.resolving.eraseIdx i }

def machine : Machine (State N) (Action N) where
  start s := s = {}
  next := next messageOf

/-! ### What is asked -/

/-- The capabilities of the last answer that had any. -/
def latest (heard : List (Option RuntimeCapabilities)) : Option RuntimeCapabilities := (heard.filterMap id).getLast?

/-- An answer has advertised the feature. -/
def Advertised (heard : List (Option RuntimeCapabilities)) (feature : Feature) (capabilities : RuntimeCapabilities) :
    Prop :=
  some capabilities ∈ heard ∧ capabilities.advertises feature = true

/-- The gates of a request, in terms of what the runtime has answered up to the check. -/
def Permitted (heard : List (Option RuntimeCapabilities)) : Request N → Prop
  | .whatIfReplay _ candidate => ∃ capabilities, Advertised heard .whatIfReplay capabilities ∧
      assertCandidateRules messageOf candidate.mode candidate.rules capabilities.ruleExtensions = .ok ()
  | .getDecisionReceipt _ | .getReceiptKeys => ∃ capabilities, Advertised heard .decisionReceipt capabilities
  | .registerPolicy descriptor =>
    (trim descriptor.policyId ≠ "" ∧ descriptor.policyId ≠ "policy.default" ∧
      descriptor.schemaVersion ∈ policySchemaVersions) ∧
    assertPolicyRules messageOf descriptor.mode descriptor.rules
      ((latest heard).bind RuntimeCapabilities.ruleExtensions) = .ok () ∧
    readOnly (latest heard) = false
  | .unregisterPolicy _ => readOnly (latest heard) = false

/-- What a call has been let through on has been advertised. -/
def CallAt.OK (heard : List (Option RuntimeCapabilities)) (feature : Feature) : CallAt → Prop
  | .refreshing => True
  | .passed capabilities | .session capabilities => Advertised heard feature capabilities

structure Gated (s : State N) : Prop where
  cached : s.capabilities = latest s.heard
  pending : ∀ i p, s.pending i = some p → p.here.OK s.heard p.call.feature ∧ p.begunAt ≤ s.heard.length
  resolving : ∀ r ∈ s.resolving, Permitted messageOf r.checked r.request ∧ r.checked <+: s.heard
  sent : ∀ r ∈ s.sent, Permitted messageOf r.checked r.request ∧ r.checked <+: r.heard ∧ r.heard <+: s.heard
  refused : ∀ r ∈ s.refused, ∃ j, r.begunAt ≤ j ∧ s.heard[j]? = some r.answer ∧
    (r.answer.any fun capabilities => capabilities.advertises r.feature) = false

end Step

/-! ### What one step keeps -/

variable {messageOf : ErrorObject → String} {s t : State N} {a : Action N} {as : List (Action N)}
  {heard heard' : List (Option RuntimeCapabilities)}

omit [SchemaNumber N] in
private theorem latest_concat (answer : Option RuntimeCapabilities) :
    latest (heard ++ [answer]) = answer.or (latest heard) := by
  cases answer with
  | none => simp [latest]
  | some capabilities => simp [latest]

private theorem mem_of_latest {capabilities : RuntimeCapabilities} (h : latest heard = some capabilities) :
    some capabilities ∈ heard := by
  obtain ⟨answer, hanswer, heq⟩ := List.mem_filterMap.1 (List.mem_of_getLast? h)
  exact (show answer = some capabilities from heq) ▸ hanswer

private theorem Advertised.mono {feature : Feature} {capabilities : RuntimeCapabilities}
    (h : Advertised heard feature capabilities) (hsub : heard ⊆ heard') : Advertised heard' feature capabilities :=
  ⟨hsub h.1, h.2⟩

private theorem CallAt.OK.mono {feature : Feature} {here : CallAt} (h : here.OK heard feature) (hsub : heard ⊆ heard') :
    here.OK heard' feature := by
  cases here with
  | refreshing => trivial
  | passed capabilities | session capabilities => exact Advertised.mono h hsub

private theorem Gated.hear (h : Gated messageOf s) (answer : Option RuntimeCapabilities) :
    Gated messageOf (s.hear answer) where
  cached := by
    change answer.or s.capabilities = latest (s.heard ++ [answer])
    rw [latest_concat, h.cached]
  pending i p hp := by
    obtain ⟨hhere, hbegun⟩ := h.pending i p hp
    refine ⟨hhere.mono (List.subset_append_left _ _), ?_⟩
    exact Nat.le_trans hbegun (List.sublist_append_left s.heard [answer]).length_le
  resolving r hr := ⟨(h.resolving r hr).1, (h.resolving r hr).2.trans (List.prefix_append _ _)⟩
  sent r hr := by
    obtain ⟨hpermitted, hchecked, hheard⟩ := h.sent r hr
    exact ⟨hpermitted, hchecked, hheard.trans (List.prefix_append _ _)⟩
  refused r hr := by
    obtain ⟨j, hj, hanswer, hnot⟩ := h.refused r hr
    have hlt : j < s.heard.length := (List.getElem?_eq_some_iff.1 hanswer).1
    exact ⟨j, hj, (List.getElem?_append_left hlt).trans hanswer, hnot⟩

private theorem Gated.put (h : Gated messageOf s) (i : Nat) {p : Option (Pending N)}
    (hp : ∀ q ∈ p, q.here.OK s.heard q.call.feature ∧ q.begunAt ≤ s.heard.length) : Gated messageOf (s.put i p) where
  cached := h.cached
  pending j q hq := by
    change Function.update s.pending i p j = some q at hq
    by_cases hj : j = i
    · rw [hj, Function.update_self] at hq
      exact hp q hq
    · rw [Function.update_of_ne hj] at hq
      exact h.pending j q hq
  resolving := h.resolving
  sent := h.sent
  refused := h.refused

private theorem Gated.clear (h : Gated messageOf s) (i : Nat) : Gated messageOf (s.put i none) :=
  h.put i fun _ hq => by cases hq

private theorem Gated.ask (h : Gated messageOf s) {request : Request N}
    (hrequest : Permitted messageOf s.heard request) : Gated messageOf (s.ask request) where
  cached := h.cached
  pending := h.pending
  resolving r hr := by
    rcases List.mem_append.1 hr with hr | hr
    · exact h.resolving r hr
    · obtain rfl := List.mem_singleton.1 hr
      exact ⟨hrequest, List.prefix_rfl⟩
  sent := h.sent
  refused := h.refused

/-- The request goes out on the check of before. -/
theorem Gated.resolved (h : Gated messageOf s) {i : Nat} {r : Checked N} (hr : s.resolving[i]? = some r) :
    Gated messageOf
      { s with resolving := s.resolving.eraseIdx i, sent := { r with heard := s.heard } :: s.sent } where
  cached := h.cached
  pending := h.pending
  resolving r hr := h.resolving r (List.mem_of_mem_eraseIdx hr)
  sent q hq := by
    rcases List.mem_cons.1 hq with rfl | hq
    · obtain ⟨hpermitted, hchecked⟩ := h.resolving r (List.mem_of_getElem? hr)
      exact ⟨hpermitted, hchecked, List.prefix_rfl⟩
    · exact h.sent q hq
  refused := h.refused

private theorem Gated.replay (h : Gated messageOf s) (i : Nat) (sessionId : String) {input : WhatIfCandidateInput N}
    (mode : String) {capabilities : RuntimeCapabilities} (hadvertised : Advertised s.heard .whatIfReplay capabilities) :
    Gated messageOf (s.replay messageOf i sessionId input mode capabilities) := by
  unfold State.replay
  split
  · rename_i hrules
    exact (h.clear i).ask ⟨capabilities, hadvertised, hrules⟩
  · exact h.clear i

/-- A policy that is admitted passes the checks on its rules, and it has an id that is not reserved. -/
theorem admitPolicy_eq_ok {body : PolicyBody N} {ruleExtensions : Option (List String)}
    {descriptor : RuntimePolicyDescriptor N} (h : admitPolicy messageOf body ruleExtensions = .ok descriptor) :
    (trim descriptor.policyId ≠ "" ∧ descriptor.policyId ≠ "policy.default" ∧
      descriptor.schemaVersion ∈ policySchemaVersions) ∧
    assertPolicyRules messageOf descriptor.mode descriptor.rules ruleExtensions = .ok () := by
  unfold admitPolicy at h
  dsimp only at h
  split_ifs at h with hid hdefault hversion
  split at h
  · rename_i rules _
    cases hrules : assertPolicyRules messageOf body.mode rules ruleExtensions with
    | error e =>
      rw [hrules] at h
      cases h
    | ok _ =>
      rw [hrules] at h
      cases h
      exact ⟨⟨hid, hdefault, hversion⟩, hrules⟩
  · cases h

private theorem Gated.next (h : Gated messageOf s) (hnext : next messageOf s a = some t) : Gated messageOf t := by
  cases a with
  | initialized answer =>
    cases hnext
    exact h.hear answer
  | begin i call =>
    simp only [CapabilityGate.next] at hnext
    split at hnext
    · cases hnext
    · cases hnext
      refine h.put i fun q hq => ?_
      cases hq
      refine ⟨?_, Nat.le_refl _⟩
      split
      · rename_i cached hcached
        obtain ⟨hmem, hadvertises⟩ := Option.filter_eq_some_iff.1 hcached
        exact ⟨mem_of_latest (h.cached ▸ hmem), hadvertises⟩
      · trivial
  | refreshed i answer =>
    simp only [CapabilityGate.next] at hnext
    split at hnext
    · rename_i call begunAt hpending
      obtain ⟨-, hbegun⟩ := h.pending i _ hpending
      have hheard := h.hear answer
      have hlast : (s.hear answer).heard[s.heard.length]? = some answer := List.getElem?_concat_length
      have hle : begunAt ≤ (s.hear answer).heard.length :=
        Nat.le_trans hbegun (List.sublist_append_left s.heard [answer]).length_le
      split at hnext
      · rename_i capabilities hcapabilities
        cases hnext
        obtain ⟨rfl, hadvertises⟩ := Option.filter_eq_some_iff.1 hcapabilities
        refine hheard.put i fun q hq => ?_
        cases hq
        exact ⟨⟨List.mem_append_right _ List.mem_cons_self, hadvertises⟩, hle⟩
      · rename_i hnone
        cases hnext
        have hcleared := hheard.clear i
        refine ⟨hcleared.cached, hcleared.pending, hcleared.resolving, hcleared.sent, fun r hr => ?_⟩
        rcases List.mem_cons.1 hr with rfl | hr
        · refine ⟨s.heard.length, hbegun, hlast, ?_⟩
          cases answer with
          | none => rfl
          | some capabilities => simpa [Option.filter] using hnone
        · exact hcleared.refused r hr
    · cases hnext
  | refreshFails i =>
    simp only [CapabilityGate.next] at hnext
    split at hnext
    · cases hnext
      exact h.clear i
    · cases hnext
  | proceed i =>
    simp only [CapabilityGate.next] at hnext
    split at hnext
    · rename_i sessionId input begunAt capabilities hpending
      obtain ⟨hadvertised, hbegun⟩ := h.pending i _ hpending
      split at hnext
      · rename_i mode _
        cases hnext
        exact h.replay i sessionId mode hadvertised
      · cases hnext
        refine h.put i fun q hq => ?_
        cases hq
        exact ⟨hadvertised, hbegun⟩
    · rename_i sessionId begunAt capabilities hpending
      cases hnext
      exact (h.clear i).ask ⟨capabilities, (h.pending i _ hpending).1⟩
    · rename_i begunAt capabilities hpending
      cases hnext
      exact (h.clear i).ask ⟨capabilities, (h.pending i _ hpending).1⟩
    · cases hnext
  | sessionRead i mode =>
    simp only [CapabilityGate.next] at hnext
    split at hnext
    · rename_i sessionId input begunAt capabilities hpending
      cases hnext
      exact h.replay i sessionId mode (h.pending i _ hpending).1
    · cases hnext
  | sessionFails i =>
    simp only [CapabilityGate.next] at hnext
    split at hnext
    · cases hnext
      exact h.clear i
    · cases hnext
  | registerPolicy body =>
    simp only [CapabilityGate.next] at hnext
    split at hnext
    · rename_i descriptor hadmitted
      cases hnext
      split
      · exact h
      · rename_i hwritable
        rw [h.cached] at hadmitted hwritable
        obtain ⟨hdescriptor, hrules⟩ := admitPolicy_eq_ok hadmitted
        exact h.ask ⟨hdescriptor, hrules, Bool.eq_false_iff.2 hwritable⟩
    · cases hnext
      exact h
  | unregisterPolicy policyId =>
    cases hnext
    split
    · exact h
    · rename_i hwritable
      rw [h.cached] at hwritable
      exact h.ask (Bool.eq_false_iff.2 hwritable)
  | resolved i =>
    obtain ⟨r, hr, rfl⟩ := Option.map_eq_some_iff.1 hnext
    exact h.resolved hr
  | resolveFails i =>
    obtain ⟨r, -, rfl⟩ := Option.map_eq_some_iff.1 hnext
    exact ⟨h.cached, h.pending, fun q hq => h.resolving q (List.mem_of_mem_eraseIdx hq), h.sent, h.refused⟩

private theorem gated_start : Gated messageOf ({} : State N) where
  cached := rfl
  pending _ _ hp := by cases hp
  resolving _ hr := absurd hr List.not_mem_nil
  sent _ hr := absurd hr List.not_mem_nil
  refused _ hr := absurd hr List.not_mem_nil

private theorem gated_of_exec (h : (machine messageOf).exec {} as = some s) : Gated messageOf s :=
  Machine.exec_invariant (fun _ _ _ hs hnext => hs.next hnext) gated_start h

/-- However the calls are interleaved with each other and with every `Initialize`: the runtime is asked for a what-if
replay, a receipt or keys only after it has advertised them, for a replay only with rules that pass the checks under the
vendor extensions that it has advertised with it; and policies are registered only with rules that pass the checks under
what it has advertised last, and neither registered nor unregistered where that is a read-only registry: at the check,
which may be some answers before the request. -/
theorem requests_permitted (h : (machine messageOf).exec {} as = some s) :
    ∀ r ∈ s.sent, Permitted messageOf r.checked r.request ∧ r.checked <+: r.heard ∧ r.heard <+: s.heard :=
  (gated_of_exec h).sent

/-- Where the runtime has advertised the feature in every answer from the `k`-th on, no call is refused that was made
after `k` answers or more: a runtime that is upgraded is seen without a restart. -/
theorem upgrade_seen {k : Nat} {feature : Feature}
    (hupgraded : ∀ j answer, k ≤ j → s.heard[j]? = some answer →
      (answer.any fun capabilities => capabilities.advertises feature) = true)
    (h : (machine messageOf).exec {} as = some s) : ∀ r ∈ s.refused, r.feature = feature → r.begunAt < k := by
  rintro r hr rfl
  obtain ⟨j, hj, hanswer, hnot⟩ := (gated_of_exec h).refused r hr
  by_contra hbegun
  have hsome := hupgraded j r.answer (Nat.le_trans (Nat.le_of_not_lt hbegun) hj) hanswer
  rw [hnot] at hsome
  cases hsome

/-! ### An upgrade -/

/-- A runtime without receipts and what-if replays. -/
def oldRuntime : RuntimeCapabilities where
  policyRegistry := some { registerPolicy := some true, ruleExtensions := some [], whatIfReplay := none }
  getDecisionReceipt := none

def newRuntime : RuntimeCapabilities where
  policyRegistry :=
    some { registerPolicy := some true, ruleExtensions := some ["x-acme.tool"], whatIfReplay := some true }
  getDecisionReceipt := some true

/-- Its policies come from a directory. -/
def readOnlyRuntime : RuntimeCapabilities where
  policyRegistry :=
    some { registerPolicy := some false, ruleExtensions := some ["x-acme.tool"], whatIfReplay := some true }
  getDecisionReceipt := some true

/-- The rules of the example of the validator, with a vendor extension of the new runtime. -/
def exampleBody : PolicyBody (Option Rat) where
  policyId := some "policy.acme"
  mode := "macp.mode.proposal.v1"
  description := ""
  rules := some PolicyRulesValidator.exampleRules
  schemaVersion := none

def exampleInput : WhatIfCandidateInput (Option Rat) where
  mode := none
  rules := [("acceptance", .obj [("criterion", .str "initiator")])]
  schemaVersion := none
  policyId := none
  description := none

/-- A call for keys is refused by the old runtime, and so are the rules; after the upgrade all pass.  While the policy
waits for its credentials, the runtime is exchanged again. -/
def upgraded : List (Action (Option Rat)) :=
  [.begin 0 .fetchKeys, .refreshed 0 (some oldRuntime), .registerPolicy exampleBody, .begin 1 .fetchKeys,
    .begin 2 (.replay "session-1" exampleInput), .refreshed 1 (some newRuntime), .proceed 1,
    .refreshed 2 (some newRuntime), .proceed 2, .resolved 0, .sessionRead 2 "macp.mode.proposal.v1",
    .registerPolicy exampleBody, .resolved 0, .initialized (some readOnlyRuntime), .unregisterPolicy "policy.acme",
    .resolved 0]

private theorem exec_upgraded : ∃ s, (machine fun e => e.violation.keyword).exec {} upgraded = some s ∧
    s.sent.map (fun r => (r.checked.length, r.heard.length)) = [(3, 4), (3, 3), (2, 3)] ∧
    s.heard = [some oldRuntime, some newRuntime, some newRuntime, some readOnlyRuntime] ∧
    s.refused.map Refused.begunAt = [0] :=
  ⟨_, rfl, rfl, rfl, rfl⟩

theorem requests_permitted_upgraded : ∃ s : State (Option Rat),
    (machine fun e => e.violation.keyword).exec {} upgraded = some s ∧
      s.sent.map (fun r => (r.checked.length, r.heard.length)) = [(3, 4), (3, 3), (2, 3)] ∧
      ∀ r ∈ s.sent, Permitted (fun e => e.violation.keyword) r.checked r.request ∧ r.checked <+: r.heard ∧
        r.heard <+: s.heard := by
  obtain ⟨s, hexec, hsent, -⟩ := exec_upgraded
  exact ⟨s, hexec, hsent, requests_permitted hexec⟩

theorem upgrade_seen_upgraded : ∃ s : State (Option Rat),
    (machine fun e => e.violation.keyword).exec {} upgraded = some s ∧ s.refused.map Refused.begunAt = [0] ∧
      ∀ r ∈ s.refused, r.feature = .decisionReceipt → r.begunAt < 1 := by
  obtain ⟨s, hexec, -, hheard, hrefused⟩ := exec_upgraded
  refine ⟨s, hexec, hrefused, upgrade_seen (fun j answer hj hanswer => ?_) hexec⟩
  rw [hheard] at hanswer
  obtain ⟨hlt, rfl⟩ := List.getElem?_eq_some_iff.1 hanswer
  have hcases : j = 1 ∨ j = 2 ∨ j = 3 := by
    simp only [List.length_cons, List.length_nil] at hlt
    omega
  rcases hcases with rfl | rfl | rfl <;> rfl

end MacpControlPlane.CapabilityGate

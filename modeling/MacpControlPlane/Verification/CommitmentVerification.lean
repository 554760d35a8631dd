import MacpControlPlane.Verification.CommitmentOutcome

/-!
# Verification of a commitment (`verification/commitment-verification.service.ts`)

`verify` hashes the commitment of a run twice, as the control plane has stored it and as its wire bytes decode, has the
bytes verified against the hash, and compares the decision that the run shows.
-/

namespace MacpControlPlane

open Js EventNormalizer

variable {B N : Type} [JsNumber N]

/-- `VerifyOutcome` of the SDK. -/
inductive VerifyOutcome where
  | matches | mismatch | cannotVerify
  deriving DecidableEq, Repr

/-- What `verify` uses of `macp-sdk-typescript`, and `JSON.stringify` of a string. -/
structure VerificationSdk (B : Type) where
  commitmentHash : CommitmentPayload → String
  verifyCommitmentHash : B → String → VerifyOutcome
  isCanonicalCommitmentHash : String → Bool
  stringify : String → String

inductive VerificationStatus where
  | verified | mismatch | cannotVerify | pending
  deriving DecidableEq, Repr

inductive VerificationCheckId where
  | wireRecompute | rfc0013Verify | projectionConsistency | supersedesCanonical
  deriving DecidableEq, Repr

structure VerificationCheck where
  id : VerificationCheckId
  description : String
  passed : Bool
  detail : Option String := none
  deriving DecidableEq, Repr

/-- `RunVerification['commitment']`; `payload` is the projection that the hash covers, field by field. -/
structure VerifiedCommitment where
  messageId : String
  sender : String
  sessionId : String
  acceptedAt : String
  payload : CommitmentPayload
  deriving DecidableEq, Repr

/-- `RunVerification`, without the fields of `base`. -/
structure RunVerification where
  status : VerificationStatus
  isMatch : Bool := false
  commitmentHash : Option String := none
  recomputed : Option String := none
  wireVerdict : Option VerifyOutcome := none
  commitment : Option VerifiedCommitment := none
  checks : List VerificationCheck := []
  deriving DecidableEq, Repr

/-- What `verify` has read. -/
structure VerificationReads (N : Type) where
  /-- `raw.ts` and `raw.payload.envelope` of `findLatestRawEnvelope` -/
  latest : Option (String × Option (Json N))
  /-- `received.data.payload` of `findReceivedMessage` -/
  received : String → Option (Json N)
  /-- `getState`; `none` when it throws. -/
  state : Option (RunStateProjection N)

namespace CommitmentVerification

def toCommitmentPayload (raw : Option (Json N)) : CommitmentPayload where
  commitmentId := stringOr (coalesce (field raw "commitmentId") (field raw "commitment_id")) ""
  action := stringOr (field raw "action") ""
  authorityScope := stringOr (coalesce (field raw "authorityScope") (field raw "authority_scope")) ""
  reason := stringOr (field raw "reason") ""
  modeVersion := stringOr (coalesce (field raw "modeVersion") (field raw "mode_version")) ""
  policyVersion := stringOr (coalesce (field raw "policyVersion") (field raw "policy_version")) ""
  configurationVersion := stringOr (coalesce (field raw "configurationVersion") (field raw "configuration_version")) ""
  outcomePositive := truthy (coalesce (field raw "outcomePositive") (field raw "outcome_positive"))
  supersedes :=
    let sup := field raw "supersedes"
    if isObject sup then
      some
        { sessionId := stringOr (coalesce (field sup "sessionId") (field sup "session_id")) ""
          commitmentHash := stringOr (coalesce (field sup "commitmentHash") (field sup "commitment_hash")) "" }
    else none

/-- The decision the run view displays must be the one that was hashed. -/
def projectionConsistency (stringify : String → String) (state : Option (RunStateProjection N))
    (payload : CommitmentPayload) : Option VerificationCheck :=
  match state.bind (·.decision.current) with
  | none => none
  | some current =>
    if current.finalized then
      let mismatches :=
        (if current.action ≠ payload.action then ["action " ++ stringify current.action] else []) ++
          -- Only a committed `true` is compared.
          if payload.outcomePositive = true ∧ current.outcomePositive = some (some false) then
            ["outcomePositive false"]
          else []
      some
        { id := .projectionConsistency
          description := "The finalized decision shown for the run (action, outcome) matches the hashed Commitment"
          passed := mismatches.isEmpty
          detail :=
            if mismatches.isEmpty then none else some ("projection differs: " ++ ", ".intercalate mismatches) }
    else none

/-- The hashes and the verdict. -/
structure Hashes (B : Type) where
  wire : Option B
  wirePayload : Option CommitmentPayload
  stored : Option CommitmentPayload
  storedHash : Option String
  recomputed : Option String
  wireVerdict : Option VerifyOutcome

def hashes (codec : Codec B N) (sdk : VerificationSdk B) (reads : VerificationReads N) (envelope : Option (Json N)) :
    Hashes B :=
  let messageId := stringOr (field envelope "messageId") ""
  let storedRaw := if messageId = "" then none else reads.received messageId
  let wire := (asString (field envelope "payloadBase64")).map codec.ofBase64
  let wirePayload := (wire.bind (codec.decodeMessage "macp.v1.CommitmentPayload")).map fun decoded =>
    toCommitmentPayload (some (.obj decoded))
  let stored := if truthy storedRaw then some (toCommitmentPayload storedRaw) else none
  let storedHash := stored.map sdk.commitmentHash
  { wire, wirePayload, stored, storedHash, recomputed := wirePayload.map sdk.commitmentHash,
    wireVerdict := wire.bind fun w => storedHash.map (sdk.verifyCommitmentHash w) }

variable (sdk : VerificationSdk B) (h : Hashes B)

/-- The stored record; where that is missing, the wire decode. -/
def Hashes.subject : Option CommitmentPayload := h.stored.or h.wirePayload

def verdictText : Option VerifyOutcome → String
  | none => "not run"
  | some .matches => "match"
  | some .mismatch => "mismatch"
  | some .cannotVerify => "cannot_verify"

def Hashes.hashChecks : List VerificationCheck :=
  [{ id := .wireRecompute
     description := "Hash of the stored CommitmentPayload equals the hash recomputed from the envelope wire bytes"
     passed := h.storedHash.isSome && h.storedHash = h.recomputed
     detail :=
       if h.storedHash.isNone then some "no stored message.received payload for this Commitment"
       else if h.recomputed.isNone then
         some "the envelope payload bytes are missing or do not decode as a CommitmentPayload"
       else none },
    { id := .rfc0013Verify
      description :=
        "RFC-MACP-0013 §6.1 verify of the wire bytes against that hash returns match (macp-commitment-hash/1)"
      passed := h.wireVerdict = some .matches
      detail := some (verdictText h.wireVerdict) }]

def Hashes.checks (state : Option (RunStateProjection N)) : List VerificationCheck :=
  h.hashChecks ++ (h.subject.bind (projectionConsistency sdk.stringify state)).toList ++
    ((h.subject.bind (·.supersedes)).map fun ref =>
      { id := .supersedesCanonical
        description := "supersedes.commitment_hash is in canonical sha256:<64 hex> form"
        passed := sdk.isCanonicalCommitmentHash ref.commitmentHash : VerificationCheck }).toList

def Hashes.isMatch : Bool :=
  h.storedHash.isSome && h.storedHash = h.recomputed && h.wireVerdict = some .matches

def Hashes.status (state : Option (RunStateProjection N)) : VerificationStatus :=
  if h.wireVerdict = some .cannotVerify ∨ (h.storedHash.isSome ∧ h.wire.isNone) then .cannotVerify
  else if h.isMatch && (h.checks sdk state).all (·.passed) then .verified
  else .mismatch

def verify (codec : Codec B N) (reads : VerificationReads N) : RunVerification :=
  let envelope := reads.latest.bind (·.2)
  if truthy envelope then
    let h := hashes codec sdk reads envelope
    { status := h.status sdk reads.state
      isMatch := h.isMatch
      commitmentHash := h.storedHash
      recomputed := h.recomputed
      wireVerdict := h.wireVerdict
      commitment := h.subject.map fun payload =>
        { messageId := stringOr (field envelope "messageId") ""
          sender := stringOr (field envelope "sender") ""
          sessionId := stringOr (field envelope "sessionId") ""
          acceptedAt := (reads.latest.map (·.1)).getD ""
          payload }
      checks := h.checks sdk reads.state }
  else { status := .pending }

/-! ### What a verified run has passed -/

section Verified

variable {sdk h} {state : Option (RunStateProjection N)}

omit [JsNumber N] in
private theorem status_eq_verified (hstatus : h.status sdk state = .verified) :
    h.isMatch = true ∧ ∀ check ∈ h.checks sdk state, check.passed = true := by
  unfold Hashes.status at hstatus
  split_ifs at hstatus with hcannot hall
  simpa using hall

private theorem verify_eq_verified {codec : Codec B N} {reads : VerificationReads N}
    (hstatus : (verify sdk codec reads).status = .verified) :
    (hashes codec sdk reads (reads.latest.bind (·.2))).status sdk reads.state = .verified := by
  unfold verify at hstatus
  dsimp only at hstatus
  split_ifs at hstatus with henvelope
  exact hstatus

omit [JsNumber N] in
/-- The check of the projection passes if the action is the one that was hashed, and a positive outcome is not shown
as a negative one. -/
theorem projectionConsistency_passed {stringify : String → String} {s : RunStateProjection N}
    {current : DecisionCurrent N} {payload : CommitmentPayload} {check : VerificationCheck}
    (hcurrent : s.decision.current = some current) (hfinalized : current.finalized = true)
    (hcheck : projectionConsistency stringify (some s) payload = some check) (hpassed : check.passed = true) :
    current.action = payload.action := by
  unfold projectionConsistency at hcheck
  rw [Option.bind_some, hcurrent] at hcheck
  simp only [hfinalized, if_true, Option.some.injEq] at hcheck
  rw [← hcheck] at hpassed
  by_contra hne
  simp [hne] at hpassed

omit [JsNumber N] in
private theorem projectionConsistency_isSome (stringify : String → String) {s : RunStateProjection N}
    {current : DecisionCurrent N} (payload : CommitmentPayload) (hcurrent : s.decision.current = some current)
    (hfinalized : current.finalized = true) :
    ∃ check, projectionConsistency stringify (some s) payload = some check := by
  unfold projectionConsistency
  rw [Option.bind_some, hcurrent]
  simp only [hfinalized, if_true]
  exact ⟨_, rfl⟩

end Verified

/-! ### The decision after its last commitment -/

/-- The last `decision.finalized` of the log is the one of an envelope with these bytes. -/
def StemsFrom (codec : Codec B N) (wire : B) (log : List (CanonicalEvent N)) : Prop :=
  ∃ before event after modeName, log = before ++ event :: after ∧ event.type = .decisionFinalized ∧
    (∀ e ∈ after, e.type ≠ .decisionFinalized) ∧
    event.datum "decodedPayload" = (ProtoRegistry.decodeKnown codec modeName "Commitment" wire).map .obj

/-- The decision is final, with this action and this outcome. -/
structure Finalized (action : String) (outcome : Option Bool) (decision : DecisionProjection N) : Prop where
  current : ∃ current, decision.current = some current ∧ current.finalized = true ∧ current.action = action ∧
    current.outcomePositive = some outcome

private theorem Finalized.proposed {action : String} {outcome : Option Bool} {decision : DecisionProjection N}
    (hfinal : Finalized action outcome decision) (event : CanonicalEvent N) :
    Finalized action outcome (Reducer.proposedDecision decision event) := by
  obtain ⟨current, hcurrent, hfinalized, haction, houtcome⟩ := hfinal.current
  unfold Reducer.proposedDecision
  simp only [hcurrent, Option.getD_some, hfinalized, if_true]
  exact ⟨_, rfl, rfl, haction, houtcome⟩

/-- A final decision is changed by another commitment only. -/
theorem Finalized.step {action : String} {outcome : Option Bool} {decision : DecisionProjection N}
    (hfinal : Finalized action outcome decision) {event : CanonicalEvent N} (htype : event.type ≠ .decisionFinalized) :
    Finalized action outcome (Reducer.decisionStep decision event) := by
  obtain ⟨current, hcurrent, hfinalized, haction, houtcome⟩ := hfinal.current
  unfold Reducer.decisionStep
  split
  · unfold Reducer.promptedDecision
    split
    · exact ⟨_, rfl, by simp [hcurrent, hfinalized], by simp [hcurrent, haction], by simp [hcurrent, houtcome]⟩
    · exact hfinal
  · exact hfinal.proposed event
  · exact hfinal.proposed event
  · rename_i heq
    exact absurd heq htype
  · exact hfinal

theorem Finalized.foldl {action : String} {outcome : Option Bool} {decision : DecisionProjection N}
    (hfinal : Finalized action outcome decision) {es : List (CanonicalEvent N)}
    (hes : ∀ e ∈ es, e.type ≠ .decisionFinalized) :
    Finalized action outcome (es.foldl Reducer.decisionStep decision) := by
  refine List.foldlRecOn es Reducer.decisionStep hfinal ?_
  exact fun decision hdecision e he => hdecision.step (hes e he)

theorem finalized_foldl {before after : List (CanonicalEvent N)} {event : CanonicalEvent N}
    (htype : event.type = .decisionFinalized) (hafter : ∀ e ∈ after, e.type ≠ .decisionFinalized)
    (decision : DecisionProjection N) :
    Finalized (Reducer.finalAction event) (Reducer.finalOutcome event)
      ((before ++ event :: after).foldl Reducer.decisionStep decision) := by
  rw [List.foldl_append, List.foldl_cons]
  have hstart : Finalized (Reducer.finalAction event) (Reducer.finalOutcome event)
      (Reducer.decisionStep (before.foldl Reducer.decisionStep decision) event) := by
    unfold Reducer.decisionStep
    rw [htype]
    exact ⟨_, rfl, rfl, rfl, rfl⟩
  exact hstart.foldl hafter

/-- The run shows what the reducer has read of the last commitment. -/
theorem finalized_applyEvents {codec : Codec B N} {wire : B} {log : List (CanonicalEvent N)} {decoded : JsonObject N}
    (hstems : StemsFrom codec wire log)
    (hdecode : codec.decodeMessage "macp.v1.CommitmentPayload" wire = some decoded) (state : RunStateProjection N) :
    ∃ event : CanonicalEvent N, event.datum "decodedPayload" = some (.obj decoded) ∧
      Finalized (Reducer.finalAction event) (Reducer.finalOutcome event) (applyEvents state log).decision := by
  obtain ⟨before, event, after, modeName, rfl, htype, hafter, hpayload⟩ := hstems
  rw [decodeKnown_commitment hdecode] at hpayload
  refine ⟨event, hpayload, ?_⟩
  rw [applyEvents_decision]
  exact finalized_foldl htype hafter _

/-! ### Soundness -/

/-- The decision that is shown for the run is the one of the payload. -/
structure ShownMatches (p : CommitmentPayload) (state : RunStateProjection N) : Prop where
  action : ∃ current, state.decision.current = some current ∧ current.action = p.action
  outcome : ∀ current outcome, state.decision.current = some current → current.outcomePositive = some (some outcome) →
    outcome = p.outcomePositive

/-- The decoded payload holds the action and the outcome, or what the reducer puts in their place does no harm. -/
structure Conclusive (decoded : Option (Json N)) (p : CommitmentPayload) (read : Bool) : Prop where
  action : read = true ∨ (defined (field decoded "action")).isSome = true
  outcome : (defined (coalesce (field decoded "outcomePositive") (field decoded "outcome_positive"))).isSome = true ∨
    inferOutcomePositiveFromAction p.action ≠ some true

section Soundness

variable {decoded : JsonObject N} {event : CanonicalEvent N}

omit [JsNumber N] in
private theorem eq_of_defined {x : Option (Json N)} {v : Json N} (hx : defined x = some v) : x = some v := by
  unfold defined coalesce at hx
  split at hx
  · exact absurd hx (by simp)
  · exact absurd hx (by simp)
  · exact hx

/-- What is not there is not positive. -/
theorem not_truthy_of_not_defined {x : Option (Json N)} (hx : ¬ (defined x).isSome = true) : truthy x = false := by
  rcases x with - | v
  · rfl
  · cases v with
    | null => rfl
    | _ => exact absurd rfl hx

private theorem finalAction_eq (hpayload : event.datum "decodedPayload" = some (.obj decoded)) :
    Reducer.finalAction event = (toCommitmentPayload (some (.obj decoded))).action ↔
      (defined (field (some (.obj decoded)) "action")).isSome = true := by
  unfold Reducer.finalAction toCommitmentPayload stringOr
  rw [hpayload]
  cases defined (field (some (.obj decoded)) "action") <;> simp

private theorem finalOutcome_eq (hpayload : event.datum "decodedPayload" = some (.obj decoded)) :
    Reducer.finalOutcome event =
      if (defined (coalesce (field (some (.obj decoded)) "outcomePositive")
          (field (some (.obj decoded)) "outcome_positive"))).isSome then
        some (toCommitmentPayload (some (.obj decoded))).outcomePositive
      else inferOutcomePositiveFromAction (Reducer.finalAction event) := by
  unfold Reducer.finalOutcome toCommitmentPayload
  rw [hpayload]
  dsimp only
  generalize coalesce (field (some (.obj decoded)) "outcomePositive") (field (some (.obj decoded)) "outcome_positive") =
    outcome
  cases houtcome : defined outcome with
  | none => rfl
  | some v =>
    rw [eq_of_defined houtcome]
    rfl

variable {codec : Codec B N} {sdk : VerificationSdk B} {reads : VerificationReads N}
  {payloadOf : B → Option CommitmentPayload} {envelope : Option (Json N)} {wire : B} {p : CommitmentPayload}

/-- The wire bytes decode to the payload that they encode, and so does the stored record. -/
theorem hashes_of_isMatch (hinj : ∀ q, sdk.commitmentHash q = sdk.commitmentHash p → q = p)
    (hsdk : ∀ wire hash, sdk.verifyCommitmentHash wire hash = .matches →
      ∃ p, payloadOf wire = some p ∧ sdk.commitmentHash p = hash)
    (hwire : (asString (field envelope "payloadBase64")).map codec.ofBase64 = some wire)
    (hmatch : (hashes codec sdk reads envelope).isMatch = true) (hp : payloadOf wire = some p) :
    (∃ decoded, codec.decodeMessage "macp.v1.CommitmentPayload" wire = some decoded ∧
      toCommitmentPayload (some (.obj decoded)) = p) ∧ (hashes codec sdk reads envelope).subject = some p := by
  generalize hh : hashes codec sdk reads envelope = h at hmatch ⊢
  have hpayload : h.wirePayload = (codec.decodeMessage "macp.v1.CommitmentPayload" wire).map fun decoded =>
      toCommitmentPayload (some (.obj decoded)) := by
    rw [← hh]
    simp [hashes, hwire]
  have hrecomputed : h.recomputed = h.wirePayload.map sdk.commitmentHash := by rw [← hh]; rfl
  have hstored : h.storedHash = h.stored.map sdk.commitmentHash := by rw [← hh]; rfl
  have hverdict : h.wireVerdict = h.storedHash.map (sdk.verifyCommitmentHash wire) := by
    rw [← hh]
    simp [hashes, hwire]
  unfold Hashes.isMatch at hmatch
  simp only [Bool.and_eq_true, decide_eq_true_eq] at hmatch
  obtain ⟨⟨hsome, hsame⟩, hmatches⟩ := hmatch
  obtain ⟨hash, hhash⟩ := Option.isSome_iff_exists.1 hsome
  -- The verifier vouches for the payload that the bytes encode.
  have hof : sdk.commitmentHash p = hash := by
    rw [hverdict, hhash] at hmatches
    obtain ⟨q, hq, hqhash⟩ := hsdk wire hash (Option.some.inj hmatches)
    rw [hp] at hq
    rw [Option.some.inj hq]
    exact hqhash
  constructor
  · rw [hsame, hrecomputed, hpayload] at hhash
    simp only [Option.map_map, Option.map_eq_some_iff] at hhash
    obtain ⟨decoded, hdecode, heq⟩ := hhash
    exact ⟨decoded, hdecode, hinj _ (heq.trans hof.symm)⟩
  · rw [hstored, Option.map_eq_some_iff] at hhash
    obtain ⟨stored, hrecord, heq⟩ := hhash
    unfold Hashes.subject
    rw [hrecord, hinj _ (heq.trans hof.symm)]
    rfl

/-- A verified run shows its commitment exactly if the decoded payload is conclusive. -/
theorem verified_iff (hinj : ∀ q, sdk.commitmentHash q = sdk.commitmentHash p → q = p)
    (hsdk : ∀ wire hash, sdk.verifyCommitmentHash wire hash = .matches →
      ∃ p, payloadOf wire = some p ∧ sdk.commitmentHash p = hash)
    {ts : String} (hlatest : reads.latest = some (ts, envelope))
    (hwire : (asString (field envelope "payloadBase64")).map codec.ofBase64 = some wire)
    {log : List (CanonicalEvent N)} {runId : String} (hstems : StemsFrom codec wire log)
    (hstate : ∀ state, reads.state = some state → state = applyEvents (.empty runId) log)
    (hverified : (verify sdk codec reads).status = .verified) (hp : payloadOf wire = some p) :
    ShownMatches p (applyEvents (RunStateProjection.empty (N := N) runId) log) ↔
      Conclusive ((codec.decodeMessage "macp.v1.CommitmentPayload" wire).map .obj) p reads.state.isSome := by
  have hverified := verify_eq_verified hverified
  rw [hlatest, Option.bind_some] at hverified
  obtain ⟨hmatch, hchecks⟩ := status_eq_verified hverified
  obtain ⟨⟨decoded, hdecode, hpayload⟩, hsubject⟩ := hashes_of_isMatch hinj hsdk hwire hmatch hp
  obtain ⟨event, hevent, ⟨current, hcurrent, hfinalized, haction, houtcome⟩⟩ :=
    finalized_applyEvents hstems hdecode (.empty runId)
  -- Where the state was read, the check has compared the action.
  have hcompared : reads.state.isSome = true → current.action = p.action := by
    intro hsome
    obtain ⟨state, hread⟩ := Option.isSome_iff_exists.1 hsome
    obtain rfl := hstate state hread
    obtain ⟨check, hcheck⟩ := projectionConsistency_isSome sdk.stringify p hcurrent hfinalized
    refine projectionConsistency_passed hcurrent hfinalized hcheck (hchecks check ?_)
    simp [Hashes.checks, hsubject, hread, hcheck]
  rw [hdecode, Option.map_some]
  have hactions := finalAction_eq hevent
  have houtcomes := finalOutcome_eq hevent
  rw [hpayload] at hactions houtcomes
  constructor
  · intro hshown
    obtain ⟨current', hcurrent', haction'⟩ := hshown.action
    rw [hcurrent] at hcurrent'
    obtain rfl := Option.some.inj hcurrent'
    have hsame : Reducer.finalAction event = p.action := haction.symm.trans haction'
    refine ⟨.inr (hactions.1 hsame), ?_⟩
    by_contra hnot
    obtain ⟨hnone, hinfer⟩ := not_or.1 hnot
    rw [if_neg hnone, hsame, not_not.1 hinfer] at houtcomes
    have hpositive := hshown.outcome current true hcurrent (houtcome.trans (congrArg some houtcomes))
    have hnegative : p.outcomePositive = false := hpayload ▸ not_truthy_of_not_defined hnone
    exact absurd (hpositive.trans hnegative) (by decide)
  · rintro ⟨hcarried, hconclusive⟩
    have hsame : current.action = p.action := by
      rcases hcarried with hread | hcarried
      · exact hcompared hread
      · rw [haction]
        exact hactions.2 hcarried
    refine ⟨⟨current, hcurrent, hsame⟩, ?_⟩
    intro current' outcome hcurrent' hshown
    rw [hcurrent] at hcurrent'
    obtain rfl := Option.some.inj hcurrent'
    have hfinal : Reducer.finalOutcome event = some outcome := Option.some.inj (houtcome.symm.trans hshown)
    rw [houtcomes] at hfinal
    split at hfinal
    · exact (Option.some.inj hfinal).symm
    · rename_i hnone
      have hnegative : p.outcomePositive = false := hpayload ▸ not_truthy_of_not_defined hnone
      rw [← haction, hsame] at hfinal
      cases outcome with
      | false => exact hnegative.symm
      | true => exact absurd hfinal (hconclusive.resolve_left hnone)

end Soundness

/-- The SDK, as far as it handles one commitment. -/
def singleSdk (c : WireCommitment) (hash : String) : VerificationSdk (List Nat) where
  commitmentHash q := if q = c.payload then hash else ""
  verifyCommitmentHash wire h := if wire = c.wire ∧ h = hash then .matches else .mismatch
  isCanonicalCommitmentHash := isCanonicalCommitmentHash
  stringify s := "\"" ++ s ++ "\""

/-- What is stored of a run with one commitment. -/
def singleReads (c : WireCommitment) : VerificationReads (Option Rat) where
  latest := some ("2026-10-24T00:00:00.000Z", some (.obj
    [("messageId", .str "m-commit"), ("sessionId", .str "s1"), ("sender", .str "coordinator"),
      ("payloadBase64", .str c.base64)]))
  received messageId := if messageId = "m-commit" then some (.obj (c.payload.toObject none)) else none
  state := some (applyEvents (.empty "r1") c.events)

def positiveHash : String := "sha256:ede5a5a7b873c097c91038a229700555c5e3faa0956e6716ec6c21b4bc044a8c"

def negativeHash : String := "sha256:f1812bc1d9d1c5ade98cff029f2ad5e5e72f2f8848d4165aea51e47481cd839a"

private theorem stemsFrom_events (c : WireCommitment) : StemsFrom c.codec c.wire c.events := by
  have htype : c.envelope.messageType = "Commitment" := rfl
  obtain ⟨msg, seen, hdecoded, -, hevents⟩ := normalizeEnvelope_commitment []
    ⟨"r1", "2026-10-24T00:00:00.000Z", fun _ => "e1"⟩ [] none c.codec_decodeMessage htype
  refine ⟨seen ++ [messageReceived msg c.codec], derived msg .decisionFinalized, [], "macp.mode.decision.v1", ?_, rfl,
    by simp, ?_⟩
  · rw [List.append_assoc]
    exact hevents
  · rw [datum_derived_decodedPayload, hdecoded, decodeKnown_commitment c.codec_decodeMessage]
    rfl

private theorem singleSdk_matches {c : WireCommitment} {hash : String} {wire : List Nat} {h : String}
    (hmatches : (singleSdk c hash).verifyCommitmentHash wire h = .matches) :
    ∃ p, (if wire = c.wire then some c.payload else none) = some p ∧ (singleSdk c hash).commitmentHash p = h := by
  unfold singleSdk at hmatches ⊢
  dsimp only at hmatches ⊢
  split_ifs at hmatches with heq
  obtain ⟨rfl, rfl⟩ := heq
  exact ⟨c.payload, if_pos rfl, if_pos rfl⟩

theorem verified_iff_positive :
    ShownMatches WireCommitment.positive.payload (applyEvents (.empty "r1") WireCommitment.positive.events) := by
  have hinj : ∀ q, (singleSdk .positive positiveHash).commitmentHash q =
      (singleSdk .positive positiveHash).commitmentHash WireCommitment.positive.payload →
        q = WireCommitment.positive.payload := by
    intro q hq
    by_contra hne
    have hempty : "" = positiveHash := by simpa [singleSdk, hne] using hq
    exact absurd hempty (by decide)
  have hstate : ∀ state, (singleReads .positive).state = some state →
      state = applyEvents (.empty "r1") WireCommitment.positive.events :=
    fun _ hread => (Option.some.inj hread).symm
  have hverified : (verify (singleSdk .positive positiveHash) WireCommitment.positive.codec
      (singleReads .positive)).status = .verified := by
    decide +kernel
  exact (verified_iff hinj (fun _ _ => singleSdk_matches) rfl (by decide +kernel) (stemsFrom_events _) hstate hverified
    (if_pos rfl)).2 ⟨.inl rfl, .inl (by decide +kernel)⟩

/-- An approval that is committed with a negative outcome is verified, while the run shows a positive one. -/
theorem verified_negative :
    (verify (singleSdk .negative negativeHash) WireCommitment.negative.codec (singleReads .negative)).status =
        .verified ∧
      ¬ ShownMatches WireCommitment.negative.payload (applyEvents (.empty "r1") WireCommitment.negative.events) := by
  refine ⟨by decide +kernel, fun h => ?_⟩
  have hshown : (applyEvents (.empty "r1") WireCommitment.negative.events).decision.current.bind (·.outcomePositive) =
      some (some true) := by
    decide +kernel
  obtain ⟨current, hcurrent, houtcome⟩ := Option.bind_eq_some_iff.1 hshown
  exact absurd (h.outcome current true hcurrent houtcome) (by decide)

end CommitmentVerification

end MacpControlPlane

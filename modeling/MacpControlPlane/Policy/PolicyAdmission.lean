import MacpControlPlane.Policy.PolicyRulesValidator

/-!
# The admission of governance policies

What `POST /runtime/policies` (`controllers/runtime.controller.ts`) and `WhatIfReplayService.replay`
(`what-if/what-if-replay.service.ts`) check of the rules of a policy before the runtime is asked.  Both begin with
`targetedRuleError`, for the sake of its messages, and go on to the schemas.

* `targetedRuleError_eq_none`: where there is a schema, what it accepts has no targeted error;
* `admission_agrees`: both paths admit the same rules, and where there is a schema it alone decides.
-/

namespace MacpControlPlane.PolicyAdmission

open Js JsonSchema PolicyRules PolicyRulesValidator

variable {N : Type} [SchemaNumber N]

/-- An `HttpException`; that of a `BadRequestException` has no code. -/
structure HttpException where
  errorCode : Option String
  message : String
  status : Nat
  deriving DecidableEq

def badRequest (message : String) : HttpException := ⟨none, message, 400⟩

/-! ### Rules -/

/-- `x && typeof x === 'object'` -/
def truthyObject : Option (Json N) → Bool
  | some (.obj _) | some (.arr _) => true
  | _ => false

/-- `typeof x !== 'number' || x <= 0.5`; no number of a body is `NaN`. -/
def noMajority : Option (Json N) → Bool
  | some (.num n) => !SchemaNumber.above n (1 / 2)
  | _ => true

def targetedRuleError (rules : JsonObject N) : Option String :=
  let voting := JsonObject.prop rules "voting"
  let commitment := JsonObject.prop rules "commitment"
  let roles := asArray (coalesce (field commitment "designated_roles") (field commitment "designatedRoles"))
  if asString (field voting "algorithm") = some "weighted" ∧ truthyObject (field voting "weights") = false then
    some "weighted voting algorithm requires a weights map"
  else if asString (field voting "algorithm") = some "supermajority" ∧ noMajority (field voting "threshold") = true then
    some "supermajority voting requires threshold > 0.5"
  else if asString (field commitment "authority") = some "designated_role" ∧ roles.getD [] = [] then
    some "designated_role authority requires non-empty designated_roles list"
  else none

section Paths

variable (messageOf : ErrorObject → String)

def invalidRules (mode : String) (errors : List String) : String :=
  "INVALID_POLICY_DEFINITION: invalid policy rules for mode \"" ++ mode ++ "\": " ++ "; ".intercalate errors

/-- What `registerPolicy` checks of the rules. -/
def assertPolicyRules (mode : String) (rules : JsonObject N) (ruleExtensions : Option (List String)) :
    Except HttpException Unit :=
  match targetedRuleError rules with
  | some targetedError => .error (badRequest targetedError)
  | none =>
    match validateRules messageOf mode (.obj rules) ruleExtensions with
    | [] => .ok ()
    | ruleErrors => .error (badRequest (invalidRules mode ruleErrors))

/-- `assertCandidateRules` -/
def assertCandidateRules (mode : String) (rules : JsonObject N) (ruleExtensions : Option (List String)) :
    Except HttpException Unit :=
  let errors :=
    match targetedRuleError rules with
    | some targeted => [targeted]
    | none => validateRules messageOf mode (.obj rules) ruleExtensions
  if errors = [] then .ok () else .error ⟨some "INVALID_POLICY_DEFINITION", invalidRules mode errors, 400⟩

/-- The body of `POST /runtime/policies`. -/
structure PolicyBody (N : Type) where
  policyId : Option String
  mode : String
  description : String
  rules : Option (Json N)
  schemaVersion : Option Rat

/-- The descriptor that is sent to the runtime; its rules go as the JSON text of the value. -/
structure RuntimePolicyDescriptor (N : Type) where
  policyId : String
  mode : String
  description : String
  rules : JsonObject N
  schemaVersion : Rat

def policySchemaVersions : List Rat := [1, 2, 3]

def defaultPolicySchemaVersion : Rat := 3

/-- The checks of `registerPolicy` before the registry is looked at. -/
def admitPolicy (body : PolicyBody N) (ruleExtensions : Option (List String)) :
    Except HttpException (RuntimePolicyDescriptor N) :=
  let policyId := body.policyId.getD ""
  if trim policyId = "" then .error (badRequest "policyId is required")
  else if policyId = "policy.default" then
    .error (badRequest "policy.default is reserved and cannot be registered")
  else
    let schemaVersion := body.schemaVersion.getD defaultPolicySchemaVersion
    if schemaVersion ∉ policySchemaVersions then .error (badRequest "schemaVersion must be one of 1, 2, 3")
    else
      match body.rules with
      | some (.obj rules) =>
        (assertPolicyRules messageOf body.mode rules ruleExtensions).map fun _ =>
          { policyId, mode := body.mode, description := body.description, rules, schemaVersion }
      | _ => .error (badRequest "rules must be a JSON object")

end Paths

/-! ### Accepted rules -/

variable {messageOf : ErrorObject → String} {ruleExtensions : Option (List String)} {mode : String}
  {rules : JsonObject N}

/-- The mode is `"*"` or has a schema. -/
def HasSchema (mode : String) : Prop := mode = wildcardMode ∨ mode ∈ modeSchemas.map Prod.fst

instance (mode : String) : Decidable (HasSchema mode) := inferInstanceAs (Decidable (_ ∨ _))

private theorem decision_mem : ("macp.mode.decision.v1", decisionRules) ∈ modeSchemas := List.mem_cons_self

/-- What a mode accepts at a key of the decision rules meets their schema, up to unknown keys. -/
theorem acceptsAt_decision (hmode : HasSchema mode)
    (h : validateRules messageOf mode (.obj rules) ruleExtensions = []) {key : String} {x : Json N}
    (hx : JsonObject.prop rules key = some x) (hkey : key ∈ decisionRules.properties.map Prod.fst) :
    decisionRules.AcceptsAt key x := by
  obtain ⟨hannotated, hvendor⟩ := plain_of_mem_names decision_mem hkey
  rcases hmode with rfl | hmode
  · obtain ⟨-, hkeys⟩ := validateRules_wildcard_eq_nil.1 h
    exact (hkeys key x hx hannotated).2 hvendor _ decision_mem hkey
  · obtain ⟨known, hknown, rfl⟩ := List.mem_map.1 hmode
    have haccepts := ((validateRules_eq_nil hknown).1 h).1
    -- a mode that does not declare the key refuses it
    have hnamed := mem_names_of_declares hknown ((RulesSchema.accepts_iff hknown).1 haccepts).2 hx hannotated hvendor
    exact acceptsAt_of_accepts hknown decision_mem haccepts hx hnamed

private theorem accepts_has {x : Json N} {key value : String} :
    Accepts false (has key value) x ↔
      (Assertion.required key).holds x = true ∧
        ∀ y, x.prop key = some y → (Assertion.const value).holds y = true := by
  simp [has, accepts_node, AcceptsAdditional]

omit [SchemaNumber N] in
private theorem asString_eq_some {x : Option (Json N)} {s : String} : asString x = some s ↔ x = some (.str s) := by
  match x with
  | none | some .null | some (.bool _) | some (.num _) | some (.arr _) | some (.obj _) => simp [asString]
  | some (.str _) => simp [asString]

/-- The value at the key meets the condition of an arm. -/
theorem accepts_has_of_eq {x : Json N} {key value : String} (h : asString (x.prop key) = some value) :
    Accepts false (has key value) x := by
  have hprop := asString_eq_some.1 h
  refine accepts_has.2 ⟨?_, fun y hy => ?_⟩
  · match x with
    | .obj fields => exact Option.isSome_iff_exists.2 ⟨_, hprop⟩
    | .null | .bool _ | .num _ | .str _ | .arr _ => rfl
  · rw [hprop] at hy
    cases hy
    simp [Assertion.holds]

/-- An arm whose condition holds requires an entry, which meets the schema of the property and the bounds of the arm. -/
theorem exists_required {x : Json N} {key tag value entry : String} {properties bounds : List (String × Schema)}
    {s : Schema} (h : decisionRules.AcceptsAt key x)
    (hproperty : (key, closedObject false properties []) ∈ decisionRules.properties) (hentry : (entry, s) ∈ properties)
    (harm : (key, has tag value, Schema.node { assertions := [.required entry], properties := bounds }) ∈
      decisionRules.arms)
    (htag : asString (x.prop tag) = some value) :
    ∃ y, x.prop entry = some y ∧ Accepts true s y ∧ ∀ p ∈ bounds, p.1 = entry → Accepts false p.2 y := by
  obtain ⟨hobject, hproperties, -⟩ := accepts_closedObject.1 (h.1 _ hproperty rfl)
  obtain ⟨hrequired, hbounds, -⟩ := accepts_node.1 (h.2 _ harm rfl (accepts_has_of_eq htag))
  have hholds : (Assertion.required entry).holds x = true := hrequired _ List.mem_cons_self
  obtain ⟨y, hy⟩ : ∃ y, x.prop entry = some y := by
    match x with
    | .obj fields => exact Option.isSome_iff_exists.1 hholds
    | .null | .bool _ | .num _ | .str _ | .arr _ => cases hobject
  exact ⟨y, hy, hproperties _ hentry y hy, fun p hp heq => hbounds p hp y (heq ▸ hy)⟩

private theorem truthyObject_weights {x : Json N} (h : decisionRules.AcceptsAt "voting" x)
    (halgorithm : asString (x.prop "algorithm") = some "weighted") : truthyObject (x.prop "weights") = true := by
  obtain ⟨weights, hweights, haccepts, -⟩ := exists_required h (.head _) (.tail _ (.tail _ (.tail _ (.head _))))
    (.head _) halgorithm
  have htype : hasType .object weights = true := (accepts_node.1 haccepts).1 (.type .object) List.mem_cons_self
  rw [hweights]
  match weights with
  | .obj _ => rfl
  | .null | .bool _ | .num _ | .str _ | .arr _ => cases htype

private theorem noMajority_threshold {x : Json N} (h : decisionRules.AcceptsAt "voting" x)
    (halgorithm : asString (x.prop "algorithm") = some "supermajority") : noMajority (x.prop "threshold") = false := by
  obtain ⟨threshold, hthreshold, haccepts, hbounds⟩ := exists_required h (.head _) (.tail _ (.head _))
    (.tail _ (.head _)) halgorithm
  have htype : hasType .number threshold = true := (accepts_node.1 haccepts).1 (.type .number) List.mem_cons_self
  have habove : (Assertion.exclusiveMinimum (1 / 2)).holds threshold = true :=
    (accepts_node.1 (hbounds _ List.mem_cons_self rfl)).1 _ List.mem_cons_self
  rw [hthreshold]
  match threshold with
  | .num n =>
    change SchemaNumber.above n (1 / 2) = true at habove
    rw [noMajority, habove, Bool.not_true]
  | .null | .bool _ | .obj _ | .str _ | .arr _ => cases htype

private theorem roles_commitment {x : Json N} (h : decisionRules.AcceptsAt "commitment" x)
    (hauthority : asString (x.prop "authority") = some "designated_role") :
    (asArray (coalesce (x.prop "designated_roles") (x.prop "designatedRoles"))).getD [] ≠ [] := by
  obtain ⟨roles, hroles, haccepts, hbounds⟩ := exists_required h (.tail _ (.tail _ (.tail _ (.head _))))
    (.tail _ (.head _)) (.tail _ (.tail _ (.tail _ (.head _)))) hauthority
  have htype : hasType .array roles = true := (accepts_node.1 haccepts).1 (.type .array) List.mem_cons_self
  have hitems : (Assertion.minItems 1).holds roles = true :=
    (accepts_node.1 (hbounds _ List.mem_cons_self rfl)).1 _ List.mem_cons_self
  rw [hroles]
  match roles with
  | .arr items =>
    have hlength : 1 ≤ items.length := of_decide_eq_true hitems
    exact List.ne_nil_of_length_pos hlength
  | .null | .bool _ | .obj _ | .str _ | .num _ => cases htype

/-- Where there is a schema, what it accepts has no targeted error. -/
theorem targetedRuleError_eq_none (hmode : HasSchema mode)
    (h : validateRules messageOf mode (.obj rules) ruleExtensions = []) : targetedRuleError rules = none := by
  have hvoting {x : Json N} (hx : JsonObject.prop rules "voting" = some x) : decisionRules.AcceptsAt "voting" x :=
    acceptsAt_decision hmode h hx (by decide)
  have hcommitment {x : Json N} (hx : JsonObject.prop rules "commitment" = some x) :
      decisionRules.AcceptsAt "commitment" x :=
    acceptsAt_decision hmode h hx (by decide)
  rw [targetedRuleError]
  split_ifs with hweighted hsuper hroles
  · obtain ⟨halgorithm, hweights⟩ := hweighted
    cases hx : JsonObject.prop rules "voting" with
    | none =>
      rw [hx] at halgorithm
      cases halgorithm
    | some x =>
      rw [hx] at halgorithm hweights
      exact absurd (truthyObject_weights (hvoting hx) halgorithm) (Bool.eq_false_iff.1 hweights)
  · obtain ⟨halgorithm, hthreshold⟩ := hsuper
    cases hx : JsonObject.prop rules "voting" with
    | none =>
      rw [hx] at halgorithm
      cases halgorithm
    | some x =>
      rw [hx] at halgorithm hthreshold
      exact absurd hthreshold (Bool.eq_false_iff.1 (noMajority_threshold (hvoting hx) halgorithm))
  · obtain ⟨hauthority, hempty⟩ := hroles
    cases hx : JsonObject.prop rules "commitment" with
    | none =>
      rw [hx] at hauthority
      cases hauthority
    | some x =>
      rw [hx] at hauthority hempty
      exact absurd hempty (roles_commitment (hcommitment hx) hauthority)
  · rfl

/-! ### The two paths -/

private theorem assertPolicyRules_eq_ok :
    assertPolicyRules messageOf mode rules ruleExtensions = .ok () ↔
      targetedRuleError rules = none ∧ validateRules messageOf mode (.obj rules) ruleExtensions = [] := by
  unfold assertPolicyRules
  cases targetedRuleError rules with
  | some targeted => simp
  | none => cases validateRules messageOf mode (.obj rules) ruleExtensions <;> simp

private theorem assertCandidateRules_eq_ok :
    assertCandidateRules messageOf mode rules ruleExtensions = .ok () ↔
      targetedRuleError rules = none ∧ validateRules messageOf mode (.obj rules) ruleExtensions = [] := by
  unfold assertCandidateRules
  cases targetedRuleError rules with
  | some targeted => simp
  | none => cases validateRules messageOf mode (.obj rules) ruleExtensions <;> simp

private theorem validateRules_of_not_hasSchema (hmode : ¬ HasSchema mode) (v : Json N) :
    validateRules messageOf mode v ruleExtensions = [] := by
  obtain ⟨hwildcard, hknown⟩ := not_or.1 hmode
  have hnone : (modeSchemas.find? fun known => known.1 = mode) = none := by
    refine List.find?_eq_none.2 fun known hmem heq => hknown ?_
    exact List.mem_map.2 ⟨known, hmem, of_decide_eq_true heq⟩
  rw [validateRules, if_neg hwildcard, hnone]

/-- The rules that may be replayed are those that may be registered.  Where the mode has a schema, or is `"*"`, the
schema alone decides which these are, and elsewhere the targeted checks. -/
theorem admission_agrees (messageOf : ErrorObject → String) (mode : String) (rules : JsonObject N)
    (ruleExtensions : Option (List String)) :
    (assertCandidateRules messageOf mode rules ruleExtensions = .ok () ↔
      assertPolicyRules messageOf mode rules ruleExtensions = .ok ()) ∧
    (assertPolicyRules messageOf mode rules ruleExtensions = .ok () ↔
      if HasSchema mode then validateRules messageOf mode (.obj rules) ruleExtensions = []
      else targetedRuleError rules = none) := by
  rw [assertCandidateRules_eq_ok, assertPolicyRules_eq_ok]
  refine ⟨Iff.rfl, ?_⟩
  by_cases hmode : HasSchema mode
  · rw [if_pos hmode]
    exact ⟨And.right, fun h => ⟨targetedRuleError_eq_none hmode h, h⟩⟩
  · rw [if_neg hmode]
    exact ⟨And.left, fun h => ⟨h, validateRules_of_not_hasSchema hmode _⟩⟩

end MacpControlPlane.PolicyAdmission

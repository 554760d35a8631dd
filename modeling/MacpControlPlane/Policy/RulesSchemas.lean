import MacpControlPlane.Lib.JsonSchema

/-!
# The schemas of governance rules

`src/policy/schemas/*.schema.json`, without titles, descriptions and defaults.  In all five an object that is closed
admits annotation keys besides its own, and at the top vendor extensions; each arm of a top-level `allOf` is about one
key.

`Declares` is what closing is about: every key at every closed level is declared there.  A value is valid exactly if
it is valid up to unknown keys and declared (`RulesSchema.accepts_iff`).
-/

namespace MacpControlPlane.PolicyRules

open Js JsonSchema

variable {N : Type}

/-! ### Keys -/

/-- `ANNOTATION_KEY = /^[_$]/` -/
def annotationKey (key : String) : Bool :=
  match key.toList with
  | c :: _ => c = '_' || c = '$'
  | [] => false

def lowerOrDigit (c : Char) : Bool := ('a' ≤ c && c ≤ 'z') || ('0' ≤ c && c ≤ '9')

/-- `VENDOR_EXTENSION_KEY = /^x-[a-z0-9]+(\.[a-z0-9-]+)+$/` -/
def vendorExtensionKey (key : String) : Bool :=
  match key.toList with
  | 'x' :: '-' :: name =>
    match name.splitOn '.' with
    | label :: next :: labels =>
      !label.isEmpty && label.all lowerOrDigit &&
      (next :: labels).all fun l => !l.isEmpty && l.all fun c => lowerOrDigit c || c = '-'
    | _ => false
  | _ => false

theorem annotationKey_of_vendorExtensionKey {key : String} (h : vendorExtensionKey key = true) :
    annotationKey key = false := by
  simp only [vendorExtensionKey] at h
  split at h
  · rename_i heq
    simp [annotationKey, heq]
  · cases h

/-! ### Parts of the schemas -/

def anyObject : Schema := .node { assertions := [.type .object] }

def boolean : Schema := .node { assertions := [.type .boolean] }

def oneOf (values : List String) : Schema := .node { assertions := [.type .string, .enum values] }

/-- The `patternProperties` of a closed object. -/
def keyPatterns (top : Bool) : List ((String → Bool) × Schema) :=
  if top then [(annotationKey, .bool true), (vendorExtensionKey, anyObject)] else [(annotationKey, .bool true)]

def closedObject (top : Bool) (properties : List (String × Schema)) (allOf : List Schema) : Schema :=
  .node
    { assertions := [.type .object], properties, patternProperties := keyPatterns top,
      additionalProperties := some (.bool false), allOf }

/-- The entry at `key` is there and is `value`. -/
def has (key value : String) : Schema :=
  .node { assertions := [.required key], properties := [(key, .node { assertions := [.const value] })] }

/-- `if` there is an entry at the key that meets the condition, `then` the body holds of it. -/
def gated (arm : String × Schema × Schema) : Schema :=
  .node
    { ifThen := some
        (.node { assertions := [.required arm.1], properties := [(arm.1, arm.2.1)] },
          .node { properties := [(arm.1, arm.2.2)] }) }

/-- The schema of the rules of a mode: its `properties`, and the arms of its `allOf`. -/
structure RulesSchema where
  properties : List (String × Schema)
  arms : List (String × Schema × Schema)

def RulesSchema.schema (rules : RulesSchema) : Schema :=
  closedObject true rules.properties (rules.arms.map gated)

/-! ### The schemas -/

def authority : Schema := oneOf ["initiator_only", "any_participant", "designated_role"]

def designatedRoles : Schema :=
  .node { assertions := [.type .array], items := some (.node { assertions := [.type .string] }) }

/-- The `commitment` of every mode but decision. -/
def commitment : Schema :=
  closedObject false [("authority", authority), ("designated_roles", designatedRoles)] []

def decisionCommitment : Schema :=
  closedObject false
    [("authority", authority), ("designated_roles", designatedRoles), ("require_vote_quorum", boolean),
      ("allow_decline_over_approval", boolean)] []

/-- Designated roles are named where they have the authority. -/
def designatedRoleArm : String × Schema × Schema :=
  ("commitment", has "authority" "designated_role",
    .node
      { assertions := [.required "designated_roles"],
        properties := [("designated_roles", .node { assertions := [.minItems 1] })] })

def voting : Schema :=
  closedObject false
    [("algorithm", oneOf ["none", "majority", "supermajority", "unanimous", "weighted", "plurality"]),
      ("threshold", .node { assertions := [.type .number, .exclusiveMinimum 0, .maximum 1] }),
      ("quorum", closedObject false
        [("type", oneOf ["count", "percentage"]),
          ("value", .node { assertions := [.type .number, .minimum 0] })] []),
      ("weights", .node
        { assertions := [.type .object, .minProperties 1],
          additionalProperties := some (.node { assertions := [.type .number, .exclusiveMinimum 0] }) })] []

def weightedArm : String × Schema × Schema :=
  ("voting", has "algorithm" "weighted", .node { assertions := [.required "weights"] })

def supermajorityArm : String × Schema × Schema :=
  ("voting", has "algorithm" "supermajority",
    .node
      { assertions := [.required "threshold"],
        properties := [("threshold", .node { assertions := [.exclusiveMinimum (1 / 2)] })] })

def majorityArm : String × Schema × Schema :=
  ("voting", has "algorithm" "majority",
    .node { properties := [("threshold", .node { assertions := [.minimum (1 / 2)] })] })

def objectionHandling : Schema :=
  closedObject false
    [("critical_severity_vetoes", boolean),
      ("veto_threshold", .node { assertions := [.type .integer, .minimum 1] }),
      ("critical_objection_action", oneOf ["deny", "finalize_decline", "hold"])] []

def evaluation : Schema :=
  closedObject false
    [("minimum_confidence", .node { assertions := [.type .number, .minimum 0, .maximum 1] }),
      ("required_before_voting", boolean)] []

/-- `decision-rules.schema.json` -/
def decisionRules : RulesSchema where
  properties :=
    [("voting", voting), ("objection_handling", objectionHandling), ("evaluation", evaluation),
      ("commitment", decisionCommitment)]
  arms := [weightedArm, supermajorityArm, majorityArm, designatedRoleArm]

/-- The bar of a quorum: a percentage is at most 100. -/
def approvalThreshold : Schema :=
  closedObject false
    [("type", oneOf ["n_of_m", "percentage"]),
      ("value", .node { assertions := [.type .integer, .exclusiveMinimum 0] })]
    [.node
      { ifThen := some
          (has "type" "percentage",
            .node { properties := [("value", .node { assertions := [.maximum 100] })] }) }]

def abstention : Schema :=
  closedObject false
    [("counts_toward_quorum", boolean), ("interpretation", oneOf ["neutral", "implicit_reject", "ignored"])] []

/-- `quorum-rules.schema.json` -/
def quorumRules : RulesSchema where
  properties := [("threshold", approvalThreshold), ("abstention", abstention), ("commitment", commitment)]
  arms := [designatedRoleArm]

/-- The `acceptance` of a proposal. -/
def proposalAcceptance : Schema :=
  closedObject false [("criterion", oneOf ["all_parties", "counterparty", "initiator"])] []

/-- `proposal-rules.schema.json` -/
def proposalRules : RulesSchema where
  properties :=
    [("acceptance", proposalAcceptance),
      ("counter_proposal", closedObject false
        [("max_rounds", .node { assertions := [.type .integer, .minimum 0] })] []),
      ("rejection", closedObject false [("terminal_on_any_reject", boolean)] []),
      ("commitment", commitment)]
  arms := [designatedRoleArm]

/-- `task-rules.schema.json` -/
def taskRules : RulesSchema where
  properties :=
    [("assignment", closedObject false [("allow_reassignment_on_reject", boolean)] []),
      ("completion", closedObject false [("require_output", boolean)] []),
      ("commitment", commitment)]
  arms := [designatedRoleArm]

/-- The `acceptance` of a handoff. -/
def handoffAcceptance : Schema :=
  closedObject false [("implicit_accept_timeout_ms", .node { assertions := [.type .integer, .minimum 0] })] []

/-- `handoff-rules.schema.json` -/
def handoffRules : RulesSchema where
  properties := [("acceptance", handoffAcceptance), ("commitment", commitment)]
  arms := [designatedRoleArm]

/-- `MODE_SCHEMAS` -/
def modeSchemas : List (String × RulesSchema) :=
  [("macp.mode.decision.v1", decisionRules), ("macp.mode.quorum.v1", quorumRules),
    ("macp.mode.proposal.v1", proposalRules), ("macp.mode.task.v1", taskRules), ("macp.mode.handoff.v1", handoffRules)]

/-! ### Declared keys -/

mutual

/-- Every key at every closed level is declared at that level by the schema, but for annotation keys and, at the top,
vendor extensions. -/
def Declares : Schema → Bool → Json N → Prop
  | .bool _, _, _ => True
  | .node ⟨_, properties, _, additionalProperties, _, _, _⟩, top, v =>
    additionalProperties.any Schema.isFalse = true →
      ∀ field ∈ fieldsOf v, annotationKey field.1 = true ∨ (top && vendorExtensionKey field.1) = true ∨
        DeclaredIn properties field.1 field.2

/-- The key is declared, and so are all those below it. -/
def DeclaredIn : List (String × Schema) → String → Json N → Prop
  | [], _, _ => False
  | (k, s) :: properties, key, v => if k = key then Declares s false v else DeclaredIn properties key v

end

theorem declaredIn_iff_lookup {properties : List (String × Schema)} {key : String} {v : Json N} :
    DeclaredIn properties key v ↔ ∃ s, properties.lookup key = some s ∧ Declares s false v := by
  induction properties with
  | nil => simp [DeclaredIn]
  | cons p properties ih =>
    obtain ⟨k, s⟩ := p
    by_cases heq : k = key
    · simp [DeclaredIn, heq]
    · have hne : (key == k) = false := by simpa using Ne.symm heq
      simp [DeclaredIn, List.lookup_cons, heq, hne, ih]

private theorem declaredIn_iff {properties : List (String × Schema)} (hnodup : (properties.map Prod.fst).Nodup)
    {key : String} {v : Json N} : DeclaredIn properties key v ↔ ∃ p ∈ properties, p.1 = key ∧ Declares p.2 false v := by
  rw [declaredIn_iff_lookup]
  constructor
  · rintro ⟨s, hs, hdeclares⟩
    exact ⟨(key, s), mem_of_lookup hs, rfl, hdeclares⟩
  · rintro ⟨p, hp, rfl, hdeclares⟩
    obtain ⟨s, hs⟩ := exists_lookup_of_mem hp
    have heq : (p.1, s) = p := List.inj_on_of_nodup_map hnodup (mem_of_lookup hs) hp rfl
    rw [← heq] at hdeclares
    exact ⟨s, hs, hdeclares⟩

private theorem declares_closedObject {b top : Bool} {properties : List (String × Schema)} {allOf : List Schema}
    {v : Json N} (hnodup : (properties.map Prod.fst).Nodup) :
    Declares (closedObject b properties allOf) top v ↔
      ∀ key x, v.prop key = some x → annotationKey key = true ∨ (top && vendorExtensionKey key) = true ∨
        ∃ p ∈ properties, p.1 = key ∧ Declares p.2 false x := by
  simp [closedObject, Declares, Schema.isFalse, mem_fieldsOf, declaredIn_iff hnodup]

/-- Below a level that is not closed nothing is. -/
theorem declares_of_isOpen {s : Schema} (hopen : s.isOpen = true) {top : Bool} {v : Json N} : Declares s top v := by
  match s with
  | .bool _ => trivial
  | .node ⟨_, _, _, additionalProperties, _, _, _⟩ =>
    intro hclosed
    rw [Schema.isOpen.eq_def] at hopen
    cases additionalProperties with
    | none => simp at hclosed
    | some s => simp_all

/-! ### Acceptance of closed objects -/

section Acceptance

variable [SchemaNumber N] {openKeys top : Bool} {properties : List (String × Schema)} {allOf : List Schema} {v : Json N}

/-- No key of an object is also an annotation or a vendor extension, and none is declared twice. -/
def wellNamed (properties : List (String × Schema)) : Bool :=
  (properties.map Prod.fst).Nodup && properties.all fun p => !annotationKey p.1 && !vendorExtensionKey p.1

private theorem accepts_anyObject : Accepts openKeys anyObject v ↔ hasType .object v = true := by
  simp [anyObject, accepts_node, AcceptsAdditional, Assertion.holds]

omit [SchemaNumber N] in
private theorem forall_keyPatterns {key : String} :
    (∀ p ∈ keyPatterns top, p.1 key = false) ↔
      annotationKey key = false ∧ (top && vendorExtensionKey key) = false := by
  cases top <;> simp [keyPatterns]

theorem accepts_closedObject :
    Accepts openKeys (closedObject top properties allOf) v ↔
      hasType .object v = true ∧
      (∀ p ∈ properties, ∀ x, v.prop p.1 = some x → Accepts openKeys p.2 x) ∧
      (∀ key x, v.prop key = some x → (top && vendorExtensionKey key) = true → hasType .object x = true) ∧
      (openKeys = true ∨ ∀ key x, v.prop key = some x →
        annotationKey key = true ∨ (top && vendorExtensionKey key) = true ∨ ∃ p ∈ properties, p.1 = key) ∧
      ∀ s ∈ allOf, Accepts openKeys s v := by
  have hpatterns : (∀ p ∈ keyPatterns top, ∀ key x, v.prop key = some x → p.1 key = true → Accepts openKeys p.2 x) ↔
      ∀ key x, v.prop key = some x → (top && vendorExtensionKey key) = true → hasType .object x = true := by
    have htrue (x : Json N) : Accepts openKeys (.bool true) x := by simp [Accepts, errors]
    cases top <;> simp [keyPatterns, htrue, accepts_anyObject]
  have hadditional : AcceptsAdditional openKeys (some (.bool false)) (additional properties (keyPatterns top) v) ↔
      openKeys = true ∨ ∀ key x, v.prop key = some x →
        annotationKey key = true ∨ (top && vendorExtensionKey key) = true ∨ ∃ p ∈ properties, p.1 = key := by
    refine or_congr_right ?_
    rw [List.eq_nil_iff_forall_not_mem, Prod.forall]
    refine forall_congr' fun key => forall_congr' fun x => ?_
    rw [mem_additional, forall_keyPatterns, not_and]
    refine imp_congr_right fun _ => ?_
    have hundeclared : (∀ p ∈ properties, p.1 ≠ key) ↔ ¬∃ p ∈ properties, p.1 = key :=
      ⟨fun h ⟨p, hp, heq⟩ => h p hp heq, fun h p hp heq => h ⟨p, hp, heq⟩⟩
    rw [hundeclared, ← Bool.not_eq_true, ← Bool.not_eq_true, ← not_or, ← not_or, not_not, or_comm, or_assoc]
  rw [closedObject, accepts_node]
  simp only [hpatterns, hadditional, List.forall_mem_singleton, Assertion.holds, Option.not_mem_none, false_imp_iff,
    implies_true, and_true, true_and]

/-- A condition on one entry, and on whether it is there. -/
theorem accepts_entry {assertions : List Assertion} {key : String} {s : Schema} :
    Accepts openKeys (.node { assertions, properties := [(key, s)] }) v ↔
      (∀ a ∈ assertions, a.holds v = true) ∧ ∀ x, v.prop key = some x → Accepts openKeys s x := by
  simp [accepts_node, AcceptsAdditional]

private theorem accepts_gated {arm : String × Schema × Schema} :
    Accepts openKeys (gated arm) v ↔
      ∀ x, v.prop arm.1 = some x → Accepts false arm.2.1 x → Accepts false arm.2.2 x := by
  have hnode : Accepts openKeys (gated arm) v ↔
      (((Assertion.required arm.1).holds v = true ∧ ∀ x, v.prop arm.1 = some x → Accepts false arm.2.1 x) →
        ∀ x, v.prop arm.1 = some x → Accepts false arm.2.2 x) := by
    rw [gated, accepts_node]
    simp [AcceptsAdditional, accepts_entry]
  rw [hnode]
  constructor
  · intro h x hx hcondition
    -- the key is there, so that the condition on it is all that is left of `if`
    refine h ⟨?_, fun y hy => ?_⟩ x hx
    · cases v with
      | obj fields => simpa [Assertion.holds, Json.prop] using congrArg Option.isSome hx
      | _ => simp [Assertion.holds]
    · rw [hx] at hy
      cases hy
      exact hcondition
  · intro h hcondition x hx
    exact h x hx (hcondition.2 x hx)

/-- Unknown keys are all that a check with open keys does not see, and undeclared keys all that are unknown. -/
def Regular (N : Type) [SchemaNumber N] (s : Schema) (top : Bool) : Prop :=
  ∀ v : Json N, Accepts false s v ↔ Accepts true s v ∧ Declares s top v

private theorem regular_of_isOpen {s : Schema} (hopen : s.isOpen = true) : Regular N s top := fun _ =>
  ⟨fun h => ⟨Allowed.weaken h, declares_of_isOpen hopen⟩, fun h => Accepts.of_isOpen s hopen h.1⟩

private theorem regular_closedObject (hnames : wellNamed properties = true)
    (hproperties : ∀ p ∈ properties, Regular N p.2 false)
    (hallOf : ∀ s ∈ allOf, s.isOpen = true) : Regular N (closedObject top properties allOf) top := by
  intro v
  simp only [wellNamed, Bool.and_eq_true, decide_eq_true_eq, List.all_eq_true, Bool.not_eq_true'] at hnames
  obtain ⟨hnodup, hplain⟩ := hnames
  constructor
  · intro h
    refine ⟨Allowed.weaken h, (declares_closedObject hnodup).2 fun key x hx => ?_⟩
    obtain ⟨-, hp, -, hclosed, -⟩ := accepts_closedObject.1 h
    obtain hkey | hkey | ⟨p, hmem, rfl⟩ := hclosed.resolve_left (by simp) key x hx
    · exact .inl hkey
    · exact .inr (.inl hkey)
    · exact .inr (.inr ⟨p, hmem, rfl, ((hproperties p hmem x).1 (hp p hmem x hx)).2⟩)
  · rintro ⟨h, hdeclares⟩
    obtain ⟨hobject, hp, hvendor, -, hall⟩ := accepts_closedObject.1 h
    rw [declares_closedObject hnodup] at hdeclares
    refine accepts_closedObject.2 ⟨hobject, fun p hmem x hx => ?_, hvendor, .inr fun key x hx => ?_,
      fun s hs => Accepts.of_isOpen s (hallOf s hs) (hall s hs)⟩
    · -- a declared key is neither of the exempted kinds, so what is declared of it is its own schema
      obtain hkey | hkey | ⟨q, hq, heq, hdeclared⟩ := hdeclares p.1 x hx
      · rw [(hplain p hmem).1] at hkey
        cases hkey
      · rw [(hplain p hmem).2, Bool.and_false] at hkey
        cases hkey
      · rw [List.inj_on_of_nodup_map hnodup hq hmem heq] at hdeclared
        exact (hproperties p hmem x).2 ⟨hp p hmem x hx, hdeclared⟩
    · obtain hkey | hkey | ⟨q, hq, heq, -⟩ := hdeclares key x hx
      · exact .inl hkey
      · exact .inr (.inl hkey)
      · exact .inr (.inr ⟨q, hq, heq⟩)

/-- A closed object of open entries. -/
theorem regular_record (hnames : wellNamed properties = true)
    (hproperties : (properties.all fun p => p.2.isOpen) = true) (hallOf : allOf.all Schema.isOpen = true) :
    Regular N (closedObject false properties allOf) false :=
  regular_closedObject hnames (fun p hp => regular_of_isOpen (List.all_eq_true.1 hproperties p hp))
    (List.all_eq_true.1 hallOf)

/-! ### Acceptance of rules -/

/-- What a schema of rules asks of the value at a key, up to unknown keys. -/
def RulesSchema.AcceptsAt (rules : RulesSchema) (key : String) (x : Json N) : Prop :=
  (∀ p ∈ rules.properties, p.1 = key → Accepts true p.2 x) ∧
  ∀ arm ∈ rules.arms, arm.1 = key → Accepts false arm.2.1 x → Accepts false arm.2.2 x

/-- Up to unknown keys a schema of rules asks nothing of two keys at once. -/
theorem RulesSchema.accepts_true_iff {rules : RulesSchema} :
    Accepts true rules.schema v ↔
      hasType .object v = true ∧
      (∀ key x, v.prop key = some x → vendorExtensionKey key = true → hasType .object x = true) ∧
      ∀ key x, v.prop key = some x → rules.AcceptsAt key x := by
  rw [RulesSchema.schema, accepts_closedObject]
  simp only [Bool.true_and, true_or, true_and, List.forall_mem_map, accepts_gated]
  constructor
  · rintro ⟨hobject, hproperties, hvendor, harms⟩
    refine ⟨hobject, hvendor, fun key x hx => ⟨?_, ?_⟩⟩
    · rintro p hp rfl
      exact hproperties p hp x hx
    · rintro arm harm rfl
      exact harms arm harm x hx
  · rintro ⟨hobject, hvendor, hat⟩
    exact ⟨hobject, fun p hp x hx => (hat p.1 x hx).1 p hp rfl, hvendor,
      fun arm harm x hx => (hat arm.1 x hx).2 arm harm rfl⟩

/-- An object with a single key is asked what any object is asked at that key. -/
theorem RulesSchema.accepts_sparse {rules : RulesSchema} {key : String} {x : Json N}
    (hkey : vendorExtensionKey key = false) :
    Accepts true rules.schema (.obj [(key, x)]) ↔ rules.AcceptsAt key x := by
  have hprop (l : String) (y : Json N) : (Json.obj [(key, x)]).prop l = some y ↔ l = key ∧ x = y := by
    by_cases heq : l = key
    · simp [Json.prop, JsonObject.prop, heq]
    · have hne : (l == key) = false := by simpa using heq
      simp [Json.prop, JsonObject.prop, List.lookup_cons, hne, heq]
  rw [RulesSchema.accepts_true_iff]
  constructor
  · rintro ⟨-, -, hat⟩
    exact hat key x ((hprop key x).2 ⟨rfl, rfl⟩)
  · intro hat
    refine ⟨rfl, fun l y hy hl => ?_, fun l y hy => ?_⟩
    · rw [((hprop l y).1 hy).1, hkey] at hl
      cases hl
    · obtain ⟨rfl, rfl⟩ := (hprop l y).1 hy
      exact hat

/-! ### The five modes -/

private theorem regular_voting : Regular N voting false :=
  regular_closedObject rfl
    (by
      simp only [List.forall_mem_cons, List.not_mem_nil, false_imp_iff, implies_true, and_true]
      exact ⟨regular_of_isOpen rfl, regular_of_isOpen rfl, regular_record rfl rfl rfl, regular_of_isOpen rfl⟩)
    (by simp)

private theorem regular_properties : ∀ mode ∈ modeSchemas, ∀ p ∈ mode.2.properties, Regular N p.2 false := by
  simp only [modeSchemas, decisionRules, quorumRules, proposalRules, taskRules, handoffRules, List.forall_mem_cons,
    List.not_mem_nil, false_imp_iff, implies_true, and_true]
  refine ⟨⟨regular_voting, ?_, ?_, ?_⟩, ⟨?_, ?_, ?_⟩, ⟨?_, ?_, ?_, ?_⟩, ⟨?_, ?_, ?_⟩, ?_, ?_⟩ <;>
    exact regular_record rfl rfl rfl

private theorem wellNamed_modeSchemas : ∀ mode ∈ modeSchemas, wellNamed mode.2.properties = true := by
  decide

theorem plain_of_mem_names {mode : String × RulesSchema} (hmode : mode ∈ modeSchemas) {key : String}
    (hkey : key ∈ mode.2.properties.map Prod.fst) : annotationKey key = false ∧ vendorExtensionKey key = false := by
  obtain ⟨p, hp, rfl⟩ := List.mem_map.1 hkey
  have hnames := wellNamed_modeSchemas mode hmode
  simp only [wellNamed, Bool.and_eq_true, List.all_eq_true, Bool.not_eq_true'] at hnames
  exact hnames.2 p hp

/-- Each arm is about a declared key. -/
theorem arms_declared : ∀ mode ∈ modeSchemas, ∀ arm ∈ mode.2.arms, arm.1 ∈ mode.2.properties.map Prod.fst := by
  decide

theorem acceptsAt_of_not_mem_names {mode : String × RulesSchema} (hmode : mode ∈ modeSchemas) {key : String}
    {x : Json N} (hkey : key ∉ mode.2.properties.map Prod.fst) : mode.2.AcceptsAt key x := by
  constructor
  · rintro p hp rfl
    exact absurd (List.mem_map_of_mem hp) hkey
  · rintro arm harm rfl
    exact absurd (arms_declared mode hmode arm harm) hkey

omit [SchemaNumber N] in
theorem mem_names_of_declares {mode : String × RulesSchema} (hmode : mode ∈ modeSchemas) {key : String} {x : Json N}
    (hdeclares : Declares mode.2.schema true v) (hx : v.prop key = some x) (hannotated : annotationKey key = false)
    (hkey : vendorExtensionKey key = false) : key ∈ mode.2.properties.map Prod.fst := by
  have hnames := wellNamed_modeSchemas mode hmode
  simp only [wellNamed, Bool.and_eq_true, decide_eq_true_eq] at hnames
  rw [RulesSchema.schema, declares_closedObject hnames.1] at hdeclares
  obtain h | h | ⟨p, hp, rfl, -⟩ := hdeclares key x hx
  · rw [hannotated] at h
    cases h
  · rw [hkey, Bool.and_false] at h
    cases h
  · exact List.mem_map_of_mem hp

theorem RulesSchema.accepts_iff {mode : String × RulesSchema} (hmode : mode ∈ modeSchemas) :
    Accepts false mode.2.schema v ↔ Accepts true mode.2.schema v ∧ Declares mode.2.schema true v :=
  regular_closedObject (wellNamed_modeSchemas mode hmode) (regular_properties mode hmode)
    (List.forall_mem_map.2 fun _ _ => rfl) v

/-! ### Shared keys -/

/-- What is valid under the one schema meets the other up to unknown keys. -/
def Compatible (N : Type) [SchemaNumber N] (s t : Schema) : Prop := ∀ x : Json N, Accepts false s x → Accepts true t x

private theorem compatible_self (s : Schema) : Compatible N s s := fun _ h => Allowed.weaken h

/-- Entries that the one schema does not declare are not there, unless they are annotations. -/
theorem compatible_closedObject {properties properties' : List (String × Schema)}
    (h : ∀ p ∈ properties', p ∈ properties ∨ (p.1 ∉ properties.map Prod.fst ∧ annotationKey p.1 = false)) :
    Compatible N (closedObject false properties []) (closedObject false properties' []) := by
  intro x hx
  obtain ⟨hobject, hproperties, -, hclosed, -⟩ := accepts_closedObject.1 hx
  refine accepts_closedObject.2 ⟨hobject, fun p hp y hy => ?_, by simp, .inl rfl, by simp⟩
  obtain hmem | ⟨hundeclared, hplain⟩ := h p hp
  · exact Allowed.weaken (hproperties p hmem y hy)
  · obtain hkey | hkey | ⟨q, hq, heq⟩ := hclosed.resolve_left (by simp) p.1 y hy
    · rw [hplain] at hkey
      cases hkey
    · cases hkey
    · exact absurd (heq ▸ List.mem_map_of_mem hq) hundeclared

private theorem compatible_commitment :
    Compatible N commitment decisionCommitment ∧ Compatible N decisionCommitment commitment := by
  constructor
  · exact compatible_closedObject (by simp; decide)
  · exact compatible_closedObject (by simp)

private theorem compatible_acceptance :
    Compatible N proposalAcceptance handoffAcceptance ∧ Compatible N handoffAcceptance proposalAcceptance := by
  constructor
  · exact compatible_closedObject (by simp; decide)
  · exact compatible_closedObject (by simp; decide)

private theorem compatible_properties : ∀ mode ∈ modeSchemas, ∀ mode' ∈ modeSchemas, ∀ p ∈ mode.2.properties,
    ∀ q ∈ mode'.2.properties, p.1 = q.1 → Compatible N p.2 q.2 := by
  simp only [modeSchemas, decisionRules, quorumRules, proposalRules, taskRules, handoffRules, List.forall_mem_cons,
    List.not_mem_nil, false_imp_iff, implies_true, and_true]
  simp [compatible_self, compatible_commitment, compatible_acceptance]

private theorem shared_arms : ∀ mode ∈ modeSchemas, ∀ mode' ∈ modeSchemas, ∀ arm ∈ mode'.2.arms,
    arm.1 ∈ mode.2.properties.map Prod.fst → arm ∈ mode.2.arms := by
  have hvoting : weightedArm.1 = "voting" ∧ supermajorityArm.1 = "voting" ∧ majorityArm.1 = "voting" := ⟨rfl, rfl, rfl⟩
  have hcommitment : designatedRoleArm.1 = "commitment" := rfl
  simp only [modeSchemas, decisionRules, quorumRules, proposalRules, taskRules, handoffRules, List.forall_mem_cons,
    List.not_mem_nil, false_imp_iff, implies_true, and_true]
  simp [hvoting, hcommitment]

/-- The value at a key of valid rules is accepted, up to unknown keys, by each mode that declares the key. -/
theorem acceptsAt_of_accepts {mode mode' : String × RulesSchema} (hmode : mode ∈ modeSchemas)
    (hmode' : mode' ∈ modeSchemas) (h : Accepts false mode.2.schema v) {key : String} {x : Json N}
    (hx : v.prop key = some x) (hkey : key ∈ mode.2.properties.map Prod.fst) : mode'.2.AcceptsAt key x := by
  obtain ⟨-, hproperties, -⟩ := accepts_closedObject.1 h
  obtain ⟨p, hp, rfl⟩ := List.mem_map.1 hkey
  constructor
  · intro q hq heq
    exact compatible_properties mode hmode mode' hmode' p hp q hq heq.symm x (hproperties p hp x hx)
  · intro arm harm heq
    have hshared := shared_arms mode hmode mode' hmode' arm harm (heq ▸ hkey)
    obtain ⟨-, -, hat⟩ := RulesSchema.accepts_true_iff.1 (Allowed.weaken h)
    exact (hat p.1 x hx).2 arm hshared heq

end Acceptance

end MacpControlPlane.PolicyRules

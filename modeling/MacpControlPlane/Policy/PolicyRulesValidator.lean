import MacpControlPlane.Lib.JsonText
import MacpControlPlane.Policy.RulesSchemas

/-!
# The validation of governance rules

`PolicyRulesValidatorService` (`src/policy/policy-rules-validator.service.ts`).  The rules of one mode are validated
against its schema; those of a `"*"` policy key by key against the schemas of all modes that declare the key, with
unknown keys left to a walk over the union of the five shapes.

The errors of the validator are those of `JsonSchema.errors`, and `messageOf` is its own text for one of them.
-/

namespace MacpControlPlane.PolicyRulesValidator

open Js JsonSchema PolicyRules

variable {N : Type}

def wildcardMode : String := "*"

def undefinedKey (path : String) : String :=
  "rules." ++ path ++
    " is not a defined key (RFC-MACP-0012 §4: rule objects are closed; annotation keys must match ^[_$])"

def vendorExtensionNotImplemented (key : String) (implemented : List String) : String :=
  undefinedKey key ++ "; this runtime implements no vendor extension '" ++ key ++ "' (implemented: [" ++
    ", ".intercalate (implemented.map fun name => String.ofList (JsonText.quote name)) ++ "])"

def vendorExtensionNotObject (key : String) : String :=
  "rules." ++ key ++ ": a vendor-extension value must be a JSON object"

def vendorExtensionBelowTop (path : String) : String :=
  "rules." ++ path ++ ": vendor-extension keys are legal only at the top level of rules"

def isPlainObject : Json N → Bool
  | .obj _ => true
  | _ => false

/-! ### Key shapes -/

/-- The shapes below each declared key, or an open position, `null`, whose keys are not closed. -/
inductive KeyShape where
  | opened
  | closed (children : List (String × List KeyShape))

def KeyShape.children? : KeyShape → Option (List (String × List KeyShape))
  | .opened => none
  | .closed children => some children

mutual

def keyShapeOf : Schema → KeyShape
  | .bool _ => .opened
  | .node ⟨_, properties, _, additionalProperties, _, _, _⟩ =>
    if additionalProperties.any Schema.isFalse then .closed (childShapes properties) else .opened

def childShapes : List (String × Schema) → List (String × List KeyShape)
  | [] => []
  | (key, child) :: properties => (key, [keyShapeOf child]) :: childShapes properties

end

/-- `closed.flatMap((shape) => shape.get(key) ?? [])` -/
def childrenOf (closed : List (List (String × List KeyShape))) (key : String) : List KeyShape :=
  closed.flatMap fun shape => (shape.lookup key).getD []

/-- What the walk reports about one key; `walk` goes on below it. -/
def keyViolations (walk : List KeyShape → String → List String) (closed : List (List (String × List KeyShape)))
    (path : String) (top : Bool) (key : String) : List String :=
  let childPath := if path = "" then key else path ++ "." ++ key
  if annotationKey key then []
  else if vendorExtensionKey key then if top then [] else [vendorExtensionBelowTop childPath]
  else
    match childrenOf closed key with
    | [] => [undefinedKey childPath]
    | children => walk children childPath

mutual

def unionKeyViolations : Json N → List KeyShape → String → Bool → List String
  | .obj fields, shapes, path, top =>
    let closed := shapes.filterMap KeyShape.children?
    if closed.isEmpty then []
    else
      ((objectKeys fields).insertionSort fun a b => stringGt a b = false).flatMap fun key =>
        ((fieldViolations fields closed path top).lookup key).getD []
  | _, _, _, _ => []

/-- The violations of each field. -/
def fieldViolations : List (String × Json N) → List (List (String × List KeyShape)) → String → Bool →
    List (String × List String)
  | [], _, _, _ => []
  | (key, value) :: fields, closed, path, top =>
    (key, keyViolations (fun shapes path => unionKeyViolations value shapes path false) closed path top key) ::
      fieldViolations fields closed path top

end

/-! ### Errors -/

/-- A name within a JSON pointer. -/
def escapePointer (name : String) : String :=
  String.ofList (name.toList.flatMap fun c => if c = '~' then ['~', '0'] else if c = '/' then ['~', '1'] else [c])

def formatError (messageOf : ErrorObject → String) (error : ErrorObject) : String :=
  let segments := error.instancePath.map escapePointer
  let location := if segments = [] then "(root)" else String.join (segments.map ("/" ++ ·))
  match error.violation with
  | .additionalProperty extraKey =>
    -- the schemas admit vendor extensions at the top only, so that one that is refused is nested
    if vendorExtensionKey extraKey ∧ segments ≠ [] then
      vendorExtensionBelowTop (".".intercalate segments ++ "." ++ extraKey)
    else location ++ ": unrecognized key \"" ++ extraKey ++ "\""
  | violation =>
    match segments with
    | [topLevelKey] =>
      if violation.keyword = "type" ∧ vendorExtensionKey topLevelKey then vendorExtensionNotObject topLevelKey
      else location ++ ": " ++ messageOf error
    | _ => location ++ ": " ++ messageOf error

def formatErrors (messageOf : ErrorObject → String) (errors : List ErrorObject) : List String :=
  errors.map (formatError messageOf)

/-! ### The service -/

/-- Every mode whose schema declares the key. -/
def topLevelKeyOwners (key : String) : List (String × RulesSchema) :=
  modeSchemas.filter fun mode => key ∈ mode.2.properties.map Prod.fst

def wildcardKeyShapes : List KeyShape := modeSchemas.map fun mode => keyShapeOf mode.2.schema

/-- The names the runtime does not implement, where it is known what it implements. -/
def vendorExtensionGate (keys : List String) (ruleExtensions : Option (List String)) : List String :=
  match ruleExtensions with
  | none => []
  | some implemented =>
    (keys.filter fun key => vendorExtensionKey key && !implemented.contains key).map fun key =>
      vendorExtensionNotImplemented key implemented

section Validation

variable [SchemaNumber N] (messageOf : ErrorObject → String)

/-- The first owner that refuses the value speaks for all; errors about unknown keys are dropped. -/
def ownerErrors (sparse : Json N) : List (String × RulesSchema) → List String
  | [] => []
  | mode :: owners =>
    match (errors mode.2.schema sparse).filter fun e => e.violation.keyword ≠ "additionalProperties" with
    -- valid, or refused for keys alone, which the walk has ruled on
    | [] => ownerErrors sparse owners
    | valueErrors => formatErrors messageOf valueErrors

def validateWildcardRules (rules : Json N) (ruleExtensions : Option (List String)) : List String :=
  match rules with
  | .obj fields =>
    unionKeyViolations rules wildcardKeyShapes "" true ++
      (entries fields).flatMap fun (key, value) =>
        if annotationKey key then []
        else if vendorExtensionKey key then
          if isPlainObject value then vendorExtensionGate [key] ruleExtensions else [vendorExtensionNotObject key]
        else ownerErrors messageOf (.obj [(key, value)]) (topLevelKeyOwners key)
  | _ => formatErrors messageOf (errors decisionRules.schema rules)

/-- `Object.keys(rules)` of valid rules, which are an object. -/
def keysOf : Json N → List String
  | .obj fields => objectKeys fields
  | _ => []

def validateRules (mode : String) (rules : Json N) (ruleExtensions : Option (List String)) : List String :=
  if mode = wildcardMode then validateWildcardRules messageOf rules ruleExtensions
  else
    match modeSchemas.find? fun known => known.1 = mode with
    | none => []
    | some known =>
      match errors known.2.schema rules with
      | [] => vendorExtensionGate (keysOf rules) ruleExtensions
      | found => formatErrors messageOf found

end Validation

/-! ### The walk -/

/-- At each position the shapes are all open or all closed, down to the depth, and no key is a vendor extension. -/
def coherent : Nat → List KeyShape → Bool
  | 0, _ => false
  | depth + 1, shapes =>
    let closed := shapes.filterMap KeyShape.children?
    closed.isEmpty ||
      (shapes.all (fun shape => shape.children?.isSome) &&
        (closed.flatMap fun children => children.map Prod.fst).all fun key =>
          !vendorExtensionKey key && coherent depth (childrenOf closed key))

private theorem coherent_wildcardKeyShapes : coherent 5 wildcardKeyShapes = true := by
  decide

private theorem lookup_childShapes {properties : List (String × Schema)} {key : String} :
    (childShapes properties).lookup key = (properties.lookup key).map fun child => [keyShapeOf child] := by
  have hmap : childShapes properties = properties.map fun p => (p.1, [keyShapeOf p.2]) := by
    induction properties with
    | nil => rfl
    | cons p properties ih => rw [childShapes, ih, List.map_cons]
  rw [hmap]
  exact lookup_map_values fun _ child => [keyShapeOf child]

private theorem lookup_fieldViolations {fields : List (String × Json N)} {closed : List (List (String × List KeyShape))}
    {path : String} {top : Bool} {key : String} :
    (fieldViolations fields closed path top).lookup key = (JsonObject.prop fields key).map fun value =>
      keyViolations (fun shapes path => unionKeyViolations value shapes path false) closed path top key := by
  have hmap : fieldViolations fields closed path top = fields.map fun field =>
      (field.1, keyViolations (fun shapes path => unionKeyViolations field.2 shapes path false) closed path top
        field.1) := by
    induction fields with
    | nil => rfl
    | cons field fields ih => rw [fieldViolations, ih, List.map_cons]
  rw [hmap]
  exact lookup_map_values fun key value =>
    keyViolations (fun shapes path => unionKeyViolations value shapes path false) closed path top key

/-- A declared key is a key of the shape. -/
theorem lookup_of_declares {s : Schema} {children : List (String × List KeyShape)} {top : Bool} {key : String}
    {v x : Json N} (hdeclares : Declares s top v) (hshape : (keyShapeOf s).children? = some children)
    (hx : v.prop key = some x) :
    annotationKey key = true ∨ (top && vendorExtensionKey key) = true ∨
      ∃ child, children.lookup key = some [keyShapeOf child] ∧ Declares child false x := by
  match s with
  | .bool _ => cases hshape
  | .node ⟨_, properties, _, additionalProperties, _, _, _⟩ =>
    by_cases hclosed : additionalProperties.any Schema.isFalse = true
    · simp only [keyShapeOf, hclosed, if_true, KeyShape.children?, Option.some.injEq] at hshape
      subst hshape
      obtain hkey | hkey | hkey := hdeclares hclosed (key, x) (mem_fieldsOf.2 hx)
      · exact .inl hkey
      · exact .inr (.inl hkey)
      · obtain ⟨child, hchild, hdeclared⟩ := declaredIn_iff_lookup.1 hkey
        exact .inr (.inr ⟨child, by rw [lookup_childShapes, hchild]; rfl, hdeclared⟩)
    · simp [keyShapeOf, hclosed, KeyShape.children?] at hshape

private theorem coherent_succ {depth : Nat} {shapes : List KeyShape} (hcoherent : coherent (depth + 1) shapes = true)
    {s : Schema} (hshape : keyShapeOf s ∈ shapes) (hclosed : shapes.filterMap KeyShape.children? ≠ []) :
    ∃ children, (keyShapeOf s).children? = some children ∧ children ∈ shapes.filterMap KeyShape.children? ∧
      ∀ key value, children.lookup key = some value → vendorExtensionKey key = false ∧
        coherent depth (childrenOf (shapes.filterMap KeyShape.children?) key) = true := by
  simp only [coherent, Bool.or_eq_true, List.isEmpty_iff, hclosed, false_or, Bool.and_eq_true, List.all_eq_true,
    Bool.not_eq_true'] at hcoherent
  obtain ⟨hsome, hkeys⟩ := hcoherent
  obtain ⟨children, hchildren⟩ := Option.isSome_iff_exists.1 (hsome _ hshape)
  have hmem : children ∈ shapes.filterMap KeyShape.children? := List.mem_filterMap.2 ⟨_, hshape, hchildren⟩
  refine ⟨children, hchildren, hmem, fun key value hvalue => hkeys key ?_⟩
  exact List.mem_flatMap.2 ⟨children, hmem, List.mem_map_of_mem (mem_of_lookup hvalue)⟩

/-- The walk reports nothing if the value is declared by a schema whose shape is among the shapes. -/
theorem unionKeyViolations_eq_nil {depth : Nat} {shapes : List KeyShape} {s : Schema} {top : Bool} {path : String}
    {v : Json N} (hcoherent : coherent depth shapes = true) (hshape : keyShapeOf s ∈ shapes)
    (hdeclares : Declares s top v) : unionKeyViolations v shapes path top = [] := by
  induction depth generalizing shapes s top path v with
  | zero => cases hcoherent
  | succ depth ih =>
    match v with
    | .null | .bool _ | .num _ | .str _ | .arr _ => rfl
    | .obj fields =>
      rw [unionKeyViolations]
      by_cases hclosed : shapes.filterMap KeyShape.children? = []
      · simp [hclosed]
      obtain ⟨children, hchildren, hmem, hbelow⟩ := coherent_succ hcoherent hshape hclosed
      simp only [List.isEmpty_iff, hclosed, if_false, List.flatMap_eq_nil_iff, lookup_fieldViolations]
      intro key _
      cases hx : JsonObject.prop fields key with
      | none => rfl
      | some x =>
        simp only [Option.map_some, Option.getD_some, keyViolations]
        obtain hkey | hkey | ⟨child, hchild, hdeclared⟩ := lookup_of_declares hdeclares hchildren hx
        · rw [if_pos hkey]
        · simp only [Bool.and_eq_true] at hkey
          simp [hkey]
        · obtain ⟨hplain, hcoherent⟩ := hbelow key _ hchild
          have hwalked : keyShapeOf child ∈ childrenOf (shapes.filterMap KeyShape.children?) key :=
            List.mem_flatMap.2 ⟨children, hmem, by simp [hchild]⟩
          -- a declared key has shapes below it, so that the walk goes on
          rw [hplain]
          split
          · rfl
          · split
            · contradiction
            · split
              · rename_i hnone
                rw [hnone] at hwalked
                cases hwalked
              · exact ih hcoherent hwalked hdeclared

/-! ### What is accepted -/

private theorem vendorExtensionGate_eq_nil {keys : List String} {ruleExtensions : Option (List String)} :
    vendorExtensionGate keys ruleExtensions = [] ↔
      ∀ implemented ∈ ruleExtensions, ∀ key ∈ keys, vendorExtensionKey key = true → key ∈ implemented := by
  cases ruleExtensions <;> simp [vendorExtensionGate]

private theorem isPlainObject_eq [SchemaNumber N] (x : Json N) : isPlainObject x = hasType .object x := by
  cases x <;> rfl

private theorem keyword_eq_iff (violation : Violation) :
    violation.keyword = "additionalProperties" ↔ violation.isAdditional = true := by
  cases violation with
  | assertion a => cases a <;> simp [Violation.keyword, Assertion.keyword, Violation.isAdditional]
  | _ => simp [Violation.keyword, Violation.isAdditional]

/-- The names of the modes are distinct, and none is the wildcard. -/
theorem find_mode : ∀ mode ∈ modeSchemas, mode.1 ≠ wildcardMode ∧
    (modeSchemas.find? fun known => known.1 = mode.1) = some mode := by
  simp only [modeSchemas, List.forall_mem_cons, List.not_mem_nil, false_imp_iff, implies_true, and_true]
  exact ⟨⟨by decide, rfl⟩, ⟨by decide, rfl⟩, ⟨by decide, rfl⟩, ⟨by decide, rfl⟩, by decide, rfl⟩

section Acceptance

variable [SchemaNumber N] {messageOf : ErrorObject → String} {ruleExtensions : Option (List String)}

private theorem formatErrors_eq_nil {errors : List ErrorObject} : formatErrors messageOf errors = [] ↔ errors = [] :=
  List.map_eq_nil_iff

/-- Errors that have been found are reported, and only without any is there more to check. -/
theorem found_eq_nil {found : List ErrorObject} {more : List String} :
    (match found with | [] => more | found => formatErrors messageOf found) = [] ↔ found = [] ∧ more = [] := by
  split
  · exact (and_iff_right rfl).symm
  · rename_i hne
    rw [formatErrors_eq_nil]
    exact ⟨fun h => absurd h hne, fun h => absurd h.1 hne⟩

private theorem ownerErrors_eq_nil {sparse : Json N} {owners : List (String × RulesSchema)} :
    ownerErrors messageOf sparse owners = [] ↔ ∀ mode ∈ owners, Accepts true mode.2.schema sparse := by
  induction owners with
  | nil => simp [ownerErrors]
  | cons mode owners ih =>
    have hfilter : ((errors mode.2.schema sparse).filter fun e => e.violation.keyword ≠ "additionalProperties") = [] ↔
        Accepts true mode.2.schema sparse := by
      simp [List.filter_eq_nil_iff, keyword_eq_iff, Accepts, Allowed]
    rw [ownerErrors, List.forall_mem_cons, ← ih, ← hfilter]
    exact found_eq_nil

theorem validateRules_eq_nil {mode : String × RulesSchema} (hmode : mode ∈ modeSchemas) {rules : Json N} :
    validateRules messageOf mode.1 rules ruleExtensions = [] ↔
      Accepts false mode.2.schema rules ∧ vendorExtensionGate (keysOf rules) ruleExtensions = [] := by
  obtain ⟨hname, hfind⟩ := find_mode mode hmode
  rw [validateRules, if_neg hname, hfind, Accepts, allowed_false_iff]
  exact found_eq_nil

/-- What the schemas of the modes ask of the value at a top-level key of a `"*"` policy. -/
def WildcardAccepts (ruleExtensions : Option (List String)) (key : String) (x : Json N) : Prop :=
  annotationKey key = false →
    (vendorExtensionKey key = true → hasType .object x = true ∧ vendorExtensionGate [key] ruleExtensions = []) ∧
    (vendorExtensionKey key = false →
      ∀ mode ∈ modeSchemas, key ∈ mode.2.properties.map Prod.fst → mode.2.AcceptsAt key x)

theorem validateRules_wildcard_eq_nil {fields : JsonObject N} :
    validateRules messageOf wildcardMode (.obj fields) ruleExtensions = [] ↔
      unionKeyViolations (.obj fields) wildcardKeyShapes "" true = [] ∧
      ∀ key x, JsonObject.prop fields key = some x → WildcardAccepts ruleExtensions key x := by
  rw [validateRules, if_pos rfl, validateWildcardRules, List.append_eq_nil_iff, List.flatMap_eq_nil_iff, Prod.forall]
  refine and_congr_right fun _ => forall_congr' fun key => forall_congr' fun x => ?_
  rw [mem_entries]
  refine imp_congr_right fun _ => ?_
  dsimp only
  rw [WildcardAccepts]
  by_cases hannotated : annotationKey key = true
  · simp [hannotated]
  rw [if_neg hannotated]
  by_cases hkey : vendorExtensionKey key = true
  · rw [if_pos hkey, isPlainObject_eq]
    cases hasType .object x <;> simp [hannotated, hkey]
  · rw [if_neg hkey, ownerErrors_eq_nil]
    rw [Bool.not_eq_true] at hannotated hkey
    simp [hannotated, hkey, RulesSchema.accepts_sparse hkey, topLevelKeyOwners]

private theorem hasType_of_wildcard {rules : Json N}
    (h : validateRules messageOf wildcardMode rules ruleExtensions = []) : hasType .object rules = true := by
  match rules with
  | .obj _ => rfl
  | .null | .bool _ | .num _ | .str _ | .arr _ =>
    have hnil := formatErrors_eq_nil.1 h
    exact (RulesSchema.accepts_true_iff.1 (Allowed.weaken (allowed_false_iff.2 hnil))).1

omit [SchemaNumber N] in
private theorem vendorExtensionGate_objectKeys {fields : JsonObject N} :
    vendorExtensionGate (objectKeys fields) ruleExtensions = [] ↔
      ∀ key x, JsonObject.prop fields key = some x → vendorExtensionKey key = true →
        vendorExtensionGate [key] ruleExtensions = [] := by
  simp only [vendorExtensionGate_eq_nil, List.forall_mem_singleton]
  constructor
  · intro h key x hx hkey implemented himplemented _
    exact h implemented himplemented key (mem_objectKeys_iff.2 ⟨x, hx⟩) hkey
  · intro h implemented himplemented key hmem hkey
    obtain ⟨x, hx⟩ := mem_objectKeys_iff.1 hmem
    exact h key x hx hkey implemented himplemented hkey

/-- A mode accepts rules if and only if they are accepted as those of a `"*"` policy and every key, but for annotations
and vendor extensions, is declared by the schema of the mode. -/
theorem validateRules_iff_wildcard (messageOf : ErrorObject → String) {mode : String × RulesSchema}
    (hmode : mode ∈ modeSchemas) (rules : Json N) (ruleExtensions : Option (List String)) :
    validateRules messageOf mode.1 rules ruleExtensions = [] ↔
      validateRules messageOf wildcardMode rules ruleExtensions = [] ∧ Declares mode.2.schema true rules := by
  rw [validateRules_eq_nil hmode, RulesSchema.accepts_iff hmode]
  constructor
  · rintro ⟨haccepts, hgate⟩
    refine ⟨?_, haccepts.2⟩
    obtain ⟨hobject, hvendor, -⟩ := RulesSchema.accepts_true_iff.1 haccepts.1
    match rules with
    | .null | .bool _ | .num _ | .str _ | .arr _ => cases hobject
    | .obj fields =>
      refine validateRules_wildcard_eq_nil.2 ⟨?_, fun key x hx hannotated => ⟨fun hkey => ⟨?_, ?_⟩, ?_⟩⟩
      · exact unionKeyViolations_eq_nil coherent_wildcardKeyShapes (List.mem_map_of_mem hmode) haccepts.2
      · exact hvendor key x hx hkey
      · exact vendorExtensionGate_objectKeys.1 hgate key x hx hkey
      · intro hkey other hother _
        have hvalid := (RulesSchema.accepts_iff hmode).2 haccepts
        -- another owner of the key takes what this one does
        exact acceptsAt_of_accepts hmode hother hvalid hx (mem_names_of_declares hmode haccepts.2 hx hannotated hkey)
  · rintro ⟨hwildcard, hdeclares⟩
    have hobject := hasType_of_wildcard hwildcard
    match rules with
    | .null | .bool _ | .num _ | .str _ | .arr _ => cases hobject
    | .obj fields =>
      obtain ⟨-, hkeys⟩ := validateRules_wildcard_eq_nil.1 hwildcard
      have hvendor (key : String) (x : Json N) (hx : JsonObject.prop fields key = some x)
          (hkey : vendorExtensionKey key = true) :=
        (hkeys key x hx (annotationKey_of_vendorExtensionKey hkey)).1 hkey
      refine ⟨⟨RulesSchema.accepts_true_iff.2 ⟨rfl, fun key x hx hkey => (hvendor key x hx hkey).1, ?_⟩, hdeclares⟩,
        vendorExtensionGate_objectKeys.2 fun key x hx hkey => (hvendor key x hx hkey).2⟩
      intro key x hx
      by_cases hdeclared : key ∈ mode.2.properties.map Prod.fst
      · obtain ⟨hannotated, hkey⟩ := plain_of_mem_names hmode hdeclared
        exact (hkeys key x hx hannotated).2 hkey mode hmode hdeclared
      · exact acceptsAt_of_not_mem_names hmode hdeclared

end Acceptance

/-- The rules of a proposal, with a vendor extension and an annotation. -/
def exampleRules : Json (Option Rat) :=
  .obj
    [("acceptance", .obj [("criterion", .str "initiator")]), ("x-acme.tool", .obj []), ("_note", .num (some 5))]

theorem validateRules_iff_wildcard_proposal :
    validateRules (fun e => e.violation.keyword) wildcardMode exampleRules (some ["x-acme.tool"]) = [] ∧
      Declares proposalRules.schema true exampleRules :=
  have hmode : ("macp.mode.proposal.v1", proposalRules) ∈ modeSchemas := by simp [modeSchemas]
  (validateRules_iff_wildcard _ hmode exampleRules _).1 (by decide)

end MacpControlPlane.PolicyRulesValidator

import Mathlib.Data.List.Dedup
import Mathlib.Data.List.Sort
import MacpControlPlane.Lib.Js

/-!
# JSON Schema

The keywords of the draft 2020-12 that schemas of plain records use, with all the errors that a value has under a
schema.  An error names the keyword and the position in the value; only the closing of an object
(`additionalProperties: false`) is told apart from the other violations, as a check with open keys does without it.

* `Accepts false` is validity, `Accepts true` validity up to unknown keys;
* `accepts_node` says keyword by keyword when a value is accepted.
-/

namespace JsonSchema

open Js

variable {N : Type}

/-! ### Objects -/

/-- A decimal number without leading zeros, below `2 ^ 32 - 1`. -/
def arrayIndex (key : String) : Option Nat :=
  let digits := key.toList
  let value := digits.foldl (fun n c => n * 10 + (c.toNat - 48)) 0
  if digits ≠ [] ∧ (digits.all fun c => '0' ≤ c && c ≤ '9') ∧ (digits.head? ≠ some '0' ∨ key = "0") ∧ value < 4294967295
  then some value
  else none

/-- `Object.keys(x)`: the array indices in ascending order, then the other names in the order of the fields. -/
def objectKeys (fields : JsonObject N) : List String :=
  let keys := (fields.map Prod.fst).dedup
  let indices := keys.filter fun k => (arrayIndex k).isSome
  (indices.insertionSort fun k l => (arrayIndex k).getD 0 ≤ (arrayIndex l).getD 0) ++
    keys.filter fun k => (arrayIndex k).isNone

theorem mem_objectKeys_iff {fields : JsonObject N} {k : String} :
    k ∈ objectKeys fields ↔ ∃ v, JsonObject.prop fields k = some v := by
  rw [objectKeys, List.mem_append, List.mem_insertionSort, List.mem_filter, List.mem_filter, ← and_or_left,
    List.mem_dedup, JsonObject.prop]
  have hindex : (arrayIndex k).isSome = true ∨ (arrayIndex k).isNone = true := by cases arrayIndex k <;> simp
  rw [and_iff_left hindex]
  constructor
  · intro h
    obtain ⟨field, hfield, rfl⟩ := List.mem_map.1 h
    exact exists_lookup_of_mem hfield
  · rintro ⟨v, hv⟩
    exact List.mem_map_of_mem (mem_of_lookup hv)

/-- `Object.entries(x)`.  Of two fields of one name, the one that is defined first counts. -/
def entries (fields : JsonObject N) : List (String × Json N) :=
  (objectKeys fields).filterMap fun k => (JsonObject.prop fields k).map fun v => (k, v)

theorem mem_entries {fields : JsonObject N} {k : String} {v : Json N} :
    (k, v) ∈ entries fields ↔ JsonObject.prop fields k = some v := by
  simp only [entries, List.mem_filterMap, mem_objectKeys_iff, Option.map_eq_some_iff, Prod.mk.injEq]
  constructor
  · rintro ⟨l, -, w, hw, rfl, rfl⟩
    exact hw
  · intro h
    exact ⟨k, ⟨v, h⟩, v, h, rfl, rfl⟩

/-! ### Schemas -/

/-- The comparisons of the numeric keywords. -/
class SchemaNumber (N : Type) where
  isInteger : N → Bool
  atLeast : N → Rat → Bool
  above : N → Rat → Bool
  atMost : N → Rat → Bool

instance : SchemaNumber (Option Rat) where
  isInteger n := n.any fun n => n.isInt
  atLeast n b := n.any (b ≤ ·)
  above n b := n.any (b < ·)
  atMost n b := n.any (· ≤ b)

inductive JsonType where
  | object | array | string | number | integer | boolean
  deriving DecidableEq, Repr

/-- The keywords that do not contain schemas. -/
inductive Assertion where
  | type (t : JsonType)
  | enum (values : List String)
  | const (value : String)
  | minimum (bound : Rat)
  | exclusiveMinimum (bound : Rat)
  | maximum (bound : Rat)
  | minItems (n : Nat)
  | minProperties (n : Nat)
  | required (key : String)
  deriving DecidableEq

/-- The keywords of a schema, over the schemas inside. -/
structure Keywords (S : Type) where
  assertions : List Assertion := []
  properties : List (String × S) := []
  patternProperties : List ((String → Bool) × S) := []
  additionalProperties : Option S := none
  items : Option S := none
  allOf : List S := []
  /-- `if` and `then` -/
  ifThen : Option (S × S) := none

inductive Schema where
  | bool (b : Bool)
  | node (keywords : Keywords Schema)

/-- `additionalProperties: false` -/
def Schema.isFalse : Schema → Bool
  | .bool b => !b
  | .node _ => false

inductive Violation where
  | assertion (assertion : Assertion)
  | additionalProperty (key : String)
  | falseSchema
  | ifThen
  deriving DecidableEq

def Assertion.keyword : Assertion → String
  | .type _ => "type"
  | .enum _ => "enum"
  | .const _ => "const"
  | .minimum _ => "minimum"
  | .exclusiveMinimum _ => "exclusiveMinimum"
  | .maximum _ => "maximum"
  | .minItems _ => "minItems"
  | .minProperties _ => "minProperties"
  | .required _ => "required"

def Violation.keyword : Violation → String
  | .assertion a => a.keyword
  | .additionalProperty _ => "additionalProperties"
  | .falseSchema => "false schema"
  | .ifThen => "if"

structure ErrorObject where
  /-- The names and indices on the way to the value. -/
  instancePath : List String
  violation : Violation
  deriving DecidableEq

/-- The errors of the value at `k`, seen from above. -/
def under (k : String) (errors : List ErrorObject) : List ErrorObject :=
  errors.map fun e => { e with instancePath := k :: e.instancePath }

section Errors

variable [SchemaNumber N]

def hasType : JsonType → Json N → Bool
  | .object, .obj _ | .array, .arr _ | .string, .str _ | .number, .num _ | .boolean, .bool _ => true
  | .integer, .num n => SchemaNumber.isInteger n
  | _, _ => false

/-- A keyword holds of every value of a type that it is not about. -/
def Assertion.holds : Assertion → Json N → Bool
  | .type t, v => hasType t v
  | .enum values, .str s => s ∈ values
  | .enum _, _ => false
  | .const value, .str s => s = value
  | .const _, _ => false
  | .minimum b, .num n => SchemaNumber.atLeast n b
  | .exclusiveMinimum b, .num n => SchemaNumber.above n b
  | .maximum b, .num n => SchemaNumber.atMost n b
  | .minItems n, .arr xs => n ≤ xs.length
  | .minProperties n, .obj fields => n ≤ (entries fields).length
  | .required k, .obj fields => (JsonObject.prop fields k).isSome
  | _, _ => true

def fieldsOf : Json N → List (String × Json N)
  | .obj fields => entries fields
  | _ => []

def itemsOf : Json N → List (Json N)
  | .arr xs => xs
  | _ => []

/-- The entries that neither `properties` nor `patternProperties` is about. -/
def additional (properties : List (String × Schema)) (patternProperties : List ((String → Bool) × Schema))
    (v : Json N) : List (String × Json N) :=
  (fieldsOf v).filter fun field =>
    !(properties.any fun p => p.1 = field.1) && !(patternProperties.any fun p => p.1 field.1)

mutual

/-- All the errors of a value. -/
def errors : Schema → Json N → List ErrorObject
  | .bool b, _ => if b then [] else [⟨[], .falseSchema⟩]
  | .node ⟨assertions, properties, patternProperties, additionalProperties, items, allOf, ifThen⟩, v =>
    ((assertions.filter fun a => !a.holds v).map fun a => ⟨[], .assertion a⟩) ++
    propertyErrors properties v ++ patternErrors patternProperties v ++
    (match additionalProperties with
      | none => []
      | some (.bool false) => (additional properties patternProperties v).map fun f => ⟨[], .additionalProperty f.1⟩
      | some s => (additional properties patternProperties v).flatMap fun f => under f.1 (errors s f.2)) ++
    (match items with
      | none => []
      | some s => (itemsOf v).zipIdx.flatMap fun item => under (toString item.2) (errors s item.1)) ++
    allOfErrors allOf v ++
    -- a condition that is not met is no error, and reports none of its own
    (match ifThen with
      | none => []
      | some (cond, body) =>
        if (errors cond v).isEmpty && !(errors body v).isEmpty then errors body v ++ [⟨[], .ifThen⟩] else [])

def propertyErrors : List (String × Schema) → Json N → List ErrorObject
  | [], _ => []
  | (k, s) :: properties, v =>
    (match v.prop k with
      | some x => under k (errors s x)
      | none => []) ++ propertyErrors properties v

def patternErrors : List ((String → Bool) × Schema) → Json N → List ErrorObject
  | [], _ => []
  | (pattern, s) :: patterns, v =>
    (((fieldsOf v).filter fun f => pattern f.1).flatMap fun f => under f.1 (errors s f.2)) ++ patternErrors patterns v

def allOfErrors : List Schema → Json N → List ErrorObject
  | [], _ => []
  | s :: schemas, v => errors s v ++ allOfErrors schemas v

end

/-! ### Acceptance -/

def Violation.isAdditional : Violation → Bool
  | .additionalProperty _ => true
  | _ => false

/-- There are no errors, but for unknown keys where these are open. -/
def Allowed (openKeys : Bool) (errors : List ErrorObject) : Prop :=
  ∀ e ∈ errors, openKeys = true ∧ e.violation.isAdditional = true

def Accepts (openKeys : Bool) (s : Schema) (v : Json N) : Prop := Allowed openKeys (errors s v)

end Errors

variable {openKeys : Bool}

theorem allowed_false_iff {errors : List ErrorObject} : Allowed false errors ↔ errors = [] := by
  simp [Allowed, List.eq_nil_iff_forall_not_mem]

@[simp] theorem allowed_nil : Allowed openKeys [] := by
  simp [Allowed]

@[simp] theorem allowed_append {l l' : List ErrorObject} :
    Allowed openKeys (l ++ l') ↔ Allowed openKeys l ∧ Allowed openKeys l' :=
  List.forall_mem_append

theorem allowed_map {α : Type} {l : List α} {f : α → ErrorObject} :
    Allowed openKeys (l.map f) ↔ ∀ a ∈ l, openKeys = true ∧ (f a).violation.isAdditional = true :=
  List.forall_mem_map

theorem allowed_flatMap {α : Type} {l : List α} {f : α → List ErrorObject} :
    Allowed openKeys (l.flatMap f) ↔ ∀ a ∈ l, Allowed openKeys (f a) := by
  simp only [Allowed, List.mem_flatMap]
  constructor
  · intro h a ha e he
    exact h e ⟨a, ha, he⟩
  · rintro h e ⟨a, ha, he⟩
    exact h a ha e he

@[simp] theorem allowed_under {k : String} {l : List ErrorObject} :
    Allowed openKeys (under k l) ↔ Allowed openKeys l := by
  simp [under, Allowed]

theorem Allowed.weaken {l : List ErrorObject} (h : Allowed false l) : Allowed openKeys l := by
  rw [allowed_false_iff.1 h]
  exact allowed_nil

theorem mem_fieldsOf {v x : Json N} {k : String} : (k, x) ∈ fieldsOf v ↔ v.prop k = some x := by
  cases v with
  | obj fields => exact mem_entries
  | _ => simp [fieldsOf, Json.prop]

section Keywords

variable [SchemaNumber N] {v : Json N}

theorem allowed_propertyErrors {properties : List (String × Schema)} :
    Allowed openKeys (propertyErrors properties v) ↔
      ∀ p ∈ properties, ∀ x, v.prop p.1 = some x → Accepts openKeys p.2 x := by
  induction properties with
  | nil => simp [propertyErrors]
  | cons p properties ih =>
    obtain ⟨k, s⟩ := p
    rw [propertyErrors, allowed_append, ih, List.forall_mem_cons]
    refine and_congr_left fun _ => ?_
    cases h : v.prop k with
    | none => simp
    | some x => simp [Accepts]

theorem allowed_patternErrors {patterns : List ((String → Bool) × Schema)} :
    Allowed openKeys (patternErrors patterns v) ↔
      ∀ p ∈ patterns, ∀ k x, v.prop k = some x → p.1 k = true → Accepts openKeys p.2 x := by
  induction patterns with
  | nil => simp [patternErrors]
  | cons p patterns ih =>
    obtain ⟨pattern, s⟩ := p
    rw [patternErrors, allowed_append, ih, List.forall_mem_cons, allowed_flatMap]
    simp [mem_fieldsOf, Accepts]

theorem allowed_allOfErrors {schemas : List Schema} :
    Allowed openKeys (allOfErrors schemas v) ↔ ∀ s ∈ schemas, Accepts openKeys s v := by
  induction schemas with
  | nil => simp [allOfErrors]
  | cons s schemas ih => rw [allOfErrors, allowed_append, ih, List.forall_mem_cons, Accepts]

omit [SchemaNumber N] in
theorem mem_additional {properties : List (String × Schema)} {patterns : List ((String → Bool) × Schema)} {k : String}
    {x : Json N} :
    (k, x) ∈ additional properties patterns v ↔
      v.prop k = some x ∧ (∀ p ∈ properties, p.1 ≠ k) ∧ ∀ p ∈ patterns, p.1 k = false := by
  simp [additional, mem_fieldsOf]

/-- What the keyword `additionalProperties` asks of the entries that it is about. -/
def AcceptsAdditional (openKeys : Bool) : Option Schema → List (String × Json N) → Prop
  | none, _ => True
  | some (.bool false), rest => openKeys = true ∨ rest = []
  | some s, rest => ∀ f ∈ rest, Accepts openKeys s f.2

/-- When a value is accepted, keyword by keyword.  A condition is met by its instances without any errors, so that
`if` and `then` do not depend on whether keys are open. -/
theorem accepts_node {keywords : Keywords Schema} :
    Accepts openKeys (.node keywords) v ↔
      (∀ a ∈ keywords.assertions, a.holds v = true) ∧
      (∀ p ∈ keywords.properties, ∀ x, v.prop p.1 = some x → Accepts openKeys p.2 x) ∧
      (∀ p ∈ keywords.patternProperties, ∀ k x, v.prop k = some x → p.1 k = true → Accepts openKeys p.2 x) ∧
      AcceptsAdditional openKeys keywords.additionalProperties
        (additional keywords.properties keywords.patternProperties v) ∧
      (∀ s ∈ keywords.items, ∀ x ∈ itemsOf v, Accepts openKeys s x) ∧
      (∀ s ∈ keywords.allOf, Accepts openKeys s v) ∧
      (∀ c ∈ keywords.ifThen, Accepts false c.1 v → Accepts false c.2 v) := by
  obtain ⟨assertions, properties, patternProperties, additionalProperties, items, allOf, ifThen⟩ := keywords
  have hassertions :
      Allowed openKeys ((assertions.filter fun a => !a.holds v).map fun a => ⟨[], .assertion a⟩) ↔
        ∀ a ∈ assertions, a.holds v = true := by
    simp [allowed_map, Violation.isAdditional]
  have hadditional (rest : List (String × Json N)) :
      Allowed openKeys (match additionalProperties with
        | none => []
        | some (.bool false) => rest.map fun f => ⟨[], .additionalProperty f.1⟩
        | some s => rest.flatMap fun f => under f.1 (errors s f.2)) ↔
        AcceptsAdditional openKeys additionalProperties rest := by
    match additionalProperties with
    | none => simp [AcceptsAdditional]
    | some (.bool false) =>
      simp only [AcceptsAdditional, allowed_map, Violation.isAdditional, and_true]
      cases rest with
      | nil => simp
      | cons f rest => simpa using fun h _ _ _ => h
    | some (.bool true) => simp [AcceptsAdditional, allowed_flatMap, Accepts]
    | some (.node _) => simp [AcceptsAdditional, allowed_flatMap, Accepts]
  have hitems :
      Allowed openKeys (match items with
        | none => []
        | some s => (itemsOf v).zipIdx.flatMap fun item => under (toString item.2) (errors s item.1)) ↔
        ∀ s ∈ items, ∀ x ∈ itemsOf v, Accepts openKeys s x := by
    cases items with
    | none => simp
    | some s =>
      simp only [allowed_flatMap, allowed_under, Option.mem_def, Option.some.injEq, forall_eq', Accepts]
      constructor
      · intro h x hx
        obtain ⟨i, hi⟩ := List.mem_iff_getElem?.1 hx
        exact h (x, i) (List.mk_mem_zipIdx_iff_getElem?.2 hi)
      · intro h item hitem
        exact h _ (List.fst_mem_of_mem_zipIdx hitem)
  -- the error of the keyword itself is there whenever the body has any
  have hifThen :
      Allowed openKeys (match ifThen with
        | none => []
        | some (cond, body) =>
          if (errors cond v).isEmpty && !(errors body v).isEmpty then errors body v ++ [⟨[], .ifThen⟩] else []) ↔
        ∀ c ∈ ifThen, Accepts false c.1 v → Accepts false c.2 v := by
    cases ifThen with
    | none => simp
    | some c =>
      simp only [Accepts, allowed_false_iff, Option.mem_def, Option.some.injEq, forall_eq']
      by_cases hcond : errors c.1 v = []
      · by_cases hbody : errors c.2 v = []
        · simp [hcond, hbody]
        · simp [hcond, hbody, Allowed, Violation.isAdditional]
      · simp [hcond]
  rw [Accepts, errors.eq_def]
  simp only [allowed_append, hassertions, allowed_propertyErrors, allowed_patternErrors, hadditional, hitems,
    allowed_allOfErrors, hifThen, and_assoc]

end Keywords

/-! ### Open schemas -/

mutual

/-- No level of the values is closed.  What `if` and `then` contain makes no difference (`accepts_node`). -/
def Schema.isOpen : Schema → Bool
  | .bool _ => true
  | .node ⟨_, properties, patternProperties, additionalProperties, items, allOf, _⟩ =>
    propertiesOpen properties && patternsOpen patternProperties &&
    (match additionalProperties with
      | none => true
      | some s => !s.isFalse && s.isOpen) &&
    (match items with
      | none => true
      | some s => s.isOpen) &&
    allOfOpen allOf

def propertiesOpen : List (String × Schema) → Bool
  | [] => true
  | (_, s) :: properties => s.isOpen && propertiesOpen properties

def patternsOpen : List ((String → Bool) × Schema) → Bool
  | [] => true
  | (_, s) :: patterns => s.isOpen && patternsOpen patterns

def allOfOpen : List Schema → Bool
  | [] => true
  | s :: schemas => s.isOpen && allOfOpen schemas

end

section Open

variable [SchemaNumber N]

mutual

/-- Where no level is closed, open keys make no difference. -/
theorem Accepts.of_isOpen : ∀ (s : Schema), s.isOpen = true → ∀ {v : Json N}, Accepts openKeys s v → Accepts false s v
  | .bool b, _, v, h => by
    cases b with
    | true => simp [Accepts, errors]
    | false => simp [Accepts, errors, Allowed, Violation.isAdditional] at h
  | .node ⟨assertions, properties, patternProperties, additionalProperties, items, allOf, ifThen⟩, hopen, v, h => by
    rw [Schema.isOpen.eq_def] at hopen
    simp only [Bool.and_eq_true] at hopen
    obtain ⟨⟨⟨⟨hproperties, hpatterns⟩, hadditional⟩, hitems⟩, hallOf⟩ := hopen
    obtain ⟨ha, hp, hq, hr, hi, hall, hif⟩ := accepts_node.1 h
    refine accepts_node.2 ⟨ha, fun p hmem x hx => ?_, fun p hmem k x hx hk => ?_, ?_, fun s hs x hx => ?_,
      fun s hs => ?_, hif⟩
    · exact accepts_of_propertiesOpen properties hproperties p hmem (hp p hmem x hx)
    · exact accepts_of_patternsOpen patternProperties hpatterns p hmem (hq p hmem k x hx hk)
    · match additionalProperties with
      | none => trivial
      | some (.bool false) => simp [Schema.isFalse] at hadditional
      | some (.bool true) => simp [AcceptsAdditional, Accepts, errors]
      | some (.node keywords) =>
        simp only [Schema.isFalse, Bool.not_false, Bool.true_and] at hadditional
        exact fun f hf => Accepts.of_isOpen (.node keywords) hadditional (hr f hf)
    · match items with
      | none => exact absurd hs (by simp)
      | some t =>
        rw [← Option.mem_some.1 hs]
        exact Accepts.of_isOpen t hitems (hi t rfl x hx)
    · exact accepts_of_allOfOpen allOf hallOf s hs (hall s hs)

theorem accepts_of_propertiesOpen : ∀ (properties : List (String × Schema)), propertiesOpen properties = true →
    ∀ p ∈ properties, ∀ {v : Json N}, Accepts openKeys p.2 v → Accepts false p.2 v
  | (k, s) :: properties, hopen, p, hp, v, h => by
    simp only [propertiesOpen, Bool.and_eq_true] at hopen
    rcases List.mem_cons.1 hp with rfl | hp
    · exact Accepts.of_isOpen s hopen.1 h
    · exact accepts_of_propertiesOpen properties hopen.2 p hp h

theorem accepts_of_patternsOpen : ∀ (patterns : List ((String → Bool) × Schema)), patternsOpen patterns = true →
    ∀ p ∈ patterns, ∀ {v : Json N}, Accepts openKeys p.2 v → Accepts false p.2 v
  | (pattern, s) :: patterns, hopen, p, hp, v, h => by
    simp only [patternsOpen, Bool.and_eq_true] at hopen
    rcases List.mem_cons.1 hp with rfl | hp
    · exact Accepts.of_isOpen s hopen.1 h
    · exact accepts_of_patternsOpen patterns hopen.2 p hp h

theorem accepts_of_allOfOpen : ∀ (schemas : List Schema), allOfOpen schemas = true →
    ∀ s ∈ schemas, ∀ {v : Json N}, Accepts openKeys s v → Accepts false s v
  | s :: schemas, hopen, t, ht, v, h => by
    simp only [allOfOpen, Bool.and_eq_true] at hopen
    rcases List.mem_cons.1 ht with heq | ht
    · rw [heq] at h ⊢
      exact Accepts.of_isOpen s hopen.1 h
    · exact accepts_of_allOfOpen schemas hopen.2 t ht h

end

end Open

end JsonSchema

/-!
# JavaScript values

The values a program receives as parsed JSON, with the coercions JavaScript applies to them: nullish coalescing
`a ?? b`, `String(x)`, `Number(x)`, truthiness, and the order `<` of strings (by UTF-16 code units).

The type of numbers is a parameter `N` with the operations of `JsNumber`, so that nothing here commits to a rounding
rule: IEEE doubles are one instance, exact arithmetic (`Option Rat`, with `none` for `NaN`) another.

`undefined` is `none`: a field that is absent and a field that holds `undefined` are the same value here, as they are
for `JSON.stringify`.
-/

namespace Js

/-- The operations on `number` that the coercions and the accumulators of a program use. -/
class JsNumber (N : Type) where
  /-- `NaN` -/
  nan : N
  /-- A nonnegative integer. -/
  ofNat : Nat → N
  /-- `a + b` -/
  add : N → N → N
  /-- `a * b` -/
  mul : N → N → N
  /-- `a / b` -/
  div : N → N → N
  /-- `Number.isFinite(n)` -/
  isFinite : N → Bool
  /-- `Boolean(n)`: neither zero nor `NaN`. -/
  truthy : N → Bool
  /-- `n > 0` -/
  positive : N → Bool
  /-- `Number(s)` of a string. -/
  parse : String → N
  /-- `String(n)` -/
  format : N → String

/-- Exact arithmetic: a rational, or `none` for `NaN`.  Strings that are not decimal integers parse to `NaN`. -/
instance : JsNumber (Option Rat) where
  nan := none
  ofNat n := some (n : Rat)
  add a b := do return (← a) + (← b)
  mul a b := do return (← a) * (← b)
  div a b := do
    let b ← b
    if b = 0 then none else return (← a) / b
  isFinite a := a.isSome
  truthy a := a.any (· ≠ 0)
  positive a := a.any (0 < ·)
  parse s := if s = "" then some 0 else s.toInt?.map fun i => (i : Rat)
  format a := match a with
    | none => "NaN"
    | some q => toString q

/-- A JSON value. -/
inductive Json (N : Type) where
  | null
  | bool (b : Bool)
  | num (n : N)
  | str (s : String)
  | arr (xs : List (Json N))
  | obj (fields : List (String × Json N))

/-- The fields of a JSON object. -/
abbrev JsonObject (N : Type) := List (String × Json N)

variable {N : Type}

/-! ### Decidable equality -/

section DecEq

variable [DecidableEq N]

mutual

/-- Equality of JSON values is decidable, by recursion on the first one. -/
def Json.decEq : (a b : Json N) → Decidable (a = b)
  | .null, .null => isTrue rfl
  | .bool a, .bool b => decidable_of_iff (a = b) (by simp)
  | .num a, .num b => decidable_of_iff (a = b) (by simp)
  | .str a, .str b => decidable_of_iff (a = b) (by simp)
  | .arr a, .arr b => @decidable_of_iff _ (a = b) (by simp) (Json.decEqList a b)
  | .obj a, .obj b => @decidable_of_iff _ (a = b) (by simp) (Json.decEqFields a b)
  | .null, .bool _ | .null, .num _ | .null, .str _ | .null, .arr _ | .null, .obj _ => isFalse nofun
  | .bool _, .null | .bool _, .num _ | .bool _, .str _ | .bool _, .arr _ | .bool _, .obj _ => isFalse nofun
  | .num _, .null | .num _, .bool _ | .num _, .str _ | .num _, .arr _ | .num _, .obj _ => isFalse nofun
  | .str _, .null | .str _, .bool _ | .str _, .num _ | .str _, .arr _ | .str _, .obj _ => isFalse nofun
  | .arr _, .null | .arr _, .bool _ | .arr _, .num _ | .arr _, .str _ | .arr _, .obj _ => isFalse nofun
  | .obj _, .null | .obj _, .bool _ | .obj _, .num _ | .obj _, .str _ | .obj _, .arr _ => isFalse nofun

/-- Equality of lists of JSON values. -/
def Json.decEqList : (a b : List (Json N)) → Decidable (a = b)
  | [], [] => isTrue rfl
  | [], _ :: _ => isFalse nofun
  | _ :: _, [] => isFalse nofun
  | x :: xs, y :: ys =>
    @decidable_of_iff _ (x = y ∧ xs = ys) (by simp)
      (@instDecidableAnd _ _ (Json.decEq x y) (Json.decEqList xs ys))

/-- Equality of the fields of JSON objects. -/
def Json.decEqFields : (a b : List (String × Json N)) → Decidable (a = b)
  | [], [] => isTrue rfl
  | [], _ :: _ => isFalse nofun
  | _ :: _, [] => isFalse nofun
  | (k, x) :: xs, (l, y) :: ys =>
    @decidable_of_iff _ ((k = l ∧ x = y) ∧ xs = ys) (by simp)
      (@instDecidableAnd _ _ (@instDecidableAnd _ _ (String.decEq k l) (Json.decEq x y)) (Json.decEqFields xs ys))

end

instance : DecidableEq (Json N) := Json.decEq

end DecEq

/-! ### Fields and `??` -/

/-- `fields.k`, the first field of that name. -/
def JsonObject.prop (fields : JsonObject N) (k : String) : Option (Json N) :=
  fields.lookup k

/-- An object literal: a field that holds `undefined` is absent. -/
def object (fields : List (String × Option (Json N))) : JsonObject N :=
  fields.filterMap fun f => f.2.map fun v => (f.1, v)

@[simp] theorem prop_object_nil (k : String) :
    JsonObject.prop (object ([] : List (String × Option (Json N)))) k = none :=
  rfl

/-- Of two fields of one name, the one that is defined first counts. -/
@[simp] theorem prop_object_cons_self (k : String) (v : Option (Json N)) (fields : List (String × Option (Json N))) :
    JsonObject.prop (object ((k, v) :: fields)) k = v.or (JsonObject.prop (object fields) k) := by
  cases v <;> simp [object, JsonObject.prop]

@[simp] theorem prop_object_cons_of_ne {k l : String} (h : k ≠ l) (v : Option (Json N))
    (fields : List (String × Option (Json N))) :
    JsonObject.prop (object ((l, v) :: fields)) k = JsonObject.prop (object fields) k := by
  cases v with
  | none => simp [object]
  | some v =>
    have hne : (k == l) = false := by simpa using h
    simp [object, JsonObject.prop, List.lookup_cons, hne]

/-- `x?.k`.  A value that is not an object has none of the fields a program asks for. -/
def Json.prop : Json N → String → Option (Json N)
  | .obj fields, k => JsonObject.prop fields k
  | _, _ => none

/-- `x?.k` for an `x` that may be `undefined`. -/
def field (x : Option (Json N)) (k : String) : Option (Json N) :=
  x.bind fun v => v.prop k

/-- `a ?? b`: `b` when `a` is `undefined` or `null`. -/
def coalesce (a b : Option (Json N)) : Option (Json N) :=
  match a with
  | none | some .null => b
  | some v => some v

/-- `a ?? undefined`. -/
def defined (a : Option (Json N)) : Option (Json N) := coalesce a none

/-- `typeof x === 'string'` -/
def asString : Option (Json N) → Option String
  | some (.str s) => some s
  | _ => none

/-- `x === s` for a string `s` -/
def Json.is : Json N → String → Bool
  | .str t, s => t = s
  | _, _ => false

/-- `typeof x === 'boolean'` -/
def asBool : Option (Json N) → Option Bool
  | some (.bool b) => some b
  | _ => none

/-- `Array.isArray(x)` -/
def asArray : Option (Json N) → Option (List (Json N))
  | some (.arr xs) => some xs
  | _ => none

/-- The strings of a list of values, in order. -/
def strings (xs : List (Json N)) : List String :=
  xs.filterMap fun x => asString (some x)

/-! ### Coercions -/

mutual

/-- `String(x)` and `Number(x)` do not throw: of an object they call `toString`, and no value of its own can be called;
of an array they convert the items. -/
def Json.convertible : Json N → Bool
  | .obj fields => (fields.lookup "toString").isNone
  | .arr xs => Json.allConvertible xs
  | .null | .bool _ | .num _ | .str _ => true

def Json.allConvertible : List (Json N) → Bool
  | [] => true
  | x :: xs => x.convertible && Json.allConvertible xs

end

/-- The same for an `x` that may be `undefined`. -/
def converts (x : Option (Json N)) : Bool := x.all Json.convertible

section Coercions

variable [JsNumber N]

mutual

/-- `String(x)` of a value that is `convertible` -/
def Json.toJsString : Json N → String
  | .null => "null"
  | .bool b => if b then "true" else "false"
  | .num n => JsNumber.format n
  | .str s => s
  | .arr xs => ",".intercalate (Json.joined xs)
  | .obj _ => "[object Object]"

/-- The items `Array.prototype.join` writes: a `null` item is the empty string. -/
def Json.joined : List (Json N) → List String
  | [] => []
  | .null :: xs => "" :: Json.joined xs
  | x :: xs => x.toJsString :: Json.joined xs

end

/-- `String(x ?? d)` -/
def stringOr (x : Option (Json N)) (d : String) : String :=
  match defined x with
  | none => d
  | some v => v.toJsString

/-- `Number(x)` of a value that is `convertible` -/
def toNumber : Option (Json N) → N
  | none => JsNumber.nan
  | some .null => JsNumber.ofNat 0
  | some (.bool b) => JsNumber.ofNat b.toNat
  | some (.num n) => n
  | some v => JsNumber.parse v.toJsString

/-- `Boolean(x)` -/
def truthy : Option (Json N) → Bool
  | none | some .null => false
  | some (.bool b) => b
  | some (.num n) => JsNumber.truthy n
  | some (.str s) => s ≠ ""
  | some (.arr _) | some (.obj _) => true

end Coercions

/-! ### Strings and arrays -/

/-- A string of JavaScript can hold surrogates without their other half.  Which characters stand for such a surrogate
here is left open, as long as none of ASCII does. -/
structure Unpaired where
  is : Char → Bool
  ascii : ∀ c, c.toNat < 128 → is c = false

/-- Strings that are texts. -/
def Unpaired.none : Unpaired := ⟨fun _ => false, fun _ _ => rfl⟩

/-- The UTF-16 code units of a character. -/
def charUnits (c : Char) : List Nat :=
  if c.toNat < 0x10000 then [c.toNat]
  else [0xD800 + (c.toNat - 0x10000) / 0x400, 0xDC00 + (c.toNat - 0x10000) % 0x400]

/-- `a > b` on strings: lexicographic on UTF-16 code units. -/
def stringGt (a b : String) : Bool :=
  b.toList.flatMap charUnits < a.toList.flatMap charUnits

/-- `s.toUpperCase()`, as far as a comparison with a word of the letters `A`-`Z` other than `I` can tell: besides the
ASCII letters, only `ſ` has such a letter as its upper case. -/
def upperCase (s : String) : String :=
  String.ofList (s.toList.map fun c => if c = 'ſ' then 'S' else c.toUpper)

/-- `s.toLowerCase()`, as far as a comparison with a word of the letters `a`-`z` other than `k` can tell. -/
def lowerCase (s : String) : String :=
  String.ofList (s.toList.map Char.toLower)

/-- White space and line terminators, which `s.trim()` takes off. -/
def isSpace (c : Char) : Bool :=
  [0x9, 0xA, 0xB, 0xC, 0xD, 0x20, 0xA0, 0x1680, 0x2028, 0x2029, 0x202F, 0x205F, 0x3000, 0xFEFF].contains c.toNat ||
    (0x2000 ≤ c.toNat && c.toNat ≤ 0x200A)

/-- `s.trim()` -/
def trim (s : String) : String :=
  String.ofList ((s.toList.dropWhile isSpace).reverse.dropWhile isSpace).reverse

/-- `s.startsWith(p)` -/
def startsWith (s p : String) : Bool :=
  p.toList.isPrefixOf s.toList

/-- `xs.slice(-n)` for `n > 0`: the last `n` items. -/
def sliceLast {α : Type} (n : Nat) (xs : List α) : List α :=
  xs.drop (xs.length - n)

/-- Change the first item that `find` finds, in place. -/
def modifyFirst {α : Type} (p : α → Bool) (f : α → α) : List α → List α
  | [] => []
  | x :: xs => if p x then f x :: xs else x :: modifyFirst p f xs

section Lemmas

variable {α : Type}

/-- What a table has at a key is one of its entries. -/
theorem mem_of_lookup {κ : Type} [BEq κ] [LawfulBEq κ] {l : List (κ × α)} {k : κ} {v : α} (h : l.lookup k = some v) :
    (k, v) ∈ l := by
  obtain ⟨before, after, hsplit, -⟩ := List.lookup_eq_some_iff.1 h
  rw [hsplit]
  simp

theorem lookup_map_values {κ β : Type} [BEq κ] [LawfulBEq κ] (f : κ → α → β) {l : List (κ × α)} {k : κ} :
    (l.map fun p => (p.1, f p.1 p.2)).lookup k = (l.lookup k).map (f k) := by
  induction l with
  | nil => rfl
  | cons p l ih =>
    rw [List.map_cons, List.lookup_cons, List.lookup_cons, ih]
    cases heq : k == p.1 with
    | true => rw [eq_of_beq heq]; rfl
    | false => rfl

theorem exists_lookup_of_mem {κ : Type} [BEq κ] [LawfulBEq κ] {l : List (κ × α)} {p : κ × α} (h : p ∈ l) :
    ∃ v, l.lookup p.1 = some v := by
  cases hlookup : l.lookup p.1 with
  | none => simpa using List.lookup_eq_none_iff.1 hlookup p h
  | some v => exact ⟨v, rfl⟩

/-- Deleting a key leaves the others. -/
theorem lookup_filter_ne {κ : Type} [BEq κ] [LawfulBEq κ] [DecidableEq κ] {l : List (κ × α)} {k k' : κ}
    (h : k' ≠ k) : (l.filter (·.1 ≠ k)).lookup k' = l.lookup k' := by
  induction l with
  | nil => rfl
  | cons p l ih =>
    obtain ⟨j, v⟩ := p
    by_cases hj : j = k
    · subst hj
      rw [List.filter_cons_of_neg (by simp), ih, List.lookup_cons, beq_false_of_ne h]
    · rw [List.filter_cons_of_pos (by simpa using hj), List.lookup_cons, List.lookup_cons, ih]

theorem sliceLast_of_length_le {n : Nat} {xs : List α} (h : xs.length ≤ n) : sliceLast n xs = xs := by
  simp [sliceLast, Nat.sub_eq_zero_of_le h]

theorem length_sliceLast_le (n : Nat) (xs : List α) : (sliceLast n xs).length ≤ n := by
  simp only [sliceLast, List.length_drop]
  omega

/-- The last item survives a slice. -/
theorem sliceLast_append_singleton {n : Nat} (hn : 0 < n) (xs : List α) (x : α) :
    (sliceLast n (xs ++ [x])).getLast? = some x := by
  have hle : xs.length + 1 - n ≤ xs.length := by omega
  simp [sliceLast, List.drop_append_of_le_length hle]

/-- Slicing after every append is slicing once. -/
theorem sliceLast_sliceLast_append (n : Nat) (xs ys : List α) :
    sliceLast n (sliceLast n xs ++ ys) = sliceLast n (xs ++ ys) := by
  unfold sliceLast
  rw [List.length_append, List.length_append, List.length_drop, List.drop_append, List.drop_drop, List.drop_append,
    List.length_drop]
  congr 1
  · congr 1
    omega
  · congr 1
    omega

theorem length_sliceLast (n : Nat) (xs : List α) : (sliceLast n xs).length = min n xs.length := by
  simp only [sliceLast, List.length_drop]
  omega

/-- A list that each step extends and slices holds the last of all that the steps have added. -/
theorem foldl_sliceLast {σ β : Type} {n : Nat} {step : σ → α → σ} (read : σ → List β) (added : α → List β)
    (hstep : ∀ s a, (read s).length ≤ n → read (step s a) = sliceLast n (read s ++ added a)) {s : σ}
    (hs : (read s).length ≤ n) (as : List α) :
    read (as.foldl step s) = sliceLast n (read s ++ as.flatMap added) := by
  induction as generalizing s with
  | nil => rw [List.foldl_nil, List.flatMap_nil, List.append_nil, sliceLast_of_length_le hs]
  | cons a as ih =>
    have hle : (read (step s a)).length ≤ n := by
      rw [hstep s a hs]
      exact length_sliceLast_le n _
    rw [List.foldl_cons, ih hle, hstep s a hs, sliceLast_sliceLast_append, List.flatMap_cons, List.append_assoc]

theorem mem_sliceLast_append_singleton {n : Nat} (hn : 0 < n) (xs : List α) (x : α) : x ∈ sliceLast n (xs ++ [x]) :=
  List.mem_of_getLast? (sliceLast_append_singleton hn xs x)

theorem map_sliceLast {β : Type} (f : α → β) (n : Nat) (xs : List α) :
    (sliceLast n xs).map f = sliceLast n (xs.map f) := by
  simp [sliceLast, List.map_drop]

end Lemmas

theorem Json.is_iff {x : Json N} {s : String} : x.is s = true ↔ x = .str s := by
  cases x <;> simp [Json.is]

theorem stringGt_irrefl (a : String) : stringGt a a = false := by
  simp [stringGt]

theorem stringGt_asymm {a b : String} (h : stringGt a b = true) : stringGt b a = false := by
  simp only [stringGt, decide_eq_true_eq, decide_eq_false_iff_not] at *
  exact List.lt_asymm h

/-- `a > b` is false exactly when `a ≤ b`, which is transitive. -/
theorem stringGt_negTrans {a b c : String} (hab : stringGt a b = false) (hbc : stringGt b c = false) :
    stringGt a c = false := by
  simp only [stringGt, decide_eq_false_iff_not, List.not_lt] at *
  exact List.le_trans hab hbc

theorem converts_none : converts (none : Option (Json N)) = true := rfl

@[simp] theorem converts_str (s : String) : converts (some (.str s) : Option (Json N)) = true := rfl

@[simp] theorem converts_num (n : N) : converts (some (.num n)) = true := rfl

/-- What is `null` or `undefined` converts. -/
theorem converts_defined (x : Option (Json N)) : converts (defined x) = converts x := by
  rcases x with _ | (_ | _ | _ | _ | _ | _) <;> rfl

theorem coalesce_eq_or (a b : Option (Json N)) : coalesce a b = (defined a).or b := by
  rcases a with _ | (_ | _ | _ | _ | _ | _) <;> rfl

end Js

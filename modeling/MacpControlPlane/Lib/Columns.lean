import MacpControlPlane.Lib.Js

/-!
# What the columns of a table take

A `varchar(n)` column takes texts of up to `n` characters, and longer ones whose excess is spaces, which it cuts off.
Neither it nor a `jsonb` column takes the character NUL, in a JSON value neither as part of a string nor of a key.  An
unpaired surrogate is written as the replacement character to a `varchar` column, and refused in a JSON value, where it
is an escape.  An `integer` column takes whole numbers of 32 bits.
-/

namespace Columns

open Js

variable {N : Type}

def noNul (s : String) : Bool := s.toList.all (· ≠ Char.ofNat 0)

/-- `varchar(n)` -/
def varchar (n : Nat) (s : String) : Bool := noNul s && (s.toList.drop n).all (· = ' ')

/-- What a `varchar(n)` column keeps of a text that it takes. -/
def cut (n : Nat) (s : String) : String := String.ofList (s.toList.take n)

/-- What a `varchar(n)` column stores of a text, unless it refuses it. -/
def stored (n : Nat) (s : String) : Option String := if varchar n s then some (cut n s) else none

/-- `integer` -/
def integer (q : Rat) : Bool := q.den = 1 && decide (-2147483648 ≤ q.num) && decide (q.num ≤ 2147483647)

/-- A text in a `jsonb` column. -/
def jsonText (u : Unpaired) (s : String) : Bool := s.toList.all fun c => c ≠ Char.ofNat 0 && !u.is c

/-- A text of ASCII characters other than NUL. -/
def ascii (s : String) : Bool := s.toList.all fun c => c ≠ Char.ofNat 0 && c.toNat < 128

mutual

/-- The keys and the strings in a JSON value. -/
def allStrings (onKey onString : String → Bool) : Json N → Bool
  | .str s => onString s
  | .arr xs => allItems onKey onString xs
  | .obj fields => allFields onKey onString fields
  | .null | .bool _ | .num _ => true

def allItems (onKey onString : String → Bool) : List (Json N) → Bool
  | [] => true
  | x :: xs => allStrings onKey onString x && allItems onKey onString xs

def allFields (onKey onString : String → Bool) : List (String × Json N) → Bool
  | [] => true
  | (k, x) :: fields => onKey k && allStrings onKey onString x && allFields onKey onString fields

end

/-- `jsonb` -/
def jsonb (u : Unpaired) (fields : JsonObject N) : Bool := allFields (jsonText u) (jsonText u) fields

variable {u : Unpaired}

/-! ### Texts -/

theorem noNul_of_jsonText {s : String} (h : jsonText u s = true) : noNul s = true := by
  unfold jsonText at h
  unfold noNul
  rw [List.all_eq_true] at h ⊢
  exact fun c hc => (Bool.and_eq_true _ _ ▸ h c hc).1

theorem jsonText_of_ascii {s : String} (h : ascii s = true) : jsonText u s = true := by
  unfold ascii at h
  unfold jsonText
  rw [List.all_eq_true] at h ⊢
  intro c hc
  have hchar := h c hc
  rw [Bool.and_eq_true, decide_eq_true_eq (p := c.toNat < 128)] at hchar
  rw [Bool.and_eq_true, u.ascii c hchar.2]
  exact ⟨hchar.1, rfl⟩

theorem noNul_of_ascii {s : String} (h : ascii s = true) : noNul s = true :=
  noNul_of_jsonText (jsonText_of_ascii h : jsonText .none s = true)

/-- A constant has its characters in sight. -/
theorem ascii_ofList {cs : List Char} (h : (cs.all fun c => c ≠ Char.ofNat 0 && c.toNat < 128) = true) :
    ascii (String.ofList cs) = true := by
  rwa [ascii, String.toList_ofList]

theorem varchar_ofList {n : Nat} {cs : List Char} (h : (cs.all fun c => c ≠ Char.ofNat 0 && c.toNat < 128) = true)
    (hn : cs.length ≤ n) : varchar n (String.ofList cs) = true := by
  rw [varchar, noNul_of_ascii (ascii_ofList h), String.toList_ofList, List.drop_eq_nil_of_le hn]
  rfl

theorem jsonText_append {s t : String} : jsonText u (s ++ t) = (jsonText u s && jsonText u t) := by
  simp [jsonText]

theorem ascii_append {s t : String} : ascii (s ++ t) = (ascii s && ascii t) := by
  simp [ascii]

theorem jsonText_intercalate {sep : String} (hsep : jsonText u sep = true) {xs : List String}
    (h : ∀ s ∈ xs, jsonText u s = true) : jsonText u (sep.intercalate xs) = true := by
  induction xs with
  | nil =>
    rw [String.intercalate_nil]
    rfl
  | cons x xs ih =>
    have hx := h x List.mem_cons_self
    have hxs := ih fun s hs => h s (List.mem_cons_of_mem x hs)
    cases xs with
    | nil => rwa [String.intercalate_singleton]
    | cons y xs =>
      rw [String.intercalate_cons_cons, jsonText_append, jsonText_append, hx, hsep, hxs]
      rfl

/-! ### What is stored -/

theorem isSome_stored {n : Nat} {s : String} : (stored n s).isSome = varchar n s := by
  unfold stored
  split <;> simp_all

theorem cut_of_length_le {n : Nat} {s : String} (hn : s.length ≤ n) : cut n s = s := by
  rw [cut, List.take_of_length_le (by rwa [String.length_toList]), String.ofList_toList]

/-- A text of up to `n` characters is stored as it is. -/
theorem stored_of_length_le {n : Nat} {s : String} (h : noNul s = true) (hn : s.length ≤ n) : stored n s = some s := by
  have hvarchar : varchar n s = true := by
    rw [varchar, h, List.drop_eq_nil_of_le (by rwa [String.length_toList])]
    rfl
  rw [stored, if_pos hvarchar, cut_of_length_le hn]

/-- Only spaces are cut off. -/
theorem stored_eq_some {n : Nat} {s t : String} (h : stored n s = some t) :
    noNul t = true ∧ t.length ≤ n ∧ ∃ spaces : List Char, (∀ c ∈ spaces, c = ' ') ∧ s.toList = t.toList ++ spaces := by
  unfold stored at h
  rw [Option.ite_none_right_eq_some] at h
  obtain ⟨hvarchar, heq⟩ := h
  obtain rfl := Option.some.inj heq
  unfold varchar at hvarchar
  rw [Bool.and_eq_true, List.all_eq_true] at hvarchar
  obtain ⟨hnul, hspaces⟩ := hvarchar
  refine ⟨?_, ?_, s.toList.drop n, fun c hc => of_decide_eq_true (hspaces c hc), ?_⟩
  · unfold noNul cut at *
    rw [String.toList_ofList, List.all_eq_true] at *
    exact fun c hc => hnul c (List.mem_of_mem_take hc)
  · rw [cut, String.length_ofList, List.length_take]
    exact Nat.min_le_left _ _
  · rw [cut, String.toList_ofList, List.take_append_drop]

/-- What is stored fits. -/
theorem stored_stored {n : Nat} {s t : String} (h : stored n s = some t) : stored n t = some t := by
  obtain ⟨hnul, hlength, -⟩ := stored_eq_some h
  exact stored_of_length_le hnul hlength

/-- From a text that leaves room nothing has been cut off. -/
theorem eq_of_stored_of_lt {n : Nat} {s t : String} (h : stored n s = some t) (hn : t.length < n) : s = t := by
  unfold stored at h
  rw [Option.ite_none_right_eq_some] at h
  obtain rfl := Option.some.inj h.2
  rw [cut, String.length_ofList, List.length_take, String.length_toList] at hn
  exact (cut_of_length_le (by omega)).symm

/-! ### JSON values -/

section Json

variable {onKey onString : String → Bool}

@[simp] theorem allStrings_str {s : String} : allStrings onKey onString (.str s : Json N) = onString s := rfl

@[simp] theorem allStrings_num {n : N} : allStrings onKey onString (.num n) = true := rfl

@[simp] theorem allStrings_obj {fields : JsonObject N} :
    allStrings (jsonText u) (jsonText u) (.obj fields) = jsonb u fields := rfl

theorem allItems_iff {xs : List (Json N)} :
    allItems onKey onString xs = true ↔ ∀ x ∈ xs, allStrings onKey onString x = true := by
  induction xs with
  | nil => simp [allItems]
  | cons x xs ih => simp [allItems, ih]

theorem allFields_iff {fields : JsonObject N} :
    allFields onKey onString fields = true ↔
      ∀ f ∈ fields, onKey f.1 = true ∧ allStrings onKey onString f.2 = true := by
  induction fields with
  | nil => simp [allFields]
  | cons f fields ih =>
    obtain ⟨k, x⟩ := f
    simp [allFields, ih]

theorem allFields_append {fields more : JsonObject N} :
    allFields onKey onString (fields ++ more) = (allFields onKey onString fields && allFields onKey onString more) := by
  induction fields with
  | nil => rfl
  | cons f fields ih =>
    obtain ⟨k, x⟩ := f
    simp [allFields, ih, Bool.and_assoc]

theorem allFields_object_nil :
    allFields onKey onString (object ([] : List (String × Option (Json N)))) = true := rfl

/-- A field that is absent has no strings. -/
theorem allFields_object_cons {k : String} (hk : onKey k = true) {x : Option (Json N)}
    {fields : List (String × Option (Json N))} :
    allFields onKey onString (object ((k, x) :: fields)) =
      (x.all (allStrings onKey onString) && allFields onKey onString (object fields)) := by
  cases x <;> simp [object, allFields, hk]

@[simp] theorem jsonb_object_nil : jsonb u (object ([] : List (String × Option (Json N)))) = true :=
  allFields_object_nil

@[simp] theorem jsonb_object_cons {k : String} (hk : ascii k = true) {x : Option (Json N)}
    {fields : List (String × Option (Json N))} :
    jsonb u (object ((k, x) :: fields)) = (x.all (allStrings (jsonText u) (jsonText u)) && jsonb u (object fields)) :=
  allFields_object_cons (jsonText_of_ascii hk)

@[simp] theorem jsonb_object_append {fields more : List (String × Option (Json N))} :
    jsonb u (object (fields ++ more)) = (jsonb u (object fields) && jsonb u (object more)) := by
  unfold jsonb
  rw [← allFields_append]
  simp [object]

/-- A field of an object. -/
theorem allStrings_prop {fields : JsonObject N} (h : allFields onKey onString fields = true) {k : String} {x : Json N}
    (hx : JsonObject.prop fields k = some x) : allStrings onKey onString x = true :=
  (allFields_iff.1 h (k, x) (mem_of_lookup hx)).2

mutual

/-- `String(x)` has only characters of the strings in `x`, of numbers, and of constants. -/
theorem jsonText_toJsString [JsNumber N] (hformat : ∀ n : N, jsonText u (JsNumber.format n) = true) :
    (x : Json N) → allStrings onKey (jsonText u) x = true → jsonText u x.toJsString = true
  | .null, _ => jsonText_of_ascii (by decide : ascii "null" = true)
  | .bool true, _ => jsonText_of_ascii (by decide : ascii "true" = true)
  | .bool false, _ => jsonText_of_ascii (by decide : ascii "false" = true)
  | .num n, _ => hformat n
  | .str _, h => h
  | .arr xs, h => jsonText_intercalate (jsonText_of_ascii (by decide)) (jsonText_joined hformat xs h)
  | .obj _, _ => jsonText_of_ascii (by decide : ascii "[object Object]" = true)

theorem jsonText_joined [JsNumber N] (hformat : ∀ n : N, jsonText u (JsNumber.format n) = true) :
    (xs : List (Json N)) → allItems onKey (jsonText u) xs = true → ∀ s ∈ Json.joined xs, jsonText u s = true
  | [], _ => by simp [Json.joined]
  | x :: xs, h => by
    rw [allItems, Bool.and_eq_true] at h
    have hx := jsonText_toJsString hformat x h.1
    have hxs := jsonText_joined hformat xs h.2
    intro s hs
    by_cases hnull : x = .null
    · rw [hnull, Json.joined, List.mem_cons] at hs
      rcases hs with rfl | hs
      · exact jsonText_of_ascii (by decide)
      · exact hxs s hs
    · rw [Json.joined, List.mem_cons] at hs
      rcases hs with rfl | hs
      · exact hx
      · exact hxs s hs
      · exact hnull

end

end Json

/-! ### Numbers -/

theorem ascii_toString_nat (n : Nat) : ascii (toString n) = true := by
  unfold ascii
  rw [List.all_eq_true]
  intro c hc
  have hdigit : c.isDigit = true := by
    rw [Nat.toString_eq_repr, Nat.repr, String.toList_ofList] at hc
    exact Nat.isDigit_of_mem_toDigits (by decide) (by decide) hc
  have hle : c.toNat ≤ 57 := by
    rw [Char.isDigit, Bool.and_eq_true, decide_eq_true_eq, decide_eq_true_eq] at hdigit
    exact hdigit.2
  rw [Bool.and_eq_true, decide_eq_true_eq, decide_eq_true_eq]
  refine ⟨?_, by omega⟩
  rintro rfl
  revert hdigit
  decide

theorem ascii_toString_int (i : Int) : ascii (toString i) = true := by
  cases i with
  | ofNat n => exact ascii_toString_nat n
  | negSucc n =>
    have h : toString (Int.negSucc n) = "-" ++ toString (n + 1) := rfl
    rw [h, ascii_append, ascii_toString_nat]
    decide

/-- Exact numbers are written in ASCII. -/
theorem ascii_format (a : Option Rat) : ascii (JsNumber.format a) = true := by
  cases a with
  | none => exact (by decide : ascii "NaN" = true)
  | some q =>
    change ascii (toString q) = true
    have h : toString q = if q.den = 1 then toString q.num else toString q.num ++ "/" ++ toString q.den := rfl
    rw [h]
    split
    · exact ascii_toString_int _
    · rw [ascii_append, ascii_append, ascii_toString_int, ascii_toString_nat]
      decide

end Columns

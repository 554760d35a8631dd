import MacpControlPlane.Lib.JsonText

/-!
# Reading what `JSON.stringify` has written

`JSON.parse` reads a value back from its text if its numbers are read back from theirs and none of its objects has two
fields of one name (`parse_stringify`), so that different values have different texts (`stringify_injective`).  The text
is a single line (`newline_notMem_stringifyChars`), and lines with a newline each, or between them, are read back one
by one (`textLines_join`, `textLines_intercalate`).
-/

namespace JsonText

open Js

variable {N : Type}

/-! ### String literals -/

/-- Unicode escapes of the control characters. -/
theorem codeUnit_control {n : Nat} (h : n < 32) (more : List Char) :
    codeUnit ('0' :: '0' :: hexDigit (n / 16) :: hexDigit (n % 16) :: more) = some (n, more) := by
  have hdigits : ∀ n < 32, hexValue (hexDigit (n / 16)) = some (n / 16) ∧
      hexValue (hexDigit (n % 16)) = some (n % 16) := by decide
  obtain ⟨hhigh, hlow⟩ := hdigits n h
  have hzero : hexValue '0' = some 0 := by decide
  simp only [codeUnit, hhigh, hlow, hzero, Option.pure_def, Option.bind_eq_bind, Option.bind_some]
  congr 2
  omega

/-- Every short escape is read back. -/
theorem escape_short {c letter : Char} (h : shortEscapes.lookup c = some letter) (more : List Char) :
    escape (letter :: more) = some (c, more) := by
  have hall : ∀ short ∈ shortEscapes, escape (short.2 :: more) = some (short.1, more) := by
    intro short hshort
    simp only [shortEscapes, List.mem_cons, List.not_mem_nil, or_false] at hshort
    rcases hshort with rfl | rfl | rfl | rfl | rfl | rfl | rfl <;> rfl
  exact hall (c, letter) (mem_of_lookup h)

/-- A character is written as itself, or as a backslash and an escape that is read back. -/
theorem escapeChar_cases (c : Char) :
    (escapeChar c = [c] ∧ c ≠ '"' ∧ c ≠ '\\' ∧ ¬ c.toNat < 32) ∨
      ∃ body, escapeChar c = '\\' :: body ∧ ∀ more, escape (body ++ more) = some (c, more) := by
  unfold escapeChar
  cases hshort : shortEscapes.lookup c with
  | some letter => exact Or.inr ⟨[letter], rfl, escape_short hshort⟩
  | none =>
    by_cases hcontrol : c.toNat < 32
    · right
      refine ⟨['u', '0', '0', hexDigit (c.toNat / 16), hexDigit (c.toNat % 16)], if_pos hcontrol, fun more => ?_⟩
      simp only [List.cons_append, List.nil_append, escape, if_true, unicodeEscape, codeUnit_control hcontrol,
        Option.map_some]
      rw [if_neg (by omega), if_neg (by omega), Char.ofNat_toNat]
    · left
      refine ⟨if_neg hcontrol, ?_, ?_, hcontrol⟩
      · rintro rfl
        cases hshort
      · rintro rfl
        cases hshort

theorem literal_quote (cs : List Char) {fuel : Nat} (hfuel : cs.length < fuel) (more : List Char) :
    literal fuel (cs.flatMap escapeChar ++ '"' :: more) = some (cs, more) := by
  induction cs generalizing fuel with
  | nil =>
    obtain ⟨fuel, rfl⟩ : ∃ k, fuel = k + 1 := ⟨fuel - 1, by simp at hfuel; omega⟩
    simp [literal]
  | cons c cs ih =>
    obtain ⟨fuel, rfl⟩ : ∃ k, fuel = k + 1 := ⟨fuel - 1, by simp at hfuel; omega⟩
    have hrest : literal fuel (cs.flatMap escapeChar ++ '"' :: more) = some (cs, more) := ih (by simpa using hfuel)
    rw [List.flatMap_cons, List.append_assoc]
    rcases escapeChar_cases c with ⟨hplain, hquote, hbackslash, hcontrol⟩ | ⟨body, hbody, hescape⟩
    · rw [hplain]
      simp only [List.singleton_append, literal, if_neg hquote, if_neg hbackslash, if_neg hcontrol, hrest,
        Option.map_some]
    · rw [hbody, List.cons_append]
      simp only [literal, if_neg (show ¬ '\\' = '"' by decide), if_true, hescape, Option.bind_some, hrest,
        Option.map_some]

/-- A literal is longer than the string, by its quotation marks at least. -/
theorem length_quote (s : String) : s.length + 2 ≤ (quote s).length := by
  have hlength : ∀ cs : List Char, cs.length ≤ (cs.flatMap escapeChar).length := by
    intro cs
    induction cs with
    | nil => exact Nat.le_refl _
    | cons c cs ih =>
      rw [List.flatMap_cons, List.length_append, List.length_cons]
      have hone : 1 ≤ (escapeChar c).length := by
        rcases escapeChar_cases c with ⟨hplain, -⟩ | ⟨body, hbody, -⟩
        · simp [hplain]
        · simp [hbody]
      omega
  have hs := hlength s.toList
  rw [String.length_toList] at hs
  simp only [quote, List.length_cons, List.length_append, List.length_nil]
  omega

theorem expect_cons {c : Char} (h : isSpace c = false) (rest : List Char) : expect c (c :: rest) = some rest := by
  unfold expect
  rw [List.dropWhile_cons_of_neg (by simp [h])]
  exact if_pos rfl

theorem expect_cons_of_ne {c d : Char} (h : isSpace d = false) (hne : d ≠ c) (rest : List Char) :
    expect c (d :: rest) = none := by
  unfold expect
  rw [List.dropWhile_cons_of_neg (by simp [h])]
  exact if_neg hne

/-! ### Numbers -/

/-- The text does not go on with a character that a number can go on with. -/
def NumberEnds (text : List Char) : Prop :=
  ∀ c ∈ text.head?, c.isDigit = false ∧ c ≠ '.' ∧ c ≠ 'e' ∧ c ≠ 'E'

theorem takeWhile_append_of_ends {p : Char → Bool} {more : List Char} (h : ∀ c ∈ more.head?, p c = false)
    (cs : List Char) : (cs ++ more).takeWhile p = cs.takeWhile p := by
  induction cs with
  | nil =>
    cases more with
    | nil => rfl
    | cons c more => exact List.takeWhile_cons_of_neg (by simpa using h c rfl)
  | cons c cs ih =>
    by_cases hc : p c = true
    · rw [List.cons_append, List.takeWhile_cons_of_pos hc, List.takeWhile_cons_of_pos hc, ih]
    · rw [List.cons_append, List.takeWhile_cons_of_neg hc, List.takeWhile_cons_of_neg hc]

theorem dropWhile_append_of_ends {p : Char → Bool} {more : List Char} (h : ∀ c ∈ more.head?, p c = false)
    (cs : List Char) : (cs ++ more).dropWhile p = cs.dropWhile p ++ more := by
  induction cs with
  | nil =>
    cases more with
    | nil => rfl
    | cons c more => exact List.dropWhile_cons_of_neg (by simpa using h c rfl)
  | cons c cs ih =>
    by_cases hc : p c = true
    · rw [List.cons_append, List.dropWhile_cons_of_pos hc, List.dropWhile_cons_of_pos hc, ih]
    · rw [List.cons_append, List.dropWhile_cons_of_neg hc, List.dropWhile_cons_of_neg hc, List.cons_append]

variable {more : List Char}

theorem digits_append (hmore : NumberEnds more) {cs ds rest : List Char} (h : digits cs = some (ds, rest)) :
    digits (cs ++ more) = some (ds, rest ++ more) := by
  have hends : ∀ c ∈ more.head?, c.isDigit = false := fun c hc => (hmore c hc).1
  unfold digits at *
  rw [takeWhile_append_of_ends hends, dropWhile_append_of_ends hends]
  by_cases hnil : cs.takeWhile Char.isDigit = []
  · simp [hnil] at h
  · simp only [hnil, if_false, Option.some.injEq, Prod.mk.injEq] at h ⊢
    exact ⟨h.1, by rw [h.2]⟩

theorem fraction_append (hmore : NumberEnds more) {cs ds rest : List Char} (h : fraction cs = some (ds, rest)) :
    fraction (cs ++ more) = some (ds, rest ++ more) := by
  unfold fraction at h
  split at h
  · obtain ⟨⟨ds', rest'⟩, hdigits, heq⟩ := Option.map_eq_some_iff.1 h
    obtain ⟨rfl, rfl⟩ := Prod.mk.inj heq
    simp [fraction, digits_append hmore hdigits]
  · rename_i hdot
    obtain ⟨rfl, rfl⟩ := Prod.mk.inj (Option.some.inj h)
    unfold fraction
    split
    · rename_i tail htail
      cases cs with
      | nil => exact absurd rfl (hmore '.' (by simp [show more = _ from htail])).2.1
      | cons c cs => exact absurd (by rw [(List.cons.inj htail).1]) (hdot cs)
    · rfl

theorem sign_append {signs cs : List Char} (hcs : cs ≠ []) :
    sign signs (cs ++ more) = ((sign signs cs).1, (sign signs cs).2 ++ more) := by
  cases cs with
  | nil => exact absurd rfl hcs
  | cons c cs =>
    by_cases hc : c ∈ signs
    · simp [sign, hc]
    · simp [sign, hc]

theorem digits_nil : digits [] = none := rfl

theorem exponent_append (hmore : NumberEnds more) {cs ds rest : List Char} (h : exponent cs = some (ds, rest)) :
    exponent (cs ++ more) = some (ds, rest ++ more) := by
  have hletter : ∀ {c : Char} {cs : List Char}, (c = 'e' ∨ c = 'E') → exponent (c :: cs) =
      (digits (sign ['+', '-'] cs).2).map fun d => ('e' :: (sign ['+', '-'] cs).1 ++ d.1, d.2) := by
    rintro c cs (rfl | rfl) <;> rfl
  have hother : ∀ {cs : List Char}, (∀ c ∈ cs.head?, c ≠ 'e' ∧ c ≠ 'E') → exponent cs = some ([], cs) := by
    intro cs hcs
    unfold exponent
    split
    · exact absurd rfl (hcs 'e' rfl).1
    · exact absurd rfl (hcs 'E' rfl).2
    · rfl
  cases cs with
  | nil =>
    obtain ⟨rfl, rfl⟩ := Prod.mk.inj (Option.some.inj h)
    exact hother fun c hc => (hmore c hc).2.2
  | cons c cs =>
    by_cases hc : c = 'e' ∨ c = 'E'
    · rw [hletter hc] at h
      rw [List.cons_append, hletter hc]
      -- the digits of the exponent are there, so that the sign has not looked beyond the text
      have hcs : cs ≠ [] := by
        rintro rfl
        simp [sign, digits_nil] at h
      obtain ⟨⟨ds', rest'⟩, hdigits, heq⟩ := Option.map_eq_some_iff.1 h
      obtain ⟨rfl, rfl⟩ := Prod.mk.inj heq
      rw [sign_append hcs, digits_append hmore hdigits]
      rfl
    · have hhead : ∀ d ∈ (c :: cs).head?, d ≠ 'e' ∧ d ≠ 'E' := by
        rintro d ⟨⟩
        exact ⟨fun h => hc (Or.inl h), fun h => hc (Or.inr h)⟩
      rw [hother hhead] at h
      obtain ⟨rfl, rfl⟩ := Prod.mk.inj (Option.some.inj h)
      exact hother hhead

variable [JsNumber N]

/-- The digits before the fraction, of which only the last may be the first `0`. -/
def integer : List Char → Option (List Char × List Char)
  | '0' :: rest => some (['0'], rest)
  | text => digits text

theorem integer_append (hmore : NumberEnds more) {cs ds rest : List Char} (h : integer cs = some (ds, rest)) :
    integer (cs ++ more) = some (ds, rest ++ more) := by
  unfold integer at h
  split at h
  · obtain ⟨rfl, rfl⟩ := Prod.mk.inj (Option.some.inj h)
    rfl
  · rename_i hzero
    unfold integer
    split
    · rename_i tail htail
      cases cs with
      | nil => cases h
      | cons c cs => exact absurd (by rw [(List.cons.inj htail).1]) (hzero cs)
    · exact digits_append hmore h

theorem number_eq (text : List Char) : number (N := N) text =
    (integer (sign ['-'] (text.dropWhile isSpace)).2).bind fun int =>
      (fraction int.2).bind fun frac => (exponent frac.2).bind fun exp =>
        some (JsNumber.parse (String.ofList
          ((sign ['-'] (text.dropWhile isSpace)).1 ++ int.1 ++ frac.1 ++ exp.1)), exp.2) := by
  unfold number
  generalize sign ['-'] (text.dropWhile isSpace) = signed
  obtain ⟨s, rest⟩ := signed
  simp only [Option.bind_eq_bind, Option.pure_def]
  split
  · rfl
  · rename_i hzero
    have hdigits : integer rest = digits rest := by
      unfold integer
      split
      · exact absurd rfl (hzero _)
      · rfl
    rw [hdigits]

theorem number_append (hmore : NumberEnds more) {cs rest : List Char} {n : N} (hcs : ∀ c ∈ cs, isSpace c = false)
    (h : number cs = some (n, rest)) : number (cs ++ more) = some (n, rest ++ more) := by
  have hne : cs ≠ [] := by
    rintro rfl
    cases h
  have hspace : ∀ more : List Char, (cs ++ more).dropWhile isSpace = cs ++ more := by
    obtain ⟨c, cs, rfl⟩ := List.exists_cons_of_ne_nil hne
    exact fun more => List.dropWhile_cons_of_neg (by simp [hcs c])
  have hspace' : cs.dropWhile isSpace = cs := by simpa using hspace []
  rw [number_eq] at h ⊢
  rw [hspace'] at h
  rw [hspace, sign_append hne]
  simp only [Option.bind_eq_some_iff, Option.some.injEq, Prod.mk.injEq, Prod.exists] at h ⊢
  obtain ⟨int, rest₁, hint, frac, rest₂, hfrac, exp, rest₃, hexp, hn, rfl⟩ := h
  exact ⟨int, _, integer_append hmore hint, frac, _, fraction_append hmore hfrac, exp, _,
    exponent_append hmore hexp, hn, rfl⟩

/-- A number begins with its sign or a digit. -/
theorem number_head {cs rest : List Char} {n : N} (h : number cs = some (n, rest)) :
    ∃ c cs', cs.dropWhile isSpace = c :: cs' ∧ (c = '-' ∨ c.isDigit = true) := by
  rw [number_eq] at h
  cases hcs : cs.dropWhile isSpace with
  | nil =>
    rw [hcs] at h
    cases h
  | cons c cs' =>
    refine ⟨c, cs', rfl, Classical.byContradiction fun hother => ?_⟩
    have hminus : c ≠ '-' := fun hc => hother (Or.inl hc)
    have hdigit : c.isDigit = false := by simpa using fun hc => hother (Or.inr hc)
    have hint : integer (c :: cs') = none := by
      unfold integer
      split
      · rename_i tail htail
        rw [(List.cons.inj htail).1] at hdigit
        cases hdigit
      · simp [digits, hdigit]
    rw [hcs] at h
    simp [sign, hminus, hint] at h

/-! ### Values -/

theorem expect_head {c d : Char} {text rest : List Char} (h : text.dropWhile isSpace = d :: rest) (hne : d ≠ c) :
    expect c text = none := by
  unfold expect
  rw [h]
  exact if_neg hne

theorem word_append {w : String} {c : Char} {cs : List Char} (hw : w.toList = c :: cs) (hc : isSpace c = false)
    (more : List Char) : word w (w.toList ++ more) = some more := by
  unfold word
  rw [← String.length_toList, hw, List.cons_append, List.dropWhile_cons_of_neg (by simp [hc])]
  simp

theorem word_head {w : String} {c d : Char} {cs text rest : List Char} (hw : w.toList = c :: cs)
    (h : text.dropWhile isSpace = d :: rest) (hne : d ≠ c) : word w text = none := by
  unfold word
  rw [h, hw]
  simp [List.isPrefixOf, Ne.symm hne]

theorem value_number {cs rest : List Char} {n : N} (h : number cs = some (n, rest)) (fuel : Nat) :
    value (fuel + 1) cs = some (.num n, rest) := by
  obtain ⟨c, cs', hhead, hc⟩ := number_head h
  have hne : ∀ d : Char, d ≠ '-' → d.isDigit = false → c ≠ d := by
    rintro d hminus hdigit rfl
    rcases hc with hc | hc
    · exact hminus hc
    · rw [hdigit] at hc
      cases hc
  unfold value
  rw [expect_head hhead (hne '"' (by decide) (by decide)), expect_head hhead (hne '{' (by decide) (by decide)),
    expect_head hhead (hne '[' (by decide) (by decide)), word_head rfl hhead (hne 't' (by decide) (by decide)),
    word_head rfl hhead (hne 'f' (by decide) (by decide)), word_head rfl hhead (hne 'n' (by decide) (by decide)), h]
  rfl

theorem value_quote (s : String) {fuel : Nat} (hfuel : s.length < fuel) (more : List Char) :
    value (N := N) (fuel + 1) (quote s ++ more) = some (.str s, more) := by
  have hliteral : literal fuel (s.toList.flatMap escapeChar ++ '"' :: more) = some (s.toList, more) :=
    literal_quote s.toList (by rwa [String.length_toList]) more
  unfold value quote
  rw [List.cons_append, List.append_assoc, List.singleton_append, expect_cons (by decide), Option.bind_some, hliteral]
  simp

/-- No value but a word begins with its first letter. -/
theorem value_letter {c : Char} (hspace : isSpace c = false) (hc : c ≠ '"' ∧ c ≠ '{' ∧ c ≠ '[') (fuel : Nat)
    (text : List Char) : value (N := N) (fuel + 1) (c :: text) =
      (((word "true" (c :: text)).map fun rest => (.bool true, rest)) <|>
      ((word "false" (c :: text)).map fun rest => (.bool false, rest)) <|>
      ((word "null" (c :: text)).map fun rest => (.null, rest)) <|>
      (number (c :: text)).map fun (n, rest) => (.num n, rest)) := by
  unfold value
  rw [expect_cons_of_ne hspace hc.1, expect_cons_of_ne hspace hc.2.1, expect_cons_of_ne hspace hc.2.2]
  rfl

theorem value_true (fuel : Nat) (more : List Char) :
    value (N := N) (fuel + 1) ("true".toList ++ more) = some (.bool true, more) := by
  have hword : word "true" ('t' :: ("rue".toList ++ more)) = some more := word_append rfl (by decide) more
  change value (fuel + 1) ('t' :: ("rue".toList ++ more)) = _
  rw [value_letter (by decide) (by decide), hword]
  rfl

theorem value_false (fuel : Nat) (more : List Char) :
    value (N := N) (fuel + 1) ("false".toList ++ more) = some (.bool false, more) := by
  have hword : word "false" ('f' :: ("alse".toList ++ more)) = some more := word_append rfl (by decide) more
  change value (fuel + 1) ('f' :: ("alse".toList ++ more)) = _
  rw [value_letter (by decide) (by decide), word_head rfl (List.dropWhile_cons_of_neg (by decide)) (by decide), hword]
  rfl

theorem value_null (fuel : Nat) (more : List Char) :
    value (N := N) (fuel + 1) ("null".toList ++ more) = some (.null, more) := by
  have hword : word "null" ('n' :: ("ull".toList ++ more)) = some more := word_append rfl (by decide) more
  change value (fuel + 1) ('n' :: ("ull".toList ++ more)) = _
  rw [value_letter (by decide) (by decide), word_head rfl (List.dropWhile_cons_of_neg (by decide)) (by decide),
    word_head rfl (List.dropWhile_cons_of_neg (by decide)) (by decide), hword]
  rfl

/-- `[` and the elements. -/
theorem value_elements {fuel : Nat} {text rest : List Char} {xs : List (Json N)}
    (hbracket : expect ']' text = none) (h : elements fuel text = some (xs, rest)) :
    value (fuel + 1) ('[' :: text) = some (.arr xs, rest) := by
  unfold value
  rw [expect_cons_of_ne (by decide) (by decide), expect_cons_of_ne (by decide) (by decide), expect_cons (by decide)]
  simp [hbracket, h]

/-- A brace and the fields. -/
theorem value_members {fuel : Nat} {text rest : List Char} {fields : JsonObject N}
    (hbrace : expect '}' text = none) (h : members fuel [] text = some (fields, rest)) :
    value (fuel + 1) ('{' :: text) = some (.obj fields, rest) := by
  unfold value
  rw [expect_cons_of_ne (by decide) (by decide), expect_cons (by decide)]
  simp [hbrace, h]

/-! ### Well-formed values -/

/-- `JSON.parse` reads the number back from `String(n)`. -/
structure Readable (n : N) : Prop where
  finite : JsNumber.isFinite n = true
  noSpace : ∀ c ∈ (JsNumber.format n).toList, isSpace c = false
  read : number (JsNumber.format n).toList = some (n, [])

/-- `Number.MAX_SAFE_INTEGER` -/
def maxSafeInteger : Nat := 9007199254740991

/-- Integers are written in decimal, and read back, as far as every one of them is a number. -/
class ReadableIntegers (N : Type) [JsNumber N] : Prop where
  readable_ofNat : ∀ n ≤ maxSafeInteger, Readable (JsNumber.ofNat n : N)

mutual

/-- The values that JSON texts denote: each number is one that a text denotes, and the names of the fields of an object
are distinct. -/
def WellFormed : Json N → Prop
  | .null | .bool _ | .str _ => True
  | .num n => Readable n
  | .arr xs => WellFormedItems xs
  | .obj fields => (fields.map (·.1)).Nodup ∧ WellFormedFields fields

def WellFormedItems : List (Json N) → Prop
  | [] => True
  | x :: xs => WellFormed x ∧ WellFormedItems xs

def WellFormedFields : List (String × Json N) → Prop
  | [] => True
  | (_, x) :: fields => WellFormed x ∧ WellFormedFields fields

end

theorem wellFormedFields_iff {fields : List (String × Json N)} :
    WellFormedFields fields ↔ ∀ field ∈ fields, WellFormed field.2 := by
  induction fields with
  | nil => simp [WellFormedFields]
  | cons field fields ih => simp [WellFormedFields, ih]

theorem stringifyChars_num {n : N} (h : Readable n) : stringifyChars (.num n) = (JsNumber.format n).toList := by
  rw [stringifyChars, if_pos h.finite]

/-- No text begins like the end of an array, or with white space. -/
theorem stringifyChars_head {v : Json N} (h : WellFormed v) :
    ∃ c cs, stringifyChars v = c :: cs ∧ isSpace c = false ∧ c ≠ ']' := by
  cases v with
  | null => exact ⟨'n', _, rfl, by decide, by decide⟩
  | bool b =>
    cases b with
    | false => exact ⟨'f', _, rfl, by decide, by decide⟩
    | true => exact ⟨'t', _, rfl, by decide, by decide⟩
  | num n =>
    have hread : Readable n := by simpa only [WellFormed] using h
    obtain ⟨c, cs, hhead, hc⟩ := number_head hread.read
    have hspace : (JsNumber.format n).toList.dropWhile isSpace = (JsNumber.format n).toList := by
      cases htext : (JsNumber.format n).toList with
      | nil => rfl
      | cons d ds =>
        refine List.dropWhile_cons_of_neg ?_
        rw [hread.noSpace d (by simp [htext])]
        decide
    rw [hspace] at hhead
    refine ⟨c, cs, (stringifyChars_num hread).trans hhead, hread.noSpace c (by simp [hhead]), ?_⟩
    rintro rfl
    rcases hc with hc | hc <;> revert hc <;> decide
  | str s => exact ⟨'"', _, rfl, by decide, by decide⟩
  | arr xs => exact ⟨'[', _, rfl, by decide, by decide⟩
  | obj fields => exact ⟨'{', _, rfl, by decide, by decide⟩

theorem stringifyItems_cons (x y : Json N) (xs : List (Json N)) :
    stringifyItems (x :: y :: xs) = stringifyChars x ++ ',' :: stringifyItems (y :: xs) := by
  simp [stringifyItems]

theorem stringifyFields_cons (k : String) (x : Json N) (field : String × Json N) (fields : List (String × Json N)) :
    stringifyFields ((k, x) :: field :: fields) =
      quote k ++ ':' :: stringifyChars x ++ ',' :: stringifyFields (field :: fields) := by
  simp [stringifyFields]

omit [JsNumber N] in
/-- A field of a new name comes after the others. -/
theorem assign_of_notMem {fields : JsonObject N} {k : String} (h : k ∉ fields.map (·.1)) (v : Json N) :
    assign fields k v = fields ++ [(k, v)] := by
  unfold assign
  rw [if_neg]
  simp only [List.any_eq_true, decide_eq_true_eq]
  rintro ⟨field, hfield, rfl⟩
  exact h (List.mem_map_of_mem hfield)

omit [JsNumber N] in
theorem notMem_of_nodup {before fields : List (String × Json N)} {k : String} {x : Json N}
    (h : ((before ++ (k, x) :: fields).map (·.1)).Nodup) : k ∉ before.map (·.1) := by
  rw [List.map_append, List.nodup_append] at h
  intro hmem
  exact h.2.2 k hmem k (by simp) rfl

theorem numberEnds_cons {c : Char} (h : c.isDigit = false ∧ c ≠ '.' ∧ c ≠ 'e' ∧ c ≠ 'E') (text : List Char) :
    NumberEnds (c :: text) := by
  rintro d ⟨⟩
  exact h

theorem members_quote {k : String} {fuel : Nat} (hk : k.length < fuel) {v : Json N} {text rest : List Char}
    (h : value fuel text = some (v, rest)) (before : JsonObject N) :
    members (fuel + 1) before (quote k ++ ':' :: text) =
      (((expect '}' rest).map fun rest => (assign before k v, rest)) <|>
        (expect ',' rest).bind (members fuel (assign before k v))) := by
  have hkey : literal fuel (k.toList.flatMap escapeChar ++ '"' :: (':' :: text)) = some (k.toList, ':' :: text) :=
    literal_quote k.toList (by rwa [String.length_toList]) _
  have hquote : quote k ++ ':' :: text = '"' :: (k.toList.flatMap escapeChar ++ '"' :: (':' :: text)) := by
    simp [quote]
  rw [members, hquote, expect_cons (by decide)]
  simp only [Option.bind_eq_bind, Option.bind_some, hkey, expect_cons (show isSpace ':' = false by decide), h,
    String.ofList_toList]

theorem elements_value {fuel : Nat} {x : Json N} {text rest : List Char} (h : value fuel text = some (x, rest)) :
    elements (fuel + 1) text =
      (((expect ']' rest).map fun rest => ([x], rest)) <|>
        ((expect ',' rest).bind (elements fuel)).map fun (xs, rest) => (x :: xs, rest)) := by
  rw [elements]
  simp only [Option.bind_eq_bind, Option.bind_some, h]

mutual

/-- A value is read back, whatever comes after it, as long as that does not go on with a number.  The recursion follows
`stringifyChars`; the fuel that is left is always more than the text that is left. -/
theorem value_stringifyChars : ∀ (v : Json N), WellFormed v → ∀ {fuel : Nat} {more : List Char},
    (stringifyChars v).length < fuel → NumberEnds more → value fuel (stringifyChars v ++ more) = some (v, more)
  | _, _, 0, _, hfuel, _ => by omega
  | .null, _, fuel + 1, more, _, _ => value_null fuel more
  | .bool true, _, fuel + 1, more, _, _ => value_true fuel more
  | .bool false, _, fuel + 1, more, _, _ => value_false fuel more
  | .num n, h, fuel + 1, more, _, hmore => by
    have hread : Readable n := by simpa only [WellFormed] using h
    rw [stringifyChars_num hread]
    exact value_number (number_append hmore hread.noSpace hread.read) fuel
  | .str s, _, fuel + 1, more, hfuel, _ => by
    have hlength := length_quote s
    rw [stringifyChars] at hfuel ⊢
    exact value_quote s (by omega) more
  | .arr [], _, fuel + 1, more, _, _ => by
    change value (fuel + 1) ('[' :: ']' :: more) = _
    unfold value
    rw [expect_cons_of_ne (by decide) (by decide), expect_cons_of_ne (by decide) (by decide), expect_cons (by decide),
      Option.bind_some, expect_cons (by decide)]
    rfl
  | .arr (x :: xs), h, fuel + 1, more, hfuel, _ => by
    have hitems : WellFormedItems (x :: xs) := by simpa only [WellFormed] using h
    have hhead : ∃ c cs, stringifyItems (x :: xs) = c :: cs ∧ isSpace c = false ∧ c ≠ ']' := by
      obtain ⟨c, cs, hcs, hspace, hne⟩ := stringifyChars_head (show WellFormed x from hitems.1)
      cases xs with
      | nil => exact ⟨c, cs, by rw [stringifyItems, hcs], hspace, hne⟩
      | cons y xs => exact ⟨c, _, by rw [stringifyItems_cons, hcs, List.cons_append], hspace, hne⟩
    rw [stringifyChars, List.length_cons, List.length_append] at hfuel
    rw [stringifyChars, List.cons_append, List.append_assoc]
    refine value_elements ?_ (elements_stringifyItems x xs hitems (by simp at hfuel; omega))
    obtain ⟨c, cs, hcs, hspace, hne⟩ := hhead
    rw [hcs]
    exact expect_cons_of_ne hspace hne _
  | .obj [], _, fuel + 1, more, _, _ => by
    change value (fuel + 1) ('{' :: '}' :: more) = _
    unfold value
    rw [expect_cons_of_ne (by decide) (by decide), expect_cons (by decide), Option.bind_some, expect_cons (by decide)]
    rfl
  | .obj ((k, x) :: fields), h, fuel + 1, more, hfuel, _ => by
    have hfields : (((k, x) :: fields).map (·.1)).Nodup ∧ WellFormedFields ((k, x) :: fields) := by
      simpa only [WellFormed] using h
    rw [stringifyChars, List.length_cons, List.length_append] at hfuel
    rw [stringifyChars, List.cons_append, List.append_assoc]
    refine value_members ?_ (members_stringifyFields k x fields [] hfields.1 hfields.2 (by simp at hfuel; omega))
    cases fields with
    | nil => exact expect_cons_of_ne (by decide) (by decide) _
    | cons field fields => exact expect_cons_of_ne (by decide) (by decide) _

/-- The last element is read with a unit of fuel less, which is why its text has to be shorter by two. -/
theorem elements_stringifyItems : ∀ (x : Json N) (xs : List (Json N)), WellFormedItems (x :: xs) →
    ∀ {fuel : Nat} {more : List Char}, (stringifyItems (x :: xs)).length + 1 < fuel →
      elements fuel (stringifyItems (x :: xs) ++ ']' :: more) = some (x :: xs, more)
  | _, _, _, 0, _, hfuel => by omega
  | x, [], h, fuel + 1, more, hfuel => by
    rw [stringifyItems] at hfuel ⊢
    rw [elements_value (value_stringifyChars x h.1 (by omega) (numberEnds_cons (by decide) _)), expect_cons (by decide)]
    rfl
  | x, y :: xs, h, fuel + 1, more, hfuel => by
    rw [stringifyItems_cons, List.length_append, List.length_cons] at hfuel
    rw [stringifyItems_cons, List.append_assoc, List.cons_append,
      elements_value (value_stringifyChars x h.1 (by omega) (numberEnds_cons (by decide) _)),
      expect_cons_of_ne (by decide) (by decide), expect_cons (by decide), Option.bind_some,
      elements_stringifyItems y xs h.2 (by omega)]
    rfl

/-- `before` are the fields that have been read, whose names do not come again. -/
theorem members_stringifyFields : ∀ (k : String) (x : Json N) (fields before : List (String × Json N)),
    ((before ++ (k, x) :: fields).map (·.1)).Nodup → WellFormedFields ((k, x) :: fields) →
    ∀ {fuel : Nat} {more : List Char}, (stringifyFields ((k, x) :: fields)).length + 1 < fuel →
      members fuel before (stringifyFields ((k, x) :: fields) ++ '}' :: more) = some (before ++ (k, x) :: fields, more)
  | _, _, _, _, _, _, 0, _, hfuel => by omega
  | k, x, [], before, hnodup, h, fuel + 1, more, hfuel => by
    have hk := length_quote k
    have hnew : k ∉ before.map (·.1) := notMem_of_nodup hnodup
    rw [stringifyFields, List.length_append, List.length_cons] at hfuel
    rw [stringifyFields, List.append_assoc, List.cons_append,
      members_quote (by omega) (value_stringifyChars x h.1 (by omega) (numberEnds_cons (by decide) _)),
      expect_cons (by decide), assign_of_notMem hnew]
    rfl
  | k, x, (l, y) :: fields, before, hnodup, h, fuel + 1, more, hfuel => by
    have hk := length_quote k
    have hnew : k ∉ before.map (·.1) := notMem_of_nodup hnodup
    have happend : before ++ (k, x) :: (l, y) :: fields = (before ++ [(k, x)]) ++ (l, y) :: fields := by simp
    simp only [stringifyFields_cons, List.length_append, List.length_cons] at hfuel
    rw [stringifyFields_cons, List.append_assoc, List.cons_append, List.append_assoc, List.cons_append,
      members_quote (by omega) (value_stringifyChars x h.1 (by omega) (numberEnds_cons (by decide) _)),
      expect_cons_of_ne (by decide) (by decide), expect_cons (by decide), assign_of_notMem hnew, happend]
    rw [happend] at hnodup
    exact members_stringifyFields l y fields (before ++ [(k, x)]) hnodup h.2 (by omega)

end

theorem parse_stringify {v : Json N} (h : WellFormed v) : parse (stringify v) = some v := by
  have hvalue : value ((stringify v).length + 1) (stringifyChars v ++ []) = some (v, []) :=
    value_stringifyChars v h (by simp [stringify]) (by rintro c ⟨⟩)
  rw [List.append_nil] at hvalue
  unfold parse
  rw [stringify, String.toList_ofList, ← stringify, hvalue]
  rfl

/-- Different values have different texts. -/
theorem stringify_injective {v w : Json N} (hv : WellFormed v) (hw : WellFormed w) (h : stringify v = stringify w) :
    v = w := by
  have hparse := parse_stringify hv
  rw [h, parse_stringify hw] at hparse
  exact (Option.some.inj hparse).symm

/-! ### Fields that are assigned -/

omit [JsNumber N] in
theorem lookup_assign_self (fields : JsonObject N) (k : String) (v : Json N) :
    (assign fields k v).lookup k = some v := by
  unfold assign
  split
  · rename_i hany
    induction fields with
    | nil => simp at hany
    | cons field fields ih =>
      by_cases hfield : field.1 = k
      · simp [hfield]
      · have hne : (k == field.1) = false := by simpa using Ne.symm hfield
        rw [List.any_cons, decide_eq_false hfield, Bool.false_or] at hany
        rw [List.map_cons, if_neg hfield, List.lookup_cons, hne]
        exact ih hany
  · rename_i hany
    have hnone : fields.lookup k = none := by
      refine List.lookup_eq_none_iff.2 fun field hfield => ?_
      have hne : ¬ field.1 = k := fun heq => hany (List.any_eq_true.2 ⟨field, hfield, by simpa using heq⟩)
      simpa using Ne.symm hne
    rw [List.lookup_append, hnone]
    simp

omit [JsNumber N] in
theorem lookup_assign_of_ne {k name : String} (h : name ≠ k) (fields : JsonObject N) (v : Json N) :
    (assign fields k v).lookup name = fields.lookup name := by
  unfold assign
  split
  · rename_i hany
    clear hany
    induction fields with
    | nil => rfl
    | cons field fields ih =>
      by_cases hfield : field.1 = k
      · have hne : (name == k) = false := by simpa using h
        rw [List.map_cons, if_pos hfield, List.lookup_cons, List.lookup_cons, hfield, hne, ih]
      · rw [List.map_cons, if_neg hfield, List.lookup_cons, List.lookup_cons, ih]
  · have hne : (name == k) = false := by simpa using h
    rw [List.lookup_append, List.lookup_cons, hne]
    simp

theorem WellFormed.assign {fields : JsonObject N} (h : WellFormed (.obj fields)) (k : String) {v : Json N}
    (hv : WellFormed v) : WellFormed (.obj (assign fields k v)) := by
  simp only [WellFormed] at h ⊢
  obtain ⟨hnodup, hfields⟩ := h
  rw [wellFormedFields_iff] at hfields ⊢
  by_cases hmem : k ∈ fields.map (·.1)
  · have hany : (fields.any fun field => field.1 = k) = true := by
      obtain ⟨field, hfield, heq⟩ := List.mem_map.1 hmem
      exact List.any_eq_true.2 ⟨field, hfield, by simpa using heq⟩
    have hnames : (fields.map fun field => if field.1 = k then (k, v) else field).map (·.1) = fields.map (·.1) := by
      rw [List.map_map]
      refine List.map_congr_left fun field _ => ?_
      by_cases heq : field.1 = k
      · simp [heq]
      · simp [heq]
    unfold JsonText.assign
    rw [if_pos hany, hnames]
    refine ⟨hnodup, fun field hfield => ?_⟩
    obtain ⟨old, hold, rfl⟩ := List.mem_map.1 hfield
    by_cases heq : old.1 = k
    · simpa [heq] using hv
    · simpa [heq] using hfields old hold
  · rw [assign_of_notMem hmem]
    constructor
    · rw [List.map_append, List.nodup_append]
      refine ⟨hnodup, by simp, ?_⟩
      rintro name hname last hlast rfl
      obtain rfl : name = k := by simpa using hlast
      exact hmem hname
    · intro field hfield
      rcases List.mem_append.1 hfield with hold | hnew
      · exact hfields field hold
      · rw [List.mem_singleton] at hnew
        rw [hnew]
        exact hv

/-! ### Lines -/

omit [JsNumber N] in
theorem newline_notMem_escapeChar (c : Char) : '\n' ∉ escapeChar c := by
  intro hmem
  unfold escapeChar at hmem
  cases hshort : shortEscapes.lookup c with
  | some letter =>
    have hletters : ∀ short ∈ shortEscapes, short.2 ≠ '\n' := by decide
    have hne := hletters (c, letter) (mem_of_lookup hshort)
    simp only [hshort, List.mem_cons, List.not_mem_nil, or_false] at hmem
    rcases hmem with h | h
    · cases h
    · exact hne h.symm
  | none =>
    rw [hshort] at hmem
    by_cases hcontrol : c.toNat < 32
    · have hdigits : ∀ n < 32, hexDigit (n / 16) ≠ '\n' ∧ hexDigit (n % 16) ≠ '\n' := by decide
      obtain ⟨hhigh, hlow⟩ := hdigits c.toNat hcontrol
      simp only [hcontrol, if_true, List.mem_cons, List.not_mem_nil, or_false] at hmem
      rcases hmem with h | h | h | h | h | h
      · cases h
      · cases h
      · cases h
      · cases h
      · exact hhigh h.symm
      · exact hlow h.symm
    · simp only [hcontrol, if_false, List.mem_singleton] at hmem
      subst hmem
      cases hshort

omit [JsNumber N] in
theorem newline_notMem_quote (s : String) : '\n' ∉ quote s := by
  intro hmem
  simp only [quote, List.mem_cons, List.mem_append, List.mem_flatMap, List.not_mem_nil, or_false] at hmem
  rcases hmem with h | ⟨c, -, hc⟩ | h
  · cases h
  · exact newline_notMem_escapeChar c hc
  · cases h

mutual

/-- The text of a value is a single line. -/
theorem newline_notMem_stringifyChars : ∀ v : Json N, WellFormed v → '\n' ∉ stringifyChars v
  | .null, _ => show '\n' ∉ "null".toList by decide
  | .bool true, _ => show '\n' ∉ "true".toList by decide
  | .bool false, _ => show '\n' ∉ "false".toList by decide
  | .num n, h => by
    have hread : Readable n := by simpa only [WellFormed] using h
    rw [stringifyChars_num hread]
    intro hmem
    have hspace := hread.noSpace _ hmem
    revert hspace
    decide
  | .str s, _ => newline_notMem_quote s
  | .arr xs, h => by
    have hitems := newline_notMem_stringifyItems xs (by simpa only [WellFormed] using h)
    simpa [stringifyChars] using hitems
  | .obj fields, h => by
    have hfields : (fields.map (·.1)).Nodup ∧ WellFormedFields fields := by simpa only [WellFormed] using h
    have hnewline := newline_notMem_stringifyFields fields hfields.2
    simpa [stringifyChars] using hnewline

theorem newline_notMem_stringifyItems : ∀ xs : List (Json N), WellFormedItems xs → '\n' ∉ stringifyItems xs
  | [], _ => by simp [stringifyItems]
  | [x], h => newline_notMem_stringifyChars x h.1
  | x :: y :: xs, h => by
    rw [stringifyItems_cons]
    have hx := newline_notMem_stringifyChars x h.1
    have hxs := newline_notMem_stringifyItems (y :: xs) h.2
    simp [hx, hxs]

theorem newline_notMem_stringifyFields : ∀ fields : List (String × Json N), WellFormedFields fields →
    '\n' ∉ stringifyFields fields
  | [], _ => by simp [stringifyFields]
  | [(k, x)], h => by
    have hk := newline_notMem_quote k
    have hx := newline_notMem_stringifyChars x h.1
    simp [stringifyFields, hk, hx]
  | (k, x) :: field :: fields, h => by
    rw [stringifyFields_cons]
    have hk := newline_notMem_quote k
    have hx := newline_notMem_stringifyChars x h.1
    have hfields := newline_notMem_stringifyFields (field :: fields) h.2
    simp [hk, hx, hfields]

end

/-- The lines of a text that ends with a newline. -/
def textLines (text : String) : List String := ((text.toList.splitOn '\n').map String.ofList).dropLast

omit [JsNumber N] in
theorem textLines_of_toList {text : String} {lines : List String} (hlines : ∀ line ∈ lines, '\n' ∉ line.toList)
    (h : text.toList = lines.flatMap fun line => line.toList ++ ['\n']) : textLines text = lines := by
  have hsplit : text.toList.splitOn '\n' = lines.map String.toList ++ [[]] := by
    rw [h]
    clear h
    induction lines with
    | nil => rfl
    | cons line lines ih =>
      rw [List.flatMap_cons, List.append_assoc, List.singleton_append,
        List.splitOn_append_cons_self_of_not_mem (hlines line List.mem_cons_self),
        ih fun line hline => hlines line (List.mem_cons_of_mem _ hline)]
      rfl
  have hmap : lines.map (fun line => String.ofList line.toList) = lines := by simp
  rw [textLines, hsplit, List.map_append, List.map_singleton, List.dropLast_concat, List.map_map]
  exact hmap

omit [JsNumber N] in
/-- Lines that a newline separates, and one at the end. -/
theorem textLines_intercalate {lines : List String} (hlines : ∀ line ∈ lines, '\n' ∉ line.toList) (hne : lines ≠ []) :
    textLines ("\n".intercalate lines ++ "\n") = lines := by
  refine textLines_of_toList hlines ?_
  rw [String.toList_append, String.toList_intercalate]
  clear hlines
  induction lines with
  | nil => exact absurd rfl hne
  | cons line lines ih =>
    cases lines with
    | nil => simp
    | cons next lines =>
      have htail := ih (List.cons_ne_nil _ _)
      rw [List.map_cons, List.map_cons, List.intercalate_cons_cons, List.append_assoc, List.append_assoc,
        List.flatMap_cons, ← htail]
      simp

omit [JsNumber N] in
/-- Lines with a newline each. -/
theorem textLines_join {lines : List String} (hlines : ∀ line ∈ lines, '\n' ∉ line.toList) :
    textLines (String.join (lines.map (· ++ "\n"))) = lines := by
  refine textLines_of_toList hlines ?_
  rw [String.toList_join, List.flatMap_map]
  simp

end JsonText

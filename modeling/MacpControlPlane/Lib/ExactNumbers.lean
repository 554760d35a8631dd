import Mathlib
import MacpControlPlane.Lib.JsonRoundTrip

/-!
# The texts of integers in exact arithmetic

An integer is written as the decimal digits of `Nat.repr`, which `number` reads back: a sequence of digits is the text
of a number when it does not begin with a zero that another digit follows (`head_toDigits`).
-/

namespace JsonText

open Js

/-- A positive number does not begin with a zero. -/
theorem head_toDigits {n : Nat} (h : 0 < n) : (Nat.toDigits 10 n).head? ≠ some '0' := by
  induction n using Nat.strong_induction_on with
  | _ n ih =>
    by_cases hlt : n < 10
    · rw [Nat.toDigits_of_lt_base hlt]
      have hdigits : ∀ m < 10, 0 < m → [m.digitChar].head? ≠ some '0' := by decide
      exact hdigits n hlt h
    · have hne : Nat.toDigits 10 (n / 10) ≠ [] := Nat.toDigits_ne_nil
      rw [Nat.toDigits_of_base_le (by decide) (by omega), List.head?_append_of_ne_nil _ hne]
      exact ih (n / 10) (by omega) (by omega)

theorem integer_toDigits (n : Nat) : integer (Nat.toDigits 10 n) = some (Nat.toDigits 10 n, []) := by
  have hall : ∀ c ∈ Nat.toDigits 10 n, c.isDigit = true := fun c hc =>
    Nat.isDigit_of_mem_toDigits (by decide) (by decide) hc
  by_cases hn : n = 0
  · subst hn
    rfl
  · have hhead := head_toDigits (Nat.pos_of_ne_zero hn)
    unfold integer
    split
    · rename_i rest heq
      rw [heq] at hhead
      exact absurd rfl hhead
    · unfold digits
      rw [List.takeWhile_eq_self_iff.2 hall, List.dropWhile_eq_nil_iff.2 hall, if_neg Nat.toDigits_ne_nil]

theorem isSpace_of_isDigit {c : Char} (h : c.isDigit = true) : isSpace c = false := by
  have hne : ∀ d : Char, d.isDigit = false → c ≠ d := by
    rintro d hd rfl
    rw [h] at hd
    cases hd
  unfold isSpace
  simp [hne ' ' (by decide), hne '\t' (by decide), hne '\n' (by decide), hne '\r' (by decide)]

theorem format_ofNat (n : Nat) : JsNumber.format (JsNumber.ofNat n : Option Rat) = n.repr := by
  change toString (n : Rat) = n.repr
  simp only [toString, Rat.den_natCast, Rat.num_natCast, if_true]
  rfl

theorem parse_repr (n : Nat) : (JsNumber.parse n.repr : Option Rat) = JsNumber.ofNat n := by
  have hne : n.repr ≠ "" := by
    intro hnil
    have htoList := congrArg String.toList hnil
    rw [Nat.toList_repr] at htoList
    exact Nat.toDigits_ne_nil htoList
  change (if n.repr = "" then some 0 else n.repr.toInt?.map fun i => (i : Rat)) = some (n : Rat)
  rw [if_neg hne, Nat.toInt?_repr]
  rfl

instance : ReadableIntegers (Option Rat) where
  readable_ofNat n _ := by
    have hall : ∀ c ∈ Nat.toDigits 10 n, c.isDigit = true := fun c hc =>
      Nat.isDigit_of_mem_toDigits (by decide) (by decide) hc
    refine ⟨rfl, ?_, ?_⟩
    · rw [format_ofNat, Nat.toList_repr]
      exact fun c hc => isSpace_of_isDigit (hall c hc)
    · obtain ⟨c, cs, hcs⟩ := List.exists_cons_of_ne_nil (Nat.toDigits_ne_nil (n := n) (b := 10))
      have hc : c.isDigit = true := hall c (by simp [hcs])
      have hspace : (Nat.toDigits 10 n).dropWhile isSpace = Nat.toDigits 10 n := by
        rw [hcs]
        exact List.dropWhile_cons_of_neg (by simp [isSpace_of_isDigit hc])
      have hsign : sign ['-'] (Nat.toDigits 10 n) = ([], Nat.toDigits 10 n) := by
        have hne : c ≠ '-' := by
          rintro rfl
          cases hc
        rw [hcs]
        simp [sign, hne]
      rw [format_ofNat, Nat.toList_repr, number_eq, hspace, hsign, integer_toDigits]
      have hparse := parse_repr n
      rw [Nat.repr_eq_ofList_toDigits] at hparse
      simpa [fraction, exponent] using hparse

end JsonText

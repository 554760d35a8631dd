import Mathlib.Data.List.DropRight
import Mathlib.Data.List.TakeWhile
import MacpControlPlane.Lib.Js

/-!
# Trimmed text

`s.trim()` leaves a part of the text that begins and ends with no space, so that trimming it again changes nothing.
-/

namespace Js

theorem toList_trim (s : String) : (trim s).toList = (s.toList.dropWhile isSpace).rdropWhile isSpace := by
  rw [trim, String.toList_ofList, List.rdropWhile]

theorem isInfix_trim (s : String) : (trim s).toList <:+: s.toList := by
  rw [toList_trim]
  exact (List.rdropWhile_prefix _ _).isInfix.trans (List.dropWhile_suffix _).isInfix

/-- What is left begins as the text without its leading space. -/
theorem trim_trim (s : String) : trim (trim s) = trim s := by
  have hfront : (trim s).toList.dropWhile isSpace = (trim s).toList := by
    rw [List.dropWhile_eq_self_iff]
    intro hlength
    have hbegins : (trim s).toList <+: s.toList.dropWhile isSpace := by
      rw [toList_trim]
      exact List.rdropWhile_prefix isSpace _
    have hfirst := List.dropWhile_get_zero_not isSpace s.toList (Nat.lt_of_lt_of_le hlength hbegins.length_le)
    rwa [hbegins.getElem hlength]
  rw [← String.toList_inj, toList_trim, hfront, toList_trim, List.rdropWhile_idempotent]

/-- Nothing is left of a text of spaces only. -/
theorem trim_eq_empty {s : String} : trim s = "" ↔ ∀ c ∈ s.toList, isSpace c = true := by
  rw [← String.toList_inj, toList_trim]
  constructor
  · intro h
    have hall : ∀ c ∈ s.toList.dropWhile isSpace, isSpace c = true := List.rdropWhile_eq_nil_iff.1 h
    rw [← List.dropWhile_eq_nil_iff]
    by_contra hne
    have hhead := hall _ (List.head_mem hne)
    rw [List.head_dropWhile_not isSpace hne] at hhead
    exact absurd hhead nofun
  · intro h
    rw [List.dropWhile_eq_nil_iff.2 h]
    rfl

end Js

import Mathlib.Data.List.Chain

/-!
# Logs of transitions

A log that grows at the end, drops entries from the front once it is longer than its capacity, and skips an entry
whose key is that of the last one.  `IsLog` collects what such a log keeps: it is not empty, it fits its capacity, and
no two neighbours have the same key.
-/

namespace TransitionLog

variable {α κ : Type*}

/-- Drop entries from the front while there are more than `cap`. -/
def trim (cap : Nat) : List α → List α
  | [] => []
  | x :: xs => if cap < xs.length + 1 then trim cap xs else x :: xs

theorem trim_suffix (cap : Nat) (xs : List α) : trim cap xs <:+ xs := by
  induction xs with
  | nil => exact List.suffix_refl []
  | cons x xs ih =>
    unfold trim
    split
    · exact ih.trans (List.suffix_cons x xs)
    · exact List.suffix_refl _

theorem length_trim_le (cap : Nat) (xs : List α) : (trim cap xs).length ≤ cap := by
  induction xs with
  | nil => exact Nat.zero_le cap
  | cons x xs ih =>
    unfold trim
    split
    · exact ih
    · simp only [List.length_cons]; omega

/-- A capacity that is not zero keeps the last entry. -/
theorem getLast?_trim {cap : Nat} (hcap : 0 < cap) (xs : List α) : (trim cap xs).getLast? = xs.getLast? := by
  induction xs with
  | nil => rfl
  | cons x xs ih =>
    unfold trim
    split
    · have hne : xs ≠ [] := by rintro rfl; simp at *; omega
      rw [ih, List.getLast?_cons_of_ne_nil hne]
    · rfl

variable [DecidableEq κ] (key : α → κ) (cap : Nat)

/-- Append an entry, unless the last one has the same key. -/
def record (xs : List α) (x : α) : List α :=
  if xs.getLast?.map key = some (key x) then xs else trim cap (xs ++ [x])

structure IsLog (xs : List α) : Prop where
  ne_nil : xs ≠ []
  length_le : xs.length ≤ cap
  isChain : xs.IsChain fun x y => key x ≠ key y

variable {key cap}

/-- After an entry has been recorded, the last one has its key. -/
theorem getLast?_record (hcap : 0 < cap) (xs : List α) (x : α) :
    (record key cap xs x).getLast?.map key = some (key x) := by
  unfold record
  split
  · assumption
  · simp [getLast?_trim hcap]

theorem IsLog.record {xs : List α} (hcap : 0 < cap) (h : IsLog key cap xs) (x : α) :
    IsLog key cap (record key cap xs x) := by
  have hlast : (TransitionLog.record key cap xs x).getLast?.map key = some (key x) := getLast?_record hcap xs x
  by_cases hsame : xs.getLast?.map key = some (key x)
  · simpa only [TransitionLog.record, if_pos hsame] using h
  · simp only [TransitionLog.record, if_neg hsame] at hlast ⊢
    have hchain : (xs ++ [x]).IsChain fun x y => key x ≠ key y := by
      refine h.isChain.append (List.isChain_singleton x) ?_
      intro y hy z hz hkey
      obtain rfl : x = z := by simpa using hz
      exact hsame (by simp [Option.mem_def.1 hy, hkey])
    constructor
    · intro hnil
      simp [hnil] at hlast
    · exact length_trim_le _ _
    · exact hchain.suffix (trim_suffix _ _)

end TransitionLog

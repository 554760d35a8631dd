import Mathlib.Data.List.Perm.Basic

/-!
# Concurrent callers

A list of calls in progress: a new call is appended, and a step replaces one entry.  What is true of the other entries
stays true, and the number of entries with a property changes by what the one entry gained or lost.
-/

namespace Callers

variable {α : Type*}

/-- The entries after a step of caller `i` are the new one and the old ones of the others. -/
theorem getElem?_set_cases {xs : List α} {i j : Nat} {x y : α} (h : (xs.set i x)[j]? = some y) :
    (j = i ∧ y = x) ∨ (j ≠ i ∧ xs[j]? = some y) := by
  by_cases hij : j = i
  · subst hij
    rw [List.getElem?_set_self'] at h
    obtain ⟨_, _, rfl⟩ := Option.map_eq_some_iff.1 h
    exact Or.inl ⟨rfl, rfl⟩
  · rw [List.getElem?_set_ne (Ne.symm hij)] at h
    exact Or.inr ⟨hij, h⟩

theorem getElem?_set_of_ne {xs : List α} {i j : Nat} {x y : α} (hij : i ≠ j) (h : xs[j]? = some y) :
    (xs.set i x)[j]? = some y :=
  (List.getElem?_set_ne hij).trans h

theorem getElem?_set_self_of_some {xs : List α} {i : Nat} {x y : α} (h : xs[i]? = some y) :
    (xs.set i x)[i]? = some x :=
  List.getElem?_set_self (List.getElem?_eq_some_iff.1 h).1

/-- The entries after a new call are the new one and the old ones. -/
theorem getElem?_concat_cases {xs : List α} {j : Nat} {x y : α} (h : (xs ++ [x])[j]? = some y) :
    (j = xs.length ∧ y = x) ∨ xs[j]? = some y := by
  by_cases hj : j < xs.length
  · exact Or.inr ((List.getElem?_append_left hj).symm.trans h)
  · rw [List.getElem?_append_right (by omega)] at h
    have hlt := (List.getElem?_eq_some_iff.1 h).1
    rw [List.length_singleton] at hlt
    have hy := List.mem_singleton.1 (List.mem_of_getElem? h)
    exact Or.inl ⟨by omega, hy⟩

theorem getElem?_concat_of_some {xs : List α} {j : Nat} {x y : α} (h : xs[j]? = some y) :
    (xs ++ [x])[j]? = some y :=
  (List.getElem?_append_left (List.getElem?_eq_some_iff.1 h).1).trans h

theorem getElem?_concat (xs : List α) (x : α) (j : Nat) :
    (xs ++ [x])[j]? = if j = xs.length then some x else xs[j]? := by
  split
  · rename_i hj
    rw [hj, List.getElem?_concat_length]
  · rename_i hj
    by_cases hlt : j < xs.length
    · exact List.getElem?_append_left hlt
    · have hlength : (xs ++ [x]).length ≤ j := by
        rw [List.length_append, List.length_singleton]
        omega
      rw [List.getElem?_eq_none hlength, List.getElem?_eq_none (Nat.not_lt.1 hlt)]

theorem mem_set_or_eq {xs : List α} {i : Nat} {x z : α} (h : xs[i]? = some x) (hz : z ∈ xs) (y : α) :
    z ∈ xs.set i y ∨ z = x := by
  obtain ⟨j, hj⟩ := List.mem_iff_getElem?.1 hz
  by_cases hij : i = j
  · rw [hij, hj] at h
    exact Or.inr (Option.some.inj h)
  · exact Or.inl (List.mem_of_getElem? (getElem?_set_of_ne hij hj))

theorem mem_set_self {xs : List α} {i : Nat} {x : α} (h : xs[i]? = some x) (y : α) : y ∈ xs.set i y :=
  List.mem_of_getElem? (getElem?_set_self_of_some h)

/-- The entries after caller `i` has left. -/
theorem mem_eraseIdx_or_eq {xs : List α} {i : Nat} {x z : α} (h : xs[i]? = some x) (hz : z ∈ xs) :
    z ∈ xs.eraseIdx i ∨ z = x := by
  obtain ⟨j, hj⟩ := List.mem_iff_getElem?.1 hz
  by_cases hij : i = j
  · rw [hij, hj] at h
    exact Or.inr (Option.some.inj h)
  · exact Or.inl (List.mem_eraseIdx_iff_getElem?.2 ⟨j, Ne.symm hij, hj⟩)

/-- What a step of caller `i` leaves alone in its entry stays in the list. -/
theorem map_set_of_eq {β : Type*} {f : α → β} {xs : List α} {i : Nat} {x y : α} (h : xs[i]? = some x)
    (hf : f y = f x) :
    (xs.set i y).map f = xs.map f := by
  refine List.ext_getElem? fun j => ?_
  rw [List.getElem?_map, List.getElem?_map, List.getElem?_set]
  split
  · rename_i hj
    rw [← hj, h, if_pos (List.getElem?_eq_some_iff.1 h).1, Option.map_some, Option.map_some, hf]
  · rfl

/-- How the number of entries with a property changes in a step of caller `i`. -/
theorem countP_set {p : α → Bool} {xs : List α} {i : Nat} {x y : α} (h : xs[i]? = some x) :
    (xs.set i y).countP p + (if p x then 1 else 0) = xs.countP p + (if p y then 1 else 0) := by
  induction xs generalizing i with
  | nil => exact absurd h nofun
  | cons z xs ih =>
    cases i with
    | zero =>
      rw [List.getElem?_cons_zero] at h
      rw [Option.some.inj h, List.set_cons_zero, List.countP_cons, List.countP_cons]
      omega
    | succ i =>
      rw [List.getElem?_cons_succ] at h
      rw [List.set_cons_succ, List.countP_cons, List.countP_cons]
      have := ih h
      omega

/-- What the entries yield after a step of caller `i` of which the entry has yielded nothing. -/
theorem filterMap_set_of_none {β : Type*} {f : α → Option β} {xs : List α} {i : Nat} {x : α} (h : xs[i]? = some x)
    (hx : f x = none) (y : α) :
    ((xs.set i y).filterMap f).Perm ((f y).toList ++ xs.filterMap f) := by
  obtain ⟨hi, rfl⟩ := List.getElem?_eq_some_iff.1 h
  have hnew := (List.set_perm_cons_eraseIdx hi y).filterMap f
  have hold := (List.getElem_cons_eraseIdx_perm hi).filterMap f
  rw [List.filterMap_cons_none hx] at hold
  refine hnew.trans ?_
  cases hy : f y with
  | none =>
    rw [List.filterMap_cons_none hy]
    exact hold
  | some b =>
    rw [List.filterMap_cons_some hy]
    exact hold.cons b

/-- After a step of caller `i` of which the entry yields nothing any more. -/
theorem filterMap_set_to_none {β : Type*} {f : α → Option β} {xs : List α} {i : Nat} {x : α} {b : β}
    (h : xs[i]? = some x) (hx : f x = some b) {y : α} (hy : f y = none) :
    (xs.filterMap f).Perm (b :: (xs.set i y).filterMap f) := by
  obtain ⟨hi, rfl⟩ := List.getElem?_eq_some_iff.1 h
  have hnew := (List.set_perm_cons_eraseIdx hi y).filterMap f
  have hold := (List.getElem_cons_eraseIdx_perm hi).filterMap f
  rw [List.filterMap_cons_some hx] at hold
  rw [List.filterMap_cons_none hy] at hnew
  exact hold.symm.trans (hnew.symm.cons b)

theorem countP_concat {p : α → Bool} (xs : List α) (x : α) :
    (xs ++ [x]).countP p = xs.countP p + (if p x then 1 else 0) := by
  rw [List.countP_append, List.countP_singleton]

end Callers

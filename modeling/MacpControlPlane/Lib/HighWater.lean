import Mathlib.Data.List.Perm.Subperm

/-!
# High-water marks

A reader of numbered items that keeps the largest number it has let through, and drops what is not above it: `pass` is
what gets through, and `top` the mark afterwards.

* What gets through is strictly increasing and above the mark (`pairwise_pass`, `mem_pass`).
* Nothing that is above the mark is dropped exactly when it comes in increasing order (`pass_eq_filter`,
  `pass_eq_filter_of_subset`).
* A reader of an increasing list that has let a part of its beginning through goes on with the items above the mark
  (`filter_eq_append`), and what it reads page by page gets through as it is (`pass_eq_self`).
-/

namespace HighWater

variable {α : Type*} (number : α → Nat)

/-- What gets through. -/
def pass : Nat → List α → List α
  | _, [] => []
  | mark, x :: xs => if number x ≤ mark then pass mark xs else x :: pass (number x) xs

/-- The mark afterwards. -/
def top : Nat → List α → Nat
  | mark, [] => mark
  | mark, x :: xs => if number x ≤ mark then top mark xs else top (number x) xs

/-- The numbers are strictly increasing. -/
def Increasing (xs : List α) : Prop := xs.Pairwise fun x y => number x < number y

variable {number} {mark : Nat} {xs ys : List α}

theorem pass_append : pass number mark (xs ++ ys) = pass number mark xs ++ pass number (top number mark xs) ys := by
  induction xs generalizing mark with
  | nil => rfl
  | cons x xs ih =>
    simp only [List.cons_append, pass, top]
    split_ifs <;> simp [ih]

theorem top_append : top number mark (xs ++ ys) = top number (top number mark xs) ys := by
  induction xs generalizing mark with
  | nil => rfl
  | cons x xs ih =>
    simp only [List.cons_append, top]
    split_ifs <;> simp [ih]

theorem le_top (mark : Nat) (xs : List α) : mark ≤ top number mark xs := by
  induction xs generalizing mark with
  | nil => exact Nat.le_refl _
  | cons x xs ih =>
    unfold top
    split_ifs with h
    · exact ih mark
    · have := ih (number x)
      omega

theorem le_top_of_mem {x : α} (h : x ∈ xs) : number x ≤ top number mark xs := by
  induction xs generalizing mark with
  | nil => exact absurd h List.not_mem_nil
  | cons y xs ih =>
    unfold top
    rcases List.mem_cons.1 h with rfl | h
    · split_ifs with hle
      · exact Nat.le_trans hle (le_top _ _)
      · exact le_top _ _
    · split_ifs
      · exact ih h
      · exact ih h

theorem mem_pass {x : α} (h : x ∈ pass number mark xs) : x ∈ xs ∧ mark < number x := by
  induction xs generalizing mark with
  | nil => exact absurd h List.not_mem_nil
  | cons y xs ih =>
    unfold pass at h
    split_ifs at h with hle
    · obtain ⟨hx, hmark⟩ := ih h
      exact ⟨List.mem_cons_of_mem _ hx, hmark⟩
    · rcases List.mem_cons.1 h with rfl | h
      · exact ⟨List.mem_cons_self, by omega⟩
      · obtain ⟨hx, hmark⟩ := ih h
        exact ⟨List.mem_cons_of_mem _ hx, by omega⟩

/-- The mark is where it was, or at the last item that has got through. -/
theorem top_eq_or_mem (mark : Nat) (xs : List α) :
    top number mark xs = mark ∨ ∃ x ∈ pass number mark xs, number x = top number mark xs := by
  induction xs generalizing mark with
  | nil => exact Or.inl rfl
  | cons x xs ih =>
    unfold top pass
    split_ifs with hle
    · exact ih mark
    · right
      rcases ih (number x) with htop | ⟨y, hy, htop⟩
      · exact ⟨x, List.mem_cons_self, htop.symm⟩
      · exact ⟨y, List.mem_cons_of_mem _ hy, htop⟩

/-- The mark stays below what is above all the items. -/
theorem top_lt {y : α} (hmark : mark < number y) (h : ∀ x ∈ xs, number x < number y) :
    top number mark xs < number y := by
  have hcases : top number mark xs = mark ∨ ∃ x ∈ pass number mark xs, number x = top number mark xs :=
    top_eq_or_mem mark xs
  rcases hcases with htop | ⟨x, hx, htop⟩
  · rw [htop]
    exact hmark
  · rw [← htop]
    exact h x (mem_pass hx).1

theorem pairwise_pass (mark : Nat) (xs : List α) : Increasing number (pass number mark xs) := by
  induction xs generalizing mark with
  | nil => exact .nil
  | cons x xs ih =>
    unfold pass
    split_ifs
    · exact ih mark
    · exact .cons (fun y hy => (mem_pass hy).2) (ih (number x))

theorem pass_sublist_filter (mark : Nat) (xs : List α) :
    (pass number mark xs).Sublist (xs.filter fun x => mark < number x) := by
  induction xs generalizing mark with
  | nil => exact .slnil
  | cons x xs ih =>
    unfold pass
    split_ifs with hle
    · rw [List.filter_cons_of_neg (by simpa using hle)]
      exact ih mark
    · rw [List.filter_cons_of_pos (by simpa using hle)]
      refine .cons_cons x ((ih (number x)).trans ?_)
      refine List.monotone_filter_right xs fun y hy => ?_
      simp only [decide_eq_true_eq] at hy ⊢
      omega

/-- What is above the mark gets through when it comes in increasing order. -/
theorem pass_eq_filter (h : Increasing number (xs.filter fun x => mark < number x)) :
    pass number mark xs = xs.filter fun x => mark < number x := by
  induction xs generalizing mark with
  | nil => rfl
  | cons x xs ih =>
    unfold pass
    by_cases hle : number x ≤ mark
    · rw [List.filter_cons_of_neg (by simpa using hle)] at h ⊢
      rw [if_pos hle]
      exact ih h
    · rw [List.filter_cons_of_pos (by simpa using hle)] at h ⊢
      obtain ⟨hx, hxs⟩ := List.pairwise_cons.1 h
      -- What comes after `x` and is above the mark is above `x`.
      have hfilter : (xs.filter fun y => number x < number y) = xs.filter fun y => mark < number y := by
        refine List.filter_congr fun y hy => ?_
        by_cases hmark : mark < number y
        · have := hx y (List.mem_filter.2 ⟨hy, by simpa using hmark⟩)
          simp [hmark, this]
        · have : ¬ number x < number y := by omega
          simp [hmark, this]
      rw [if_neg hle, ih (hfilter ▸ hxs), hfilter]

/-- When nothing above the mark is dropped, it has come in increasing order. -/
theorem pass_eq_filter_of_subset (hnodup : (xs.filter fun x => mark < number x).Nodup)
    (h : ∀ x ∈ xs, mark < number x → x ∈ pass number mark xs) :
    pass number mark xs = xs.filter fun x => mark < number x := by
  have hsubset : (xs.filter fun x => mark < number x) ⊆ pass number mark xs := by
    intro x hx
    obtain ⟨hmem, hmark⟩ := List.mem_filter.1 hx
    exact h x hmem (by simpa using hmark)
  exact (pass_sublist_filter mark xs).eq_of_length_le (List.subperm_of_subset hnodup hsubset).length_le

theorem pass_eq_self (h : Increasing number xs) (hmark : ∀ x ∈ xs, mark < number x) : pass number mark xs = xs := by
  have hfilter : (xs.filter fun x => mark < number x) = xs :=
    List.filter_eq_self.2 fun x hx => by simpa using hmark x hx
  rw [pass_eq_filter (hfilter.symm ▸ h), hfilter]

/-- Fewer items are above the next mark. -/
theorem countP_lt_countP {x : α} (hx : x ∈ xs) (hmark : mark < number x) :
    xs.countP (fun y => number x < number y) < xs.countP fun y => mark < number y := by
  have hmono : ∀ ys : List α, (ys.countP fun y => number x < number y) ≤ ys.countP fun y => mark < number y := by
    intro ys
    refine List.countP_mono_left fun y _ hy => ?_
    simp only [decide_eq_true_eq] at hy ⊢
    omega
  obtain ⟨before, later, rfl⟩ := List.append_of_mem hx
  have hbefore := hmono before
  have hlater := hmono later
  simp only [List.countP_append, List.countP_cons, hmark, decide_true, if_true, Nat.lt_irrefl, decide_false,
    Bool.false_eq_true, if_false]
  omega

/-- An increasing list is determined by its items. -/
theorem eq_of_increasing (hxs : Increasing number xs) (hys : Increasing number ys) (h : ∀ x, x ∈ xs ↔ x ∈ ys) :
    xs = ys := by
  have hnodup : ∀ {zs : List α}, Increasing number zs → zs.Nodup := fun hzs => hzs.imp fun hlt heq => by
    rw [heq] at hlt
    exact Nat.lt_irrefl _ hlt
  have hperm : xs.Perm ys := (List.perm_ext_iff_of_nodup (hnodup hxs) (hnodup hys)).2 h
  exact hperm.eq_of_pairwise (fun x y _ _ hxy hyx => absurd (Nat.lt_trans hxy hyx) (Nat.lt_irrefl _)) hxs hys

/-- Sorting items with different numbers. -/
theorem increasing_mergeSort (h : xs.Pairwise fun x y => number x ≠ number y) :
    Increasing number (xs.mergeSort fun x y => number x ≤ number y) := by
  have hdistinct : (xs.mergeSort fun x y => number x ≤ number y).Pairwise fun x y => number x ≠ number y :=
    ((List.mergeSort_perm xs _).pairwise_iff fun hne => hne.symm).2 h
  have hsorted : (xs.mergeSort fun x y => number x ≤ number y).Pairwise fun x y => number x ≤ number y := by
    refine (List.pairwise_mergeSort ?_ ?_ xs).imp fun hle => by simpa using hle
    · intro x y z hxy hyz
      rw [decide_eq_true_eq] at hxy hyz ⊢
      exact Nat.le_trans hxy hyz
    · intro x y
      simpa using Nat.le_total (number x) (number y)
  exact (hsorted.and hdistinct).imp fun ⟨hle, hne⟩ => Nat.lt_of_le_of_ne hle hne

theorem top_eq_getLast (h : Increasing number xs) (hmark : ∀ x ∈ xs, mark < number x) :
    top number mark xs = (xs.getLast?.map number).getD mark := by
  induction xs generalizing mark with
  | nil => rfl
  | cons x xs ih =>
    obtain ⟨hx, hxs⟩ := List.pairwise_cons.1 h
    have hle : ¬ number x ≤ mark := by
      have := hmark x List.mem_cons_self
      omega
    rw [top, if_neg hle, ih hxs hx, List.getLast?_cons]
    cases xs.getLast? <;> rfl

/-- A part of the beginning of an increasing list, from the mark on, and what is above the mark after it. -/
theorem filter_eq_append (h : Increasing number xs) (hys : ys <+: xs.filter fun x => mark < number x) :
    (xs.filter fun x => mark < number x) = ys ++ xs.filter fun x => top number mark ys < number x := by
  obtain ⟨rest, hrest⟩ := hys
  have hincreasing : Increasing number (ys ++ rest) := hrest ▸ List.Pairwise.filter _ h
  have hlt := (List.pairwise_append.1 hincreasing).2.2
  have habove : ∀ x ∈ ys ++ rest, mark < number x := fun x hx => by
    rw [hrest] at hx
    simpa using (List.mem_filter.1 hx).2
  have hfilter : (xs.filter fun x => top number mark ys < number x) =
      (ys ++ rest).filter fun x => top number mark ys < number x := by
    rw [hrest, List.filter_filter]
    refine List.filter_congr fun x _ => ?_
    have hle : mark ≤ top number mark ys := le_top mark ys
    by_cases hx : top number mark ys < number x
    · have : mark < number x := by omega
      simp [hx, this]
    · simp [hx]
  have hnone : (ys.filter fun x => top number mark ys < number x) = [] := by
    refine List.filter_eq_nil_iff.2 fun x hx => ?_
    have hle : number x ≤ top number mark ys := le_top_of_mem hx
    simpa using hle
  have hall : (rest.filter fun x => top number mark ys < number x) = rest := by
    refine List.filter_eq_self.2 fun x hx => ?_
    have habovetop : top number mark ys < number x :=
      top_lt (habove x (List.mem_append_right _ hx)) fun y hy => hlt y hy x hx
    simpa using habovetop
  rw [hfilter, List.filter_append, hnone, hall, List.nil_append, hrest]

end HighWater

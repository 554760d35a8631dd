import Mathlib.Algebra.Ring.Nat
import MacpControlPlane.Lib.Machine

/-!
# Runs that come to an end

Some actions of a machine are its own: it is the environment's turn to answer, and it does.  When every own action
lowers a measure, a machine that is left alone takes no more own actions than the measure says
(`length_add_work_le`), and it always gets to a state in which none is enabled any more (`exists_quiet`).
-/

namespace Machine

variable {σ α : Type*} {M : Machine σ α} {own : α → Prop} {work : σ → Nat}

/-- No own action is enabled. -/
def Quiet (M : Machine σ α) (own : α → Prop) (s : σ) : Prop := ∀ a, own a → M.next s a = none

theorem length_add_work_le (hwork : ∀ s a t, own a → M.next s a = some t → work t < work s) {s t : σ} {as : List α}
    (hown : ∀ a ∈ as, own a) (h : M.exec s as = some t) : as.length + work t ≤ work s := by
  induction as generalizing s with
  | nil =>
    rw [← Option.some.inj h]
    exact Nat.le_of_eq (Nat.zero_add _)
  | cons a as ih =>
    obtain ⟨u, hu, h⟩ := exec_cons_eq_some.1 h
    obtain ⟨ha, has⟩ := List.forall_mem_cons.1 hown
    have hless := hwork s a u ha hu
    have hrest := ih has h
    rw [List.length_cons]
    omega

/-- The measure of the state bounds the own actions to come. -/
theorem exists_quiet (hwork : ∀ s a t, own a → M.next s a = some t → work t < work s) (s : σ) :
    ∃ as t, (∀ a ∈ as, own a) ∧ M.exec s as = some t ∧ M.Quiet own t := by
  induction hn : work s using Nat.strongRecOn generalizing s with
  | ind n ih =>
    by_cases hquiet : M.Quiet own s
    · exact ⟨[], s, fun a ha => absurd ha List.not_mem_nil, rfl, hquiet⟩
    · unfold Quiet at hquiet
      push Not at hquiet
      obtain ⟨a, ha, hnext⟩ := hquiet
      obtain ⟨u, hu⟩ := Option.ne_none_iff_exists'.1 hnext
      have hless := hwork s a u ha hu
      rw [hn] at hless
      obtain ⟨as, t, hown, hexec, ht⟩ := ih (work u) hless u rfl
      refine ⟨a :: as, t, List.forall_mem_cons.2 ⟨ha, hown⟩, ?_, ht⟩
      exact exec_cons_eq_some.2 ⟨u, hu, hexec⟩

/-- A step of one party lowers the measure of all. -/
theorem sum_map_set_lt {β : Type*} {f : β → Nat} {xs : List β} {i : Nat} {x y : β} (hx : xs[i]? = some x)
    (hlt : f y < f x) : ((xs.set i y).map f).sum < (xs.map f).sum := by
  induction xs generalizing i with
  | nil => cases hx
  | cons first xs ih =>
    cases i with
    | zero =>
      cases hx
      simpa using hlt
    | succ i =>
      have hrest := ih hx
      simp only [List.set_cons_succ, List.map_cons, List.sum_cons]
      omega

end Machine

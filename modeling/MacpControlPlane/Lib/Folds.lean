import Mathlib.Data.List.Induction

/-!
# Registers and maxima in a fold

A fold over a list of events often has parts that an event either overwrites or leaves alone.  Such a part ends as what
the last event to write it has written.  A fold that keeps the greater of two items ends with an item that none exceeds.
-/

namespace Folds

variable {σ α β : Type*}

/-- What the items write into a register last. -/
def lastWrite (write : α → Option β) (as : List α) : Option β :=
  (as.filterMap write).getLast?

variable {write : α → Option β}

@[simp] theorem lastWrite_nil : lastWrite write [] = none := rfl

theorem lastWrite_append (as bs : List α) :
    lastWrite write (as ++ bs) = (lastWrite write bs).or (lastWrite write as) := by
  simp [lastWrite, List.getLast?_append]

theorem lastWrite_singleton (a : α) : lastWrite write [a] = write a := by
  cases h : write a <;> simp [lastWrite, h]

theorem lastWrite_cons (a : α) (as : List α) : lastWrite write (a :: as) = (lastWrite write as).or (write a) := by
  rw [← List.singleton_append, lastWrite_append, lastWrite_singleton]

theorem lastWrite_eq_none {as : List α} : lastWrite write as = none ↔ ∀ a ∈ as, write a = none := by
  simp [lastWrite]

/-- A register that every item overwrites or leaves alone holds the last write. -/
theorem read_foldl {step : σ → α → σ} (read : σ → Option β)
    (h : ∀ s a, read (step s a) = (write a).or (read s)) (s : σ) (as : List α) :
    read (as.foldl step s) = (lastWrite write as).or (read s) := by
  induction as using List.reverseRecOn with
  | nil => rfl
  | append_singleton as a ih =>
    rw [List.foldl_append, List.foldl_cons, List.foldl_nil, h, ih, lastWrite_append, lastWrite_singleton,
      Option.or_assoc]

/-- `xs.reduce((a, b) => (a > b ? a : b))` for an order `gt` is an item that no item exceeds. -/
theorem foldl_greater (gt : α → α → Bool) (hirrefl : ∀ a, gt a a = false)
    (hasymm : ∀ a b, gt a b = true → gt b a = false)
    (htrans : ∀ a b c, gt a b = false → gt b c = false → gt a c = false) (a : α) (as : List α) :
    as.foldl (fun a b => if gt a b then a else b) a ∈ a :: as ∧
      ∀ x ∈ a :: as, gt x (as.foldl (fun a b => if gt a b then a else b) a) = false := by
  induction as generalizing a with
  | nil => simpa using hirrefl a
  | cons b as ih =>
    rw [List.foldl_cons]
    by_cases hgt : gt a b = true
    · rw [if_pos hgt]
      obtain ⟨hmem, hmax⟩ := ih a
      obtain ⟨ha, hrest⟩ := List.forall_mem_cons.1 hmax
      refine ⟨?_, List.forall_mem_cons.2 ⟨ha, List.forall_mem_cons.2 ⟨?_, hrest⟩⟩⟩
      · rcases List.mem_cons.1 hmem with h | h
        · exact List.mem_cons.2 (.inl h)
        · exact List.mem_cons_of_mem _ (List.mem_cons_of_mem _ h)
      · exact htrans b a _ (hasymm a b hgt) ha
    · rw [if_neg hgt]
      obtain ⟨hmem, hmax⟩ := ih b
      refine ⟨List.mem_cons_of_mem _ hmem, List.forall_mem_cons.2 ⟨?_, hmax⟩⟩
      exact htrans a b _ (by simpa using hgt) (hmax b List.mem_cons_self)

end Folds

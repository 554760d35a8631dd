import Mathlib.Data.List.Infix

/-!
# Splitting at a separator

`split` cuts a list at the occurrences of a separator of any length, from the left to the right, and `after` finds the
first one.  What `split` gives never contains the separator (`not_infix_of_mem_split`), and it takes lists apart again
that have been joined, unless the separator occurs where it has not been put (`split_intercalate`).
-/

namespace SplitText

variable {α : Type*} [DecidableEq α]

/-- The pieces of a list; the first `skip` elements belong to an occurrence of the separator. -/
def pieces (sep : List α) : Nat → List α → List (List α)
  | _, [] => [[]]
  | skip + 1, _ :: l => pieces sep skip l
  | 0, a :: l =>
    if sep.isPrefixOf (a :: l) then [] :: pieces sep (sep.length - 1) l else (pieces sep 0 l).modifyHead (a :: ·)

def split (sep l : List α) : List (List α) := pieces sep 0 l

/-- What follows the first occurrence. -/
def after (sep : List α) : List α → Option (List α)
  | [] => none
  | a :: l => if sep.isPrefixOf (a :: l) then some ((a :: l).drop sep.length) else after sep l

variable {sep : List α}

theorem pieces_ne_nil (skip : Nat) (l : List α) : pieces sep skip l ≠ [] := by
  induction l generalizing skip with
  | nil => exact List.cons_ne_nil _ _
  | cons a l ih =>
    cases skip with
    | succ skip => exact ih skip
    | zero =>
      unfold pieces
      split
      · exact List.cons_ne_nil _ _
      · rw [Ne, List.modifyHead_eq_nil_iff]
        exact ih 0

theorem pieces_drop (skip : Nat) (l : List α) : pieces sep skip l = pieces sep 0 (l.drop skip) := by
  induction l generalizing skip with
  | nil => cases skip <;> rfl
  | cons a l ih =>
    cases skip with
    | zero => rfl
    | succ skip => exact ih skip

/-- The first piece is what comes before the first occurrence. -/
theorem isPrefix_of_pieces {l head : List α} {rest : List (List α)} (h : pieces sep 0 l = head :: rest) :
    head <+: l := by
  induction l generalizing head rest with
  | nil =>
    rw [pieces] at h
    rw [← (List.cons.inj h).1]
  | cons a l ih =>
    unfold pieces at h
    split at h
    · rw [← (List.cons.inj h).1]
      exact List.nil_prefix
    · cases hpieces : pieces sep 0 l with
      | nil => exact absurd hpieces (pieces_ne_nil 0 l)
      | cons first others =>
        rw [hpieces, List.modifyHead_cons] at h
        rw [← (List.cons.inj h).1]
        exact (List.prefix_cons_inj a).2 (ih hpieces)

/-- No piece contains the separator. -/
theorem not_infix_of_mem_pieces (hsep : sep ≠ []) {skip : Nat} {l piece : List α} (h : piece ∈ pieces sep skip l) :
    ¬ sep <:+: piece := by
  induction l generalizing skip piece with
  | nil =>
    rw [show pieces sep skip ([] : List α) = [[]] by cases skip <;> rfl, List.mem_singleton] at h
    rwa [h, List.infix_nil]
  | cons a l ih =>
    cases skip with
    | succ skip => exact ih h
    | zero =>
      unfold pieces at h
      split at h
      · rcases List.mem_cons.1 h with rfl | h
        · rwa [List.infix_nil]
        · exact ih h
      · rename_i hnot
        cases hpieces : pieces sep 0 l with
        | nil => exact absurd hpieces (pieces_ne_nil 0 l)
        | cons first others =>
          rw [hpieces, List.modifyHead_cons, List.mem_cons] at h
          rcases h with rfl | h
          · rw [List.infix_cons_iff]
            rintro (hbegins | hoccurs)
            · exact hnot (List.isPrefixOf_iff_prefix.2
                (hbegins.trans ((List.prefix_cons_inj a).2 (isPrefix_of_pieces hpieces))))
            · exact ih (hpieces ▸ List.mem_cons_self) hoccurs
          · exact ih (hpieces ▸ List.mem_cons_of_mem _ h)

theorem not_infix_of_mem_split (hsep : sep ≠ []) {l piece : List α} (h : piece ∈ split sep l) : ¬ sep <:+: piece :=
  not_infix_of_mem_pieces hsep h

/-- A list without the separator is one piece. -/
theorem split_of_not_isInfix {l : List α} (h : ¬ sep <:+: l) : split sep l = [l] := by
  unfold split
  induction l with
  | nil => rfl
  | cons a l ih =>
    rw [List.infix_cons_iff, not_or] at h
    rw [pieces, if_neg fun hbegins => h.1 (List.isPrefixOf_iff_prefix.1 hbegins), ih h.2]
    rfl

/-- The separator does not start before the end of the list, even if it follows. -/
def Free (sep l : List α) : Prop := ¬ sep <:+: l ++ sep.dropLast

omit [DecidableEq α] in
theorem Free.not_isInfix {l : List α} (h : Free sep l) : ¬ sep <:+: l :=
  fun hoccurs => h (hoccurs.trans (List.prefix_append l _).isInfix)

omit [DecidableEq α] in
theorem Free.of_cons {a : α} {l : List α} (h : Free sep (a :: l)) : Free sep l :=
  fun hoccurs => h (List.infix_cons_iff.2 (Or.inr hoccurs))

omit [DecidableEq α] in
/-- The separator that follows is not found at the first element. -/
theorem Free.not_isPrefix (hsep : sep ≠ []) {a : α} {l : List α} (h : Free sep (a :: l)) (rest : List α) :
    ¬ sep <+: a :: (l ++ sep ++ rest) := by
  intro hbegins
  have htext : a :: (l ++ sep ++ rest) = a :: l ++ sep.dropLast ++ ([sep.getLast hsep] ++ rest) := by
    rw [← List.append_assoc, List.append_assoc (a :: l), List.dropLast_append_getLast]
    rfl
  have hlength : sep.length ≤ (a :: l ++ sep.dropLast).length := by
    rw [List.length_append, List.length_cons, List.length_dropLast]
    omega
  rw [htext] at hbegins
  exact h (List.prefix_of_prefix_length_le hbegins (List.prefix_append _ _) hlength).isInfix

omit [DecidableEq α] in
/-- A separator of two different elements cannot overlap itself. -/
theorem free_pair_iff {a b : α} (h : a ≠ b) {l : List α} : Free [a, b] l ↔ ¬ [a, b] <:+: l := by
  refine ⟨Free.not_isInfix, fun hnot => ?_⟩
  rintro ⟨before, rest, htext⟩
  rcases List.eq_nil_or_concat rest with rfl | ⟨rest, c, rfl⟩
  · have hlast := congrArg List.getLast? htext
    simp only [List.append_nil, List.dropLast_cons_cons, List.dropLast_singleton, List.getLast?_append,
      List.getLast?_cons_cons, List.getLast?_singleton, Option.some_or, Option.some.injEq] at hlast
    exact h hlast.symm
  · rw [List.concat_eq_append, ← List.append_assoc] at htext
    exact hnot ⟨before, rest, (List.append_inj' htext rfl).1⟩

/-- The separator is found where it stands. -/
theorem isPrefixOf_append (a : α) (tail rest : List α) : (a :: tail).isPrefixOf (a :: (tail ++ rest)) = true :=
  List.isPrefixOf_iff_prefix.2 (List.prefix_append (a :: tail) rest)

/-- Before the separator comes a piece. -/
theorem split_append (hsep : sep ≠ []) {l : List α} (h : Free sep l) (rest : List α) :
    split sep (l ++ sep ++ rest) = l :: split sep rest := by
  unfold split
  induction l with
  | nil =>
    obtain ⟨a, tail, rfl⟩ := List.exists_cons_of_ne_nil hsep
    rw [List.nil_append, List.cons_append, pieces, if_pos (isPrefixOf_append a tail rest), pieces_drop,
      List.length_cons, Nat.add_sub_cancel, List.drop_left]
  | cons a l ih =>
    rw [List.cons_append, List.cons_append, pieces,
      if_neg fun hbegins => h.not_isPrefix hsep rest (List.isPrefixOf_iff_prefix.1 hbegins), ih h.of_cons]
    rfl

/-- What has been joined with a separator that does not occur otherwise is taken apart again. -/
theorem split_intercalate (hsep : sep ≠ []) {ls : List (List α)} (hne : ls ≠ []) (h : ∀ l ∈ ls, Free sep l) :
    split sep (sep.intercalate ls) = ls := by
  induction ls with
  | nil => exact absurd rfl hne
  | cons l ls ih =>
    rw [List.forall_mem_cons] at h
    cases ls with
    | nil =>
      rw [List.intercalate_singleton]
      exact split_of_not_isInfix h.1.not_isInfix
    | cons l' ls => rw [List.intercalate_cons_cons, split_append hsep h.1, ih (List.cons_ne_nil _ _) h.2]

/-- The first separator is the one that has been put there. -/
theorem after_append (hsep : sep ≠ []) {l : List α} (h : Free sep l) (rest : List α) :
    after sep (l ++ sep ++ rest) = some rest := by
  induction l with
  | nil =>
    obtain ⟨a, tail, rfl⟩ := List.exists_cons_of_ne_nil hsep
    rw [List.nil_append, List.cons_append, after, if_pos (isPrefixOf_append a tail rest), ← List.cons_append,
      List.drop_left]
  | cons a l ih =>
    rw [List.cons_append, List.cons_append, after,
      if_neg fun hbegins => h.not_isPrefix hsep rest (List.isPrefixOf_iff_prefix.1 hbegins), ih h.of_cons]

end SplitText

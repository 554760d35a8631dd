import Mathlib.Algebra.BigOperators.Group.List.Basic
import Mathlib.Algebra.GroupWithZero.Nat
import Mathlib.Data.List.Nodup
import MacpControlPlane.Lib.Js

/-!
# Lists that are changed in place

A program that keeps records in an array finds the first one with a key, and changes it in place or, when there is none,
pushes a new one.  The lemmas say what this keeps: the keys, what holds of every record, and a sum over the records.
Where the keys are distinct, the change is a map over the list (`modifyFirst_eq_map`).
-/

namespace Js

variable {α : Type} {κ : Type*} {p : α → Bool} {f : α → α} {xs : List α}

theorem forall_mem_modifyFirst {P : α → Prop} (h : ∀ x ∈ xs, P x) (hf : ∀ x ∈ xs, p x → P x → P (f x)) :
    ∀ x ∈ modifyFirst p f xs, P x := by
  induction xs with
  | nil => simp [modifyFirst]
  | cons x xs ih =>
    obtain ⟨hx, hxs⟩ := List.forall_mem_cons.1 h
    obtain ⟨hfx, hfxs⟩ := List.forall_mem_cons.1 hf
    unfold modifyFirst
    split
    · exact List.forall_mem_cons.2 ⟨hfx ‹_› hx, hxs⟩
    · exact List.forall_mem_cons.2 ⟨hx, ih hxs hfxs⟩

/-- A change that leaves the key alone leaves the list of keys alone. -/
theorem map_modifyFirst (key : α → κ) (hf : ∀ x, key (f x) = key x) : (modifyFirst p f xs).map key = xs.map key := by
  induction xs with
  | nil => rfl
  | cons x xs ih =>
    unfold modifyFirst
    split
    · simp [hf]
    · simp [ih]

/-- An item stays, or it is the first one and is changed. -/
theorem mem_modifyFirst {x : α} (hx : x ∈ xs) :
    x ∈ modifyFirst p f xs ∨ xs.find? p = some x ∧ f x ∈ modifyFirst p f xs := by
  induction xs with
  | nil => cases hx
  | cons y xs ih =>
    unfold modifyFirst
    cases hy : p y with
    | true =>
      rcases List.mem_cons.1 hx with rfl | hx
      · exact .inr ⟨by simp [hy], by simp⟩
      · exact .inl (List.mem_cons_of_mem _ hx)
    | false =>
      rcases List.mem_cons.1 hx with rfl | hx
      · exact .inl (by simp)
      · rcases ih hx with h | ⟨hfind, h⟩
        · exact .inl (List.mem_cons_of_mem _ h)
        · exact .inr ⟨by simp [hy, hfind], List.mem_cons_of_mem _ h⟩

theorem length_modifyFirst : (modifyFirst p f xs).length = xs.length := by
  induction xs with
  | nil => rfl
  | cons x xs ih =>
    unfold modifyFirst
    split
    · rfl
    · simp [ih]

/-- Where the keys are distinct, only the item with the key is changed. -/
theorem modifyFirst_eq_map [DecidableEq κ] (key : α → κ) (k : κ) (h : (xs.map key).Nodup) :
    modifyFirst (fun x => key x = k) f xs = xs.map fun x => if key x = k then f x else x := by
  induction xs with
  | nil => rfl
  | cons x xs ih =>
    obtain ⟨hx, hxs⟩ := List.nodup_cons.1 h
    by_cases hk : key x = k
    · have hrest : xs.map (fun x => if key x = k then f x else x) = xs.map id := by
        refine List.map_congr_left fun y hy => if_neg ?_
        rintro rfl
        exact hx (hk ▸ List.mem_map_of_mem hy)
      simp [modifyFirst, hk, hrest]
    · simp [modifyFirst, hk, ih hxs]

/-- A sum over the items grows by what the change adds to the item that is found. -/
theorem sum_map_modifyFirst (weight : α → Nat) (d : Nat) (hf : ∀ x ∈ xs, p x → weight (f x) = weight x + d)
    (hany : xs.any p) : ((modifyFirst p f xs).map weight).sum = (xs.map weight).sum + d := by
  induction xs with
  | nil => simp at hany
  | cons x xs ih =>
    obtain ⟨hfx, hfxs⟩ := List.forall_mem_cons.1 hf
    unfold modifyFirst
    split
    · rename_i hx
      simp only [List.map_cons, List.sum_cons, hfx hx]
      omega
    · rename_i hx
      have hrest : xs.any p := by simpa [hx] using hany
      simp only [List.map_cons, List.sum_cons, ih hfxs hrest]
      omega

theorem nodup_map_concat (key : α → κ) {x : α} (h : (xs.map key).Nodup) (hx : key x ∉ xs.map key) :
    ((xs ++ [x]).map key).Nodup := by
  rw [List.map_append, List.map_singleton]
  exact List.Nodup.append h (List.nodup_singleton _) (by simpa using hx)

/-! ### Several changes in a row -/

section Changes

variable {β : Type*} [DecidableEq κ] {key : α → κ} {k : β → κ} {change : β → α → α} {bs : List β} {x : α}

/-- Each item after the changes of `bs`, of which each one changes the items with its key. -/
def changeAll (key : α → κ) (k : β → κ) (change : β → α → α) (bs : List β) (x : α) : α :=
  bs.foldl (fun x b => if key x = k b then change b x else x) x

theorem changeAll_cons (b : β) : changeAll key k change (b :: bs) x =
    changeAll key k change bs (if key x = k b then change b x else x) := rfl

/-- What every change leaves alone stays as it is. -/
theorem changeAll_keeps {γ : Type*} {part : α → γ} (h : ∀ b x, part (change b x) = part x) (x : α) :
    part (changeAll key k change bs x) = part x := by
  induction bs generalizing x with
  | nil => rfl
  | cons b bs ih =>
    rw [changeAll_cons, ih]
    split
    · exact h b x
    · rfl

theorem foldl_modifyFirst_eq_map (hkey : ∀ b x, key (change b x) = key x) (h : (xs.map key).Nodup) :
    bs.foldl (fun xs b => modifyFirst (fun x => key x = k b) (change b) xs) xs =
      xs.map (changeAll key k change bs) := by
  induction bs generalizing xs with
  | nil => exact (List.map_id xs).symm
  | cons b bs ih =>
    have hmap : modifyFirst (fun x => key x = k b) (change b) xs =
        xs.map fun x => if key x = k b then change b x else x := modifyFirst_eq_map key (k b) h
    have hkeys : ((modifyFirst (fun x => key x = k b) (change b) xs).map key).Nodup := by
      rwa [map_modifyFirst key (hkey b)]
    rw [List.foldl_cons, ih hkeys, hmap, List.map_map]
    rfl

theorem map_foldl_modifyFirst (hkey : ∀ b x, key (change b x) = key x) :
    (bs.foldl (fun xs b => modifyFirst (fun x => key x = k b) (change b) xs) xs).map key = xs.map key := by
  induction bs generalizing xs with
  | nil => rfl
  | cons b bs ih => rw [List.foldl_cons, ih, map_modifyFirst key (hkey b)]

theorem changeAll_of_forall_ne (h : ∀ b ∈ bs, key x ≠ k b) : changeAll key k change bs x = x := by
  induction bs with
  | nil => rfl
  | cons b bs ih =>
    obtain ⟨hb, hbs⟩ := List.forall_mem_cons.1 h
    rw [changeAll_cons, if_neg hb, ih hbs]

/-- Where the keys of the changes are distinct, an item meets only the one with its key. -/
theorem changeAll_of_mem (hkey : ∀ b x, key (change b x) = key x) (hbs : (bs.map k).Nodup) {b : β} (hb : b ∈ bs)
    (hx : key x = k b) : changeAll key k change bs x = change b x := by
  induction bs with
  | nil => cases hb
  | cons c bs ih =>
    obtain ⟨hc, hbs⟩ := List.nodup_cons.1 hbs
    rw [changeAll_cons]
    rcases List.mem_cons.1 hb with rfl | hb
    · rw [if_pos hx]
      refine changeAll_of_forall_ne fun d hd heq => ?_
      rw [hkey, hx] at heq
      exact hc (heq ▸ List.mem_map_of_mem hd)
    · have hne : key x ≠ k c := by
        intro heq
        rw [hx] at heq
        exact hc (heq ▸ List.mem_map_of_mem hb)
      rw [if_neg hne]
      exact ih hbs hb

end Changes

end Js

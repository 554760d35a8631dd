import Mathlib.Algebra.BigOperators.Group.List.Lemmas
import Mathlib.Algebra.Ring.Nat
import Mathlib.Data.List.Dedup

/-!
# Grouping rows by a key

`groupBy key agg rows` has one entry for each key that occurs in the rows: the key, and what `agg` makes of the rows
with that key.

* `mem_groupBy` says which entries there are;
* a count over the groups adds up to the count over all rows (`sum_groupBy_countP`), in whatever order the groups are
  listed.
-/

namespace Grouping

variable {α κ β : Type*} [DecidableEq κ] {key : α → κ} {agg : List α → β} {rows : List α}

/-- The rows with the key `k`. -/
def group (key : α → κ) (rows : List α) (k : κ) : List α := rows.filter fun row => key row = k

/-- Each key, with the aggregate of its rows. -/
def groupBy (key : α → κ) (agg : List α → β) (rows : List α) : List (κ × β) :=
  (rows.map key).dedup.map fun k => (k, agg (group key rows k))

@[simp] theorem mem_group {row : α} {k : κ} : row ∈ group key rows k ↔ row ∈ rows ∧ key row = k := by
  simp [group]

@[simp] theorem groupBy_nil : groupBy key agg [] = [] := rfl

theorem mem_groupBy {k : κ} {b : β} :
    (k, b) ∈ groupBy key agg rows ↔ (∃ row ∈ rows, key row = k) ∧ b = agg (group key rows k) := by
  unfold groupBy
  simp only [List.mem_map, List.mem_dedup, Prod.mk.injEq]
  constructor
  · rintro ⟨_, hk, rfl, rfl⟩
    exact ⟨hk, rfl⟩
  · rintro ⟨hk, rfl⟩
    exact ⟨k, hk, rfl, rfl⟩

/-- The groups of distinct keys, and the rows that are in none of them, are all rows. -/
theorem perm_flatMap_group {ks : List κ} (hks : ks.Nodup) :
    (rows.filter (fun row => key row ∉ ks) ++ ks.flatMap (group key rows)).Perm rows := by
  induction ks with
  | nil => simp
  | cons k ks ih =>
    obtain ⟨hk, hks⟩ := List.nodup_cons.1 hks
    have hgroup : (rows.filter fun row => key row ∉ ks).filter (fun row => key row = k) = group key rows k := by
      rw [group, List.filter_filter]
      refine List.filter_congr fun row _ => Bool.eq_iff_iff.2 ?_
      simp only [Bool.and_eq_true, decide_eq_true_eq]
      exact ⟨fun h => h.1, fun h => ⟨h, h ▸ hk⟩⟩
    have hrest : (rows.filter fun row => key row ∉ ks).filter (fun row => !decide (key row = k)) =
        rows.filter fun row => key row ∉ k :: ks := by
      rw [List.filter_filter]
      refine List.filter_congr fun row _ => ?_
      simp
    have hsplit := List.filter_append_perm (fun row => decide (key row = k)) (rows.filter fun row => key row ∉ ks)
    rw [hgroup, hrest] at hsplit
    rw [List.flatMap_cons, ← List.append_assoc]
    exact ((List.perm_append_comm.trans hsplit).append_right _).trans (ih hks)

/-- A row is in one of distinct groups. -/
theorem sum_map_indicator {ks : List κ} (hks : ks.Nodup) {k : κ} (hk : k ∈ ks) :
    (ks.map fun l => if k = l then 1 else 0).sum = 1 := by
  induction ks with
  | nil => cases hk
  | cons l ks ih =>
    obtain ⟨hl, hks⟩ := List.nodup_cons.1 hks
    rw [List.map_cons, List.sum_cons]
    by_cases hkl : k = l
    · subst hkl
      have hzero : (ks.map fun l => if k = l then 1 else 0).sum = 0 := by
        refine List.sum_eq_zero fun n hn => ?_
        obtain ⟨l, hmem, rfl⟩ := List.mem_map.1 hn
        have hne : k ≠ l := by
          rintro rfl
          exact hl hmem
        exact if_neg hne
      rw [if_pos rfl, hzero]
    · rw [if_neg hkl, ih hks ((List.mem_cons.1 hk).resolve_left hkl)]

/-- Distinct keys that cover the rows split every count. -/
theorem sum_map_countP {ks : List κ} (hks : ks.Nodup) (hcover : ∀ row ∈ rows, key row ∈ ks) (p : α → Bool) :
    (ks.map fun k => (group key rows k).countP p).sum = rows.countP p := by
  induction rows with
  | nil => simp [group]
  | cons row rows ih =>
    obtain ⟨hrow, hrows⟩ := List.forall_mem_cons.1 hcover
    have hsplit : ∀ k, (group key (row :: rows) k).countP p =
        (group key rows k).countP p + if p row then if key row = k then 1 else 0 else 0 := by
      intro k
      unfold group
      by_cases hk : key row = k
      · rw [List.filter_cons_of_pos (by simpa using hk), List.countP_cons]
        simp [hk]
      · rw [List.filter_cons_of_neg (by simpa using hk)]
        simp [hk]
    simp only [hsplit]
    rw [List.sum_map_add, ih hrows, List.countP_cons]
    congr 1
    by_cases hp : p row = true
    · simp only [hp, if_true]
      exact sum_map_indicator hks hrow
    · simp [hp]

/-- The counts of the groups add up to the count of all rows. -/
theorem sum_groupBy_countP (p : α → Bool) :
    ((groupBy key (List.countP p) rows).map Prod.snd).sum = rows.countP p := by
  have hcover : ∀ row ∈ rows, key row ∈ (rows.map key).dedup := fun row hrow =>
    List.mem_dedup.2 (List.mem_map_of_mem hrow)
  unfold groupBy
  rw [List.map_map]
  exact sum_map_countP (List.nodup_dedup _) hcover p

end Grouping

import Mathlib.Data.List.Nodup

/-!
# Tables with a key

A table is a list of rows, of which `key` is the key.  `get` reads the row with a key, `put` writes it and `remove`
deletes it; a row is inserted at the end.

* A row can be read back after it has been written (`get_put_self`) or inserted (`get_concat_self`), and no other row
  changes (`get_put_of_ne`, `get_concat_of_ne`, `get_remove_of_ne`).
* Where the keys are distinct, every row is what its key reads (`get_eq_some_of_mem`), and the operations keep them
  distinct (`nodup_put`, `nodup_concat`, `nodup_remove`).
* `latest` reads the row with the largest number: a row that is there (`latest_mem`), and the one that all others come
  before (`latest_eq_some`).  In rows that are stored in the order of their numbers it is the last one
  (`latest_filter`).
-/

namespace Table

variable {α κ : Type*} [DecidableEq κ] (key : α → κ)

/-- The row with key `k`. -/
def get (rows : List α) (k : κ) : Option α := rows.find? fun row => key row = k

/-- Write the row with key `k`. -/
def put (rows : List α) (k : κ) (row' : α) : List α := rows.map fun row => if key row = k then row' else row

/-- Delete the row with key `k`. -/
def remove (rows : List α) (k : κ) : List α := rows.filter fun row => key row ≠ k

variable {key} {rows : List α} {row row' x : α} {j k : κ}

theorem mem_of_get (h : get key rows k = some row) : row ∈ rows := List.mem_of_find?_eq_some h

theorem key_of_get (h : get key rows k = some row) : key row = k := by simpa using List.find?_some h

theorem get_eq_none : get key rows k = none ↔ ∀ row ∈ rows, key row ≠ k := by simp [get]

theorem mem_put (h : x ∈ put key rows k row') : x ∈ rows ∨ x = row' := by
  obtain ⟨row, hrow, rfl⟩ := List.mem_map.1 h
  split
  · exact Or.inr rfl
  · exact Or.inl hrow

/-- The keys stay where they are. -/
theorem map_key_put (h : key row' = k) : (put key rows k row').map key = rows.map key := by
  rw [put, List.map_map]
  refine List.map_congr_left fun row _ => ?_
  by_cases hrow : key row = k
  · simp [hrow, h]
  · simp [hrow]

theorem get_put_self (h : get key rows k = some row) (hkey : key row' = k) :
    get key (put key rows k row') k = some row' := by
  induction rows with
  | nil => exact absurd h (by simp [get])
  | cons x rows ih =>
    by_cases hx : key x = k
    · simp [get, put, hx, hkey]
    · have hrest : get key rows k = some row := by simpa [get, hx] using h
      have := ih hrest
      simpa [get, put, hx] using this

theorem get_put_of_ne (hkey : key row' = k) (hne : j ≠ k) : get key (put key rows k row') j = get key rows j := by
  induction rows with
  | nil => rfl
  | cons x rows ih =>
    by_cases hx : key x = k
    · have hk : key row' ≠ j := by
        rw [hkey]
        exact hne.symm
      have hxj : key x ≠ j := by
        rw [hx]
        exact hne.symm
      simpa [get, put, hx, hk, hxj, hne.symm] using ih
    · by_cases hxj : key x = j
      · simp [get, put, hxj, hne]
      · simpa [get, put, hx, hxj] using ih

theorem get_concat_self (h : get key rows (key row) = none) : get key (rows ++ [row]) (key row) = some row := by
  rw [get, List.find?_append, show rows.find? _ = none from h]
  simp

theorem get_concat_of_ne (hne : key row ≠ j) : get key (rows ++ [row]) j = get key rows j := by
  rw [get, List.find?_append]
  simp [hne, get]

theorem get_cons_self (h : key row = k) : get key (row :: rows) k = some row := by simp [get, h]

theorem get_cons_of_ne (hne : key row ≠ k) : get key (row :: rows) k = get key rows k := by simp [get, hne]

theorem get_remove_self : get key (remove key rows k) k = none :=
  get_eq_none.2 fun row hrow => by simpa using (List.mem_filter.1 hrow).2

theorem get_remove_of_ne (hne : j ≠ k) : get key (remove key rows k) j = get key rows j := by
  induction rows with
  | nil => rfl
  | cons x rows ih =>
    by_cases hx : key x = k
    · have hxj : key x ≠ j := by
        rw [hx]
        exact hne.symm
      simpa [get, remove, hx, hxj, hne.symm] using ih
    · by_cases hxj : key x = j
      · simp [get, remove, hxj, hne]
      · simpa [get, remove, hx, hxj] using ih

/-- Where the keys are distinct, every row can be read. -/
theorem get_eq_some_of_mem (hnodup : (rows.map key).Nodup) (h : row ∈ rows) : get key rows (key row) = some row := by
  cases hget : get key rows (key row) with
  | none => exact absurd rfl (get_eq_none.1 hget row h)
  | some other =>
    rw [List.inj_on_of_nodup_map hnodup h (mem_of_get hget) (key_of_get hget).symm]

theorem nodup_put (h : (rows.map key).Nodup) (hkey : key row' = k) : ((put key rows k row').map key).Nodup := by
  rw [map_key_put hkey]
  exact h

theorem nodup_concat (h : (rows.map key).Nodup) (hnone : get key rows (key row) = none) :
    ((rows ++ [row]).map key).Nodup := by
  rw [List.map_append, List.nodup_append]
  refine ⟨h, List.nodup_singleton _, ?_⟩
  rintro k hk _ hrow rfl
  obtain ⟨other, hother, rfl⟩ := List.mem_map.1 hk
  exact get_eq_none.1 hnone other hother (by simpa using hrow)

theorem nodup_remove (h : (rows.map key).Nodup) : ((remove key rows k).map key).Nodup :=
  h.sublist (List.filter_sublist.map key)

/-! ### The last row -/

/-- `ORDER BY seq DESC LIMIT 1` -/
def latest (seq : α → Nat) (rows : List α) : Option α := (rows.mergeSort fun a b => seq b ≤ seq a).head?

theorem latest_mem {seq : α → Nat} (h : latest seq rows = some row) : row ∈ rows :=
  List.mem_mergeSort.1 (List.mem_of_head? h)

theorem exists_latest {seq : α → Nat} (h : row ∈ rows) : ∃ x, latest seq rows = some x := by
  refine Option.isSome_iff_exists.1 (List.isSome_head?.2 ?_)
  exact List.ne_nil_of_mem (List.mem_mergeSort.2 h)

theorem seq_le_latest {seq : α → Nat} (h : latest seq rows = some x) (hrow : row ∈ rows) : seq row ≤ seq x := by
  have hsorted : (rows.mergeSort fun a b => decide (seq b ≤ seq a)).Pairwise fun a b => decide (seq b ≤ seq a) :=
    List.pairwise_mergeSort (by simp; omega) (by simp; omega) rows
  have hmem : row ∈ rows.mergeSort fun a b => decide (seq b ≤ seq a) := List.mem_mergeSort.2 hrow
  unfold latest at h
  cases hsort : rows.mergeSort fun a b => decide (seq b ≤ seq a) with
  | nil =>
    rw [hsort] at h
    cases h
  | cons y ys =>
    rw [hsort] at h hmem hsorted
    obtain rfl : y = x := Option.some.inj h
    rcases List.mem_cons.1 hmem with rfl | hys
    · exact Nat.le_refl _
    · exact of_decide_eq_true ((List.pairwise_cons.1 hsorted).1 row hys)

theorem latest_eq_some {seq : α → Nat} (h : row ∈ rows) (hlt : ∀ x ∈ rows, x ≠ row → seq x < seq row) :
    latest seq rows = some row := by
  obtain ⟨x, hx⟩ : ∃ x, latest seq rows = some x := exists_latest h
  by_contra hne
  have hxne : x ≠ row := by
    rintro rfl
    exact hne hx
  have hbelow := hlt x (latest_mem hx) hxne
  have habove := seq_le_latest hx h
  omega

/-- Behind the last row with a property there is none. -/
theorem exists_of_find?_reverse {p : α → Bool} (h : rows.reverse.find? p = some row) :
    p row = true ∧ ∃ before after, rows = before ++ row :: after ∧ ∀ x ∈ after, p x = false := by
  obtain ⟨hp, after, before, hrows, hafter⟩ := List.find?_eq_some_iff_append.1 h
  refine ⟨hp, before.reverse, after.reverse, ?_, ?_⟩
  · rw [← List.reverse_reverse rows, hrows]
    simp
  · intro x hx
    have hnot := hafter x (List.mem_reverse.1 hx)
    simpa using hnot

/-- Rows that are stored in the order of their numbers: of those with a property, the last one is read. -/
theorem latest_filter {seq : α → Nat} (h : rows.Pairwise fun a b => seq a < seq b) (p : α → Bool) :
    latest seq (rows.filter p) = rows.reverse.find? p := by
  rw [← List.getLast?_filter]
  have hfilter : (rows.filter p).Pairwise fun a b => seq a < seq b := h.filter p
  rcases List.eq_nil_or_concat (rows.filter p) with hnil | ⟨init, last, hlast⟩
  · simp [hnil, latest]
  · rw [hlast, List.concat_eq_append] at hfilter ⊢
    rw [List.getLast?_append_of_ne_nil _ (List.cons_ne_nil _ _), List.getLast?_singleton]
    refine latest_eq_some (by simp) fun x hx hne => ?_
    rcases List.mem_append.1 hx with hinit | hx
    · exact (List.pairwise_append.1 hfilter).2.2 x hinit last (List.mem_singleton_self last)
    · exact absurd (List.mem_singleton.1 hx) hne

end Table

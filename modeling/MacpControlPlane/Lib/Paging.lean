import Mathlib.Data.List.Sort
import Mathlib.Data.Prod.Lex
import Mathlib.Tactic.Ring

/-!
# Following the cursor of a paged listing

A listing answers a request with a page of rows and, unless it was the last one, with a cursor for the next request.
It orders its rows by their rank and leaves out the rows up to the cursor, which is only a part of the rank.  Following
the cursors visits every row once if and only if the cursors cut the ordered rows at the end of every page
(`Listing.complete_iff`).

A listing with offsets needs the number of its rows instead: the pages at the offsets below it are the rows
(`flatMap_offsets`).
-/

namespace Paging

variable {α β : Type}

/-- What a client collects that passes each cursor on until it gets none.  Each request costs one unit of fuel. -/
def follow (request : Option Nat → List α × Option Nat) : Nat → Option Nat → Option (List α)
  | 0, _ => none
  | fuel + 1, cursor =>
    match (request cursor).2 with
    | none => some (request cursor).1
    | some n => (follow request fuel (some n)).map ((request cursor).1 ++ ·)

/-- The client comes to an end and has collected each of the rows as often as it is there. -/
def Complete (request : Option Nat → List α × Option Nat) (rows : List α) (cursor : Option Nat) : Prop :=
  ∃ fuel visited, follow request fuel cursor = some visited ∧ visited.Perm rows

section Follow

variable {request : Option Nat → List α × Option Nat} {rows visited : List α} {cursor : Option Nat} {n fuel : Nat}

theorem complete_of_next_none (h : (request cursor).2 = none) :
    Complete request rows cursor ↔ (request cursor).1.Perm rows := by
  constructor
  · rintro ⟨fuel, visited, hfollow, hperm⟩
    cases fuel with
    | zero => cases hfollow
    | succ fuel =>
      rw [follow, h, Option.some.injEq] at hfollow
      rwa [hfollow]
  · intro hperm
    refine ⟨1, (request cursor).1, ?_, hperm⟩
    rw [follow, h]

theorem follow_of_next_some (h : (request cursor).2 = some n) :
    follow request (fuel + 1) cursor = some visited ↔
      ∃ more, follow request fuel (some n) = some more ∧ (request cursor).1 ++ more = visited := by
  rw [follow, h, Option.map_eq_some_iff]

theorem complete_of_next_some (h : (request cursor).2 = some n) :
    Complete request rows cursor ↔
      ∃ fuel more, follow request fuel (some n) = some more ∧ ((request cursor).1 ++ more).Perm rows := by
  constructor
  · rintro ⟨fuel, visited, hfollow, hperm⟩
    cases fuel with
    | zero => cases hfollow
    | succ fuel =>
      obtain ⟨more, hmore, rfl⟩ := (follow_of_next_some h).1 hfollow
      exact ⟨fuel, more, hmore, hperm⟩
  · rintro ⟨fuel, more, hmore, hperm⟩
    exact ⟨fuel + 1, _, (follow_of_next_some h).2 ⟨more, hmore, rfl⟩, hperm⟩

/-- The first page is part of what the client collects. -/
theorem page_subset_of_follow (h : follow request fuel cursor = some visited) : (request cursor).1 ⊆ visited := by
  cases fuel with
  | zero => cases h
  | succ fuel =>
    cases hnext : (request cursor).2 with
    | none =>
      rw [follow, hnext, Option.some.injEq] at h
      rw [h]
      exact List.Subset.refl _
    | some n =>
      obtain ⟨more, -, rfl⟩ := (follow_of_next_some hnext).1 h
      exact List.subset_append_left _ _

theorem follow_unique {fuel' : Nat} {visited' : List α} (h : follow request fuel cursor = some visited)
    (h' : follow request fuel' cursor = some visited') : visited = visited' := by
  induction fuel generalizing cursor visited fuel' visited' with
  | zero => cases h
  | succ fuel ih =>
    cases fuel' with
    | zero => cases h'
    | succ fuel' =>
      cases hnext : (request cursor).2 with
      | none =>
        rw [follow, hnext, Option.some.injEq] at h h'
        exact h.symm.trans h'
      | some n =>
        obtain ⟨more, hmore, rfl⟩ := (follow_of_next_some hnext).1 h
        obtain ⟨more', hmore', rfl⟩ := (follow_of_next_some hnext).1 h'
        rw [ih hmore hmore']

/-- The client has come to an end and has not collected the rows. -/
theorem not_complete {f : α → β} {seen : List β} (h : (follow request fuel cursor).map (List.map f) = some seen)
    (hseen : ¬ seen.Perm (rows.map f)) : ¬ Complete request rows cursor := by
  rintro ⟨fuel', visited', hfollow', hperm⟩
  obtain ⟨visited, hfollow, rfl⟩ := Option.map_eq_some_iff.1 h
  rw [follow_unique hfollow hfollow'] at hseen
  exact hseen (hperm.map f)

end Follow

/-! ### Cuts -/

/-- The entry before the position `b` is greatest among those before and less than those after. -/
def Cut (cursors : List Nat) (b : Nat) : Prop :=
  ∀ n ∈ (cursors.take b).getLast?, (∀ x ∈ cursors.take b, x ≤ n) ∧ ∀ y ∈ cursors.drop b, n < y

/-- Every page ends in a cut.  A listing that always returns a cursor has a page that ends with the rows. -/
def Tiled (always : Bool) (limit : Nat) (cursors : List Nat) : Prop :=
  ∀ b ≤ cursors.length, limit ∣ b ∨ (always = true ∧ b = cursors.length) → Cut cursors b

section Cut

variable {cursors : List Nat} {always : Bool} {limit b m : Nat}

instance : Decidable (Cut cursors b) := by
  unfold Cut
  infer_instance

instance : Decidable (Tiled always limit cursors) := by
  unfold Tiled
  infer_instance

theorem cut_zero : Cut cursors 0 := by
  intro n hn
  simp at hn

/-- After a cut, the cuts are those of the remaining entries. -/
theorem Cut.add_iff (h : Cut cursors m) : Cut cursors (m + b) ↔ Cut (cursors.drop m) b := by
  unfold Cut
  rw [List.take_add, ← List.drop_drop]
  rcases List.eq_nil_or_concat ((cursors.drop m).take b) with hnil | ⟨init, last, hlast⟩
  · have hdrop : ∀ y ∈ (cursors.drop m).drop b, y ∈ cursors.drop m := fun y hy => List.mem_of_mem_drop hy
    rw [hnil, List.append_nil]
    constructor
    · intro _ n hn
      cases hn
    · intro _ n hn
      exact ⟨(h n hn).1, fun y hy => (h n hn).2 y (hdrop y hy)⟩
  · have hmem : last ∈ cursors.drop m := by
      have htake : last ∈ (cursors.drop m).take b := by simp [hlast]
      exact List.mem_of_mem_take htake
    rw [hlast, List.concat_eq_append, ← List.append_assoc, List.getLast?_append_of_ne_nil _ (by simp)]
    constructor
    · intro hcut n hn
      rw [List.getLast?_append_of_ne_nil _ (by simp)] at hn
      obtain ⟨hbefore, hafter⟩ := hcut n hn
      refine ⟨fun x hx => hbefore x ?_, hafter⟩
      rw [List.append_assoc]
      exact List.mem_append_right _ hx
    · intro hcut n hn
      obtain rfl : last = n := by simpa using hn
      obtain ⟨hbefore, hafter⟩ := hcut last (by simp)
      refine ⟨fun x hx => ?_, hafter⟩
      rw [List.append_assoc, List.mem_append] at hx
      rcases hx with hx | hx
      · cases hfirst : (cursors.take m).getLast? with
        | none =>
          rw [List.getLast?_eq_none_iff] at hfirst
          rw [hfirst] at hx
          cases hx
        | some n =>
          have hle := (h n hfirst).1 x hx
          have hlt := (h n hfirst).2 last hmem
          omega
      · exact hbefore x hx

/-- The rows are tiled when the first page ends in a cut and the rows after it are tiled. -/
theorem tiled_iff (hnext : limit ≤ cursors.length ∨ always = true)
    (hm : m = min limit cursors.length) :
    Tiled always limit cursors ↔ Cut cursors m ∧ Tiled always limit (cursors.drop m) := by
  have hlength : (cursors.drop m).length = cursors.length - m := List.length_drop
  constructor
  · intro htiled
    have hcut : Cut cursors m := by
      refine htiled m (by omega) ?_
      rcases Nat.le_total limit cursors.length with hle | hle
      · exact Or.inl ⟨1, by omega⟩
      · by_cases heq : limit = cursors.length
        · exact Or.inl ⟨1, by omega⟩
        · exact Or.inr ⟨hnext.resolve_left (by omega), by omega⟩
    refine ⟨hcut, fun b hb hboundary => hcut.add_iff.1 (htiled (m + b) (by omega) ?_)⟩
    rw [hlength] at hb hboundary
    rcases hboundary with hdvd | ⟨halways, rfl⟩
    · by_cases hle : limit ≤ cursors.length
      · have hmeq : m = limit := by omega
        rw [hmeq]
        exact Or.inl (Nat.dvd_add (Nat.dvd_refl limit) hdvd)
      · exact Or.inr ⟨hnext.resolve_left hle, by omega⟩
    · exact Or.inr ⟨halways, by omega⟩
  · rintro ⟨hcut, htiled⟩ b hb hboundary
    by_cases hlt : b < m
    · have hzero : b = 0 := by
        rcases hboundary with hdvd | ⟨-, rfl⟩
        · exact Nat.eq_zero_of_dvd_of_lt hdvd (by omega)
        · omega
      rw [hzero]
      exact cut_zero
    · obtain ⟨d, rfl⟩ : ∃ d, b = m + d := ⟨b - m, by omega⟩
      refine hcut.add_iff.2 (htiled d (by omega) ?_)
      rcases hboundary with hdvd | ⟨halways, hd⟩
      · by_cases hle : limit ≤ cursors.length
        · have hmeq : m = limit := by omega
          rw [hmeq] at hdvd
          exact Or.inl ((Nat.dvd_add_right (Nat.dvd_refl limit)).1 hdvd)
        · exact Or.inl ⟨0, by omega⟩
      · exact Or.inr ⟨halways, by omega⟩

end Cut

/-! ### Listings -/

/-- A listing in the order of a rank.  Rows of one rank come in any order; all have the cursor that the rank gives. -/
structure Listing (α β : Type) [LinearOrder β] where
  rank : α → β
  cursor : β → Nat
  orderBy : List α → List α
  orderBy_perm : ∀ rows, (orderBy rows).Perm rows
  orderBy_sorted : ∀ rows, ((orderBy rows).map rank).Pairwise (· ≤ ·)
  limit : Nat
  limit_pos : 1 ≤ limit
  always : Bool

namespace Listing

variable [LinearOrder β] (L : Listing α β) (rows : List α) (cursor : Option Nat)

def key (a : α) : Nat := L.cursor (L.rank a)

/-- The rows past a cursor. -/
def rest : List α := rows.filter fun a => cursor.all (· < L.key a)

def page : List α := (L.orderBy (L.rest rows cursor)).take L.limit

/-- The cursor of the last row, which some listings return for full pages only. -/
def next : Option Nat :=
  if L.always || (L.page rows cursor).length = L.limit then (L.page rows cursor).getLast?.map L.key else none

def request : List α × Option Nat := (L.page rows cursor, L.next rows cursor)

/-- The cursors of the rows in the order of the listing. -/
def cursors : List Nat := ((rows.map L.rank).insertionSort (· ≤ ·)).map L.cursor

variable {L rows cursor} {n : Nat}

@[simp] theorem rest_none : L.rest rows none = rows := by simp [rest]

theorem mem_rest_some {a : α} : a ∈ L.rest rows (some n) ↔ a ∈ rows ∧ n < L.key a := by simp [rest]

theorem page_append_drop :
    L.page rows cursor ++ (L.orderBy (L.rest rows cursor)).drop L.limit = L.orderBy (L.rest rows cursor) :=
  List.take_append_drop _ _

theorem mem_rest_of_mem_page {a : α} (h : a ∈ L.page rows cursor) : a ∈ L.rest rows cursor :=
  (L.orderBy_perm _).mem_iff.1 (List.mem_of_mem_take h)

theorem next_of_always (h : L.always = true) : L.next rows cursor = (L.page rows cursor).getLast?.map L.key := by
  simp [next, h]

theorem next_of_not_always (h : L.always = false) :
    L.next rows cursor =
      if (L.page rows cursor).length = L.limit then (L.page rows cursor).getLast?.map L.key else none := by
  simp [next, h]

theorem next_eq_some (h : L.next rows cursor = some n) :
    (L.always = true ∨ (L.page rows cursor).length = L.limit) ∧
      ∃ a, (L.page rows cursor).getLast? = some a ∧ L.key a = n := by
  unfold next at h
  split at h
  · rename_i hcond
    rw [Bool.or_eq_true, decide_eq_true_eq] at hcond
    exact ⟨hcond, Option.map_eq_some_iff.1 h⟩
  · cases h

/-- Without a next cursor, the page is all that is left. -/
theorem page_perm_of_next_none (h : L.next rows cursor = none) :
    L.page rows cursor = L.orderBy (L.rest rows cursor) ∧
      (L.page rows cursor = [] ∨ L.always = false ∧ (L.page rows cursor).length < L.limit) := by
  have hpos := L.limit_pos
  have hlength : (L.page rows cursor).length = min L.limit (L.orderBy (L.rest rows cursor)).length :=
    List.length_take
  unfold next at h
  split at h
  · rw [Option.map_eq_none_iff, List.getLast?_eq_none_iff] at h
    rw [h, List.length_nil] at hlength
    have hnil : L.orderBy (L.rest rows cursor) = [] := List.eq_nil_of_length_eq_zero (by omega)
    exact ⟨by rw [h, hnil], Or.inl h⟩
  · rename_i hcond
    rw [Bool.or_eq_true, decide_eq_true_eq, not_or, Bool.not_eq_true] at hcond
    refine ⟨List.take_of_length_le (by omega), Or.inr ⟨hcond.1, by omega⟩⟩

/-- A next cursor is past the cursor it answers. -/
theorem lt_of_next_eq_some (h : L.next rows cursor = some n) : cursor.all (· < n) = true := by
  obtain ⟨-, a, hlast, rfl⟩ := next_eq_some h
  have hmem := mem_rest_of_mem_page (List.mem_of_getLast? hlast)
  exact (List.mem_filter.1 hmem).2

/-- What is past a next cursor was past the cursor it answers. -/
theorem rest_next (h : L.next rows cursor = some n) :
    L.rest rows (some n) = (L.rest rows cursor).filter fun a => n < L.key a := by
  have hlt := lt_of_next_eq_some h
  unfold rest
  rw [List.filter_filter]
  refine List.filter_congr fun a _ => ?_
  cases cursor with
  | none => simp
  | some c =>
    have hc : c < n := by simpa using hlt
    by_cases hn : n < L.key a
    · have hca : c < L.key a := by omega
      simp [hn, hca]
    · simp [hn]

theorem length_rest_next (h : L.next rows cursor = some n) :
    (L.rest rows (some n)).length < (L.rest rows cursor).length := by
  rw [rest_next h, List.length_filter_lt_length_iff_exists]
  obtain ⟨-, a, hlast, rfl⟩ := next_eq_some h
  exact ⟨a, mem_rest_of_mem_page (List.mem_of_getLast? hlast), by simp⟩

/-- A client collects rows past the cursor only. -/
theorem subset_rest_of_follow {fuel : Nat} {visited : List α}
    (h : follow (L.request rows) fuel cursor = some visited) : visited ⊆ L.rest rows cursor := by
  induction fuel generalizing cursor visited with
  | zero => cases h
  | succ fuel ih =>
    have hpage : L.page rows cursor ⊆ L.rest rows cursor := fun a ha => mem_rest_of_mem_page ha
    cases hnext : L.next rows cursor with
    | none =>
      rw [follow, show (L.request rows cursor).2 = none from hnext, Option.some.injEq] at h
      rw [← h]
      exact hpage
    | some n =>
      have hrequest : (L.request rows cursor).2 = some n := hnext
      obtain ⟨more, hmore, rfl⟩ := (follow_of_next_some hrequest).1 h
      have hsub := ih hmore
      rw [rest_next hnext] at hsub
      exact List.append_subset.2 ⟨hpage, fun a ha => (List.mem_filter.1 (hsub ha)).1⟩

/-- The ranks in the order of the listing do not depend on how rows of one rank are ordered. -/
theorem map_rank_orderBy : (L.orderBy rows).map L.rank = (rows.map L.rank).insertionSort (· ≤ ·) := by
  have hperm : ((L.orderBy rows).map L.rank).Perm ((rows.map L.rank).insertionSort (· ≤ ·)) :=
    ((L.orderBy_perm rows).map _).trans (List.perm_insertionSort _ _).symm
  exact hperm.eq_of_pairwise' (L.orderBy_sorted rows) (List.pairwise_insertionSort _ _)

theorem map_key_orderBy : (L.orderBy rows).map L.key = L.cursors rows := by
  rw [cursors, ← map_rank_orderBy, List.map_map]
  rfl

/-- The cursors on the page, then the cursors after it. -/
theorem cursors_rest :
    L.cursors (L.rest rows cursor) =
      (L.page rows cursor).map L.key ++ ((L.orderBy (L.rest rows cursor)).drop L.limit).map L.key := by
  rw [← List.map_append, page_append_drop, map_key_orderBy]

theorem take_cursors :
    (L.cursors (L.rest rows cursor)).take (L.page rows cursor).length = (L.page rows cursor).map L.key := by
  rw [cursors_rest, List.take_left' (List.length_map L.key)]

theorem drop_cursors :
    (L.cursors (L.rest rows cursor)).drop (L.page rows cursor).length =
      ((L.orderBy (L.rest rows cursor)).drop L.limit).map L.key := by
  rw [cursors_rest, List.drop_left' (List.length_map L.key)]

theorem length_cursors : (L.cursors rows).length = rows.length := by
  simp [cursors]

/-- No row of a page comes after the last one. -/
theorem rank_le_getLast {a b : α} (hlast : (L.page rows cursor).getLast? = some b) (ha : a ∈ L.page rows cursor) :
    L.rank a ≤ L.rank b := by
  obtain ⟨init, hinit⟩ := List.getLast?_eq_some_iff.1 hlast
  have hsorted := L.orderBy_sorted (L.rest rows cursor)
  rw [← page_append_drop, hinit, List.map_append, List.map_append, List.pairwise_append,
    List.pairwise_append] at hsorted
  rw [hinit, List.mem_append, List.mem_singleton] at ha
  rcases ha with ha | rfl
  · exact hsorted.1.2.2 _ (List.mem_map_of_mem ha) _ (by simp)
  · exact le_refl _

/-- Fewer rows than a page holds come up to a row that is before the last one of a page. -/
theorem countP_rank_lt_limit {a b : α} (hlast : (L.page rows cursor).getLast? = some b) (hlt : L.rank a < L.rank b) :
    (L.rest rows cursor).countP (fun x => L.rank x ≤ L.rank a) < L.limit := by
  obtain ⟨init, hinit⟩ := List.getLast?_eq_some_iff.1 hlast
  have hsorted := L.orderBy_sorted (L.rest rows cursor)
  rw [← page_append_drop, hinit, List.map_append, List.pairwise_append] at hsorted
  obtain ⟨-, -, hafter⟩ := hsorted
  have htail : ((L.orderBy (L.rest rows cursor)).drop L.limit).countP (fun x => L.rank x ≤ L.rank a) = 0 := by
    rw [List.countP_eq_zero]
    intro x hx hle
    have hbx : L.rank b ≤ L.rank x := hafter _ (by simp) _ (List.mem_map_of_mem hx)
    exact absurd (lt_of_lt_of_le hlt (hbx.trans (of_decide_eq_true hle))) (lt_irrefl _)
  have hall : (L.rest rows cursor).countP (fun x => L.rank x ≤ L.rank a) ≤ init.length := by
    rw [← (L.orderBy_perm _).countP_eq, ← page_append_drop, List.countP_append, htail, hinit, List.countP_append,
      List.countP_singleton, decide_eq_false (not_le_of_gt hlt)]
    simpa using List.countP_le_length
  have hlength : (L.page rows cursor).length ≤ L.limit := List.length_take_le _ _
  rw [hinit, List.length_append, List.length_singleton] at hlength
  omega

/-- A row that so few rows come up to is on the page. -/
theorem mem_page_of_countP_lt {a : α} (ha : a ∈ L.rest rows cursor)
    (hcount : (L.rest rows cursor).countP (fun x => L.rank x ≤ L.rank a) < L.limit) : a ∈ L.page rows cursor := by
  have hmem : a ∈ L.orderBy (L.rest rows cursor) := (L.orderBy_perm _).mem_iff.2 ha
  rw [← page_append_drop, List.mem_append] at hmem
  refine hmem.resolve_right fun hdrop => ?_
  -- A full page would be before the row.
  have hsorted := L.orderBy_sorted (L.rest rows cursor)
  rw [← page_append_drop, List.map_append, List.pairwise_append] at hsorted
  have hpage : (L.page rows cursor).countP (fun x => L.rank x ≤ L.rank a) = (L.page rows cursor).length := by
    rw [List.countP_eq_length]
    intro x hx
    exact decide_eq_true (hsorted.2.2 _ (List.mem_map_of_mem hx) _ (List.mem_map_of_mem hdrop))
  have hfull : (L.page rows cursor).length = L.limit := by
    have hpos := List.length_pos_of_mem hdrop
    rw [List.length_drop] at hpos
    exact List.length_take_of_le (by omega)
  rw [← (L.orderBy_perm _).countP_eq, ← page_append_drop, List.countP_append] at hcount
  omega

/-- A row of a page whose cursor is past the next one comes again on the next page: fewer rows than a page holds are
before it. -/
theorem mem_page_next {a : α} (h : L.next rows cursor = some n) (ha : a ∈ L.page rows cursor) (hn : n < L.key a) :
    a ∈ L.page rows (some n) := by
  obtain ⟨-, b, hlast, hb⟩ := next_eq_some h
  have hlt : L.rank a < L.rank b := by
    have hrank : L.rank a ≠ L.rank b := by
      intro heq
      have hkey : L.key a = L.key b := congrArg L.cursor heq
      omega
    exact lt_of_le_of_ne (rank_le_getLast hlast ha) hrank
  apply mem_page_of_countP_lt
  · rw [rest_next h]
    exact List.mem_filter.2 ⟨mem_rest_of_mem_page ha, decide_eq_true hn⟩
  · refine lt_of_le_of_lt ?_ (countP_rank_lt_limit hlast hlt)
    rw [rest_next h]
    exact List.filter_sublist.countP_le

/-- The cursors are cut at the end of a page when no row of the page is past the next cursor and all later ones are. -/
theorem cut_page_iff (h : L.next rows cursor = some n) :
    Cut (L.cursors (L.rest rows cursor)) (L.page rows cursor).length ↔
      (∀ a ∈ L.page rows cursor, L.key a ≤ n) ∧
        ∀ a ∈ (L.orderBy (L.rest rows cursor)).drop L.limit, n < L.key a := by
  obtain ⟨-, b, hlast, rfl⟩ := next_eq_some h
  unfold Cut
  rw [take_cursors, drop_cursors, List.getLast?_map, hlast, Option.map_some]
  simp only [Option.mem_def, Option.some.injEq, forall_eq', List.forall_mem_map]

/-- After a cut, the rows past the next cursor are those after the page. -/
theorem rest_next_perm (h : L.next rows cursor = some n)
    (hcut : Cut (L.cursors (L.rest rows cursor)) (L.page rows cursor).length) :
    (L.rest rows (some n)).Perm ((L.orderBy (L.rest rows cursor)).drop L.limit) := by
  obtain ⟨hpage, hdrop⟩ := (cut_page_iff h).1 hcut
  have hfilter : (L.orderBy (L.rest rows cursor)).filter (fun a => n < L.key a) =
      (L.orderBy (L.rest rows cursor)).drop L.limit := by
    conv_lhs => rw [← page_append_drop, List.filter_append]
    rw [List.filter_eq_nil_iff.2 fun a ha => by simpa using hpage a ha, List.nil_append,
      List.filter_eq_self.2 fun a ha => by simpa using hdrop a ha]
  rw [rest_next h, ← hfilter]
  exact ((L.orderBy_perm _).filter _).symm

theorem cursors_rest_next (h : L.next rows cursor = some n)
    (hcut : Cut (L.cursors (L.rest rows cursor)) (L.page rows cursor).length) :
    L.cursors (L.rest rows (some n)) = (L.cursors (L.rest rows cursor)).drop (L.page rows cursor).length := by
  have hsorted := L.orderBy_sorted (L.rest rows cursor)
  rw [← page_append_drop (L := L), List.map_append, List.pairwise_append] at hsorted
  have hranks : ((L.rest rows (some n)).map L.rank).insertionSort (· ≤ ·) =
      ((L.orderBy (L.rest rows cursor)).drop L.limit).map L.rank := by
    have hperm := (List.perm_insertionSort (· ≤ ·) _).trans ((rest_next_perm h hcut).map L.rank)
    exact hperm.eq_of_pairwise' (List.pairwise_insertionSort _ _) hsorted.2.1
  rw [drop_cursors, cursors, hranks, List.map_map]
  rfl

/-- One request: the page ends in a cut and the client collects the rows past the next cursor. -/
theorem complete_iff_cut (hrows : rows.Nodup) (h : L.next rows cursor = some n) :
    Complete (L.request rows) (L.rest rows cursor) cursor ↔
      Cut (L.cursors (L.rest rows cursor)) (L.page rows cursor).length ∧
        Complete (L.request rows) (L.rest rows (some n)) (some n) := by
  have hrequest : (L.request rows cursor).2 = some n := h
  have hparts := L.orderBy_perm (L.rest rows cursor)
  rw [← page_append_drop] at hparts
  rw [complete_of_next_some hrequest]
  constructor
  · rintro ⟨fuel, more, hmore, hperm⟩
    have hnodup : (L.page rows cursor ++ more).Nodup := hperm.nodup_iff.2 (hrows.filter _)
    have hdisjoint := List.disjoint_of_nodup_append hnodup
    have htail : more.Perm ((L.orderBy (L.rest rows cursor)).drop L.limit) :=
      (List.perm_append_left_iff _).1 (hperm.trans hparts.symm)
    have hcut : Cut (L.cursors (L.rest rows cursor)) (L.page rows cursor).length := by
      refine (cut_page_iff h).2 ⟨fun a ha => ?_, fun a ha => ?_⟩
      · by_contra hkey
        have hagain := mem_page_next h ha (Nat.lt_of_not_le hkey)
        exact hdisjoint ha (page_subset_of_follow hmore hagain)
      · exact (mem_rest_some.1 (subset_rest_of_follow hmore (htail.mem_iff.2 ha))).2
    exact ⟨hcut, fuel, more, hmore, htail.trans (rest_next_perm h hcut).symm⟩
  · rintro ⟨hcut, fuel, more, hmore, hperm⟩
    exact ⟨fuel, more, hmore, ((hperm.trans (rest_next_perm h hcut)).append_left _).trans hparts⟩

/-- Following the cursors visits every row once if and only if every page ends in a cut. -/
theorem complete_iff (hrows : rows.Nodup) (cursor : Option Nat) :
    Complete (L.request rows) (L.rest rows cursor) cursor ↔
      Tiled L.always L.limit (L.cursors (L.rest rows cursor)) := by
  have hlength : (L.page rows cursor).length = min L.limit (L.cursors (L.rest rows cursor)).length := by
    rw [page, List.length_take, length_cursors, (L.orderBy_perm _).length_eq]
  cases hnext : L.next rows cursor with
  | none =>
    have hrequest : (L.request rows cursor).2 = none := hnext
    obtain ⟨hpage, hlast⟩ := page_perm_of_next_none hnext
    rw [complete_of_next_none hrequest]
    refine iff_of_true ?_ fun b hb hboundary => ?_
    · change (L.page rows cursor).Perm _
      rw [hpage]
      exact L.orderBy_perm _
    · have hzero : b = 0 := by
        have hpos := L.limit_pos
        rcases hlast with hnil | ⟨halways, hlt⟩
        · rw [hnil, List.length_nil] at hlength
          omega
        · rcases hboundary with hdvd | ⟨htrue, -⟩
          · exact Nat.eq_zero_of_dvd_of_lt hdvd (by omega)
          · rw [halways] at htrue
            cases htrue
      rw [hzero]
      exact cut_zero
  | some n =>
    have hmore : L.limit ≤ (L.cursors (L.rest rows cursor)).length ∨ L.always = true := by
      rcases (next_eq_some hnext).1 with halways | hfull
      · exact Or.inr halways
      · exact Or.inl (by omega)
    rw [complete_iff_cut hrows hnext, tiled_iff hmore hlength]
    refine and_congr_right fun hcut => ?_
    rw [← cursors_rest_next hnext hcut]
    have hdecreasing := length_rest_next hnext
    exact complete_iff hrows (some n)
termination_by (L.rest rows cursor).length

end Listing

/-! ### Offsets -/

section Offsets

variable {rows : List α} {limit total offset : Nat}

/-- The offsets of the pages of `total` rows. -/
def offsets (limit total : Nat) : List Nat := List.range' 0 ((total + limit - 1) / limit) limit

theorem mem_offsets (h : 1 ≤ limit) : offset ∈ offsets limit total ↔ limit ∣ offset ∧ offset < total := by
  have hpages : ∀ i, i < (total + limit - 1) / limit ↔ limit * i < total := by
    intro i
    have hmul : (i + 1) * limit = limit * i + limit := by ring
    rw [← Nat.succ_le_iff, Nat.le_div_iff_mul_le h, Nat.succ_eq_add_one, hmul]
    omega
  unfold offsets
  simp only [List.mem_range', Nat.zero_add, hpages]
  constructor
  · rintro ⟨i, hi, rfl⟩
    exact ⟨Nat.dvd_mul_right limit i, hi⟩
  · rintro ⟨⟨i, rfl⟩, hi⟩
    exact ⟨i, hi, rfl⟩

/-- As many pages as it takes, one after the other from the offset on, are the rows from the offset on. -/
theorem flatMap_slices {n : Nat} (h : rows.length ≤ offset + n * limit) :
    ((List.range' offset n limit).flatMap fun o => (rows.drop o).take limit) = rows.drop offset := by
  induction n generalizing offset with
  | zero =>
    rw [Nat.zero_mul, Nat.add_zero] at h
    rw [List.drop_eq_nil_of_le h]
    rfl
  | succ n ih =>
    have hmul : (n + 1) * limit = n * limit + limit := by ring
    have hrest := @ih (offset + limit) (by omega)
    rw [List.range'_succ, List.flatMap_cons, hrest, ← List.drop_drop, List.take_append_drop]

theorem flatMap_offsets (h : 1 ≤ limit) :
    ((offsets limit rows.length).flatMap fun o => (rows.drop o).take limit) = rows := by
  have hceil := Nat.div_add_mod (rows.length + limit - 1) limit
  have hmod := Nat.mod_lt (rows.length + limit - 1) h
  have hmul := Nat.mul_comm limit ((rows.length + limit - 1) / limit)
  unfold offsets
  rw [flatMap_slices (by omega), List.drop_zero]

/-- No page is empty. -/
theorem slice_ne_nil (h : 1 ≤ limit) (ho : offset < rows.length) : (rows.drop offset).take limit ≠ [] := by
  intro hnil
  have hlength := congrArg List.length hnil
  rw [List.length_take, List.length_drop, List.length_nil] at hlength
  omega

end Offsets

end Paging

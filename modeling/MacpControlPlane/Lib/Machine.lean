import Mathlib.Data.List.Basic

/-!
# Machines and their runs

A machine is a set of start states and a partial step function: `next s a` is the state after the action `a`, or
`none` when `a` is not enabled in `s`.  Everything the environment chooses (who moves next, which call fails, what a
message holds) is in the action, so that an interleaving is a list of actions and a run is a fold.

* `exec` runs a list of actions, `Reachable` collects the states the runs lead to;
* `exec_invariant` and `Reachable.invariant` turn a step lemma into a statement about runs;
* `Throughout P` says that every step of a run meets the condition `P`, and `Throughout.invariant` is the invariant
  rule under such a condition;
* `exec_map` turns a function that goes along with every step into one that goes along with runs.
-/

/-- Start states and a partial step function. -/
structure Machine (σ α : Type*) where
  start : σ → Prop
  next : σ → α → Option σ

namespace Machine

variable {σ α : Type*} (M : Machine σ α)

/-- Run the actions from left to right. -/
def exec : σ → List α → Option σ
  | s, [] => some s
  | s, a :: as => (M.next s a).bind fun t => exec t as

/-- The states the runs from a start state lead to. -/
def Reachable (s : σ) : Prop :=
  ∃ s₀ as, M.start s₀ ∧ M.exec s₀ as = some s

/-- Every step of the run meets `P`, at the state it is taken in. -/
def Throughout (P : σ → α → Prop) : σ → List α → Prop
  | _, [] => True
  | s, a :: as => P s a ∧ ∀ t, M.next s a = some t → Throughout P t as

variable {M}

@[simp] theorem exec_nil (s : σ) : M.exec s [] = some s := rfl

theorem exec_cons_eq_some {s u : σ} {a : α} {as : List α} :
    M.exec s (a :: as) = some u ↔ ∃ t, M.next s a = some t ∧ M.exec t as = some u := by
  simp [exec, Option.bind_eq_some_iff]

theorem exec_append_eq_some {s u : σ} {as bs : List α} :
    M.exec s (as ++ bs) = some u ↔ ∃ t, M.exec s as = some t ∧ M.exec t bs = some u := by
  induction as generalizing s with
  | nil => simp
  | cons a as ih =>
    simp only [List.cons_append, exec_cons_eq_some, ih]
    constructor
    · rintro ⟨t, ht, v, hv, hu⟩; exact ⟨v, ⟨t, ht, hv⟩, hu⟩
    · rintro ⟨v, ⟨t, ht, hv⟩, hu⟩; exact ⟨t, ht, v, hv, hu⟩

/-- What every step keeps, a run keeps. -/
theorem exec_invariant {I : σ → Prop} (hstep : ∀ s a t, I s → M.next s a = some t → I t)
    {s t : σ} {as : List α} (hs : I s) (h : M.exec s as = some t) : I t := by
  induction as generalizing s with
  | nil => exact Option.some.inj h ▸ hs
  | cons a as ih =>
    obtain ⟨u, hu, h⟩ := exec_cons_eq_some.1 h
    exact ih (hstep s a u hs hu) h

/-- What holds at the start and is kept by every step holds in every reachable state. -/
theorem Reachable.invariant {I : σ → Prop} (hstart : ∀ s, M.start s → I s)
    (hstep : ∀ s a t, I s → M.next s a = some t → I t) {s : σ} (h : M.Reachable s) : I s := by
  obtain ⟨s₀, as, h₀, h⟩ := h
  exact exec_invariant hstep (hstart s₀ h₀) h

theorem Reachable.exec {s t : σ} {as : List α} (hs : M.Reachable s) (h : M.exec s as = some t) :
    M.Reachable t := by
  obtain ⟨s₀, bs, h₀, hb⟩ := hs
  exact ⟨s₀, bs ++ as, h₀, exec_append_eq_some.2 ⟨s, hb, h⟩⟩

theorem Reachable.next {s t : σ} {a : α} (hs : M.Reachable s) (h : M.next s a = some t) : M.Reachable t := by
  have hexec : M.exec s [a] = some t := exec_cons_eq_some.2 ⟨t, h, rfl⟩
  exact hs.exec hexec

/-- The invariant rule for a run whose steps all meet `P`. -/
theorem Throughout.invariant {P : σ → α → Prop} {I : σ → Prop}
    (hstep : ∀ s a t, I s → P s a → M.next s a = some t → I t)
    {s t : σ} {as : List α} (hP : M.Throughout P s as) (hs : I s) (h : M.exec s as = some t) : I t := by
  induction as generalizing s with
  | nil => exact Option.some.inj h ▸ hs
  | cons a as ih =>
    obtain ⟨u, hu, h⟩ := exec_cons_eq_some.1 h
    exact ih (hP.2 u hu) (hstep s a u hs hP.1 hu) h

theorem Throughout.cons {P : σ → α → Prop} {s t : σ} {a : α} {as : List α} (hP : P s a) (hnext : M.next s a = some t)
    (h : M.Throughout P t as) : M.Throughout P s (a :: as) := by
  refine ⟨hP, fun u hu => ?_⟩
  rw [hnext] at hu
  exact Option.some.inj hu ▸ h

theorem Throughout.and {P Q : σ → α → Prop} {s : σ} {as : List α} (hP : M.Throughout P s as)
    (hQ : M.Throughout Q s as) : M.Throughout (fun s a => P s a ∧ Q s a) s as := by
  induction as generalizing s with
  | nil => trivial
  | cons a as ih => exact ⟨⟨hP.1, hQ.1⟩, fun t ht => ih (hP.2 t ht) (hQ.2 t ht)⟩

theorem throughout_append {P : σ → α → Prop} {s : σ} {as bs : List α} :
    M.Throughout P s (as ++ bs) ↔
      M.Throughout P s as ∧ ∀ t, M.exec s as = some t → M.Throughout P t bs := by
  induction as generalizing s with
  | nil => simp [Throughout]
  | cons a as ih =>
    simp only [List.cons_append, Throughout, ih, exec_cons_eq_some]
    constructor
    · rintro ⟨hp, h⟩
      exact ⟨⟨hp, fun t ht => (h t ht).1⟩, fun u ⟨t, ht, hu⟩ => (h t ht).2 u hu⟩
    · rintro ⟨⟨hp, h⟩, h'⟩
      exact ⟨hp, fun t ht => ⟨h t ht, fun u hu => h' u ⟨t, ht, hu⟩⟩⟩

theorem Throughout.of_prefix {P : σ → α → Prop} {s : σ} {as bs : List α} (h : M.Throughout P s as) (hbs : bs <+: as) :
    M.Throughout P s bs := by
  obtain ⟨cs, rfl⟩ := hbs
  exact (throughout_append.1 h).1

instance decidableThroughout {P : σ → α → Prop} [∀ s a, Decidable (P s a)] :
    (s : σ) → (as : List α) → Decidable (M.Throughout P s as)
  | _, [] => isTrue trivial
  | s, a :: as =>
    match h : M.next s a with
    | none => decidable_of_iff (P s a) (by simp [Throughout, h])
    | some t =>
      have := decidableThroughout (P := P) t as
      decidable_of_iff (P s a ∧ M.Throughout P t as) (by simp [Throughout, h])

/-- A run that does not meet `P` throughout has a first step that does not. -/
theorem exists_of_not_throughout {P : σ → α → Prop} {s u : σ} {as : List α} (h : ¬ M.Throughout P s as)
    (hu : M.exec s as = some u) :
    ∃ bs a cs t v, as = bs ++ a :: cs ∧ M.Throughout P s bs ∧ M.exec s bs = some t ∧ ¬ P t a ∧ M.next t a = some v ∧
      M.exec v cs = some u := by
  induction as generalizing s with
  | nil => exact absurd trivial h
  | cons a as ih =>
    obtain ⟨v, hv, hu⟩ := exec_cons_eq_some.1 hu
    by_cases hP : P s a
    · have hrest : ¬ M.Throughout P v as := by
        intro hrest
        refine h ⟨hP, fun t ht => ?_⟩
        rw [hv] at ht
        exact Option.some.inj ht ▸ hrest
      obtain ⟨bs, b, cs, t, w, rfl, hbs, ht, hnot, hw, hcs⟩ := ih hrest hu
      refine ⟨a :: bs, b, cs, t, w, rfl, ⟨hP, fun t' ht' => ?_⟩, exec_cons_eq_some.2 ⟨v, hv, ht⟩, hnot, hw, hcs⟩
      rw [hv] at ht'
      exact Option.some.inj ht' ▸ hbs
    · exact ⟨[], a, as, s, v, rfl, trivial, rfl, hP, hv, hu⟩

/-- A function of the states that goes along with every step goes along with a run. -/
theorem exec_map {τ β : Type*} {M' : Machine τ β} {f : σ → τ} {g : α → β}
    (hstep : ∀ s a, (M.next s a).map f = M'.next (f s) (g a)) (s : σ) (as : List α) :
    (M.exec s as).map f = M'.exec (f s) (as.map g) := by
  induction as generalizing s with
  | nil => rfl
  | cons a as ih =>
    rw [List.map_cons, exec, exec, ← hstep s a]
    cases M.next s a with
    | none => rfl
    | some t => exact ih t

/-- A quantity that no step lowers is not lowered by a run. -/
theorem exec_le {f : σ → Nat} {I : σ → Prop} (hI : ∀ s a t, I s → M.next s a = some t → I t)
    (hstep : ∀ s a t, I s → M.next s a = some t → f s ≤ f t) {s u : σ} {as : List α} (hs : I s)
    (h : M.exec s as = some u) : f s ≤ f u := by
  have hboth : I u ∧ f s ≤ f u := by
    refine exec_invariant (I := fun u => I u ∧ f s ≤ f u) ?_ ⟨hs, Nat.le_refl _⟩ h
    rintro t a v ⟨ht, hle⟩ hv
    exact ⟨hI t a v ht hv, Nat.le_trans hle (hstep t a v ht hv)⟩
  exact hboth.2

/-- Actions that meet a condition in every state meet it in a run. -/
theorem throughout_of_forall {P : σ → α → Prop} {as : List α} (h : ∀ a ∈ as, ∀ s, P s a) (s : σ) :
    M.Throughout P s as := by
  induction as generalizing s with
  | nil => trivial
  | cons a as ih =>
    exact ⟨h a List.mem_cons_self s, fun t _ => ih (fun b hb => h b (List.mem_cons_of_mem a hb)) t⟩

/-- Two conditions that agree wherever an invariant holds are met by the same runs. -/
theorem throughout_congr {P Q : σ → α → Prop} {I : σ → Prop} (hI : ∀ s a t, I s → M.next s a = some t → I t)
    (hPQ : ∀ s a, I s → (P s a ↔ Q s a)) {s : σ} {as : List α} (hs : I s) :
    M.Throughout P s as ↔ M.Throughout Q s as := by
  induction as generalizing s with
  | nil => exact Iff.rfl
  | cons a as ih =>
    unfold Throughout
    rw [hPQ s a hs]
    refine and_congr_right fun _ => forall_congr' fun t => ?_
    constructor
    · intro h ht
      exact (ih (hI s a t hs ht)).1 (h ht)
    · intro h ht
      exact (ih (hI s a t hs ht)).2 (h ht)

/-- Let `I` be at least `J`, in a run whose steps all meet `Q`.  Where a step out of `I` that leads into `J` meets `P`,
and one that meets `P` keeps `I`, the run stays in `J` all along exactly when its steps meet `P`. -/
theorem Throughout.iff_of_step {P Q : σ → α → Prop} {I J : σ → Prop} (hIJ : ∀ s, I s → J s)
    (hstep : ∀ s a t, I s → Q s a → M.next s a = some t → (J t → P s a) ∧ (P s a → I t)) {s u : σ} {as : List α}
    (hQ : M.Throughout Q s as) (hs : I s) (h : M.exec s as = some u) :
    (∀ bs t, bs <+: as → M.exec s bs = some t → J t) ↔ M.Throughout P s as := by
  induction as generalizing s with
  | nil =>
    refine iff_of_true ?_ trivial
    intro bs t hbs ht
    rw [List.prefix_nil.1 hbs] at ht
    exact Option.some.inj ht ▸ hIJ s hs
  | cons a as ih =>
    obtain ⟨v, hv, h⟩ := exec_cons_eq_some.1 h
    obtain ⟨hnec, hsuf⟩ := hstep s a v hs hQ.1 hv
    constructor
    · intro hall
      have hsingle : M.exec s [a] = some v := exec_cons_eq_some.2 ⟨v, hv, rfl⟩
      have hP : P s a := hnec (hall [a] v (List.cons_prefix_cons.2 ⟨rfl, List.nil_prefix⟩) hsingle)
      refine ⟨hP, ?_⟩
      intro t ht
      rw [hv] at ht
      rw [← Option.some.inj ht]
      refine (ih (hQ.2 v hv) (hsuf hP) h).1 fun bs w hbs hw =>
        hall (a :: bs) w (List.cons_prefix_cons.2 ⟨rfl, hbs⟩) ?_
      exact exec_cons_eq_some.2 ⟨v, hv, hw⟩
    · rintro ⟨hP, hrest⟩ bs t hbs ht
      rcases List.prefix_cons_iff.1 hbs with rfl | ⟨rest, rfl, hprefix⟩
      · exact Option.some.inj ht ▸ hIJ s hs
      · obtain ⟨w, hw, ht⟩ := exec_cons_eq_some.1 ht
        rw [hv] at hw
        rw [← Option.some.inj hw] at ht
        exact (ih (hQ.2 v hv) (hsuf hP) h).2 (hrest v hv) rest t hprefix ht

theorem throughout_iff_of_step {P : σ → α → Prop} {I J : σ → Prop} (hIJ : ∀ s, I s → J s)
    (hstep : ∀ s a t, I s → M.next s a = some t → (J t → P s a) ∧ (P s a → I t)) {s u : σ} {as : List α} (hs : I s)
    (h : M.exec s as = some u) :
    (∀ bs t, bs <+: as → M.exec s bs = some t → J t) ↔ M.Throughout P s as :=
  (throughout_of_forall (P := fun _ _ => True) (fun _ _ _ => trivial) s).iff_of_step hIJ
    (fun s a t hs _ => hstep s a t hs) hs h

end Machine

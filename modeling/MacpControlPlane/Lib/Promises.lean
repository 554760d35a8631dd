import Mathlib.Logic.Function.Basic

/-!
# Promises

A heap of promises.  What can settle a promise is fixed when it is created: `then` and `finally` wait for another
promise, and so does a promise that was resolved with one.  A rejection passes through all three.  A promise is
handled when some promise waits for it; one that is rejected and not handled is what the runtime reports as an
unhandled rejection.
-/

namespace Promises

variable {P ε α : Type*}

/-- What settles a promise. -/
inductive Source (P : Type*) where
  /-- It is settled from outside, like `Promise.resolve(v)`. -/
  | value
  /-- `p.then(f)`, without a handler for rejections. -/
  | onFulfilled (p : P)
  /-- `p.finally(f)` -/
  | onSettled (p : P)
  /-- It was resolved with `p`. -/
  | adopts (p : P)

/-- The promise that another one waits for. -/
def Source.on : Source P → Option P
  | value => none
  | onFulfilled p | onSettled p | adopts p => some p

/-- The promises created so far, and the results of those that are settled. -/
structure Heap (P ε α : Type*) where
  source : P → Option (Source P)
  result : P → Option (Except ε α)

namespace Heap

/-- A promise waits for `p`. -/
def Handled (h : Heap P ε α) (p : P) : Prop :=
  ∃ q src, h.source q = some src ∧ src.on = some p

/-- A promise with this source may settle with `r`: a rejection passes through, and `f` runs only on a fulfilled
promise. -/
def Allows (h : Heap P ε α) (r : Except ε α) : Source P → Prop
  | .value => True
  | .onFulfilled q => (∃ v, h.result q = some (.ok v)) ∨ ∃ e, r = .error e ∧ h.result q = some (.error e)
  | .onSettled q => h.result q = some r
  | .adopts q => h.result q = some r

/-- Every result has come from where it can come from. -/
def Consistent (h : Heap P ε α) : Prop :=
  ∀ p r, h.result p = some r → ∃ src, h.source p = some src ∧ h.Allows r src

theorem Allows.mono {h h' : Heap P ε α} {r : Except ε α} {src : Source P} (hr : h.Allows r src)
    (hle : ∀ q r', h.result q = some r' → h'.result q = some r') : h'.Allows r src := by
  cases src with
  | value => trivial
  | onFulfilled q =>
    rcases hr with ⟨v, hv⟩ | ⟨e, he, hq⟩
    · exact Or.inl ⟨v, hle q _ hv⟩
    · exact Or.inr ⟨e, he, hle q _ hq⟩
  | onSettled q => exact hle q r hr
  | adopts q => exact hle q r hr

/-- A rejection passes through. -/
theorem Consistent.rejected {h : Heap P ε α} (hh : h.Consistent) {p q : P} {src : Source P} {e : ε} {r : Except ε α}
    (hsrc : h.source p = some src) (hon : src.on = some q) (hq : h.result q = some (.error e))
    (hp : h.result p = some r) :
    r = .error e := by
  obtain ⟨src', hsrc', hallows⟩ := hh p r hp
  rw [hsrc] at hsrc'
  rw [← Option.some.inj hsrc'] at hallows
  cases src with
  | value => exact absurd hon nofun
  | onFulfilled p' =>
    rw [← Option.some.inj hon] at hq
    rcases hallows with ⟨v, hv⟩ | ⟨e', he', hq'⟩
    · rw [hq] at hv
      exact absurd (Option.some.inj hv) nofun
    · rw [hq] at hq'
      rw [he', Except.error.inj (Option.some.inj hq')]
  | onSettled p' =>
    rw [← Option.some.inj hon] at hq
    exact Option.some.inj (hallows.symm.trans hq)
  | adopts p' =>
    rw [← Option.some.inj hon] at hq
    exact Option.some.inj (hallows.symm.trans hq)

variable [DecidableEq P]

/-- A new promise. -/
def create (h : Heap P ε α) (p : P) (src : Source P) : Heap P ε α :=
  { h with source := Function.update h.source p (some src) }

/-- The promise is settled. -/
def settle (h : Heap P ε α) (p : P) (r : Except ε α) : Heap P ε α :=
  { h with result := Function.update h.result p (some r) }

@[simp] theorem create_result (h : Heap P ε α) (p : P) (src : Source P) : (h.create p src).result = h.result := rfl

@[simp] theorem settle_source (h : Heap P ε α) (p : P) (r : Except ε α) : (h.settle p r).source = h.source := rfl

theorem create_source (h : Heap P ε α) (p q : P) (src : Source P) :
    (h.create p src).source q = if q = p then some src else h.source q := by
  simp [create, Function.update_apply]

theorem settle_result (h : Heap P ε α) (p q : P) (r : Except ε α) :
    (h.settle p r).result q = if q = p then some r else h.result q := by
  simp [settle, Function.update_apply]

/-- Settling a promise that was pending keeps the results there are. -/
theorem settle_mono {h : Heap P ε α} {p : P} {r : Except ε α} (hp : h.result p = none) {q : P} {r' : Except ε α}
    (hq : h.result q = some r') : (h.settle p r).result q = some r' := by
  rw [settle_result, if_neg, hq]
  rintro rfl
  exact absurd (hp.symm.trans hq) nofun

theorem Consistent.create {h : Heap P ε α} (hh : h.Consistent) {p : P} (hp : h.source p = none) (src : Source P) :
    (h.create p src).Consistent := by
  intro q r hq
  obtain ⟨src', hsrc', hallows⟩ := hh q r hq
  refine ⟨src', ?_, hallows.mono fun _ _ h => h⟩
  rw [create_source, if_neg, hsrc']
  rintro rfl
  exact absurd (hp.symm.trans hsrc') nofun

theorem Consistent.settle {h : Heap P ε α} (hh : h.Consistent) {p : P} {src : Source P} {r : Except ε α}
    (hp : h.result p = none) (hsrc : h.source p = some src) (hallows : h.Allows r src) :
    (h.settle p r).Consistent := by
  intro q r' hq
  rw [settle_result] at hq
  split at hq
  · rename_i heq
    rw [heq, ← Option.some.inj hq]
    exact ⟨src, hsrc, hallows.mono fun _ _ => settle_mono hp⟩
  · obtain ⟨src', hsrc', hallows'⟩ := hh q r' hq
    exact ⟨src', hsrc', hallows'.mono fun _ _ => settle_mono hp⟩

end Heap

end Promises

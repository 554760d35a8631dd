import Mathlib.Data.Nat.Init

/-!
# Programs of statements

A program over a shared state is a function `step`: the statement at the point `p`, in the surroundings `e`, makes of
the state another one, and says where the program goes on from there or what it ends with.  A call that fails at a
statement leaves the state in which it has reached the statement, so that `Reaches` has both the points of a program
and what is left of its failed calls; `Returns` is about the calls all of whose statements succeed.

* `Reaches.invariant` is the invariant rule for the points of a program;
* `exists_returns`: a program whose points go down returns, in any surroundings.
-/

namespace Statements

variable {ε σ φ ρ : Type*}

/-- What comes after a statement. -/
inductive Next (φ ρ : Type*) where
  | goesOn (point : φ)
  | ends (result : ρ)

/-- The statements before the point have run: from the state `s` and the point `first`, they have led to `t`. -/
inductive Reaches (step : ε → σ → φ → σ × Next φ ρ) (s : σ) (first : φ) : σ → φ → Prop
  | start : Reaches step s first s first
  | next {e : ε} {t u : σ} {p q : φ} (h : Reaches step s first t p) (hstep : step e t p = (u, .goesOn q)) :
      Reaches step s first u q

/-- The last statement has run as well, and the call has returned `r`. -/
def Returns (step : ε → σ → φ → σ × Next φ ρ) (s : σ) (first : φ) (u : σ) (r : ρ) : Prop :=
  ∃ e t p, Reaches step s first t p ∧ step e t p = (u, .ends r)

variable {step : ε → σ → φ → σ × Next φ ρ} {s t u : σ} {first p : φ} {r : ρ}

/-- What holds at the first point and is kept by the statements that go on holds at every point. -/
theorem Reaches.invariant {I : σ → φ → Prop} (hfirst : I s first)
    (hstep : ∀ e t p u q, I t p → step e t p = (u, .goesOn q) → I u q) (h : Reaches step s first t p) : I t p := by
  induction h with
  | start => exact hfirst
  | next _ hnext ih => exact hstep _ _ _ _ _ ih hnext

/-- Where the points go down, every call returns, from any point that it has reached. -/
theorem Reaches.exists_returns (rank : φ → Nat) (e : ε)
    (hrank : ∀ s p t q, step e s p = (t, .goesOn q) → rank q < rank p) (h : Reaches step s first t p) :
    ∃ u r, Returns step s first u r := by
  induction hn : rank p using Nat.strongRecOn generalizing t p with
  | ind n ih =>
    cases hstep : step e t p with
    | mk u next =>
      cases next with
      | goesOn q => exact ih (rank q) (hn ▸ hrank t p u q hstep) (h.next hstep) rfl
      | ends r => exact ⟨u, r, e, t, p, h, hstep⟩

theorem exists_returns (rank : φ → Nat) (e : ε)
    (hrank : ∀ s p t q, step e s p = (t, .goesOn q) → rank q < rank p) (s : σ) (first : φ) :
    ∃ u r, Returns step s first u r :=
  Reaches.start.exists_returns rank e hrank

end Statements

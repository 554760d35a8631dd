import Mathlib.Data.List.Basic
import Mathlib.Data.List.Count

/-!
# Session-level locks

Locks that are held by the connections of a database until they are unlocked there.  A connection can take a lock that
it holds already, and then holds it once more; to unlock a lock on a connection that does not hold it has no effect.
The table has an entry for each time a lock is held.
-/

namespace SessionLocks

variable {C K : Type*} [DecidableEq C] [DecidableEq K]

/-- Take lock `k` on connection `c`, unless another connection holds it. -/
def tryLock (locks : List (C × K)) (c : C) (k : K) : Option (List (C × K)) :=
  if ∀ e ∈ locks, e.2 = k → e.1 = c then some ((c, k) :: locks) else none

/-- Unlock `k` once on connection `c`. -/
def unlock (locks : List (C × K)) (c : C) (k : K) : List (C × K) := locks.erase (c, k)

omit [DecidableEq C] [DecidableEq K] in
/-- A lock is held by one connection only. -/
def SingleOwner (locks : List (C × K)) : Prop := ∀ e ∈ locks, ∀ e' ∈ locks, e.2 = e'.2 → e.1 = e'.1

variable {locks locks' : List (C × K)} {c c' : C} {k : K}

theorem tryLock_eq_some : tryLock locks c k = some locks' ↔
    (∀ e ∈ locks, e.2 = k → e.1 = c) ∧ locks' = (c, k) :: locks := by
  unfold tryLock
  split
  · rename_i hfree
    constructor
    · intro h
      exact ⟨hfree, (Option.some.inj h).symm⟩
    · rintro ⟨-, rfl⟩
      rfl
  · rename_i hfree
    exact iff_of_false nofun fun h => hfree h.1

omit [DecidableEq C] [DecidableEq K] in
theorem singleOwner_nil : SingleOwner ([] : List (C × K)) := nofun

theorem SingleOwner.tryLock (h : SingleOwner locks) (hlock : tryLock locks c k = some locks') :
    SingleOwner locks' := by
  obtain ⟨hfree, rfl⟩ := tryLock_eq_some.1 hlock
  intro e he e' he' hk
  rcases List.mem_cons.1 he with rfl | he
  · rcases List.mem_cons.1 he' with rfl | he'
    · rfl
    · exact (hfree e' he' hk.symm).symm
  · rcases List.mem_cons.1 he' with rfl | he'
    · exact hfree e he hk
    · exact h e he e' he' hk

theorem SingleOwner.unlock (h : SingleOwner locks) (c : C) (k : K) : SingleOwner (unlock locks c k) :=
  fun e he e' he' => h e (List.mem_of_mem_erase he) e' (List.mem_of_mem_erase he')

/-- A connection can take a lock again that it holds. -/
theorem SingleOwner.tryLock_of_mem (h : SingleOwner locks) (hheld : (c, k) ∈ locks) :
    SessionLocks.tryLock locks c k = some ((c, k) :: locks) :=
  tryLock_eq_some.2 ⟨fun e he hk => h e he (c, k) hheld hk, rfl⟩

/-- To unlock a lock elsewhere than where it is held has no effect. -/
theorem SingleOwner.unlock_of_ne (h : SingleOwner locks) (hheld : (c, k) ∈ locks) (hne : c' ≠ c) :
    SessionLocks.unlock locks c' k = locks := by
  apply List.erase_of_not_mem
  intro hmem
  exact hne (h (c', k) hmem (c, k) hheld rfl)

end SessionLocks

import MacpControlPlane.Lib.Callers
import MacpControlPlane.Lib.Machine
import MacpControlPlane.Lib.SessionLocks

/-!
# Advisory locks through a pool (`db/database.service.ts`)

`recoverActiveRuns` takes a lock for each run and `runRetention` takes one for its whole pass, with `tryAdvisoryLock`
before and `advisoryUnlock` in a `finally`.  Each of these statements runs on the connection that the pool hands out.
The state keeps on which connection a pass has taken its lock, which the code does not know.
-/

namespace MacpControlPlane.AdvisoryLock

open SessionLocks

/-- A connection of the pool of a process. -/
structure Connection where
  process : Nat
  index : Nat
  deriving DecidableEq, Repr

/-- Where a pass is. -/
inductive Phase where
  /-- It goes on to lock the first key, or has returned. -/
  | locking (keys : List String)
  /-- It has acquired `key` on a connection; then come the other keys. -/
  | holding (key : String) (connection : Connection) (keys : List String)
  deriving DecidableEq

structure Pass where
  process : Nat
  phase : Phase
  deriving DecidableEq

/-- The locks that connections hold, by `hashtext` of their keys, and the passes of all processes. -/
structure State where
  locks : List (Connection × Int) := []
  passes : List Pass := []
  deriving DecidableEq

def State.initial : State := {}

/-- A statement runs on a connection of the pool, by its index; `none` if it gets none and throws. -/
inductive Action where
  /-- `recoverActiveRuns`, with the runs that `listActiveRuns` returns. -/
  | recoverActiveRuns (process : Nat) (runIds : List String)
  | runRetention (process : Nat)
  | tryAdvisoryLock (i : Nat) (index : Option Nat)
  | advisoryUnlock (i : Nat) (index : Option Nat)

section Step

variable (hashtext : String → Int) (dbPoolMax : Nat → Nat)

/-- `tryAdvisoryLock` of pass `i`: it goes on to the next key if it does not acquire this one. -/
def State.tryAdvisoryLock (s : State) (i process : Nat) (key : String) (keys : List String) (index : Option Nat) :
    State :=
  match index.bind fun index => (tryLock s.locks ⟨process, index⟩ (hashtext key)).map (index, ·) with
  | some (index, locks) => ⟨locks, s.passes.set i ⟨process, .holding key ⟨process, index⟩ keys⟩⟩
  | none => { s with passes := s.passes.set i ⟨process, .locking keys⟩ }

/-- `advisoryUnlock` of pass `i` -/
def State.advisoryUnlock (s : State) (i process : Nat) (key : String) (keys : List String) (index : Option Nat) :
    State where
  locks := match index with
    | some index => unlock s.locks ⟨process, index⟩ (hashtext key)
    | none => s.locks
  passes := s.passes.set i ⟨process, .locking keys⟩

def next (s : State) : Action → Option State
  | .recoverActiveRuns process runIds =>
    some { s with passes := s.passes ++ [⟨process, .locking (runIds.map fun id => "run-recovery:" ++ id)⟩] }
  | .runRetention process => some { s with passes := s.passes ++ [⟨process, .locking ["data-retention-lock"]⟩] }
  | .tryAdvisoryLock i index =>
    match s.passes[i]? with
    | some ⟨process, .locking (key :: keys)⟩ =>
      if index.all (· < dbPoolMax process) then some (s.tryAdvisoryLock hashtext i process key keys index)
      else none
    | _ => none
  | .advisoryUnlock i index =>
    match s.passes[i]? with
    | some ⟨process, .holding key _ keys⟩ =>
      if index.all (· < dbPoolMax process) then some (s.advisoryUnlock hashtext i process key keys index)
      else none
    | _ => none

def machine : Machine State Action where
  start s := s = .initial
  next := next hashtext dbPoolMax

end Step

/-! ### Exclusive and released -/

def Pass.holds (p : Pass) (key : String) : Prop := ∃ connection keys, p.phase = .holding key connection keys

/-- The lock that a pass has acquired, with the connection. -/
def Pass.held (hashtext : String → Int) (p : Pass) : Option (Connection × Int) :=
  match p.phase with
  | .holding key connection _ => some (connection, hashtext key)
  | .locking _ => none

/-- At most one pass holds a key, and every hold of a lock is the one of a pass that has not released it. -/
structure Locked (hashtext : String → Int) (s : State) : Prop where
  exclusive : ∀ (i j : Nat) p q key, s.passes[i]? = some p → s.passes[j]? = some q → p.holds key → q.holds key → i = j
  released : ∀ lock, s.locks.countP (·.2 = lock) ≤ (s.passes.filterMap (Pass.held hashtext)).countP (·.2 = lock)

/-- A pass does not lock a key on a connection that holds it for another pass, and unlocks it on the connection where
it has locked it. -/
def OwnConnection (s : State) : Action → Prop
  | .tryAdvisoryLock i (some index) =>
    match s.passes[i]? with
    | some ⟨process, .locking (key :: _)⟩ => ∀ q ∈ s.passes, ∀ keys, q.phase ≠ .holding key ⟨process, index⟩ keys
    | _ => True
  | .advisoryUnlock i index =>
    match s.passes[i]? with
    | some ⟨process, .holding _ connection _⟩ => index.map (Connection.mk process) = some connection
    | _ => True
  | _ => True

structure Inv (hashtext : String → Int) (s : State) : Prop where
  held : s.locks.Perm (s.passes.filterMap (Pass.held hashtext))
  owner : SingleOwner s.locks
  exclusive : ∀ (i j : Nat) p q key, s.passes[i]? = some p → s.passes[j]? = some q → p.holds key → q.holds key → i = j

private theorem inv_initial (hashtext : String → Int) : Inv hashtext .initial where
  held := .refl _
  owner := singleOwner_nil
  exclusive := by simp [State.initial]

private theorem Inv.held_mem {hashtext : String → Int} {s : State} (h : Inv hashtext s) {p : Pass} (hp : p ∈ s.passes)
    {key : String} {connection : Connection} {keys : List String} (hphase : p.phase = .holding key connection keys) :
    (connection, hashtext key) ∈ s.locks := by
  have hheld : p.held hashtext = some (connection, hashtext key) := by
    unfold Pass.held
    rw [hphase]
  exact h.held.mem_iff.2 (List.mem_filterMap.2 ⟨p, hp, hheld⟩)

private theorem Inv.locked {hashtext : String → Int} {s : State} (h : Inv hashtext s) : Locked hashtext s where
  exclusive := h.exclusive
  released _ := Nat.le_of_eq (h.held.countP_eq _)

/-! ### What a step does -/

variable {hashtext : String → Int} {dbPoolMax : Nat → Nat}

/-- A new pass, a key that is not acquired, one that is acquired on a connection, and an unlock. -/
theorem next_cases {s t : State} {a : Action} (h : next hashtext dbPoolMax s a = some t) :
    (∃ process keys, (∀ i index, a ≠ .tryAdvisoryLock i index ∧ a ≠ .advisoryUnlock i index) ∧
        t = { s with passes := s.passes ++ [⟨process, .locking keys⟩] }) ∨
      (∃ i index process key keys,
        a = .tryAdvisoryLock i index ∧ s.passes[i]? = some ⟨process, .locking (key :: keys)⟩ ∧
        (∀ c, index = some c → tryLock s.locks ⟨process, c⟩ (hashtext key) = none) ∧
        t = { s with passes := s.passes.set i ⟨process, .locking keys⟩ }) ∨
      (∃ i index process key keys locks, a = .tryAdvisoryLock i (some index) ∧
        s.passes[i]? = some ⟨process, .locking (key :: keys)⟩ ∧
        tryLock s.locks ⟨process, index⟩ (hashtext key) = some locks ∧
        t = ⟨locks, s.passes.set i ⟨process, .holding key ⟨process, index⟩ keys⟩⟩) ∨
      ∃ i index process key connection keys, a = .advisoryUnlock i index ∧
        s.passes[i]? = some ⟨process, .holding key connection keys⟩ ∧
        t = s.advisoryUnlock hashtext i process key keys index := by
  cases a with
  | recoverActiveRuns process runIds => exact .inl ⟨process, _, by simp, (Option.some.inj h).symm⟩
  | runRetention process => exact .inl ⟨process, _, by simp, (Option.some.inj h).symm⟩
  | tryAdvisoryLock i index =>
    simp only [next] at h
    split at h
    · rename_i process key keys hpass
      split at h
      · obtain rfl := Option.some.inj h
        unfold State.tryAdvisoryLock
        cases index with
        | none => exact .inr (.inl ⟨i, none, process, key, keys, rfl, hpass, nofun, rfl⟩)
        | some index =>
          cases hlock : tryLock s.locks ⟨process, index⟩ (hashtext key) with
          | none =>
            refine .inr (.inl ⟨i, some index, process, key, keys, rfl, hpass, ?_, ?_⟩)
            · rintro c hc
              rw [← Option.some.inj hc]
              exact hlock
            · simp [hlock]
          | some locks =>
            exact .inr (.inr (.inl ⟨i, index, process, key, keys, locks, rfl, hpass, hlock, by simp [hlock]⟩))
      · exact absurd h nofun
    · exact absurd h nofun
  | advisoryUnlock i index =>
    simp only [next] at h
    split at h
    · rename_i process key connection keys hpass
      split at h
      · exact .inr (.inr (.inr ⟨i, index, process, key, connection, keys, rfl, hpass, (Option.some.inj h).symm⟩))
      · exact absurd h nofun
    · exact absurd h nofun

/-- A pass that waits for its next key holds none. -/
theorem not_holds_locking {process : Nat} {keys : List String} {key : String} :
    ¬ Pass.holds ⟨process, .locking keys⟩ key := by
  rintro ⟨connection, rest, h⟩
  exact absurd h nofun

private theorem key_of_holds {process : Nat} {key key' : String} {connection : Connection} {keys : List String}
    (h : Pass.holds ⟨process, .holding key connection keys⟩ key') : key = key' := by
  obtain ⟨connection', rest, hphase⟩ := h
  exact (Phase.holding.inj hphase).1

/-- A pass that goes on without a key leaves the others alone. -/
theorem exclusive_set {passes : List Pass} {i process : Nat} {keys : List String}
    (h : ∀ (i j : Nat) p q key, passes[i]? = some p → passes[j]? = some q → p.holds key → q.holds key → i = j) :
    ∀ (k j : Nat) p q key, (passes.set i ⟨process, .locking keys⟩)[k]? = some p →
      (passes.set i ⟨process, .locking keys⟩)[j]? = some q → p.holds key → q.holds key → k = j := by
  intro k j p q key hk hj hp hq
  rcases Callers.getElem?_set_cases hk with ⟨-, rfl⟩ | ⟨-, hk⟩
  · exact absurd hp not_holds_locking
  · rcases Callers.getElem?_set_cases hj with ⟨-, rfl⟩ | ⟨-, hj⟩
    · exact absurd hq not_holds_locking
    · exact h k j p q key hk hj hp hq

/-- A key is acquired exclusively when the connection does not hold it for another pass. -/
theorem step_acquired {s : State} (h : Inv hashtext s) {i index process : Nat} {key : String} {keys : List String}
    {locks : List (Connection × Int)} (hpass : s.passes[i]? = some ⟨process, .locking (key :: keys)⟩)
    (hlock : tryLock s.locks ⟨process, index⟩ (hashtext key) = some locks) :
    (Locked hashtext ⟨locks, s.passes.set i ⟨process, .holding key ⟨process, index⟩ keys⟩⟩ →
        OwnConnection s (.tryAdvisoryLock i (some index))) ∧
      (OwnConnection s (.tryAdvisoryLock i (some index)) →
        Inv hashtext ⟨locks, s.passes.set i ⟨process, .holding key ⟨process, index⟩ keys⟩⟩) := by
  obtain ⟨hfree, hlocks⟩ := tryLock_eq_some.1 hlock
  simp only [OwnConnection, hpass]
  constructor
  · intro hlocked q hq rest hphase
    obtain ⟨j, hj⟩ := List.mem_iff_getElem?.1 hq
    have hne : i ≠ j := by
      rintro rfl
      rw [hpass] at hj
      rw [← Option.some.inj hj] at hphase
      exact absurd hphase nofun
    have hnew := Callers.getElem?_set_self_of_some (x := ⟨process, .holding key ⟨process, index⟩ keys⟩) hpass
    exact hne (hlocked.exclusive i j _ q key hnew (Callers.getElem?_set_of_ne hne hj) ⟨_, _, rfl⟩ ⟨_, _, hphase⟩)
  · intro hown
    have hother : ∀ (j : Nat) q, s.passes[j]? = some q → ¬ q.holds key := by
      rintro j q hj ⟨connection, rest, hphase⟩
      have hsame := hfree _ (h.held_mem (List.mem_of_getElem? hj) hphase) rfl
      exact hown q (List.mem_of_getElem? hj) rest (hsame ▸ hphase)
    have hperm := Callers.filterMap_set_of_none (f := Pass.held hashtext) hpass rfl
      ⟨process, .holding key ⟨process, index⟩ keys⟩
    have hheld : (locks : List (Connection × Int)).Perm _ := hlocks ▸ (h.held.cons _).trans hperm.symm
    refine ⟨hheld, h.owner.tryLock hlock, ?_⟩
    intro k j p q key' hk hj hp hq
    rcases Callers.getElem?_set_cases hk with ⟨hki, hpnew⟩ | ⟨-, hkold⟩
    · rcases Callers.getElem?_set_cases hj with ⟨hji, -⟩ | ⟨-, hjold⟩
      · exact hki.trans hji.symm
      · obtain rfl := key_of_holds (hpnew ▸ hp)
        exact absurd hq (hother j q hjold)
    · rcases Callers.getElem?_set_cases hj with ⟨-, hqnew⟩ | ⟨-, hjold⟩
      · obtain rfl := key_of_holds (hqnew ▸ hq)
        exact absurd hp (hother k p hkold)
      · exact h.exclusive k j p q key' hkold hjold hp hq

/-- A key is released when it is unlocked on the connection where it has been locked. -/
theorem step_unlocked {s : State} (h : Inv hashtext s) {i process : Nat} {index : Option Nat} {key : String}
    {connection : Connection} {keys : List String}
    (hpass : s.passes[i]? = some ⟨process, .holding key connection keys⟩) :
    (Locked hashtext (s.advisoryUnlock hashtext i process key keys index) →
        OwnConnection s (.advisoryUnlock i index)) ∧
      (OwnConnection s (.advisoryUnlock i index) →
        Inv hashtext (s.advisoryUnlock hashtext i process key keys index)) := by
  have hperm := Callers.filterMap_set_to_none (f := Pass.held hashtext) (y := ⟨process, .locking keys⟩) hpass rfl rfl
  have hmem := h.held_mem (List.mem_of_getElem? hpass) rfl
  simp only [OwnConnection, hpass]
  constructor
  · intro hlocked
    by_contra hne
    have hsame : (s.advisoryUnlock hashtext i process key keys index).locks = s.locks := by
      unfold State.advisoryUnlock
      cases index with
      | none => rfl
      | some index => exact h.owner.unlock_of_ne hmem fun heq => hne (congrArg some heq)
    have hle := hlocked.released (hashtext key)
    rw [hsame, (h.held.trans hperm).countP_eq, List.countP_cons_of_pos (by simp)] at hle
    exact absurd hle (Nat.not_succ_le_self _)
  · intro hown
    cases index with
    | none => exact absurd hown nofun
    | some index =>
      obtain rfl : Connection.mk process index = connection := Option.some.inj hown
      refine ⟨?_, h.owner.unlock _ _, exclusive_set h.exclusive⟩
      have herase := ((h.held.trans hperm).erase ((⟨process, index⟩ : Connection), hashtext key))
      rw [List.erase_cons_head] at herase
      exact herase

private theorem step_inv {s t : State} {a : Action} (h : Inv hashtext s) (ha : next hashtext dbPoolMax s a = some t) :
    (Locked hashtext t → OwnConnection s a) ∧ (OwnConnection s a → Inv hashtext t) := by
  rcases next_cases ha with ⟨process, keys, hother, rfl⟩ | ⟨i, index, process, key, keys, rfl, hpass, hlock, rfl⟩ |
    ⟨i, index, process, key, keys, locks, rfl, hpass, hlock, rfl⟩ |
    ⟨i, index, process, key, connection, keys, rfl, hpass, rfl⟩
  · have hown : OwnConnection s a := by
      cases a with
      | tryAdvisoryLock i index => exact absurd rfl (hother i index).1
      | advisoryUnlock i index => exact absurd rfl (hother i index).2
      | _ => trivial
    refine ⟨fun _ => hown, fun _ => ⟨?_, h.owner, ?_⟩⟩
    · have hheld : (s.passes ++ [(⟨process, .locking keys⟩ : Pass)]).filterMap (Pass.held hashtext) =
          s.passes.filterMap (Pass.held hashtext) := by
        simp [List.filterMap_append, Pass.held]
      exact h.held.trans (.of_eq hheld.symm)
    · intro i j p q key hi hj hp hq
      rcases Callers.getElem?_concat_cases hi with ⟨-, rfl⟩ | hi
      · exact absurd hp not_holds_locking
      · rcases Callers.getElem?_concat_cases hj with ⟨-, rfl⟩ | hj
        · exact absurd hq not_holds_locking
        · exact h.exclusive i j p q key hi hj hp hq
  · have hown : OwnConnection s (.tryAdvisoryLock i index) := by
      cases index with
      | none => trivial
      | some index =>
        simp only [OwnConnection, hpass]
        intro q hq rest hphase
        have hmem := h.held_mem hq hphase
        have hnone := hlock index rfl
        rw [h.owner.tryLock_of_mem hmem] at hnone
        exact absurd hnone nofun
    have hperm := Callers.filterMap_set_of_none (f := Pass.held hashtext) hpass rfl ⟨process, .locking keys⟩
    exact ⟨fun _ => hown, fun _ => ⟨h.held.trans hperm.symm, h.owner, exclusive_set h.exclusive⟩⟩
  · exact step_acquired h hpass hlock
  · exact step_unlocked h hpass

/-- In a run of the passes the locks are exclusive and released, at any time, exactly when every statement runs on a
connection of its own. -/
theorem locked_iff {s : State} {as : List Action} (h : (machine hashtext dbPoolMax).exec .initial as = some s) :
    (∀ bs t, bs <+: as → (machine hashtext dbPoolMax).exec .initial bs = some t → Locked hashtext t) ↔
      (machine hashtext dbPoolMax).Throughout OwnConnection .initial as :=
  Machine.throughout_iff_of_step (fun _ hs => hs.locked) (fun _ _ _ hs ha => step_inv hs ha) (inv_initial hashtext) h

/-! ### Retention passes -/

/-- Processes with a pool of two connections each. -/
def twoConnections : Machine State Action := machine (fun _ => 1) fun _ => 2

/-- Of three passes, two of them in one process, the first one acquires the key; when it has returned, a fourth one. -/
def sameConnection : List Action :=
  [.runRetention 0, .runRetention 0, .runRetention 1, .tryAdvisoryLock 0 (some 0), .tryAdvisoryLock 1 (some 1),
    .tryAdvisoryLock 2 (some 0), .advisoryUnlock 0 (some 0), .runRetention 1, .tryAdvisoryLock 3 (some 1),
    .advisoryUnlock 3 (some 1)]

def otherConnection : List Action := [.runRetention 0, .tryAdvisoryLock 0 (some 0), .advisoryUnlock 0 (some 1)]

private theorem ne_holding_of_all {passes : List Pass} {key : String} {connection : Connection}
    (h : (passes.all fun q => match q.phase with
      | .holding _ other _ => other ≠ connection
      | .locking _ => true) = true) : ∀ q ∈ passes, ∀ keys, q.phase ≠ .holding key connection keys := by
  intro q hq keys hphase
  have hq := List.all_eq_true.1 h q hq
  rw [hphase] at hq
  exact absurd rfl (of_decide_eq_true hq)

theorem locked_sameConnection :
    twoConnections.exec .initial sameConnection =
        some ⟨[], [⟨0, .locking []⟩, ⟨0, .locking []⟩, ⟨1, .locking []⟩, ⟨1, .locking []⟩]⟩ ∧
      ∀ bs t, bs <+: sameConnection → twoConnections.exec .initial bs = some t → Locked (fun _ => 1) t := by
  have hexec : twoConnections.exec .initial sameConnection =
      some ⟨[], [⟨0, .locking []⟩, ⟨0, .locking []⟩, ⟨1, .locking []⟩, ⟨1, .locking []⟩]⟩ := by decide
  refine ⟨hexec, (locked_iff hexec).2 ?_⟩
  refine .cons trivial rfl (.cons trivial rfl (.cons trivial rfl (.cons ?_ rfl (.cons ?_ rfl (.cons ?_ rfl
    (.cons rfl rfl (.cons trivial rfl (.cons ?_ rfl (.cons rfl rfl trivial)))))))))
  all_goals exact ne_holding_of_all (by decide)

/-- The pass has returned, and its connection still holds the lock. -/
theorem not_locked_otherConnection :
    twoConnections.exec .initial otherConnection = some ⟨[(⟨0, 0⟩, 1)], [⟨0, .locking []⟩]⟩ ∧
      ¬ Locked (fun _ => 1) ⟨[(⟨0, 0⟩, 1)], [⟨0, .locking []⟩]⟩ := by
  refine ⟨by decide, fun h => ?_⟩
  have hreleased := h.released 1
  exact absurd hreleased (by decide)

end MacpControlPlane.AdvisoryLock

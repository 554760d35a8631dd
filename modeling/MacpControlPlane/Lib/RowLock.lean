import Mathlib.Data.List.Induction
import MacpControlPlane.Lib.Callers
import MacpControlPlane.Lib.Machine

/-!
# Transactions behind one row lock

Transactions at read committed level whose first statement takes a lock that is held until the end.  A statement sees
the data that is committed when it runs, with the transaction's own writes on top; the writes reach the data at the
commit, and a rollback, which can happen at any time, drops them.

Since a transaction runs its statements only under the lock, nobody commits between its first statement and its
commit. So what it commits is what it does when it runs alone, and the data is the fold of the committed transactions
in the order of their commits (`data_eq`).
-/

namespace RowLock

variable {σ ℓ τ : Type*}

/-- A statement: what it reads goes to the locals, and what it writes is a change of the data. -/
abbrev Statement (σ ℓ : Type*) := ℓ → σ → ℓ × (σ → σ)

/-- A statement of a transaction that runs alone. -/
def Statement.run (x : ℓ × σ) (statement : Statement σ ℓ) : ℓ × σ :=
  let r := statement x.1 x.2
  (r.1, r.2 x.2)

/-- The statements of a transaction after it has taken the lock, and its locals at the start. -/
structure Program (σ ℓ : Type*) where
  locals : ℓ
  statements : List (Statement σ ℓ)

/-- What a transaction does to the data when it runs alone. -/
def Program.apply (p : Program σ ℓ) (data : σ) : σ :=
  (p.statements.foldl Statement.run (p.locals, data)).2

/-- Where a transaction is. -/
inductive Phase (σ ℓ : Type*) where
  /-- It waits for the lock. -/
  | waiting
  /-- It holds the lock; `write` is what it has written so far. -/
  | running (rest : List (Statement σ ℓ)) (locals : ℓ) (write : σ → σ)
  | committed
  | rolledBack

/-- A transaction; its kind says what its program is. -/
structure Txn (σ ℓ τ : Type*) where
  kind : τ
  phase : Phase σ ℓ := .waiting

/-- The committed data, the holder of the lock, the transactions, and those that have committed, oldest first. -/
structure State (σ ℓ τ : Type*) where
  data : σ
  holder : Option Nat := none
  txns : List (Txn σ ℓ τ) := []
  commits : List τ := []

/-- The steps of a transaction. -/
inductive Step where
  | lock
  | statement
  | commit
  | rollback

/-- What can happen next. -/
inductive Action (τ : Type*) where
  /-- A new transaction. -/
  | begin (kind : τ)
  /-- Transaction `i` takes its next step. -/
  | step (i : Nat) (step : Step)

/-- Transaction `i` moves on to another phase. -/
def State.move (s : State σ ℓ τ) (i : Nat) (t : Txn σ ℓ τ) (phase : Phase σ ℓ) : State σ ℓ τ :=
  { s with txns := s.txns.set i { t with phase } }

/-- A step of transaction `i`. -/
def State.step (program : τ → Program σ ℓ) (s : State σ ℓ τ) (i : Nat) (t : Txn σ ℓ τ) : Step → Option (State σ ℓ τ)
  | .lock =>
    match t.phase, s.holder with
    | .waiting, none =>
      some { s.move i t (.running (program t.kind).statements (program t.kind).locals id) with holder := some i }
    | _, _ => none
  | .statement =>
    match t.phase with
    | .running (statement :: rest) locals write =>
      let r := statement locals (write s.data)
      some (s.move i t (.running rest r.1 (r.2 ∘ write)))
    | _ => none
  | .commit =>
    match t.phase with
    | .running [] _ write =>
      some { s.move i t .committed with data := write s.data, holder := none, commits := s.commits ++ [t.kind] }
    | _ => none
  | .rollback =>
    match t.phase with
    | .waiting => some (s.move i t .rolledBack)
    | .running _ _ _ => some { s.move i t .rolledBack with holder := none }
    | _ => none

/-- A new transaction, or a step of one. -/
def next (program : τ → Program σ ℓ) (s : State σ ℓ τ) : Action τ → Option (State σ ℓ τ)
  | .begin kind => some { s with txns := s.txns ++ [{ kind }] }
  | .step i a => s.txns[i]?.bind fun t => s.step program i t a

/-- Transactions on data that is `data` at first. -/
def machine (program : τ → Program σ ℓ) (data : σ) : Machine (State σ ℓ τ) (Action τ) where
  start s := s = { data }
  next := next program

/-- What holds of a transaction: when it runs, it holds the lock and has done what it does alone on the committed
data. -/
def Txn.Ok (program : τ → Program σ ℓ) (s : State σ ℓ τ) (i : Nat) (t : Txn σ ℓ τ) : Prop :=
  ∀ rest locals write, t.phase = .running rest locals write → s.holder = some i ∧
    ∃ done, (program t.kind).statements = done ++ rest ∧
      done.foldl Statement.run ((program t.kind).locals, s.data) = (locals, write s.data)

/-- The data is the fold of the commits, and the transactions are as they should be. -/
structure Invariant (program : τ → Program σ ℓ) (data : σ) (s : State σ ℓ τ) : Prop where
  data_eq : s.data = s.commits.foldl (fun d kind => (program kind).apply d) data
  txns : ∀ (i : Nat) (t : Txn σ ℓ τ), s.txns[i]? = some t → t.Ok program s i

variable {program : τ → Program σ ℓ} {data : σ}

/-- Only the holder of the lock runs. -/
theorem Invariant.not_running {s : State σ ℓ τ} (h : Invariant program data s) {i j : Nat} {t : Txn σ ℓ τ}
    (ht : s.txns[j]? = some t) (hne : j ≠ i) (hholder : s.holder = none ∨ s.holder = some i)
    {rest : List (Statement σ ℓ)}
    {locals : ℓ} {write : σ → σ} : t.phase ≠ .running rest locals write := by
  intro hphase
  obtain ⟨hj, -⟩ := h.txns j t ht rest locals write hphase
  rcases hholder with hnone | hi
  · exact absurd (hnone.symm.trans hj) nofun
  · exact hne (Option.some.inj (hj.symm.trans hi))

theorem Invariant.step {s s' : State σ ℓ τ} (h : Invariant program data s) {i : Nat} {t : Txn σ ℓ τ}
    (ht : s.txns[i]? = some t) {a : Step} (hstep : s.step program i t a = some s') : Invariant program data s' := by
  have hok := h.txns i t ht
  cases a with
  | lock =>
    simp only [State.step] at hstep
    split at hstep
    · rename_i hphase hholder
      rw [← Option.some.inj hstep]
      refine ⟨h.data_eq, ?_⟩
      intro j u hu rest locals write hrun
      rcases Callers.getElem?_set_cases hu with ⟨rfl, rfl⟩ | ⟨hne, hu⟩
      · obtain ⟨rfl, rfl, rfl⟩ := Phase.running.inj hrun
        exact ⟨rfl, [], rfl, rfl⟩
      · exact absurd hrun (h.not_running hu hne (Or.inl hholder))
    · exact absurd hstep nofun
  | statement =>
    simp only [State.step] at hstep
    split at hstep
    · rename_i statement rest locals write hphase
      obtain ⟨hholder, done, hdone, hfold⟩ := hok _ _ _ hphase
      rw [← Option.some.inj hstep]
      refine ⟨h.data_eq, ?_⟩
      intro j u hu rest' locals' write' hrun
      rcases Callers.getElem?_set_cases hu with ⟨rfl, rfl⟩ | ⟨hne, hu⟩
      · obtain ⟨rfl, rfl, rfl⟩ := Phase.running.inj hrun
        refine ⟨hholder, done ++ [statement], ?_, ?_⟩
        · rw [hdone, List.append_assoc]
          rfl
        · show (done ++ [statement]).foldl Statement.run ((program t.kind).locals, s.data) = _
          rw [List.foldl_append, hfold]
          rfl
      · exact absurd hrun (h.not_running hu hne (Or.inr hholder))
    · exact absurd hstep nofun
  | commit =>
    simp only [State.step] at hstep
    split at hstep
    · rename_i locals write hphase
      obtain ⟨hholder, done, hdone, hfold⟩ := hok _ _ _ hphase
      rw [← Option.some.inj hstep]
      refine ⟨?_, ?_⟩
      · rw [List.append_nil] at hdone
        show write s.data = (s.commits ++ [t.kind]).foldl _ data
        rw [List.foldl_append, ← h.data_eq, List.foldl_cons, List.foldl_nil, Program.apply, hdone, hfold]
      · intro j u hu rest locals' write' hrun
        rcases Callers.getElem?_set_cases hu with ⟨rfl, rfl⟩ | ⟨hne, hu⟩
        · exact absurd hrun (by simp)
        · exact absurd hrun (h.not_running hu hne (Or.inr hholder))
    · exact absurd hstep nofun
  | rollback =>
    simp only [State.step] at hstep
    split at hstep
    · rw [← Option.some.inj hstep]
      refine ⟨h.data_eq, ?_⟩
      intro j u hu rest locals write hrun
      rcases Callers.getElem?_set_cases hu with ⟨rfl, rfl⟩ | ⟨-, hu⟩
      · exact absurd hrun (by simp)
      · exact h.txns j u hu rest locals write hrun
    · rename_i hphase
      obtain ⟨hholder, -⟩ := hok _ _ _ hphase
      rw [← Option.some.inj hstep]
      refine ⟨h.data_eq, ?_⟩
      intro j u hu rest locals write hrun
      rcases Callers.getElem?_set_cases hu with ⟨rfl, rfl⟩ | ⟨hne, hu⟩
      · exact absurd hrun (by simp)
      · exact absurd hrun (h.not_running hu hne (Or.inr hholder))
    · exact absurd hstep nofun

theorem Invariant.begin {s : State σ ℓ τ} (h : Invariant program data s) (kind : τ) :
    Invariant program data { s with txns := s.txns ++ [{ kind }] } := by
  refine ⟨h.data_eq, ?_⟩
  intro i t ht rest locals write hrun
  rcases Callers.getElem?_concat_cases ht with ⟨-, rfl⟩ | ht
  · exact absurd hrun (by simp)
  · exact h.txns i t ht rest locals write hrun

/-- Whatever the interleaving and the rollbacks, the committed data is what the committed transactions do one after
the other, in the order of their commits. -/
theorem data_eq {s : State σ ℓ τ} (h : (machine program data).Reachable s) :
    s.data = s.commits.foldl (fun d kind => (program kind).apply d) data := by
  have hinv : Invariant program data s := by
    refine h.invariant ?_ ?_
    · rintro s rfl
      exact ⟨rfl, fun i t ht => absurd ht nofun⟩
    · intro s a s' hs hnext
      cases a with
      | begin kind => exact Option.some.inj hnext ▸ hs.begin kind
      | step i a =>
        obtain ⟨t, ht, hstep⟩ := Option.bind_eq_some_iff.1 hnext
        exact hs.step ht hstep
  exact hinv.data_eq

/-- A transaction that runs can run on to its commit. -/
theorem exists_commit {s : State σ ℓ τ} (hs : (machine program data).Reachable s) {i : Nat} {kind : τ}
    {rest : List (Statement σ ℓ)} {locals : ℓ} {write : σ → σ}
    (ht : s.txns[i]? = some { kind, phase := .running rest locals write }) :
    ∃ s', (machine program data).Reachable s' ∧ s'.holder = none ∧ s'.commits = s.commits ++ [kind] := by
  induction rest generalizing s locals write with
  | nil =>
    have hnext : (machine program data).next s (.step i .commit) =
        some { s.move i { kind, phase := .running [] locals write } .committed with
        data := write s.data, holder := none, commits := s.commits ++ [kind] } := by
      show s.txns[i]?.bind _ = _
      rw [ht]
      rfl
    exact ⟨_, hs.next hnext, rfl, rfl⟩
  | cons statement rest ih =>
    have hnext : (machine program data).next s (.step i .statement) =
        some (s.move i { kind, phase := .running (statement :: rest) locals write }
        (.running rest (statement locals (write s.data)).1 ((statement locals (write s.data)).2 ∘ write))) := by
      show s.txns[i]?.bind _ = _
      rw [ht]
      rfl
    have hs' := hs.next hnext
    obtain ⟨s', hreach, hholder, hcommits⟩ := ih hs' (Callers.getElem?_set_self_of_some ht)
    exact ⟨s', hreach, hholder, hcommits⟩

/-- While nobody holds the lock, a new transaction can take it and run to its commit. -/
theorem exists_commit_new {s : State σ ℓ τ} (hs : (machine program data).Reachable s) (hholder : s.holder = none)
    (kind : τ) :
    ∃ s', (machine program data).Reachable s' ∧ s'.holder = none ∧ s'.commits = s.commits ++ [kind] := by
  have hbegin : (machine program data).next s (.begin kind) = some { s with txns := s.txns ++ [{ kind }] } := rfl
  have hlast : (s.txns ++ [({ kind } : Txn σ ℓ τ)])[s.txns.length]? = some { kind } := List.getElem?_concat_length
  have hlock : (machine program data).next { s with txns := s.txns ++ [{ kind }] } (.step s.txns.length .lock) =
      some { State.move { s with txns := s.txns ++ [{ kind }] } s.txns.length { kind }
        (.running (program kind).statements (program kind).locals id) with holder := some s.txns.length } := by
    show (s.txns ++ [({ kind } : Txn σ ℓ τ)])[s.txns.length]?.bind _ = _
    rw [hlast]
    simp only [Option.bind_some, State.step, hholder]
  have hs' := (hs.next hbegin).next hlock
  obtain ⟨t, ht, hfree, hcommits⟩ := exists_commit hs' (Callers.getElem?_set_self_of_some hlast)
  exact ⟨t, ht, hfree, hcommits⟩

/-- There is a run that commits the transactions in their order. -/
theorem exists_commits (kinds : List τ) :
    ∃ s, (machine program data).Reachable s ∧ s.holder = none ∧ s.commits = kinds := by
  induction kinds using List.reverseRecOn with
  | nil => exact ⟨{ data }, ⟨_, [], rfl, rfl⟩, rfl, rfl⟩
  | append_singleton kinds kind ih =>
    obtain ⟨s, hs, hholder, rfl⟩ := ih
    exact exists_commit_new hs hholder kind

end RowLock

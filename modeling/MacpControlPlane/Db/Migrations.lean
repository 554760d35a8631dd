import Mathlib.Data.List.Nodup
import Mathlib.Data.List.Sort
import MacpControlPlane.Lib.Callers
import MacpControlPlane.Lib.Js
import MacpControlPlane.Lib.Machine

/-!
# Migrations (`db/migrate.ts`)

Every process that starts runs the migrations of its image against the one database, and nothing keeps two of them from
doing so at once.  A file and the row that says that it has been applied are written in one transaction; the key of
`_migrations` is all that stands between two transactions for one file.  Any statement may fail, and a process may die
at any point, which rolls its open transaction back.

What a file does to the schema is a parameter.
-/

namespace MacpControlPlane.Migrations

open Js

variable {σ : Type}

/-- The schema, and the rows of `_migrations` in the order in which they were committed. -/
structure Db (σ : Type) where
  schema : σ
  applied : List String := []
  deriving DecidableEq

/-- Where a call of `runMigrations` is. -/
inductive Phase (σ : Type) where
  /-- It has read its directory. -/
  | starting
  /-- At the head of the loop, with the files that are left. -/
  | pending (rest : List String)
  /-- `BEGIN` -/
  | begun (file : String) (rest : List String)
  /-- The file has run, to a schema that is not committed. -/
  | migrated (file : String) (rest : List String) (schema : σ)
  /-- The row has been inserted as well. -/
  | inserted (file : String) (rest : List String) (schema : σ)
  | done
  | threw
  deriving DecidableEq

structure Runner (σ : Type) where
  files : List String
  phase : Phase σ
  deriving DecidableEq

structure State (σ : Type) where
  db : Db σ
  runners : List (Runner σ) := []
  deriving DecidableEq

/-- `readdirSync(…).filter((f) => f.endsWith('.sql')).sort()` -/
def migrationFiles (dir : List String) : List String :=
  (dir.filter fun f => ".sql".toList.isSuffixOf f.toList).insertionSort fun a b => stringGt a b = false

inductive Action where
  /-- `runMigrations`, up to the directory. -/
  | run (dir : List String)
  /-- `SELECT name FROM _migrations` -/
  | select (i : Nat)
  | begin (i : Nat)
  | query (i : Nat)
  | insert (i : Nat)
  | commit (i : Nat)
  /-- `COMMIT` takes effect, and its reply does not arrive. -/
  | replyLost (i : Nat)
  /-- A statement fails, or the process dies: the transaction is rolled back. -/
  | fail (i : Nat)
  deriving DecidableEq

def Phase.loopHead : List String → Phase σ
  | [] => .done
  | rest => .pending rest

/-- The file whose row is inserted and not committed: another insert of the row waits. -/
def Phase.locked : Phase σ → Option String
  | .inserted file _ _ => some file
  | _ => none

def State.move (s : State σ) (i : Nat) (r : Runner σ) (phase : Phase σ) : State σ :=
  { s with runners := s.runners.set i { r with phase } }

def State.committed (s : State σ) (file : String) (schema : σ) : State σ :=
  { s with db := ⟨schema, s.db.applied ++ [file]⟩ }

variable (sql : String → σ → Option σ)

/-- A step of runner `i`. -/
def State.step (s : State σ) (i : Nat) (r : Runner σ) : Action → Option (State σ)
  | .run _ => none
  | .select _ =>
    match r.phase with
    | .starting => some (s.move i r (.loopHead (r.files.filter fun f => f ∉ s.db.applied)))
    | _ => none
  | .begin _ =>
    match r.phase with
    | .pending (file :: rest) => some (s.move i r (.begun file rest))
    | _ => none
  | .query _ =>
    match r.phase with
    | .begun file rest =>
      match sql file s.db.schema with
      | some schema => some (s.move i r (.migrated file rest schema))
      | none => some (s.move i r .threw)
    | _ => none
  | .insert _ =>
    match r.phase with
    | .migrated file rest schema =>
      if file ∈ s.db.applied then some (s.move i r .threw)
      else if s.runners.any fun other => other.phase.locked = some file then none
      else some (s.move i r (.inserted file rest schema))
    | _ => none
  | .commit _ =>
    match r.phase with
    | .inserted file rest schema => some ((s.committed file schema).move i r (.loopHead rest))
    | _ => none
  | .replyLost _ =>
    match r.phase with
    | .inserted file _ schema => some ((s.committed file schema).move i r .threw)
    | _ => none
  | .fail _ =>
    match r.phase with
    | .done | .threw => none
    | _ => some (s.move i r .threw)

def Action.runner? : Action → Option Nat
  | .run _ => none
  | .select i | .begin i | .query i | .insert i | .commit i | .replyLost i | .fail i => some i

def next (s : State σ) (a : Action) : Option (State σ) :=
  match a with
  | .run dir => some { s with runners := s.runners ++ [⟨migrationFiles dir, .starting⟩] }
  | a => a.runner?.bind fun i => s.runners[i]?.bind fun r => s.step sql i r a

def machine : Machine (State σ) Action where
  start s := ∃ schema, s = { db := { schema } }
  next := next sql

/-- Every image has the first files of one sequence. -/
def Deployed (all : List String) : Action → Prop
  | .run dir => migrationFiles dir <+: all
  | _ => True

instance (all : List String) (a : Action) : Decidable (Deployed all a) := by
  cases a <;> unfold Deployed <;> infer_instance

/-- The database is as if the first files had been run by hand, one after the other. -/
structure InOrder (all : List String) (schema₀ : σ) (db : Db σ) : Prop where
  isPrefix : db.applied <+: all
  schema : db.applied.foldlM (fun schema file => sql file schema) schema₀ = some db.schema

variable {sql} {all : List String} {schema₀ : σ} {s t : State σ} {a : Action} {as : List Action}

/-! ### First files -/

private theorem prefix_of_subset {xs ys zs : List String} (hnodup : zs.Nodup) (hxs : xs <+: zs) (hys : ys <+: zs)
    (hsub : xs ⊆ ys) : xs <+: ys := by
  rcases List.prefix_or_prefix_of_prefix hxs hys with hle | ⟨rest, rfl⟩
  · exact hle
  · cases rest with
    | nil => simp
    | cons f rest =>
      have hf : f ∈ ys := hsub (by simp)
      have hdisjoint := (List.nodup_append.1 (hnodup.sublist hxs.sublist)).2.2
      exact absurd rfl (hdisjoint f hf f List.mem_cons_self)

/-- A file that has not been applied, while those before it have: it is the next one. -/
theorem applied_eq {applied before rest : List String} {file : String} (hnodup : all.Nodup) (happlied : applied <+: all)
    (hfiles : before ++ file :: rest <+: all) (hbefore : ∀ f ∈ before, f ∈ applied) (hfile : file ∉ applied) :
    applied = before := by
  have hle : before <+: applied :=
    prefix_of_subset hnodup ((List.prefix_append before (file :: rest)).trans hfiles) happlied hbefore
  have hlt : ¬ before ++ [file] <+: applied := fun h => hfile (h.subset (by simp))
  have hnext : before ++ [file] <+: all := by
    refine List.IsPrefix.trans ?_ hfiles
    exact ⟨rest, by simp⟩
  obtain ⟨more, rfl⟩ := hle
  rcases List.prefix_or_prefix_of_prefix hnext happlied with h | h
  · exact absurd h hlt
  · have hmore : more <+: [file] := (List.prefix_append_right_inj before).1 h
    rcases List.prefix_cons_iff.1 hmore with rfl | ⟨tail, rfl, -⟩
    · simp
    · exact absurd (by simp) hfile

private theorem filter_notMem_append {applied rest : List String} (hnodup : (applied ++ rest).Nodup) :
    (applied ++ rest).filter (fun f => f ∉ applied) = rest := by
  have hdisjoint := (List.nodup_append.1 hnodup).2.2
  have hnone : applied.filter (fun f => f ∉ applied) = [] := by
    rw [List.filter_eq_nil_iff]
    intro f hf
    simpa using hf
  have hrest : rest.filter (fun f => f ∉ applied) = rest := by
    rw [List.filter_eq_self]
    intro f hf
    simpa using fun h => hdisjoint f h f hf rfl
  rw [List.filter_append, hnone, hrest, List.nil_append]

private theorem filter_notMem_suffix {files applied : List String} (hnodup : all.Nodup) (hfiles : files <+: all)
    (happlied : applied <+: all) :
    ∃ before, files = before ++ files.filter (fun f => f ∉ applied) ∧ ∀ f ∈ before, f ∈ applied := by
  rcases List.prefix_or_prefix_of_prefix hfiles happlied with hle | ⟨rest, rfl⟩
  · refine ⟨files, ?_, fun f hf => hle.subset hf⟩
    have hnone : files.filter (fun f => f ∉ applied) = [] := by
      rw [List.filter_eq_nil_iff]
      intro f hf
      simpa using hle.subset hf
    rw [hnone, List.append_nil]
  · refine ⟨applied, ?_, fun f hf => hf⟩
    rw [filter_notMem_append (hnodup.sublist hfiles.sublist)]

/-! ### Runners in step -/

/-- The files that the runner has still to commit, once it knows them. -/
def Phase.todo : Phase σ → Option (List String)
  | .starting | .threw => none
  | .pending rest => some rest
  | .begun file rest | .migrated file rest _ | .inserted file rest _ => some (file :: rest)
  | .done => some []

def Phase.staged : Phase σ → Option (String × σ)
  | .migrated file _ schema | .inserted file _ schema => some (file, schema)
  | _ => none

@[simp] theorem todo_loopHead (rest : List String) : (Phase.loopHead rest : Phase σ).todo = some rest := by
  cases rest <;> rfl

@[simp] theorem staged_loopHead (rest : List String) : (Phase.loopHead rest : Phase σ).staged = none := by
  cases rest <;> rfl

@[simp] theorem locked_loopHead (rest : List String) : (Phase.loopHead rest : Phase σ).locked = none := by
  cases rest <;> rfl

/-- A runner with a part of the files, next to a database. -/
structure Runner.InStep (sql : String → σ → Option σ) (all : List String) (db : Db σ) (r : Runner σ) : Prop where
  files : r.files <+: all
  todo : ∀ todo ∈ r.phase.todo, ∃ before, r.files = before ++ todo ∧ ∀ f ∈ before, f ∈ db.applied
  staged : ∀ file schema, r.phase.staged = some (file, schema) → file ∉ db.applied → sql file db.schema = some schema
  locked : ∀ file ∈ r.phase.locked, file ∉ db.applied

structure Inv (sql : String → σ → Option σ) (all : List String) (schema₀ : σ) (s : State σ) : Prop where
  order : InOrder sql all schema₀ s.db
  runners : ∀ (i : Nat) r, s.runners[i]? = some r → r.InStep sql all s.db
  /-- No two transactions have inserted one row. -/
  exclusive : ∀ (i j : Nat) r r', s.runners[i]? = some r → s.runners[j]? = some r' → r.phase.locked = r'.phase.locked →
    r.phase.locked ≠ none → i = j

private theorem Inv.move (h : Inv sql all schema₀ s) {i : Nat} {r : Runner σ} {phase : Phase σ}
    (hr : Runner.InStep sql all s.db { r with phase })
    (hlocked : phase.locked = none ∨ ∀ (j : Nat) r', s.runners[j]? = some r' → r'.phase.locked ≠ phase.locked) :
    Inv sql all schema₀ (s.move i r phase) := by
  refine ⟨h.order, fun j r' hr' => ?_, fun j k r' r'' hr' hr'' hsame hsome => ?_⟩
  · rcases Callers.getElem?_set_cases hr' with ⟨-, rfl⟩ | ⟨-, hr'⟩
    · exact hr
    · exact h.runners j r' hr'
  · rcases Callers.getElem?_set_cases hr' with ⟨hj, rfl⟩ | ⟨-, hr'⟩ <;>
      rcases Callers.getElem?_set_cases hr'' with ⟨hk, rfl⟩ | ⟨-, hr''⟩
    · exact hj.trans hk.symm
    · rcases hlocked with hnone | hother
      · exact absurd hnone hsome
      · exact absurd hsame.symm (hother k r'' hr'')
    · rcases hlocked with hnone | hother
      · exact absurd (hsame.trans hnone) hsome
      · exact absurd hsame (hother j r' hr')
    · exact h.exclusive j k r' r'' hr' hr'' hsame hsome

/-- A runner that has nothing open and knows what is left. -/
theorem inStep_of_todo {db : Db σ} {r : Runner σ} {phase : Phase σ} (hfiles : r.files <+: all)
    (htodo : ∀ todo ∈ phase.todo, ∃ before, r.files = before ++ todo ∧ ∀ f ∈ before, f ∈ db.applied)
    (hstaged : phase.staged = none) (hlocked : phase.locked = none) :
    Runner.InStep sql all db { r with phase } where
  files := hfiles
  todo := htodo
  staged file schema h := absurd (hstaged.symm.trans h) nofun
  locked file h := by
    change phase.locked = some file at h
    rw [hlocked] at h
    cases h

/-- What a commit does to the others: those with the same file will not get to insert its row. -/
theorem Runner.InStep.committed {db : Db σ} {r r' : Runner σ} {file : String} {rest : List String} {schema : σ}
    (hnodup : all.Nodup) (hbegins : db.applied <+: all) (hr : r.InStep sql all db)
    (hphase : r.phase = .inserted file rest schema) (hr' : r'.InStep sql all db)
    (hne : r'.phase.locked ≠ some file) : r'.InStep sql all ⟨schema, db.applied ++ [file]⟩ := by
  refine ⟨hr'.files, fun todo htodo => ?_, fun file' schema' hstaged hnot => ?_, fun file' hfile' hmem => ?_⟩
  · obtain ⟨before, hsplit, hbefore⟩ := hr'.todo todo htodo
    exact ⟨before, hsplit, fun f hf => List.mem_append_left _ (hbefore f hf)⟩
  · -- Both are the file after those that have been applied.
    obtain ⟨hold, hnew⟩ : file' ∉ db.applied ∧ file' ≠ file := by simpa using hnot
    obtain ⟨before, hsplit, hbefore⟩ := hr.todo (file :: rest) (by rw [hphase]; rfl)
    have hfirst : db.applied = before :=
      applied_eq hnodup hbegins (hsplit ▸ hr.files) hbefore (hr.locked file (by rw [hphase]; rfl))
    obtain ⟨rest', htodo⟩ : ∃ rest', r'.phase.todo = some (file' :: rest') := by
      cases hphase' : r'.phase <;> rw [hphase'] at hstaged <;> cases hstaged <;> exact ⟨_, rfl⟩
    obtain ⟨before', hsplit', hbefore'⟩ := hr'.todo _ htodo
    have hsecond : db.applied = before' := applied_eq hnodup hbegins (hsplit' ▸ hr'.files) hbefore' hold
    have hone : db.applied ++ [file] <+: all := by
      refine List.IsPrefix.trans ?_ hr.files
      rw [hsplit, ← hfirst]
      exact ⟨rest, by simp⟩
    have htwo : db.applied ++ [file'] <+: all := by
      refine List.IsPrefix.trans ?_ hr'.files
      rw [hsplit', ← hsecond]
      exact ⟨rest', by simp⟩
    have hsame : [file] <+: [file'] :=
      (List.prefix_append_right_inj db.applied).1 (List.prefix_of_prefix_length_le hone htwo (by simp))
    have heq : file = file' := by simpa using hsame
    exact absurd heq.symm hnew
  · rcases List.mem_append.1 hmem with hmem | hmem
    · exact hr'.locked file' hfile' hmem
    · rw [List.mem_singleton.1 hmem] at hfile'
      exact hne hfile'

private theorem Inv.commit (hnodup : all.Nodup) (h : Inv sql all schema₀ s) {i : Nat} {r : Runner σ} {file : String}
    {rest : List String} {schema : σ} (hr : s.runners[i]? = some r) (hphase : r.phase = .inserted file rest schema)
    {phase : Phase σ} (hnext : phase = .loopHead rest ∨ phase = .threw) :
    Inv sql all schema₀ ((s.committed file schema).move i r phase) := by
  have hstep := h.runners i r hr
  obtain ⟨before, hsplit, hbefore⟩ := hstep.todo (file :: rest) (by rw [hphase]; rfl)
  have hnot : file ∉ s.db.applied := hstep.locked file (by rw [hphase]; rfl)
  have hfirst : s.db.applied = before := applied_eq hnodup h.order.isPrefix (hsplit ▸ hstep.files) hbefore hnot
  have hsql : sql file s.db.schema = some schema := hstep.staged file schema (by rw [hphase]; rfl) hnot
  have hlocked : phase.locked = none := by
    rcases hnext with rfl | rfl
    · exact locked_loopHead rest
    · rfl
  have hstaged : phase.staged = none := by
    rcases hnext with rfl | rfl
    · exact staged_loopHead rest
    · rfl
  refine ⟨⟨?_, ?_⟩, fun j r' hr' => ?_, fun j k r' r'' hr' hr'' hsame hsome => ?_⟩
  · show s.db.applied ++ [file] <+: all
    refine List.IsPrefix.trans ?_ hstep.files
    rw [hsplit, hfirst]
    exact ⟨rest, by simp⟩
  · show (s.db.applied ++ [file]).foldlM _ schema₀ = some schema
    rw [List.foldlM_append, h.order.schema]
    simp [hsql]
  · rcases Callers.getElem?_set_cases hr' with ⟨-, rfl⟩ | ⟨hj, hr'⟩
    · refine inStep_of_todo hstep.files (fun todo htodo => ?_) hstaged hlocked
      rcases hnext with rfl | rfl
      · rw [todo_loopHead, Option.mem_some_iff] at htodo
        refine ⟨before ++ [file], by simp [hsplit, ← htodo], fun f hf => ?_⟩
        rcases List.mem_append.1 hf with hf | hf
        · exact List.mem_append_left _ (hbefore f hf)
        · exact List.mem_append_right _ hf
      · cases htodo
    · refine Runner.InStep.committed hnodup h.order.isPrefix hstep hphase (h.runners j r' hr') fun hsame => hj ?_
      refine h.exclusive j i r' r hr' hr ?_ (by rw [hsame]; simp)
      rw [hsame, hphase]
      rfl
  · rcases Callers.getElem?_set_cases hr' with ⟨-, rfl⟩ | ⟨-, hr'⟩
    · exact absurd hlocked hsome
    · rcases Callers.getElem?_set_cases hr'' with ⟨-, rfl⟩ | ⟨-, hr''⟩
      · exact absurd (hsame.trans hlocked) hsome
      · exact h.exclusive j k r' r'' hr' hr'' hsame hsome

private theorem Inv.step (hnodup : all.Nodup) (h : Inv sql all schema₀ s) {i : Nat} {r : Runner σ}
    (hr : s.runners[i]? = some r) (ht : s.step sql i r a = some t) : Inv sql all schema₀ t := by
  have hstep := h.runners i r hr
  have hkeep : ∀ phase : Phase σ, phase.todo = r.phase.todo → phase.staged = none → phase.locked = none →
      Inv sql all schema₀ (s.move i r phase) := by
    intro phase htodo hstaged hlocked
    refine h.move (inStep_of_todo hstep.files (fun todo hmem => ?_) hstaged hlocked) (.inl hlocked)
    exact hstep.todo todo (htodo ▸ hmem)
  have hthrew : Inv sql all schema₀ (s.move i r .threw) := by
    refine h.move (inStep_of_todo hstep.files (fun todo hmem => ?_) rfl rfl) (.inl rfl)
    cases hmem
  cases a with
  | run dir => cases ht
  | select =>
    simp only [State.step] at ht
    split at ht
    · rw [← Option.some.inj ht]
      refine h.move (inStep_of_todo hstep.files (fun todo hmem => ?_) (staged_loopHead _) (locked_loopHead _))
        (.inl (locked_loopHead _))
      rw [todo_loopHead, Option.mem_some_iff] at hmem
      exact hmem ▸ filter_notMem_suffix hnodup hstep.files h.order.isPrefix
    · cases ht
  | begin =>
    simp only [State.step] at ht
    split at ht
    next file rest hphase =>
      rw [← Option.some.inj ht]
      exact hkeep _ (by rw [hphase]; rfl) rfl rfl
    · cases ht
  | query =>
    simp only [State.step] at ht
    split at ht
    next file rest hphase =>
      split at ht
      next schema hsql =>
        rw [← Option.some.inj ht]
        refine h.move ⟨hstep.files, fun todo hmem => ?_, fun file' schema' hstaged _ => ?_, nofun⟩ (.inl rfl)
        · exact hstep.todo todo (by rw [hphase]; exact hmem)
        · cases hstaged
          exact hsql
      · exact Option.some.inj ht ▸ hthrew
    · cases ht
  | insert =>
    simp only [State.step] at ht
    split at ht
    next file rest schema hphase =>
      split at ht
      · exact Option.some.inj ht ▸ hthrew
      next hnot =>
        split at ht
        · cases ht
        next hfree =>
          rw [← Option.some.inj ht]
          have hother : ∀ r' ∈ s.runners, r'.phase.locked ≠ some file := by simpa using hfree
          refine h.move ⟨hstep.files, fun todo hmem => ?_, fun file' schema' hstaged hnew => ?_, fun file' hmem => ?_⟩
            (.inr fun j r' hr' => hother r' (List.mem_of_getElem? hr'))
          · exact hstep.todo todo (by rw [hphase]; exact hmem)
          · exact hstep.staged file' schema' (by rw [hphase]; exact hstaged) hnew
          · cases hmem
            exact hnot
    · cases ht
  | commit =>
    simp only [State.step] at ht
    split at ht
    next file rest schema hphase => exact Option.some.inj ht ▸ h.commit hnodup hr hphase (.inl rfl)
    · cases ht
  | replyLost =>
    simp only [State.step] at ht
    split at ht
    next file rest schema hphase => exact Option.some.inj ht ▸ h.commit hnodup hr hphase (.inr rfl)
    · cases ht
  | fail =>
    simp only [State.step] at ht
    split at ht
    · cases ht
    · cases ht
    · exact Option.some.inj ht ▸ hthrew

private theorem step_inv (hnodup : all.Nodup) (h : Inv sql all schema₀ s) (ha : Deployed all a)
    (ht : next sql s a = some t) : Inv sql all schema₀ t := by
  have hrunner : ∀ i ∈ a.runner?, ∀ r ∈ s.runners[i]?, s.step sql i r a = some t → Inv sql all schema₀ t :=
    fun i _ r hr ht => h.step hnodup hr ht
  have hold : (∃ i ∈ a.runner?, ∃ r ∈ s.runners[i]?, s.step sql i r a = some t) → Inv sql all schema₀ t :=
    fun ⟨i, hi, r, hr, ht⟩ => hrunner i hi r hr ht
  cases a with
  | run dir =>
    rw [← Option.some.inj ht]
    refine ⟨h.order, fun j r hr => ?_, fun j k r r' hr hr' hsame hsome => ?_⟩
    · rcases Callers.getElem?_concat_cases hr with ⟨-, rfl⟩ | hr
      · exact inStep_of_todo (r := ⟨migrationFiles dir, .starting⟩) ha nofun rfl rfl
      · exact h.runners j r hr
    · rcases Callers.getElem?_concat_cases hr with ⟨-, rfl⟩ | hr
      · exact absurd rfl hsome
      · rcases Callers.getElem?_concat_cases hr' with ⟨-, rfl⟩ | hr'
        · exact absurd hsame hsome
        · exact h.exclusive j k r r' hr hr' hsame hsome
  | select i | begin i | query i | insert i | commit i | replyLost i | fail i =>
    obtain ⟨r, hr, ht⟩ :=
      Option.bind_eq_some_iff.1 (show (s.runners[i]?.bind fun r => s.step sql i r _) = some t from ht)
    exact hold ⟨i, rfl, r, hr, ht⟩

private theorem inv_start (all : List String) (schema₀ : σ) : Inv sql all schema₀ { db := { schema := schema₀ } } where
  order := ⟨List.nil_prefix, rfl⟩
  runners _ _ h := absurd h nofun
  exclusive _ _ _ _ h := absurd h nofun

/-- However many processes start at once, with whichever images, and wherever they fail: the files have been applied in
order, each once, and a process whose migrations have completed finds its own files among them. -/
theorem migrations_in_order (hnodup : all.Nodup)
    (hdeployed : (machine sql).Throughout (fun _ a => Deployed all a) { db := { schema := schema₀ } } as)
    (h : (machine sql).exec { db := { schema := schema₀ } } as = some t) :
    InOrder sql all schema₀ t.db ∧ ∀ r ∈ t.runners, r.phase = .done → r.files <+: t.db.applied := by
  have hinv : Inv sql all schema₀ t :=
    hdeployed.invariant (I := Inv sql all schema₀) (fun _ _ _ hs ha ht => step_inv hnodup hs ha ht)
      (inv_start all schema₀) h
  refine ⟨hinv.order, fun r hr hdone => ?_⟩
  obtain ⟨i, hr⟩ := List.getElem?_of_mem hr
  have hstep := hinv.runners i r hr
  obtain ⟨before, hsplit, hbefore⟩ := hstep.todo [] (by rw [hdone]; rfl)
  rw [List.append_nil] at hsplit
  exact prefix_of_subset hnodup hstep.files hinv.order.isPrefix fun f hf => hbefore f (hsplit ▸ hf)

/-! ### Two processes at once -/

def files : List String := ["0000_init.sql", "0001_add_indexes.sql", "0002_add_audit_log.sql"]

/-- The schema as the files that have made it; each needs those before. -/
def appendFile (file : String) (schema : List String) : Option (List String) :=
  if schema = files.takeWhile (· ≠ file) then some (schema ++ [file]) else none

/-- A process of the image before and one of this image read the table at once.  The second one commits the first file,
whose row the first process cannot insert, and dies with the second file open. -/
def racing : List Action :=
  [.run ["0001_add_indexes.sql", "0000_init.sql", "meta"], .run ("meta" :: files), .select 0, .select 1, .begin 0,
    .query 0, .begin 1, .query 1, .insert 1, .commit 1, .insert 0, .begin 1, .query 1, .insert 1, .fail 1]

def start : State (List String) := { db := { schema := [] } }

def raced : State (List String) := ((machine appendFile).exec start racing).getD start

private theorem exec_racing : (machine appendFile).exec start racing = some raced := by decide +kernel

private theorem deployed_racing : (machine appendFile).Throughout (fun _ a => Deployed files a) start racing := by
  decide +kernel

theorem migrations_in_order_racing : raced.db.applied = ["0000_init.sql"] ∧ InOrder appendFile files [] raced.db ∧
    ∀ r ∈ raced.runners, r.phase = .done → r.files <+: raced.db.applied :=
  ⟨by decide +kernel, migrations_in_order (by decide) deployed_racing exec_racing⟩

/-! ### A run that nothing disturbs -/

def applyFile (i : Nat) : List Action := [.begin i, .query i, .insert i, .commit i]

/-- The steps of runner `i` from the `SELECT` on, with `n` files to apply. -/
def undisturbed (i n : Nat) : List Action := .select i :: (List.replicate n (applyFile i)).flatten

private theorem next_runner {i : Nat} {r : Runner σ} (hi : a.runner? = some i) (hr : s.runners[i]? = some r) :
    next sql s a = s.step sql i r a := by
  have hbind : (a.runner?.bind fun i => s.runners[i]?.bind fun r => s.step sql i r a) = s.step sql i r a := by
    rw [hi, Option.bind_some, hr, Option.bind_some]
  cases a with
  | run dir => cases hi
  | select | begin | query | insert | commit | replyLost | fail => exact hbind

private theorem exec_applyFile {i : Nat} {r : Runner σ} {file : String} {rest : List String} {schema : σ}
    (hr : s.runners[i]? = some r) (hphase : r.phase = .pending (file :: rest))
    (hfree : ∀ r' ∈ s.runners, r'.phase.locked = none) (hnot : file ∉ s.db.applied)
    (hsql : sql file s.db.schema = some schema) :
    (machine sql).exec s (applyFile i) = some ((s.committed file schema).move i r (.loopHead rest)) := by
  have hmoved : ∀ phase : Phase σ, (s.move i r phase).runners[i]? = some { r with phase } := fun phase =>
    Callers.getElem?_set_self_of_some hr
  have hbegin : next sql s (.begin i) = some (s.move i r (.begun file rest)) := by
    rw [next_runner rfl hr, State.step]
    simp only [hphase]
  have hquery : next sql (s.move i r (.begun file rest)) (.query i) =
      some (s.move i r (.migrated file rest schema)) := by
    rw [next_runner rfl (hmoved _), State.step]
    simp [State.move, hsql]
  have hinsert : next sql (s.move i r (.migrated file rest schema)) (.insert i) =
      some (s.move i r (.inserted file rest schema)) := by
    rw [next_runner rfl (hmoved _), State.step]
    have hfree' : ((s.move i r (.migrated file rest schema)).runners.any fun other => other.phase.locked = some file) =
        false := by
      rw [List.any_eq_false]
      intro r' hr'
      rcases List.mem_or_eq_of_mem_set hr' with hr' | rfl
      · simp [hfree r' hr']
      · simp [Phase.locked]
    have hnot' : file ∉ (s.move i r (.migrated file rest schema)).db.applied := hnot
    simp only [hnot', hfree', if_false, Bool.false_eq_true]
    simp [State.move]
  have hcommit : next sql (s.move i r (.inserted file rest schema)) (.commit i) =
      some ((s.committed file schema).move i r (.loopHead rest)) := by
    rw [next_runner rfl (hmoved _), State.step]
    simp [State.move, State.committed]
  refine Machine.exec_cons_eq_some.2 ⟨_, hbegin, Machine.exec_cons_eq_some.2 ⟨_, hquery, ?_⟩⟩
  exact Machine.exec_cons_eq_some.2 ⟨_, hinsert, Machine.exec_cons_eq_some.2 ⟨_, hcommit, rfl⟩⟩

private theorem exec_loop {i : Nat} {r : Runner σ} {rest : List String} {final : σ} (hr : s.runners[i]? = some r)
    (hphase : r.phase = .loopHead rest) (hfree : ∀ r' ∈ s.runners, r'.phase.locked = none) (hnodup : rest.Nodup)
    (hnot : ∀ f ∈ rest, f ∉ s.db.applied)
    (hsql : rest.foldlM (fun schema file => sql file schema) s.db.schema = some final) :
    ∃ u, (machine sql).exec s (List.replicate rest.length (applyFile i)).flatten = some u ∧
      u.db = ⟨final, s.db.applied ++ rest⟩ ∧ u.runners[i]? = some { r with phase := .done } := by
  induction rest generalizing s r with
  | nil =>
    refine ⟨s, rfl, ?_, ?_⟩
    · have hschema : s.db.schema = final := Option.some.inj hsql
      rw [← hschema, List.append_nil]
    · rw [hr, show Phase.done = r.phase from hphase.symm]
  | cons file rest ih =>
    obtain ⟨schema, hfile, hrest⟩ : ∃ schema, sql file s.db.schema = some schema ∧
        rest.foldlM (fun schema file => sql file schema) schema = some final := by
      rw [List.foldlM_cons] at hsql
      exact Option.bind_eq_some_iff.1 hsql
    have hone := exec_applyFile hr hphase hfree (hnot file List.mem_cons_self) hfile
    have hmoved : ((s.committed file schema).move i r (.loopHead rest)).runners[i]? =
        some { r with phase := .loopHead rest } := Callers.getElem?_set_self_of_some hr
    have hstill : ∀ r' ∈ ((s.committed file schema).move i r (.loopHead rest)).runners, r'.phase.locked = none := by
      intro r' hr'
      rcases List.mem_or_eq_of_mem_set hr' with hr' | rfl
      · exact hfree r' hr'
      · exact locked_loopHead rest
    have hleft : ∀ f ∈ rest, f ∉ s.db.applied ++ [file] := by
      intro f hf hmem
      rcases List.mem_append.1 hmem with hmem | hmem
      · exact hnot f (List.mem_cons_of_mem _ hf) hmem
      · exact (List.nodup_cons.1 hnodup).1 (List.mem_singleton.1 hmem ▸ hf)
    obtain ⟨u, hu, hdb, hdone⟩ := ih hmoved rfl hstill (List.nodup_cons.1 hnodup).2 hleft hrest
    refine ⟨u, ?_, ?_, hdone⟩
    · rw [List.length_cons, List.replicate_succ, List.flatten_cons]
      exact Machine.exec_append_eq_some.2 ⟨_, hone, hu⟩
    · rw [hdb]
      simp [State.move, State.committed]

/-- Wherever the processes before have stopped, one that nothing disturbs goes on from there, and leaves the schema of
all files. -/
theorem migrations_resume (hnodup : all.Nodup)
    (hdeployed : (machine sql).Throughout (fun _ a => Deployed all a) { db := { schema := schema₀ } } as)
    (h : (machine sql).exec { db := { schema := schema₀ } } as = some t)
    (hended : ∀ r ∈ t.runners, r.phase = .done ∨ r.phase = .threw) {dir : List String}
    (hdir : migrationFiles dir = all) {final : σ}
    (hfinal : all.foldlM (fun schema file => sql file schema) schema₀ = some final) :
    ∃ u, (machine sql).exec t
        (.run dir :: undisturbed t.runners.length (all.length - t.db.applied.length)) = some u ∧
      u.db = ⟨final, all⟩ ∧ u.runners[t.runners.length]? = some ⟨all, .done⟩ := by
  have hinv : Inv sql all schema₀ t :=
    hdeployed.invariant (I := Inv sql all schema₀) (fun _ _ _ hs ha ht => step_inv hnodup hs ha ht)
      (inv_start all schema₀) h
  obtain ⟨rest, hsplit⟩ := hinv.order.isPrefix
  have hdisjoint : ∀ f ∈ rest, f ∉ t.db.applied := by
    rw [← hsplit] at hnodup
    exact fun f hf hmem => (List.nodup_append.1 hnodup).2.2 f hmem f hf rfl
  have hrest : rest.Nodup := by
    rw [← hsplit] at hnodup
    exact (List.nodup_append.1 hnodup).2.1
  have hschema : rest.foldlM (fun schema file => sql file schema) t.db.schema = some final := by
    rw [← hsplit, List.foldlM_append, hinv.order.schema] at hfinal
    exact hfinal
  have hleft : all.filter (fun f => f ∉ t.db.applied) = rest := by
    rw [← hsplit] at hnodup ⊢
    exact filter_notMem_append hnodup
  have hlength : all.length - t.db.applied.length = rest.length := by
    rw [← hsplit, List.length_append, Nat.add_sub_cancel_left]
  have hrun : next sql t (.run dir) = some { t with runners := t.runners ++ [⟨all, .starting⟩] } := by
    rw [← hdir]
    rfl
  have hnew : (t.runners ++ [(⟨all, .starting⟩ : Runner σ)])[t.runners.length]? = some ⟨all, .starting⟩ :=
    List.getElem?_concat_length
  have hselect : next sql { t with runners := t.runners ++ [⟨all, .starting⟩] } (.select t.runners.length) =
      some (State.move { t with runners := t.runners ++ [⟨all, .starting⟩] } t.runners.length ⟨all, .starting⟩
        (.loopHead rest)) := by
    rw [next_runner rfl hnew, ← hleft]
    rfl
  have hfree : ∀ r' ∈ (State.move { t with runners := t.runners ++ [⟨all, .starting⟩] } t.runners.length
      ⟨all, .starting⟩ (.loopHead rest)).runners, r'.phase.locked = none := by
    intro r' hr'
    rcases List.mem_or_eq_of_mem_set hr' with hr' | rfl
    · rcases List.mem_append.1 hr' with hr' | hr'
      · rcases hended r' hr' with hphase | hphase <;> rw [hphase] <;> rfl
      · rw [List.mem_singleton.1 hr']
        rfl
    · exact locked_loopHead rest
  obtain ⟨u, hu, hdb, hdone⟩ := exec_loop (Callers.getElem?_set_self_of_some hnew) rfl hfree hrest hdisjoint
    hschema
  refine ⟨u, ?_, ?_, hdone⟩
  · rw [hlength]
    exact Machine.exec_cons_eq_some.2 ⟨_, hrun, Machine.exec_cons_eq_some.2 ⟨_, hselect, hu⟩⟩
  · rw [hdb]
    exact congrArg (Db.mk final) hsplit

theorem migrations_resume_raced : ∃ u, (machine appendFile).exec raced (.run files :: undisturbed 2 2) = some u ∧
    u.db = ⟨files, files⟩ ∧ u.runners[2]? = some ⟨files, .done⟩ := by
  have hended : ∀ r ∈ raced.runners, r.phase = .done ∨ r.phase = .threw := by decide +kernel
  have hdir : migrationFiles files = files := by decide +kernel
  have hfinal : files.foldlM (fun schema file => appendFile file schema) [] = some files := by decide +kernel
  exact migrations_resume (by decide) deployed_racing exec_racing hended hdir hfinal

end MacpControlPlane.Migrations

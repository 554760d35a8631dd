import MacpControlPlane.Events.RunTransactions

/-!
# The stored projection of the committed log

`applyAndPersist` loads the stored projection, folds the batch of its own transaction into it and writes it back; a
rebuild folds all rows again and writes without the version guard.  Whatever interleaving of transactions and rollbacks
has led to a committed state, the projection that it holds is the fold of one list of events: those of the canonical
rows, as they were appended if they have come after the last rebuild, and as the rows give them back if before.
-/

namespace MacpControlPlane

open Js Reducer EventRepository RowLock

variable {N E : Type} {runId : String}

/-- The events that the stored projection holds the fold of, if it was the fold of `es` before the transaction. -/
def RunTxn.folds (d : RunData N E) (es : List (CanonicalEvent N)) (t : RunTxn N E runId) : List (CanonicalEvent N) :=
  match t with
  | .rebuild => d.canonical.map CanonicalRow.cast
  | t => es ++ t.written d

variable [JsNumber N]

/-- The events that the stored projection holds the fold of after the transactions. -/
def foldedEvents (session : Option SessionRow) (ts : List (RunTxn N E runId)) : List (CanonicalEvent N) :=
  (ts.foldl (fun s t => (t.program.apply s.1, t.folds s.1 s.2)) ((.created session, []) : RunData N E × _)).2

private theorem foldedEvents_concat (session : Option SessionRow) (ts : List (RunTxn N E runId))
    (t : RunTxn N E runId) :
    foldedEvents session (ts ++ [t]) = t.folds (afterTxns (.created session) ts) (foldedEvents session ts) := by
  have hdata : ∀ (ts : List (RunTxn N E runId)) (s : RunData N E × List (CanonicalEvent N)),
      (ts.foldl (fun s t => (t.program.apply s.1, t.folds s.1 s.2)) s).1 = afterTxns s.1 ts := by
    intro ts
    induction ts with
    | nil => exact fun _ => rfl
    | cons t ts ih => exact fun s => ih (t.program.apply s.1, t.folds s.1 s.2)
  unfold foldedEvents
  rw [List.foldl_append, List.foldl_cons, List.foldl_nil, hdata]

omit [JsNumber N] in
/-- An event is the one that the row stores, or the one that it is cast to. -/
def ReadsAs (e : CanonicalEvent N) (row : CanonicalRow N) : Prop := CanonicalRow.ofEvent e = row ∨ row.cast = e

omit [JsNumber N] in
private theorem ReadsAs.run_seq {e : CanonicalEvent N} {row : CanonicalRow N} (h : ReadsAs e row) :
    e.runId = row.runId ∧ e.seq = row.seq := by
  rcases h with rfl | rfl <;> exact ⟨rfl, rfl⟩

/-- The stored projection is the fold of the events, which are those of the rows. -/
structure HoldsFold (runId : String) (d : RunData N E) (es : List (CanonicalEvent N)) : Prop where
  stored : ∀ row ∈ d.projection, row = storedFold runId es
  rows : List.Forall₂ ReadsAs es d.canonical

omit [JsNumber N] in
private theorem map_seq_of_readsAs {es : List (CanonicalEvent N)} {rows : List (CanonicalRow N)}
    (h : List.Forall₂ ReadsAs es rows) : es.map (·.seq) = rows.map (·.seq) := by
  induction h with
  | nil => rfl
  | cons hread _ ih => rw [List.map_cons, List.map_cons, hread.run_seq.2, ih]

omit [JsNumber N] in
private theorem run_of_readsAs {es : List (CanonicalEvent N)} {rows : List (CanonicalRow N)}
    (h : List.Forall₂ ReadsAs es rows) (hrun : ∀ row ∈ rows, row.runId = runId) : ∀ e ∈ es, e.runId = runId := by
  induction h with
  | nil => exact List.forall_mem_nil _
  | cons hread _ ih =>
    rw [List.forall_mem_cons] at hrun ⊢
    exact ⟨hread.run_seq.1.trans hrun.1, ih hrun.2⟩

omit [JsNumber N] in
private theorem readsAs_map_ofEvent (es : List (CanonicalEvent N)) :
    List.Forall₂ ReadsAs es (es.map CanonicalRow.ofEvent) := by
  rw [List.forall₂_map_right_iff, List.forall₂_same]
  exact fun _ _ => Or.inl rfl

omit [JsNumber N] in
private theorem readsAs_map_cast (rows : List (CanonicalRow N)) :
    List.Forall₂ ReadsAs (rows.map CanonicalRow.cast) rows := by
  rw [List.forall₂_map_left_iff, List.forall₂_same]
  exact fun _ _ => Or.inr rfl

omit [JsNumber N] in
/-- The rows of a run are a log, whatever they are read as. -/
theorem RunData.Sequenced.isLog {d : RunData N E} (h : d.Sequenced runId) {es : List (CanonicalEvent N)}
    (hrows : List.Forall₂ ReadsAs es d.canonical) : IsLog runId es := by
  refine ⟨run_of_readsAs hrows h.run, ?_, ?_⟩
  · intro e he
    have hseq : e.seq ∈ d.canonical.map (·.seq) := by
      rw [← map_seq_of_readsAs hrows]
      exact List.mem_map_of_mem he
    have hmem := h.seqs.subset (List.mem_append_right _ hseq)
    rw [List.mem_range'_1] at hmem
    omega
  · rw [map_seq_of_readsAs hrows]
    exact h.increasing

/-- A batch takes the stored projection from the fold of the rows to the fold of the rows with its own. -/
theorem HoldsFold.append {d : RunData N E} {es batch : List (CanonicalEvent N)} (h : HoldsFold runId d es)
    (hmissing : d.projection = none → d.canonical = []) (hlog : IsLog runId (es ++ batch)) :
    (ProjectionService.applyAndPersist runId batch d.projection).2 = storedFold runId (es ++ batch) := by
  cases hprojection : d.projection with
  | none =>
    have hrows := h.rows
    rw [hmissing hprojection, List.forall₂_nil_right_iff] at hrows
    subst hrows
    rfl
  | some row =>
    rw [h.stored row hprojection]
    exact applyAndPersist_storedFold hlog

/-- A transaction takes a stored fold to a stored fold. -/
theorem HoldsFold.apply {d : RunData N E} {es : List (CanonicalEvent N)} (h : HoldsFold runId d es)
    (hd : d.Sequenced runId) (t : RunTxn N E runId) (hids : (d.canonical.map (·.id) ++ t.canonicalIds).Nodup)
    (hraw : (d.raw.map (·.id) ++ t.rawIds).Nodup) : HoldsFold runId (t.program.apply d) (t.folds d es) := by
  obtain ⟨hafter, hcanonical, -⟩ := hd.apply t hids hraw
  have happended : List.Forall₂ ReadsAs (es ++ t.written d) (t.program.apply d).canonical := by
    rw [hcanonical]
    exact List.rel_append h.rows (readsAs_map_ofEvent _)
  have hlog := hafter.isLog happended
  cases t with
  | emit events hne runCtx uuid =>
    refine ⟨fun row hrow => ?_, happended⟩
    rw [RunTxn.apply_emit] at hrow
    rw [← Option.some.inj hrow]
    exact h.append hd.missing hlog
  | persist rawId raw events hevents runCtx uuid cursor =>
    refine ⟨fun row hrow => ?_, happended⟩
    rw [RunTxn.apply_persist] at hrow
    rw [← Option.some.inj hrow]
    exact h.append hd.missing hlog
  | rebuild =>
    rw [RunTxn.apply_rebuild, listCanonicalUpTo_of_increasing hd.run hd.increasing]
    refine ⟨fun row hrow => ?_, readsAs_map_cast _⟩
    rw [← Option.some.inj hrow]
    cases hprojection : d.projection <;> rfl

/-- After the transactions, one after the other, the stored projection is the fold of `foldedEvents`. -/
theorem holdsFold_afterTxns (session : Option SessionRow) {ts : List (RunTxn N E runId)} (h : DistinctIds ts) :
    HoldsFold runId (afterTxns (.created session) ts) (foldedEvents session ts) := by
  induction ts using List.reverseRecOn with
  | nil => exact ⟨fun row hrow => absurd hrow (Option.not_mem_none row), List.Forall₂.nil⟩
  | append_singleton ts t ih =>
    obtain ⟨hseq, hids, hraw⟩ := sequenced_afterTxns session h.of_append
    obtain ⟨hnew, hnewRaw⟩ := h.concat hids hraw
    rw [foldedEvents_concat, afterTxns_concat]
    exact (ih h.of_append).apply hseq t hnew hnewRaw

/-- A transaction leaves a stored projection. -/
theorem projection_ne_none (d : RunData N E) (t : RunTxn N E runId) : (t.program.apply d).projection ≠ none := by
  cases t with
  | emit events hne runCtx uuid =>
    rw [RunTxn.apply_emit]
    exact nofun
  | persist rawId raw events hevents runCtx uuid cursor =>
    rw [RunTxn.apply_persist]
    exact nofun
  | rebuild =>
    rw [RunTxn.apply_rebuild]
    exact nofun

/-- Without a rebuild the events are those that the transactions have appended. -/
theorem map_ofEvent_foldedEvents {session : Option SessionRow} {ts : List (RunTxn N E runId)} (h : DistinctIds ts)
    (hrebuild : RunTxn.rebuild ∉ ts) :
    (foldedEvents session ts).map CanonicalRow.ofEvent = (afterTxns (.created session) ts).canonical := by
  induction ts using List.reverseRecOn with
  | nil => rfl
  | append_singleton ts t ih =>
    rw [List.mem_append, List.mem_singleton, not_or] at hrebuild
    obtain ⟨hseq, hids, hraw⟩ := sequenced_afterTxns session h.of_append
    obtain ⟨hnew, hnewRaw⟩ := h.concat hids hraw
    rw [foldedEvents_concat, afterTxns_concat, (hseq.apply t hnew hnewRaw).2.1, ← ih h.of_append hrebuild.1]
    cases t with
    | emit events hne runCtx uuid => exact List.map_append
    | persist rawId raw events hevents runCtx uuid cursor => exact List.map_append
    | rebuild => exact absurd rfl hrebuild.2

/-- In every state that any interleaving of the transactions of a run reaches, with any of them rolled back at any time:
once a transaction has committed there is a stored projection, and it stores the fold of one list of events, which are
those of the canonical rows in their order, as they were appended or as a rebuild has read them; where no rebuild has
committed, all are as they were appended.  `get` returns that fold with its two unstored sections empty. -/
theorem stored_projection_is_fold {session : Option SessionRow}
    {s : RowLock.State (RunData N E) (Locals N) (RunTxn N E runId)}
    (hs : (RowLock.machine RunTxn.program (.created session)).Reachable s) (hids : DistinctIds s.commits) :
    (s.commits = [] → s.data.projection = none) ∧
    (s.commits ≠ [] → s.data.projection = some (storedFold runId (foldedEvents session s.commits)) ∧
      ProjectionService.get s.data.projection =
        some ((applyEvents (.empty runId) (foldedEvents session s.commits)).rebook
          (applyEvents (.empty runId) (foldedEvents session s.commits)).timeline {} .none)) ∧
    List.Forall₂ ReadsAs (foldedEvents session s.commits) s.data.canonical ∧
    (RunTxn.rebuild ∉ s.commits →
      (foldedEvents session s.commits).map CanonicalRow.ofEvent = s.data.canonical) := by
  have hdata : s.data = afterTxns (.created session) s.commits := RowLock.data_eq hs
  have hfold := holdsFold_afterTxns session hids
  rw [← hdata] at hfold
  refine ⟨?_, ?_, hfold.rows, ?_⟩
  · intro hnone
    rw [hdata, hnone]
    rfl
  · intro hne
    obtain ⟨init, t, hinit⟩ := (List.eq_nil_or_concat s.commits).resolve_left hne
    have hsome : s.data.projection ≠ none := by
      rw [hdata, hinit, List.concat_eq_append, afterTxns_concat]
      exact projection_ne_none _ t
    obtain ⟨row, hrow⟩ := Option.ne_none_iff_exists'.1 hsome
    have hstored : s.data.projection = some (storedFold runId (foldedEvents session s.commits)) := by
      rw [hrow, hfold.stored row hrow]
    rw [hstored]
    exact ⟨rfl, get_storedFold runId _⟩
  · intro hrebuild
    rw [hdata]
    exact map_ofEvent_foldedEvents hids hrebuild

/-- An event before a rebuild and one after it. -/
theorem stored_projection_is_fold_rebuilt :
    let started : PartialEvent (Option Rat) :=
      { ts := "10:00", type := .runStarted, source := ⟨.macpControlPlane, "run-manager", none⟩, data := [] }
    let received : CanonicalEvent (Option Rat) :=
      { id := "c1", runId := "run", seq := 0, ts := "10:01", type := .messageReceived,
        source := ⟨.runtime, "macp", none⟩, data := [] }
    let raw : RawRuntimeEvent Nat := { kind := .streamEnvelope, receivedAt := "10:01", envelope := some 1 }
    let emit : RunTxn (Option Rat) Nat "run" := .emit [started] nofun none fun _ => "e1"
    let persist : RunTxn (Option Rat) Nat "run" :=
      .persist "r1" raw [received] (by decide) none (fun _ => "u") (some 1)
    ∃ s, (RowLock.machine RunTxn.program (.created none)).Reachable s ∧ s.commits = [emit, .rebuild, persist] ∧
      s.data.projection = some (storedFold "run" (foldedEvents none s.commits)) := by
  intro started received raw emit persist
  obtain ⟨s, hs, -, hcommits⟩ : ∃ s, (RowLock.machine RunTxn.program (.created none)).Reachable s ∧ s.holder = none ∧
      s.commits = [emit, .rebuild, persist] := RowLock.exists_commits [emit, .rebuild, persist]
  have hids : DistinctIds s.commits := by
    rw [hcommits]
    exact ⟨by decide, by decide⟩
  have hne : s.commits ≠ [] := by
    rw [hcommits]
    exact nofun
  exact ⟨s, hs, hcommits, ((stored_projection_is_fold hs hids).2.1 hne).1⟩

end MacpControlPlane

import Mathlib.Data.List.Nodup
import Mathlib.Data.List.Induction
import MacpControlPlane.Events.RunEventService
import MacpControlPlane.Lib.RowLock
import MacpControlPlane.Projection.Rebuild

/-!
# The event transactions of one run (`events/run-event.service.ts`)

`emitControlPlaneEvents`, `persistRawAndCanonical` and `rebuildProjection` each run one transaction whose first
statement locks the row of the run.  Their statements are programs of `RowLock`, so that what is committed is what the
transactions do one after the other; on that they keep the sequence numbers and the stored projection in step with the
event tables.

The queue of `ProjectionService` can only delay a transaction or make it fail, and any transaction can be rolled back
at any time here.
-/

namespace MacpControlPlane

open Js Reducer EventRepository RowLock

/-- `RawRuntimeEvent['kind']` -/
inductive RawEventKind where
  | streamEnvelope | sessionSnapshot | sendAck | streamStatus | streamInlineError
  deriving DecidableEq, Repr

/-- `RawRuntimeEvent['inlineError']` -/
structure InlineError where
  code : String
  message : String
  deriving DecidableEq, Repr

/-- `RawRuntimeEvent`, over any type of envelopes, as far as the consumers of the streams read it. -/
structure RawRuntimeEvent (E : Type) where
  kind : RawEventKind
  receivedAt : String
  envelope : Option E := none
  /-- `sessionSnapshot.state` -/
  sessionState : Option String := none
  /-- `streamStatus.status` -/
  streamStatus : Option String := none
  inlineError : Option InlineError := none
  senderAuthenticated : Option Bool := none
  deriving DecidableEq, Repr

/-- A row of `run_events_raw` of the run. -/
structure RawRow (E : Type) where
  id : String
  seq : Nat
  ts : String
  kind : RawEventKind
  sourceName : String
  payload : RawRuntimeEvent E
  deriving DecidableEq, Repr

/-- The columns of the `runtime_sessions` row of the run that `updateStreamCursor` writes. -/
structure SessionRow where
  lastStreamCursor : Option Nat := none
  lastEnvelopeOrdinal : Nat := 0
  deriving DecidableEq, Repr

/-- The rows of one run: `runs.last_event_seq`, the two event tables, the projection and the session. -/
structure RunData (N E : Type) where
  lastEventSeq : Nat := 0
  raw : List (RawRow E) := []
  canonical : List (CanonicalRow N) := []
  projection : Option (ProjectionRow N) := none
  session : Option SessionRow := none

/-- The variables of a transaction: `startSeq`, `prepared` (in a rebuild the events read), and the projection row
read. -/
structure Locals (N : Type) where
  startSeq : Nat := 0
  prepared : List (CanonicalEvent N) := []
  current : Option (ProjectionRow N) := none

variable {N E : Type}

/-! ### The statements -/

def RunRepository.allocateSequence (count : Nat) : Statement (RunData N E) (Locals N) := fun l d =>
  let updated := d.lastEventSeq + count
  ({ l with startSeq := updated - count + 1 }, fun d => { d with lastEventSeq := d.lastEventSeq + count })

def RunRepository.lockForUpdate : Statement (RunData N E) (Locals N) := fun l _ => (l, id)

/-- `INSERT … ON CONFLICT DO NOTHING` into the raw events of the run. -/
def EventRepository.insertRaw (table : List (RawRow E)) (row : RawRow E) : List (RawRow E) :=
  if table.any fun other => other.id = row.id || other.seq = row.seq then table else table ++ [row]

/-- The row that `appendRaw` inserts. -/
def RawRow.ofEvent (id : String) (seq : Nat) (raw : RawRuntimeEvent E) : RawRow E :=
  ⟨id, seq, raw.receivedAt, raw.kind, "rust-runtime", raw⟩

def EventRepository.appendRaw (id : String) (raw : RawRuntimeEvent E) : Statement (RunData N E) (Locals N) :=
  fun l _ => (l, fun d => { d with raw := insertRaw d.raw (.ofEvent id l.startSeq raw) })

/-- The preparation of the events, and `appendCanonical`. -/
def RunEventService.append (prepare : Nat → List (CanonicalEvent N)) : Statement (RunData N E) (Locals N) :=
  fun l _ =>
    let prepared := prepare l.startSeq
    ({ l with prepared }, fun d => { d with canonical := appendCanonical d.canonical prepared })

/-- The `get` of `applyAndPersist`. -/
def ProjectionService.read : Statement (RunData N E) (Locals N) := fun l d =>
  ({ l with current := d.projection }, id)

/-- The `upsert` of `applyAndPersist`. -/
def ProjectionService.write [JsNumber N] (runId : String) : Statement (RunData N E) (Locals N) := fun l _ =>
  let current := (ProjectionService.get l.current).getD (.empty runId)
  let merged := applyEvents current l.prepared
  let version := (l.prepared.getLast?.map (·.seq)).getD current.timeline.latestSeq
  (l, fun d => { d with
    projection := some (ProjectionRepository.upsert d.projection merged version projectionSchemaVersion) })

def RuntimeSessionRepository.updateStreamCursor (cursor envelopeOrdinal : Nat) (session : SessionRow) :
    SessionRow where
  lastStreamCursor := some (max (session.lastStreamCursor.getD 0) cursor)
  lastEnvelopeOrdinal := max session.lastEnvelopeOrdinal envelopeOrdinal

/-- `if (cursor) { … updateStreamCursor(…) }` of `persistRawAndCanonical` -/
def RunEventService.updateCursor (cursor : Option Nat) : Statement (RunData N E) (Locals N) := fun l _ =>
  match cursor with
  | none => (l, id)
  | some envelopeOrdinal =>
    let lastSeq := (l.prepared.getLast?.map (·.seq)).getD l.startSeq
    (l, fun d => { d with
      session := d.session.map (RuntimeSessionRepository.updateStreamCursor lastSeq envelopeOrdinal) })

/-- The `listCanonicalUpTo` of `rebuildProjection`. -/
def RunEventService.readLog (runId : String) : Statement (RunData N E) (Locals N) := fun l d =>
  ({ l with prepared := (listCanonicalUpTo d.canonical runId).map CanonicalRow.cast }, id)

/-- The forced `upsert` of `rebuild`. -/
def ProjectionService.overwrite [JsNumber N] (runId : String) : Statement (RunData N E) (Locals N) := fun l _ =>
  (l, fun d => { d with projection := some (ProjectionService.rebuild runId l.prepared d.projection).2 })

/-! ### The transactions -/

/-- The transactions of the run; `rawId` is the id of the raw row, and a canonical event without an id gets one
of `uuid`. -/
inductive RunTxn (N E : Type) (runId : String) where
  /-- `emitControlPlaneEvents`, which opens no transaction for no events. -/
  | emit (events : List (PartialEvent N)) (nonempty : events ≠ []) (runCtx : Option TraceRef) (uuid : Nat → String)
  /-- `persistRawAndCanonical`, with the events that the normalizer made for the run. -/
  | persist (rawId : String) (raw : RawRuntimeEvent E) (events : List (CanonicalEvent N))
      (run : ∀ e ∈ events, e.runId = runId) (runCtx : Option TraceRef) (uuid : Nat → String) (cursor : Option Nat)
  /-- `rebuildProjection` -/
  | rebuild

variable {runId : String}

namespace RunTxn

/-- The statements of a transaction. -/
def program [JsNumber N] : RunTxn N E runId → Program (RunData N E) (Locals N)
  | emit events _ runCtx uuid =>
    ⟨{}, [RunRepository.allocateSequence events.length,
      RunEventService.append fun startSeq => RunEventService.prepareEmitted runId runCtx uuid startSeq events,
      ProjectionService.read, ProjectionService.write runId]⟩
  | persist rawId raw events _ runCtx uuid cursor =>
    ⟨{}, [RunRepository.allocateSequence (1 + events.length), EventRepository.appendRaw rawId raw,
      RunEventService.append fun startSeq => RunEventService.preparePersisted runCtx uuid startSeq events,
      ProjectionService.read, ProjectionService.write runId, RunEventService.updateCursor cursor]⟩
  | rebuild => ⟨{}, [RunRepository.lockForUpdate, RunEventService.readLog runId, ProjectionService.overwrite runId]⟩

/-- The canonical events that the transaction appends. -/
def written (d : RunData N E) : RunTxn N E runId → List (CanonicalEvent N)
  | emit events _ runCtx uuid => RunEventService.prepareEmitted runId runCtx uuid (d.lastEventSeq + 1) events
  | persist _ _ events _ runCtx uuid _ => RunEventService.preparePersisted runCtx uuid (d.lastEventSeq + 1) events
  | rebuild => []

/-- The raw rows that the transaction appends. -/
def rawRows (d : RunData N E) : RunTxn N E runId → List (RawRow E)
  | persist rawId raw _ _ _ _ _ => [.ofEvent rawId (d.lastEventSeq + 1) raw]
  | _ => []

/-- The ids of the canonical events that the transaction appends. -/
def canonicalIds : RunTxn N E runId → List String
  | emit events _ _ uuid => events.mapIdx fun index _ => uuid index
  | persist _ _ events _ _ uuid _ => events.mapIdx fun index event => if event.id = "" then uuid index else event.id
  | rebuild => []

/-- The ids of the raw rows that the transaction appends. -/
def rawIds : RunTxn N E runId → List String
  | persist rawId _ _ _ _ _ _ => [rawId]
  | _ => []

end RunTxn

/-- The rows that transactions leave behind, one after the other. -/
def afterTxns [JsNumber N] (d : RunData N E) (txns : List (RunTxn N E runId)) : RunData N E :=
  txns.foldl (fun d t => t.program.apply d) d

theorem afterTxns_concat [JsNumber N] (d : RunData N E) (txns : List (RunTxn N E runId)) (t : RunTxn N E runId) :
    afterTxns d (txns ++ [t]) = t.program.apply (afterTxns d txns) := by
  rw [afterTxns, List.foldl_append]
  rfl

/-! ### What a transaction does -/

theorem RunTxn.apply_emit [JsNumber N] (d : RunData N E) (events : List (PartialEvent N)) (h : events ≠ [])
    (runCtx : Option TraceRef) (uuid : Nat → String) :
    (RunTxn.emit events h runCtx uuid : RunTxn N E runId).program.apply d =
      let es := RunEventService.prepareEmitted runId runCtx uuid (d.lastEventSeq + 1) events
      { d with
        lastEventSeq := d.lastEventSeq + events.length
        canonical := appendCanonical d.canonical es
        projection := some (ProjectionService.applyAndPersist runId es d.projection).2 } := by
  have hstart : d.lastEventSeq + events.length - events.length + 1 = d.lastEventSeq + 1 := by omega
  simp only [Program.apply, RunTxn.program, List.foldl_cons, List.foldl_nil, Statement.run,
    RunRepository.allocateSequence,
    RunEventService.append, ProjectionService.read, ProjectionService.write, hstart, id]
  rfl

theorem RunTxn.apply_persist [JsNumber N] (d : RunData N E) (rawId : String) (raw : RawRuntimeEvent E)
    (events : List (CanonicalEvent N)) (h : ∀ e ∈ events, e.runId = runId)
    (runCtx : Option TraceRef) (uuid : Nat → String)
    (cursor : Option Nat) :
    (RunTxn.persist rawId raw events h runCtx uuid cursor).program.apply d =
      let es := RunEventService.preparePersisted runCtx uuid (d.lastEventSeq + 1) events
      let lastSeq := (es.getLast?.map (·.seq)).getD (d.lastEventSeq + 1)
      { d with
        lastEventSeq := d.lastEventSeq + (1 + events.length)
        raw := insertRaw d.raw (.ofEvent rawId (d.lastEventSeq + 1) raw)
        canonical := appendCanonical d.canonical es
        projection := some (ProjectionService.applyAndPersist runId es d.projection).2
        session := cursor.elim d.session fun ordinal =>
          d.session.map (RuntimeSessionRepository.updateStreamCursor lastSeq ordinal) } := by
  have hstart : d.lastEventSeq + (1 + events.length) - (1 + events.length) + 1 = d.lastEventSeq + 1 := by omega
  simp only [Program.apply, RunTxn.program, List.foldl_cons, List.foldl_nil, Statement.run,
    RunRepository.allocateSequence,
    EventRepository.appendRaw, RunEventService.append, ProjectionService.read, ProjectionService.write,
    RunEventService.updateCursor, hstart, id]
  cases cursor <;> rfl

theorem RunTxn.apply_rebuild [JsNumber N] (d : RunData N E) :
    (RunTxn.rebuild : RunTxn N E runId).program.apply d =
      { d with
        projection := some (ProjectionService.rebuild runId
          ((listCanonicalUpTo d.canonical runId).map CanonicalRow.cast)
          d.projection).2 } := rfl

/-- The rows of the run other than that of the session. -/
def RunData.withoutSession (d : RunData N E) : RunData N E := { d with session := none }

/-- What a transaction does to the other rows does not depend on the row of the session. -/
theorem RunTxn.apply_withoutSession [JsNumber N] (t : RunTxn N E runId) (d : RunData N E) :
    (t.program.apply d).withoutSession = (t.program.apply d.withoutSession).withoutSession := by
  cases t with
  | emit events hne runCtx uuid =>
    rw [RunTxn.apply_emit, RunTxn.apply_emit]
    rfl
  | persist rawId raw events hevents runCtx uuid cursor =>
    rw [RunTxn.apply_persist, RunTxn.apply_persist]
    rfl
  | rebuild => rfl

/-! ### What the transactions keep -/

/-- The sequence number of the last row, or 0. -/
def lastRowSeq (rows : List (CanonicalRow N)) : Nat := (rows.getLast?.map (·.seq)).getD 0

/-- The stored projection counts the rows, and has the sequence number of the last one. -/
structure Projects (rows : List (CanonicalRow N)) (row : ProjectionRow N) : Prop where
  version : row.version = lastRowSeq rows
  totalEvents : row.timeline.totalEvents = rows.length
  latestSeq : row.timeline.latestSeq = lastRowSeq rows

/-- The sequence numbers of the run are 1 to `last_event_seq`, and the stored projection is in step. -/
structure RunData.Sequenced (runId : String) (d : RunData N E) : Prop where
  seqs : (d.raw.map (·.seq) ++ d.canonical.map (·.seq)).Perm (List.range' 1 d.lastEventSeq)
  increasing : (d.canonical.map (·.seq)).Pairwise (· < ·)
  run : ∀ row ∈ d.canonical, row.runId = runId
  stored : ∀ row ∈ d.projection, Projects d.canonical row
  missing : d.projection = none → d.canonical = []

private theorem RunData.Sequenced.seq_le {d : RunData N E} (h : d.Sequenced runId) {row : CanonicalRow N}
    (hrow : row ∈ d.canonical) :
    row.seq ≤ d.lastEventSeq := by
  have hmem := h.seqs.subset (List.mem_append_right _ (List.mem_map_of_mem hrow))
  rw [List.mem_range'_1] at hmem
  omega

private theorem RunData.Sequenced.raw_seq_le {d : RunData N E} (h : d.Sequenced runId) {row : RawRow E}
    (hrow : row ∈ d.raw) : row.seq ≤ d.lastEventSeq := by
  have hmem := h.seqs.subset (List.mem_append_left _ (List.mem_map_of_mem hrow))
  rw [List.mem_range'_1] at hmem
  omega

theorem RunData.Sequenced.lastRowSeq_le {d : RunData N E} (h : d.Sequenced runId) :
    lastRowSeq d.canonical ≤ d.lastEventSeq := by
  unfold lastRowSeq
  cases hlast : d.canonical.getLast? with
  | none => exact Nat.zero_le _
  | some row => exact h.seq_le (List.mem_of_getLast? hlast)

private theorem lastRowSeq_append (rows : List (CanonicalRow N)) (es : List (CanonicalEvent N)) :
    lastRowSeq (rows ++ es.map CanonicalRow.ofEvent) = (es.getLast?.map (·.seq)).getD (lastRowSeq rows) := by
  rcases List.eq_nil_or_concat es with rfl | ⟨init, e, rfl⟩
  · rw [List.map_nil, List.append_nil]
    rfl
  · simp [lastRowSeq, CanonicalRow.ofEvent]

/-- A batch above the last row takes the stored projection along. -/
theorem applyAndPersist_projects [JsNumber N] {rows : List (CanonicalRow N)} {es : List (CanonicalEvent N)}
    {row : Option (ProjectionRow N)} (hstored : ∀ r ∈ row, Projects rows r) (hmissing : row = none → rows = [])
    (habove : ∀ e ∈ es, lastRowSeq rows < e.seq) :
    Projects (rows ++ es.map CanonicalRow.ofEvent) (ProjectionService.applyAndPersist runId es row).2 := by
  have hlength : (rows ++ es.map CanonicalRow.ofEvent).length = rows.length + es.length := by simp
  cases row with
  | none =>
    have hlast := lastRowSeq_append rows es
    rw [hmissing rfl] at hlast hlength ⊢
    rw [List.length_nil, Nat.zero_add] at hlength
    refine ⟨hlast.symm, ?_, ?_⟩
    · rw [hlength]
      exact (totalEvents_applyEvents (p := .empty runId)).trans (Nat.zero_add _)
    · rw [hlast]
      exact latestSeq_applyEvents
  | some old =>
    obtain ⟨hversion, htotal, hlatest⟩ := hstored old rfl
    rcases List.eq_nil_or_concat es with rfl | ⟨init, e, rfl⟩
    · have hkeep : (ProjectionService.applyAndPersist runId [] (some old)).2 = old :=
        upsert_of_le (Nat.le_of_eq (hlatest.trans hversion.symm))
      rw [hkeep, List.map_nil, List.append_nil]
      exact ⟨hversion, htotal, hlatest⟩
    · have hlt : old.version < e.seq := by
        rw [hversion]
        exact habove e (by simp)
      have hnew : (ProjectionService.applyAndPersist runId (init.concat e) (some old)).2 =
          .ofProjection (ProjectionService.applyAndPersist runId (init.concat e)
            (some old)).1 e.seq projectionSchemaVersion := by
        have hv : ((init.concat e).getLast?.map (·.seq)) = some e.seq := by simp
        unfold ProjectionService.applyAndPersist
        rw [hv]
        exact upsert_of_lt hlt
      have hlast := lastRowSeq_append rows (init.concat e)
      rw [hnew]
      refine ⟨?_, ?_, ?_⟩
      · rw [hlast]
        simp [ProjectionRow.ofProjection]
      · rw [hlength, ← htotal]
        exact totalEvents_applyEvents
      · rw [hlast]
        refine latestSeq_applyEvents.trans ?_
        simp

/-- No id is used twice. -/
structure DistinctIds (txns : List (RunTxn N E runId)) : Prop where
  canonical : (txns.flatMap RunTxn.canonicalIds).Nodup
  raw : (txns.flatMap RunTxn.rawIds).Nodup

private theorem RunTxn.written_ids (d : RunData N E) (t : RunTxn N E runId) :
    (t.written d).map (·.id) = t.canonicalIds := by
  cases t with
  | emit events h runCtx uuid =>
    refine List.ext_getElem ?_ fun i _ _ => ?_
    · simp [written, canonicalIds, RunEventService.prepareEmitted]
    · simp [written, canonicalIds, RunEventService.prepareEmitted, RunEventService.prepareEvent]
  | persist rawId raw events h runCtx uuid cursor =>
    refine List.ext_getElem ?_ fun i _ hi => ?_
    · simp [written, canonicalIds, RunEventService.preparePersisted]
    · have hlt : i < events.length := by simpa [canonicalIds] using hi
      by_cases hid : events[i].id = "" <;>
        simp [written, canonicalIds, RunEventService.preparePersisted, RunEventService.stampPersisted, hid]
  | rebuild => rfl

theorem RunTxn.rawRows_ids (d : RunData N E) (t : RunTxn N E runId) : (t.rawRows d).map (·.id) = t.rawIds := by
  cases t <;> rfl

/-- The canonical events of a transaction are events of the run. -/
theorem RunTxn.written_run (d : RunData N E) (t : RunTxn N E runId) : ∀ e ∈ t.written d, e.runId = runId := by
  cases t with
  | emit events h runCtx uuid =>
    intro e he
    obtain ⟨i, hi, rfl⟩ := List.mem_mapIdx.1 he
    rfl
  | persist rawId raw events h runCtx uuid cursor =>
    intro e he
    obtain ⟨i, hi, rfl⟩ := List.mem_mapIdx.1 he
    exact h events[i] (List.getElem_mem hi)
  | rebuild => exact List.forall_mem_nil _

/-- The numbers of the canonical events of a transaction are new. -/
theorem RunTxn.lt_written_seq (d : RunData N E) (t : RunTxn N E runId) : ∀ e ∈ t.written d, d.lastEventSeq < e.seq := by
  cases t with
  | emit events h runCtx uuid =>
    intro e he
    obtain ⟨i, hi, rfl⟩ := List.mem_mapIdx.1 he
    exact Nat.lt_of_lt_of_le (Nat.lt_succ_self _) (Nat.le_add_right _ i)
  | persist rawId raw events h runCtx uuid cursor =>
    intro e he
    obtain ⟨i, hi, rfl⟩ := List.mem_mapIdx.1 he
    show d.lastEventSeq < d.lastEventSeq + 1 + i + 1
    omega
  | rebuild => exact List.forall_mem_nil _

/-- The raw rows are in the order of their sequence numbers, which have been allocated. -/
structure RunData.RawOrdered (d : RunData N E) : Prop where
  increasing : (d.raw.map (·.seq)).Pairwise (· < ·)
  seq_le : ∀ row ∈ d.raw, row.seq ≤ d.lastEventSeq

/-- A raw row with a new id is appended. -/
theorem insertRaw_eq_append {table : List (RawRow E)} {row : RawRow E} (hid : (table.map (·.id) ++ [row.id]).Nodup)
    (hseq : ∀ other ∈ table, other.seq < row.seq) : insertRaw table row = table ++ [row] := by
  rw [insertRaw, if_neg]
  rw [Bool.not_eq_true, List.any_eq_false]
  intro other hother hconflict
  rw [Bool.or_eq_true] at hconflict
  rcases hconflict with h | h
  · have hdisjoint := (List.nodup_append.1 hid).2.2 other.id (List.mem_map_of_mem hother) row.id
      (List.mem_singleton_self _)
    exact hdisjoint (of_decide_eq_true h)
  · exact absurd (of_decide_eq_true h) (Nat.ne_of_lt (hseq other hother))

/-- A transaction appends its raw rows. -/
theorem RunData.RawOrdered.apply [JsNumber N] {d : RunData N E} (h : d.RawOrdered) (t : RunTxn N E runId)
    (hids : (d.raw.map (·.id) ++ t.rawIds).Nodup) :
    (t.program.apply d).RawOrdered ∧ (t.program.apply d).raw = d.raw ++ t.rawRows d := by
  cases t with
  | emit events hne runCtx uuid =>
    rw [RunTxn.apply_emit]
    exact ⟨⟨h.increasing, fun row hrow => Nat.le_add_right_of_le (h.seq_le row hrow)⟩, (List.append_nil _).symm⟩
  | persist rawId raw events hevents runCtx uuid cursor =>
    rw [RunTxn.apply_persist]
    have hlt : ∀ row ∈ d.raw, row.seq < d.lastEventSeq + 1 := fun row hrow => Nat.lt_succ_of_le (h.seq_le row hrow)
    have hinsert : insertRaw d.raw (.ofEvent rawId (d.lastEventSeq + 1) raw) =
        d.raw ++ [.ofEvent rawId (d.lastEventSeq + 1) raw] := insertRaw_eq_append hids hlt
    refine ⟨⟨?_, ?_⟩, hinsert⟩
    · dsimp only
      rw [hinsert, List.map_append, List.pairwise_append]
      refine ⟨h.increasing, List.pairwise_singleton _ _, ?_⟩
      intro a ha b hb
      obtain ⟨row, hrow, rfl⟩ := List.mem_map.1 ha
      rw [List.mem_singleton.1 hb]
      exact hlt row hrow
    · dsimp only
      rw [hinsert]
      intro row hrow
      rcases List.mem_append.1 hrow with hrow | hrow
      · exact Nat.le_add_right_of_le (h.seq_le row hrow)
      · rw [List.mem_singleton.1 hrow]
        exact Nat.add_le_add_left (Nat.le_add_right _ _) _
  | rebuild =>
    rw [RunTxn.apply_rebuild]
    exact ⟨⟨h.increasing, h.seq_le⟩, (List.append_nil _).symm⟩

/-- A batch above `last_event_seq` is appended as it is. -/
theorem RunData.Sequenced.append {d : RunData N E} (h : d.Sequenced runId)
    {es : List (CanonicalEvent N)} {start : Nat} (hseq : es.map (·.seq) = List.range' start es.length)
    (hstart : d.lastEventSeq < start)
    (hrun : ∀ e ∈ es, e.runId = runId)
    (hids : (d.canonical.map (·.id) ++ es.map (·.id)).Nodup) :
    appendCanonical d.canonical es = d.canonical ++ es.map CanonicalRow.ofEvent ∧
      ((d.canonical ++ es.map CanonicalRow.ofEvent).map (·.seq)).Pairwise (· < ·) ∧
      (∀ row ∈ d.canonical ++ es.map CanonicalRow.ofEvent, row.runId = runId) ∧
      ∀ e ∈ es, d.lastEventSeq < e.seq := by
  have habove : ∀ e ∈ es, d.lastEventSeq < e.seq := by
    intro e he
    have hmem := List.mem_map_of_mem (f := (·.seq)) he
    rw [hseq, List.mem_range'_1] at hmem
    omega
  have hnew : (es.map CanonicalRow.ofEvent).map (·.seq) = es.map (·.seq) := by
    rw [List.map_map]
    rfl
  have hincreasing : ((d.canonical ++ es.map CanonicalRow.ofEvent).map (·.seq)).Pairwise (· < ·) := by
    rw [List.map_append, hnew, List.pairwise_append]
    refine ⟨h.increasing, hseq ▸ List.pairwise_lt_range', ?_⟩
    intro a ha b hb
    obtain ⟨row, hrow, rfl⟩ := List.mem_map.1 ha
    obtain ⟨e, he, rfl⟩ := List.mem_map.1 hb
    exact Nat.lt_of_le_of_lt (h.seq_le hrow) (habove e he)
  refine ⟨appendCanonical_eq_append (pairwise_not_conflicts ?_ ?_), hincreasing, ?_, habove⟩
  · rw [List.map_append, List.map_map]
    exact hids
  · refine List.Nodup.of_map Prod.snd ?_
    rw [List.map_map]
    exact hincreasing.imp Nat.ne_of_lt
  · intro row hrow
    rcases List.mem_append.1 hrow with hrow | hrow
    · exact h.run row hrow
    · obtain ⟨e, he, rfl⟩ := List.mem_map.1 hrow
      exact hrun e he

variable [JsNumber N]

/-- The forced write of a rebuild is in step with the rows it has read. -/
theorem rebuild_projects (rows : List (CanonicalRow N)) (row : Option (ProjectionRow N)) :
    Projects rows (ProjectionService.rebuild runId (rows.map CanonicalRow.cast) row).2 := by
  have hnew : (ProjectionService.rebuild runId (rows.map CanonicalRow.cast) row).2 =
      .ofProjection (applyEvents (.empty runId) (rows.map CanonicalRow.cast))
        (lastRowSeq rows) projectionSchemaVersion := by
    have hversion : ((rows.map CanonicalRow.cast).getLast?.map (·.seq)).getD 0 = lastRowSeq rows := by
      rw [List.getLast?_map, Option.map_map]
      rfl
    unfold ProjectionService.rebuild
    rw [hversion]
    cases row <;> rfl
  rw [hnew]
  refine ⟨rfl, ?_, ?_⟩
  · refine (totalEvents_applyEvents (p := .empty runId)).trans ?_
    rw [List.length_map]
    exact Nat.zero_add _
  · refine (latestSeq_applyEvents (p := .empty runId)).trans ?_
    rw [List.getLast?_map, Option.map_map]
    rfl

/-- The next numbers after 1 to `n`. -/
theorem perm_range'_append {xs ys : List Nat} {n k : Nat} (hxs : xs.Perm (List.range' 1 n))
    (hys : ys.Perm (List.range' (n + 1) k)) : (xs ++ ys).Perm (List.range' 1 (n + k)) := by
  refine (hxs.append hys).trans (List.Perm.of_eq ?_)
  rw [Nat.add_comm n 1, List.range'_append_1]

/-- A transaction appends its rows behind those that are there, and keeps the numbers and the projection in step. -/
theorem RunData.Sequenced.apply {d : RunData N E} (h : d.Sequenced runId) (t : RunTxn N E runId)
    (hids : (d.canonical.map (·.id) ++ t.canonicalIds).Nodup) (hraw : (d.raw.map (·.id) ++ t.rawIds).Nodup) :
    (t.program.apply d).Sequenced runId ∧
      (t.program.apply d).canonical = d.canonical ++ (t.written d).map CanonicalRow.ofEvent ∧
      (t.program.apply d).raw = d.raw ++ t.rawRows d := by
  have hwritten := t.written_run d
  rw [← t.written_ids d] at hids
  cases t with
  | emit events hne runCtx uuid =>
    have hseq := RunEventService.map_seq_prepareEmitted runId runCtx uuid (d.lastEventSeq + 1) events
    rw [← RunEventService.length_prepareEmitted runId runCtx uuid (d.lastEventSeq + 1) events] at hseq
    obtain ⟨happend, hincreasing, hrun, habove⟩ := h.append hseq (Nat.lt_succ_self _) hwritten hids
    rw [RunTxn.apply_emit]
    refine ⟨⟨?_, ?_, ?_, ?_, nofun⟩, happend, (List.append_nil _).symm⟩
    · dsimp only
      rw [happend, List.map_append, List.map_map, ← List.append_assoc]
      refine perm_range'_append h.seqs (List.Perm.of_eq ?_)
      exact RunEventService.map_seq_prepareEmitted runId runCtx uuid (d.lastEventSeq + 1) events
    · dsimp only
      rw [happend]
      exact hincreasing
    · dsimp only
      rw [happend]
      exact hrun
    · intro row hrow
      dsimp only
      rw [happend, ← Option.some.inj hrow]
      exact applyAndPersist_projects h.stored h.missing fun e he => Nat.lt_of_le_of_lt h.lastRowSeq_le (habove e he)
  | persist rawId raw events hevents runCtx uuid cursor =>
    have hseq := RunEventService.map_seq_preparePersisted runCtx uuid (d.lastEventSeq + 1) events
    have hlength := RunEventService.length_preparePersisted runCtx uuid (d.lastEventSeq + 1) events
    rw [← hlength] at hseq
    obtain ⟨happend, hincreasing, hrun, habove⟩ := h.append hseq (by omega) hwritten hids
    have hinsert : insertRaw d.raw (.ofEvent rawId (d.lastEventSeq + 1) raw) =
        d.raw ++ [.ofEvent rawId (d.lastEventSeq + 1) raw] :=
      insertRaw_eq_append hraw fun row hrow => Nat.lt_succ_of_le (h.raw_seq_le hrow)
    rw [RunTxn.apply_persist]
    refine ⟨⟨?_, ?_, ?_, ?_, nofun⟩, happend, hinsert⟩
    · dsimp only
      rw [happend, hinsert, List.map_append, List.map_append, List.map_map]
      have hnew : [d.lastEventSeq + 1] ++
        ((RunEventService.preparePersisted runCtx uuid (d.lastEventSeq + 1) events).map
          ((·.seq) ∘ CanonicalRow.ofEvent)) = List.range' (d.lastEventSeq + 1) (1 + events.length) := by
        rw [← List.range'_append_1, ← RunEventService.map_seq_preparePersisted runCtx uuid
          (d.lastEventSeq + 1) events]
        rfl
      -- The number of the raw row is the first of the batch.
      refine List.Perm.trans ?_ (perm_range'_append h.seqs (List.Perm.of_eq hnew))
      rw [List.append_assoc, List.append_assoc, List.map_singleton, List.singleton_append, List.singleton_append]
      exact List.perm_middle.symm.append_left _
    · dsimp only
      rw [happend]
      exact hincreasing
    · dsimp only
      rw [happend]
      exact hrun
    · intro row hrow
      dsimp only
      rw [happend, ← Option.some.inj hrow]
      exact applyAndPersist_projects h.stored h.missing fun e he => Nat.lt_of_le_of_lt h.lastRowSeq_le (habove e he)
  | rebuild =>
    rw [RunTxn.apply_rebuild, listCanonicalUpTo_of_increasing h.run h.increasing]
    refine ⟨⟨h.seqs, h.increasing, h.run, ?_, nofun⟩, (List.append_nil _).symm, (List.append_nil _).symm⟩
    intro row hrow
    rw [← Option.some.inj hrow]
    exact rebuild_projects d.canonical d.projection

/-! ### Any interleaving -/

/-- The rows of a run that has just been created, with its session row. -/
def RunData.created (session : Option SessionRow) : RunData N E := { session }

omit [JsNumber N] in
private theorem RunData.Sequenced.created (session : Option SessionRow) :
    (RunData.created session : RunData N E).Sequenced runId :=
  ⟨List.Perm.refl _, List.Pairwise.nil, List.forall_mem_nil _, fun row hrow => absurd hrow (Option.not_mem_none row),
    fun _ => rfl⟩

omit [JsNumber N] in
theorem DistinctIds.of_append {ts us : List (RunTxn N E runId)} (h : DistinctIds (ts ++ us)) : DistinctIds ts := by
  have hcanonical := h.canonical
  have hraw := h.raw
  rw [List.flatMap_append] at hcanonical hraw
  exact ⟨(List.nodup_append.1 hcanonical).1, (List.nodup_append.1 hraw).1⟩

omit [JsNumber N] in
/-- After the transactions before it, the ids of the last one are new. -/
theorem DistinctIds.concat {ts : List (RunTxn N E runId)} {t : RunTxn N E runId} (h : DistinctIds (ts ++ [t]))
    {d : RunData N E} (hcanonical : d.canonical.map (·.id) = ts.flatMap RunTxn.canonicalIds)
    (hraw : d.raw.map (·.id) = ts.flatMap RunTxn.rawIds) :
    (d.canonical.map (·.id) ++ t.canonicalIds).Nodup ∧ (d.raw.map (·.id) ++ t.rawIds).Nodup := by
  have hcanonicals := h.canonical
  have hraws := h.raw
  rw [List.flatMap_append, List.flatMap_singleton] at hcanonicals hraws
  rw [hcanonical, hraw]
  exact ⟨hcanonicals, hraws⟩

/-- One transaction after the other: the rows have the ids of the transactions in their order, and all is in step. -/
theorem sequenced_afterTxns (session : Option SessionRow) {ts : List (RunTxn N E runId)} (h : DistinctIds ts) :
    let d : RunData N E := afterTxns (.created session) ts
    d.Sequenced runId ∧ d.canonical.map (·.id) = ts.flatMap RunTxn.canonicalIds ∧
      d.raw.map (·.id) = ts.flatMap RunTxn.rawIds := by
  induction ts using List.reverseRecOn with
  | nil => exact ⟨.created session, rfl, rfl⟩
  | append_singleton ts t ih =>
    obtain ⟨hseq, hids, hraw⟩ := ih h.of_append
    obtain ⟨hnew, hnewRaw⟩ := h.concat hids hraw
    obtain ⟨hseq', hrows, hrawRows⟩ := hseq.apply t hnew hnewRaw
    intro d
    rw [show d = _ from afterTxns_concat _ ts t]
    refine ⟨hseq', ?_, ?_⟩
    · rw [hrows, List.map_append, List.map_map, hids, List.flatMap_append, List.flatMap_singleton, ← t.written_ids]
      rfl
    · rw [hrawRows, List.map_append, hraw, List.flatMap_append, List.flatMap_singleton, t.rawRows_ids]

/-- The transactions of a run, one after the other: each one finds the rows in step, and its ids are new. -/
theorem afterTxns_induction {motive : List (RunTxn N E runId) → RunData N E → Prop} {session : Option SessionRow}
    (created : motive [] (.created session))
    (apply : ∀ ts t d, d.Sequenced runId → (d.canonical.map (·.id) ++ t.canonicalIds).Nodup →
      (d.raw.map (·.id) ++ t.rawIds).Nodup → motive ts d → motive (ts ++ [t]) (t.program.apply d))
    {ts : List (RunTxn N E runId)} (h : DistinctIds ts) : motive ts (afterTxns (.created session) ts) := by
  induction ts using List.reverseRecOn with
  | nil => exact created
  | append_singleton ts t ih =>
    obtain ⟨hseq, hcanonical, hraw⟩ := sequenced_afterTxns session h.of_append
    obtain ⟨hnew, hnewRaw⟩ := h.concat hcanonical hraw
    rw [afterTxns_concat]
    exact apply ts t _ hseq hnew hnewRaw (ih h.of_append)

omit [JsNumber N] in
/-- In rows with increasing numbers the last number is the largest. -/
theorem lastRowSeq_eq_max? {rows : List (CanonicalRow N)} (h : (rows.map (·.seq)).Pairwise (· < ·)) :
    lastRowSeq rows = ((rows.map (·.seq)).max?).getD 0 := by
  rcases List.eq_nil_or_concat rows with rfl | ⟨init, row, rfl⟩
  · rfl
  · have hmax : ((init.concat row).map (·.seq)).max? = some row.seq := by
      rw [List.max?_eq_some_iff]
      rw [List.concat_eq_append, List.map_append, List.pairwise_append] at h
      refine ⟨by simp, ?_⟩
      intro n hn
      rw [List.concat_eq_append, List.map_append, List.mem_append] at hn
      rcases hn with hn | hn
      · exact Nat.le_of_lt (h.2.2 n hn row.seq (by simp))
      · exact Nat.le_of_eq (List.mem_singleton.1 hn)
    rw [hmax]
    simp [lastRowSeq]

/-- In every state that any interleaving of the transactions reaches, with any of them rolled back at any time: what
is committed is what the committed transactions do one after the other; the sequence numbers of the raw and the
canonical rows are 1 to `last_event_seq`; the canonical rows are stored in the order of their numbers, which is the
order of the commits; and the stored projection counts them and has the largest number. -/
theorem run_sequencing {session : Option SessionRow} {s : RowLock.State (RunData N E) (Locals N) (RunTxn N E runId)}
    (hs : (RowLock.machine RunTxn.program (.created session)).Reachable s) (hids : DistinctIds s.commits) :
    s.data = afterTxns (.created session) s.commits ∧
    (s.data.raw.map (·.seq) ++ s.data.canonical.map (·.seq)).Perm (List.range' 1 s.data.lastEventSeq) ∧
    (s.data.canonical.map (·.seq)).Pairwise (· < ·) ∧
    (∀ k t, s.commits[k]? = some t →
      (afterTxns (.created session) (s.commits.take (k + 1))).canonical =
        (afterTxns (.created session) (s.commits.take k)).canonical ++
          (t.written (afterTxns (.created session) (s.commits.take k))).map CanonicalRow.ofEvent) ∧
    (s.data.projection = none → s.data.canonical = []) ∧
    ∀ row ∈ s.data.projection, row.timeline.totalEvents = s.data.canonical.length ∧
      row.timeline.latestSeq = ((s.data.canonical.map (·.seq)).max?).getD 0 := by
  have hdata : s.data = afterTxns (.created session) s.commits := RowLock.data_eq hs
  obtain ⟨hseq, -, -⟩ := sequenced_afterTxns session hids
  rw [← hdata] at hseq
  refine ⟨hdata, hseq.seqs, hseq.increasing, ?_, hseq.missing, ?_⟩
  · intro k t ht
    have htake : s.commits.take (k + 1) = s.commits.take k ++ [t] := by
      rw [List.take_add_one, ht]
      rfl
    have hids' : DistinctIds (s.commits.take k ++ [t]) := by
      rw [← List.take_append_drop (k + 1) s.commits] at hids
      rw [← htake]
      exact hids.of_append
    obtain ⟨hbefore, hcanonical, hraw⟩ := sequenced_afterTxns session hids'.of_append
    obtain ⟨hnew, hnewRaw⟩ := hids'.concat hcanonical hraw
    rw [htake, afterTxns_concat]
    exact (hbefore.apply t hnew hnewRaw).2.1
  · intro row hrow
    obtain ⟨-, htotal, hlatest⟩ := hseq.stored row hrow
    exact ⟨htotal, hlatest.trans (lastRowSeq_eq_max? hseq.increasing)⟩

/-- A transaction that is rolled back after it has taken two numbers, and two that commit after it. -/
theorem run_sequencing_rollback :
    let started : PartialEvent (Option Rat) :=
      { ts := "10:00", type := .runStarted, source := ⟨.macpControlPlane, "run-manager", none⟩, data := [] }
    let received : CanonicalEvent (Option Rat) :=
      { id := "c1", runId := "run", seq := 0, ts := "10:01", type := .messageReceived,
        source := ⟨.runtime, "macp", none⟩, data := [] }
    let raw : RawRuntimeEvent Nat := { kind := .streamEnvelope, receivedAt := "10:01", envelope := some 1 }
    let emit : RunTxn (Option Rat) Nat "run" := .emit [started] nofun none fun _ => "e1"
    let persist : RunTxn (Option Rat) Nat "run" :=
      .persist "r1" raw [received] (by decide) none (fun _ => "u") (some 1)
    ∃ s, (RowLock.machine RunTxn.program (.created none)).Reachable s ∧ s.commits = [emit, persist] ∧
      (s.data.raw.map (·.seq) ++ s.data.canonical.map (·.seq)).Perm (List.range' 1 s.data.lastEventSeq) := by
  intro started received raw emit persist
  obtain ⟨s₀, hs₀, hholder₀, hcommits₀⟩ : ∃ s, (RowLock.machine RunTxn.program (.created none)).Reachable s ∧
      s.holder = none ∧ s.commits = [] :=
    ⟨_, ⟨_, [.begin emit, .begin persist, .step 1 .lock, .step 1 .statement, .step 1 .statement, .step 1 .rollback],
      rfl, rfl⟩,
      rfl, rfl⟩
  obtain ⟨s₁, hs₁, hholder₁, hcommits₁⟩ := RowLock.exists_commit_new hs₀ hholder₀ emit
  obtain ⟨s, hs, -, hcommits⟩ := RowLock.exists_commit_new hs₁ hholder₁ persist
  rw [hcommits₁, hcommits₀] at hcommits
  have hids : DistinctIds s.commits := by
    rw [hcommits]
    exact ⟨by decide, by decide⟩
  exact ⟨s, hs, hcommits, (run_sequencing hs hids).2.1⟩

end MacpControlPlane

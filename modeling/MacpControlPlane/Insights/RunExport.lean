import MacpControlPlane.Lib.ExactNumbers
import MacpControlPlane.Lib.HighWater
import MacpControlPlane.Lib.Paging
import MacpControlPlane.Runs.RunManager
import MacpControlPlane.Storage.EventTables

/-!
# The JSONL exports of a run (`insights/run-insights.service.ts`, `storage/event.repository.ts`)

`exportRunJsonl` writes a header line and a line for each event of the run, up to a limit; `exportRunStream` yields such
lines without a limit and reads the canonical events in batches, each after the last sequence number of the one before.
The batches are the log (`streamCanonicalByRun_eq`).

The line of an event is its row with the field `type` that tells canonical from raw lines.  A canonical row has a
column of that name, which the spread has written before and the field replaces, so that rows of different types have
the same line (`eventLine_withType`), while the other columns are read back (`canonical_recovered_but_type`).  A raw row
has no such column, and is read back as a whole (`raw_recovered`).
-/

namespace MacpControlPlane

namespace RunExport

open Js JsonText Columns HighWater

variable {N : Type} [JsNumber N]

/-! ### Stored events -/

/-- A row of `run_events_canonical`, whose columns take what is in it.  `allocateSequence` starts at 1. -/
structure StoredCanonicalEvent (N : Type) [JsNumber N] extends CanonicalRow N where
  createdAt : String
  fits : toCanonicalRow.fits .none = true
  seq_pos : 0 < seq
  seq_lt : seq < 2 ^ 31
  schemaVersion_lt : schemaVersion < 2 ^ 31
  data_wellFormed : WellFormed (.obj data)

/-- A row of `run_events_raw`. -/
structure StoredRawEvent (N : Type) [JsNumber N] where
  id : String
  runId : String
  seq : Nat
  ts : String
  kind : String
  sourceName : String
  payload : JsonObject N
  traceId : Option String
  spanId : Option String
  createdAt : String
  fits : (varchar 64 kind && varchar 128 sourceName && jsonb .none payload && traceId.all (varchar 255) &&
    spanId.all (varchar 255)) = true
  seq_pos : 0 < seq
  seq_lt : seq < 2 ^ 31
  payload_wellFormed : WellFormed (.obj payload)

/-- The object that a query returns for the row. -/
def StoredCanonicalEvent.columns (event : StoredCanonicalEvent N) : JsonObject N :=
  [("id", .str event.id), ("runId", .str event.runId), ("seq", .num (JsNumber.ofNat event.seq)), ("ts", .str event.ts),
    ("type", .str event.type.name), ("subjectKind", nullable (event.subjectKind.map (·.name))),
    ("subjectId", nullable event.subjectId), ("sourceKind", .str event.sourceKind),
    ("sourceName", .str event.sourceName), ("rawType", nullable event.rawType), ("traceId", nullable event.traceId),
    ("spanId", nullable event.spanId), ("parentSpanId", nullable event.parentSpanId),
    ("schemaVersion", .num (JsNumber.ofNat event.schemaVersion)), ("data", .obj event.data),
    ("createdAt", .str event.createdAt)]

def StoredRawEvent.columns (event : StoredRawEvent N) : JsonObject N :=
  [("id", .str event.id), ("runId", .str event.runId), ("seq", .num (JsNumber.ofNat event.seq)), ("ts", .str event.ts),
    ("kind", .str event.kind), ("sourceName", .str event.sourceName), ("payload", .obj event.payload),
    ("traceId", nullable event.traceId), ("spanId", nullable event.spanId), ("createdAt", .str event.createdAt)]

/-- What the header line tells about a run. -/
structure RunSummary (N : Type) [JsNumber N] where
  run : Json N
  session : Json N
  projection : Json N
  metrics : Json N
  artifacts : Json N
  exportedAt : String
  wellFormed : ∀ v ∈ [run, session, projection, metrics, artifacts], WellFormed v

/-- The tables.  Sequence numbers are unique in a run; `summaries` is what the other repositories hold of it. -/
structure Store (N : Type) [JsNumber N] where
  summaries : String → Option (RunSummary N)
  canonicalEvents : List (StoredCanonicalEvent N)
  rawEvents : List (StoredRawEvent N)
  canonical_unique : (canonicalEvents.map fun row => (row.runId, row.seq)).Nodup
  raw_unique : (rawEvents.map fun row => (row.runId, row.seq)).Nodup

/-! ### Queries -/

section Queries

variable {R : Type}

/-- `WHERE run_id = … AND seq > … ORDER BY seq ASC LIMIT …` -/
def selectByRun (runIdOf : R → String) (seqOf : R → Nat) (rows : List R) (runId : String) (afterSeq limit : Nat) :
    List R :=
  ((rows.filter fun row => runIdOf row = runId && afterSeq < seqOf row).mergeSort
    fun a b => seqOf a ≤ seqOf b).take limit

def listCanonicalByRun : List (StoredCanonicalEvent N) → String → Nat → Nat → List (StoredCanonicalEvent N) :=
  selectByRun (·.runId) (·.seq)

def listRawByRun : List (StoredRawEvent N) → String → Nat → Nat → List (StoredRawEvent N) :=
  selectByRun (·.runId) (·.seq)

/-- A batch of `streamCanonicalByRun`, and the cursor of the next one unless it was the last. -/
def canonicalBatch (rows : List (StoredCanonicalEvent N)) (runId : String) (batchSize : Nat) (cursor : Option Nat) :
    List (StoredCanonicalEvent N) × Option Nat :=
  let batch := listCanonicalByRun rows runId (cursor.getD 0) batchSize
  (batch, if batch.length < batchSize then none else batch.getLast?.map (·.seq))

/-- `streamCanonicalByRun`; `none` when the fuel does not reach for its batches. -/
def streamCanonicalByRun (rows : List (StoredCanonicalEvent N)) (runId : String) (fuel : Nat) (afterSeq : Nat := 0)
    (batchSize : Nat := 500) : Option (List (StoredCanonicalEvent N)) :=
  Paging.follow (canonicalBatch rows runId batchSize) fuel (some afterSeq)

end Queries

/-! ### Exports -/

structure ExportOptions where
  includeCanonical : Option Bool := none
  includeRaw : Option Bool := none
  eventLimit : Option Nat := none

/-- `RunExportBundle` -/
structure RunExportBundle (N : Type) [JsNumber N] where
  summary : RunSummary N
  canonicalEvents : List (StoredCanonicalEvent N)
  rawEvents : List (StoredRawEvent N)

def notFound (runId : String) : String := "run " ++ runId ++ " not found"

def exportRun (store : Store N) (runId : String) (options : ExportOptions) : Except String (RunExportBundle N) :=
  match store.summaries runId with
  | none => .error (notFound runId)
  | some summary =>
    let includeCanonical := options.includeCanonical ≠ some false
    let includeRaw := options.includeRaw = some true
    let eventLimit := options.eventLimit.getD 10000
    .ok {
      summary := summary
      canonicalEvents := if includeCanonical then listCanonicalByRun store.canonicalEvents runId 0 eventLimit else []
      rawEvents := if includeRaw then listRawByRun store.rawEvents runId 0 eventLimit else [] }

def RunSummary.headerLine (summary : RunSummary N) : String :=
  stringify (.obj [("type", (.str "header" : Json N)), ("run", summary.run), ("session", summary.session),
    ("projection", summary.projection), ("metrics", summary.metrics), ("artifacts", summary.artifacts),
    ("exportedAt", .str summary.exportedAt)])

/-- `JSON.stringify({ ...event, type })` -/
def eventLine (event : JsonObject N) (type : String) : String := stringify (.obj (assign event "type" (.str type)))

def exportRunJsonl (store : Store N) (runId : String) (options : ExportOptions) : Except String String :=
  (exportRun store runId options).map fun bundle =>
    let lines := bundle.summary.headerLine ::
      (bundle.canonicalEvents.map (eventLine ·.columns "canonical_event") ++
        bundle.rawEvents.map (eventLine ·.columns "raw_event"))
    "\n".intercalate lines ++ "\n"

/-- The chunks that `exportRunStream` yields. -/
def exportRunStream (store : Store N) (runId : String) (includeRaw : Option Bool) (fuel : Nat) :
    Option (Except String (List String)) :=
  match store.summaries runId with
  | none => some (.error (notFound runId))
  | some summary =>
    (streamCanonicalByRun store.canonicalEvents runId fuel).map fun canonicalEvents =>
      let rawEvents := if includeRaw = some true then listRawByRun store.rawEvents runId 0 100000 else []
      .ok ((summary.headerLine ++ "\n") ::
        (canonicalEvents.map (eventLine ·.columns "canonical_event" ++ "\n") ++
          rawEvents.map (eventLine ·.columns "raw_event" ++ "\n")))

/-! ### What the queries read -/

section Queries

variable {R : Type} {runIdOf : R → String} {seqOf : R → Nat} {rows log : List R}

/-- The rows of a run in the order of their sequence numbers. -/
def ofRun (runIdOf : R → String) (seqOf : R → Nat) (rows : List R) (runId : String) : List R :=
  (rows.filter fun row => runIdOf row = runId).mergeSort fun a b => seqOf a ≤ seqOf b

private theorem mem_ofRun {runId : String} {row : R} :
    row ∈ ofRun runIdOf seqOf rows runId ↔ row ∈ rows ∧ runIdOf row = runId := by
  simp [ofRun, List.mem_mergeSort]

/-- The unique index on `(run_id, seq)`, for one run. -/
theorem nodup_seqs (h : (rows.map fun row => (runIdOf row, seqOf row)).Nodup) (runId : String) :
    ((rows.filter fun row => runIdOf row = runId).map seqOf).Nodup := by
  have hrun : ((rows.filter fun row => runIdOf row = runId).map fun row => (runIdOf row, seqOf row)).Nodup :=
    h.sublist (List.filter_sublist.map _)
  refine List.pairwise_map.2 ((List.pairwise_map.1 hrun).imp_of_mem fun {a b} ha hb hne heq => ?_)
  have hida : runIdOf a = runId := by simpa using (List.mem_filter.1 ha).2
  have hidb : runIdOf b = runId := by simpa using (List.mem_filter.1 hb).2
  exact hne (by rw [hida, hidb, heq])

private theorem increasing_ofRun (h : (rows.map fun row => (runIdOf row, seqOf row)).Nodup) (runId : String) :
    Increasing seqOf (ofRun runIdOf seqOf rows runId) :=
  increasing_mergeSort (List.pairwise_map.1 (nodup_seqs h runId))

/-- A query reads the log of the run from a sequence number on. -/
theorem selectByRun_eq (h : (rows.map fun row => (runIdOf row, seqOf row)).Nodup) (runId : String)
    (afterSeq limit : Nat) : selectByRun runIdOf seqOf rows runId afterSeq limit =
      ((ofRun runIdOf seqOf rows runId).filter fun row => afterSeq < seqOf row).take limit := by
  have hselect : (rows.filter fun row => runIdOf row = runId && afterSeq < seqOf row) =
      (rows.filter fun row => runIdOf row = runId).filter fun row => afterSeq < seqOf row := by
    rw [List.filter_filter]
    exact List.filter_congr fun row _ => Bool.and_comm _ _
  unfold selectByRun
  rw [hselect]
  congr 1
  refine eq_of_increasing ?_ ((increasing_ofRun h runId).filter _) fun row => ?_
  · exact increasing_mergeSort ((List.pairwise_map.1 (nodup_seqs h runId)).filter _)
  · simp only [ofRun, List.mem_mergeSort, List.mem_filter]

/-- Batches that start after the last sequence number of the batch before tile the log. -/
theorem follow_batches (h : Increasing seqOf log) {batchSize : Nat} (hsize : 0 < batchSize) (cursor : Nat) :
    ∃ fuel, Paging.follow (fun cursor =>
      let batch := (log.filter fun row => cursor.getD 0 < seqOf row).take batchSize
      (batch, if batch.length < batchSize then none else batch.getLast?.map seqOf)) fuel (some cursor) =
        some (log.filter fun row => cursor < seqOf row) := by
  -- by induction on the number of rows that are still to be read
  induction hn : (log.filter fun row => cursor < seqOf row).length using Nat.strong_induction_on
    generalizing cursor with
  | _ n ih =>
    by_cases hshort : ((log.filter fun row => cursor < seqOf row).take batchSize).length < batchSize
    · refine ⟨1, ?_⟩
      have hall : (log.filter fun row => cursor < seqOf row).take batchSize =
          log.filter fun row => cursor < seqOf row := by
        rw [List.length_take] at hshort
        exact List.take_of_length_le (by omega)
      rw [hall] at hshort
      simp [Paging.follow, hall, hshort]
    · have hsplit := filter_eq_append h (List.take_prefix batchSize (log.filter fun row => cursor < seqOf row))
      have hincreasing : Increasing seqOf ((log.filter fun row => cursor < seqOf row).take batchSize) :=
        (h.filter _).sublist (List.take_sublist batchSize _)
      have habove : ∀ row ∈ (log.filter fun row => cursor < seqOf row).take batchSize, cursor < seqOf row :=
        fun row hrow => by simpa using (List.mem_filter.1 (List.mem_of_mem_take hrow)).2
      have htop := top_eq_getLast hincreasing habove
      generalize hbatch : (log.filter fun row => cursor < seqOf row).take batchSize = batch at hshort hsplit htop
      obtain ⟨last, hlast⟩ : ∃ last, batch.getLast? = some last := by
        cases hlast : batch.getLast? with
        | none =>
          rw [List.getLast?_eq_none_iff.1 hlast] at hshort
          exact absurd hsize hshort
        | some last => exact ⟨last, rfl⟩
      rw [hlast, Option.map_some, Option.getD_some] at htop
      rw [htop] at hsplit
      have hlength := congrArg List.length hsplit
      rw [List.length_append] at hlength
      obtain ⟨fuel, hfuel⟩ := ih _ (by omega) (seqOf last) rfl
      refine ⟨fuel + 1, (Paging.follow_of_next_some ?_).2 ⟨_, hfuel, ?_⟩⟩
      · simp [hbatch, hshort, hlast]
      · simp only [Option.getD_some, hbatch]
        exact hsplit.symm

end Queries

/-! ### Lossless exports -/

/-- An event of either table. -/
inductive StoredEvent (N : Type) [JsNumber N] where
  | canonical (event : StoredCanonicalEvent N)
  | raw (event : StoredRawEvent N)

def StoredEvent.columns : StoredEvent N → JsonObject N
  | .canonical event => event.columns
  | .raw event => event.columns

/-- The line that the exports write for the event. -/
def StoredEvent.line : StoredEvent N → String
  | .canonical event => eventLine event.columns "canonical_event"
  | .raw event => eventLine event.columns "raw_event"

/-- After the header, `text` has a line for each of the events, in their order; each of these lines is JSON, and no
event with other columns has the same line. -/
structure Lossless (text : String) (events : List (StoredEvent N)) : Prop where
  listed : (textLines text).tail = events.map (·.line)
  parses : ∀ line ∈ (textLines text).tail, ∃ v : Json N, parse line = some v
  recovered : ∀ event ∈ events, ∀ other : StoredEvent N, other.line = event.line → other.columns = event.columns

variable (store : Store N) (runId : String)

/-- The canonical events of the run in the order of their sequence numbers. -/
def Store.canonicalOf : List (StoredCanonicalEvent N) := ofRun (·.runId) (·.seq) store.canonicalEvents runId

def Store.rawOf : List (StoredRawEvent N) := ofRun (·.runId) (·.seq) store.rawEvents runId

/-- The events that are asked for, the first ones up to the limit. -/
def Store.requested (options : ExportOptions) : List (StoredEvent N) :=
  let limit := options.eventLimit.getD 10000
  (if options.includeCanonical = some false then [] else (store.canonicalOf runId).take limit).map .canonical ++
    (if options.includeRaw = some true then (store.rawOf runId).take limit else []).map .raw

/-- The events that are asked for where no limit can be given. -/
def Store.streamed (includeRaw : Option Bool) : List (StoredEvent N) :=
  (store.canonicalOf runId).map .canonical ++ (if includeRaw = some true then store.rawOf runId else []).map .raw

/-- `exportRunJsonl` exports the run without loss. -/
def LosslessJsonl (options : ExportOptions) : Prop :=
  ∃ text, exportRunJsonl store runId options = .ok text ∧ Lossless text (store.requested runId options)

/-- `exportRunStream` comes to its end and exports the run without loss. -/
def LosslessStream (includeRaw : Option Bool) : Prop :=
  ∃ fuel chunks, exportRunStream store runId includeRaw fuel = some (.ok chunks) ∧
    Lossless (String.join chunks) (store.streamed runId includeRaw)

/-! ### The line of an event -/

section Lines

variable {store : Store N} {runId : String}

private theorem wellFormed_nullable (column : Option String) : WellFormed (nullable column : Json N) := by
  cases column <;> simp [nullable, WellFormed]

private theorem wellFormed_str (s : String) : WellFormed (.str s : Json N) := by
  rw [WellFormed]
  trivial

omit [JsNumber N] in
private theorem fits_withType {row : CanonicalRow N} (hfits : row.fits .none = true) {type : CanonicalEventType}
    (h : varchar 128 type.name = true) : CanonicalRow.fits .none { row with type := type } = true := by
  simp only [CanonicalRow.fits, Bool.and_eq_true, and_assoc] at hfits ⊢
  exact ⟨h, hfits.2⟩

/-- The row with another type. -/
def StoredCanonicalEvent.withType (event : StoredCanonicalEvent N) (type : CanonicalEventType)
    (h : varchar 128 type.name = true) : StoredCanonicalEvent N :=
  { event with
    type := type
    fits := fits_withType event.fits h }

/-- The field of the exporter replaces the column of the row. -/
theorem eventLine_withType (event : StoredCanonicalEvent N) {type : CanonicalEventType}
    (h : varchar 128 type.name = true) (lineType : String) :
    eventLine (event.withType type h).columns lineType = eventLine event.columns lineType := by
  simp [eventLine, StoredCanonicalEvent.columns, StoredCanonicalEvent.withType, assign]

/-- No canonical event can be read back: there is a row that differs in its type, and has the same line. -/
theorem canonical_not_recovered (event : StoredCanonicalEvent N) : ∃ other : StoredEvent N,
    other.line = (StoredEvent.canonical event).line ∧ other.columns ≠ event.columns := by
  obtain ⟨type, hfits, hne⟩ : ∃ type : CanonicalEventType,
      varchar 128 type.name = true ∧ type.name ≠ event.type.name := by
    by_cases hname : event.type.name = "run.created"
    · exact ⟨.runStarted, by decide, by rw [hname]; decide⟩
    · exact ⟨.runCreated, by decide, fun heq => hname heq.symm⟩
  refine ⟨.canonical (event.withType type hfits), eventLine_withType event hfits _, fun heq => hne ?_⟩
  have hlookup := congrArg (List.lookup "type") heq
  simpa [StoredEvent.columns, StoredCanonicalEvent.columns, StoredCanonicalEvent.withType, List.lookup_cons]
    using hlookup

variable [ReadableIntegers N]

private theorem readable_ofNat {n : Nat} (h : n < 2 ^ 31) : WellFormed (.num (JsNumber.ofNat n) : Json N) := by
  rw [WellFormed]
  refine ReadableIntegers.readable_ofNat n ?_
  unfold maxSafeInteger
  omega

private theorem StoredCanonicalEvent.wellFormed (event : StoredCanonicalEvent N) : WellFormed (.obj event.columns) := by
  rw [WellFormed, wellFormedFields_iff]
  refine ⟨by simp [columns], ?_⟩
  simp only [columns, List.forall_mem_cons, wellFormed_nullable, readable_ofNat event.seq_lt,
    readable_ofNat event.schemaVersion_lt, event.data_wellFormed, true_and]
  simp [WellFormed]

private theorem StoredRawEvent.wellFormed (event : StoredRawEvent N) : WellFormed (.obj event.columns) := by
  rw [WellFormed, wellFormedFields_iff]
  refine ⟨by simp [columns], ?_⟩
  simp only [columns, List.forall_mem_cons, wellFormed_nullable, readable_ofNat event.seq_lt,
    event.payload_wellFormed, true_and]
  simp [WellFormed]

/-- What the line of an event says. -/
def StoredEvent.lineObject : StoredEvent N → JsonObject N
  | .canonical event => assign event.columns "type" (.str "canonical_event")
  | .raw event => assign event.columns "type" (.str "raw_event")

omit [ReadableIntegers N] in
private theorem StoredEvent.line_eq (event : StoredEvent N) : event.line = stringify (.obj event.lineObject) := by
  cases event <;> rfl

private theorem StoredEvent.wellFormed_lineObject (event : StoredEvent N) : WellFormed (.obj event.lineObject) := by
  cases event with
  | canonical event => exact event.wellFormed.assign "type" (wellFormed_str _)
  | raw event => exact event.wellFormed.assign "type" (wellFormed_str _)

private theorem StoredEvent.parse_line (event : StoredEvent N) : parse event.line = some (.obj event.lineObject) := by
  rw [event.line_eq]
  exact parse_stringify event.wellFormed_lineObject

private theorem StoredEvent.newline_notMem_line (event : StoredEvent N) : '\n' ∉ event.line.toList := by
  rw [event.line_eq, stringify, String.toList_ofList]
  exact newline_notMem_stringifyChars _ event.wellFormed_lineObject

private theorem StoredEvent.lineObject_injective {event other : StoredEvent N} (h : other.line = event.line) :
    other.lineObject = event.lineObject := by
  rw [other.line_eq, event.line_eq] at h
  have hobj := stringify_injective other.wellFormed_lineObject event.wellFormed_lineObject h
  exact Json.obj.inj hobj

/-- Only the type is lost: events with the same line agree in all other columns. -/
theorem canonical_recovered_but_type (event : StoredCanonicalEvent N) {other : StoredCanonicalEvent N}
    (h : (StoredEvent.canonical other).line = (StoredEvent.canonical event).line) {column : String}
    (hcolumn : column ≠ "type") : other.columns.lookup column = event.columns.lookup column := by
  have hobject := congrArg (List.lookup column) (StoredEvent.lineObject_injective h)
  rwa [StoredEvent.lineObject, StoredEvent.lineObject, lookup_assign_of_ne hcolumn,
    lookup_assign_of_ne hcolumn] at hobject

/-- A raw row has no column `type`, so that its columns are what stands before the last field of its line. -/
theorem raw_recovered (event : StoredRawEvent N) {other : StoredEvent N}
    (h : other.line = (StoredEvent.raw event).line) : other.columns = event.columns := by
  have hobject := StoredEvent.lineObject_injective h
  cases other with
  | canonical other =>
    have hcanonical : (StoredEvent.canonical other).lineObject.lookup "type" = some (.str "canonical_event") :=
      lookup_assign_self _ _ _
    rw [hobject, StoredEvent.lineObject, lookup_assign_self] at hcanonical
    simp at hcanonical
  | raw other =>
    have hnew : ∀ row : StoredRawEvent N, "type" ∉ row.columns.map (·.1) := by
      intro row
      simp [StoredRawEvent.columns]
    rw [StoredEvent.lineObject, StoredEvent.lineObject, assign_of_notMem (hnew other),
      assign_of_notMem (hnew event)] at hobject
    exact List.append_cancel_right hobject

/-- A text with the lines of events is lossless if and only if no canonical event is among them. -/
theorem lossless_iff {text header : String} {events : List (StoredEvent N)}
    (h : textLines text = header :: events.map (·.line)) :
    Lossless text events ↔ ∀ event ∈ events, ∃ raw : StoredRawEvent N, event = .raw raw := by
  constructor
  · intro hlossless event hevent
    cases event with
    | canonical event =>
      obtain ⟨other, hline, hne⟩ := canonical_not_recovered event
      exact absurd (hlossless.recovered _ hevent other hline) hne
    | raw event => exact ⟨event, rfl⟩
  · intro hraw
    refine ⟨by rw [h]; rfl, ?_, ?_⟩
    · intro line hline
      rw [h, List.tail_cons] at hline
      obtain ⟨event, -, rfl⟩ := List.mem_map.1 hline
      exact ⟨_, event.parse_line⟩
    · intro event hevent other hline
      obtain ⟨raw, rfl⟩ := hraw event hevent
      exact raw_recovered raw hline

omit [ReadableIntegers N] in
private theorem newline_notMem_headerLine (summary : RunSummary N) : '\n' ∉ summary.headerLine.toList := by
  rw [RunSummary.headerLine, stringify, String.toList_ofList]
  refine newline_notMem_stringifyChars _ ?_
  rw [WellFormed, wellFormedFields_iff]
  refine ⟨by simp, ?_⟩
  have hsummary := summary.wellFormed
  simp only [List.forall_mem_cons] at hsummary ⊢
  simp [wellFormed_str, hsummary]

private theorem newline_notMem_lines (summary : RunSummary N) (events : List (StoredEvent N)) :
    ∀ line ∈ summary.headerLine :: events.map (·.line), '\n' ∉ line.toList := by
  intro line hline
  rcases List.mem_cons.1 hline with rfl | hline
  · exact newline_notMem_headerLine summary
  · obtain ⟨event, -, rfl⟩ := List.mem_map.1 hline
    exact event.newline_notMem_line

end Lines

/-! ### What the exports list -/

section Listing

variable {store : Store N} {runId : String} {summary : RunSummary N}

private theorem listCanonicalByRun_eq (store : Store N) (runId : String) (limit : Nat) :
    listCanonicalByRun store.canonicalEvents runId 0 limit = (store.canonicalOf runId).take limit := by
  unfold listCanonicalByRun
  rw [selectByRun_eq store.canonical_unique]
  congr 1
  exact List.filter_eq_self.2 fun row _ => by simpa using row.seq_pos

private theorem listRawByRun_eq (store : Store N) (runId : String) (limit : Nat) :
    listRawByRun store.rawEvents runId 0 limit = (store.rawOf runId).take limit := by
  unfold listRawByRun
  rw [selectByRun_eq store.raw_unique]
  congr 1
  exact List.filter_eq_self.2 fun row _ => by simpa using row.seq_pos

/-- The batches are the log of the run after `afterSeq`, each event of it once and in its order. -/
theorem streamCanonicalByRun_eq (store : Store N) (runId : String) (afterSeq : Nat) {batchSize : Nat}
    (hsize : 0 < batchSize) : ∃ fuel, streamCanonicalByRun store.canonicalEvents runId fuel afterSeq batchSize =
      some ((store.canonicalOf runId).filter fun row => afterSeq < row.seq) := by
  obtain ⟨fuel, hfuel⟩ := follow_batches (increasing_ofRun store.canonical_unique runId) hsize afterSeq
  refine ⟨fuel, Eq.trans ?_ hfuel⟩
  have hbatch : canonicalBatch store.canonicalEvents runId batchSize = fun cursor =>
      let batch := ((store.canonicalOf runId).filter fun row => cursor.getD 0 < row.seq).take batchSize
      (batch, if batch.length < batchSize then none else batch.getLast?.map (·.seq)) := by
    funext cursor
    simp only [canonicalBatch, listCanonicalByRun, selectByRun_eq store.canonical_unique]
    rfl
  rw [streamCanonicalByRun, hbatch]
  rfl

private theorem streamCanonicalByRun_all (store : Store N) (runId : String) :
    (∃ fuel, streamCanonicalByRun store.canonicalEvents runId fuel = some (store.canonicalOf runId)) ∧
      ∀ fuel events, streamCanonicalByRun store.canonicalEvents runId fuel = some events →
        events = store.canonicalOf runId := by
  have hall : ((store.canonicalOf runId).filter fun row => 0 < row.seq) = store.canonicalOf runId :=
    List.filter_eq_self.2 fun row _ => by simpa using row.seq_pos
  obtain ⟨fuel, hfuel⟩ := streamCanonicalByRun_eq store runId 0 (show 0 < 500 by decide)
  rw [hall] at hfuel
  exact ⟨⟨fuel, hfuel⟩, fun fuel' events h => Paging.follow_unique h hfuel⟩

variable [ReadableIntegers N]

private theorem textLines_exportRunJsonl (h : store.summaries runId = some summary) (options : ExportOptions) :
    ∃ text, exportRunJsonl store runId options = .ok text ∧
      textLines text = summary.headerLine :: (store.requested runId options).map (·.line) := by
  have hlines : summary.headerLine :: (store.requested runId options).map (·.line) = summary.headerLine ::
      ((if options.includeCanonical ≠ some false then
          listCanonicalByRun store.canonicalEvents runId 0 (options.eventLimit.getD 10000) else []).map
            (eventLine ·.columns "canonical_event") ++
        (if options.includeRaw = some true then
          listRawByRun store.rawEvents runId 0 (options.eventLimit.getD 10000) else []).map
            (eventLine ·.columns "raw_event")) := by
    rw [listCanonicalByRun_eq, listRawByRun_eq, Store.requested, List.map_append, List.map_map, List.map_map, ite_not]
    rfl
  have hnewline := newline_notMem_lines summary (store.requested runId options)
  refine ⟨"\n".intercalate (summary.headerLine :: (store.requested runId options).map (·.line)) ++ "\n", ?_,
    textLines_intercalate hnewline (List.cons_ne_nil _ _)⟩
  rw [hlines]
  simp only [exportRunJsonl, exportRun, h, Except.map]

/-- The stream writes every canonical event, and the first 100000 raw ones if they are asked for. -/
def Store.written (store : Store N) (runId : String) (includeRaw : Option Bool) : List (StoredEvent N) :=
  (store.canonicalOf runId).map .canonical ++
    (if includeRaw = some true then (store.rawOf runId).take 100000 else []).map .raw

private theorem textLines_exportRunStream (h : store.summaries runId = some summary) (includeRaw : Option Bool) :
    (∃ fuel chunks, exportRunStream store runId includeRaw fuel = some (.ok chunks)) ∧
      ∀ fuel chunks, exportRunStream store runId includeRaw fuel = some (.ok chunks) →
        textLines (String.join chunks) = summary.headerLine :: (store.written runId includeRaw).map (·.line) := by
  obtain ⟨⟨fuel, hfuel⟩, hunique⟩ := streamCanonicalByRun_all store runId
  constructor
  · refine ⟨fuel, ?_⟩
    simp only [exportRunStream, h, hfuel, Option.map_some]
    exact ⟨_, rfl⟩
  · intro fuel' chunks hchunks
    simp only [exportRunStream, h] at hchunks
    obtain ⟨events, hevents, hok⟩ := Option.map_eq_some_iff.1 hchunks
    have hall := hunique fuel' events hevents
    subst hall
    have hlines : chunks = (summary.headerLine :: (store.written runId includeRaw).map (·.line)).map (· ++ "\n") := by
      rw [← Except.ok.inj hok, listRawByRun_eq, Store.written, List.map_cons, List.map_append, List.map_append,
        List.map_map, List.map_map, List.map_map, List.map_map]
      rfl
    rw [hlines]
    exact textLines_join (newline_notMem_lines summary _)

/-! ### When the exports are lossless -/

omit [ReadableIntegers N] in
private theorem canonicalOf_eq_nil :
    store.canonicalOf runId = [] ↔ ∀ row ∈ store.canonicalEvents, row.runId ≠ runId := by
  rw [List.eq_nil_iff_forall_not_mem]
  constructor
  · intro h row hrow hrun
    exact h row (mem_ofRun.2 ⟨hrow, hrun⟩)
  · intro h row hrow
    obtain ⟨hmem, hrun⟩ := mem_ofRun.1 hrow
    exact h row hmem hrun

omit [ReadableIntegers N] in
/-- Only raw events are listed when the list of canonical ones is empty. -/
theorem all_raw_iff (canonical : List (StoredCanonicalEvent N)) (raw : List (StoredRawEvent N)) :
    (∀ event ∈ canonical.map StoredEvent.canonical ++ raw.map .raw, ∃ row, event = .raw row) ↔ canonical = [] := by
  constructor
  · intro h
    refine List.eq_nil_iff_forall_not_mem.2 fun event hevent => ?_
    obtain ⟨row, hrow⟩ := h (.canonical event) (List.mem_append_left _ (List.mem_map_of_mem hevent))
    cases hrow
  · rintro rfl event hevent
    obtain ⟨row, -, rfl⟩ := List.mem_map.1 (by simpa using hevent)
    exact ⟨row, rfl⟩

private theorem losslessJsonl_iff (h : store.summaries runId = some summary) (options : ExportOptions) :
    LosslessJsonl store runId options ↔ options.includeCanonical = some false ∨ options.eventLimit = some 0 ∨
      ∀ row ∈ store.canonicalEvents, row.runId ≠ runId := by
  obtain ⟨text, hok, hlines⟩ := textLines_exportRunJsonl h options
  have hiff : LosslessJsonl store runId options ↔ Lossless text (store.requested runId options) := by
    constructor
    · rintro ⟨text', hok', hlossless⟩
      rw [hok] at hok'
      rwa [Except.ok.inj hok']
    · exact fun hlossless => ⟨text, hok, hlossless⟩
  rw [hiff, lossless_iff hlines, Store.requested, all_raw_iff, ← canonicalOf_eq_nil]
  by_cases hcanonical : options.includeCanonical = some false
  · simp [hcanonical]
  · have hlimit : options.eventLimit.getD 10000 = 0 ↔ options.eventLimit = some 0 := by
      cases options.eventLimit with
      | none => simp
      | some limit => simp
    simp [hcanonical, List.take_eq_nil_iff, hlimit]

private theorem losslessStream_iff (h : store.summaries runId = some summary) (includeRaw : Option Bool) :
    LosslessStream store runId includeRaw ↔ (∀ row ∈ store.canonicalEvents, row.runId ≠ runId) ∧
      (includeRaw = some true → (store.rawEvents.filter fun row => row.runId = runId).length ≤ 100000) := by
  obtain ⟨⟨fuel, chunks, hok⟩, hlines⟩ := textLines_exportRunStream h includeRaw
  have hlength : (store.rawOf runId).length = (store.rawEvents.filter fun row => row.runId = runId).length :=
    List.length_mergeSort _
  have hcut : store.written runId includeRaw = store.streamed runId includeRaw ↔
      (includeRaw = some true → (store.rawOf runId).length ≤ 100000) := by
    unfold Store.written Store.streamed
    by_cases hraw : includeRaw = some true
    · rw [if_pos hraw, if_pos hraw]
      constructor
      · intro heq _
        have hlengths := congrArg List.length heq
        simp only [List.length_append, List.length_map, List.length_take] at hlengths
        omega
      · intro hle
        rw [List.take_of_length_le (hle hraw)]
    · simp [hraw]
  rw [← canonicalOf_eq_nil, ← hlength, ← hcut]
  constructor
  · rintro ⟨fuel', chunks', hok', hlossless⟩
    have hwritten := hlines fuel' chunks' hok'
    -- the events of the lines that are written are those of the run, so that nothing has been cut off
    have hlisted := congrArg List.length hlossless.listed
    rw [hwritten, List.tail_cons, List.length_map, List.length_map] at hlisted
    have heq : store.written runId includeRaw = store.streamed runId includeRaw := by
      refine hcut.2 fun hraw => ?_
      simp only [Store.written, Store.streamed, if_pos hraw, List.length_append, List.length_map,
        List.length_take] at hlisted
      omega
    refine ⟨?_, heq⟩
    rw [heq] at hwritten
    exact (all_raw_iff _ _).1 ((lossless_iff hwritten).1 hlossless)
  · rintro ⟨hnil, heq⟩
    refine ⟨fuel, chunks, hok, ?_⟩
    have hwritten := hlines fuel chunks hok
    rw [heq] at hwritten
    exact (lossless_iff hwritten).2 ((all_raw_iff _ _).2 hnil)

/-- A run is exported without loss if and only if no canonical event is in the export, and the stream of the run has
at most 100000 raw events to write. -/
theorem exports_lossless_iff (h : store.summaries runId = some summary) (options : ExportOptions) :
    (LosslessJsonl store runId options ↔ options.includeCanonical = some false ∨ options.eventLimit = some 0 ∨
      ∀ row ∈ store.canonicalEvents, row.runId ≠ runId) ∧
    (LosslessStream store runId options.includeRaw ↔ (∀ row ∈ store.canonicalEvents, row.runId ≠ runId) ∧
      (options.includeRaw = some true → (store.rawEvents.filter fun row => row.runId = runId).length ≤ 100000)) :=
  ⟨losslessJsonl_iff h options, losslessStream_iff h options.includeRaw⟩

end Listing

section Example

def created : StoredCanonicalEvent (Option Rat) where
  id := "event-1"
  runId := "run-1"
  seq := 1
  ts := "2026-01-01T00:00:00.000Z"
  type := .runCreated
  subjectKind := some .run
  subjectId := some "run-1"
  sourceKind := "macp-control-plane"
  sourceName := "run-manager"
  rawType := none
  traceId := none
  spanId := none
  parentSpanId := none
  data := [("status", .str "queued")]
  schemaVersion := 3
  createdAt := "2026-01-01T00:00:00.000Z"
  fits := by decide
  seq_pos := by decide
  seq_lt := by decide
  schemaVersion_lt := by decide
  data_wellFormed := by simp [WellFormed, WellFormedFields]

def snapshot : StoredRawEvent (Option Rat) where
  id := "raw-1"
  runId := "run-1"
  seq := 1
  ts := "2026-01-01T00:00:00.000Z"
  kind := "session-snapshot"
  sourceName := "runtime"
  payload := [("type", .str "session-snapshot")]
  traceId := none
  spanId := none
  createdAt := "2026-01-01T00:00:00.000Z"
  fits := by decide
  seq_pos := by decide
  seq_lt := by decide
  payload_wellFormed := by simp [WellFormed, WellFormedFields]

def summary : RunSummary (Option Rat) where
  run := .obj [("id", .str "run-1")]
  session := .null
  projection := .null
  metrics := .null
  artifacts := .arr []
  exportedAt := "2026-01-01T00:00:01.000Z"
  wellFormed := by simp [WellFormed, WellFormedFields, WellFormedItems]

/-- A run with a canonical and a raw event. -/
def exported : Store (Option Rat) where
  summaries := fun runId => if runId = "run-1" then some summary else none
  canonicalEvents := [created]
  rawEvents := [snapshot]
  canonical_unique := by simp
  raw_unique := by simp

/-- Without the canonical event the export is lossless, and with it it is not. -/
theorem raw_events_exported :
    LosslessJsonl exported "run-1" { includeCanonical := some false, includeRaw := some true } ∧
      ¬ LosslessStream exported "run-1" (some true) := by
  have h : exported.summaries "run-1" = some summary := rfl
  have hiff := exports_lossless_iff h { includeCanonical := some false, includeRaw := some true }
  exact ⟨hiff.1.2 (Or.inl rfl), fun hlossless => (hiff.2.1 hlossless).1 created (by simp [exported]) rfl⟩

/-- The own type of an event is in neither export. -/
theorem own_type_lost : ¬ LosslessJsonl exported "run-1" {} ∧ ¬ LosslessStream exported "run-1" none := by
  have h : exported.summaries "run-1" = some summary := rfl
  have hcreated : created ∈ exported.canonicalEvents := by simp [exported]
  constructor
  · intro hlossless
    rcases (losslessJsonl_iff h {}).1 hlossless with hoption | hlimit | hnone
    · cases hoption
    · cases hlimit
    · exact hnone created hcreated rfl
  · intro hlossless
    exact ((losslessStream_iff h none).1 hlossless).1 created hcreated rfl

end Example

end RunExport

end MacpControlPlane

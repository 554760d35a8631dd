import MacpControlPlane.Lib.Paging
import MacpControlPlane.Storage.EventRepository

/-!
# The event listings (`event.repository.ts`, `runs.controller.ts`, `events.controller.ts`)

`GET /runs/:id/events` and `GET /events` list stored events in the order of their timestamps and their sequence
numbers.  The cursor of a page is the sequence number of its last row.
-/

namespace MacpControlPlane

open Js

variable {N : Type}

/-- The columns of `runs` that the listings read; `scenarioRef` is `metadata->>'scenarioRef'`. -/
structure RunReference where
  id : String
  sourceRef : Option String
  scenarioRef : Option String

/-- The stored events.  Ids and the sequence numbers of a run are unique, an event belongs to a run, and
`allocateSequence` starts at 1. -/
structure EventLog (N : Type) where
  runs : List RunReference
  events : List (CanonicalRow N)
  runIds : (runs.map (·.id)).Nodup
  owned : ∀ row ∈ events, row.runId ∈ runs.map (·.id)
  ids : (events.map (·.id)).Nodup
  runSeqs : (events.map fun row => (row.runId, row.seq)).Nodup
  seq_pos : ∀ row ∈ events, 1 ≤ row.seq

/-- `(ts, seq)`, compared as the database compares it. -/
def CanonicalRow.rank (instant : String → Int) (row : CanonicalRow N) : Int ×ₗ Nat := toLex (instant row.ts, row.seq)

/-- What the queries leave to the database: the instant that a `timestamptz` literal denotes, `ILIKE`, and the order of
rows with the same timestamp and sequence number. -/
structure Database (N : Type) where
  instant : String → Int
  ilike : String → String → Bool
  orderBy : List (CanonicalRow N) → List (CanonicalRow N)
  orderBy_perm : ∀ rows, (orderBy rows).Perm rows
  orderBy_sorted : ∀ rows, ((orderBy rows).map (·.rank instant)).Pairwise (· ≤ ·)

/-- `s` if it is truthy. -/
def present (s : Option String) : Option String := s.filter (· ≠ "")

namespace EventRepository

/-- `listCanonicalByRun` -/
def listCanonicalByRun (table : List (CanonicalRow N)) (runId : String) (afterSeq limit : Nat) :
    List (CanonicalRow N) :=
  ((table.filter fun row => row.runId = runId && afterSeq < row.seq).mergeSort fun a b => a.seq ≤ b.seq).take limit

structure CanonicalEventFilter where
  runId : Option String := none
  afterSeq : Option Nat
  afterTs : Option String
  beforeTs : Option String
  types : Option (List String)
  scenarioRef : Option String := none
  limit : Option Nat

variable (db : Database N) (log : EventLog N)

def buildCanonicalWhere (filter : CanonicalEventFilter) : List (CanonicalRow N → Bool) :=
  ((present filter.runId).map fun runId row => decide (row.runId = runId)).toList ++
  ((filter.afterSeq.filter (0 < ·)).map fun afterSeq row => decide (afterSeq < row.seq)).toList ++
  ((present filter.afterTs).map fun afterTs row => decide (db.instant afterTs ≤ db.instant row.ts)).toList ++
  ((present filter.beforeTs).map fun beforeTs row => decide (db.instant row.ts < db.instant beforeTs)).toList ++
  ((filter.types.filter (0 < ·.length)).map fun types row => types.contains row.type.name).toList

/-- The run of the row, which the join finds, has the reference. -/
def hasScenario (scenarioRef : String) (row : CanonicalRow N) : Bool :=
  (log.runs.find? (·.id = row.runId)).any fun run =>
    run.sourceRef = some scenarioRef || run.scenarioRef.any (db.ilike · ("%" ++ scenarioRef ++ "%"))

/-- The rows that the queries of `listCanonicalFiltered` select and count. -/
def selectCanonical (filter : CanonicalEventFilter) : List (CanonicalRow N) :=
  let conditions := buildCanonicalWhere db filter
  match present filter.scenarioRef with
  | some scenarioRef => log.events.filter fun row => conditions.all (· row) && hasScenario db log scenarioRef row
  | none => log.events.filter fun row => conditions.all (· row)

def listCanonicalFiltered (filter : CanonicalEventFilter) : List (CanonicalRow N) × Nat :=
  let selected := selectCanonical db log filter
  ((db.orderBy selected).take (filter.limit.getD 200), selected.length)

end EventRepository

open EventRepository

structure ListEventsQueryDto where
  afterSeq : Option Nat
  limit : Option Nat
  limit_min : ∀ n ∈ limit, 1 ≤ n
  afterTs : Option String
  beforeTs : Option String
  type : Option String

structure ListCrossRunEventsQueryDto extends ListEventsQueryDto where
  scenarioRef : Option String
  runId : Option String

/-- A cursor page, as the API returns it. -/
structure EventPage (N : Type) where
  data : List (CanonicalRow N)
  total : Nat
  limit : Nat
  nextCursor : Option Nat

/-- `type.split(',').map((t) => t.trim()).filter(Boolean)` -/
def ListEventsQueryDto.types (query : ListEventsQueryDto) : Option (List String) :=
  (present query.type).map fun type => ((type.splitOn ",").map trim).filter (· ≠ "")

/-- The query has a time or a type filter. -/
def ListEventsQueryDto.isFiltered (query : ListEventsQueryDto) : Bool :=
  (present query.afterTs).isSome || (present query.beforeTs).isSome || (present query.type).isSome

section Handlers

variable (db : Database N) (log : EventLog N)

/-- `GET /runs/:id/events` -/
def getRunEvents (id : String) (query : ListEventsQueryDto) : List (CanonicalRow N) ⊕ EventPage N :=
  if !query.isFiltered then
    .inl (listCanonicalByRun log.events id (query.afterSeq.getD 0) (query.limit.getD 200))
  else
    let (data, total) := listCanonicalFiltered db log
      { runId := some id, afterSeq := query.afterSeq, afterTs := query.afterTs, beforeTs := query.beforeTs,
        types := query.types, limit := some (query.limit.getD 200) }
    let limit := query.limit.getD 200
    .inr { data, total, limit, nextCursor := if 0 < data.length then data.getLast?.map (·.seq) else none }

/-- `GET /events` -/
def listEvents (query : ListCrossRunEventsQueryDto) : EventPage N :=
  let (data, total) := listCanonicalFiltered db log
    { runId := query.runId, afterSeq := query.afterSeq, afterTs := query.afterTs, beforeTs := query.beforeTs,
      types := query.types, scenarioRef := query.scenarioRef, limit := some (query.limit.getD 500) }
  let limit := query.limit.getD 500
  { data, total, limit, nextCursor := if data.length = limit then data.getLast?.map (·.seq) else none }

end Handlers

/-- A request for a listing that has cursors: of a run with a time or a type filter, or of all runs. -/
inductive EventListing where
  | ofRun (id : String) (query : ListEventsQueryDto) (filtered : query.isFiltered = true)
  | crossRun (query : ListCrossRunEventsQueryDto)

namespace EventListing

variable (db : Database N) (log : EventLog N)

/-- The data and the cursor of the page that the listing returns for `afterSeq`. -/
def request : EventListing → Option Nat → List (CanonicalRow N) × Option Nat
  | .ofRun id query _, afterSeq =>
    match getRunEvents db log id { query with afterSeq } with
    | .inl data => (data, none)
    | .inr page => (page.data, page.nextCursor)
  | .crossRun query, afterSeq =>
    let page := listEvents db log { query with afterSeq }
    (page.data, page.nextCursor)

def filter : EventListing → CanonicalEventFilter
  | .ofRun id query _ =>
    { runId := some id, afterSeq := none, afterTs := query.afterTs, beforeTs := query.beforeTs, types := query.types,
      limit := query.limit }
  | .crossRun query =>
    { runId := query.runId, afterSeq := none, afterTs := query.afterTs, beforeTs := query.beforeTs,
      types := query.types, scenarioRef := query.scenarioRef, limit := query.limit }

/-- The stored events that match the filters of the listing. -/
def matching (listing : EventListing) : List (CanonicalRow N) := selectCanonical db log listing.filter

def limit : EventListing → Nat
  | .ofRun _ query _ => query.limit.getD 200
  | .crossRun query => query.limit.getD 500

/-- The listing of a run returns a cursor with every page that has rows. -/
def always : EventListing → Bool
  | .ofRun .. => true
  | .crossRun _ => false

/-- The sequence numbers of the matching events in the order `(ts, seq)`. -/
def seqs (listing : EventListing) : List Nat :=
  (((listing.matching db log).map (·.rank db.instant)).insertionSort (· ≤ ·)).map fun rank => (ofLex rank).2

/-! ### The pages -/

variable {db : Database N} {log : EventLog N}

private theorem all_toList_map {α β : Type} (o : Option α) (f : α → β → Bool) (b : β) :
    (o.map f).toList.all (· b) = o.all (f · b) := by
  cases o <;> simp

/-- A cursor of the listing leaves out the matching rows up to it. -/
theorem selectCanonical_afterSeq (filter : CanonicalEventFilter) (afterSeq : Option Nat) :
    selectCanonical db log { filter with afterSeq } =
      (selectCanonical db log { filter with afterSeq := none }).filter fun row => afterSeq.all (· < row.seq) := by
  have hall : ∀ row ∈ log.events, (buildCanonicalWhere db { filter with afterSeq }).all (· row) =
      ((buildCanonicalWhere db { filter with afterSeq := none }).all (· row) && afterSeq.all (· < row.seq)) := by
    intro row hrow
    have hpos := log.seq_pos row hrow
    have hcursor : (afterSeq.filter (0 < ·)).all (· < row.seq) = afterSeq.all (· < row.seq) := by
      cases afterSeq with
      | none => rfl
      | some n =>
        by_cases hn : 0 < n
        · simp [hn]
        · simp [show n = 0 by omega, show 0 < row.seq by omega]
    simp only [buildCanonicalWhere, List.all_append, all_toList_map, hcursor, Option.filter_none, Option.all_none,
      Bool.and_true]
    ac_rfl
  unfold selectCanonical
  dsimp only
  cases present filter.scenarioRef with
  | none =>
    rw [List.filter_filter]
    refine List.filter_congr fun row hrow => ?_
    rw [hall row hrow, Bool.and_comm]
  | some scenarioRef =>
    rw [List.filter_filter]
    refine List.filter_congr fun row hrow => ?_
    rw [hall row hrow]
    ac_rfl

private theorem limit_pos (listing : EventListing) : 1 ≤ listing.limit := by
  have hgetD : ∀ (query : ListEventsQueryDto) (n : Nat), 1 ≤ n → 1 ≤ query.limit.getD n := by
    intro query n hn
    cases hlimit : query.limit with
    | none => exact hn
    | some m => exact query.limit_min m hlimit
  cases listing with
  | ofRun id query filtered => exact hgetD query 200 (by omega)
  | crossRun query => exact hgetD query.toListEventsQueryDto 500 (by omega)

/-- The listing, as one that follows a cursor. -/
def paging (db : Database N) (listing : EventListing) : Paging.Listing (CanonicalRow N) (Int ×ₗ Nat) where
  rank := (·.rank db.instant)
  cursor rank := (ofLex rank).2
  orderBy := db.orderBy
  orderBy_perm := db.orderBy_perm
  orderBy_sorted := db.orderBy_sorted
  limit := listing.limit
  limit_pos := listing.limit_pos
  always := listing.always

private theorem page_eq (listing : EventListing) (afterSeq : Option Nat) :
    (listing.paging db).page (listing.matching db log) afterSeq =
      (db.orderBy (selectCanonical db log { listing.filter with afterSeq })).take listing.limit := by
  rw [selectCanonical_afterSeq]
  cases listing <;> rfl

/-- With a filter, a run's listing returns the last sequence number of any page that has rows. -/
theorem getRunEvents_of_isFiltered {id : String} {query : ListEventsQueryDto} (h : query.isFiltered = true) :
    let (data, total) := listCanonicalFiltered db log
      { runId := some id, afterSeq := query.afterSeq, afterTs := query.afterTs, beforeTs := query.beforeTs,
        types := query.types, limit := some (query.limit.getD 200) }
    getRunEvents db log id query =
      .inr { data, total, limit := query.limit.getD 200, nextCursor := data.getLast?.map (·.seq) } := by
  have hlast : ∀ data : List (CanonicalRow N),
      (if 0 < data.length then data.getLast?.map (·.seq) else none) = data.getLast?.map (·.seq) := by
    intro data
    cases data with
    | nil => rfl
    | cons row data => simp
  simp only [getRunEvents, h, Bool.not_true, Bool.false_eq_true, if_false, hlast]

private theorem request_eq (listing : EventListing) :
    listing.request db log = (listing.paging db).request (listing.matching db log) := by
  funext afterSeq
  have hpage : (listing.paging db).page (listing.matching db log) afterSeq = _ := page_eq listing afterSeq
  cases listing with
  | ofRun id query filtered =>
    have hfiltered : ({ query with afterSeq } : ListEventsQueryDto).isFiltered = true := filtered
    have hget : getRunEvents db log id { query with afterSeq } = _ := getRunEvents_of_isFiltered hfiltered
    unfold request Paging.Listing.request
    dsimp only
    rw [hget, Paging.Listing.next_of_always rfl, hpage]
    rfl
  | crossRun query =>
    unfold Paging.Listing.request
    rw [Paging.Listing.next_of_not_always rfl, hpage]
    rfl

/-- The pages of a listing visit every matching event exactly once if and only if, at the end of every page, the last
sequence number is greatest so far and less than those to come. -/
theorem pages_complete_iff (db : Database N) (log : EventLog N) (listing : EventListing) :
    Paging.Complete (listing.request db log) (listing.matching db log) none ↔
      Paging.Tiled listing.always listing.limit (listing.seqs db log) := by
  have hnodup : (listing.matching db log).Nodup := by
    have hevents : log.events.Nodup := List.Nodup.of_map _ log.ids
    unfold matching selectCanonical
    dsimp only
    split <;> exact hevents.filter _
  have h := (listing.paging db).complete_iff hnodup none
  rw [Paging.Listing.rest_none] at h
  rw [request_eq]
  exact h

/-! ### Two runs -/

/-- The literals of the example, in the order of time. -/
def instants : List String := ["2026-10-24T00:00:00.000Z", "2026-10-24T00:00:01.000Z"]

def exampleInstant (ts : String) : Int := instants.idxOf ts

def exampleDatabase : Database (Option Rat) where
  instant := exampleInstant
  ilike text pattern := text = pattern
  orderBy rows := rows.insertionSort fun a b => a.rank exampleInstant ≤ b.rank exampleInstant
  orderBy_perm rows := List.perm_insertionSort _ _
  orderBy_sorted rows := by
    have : Std.Total fun a b : CanonicalRow (Option Rat) => a.rank exampleInstant ≤ b.rank exampleInstant :=
      ⟨fun a b => le_total _ _⟩
    have : IsTrans (CanonicalRow (Option Rat)) fun a b => a.rank exampleInstant ≤ b.rank exampleInstant :=
      ⟨fun a b c => le_trans⟩
    exact List.pairwise_map.2 (List.pairwise_insertionSort _ rows)

def firstRun : String := "0d6bd1a2-54c0-4b4e-8c2c-3b7fd6a53c01"

def secondRun : String := "7c1e6a3b-2f0d-4a52-9d3e-8f6b1f0f2c02"

def exampleRow (id runId : String) (seq : Nat) (ts : String) : CanonicalRow (Option Rat) where
  id := id
  runId := runId
  seq := seq
  ts := ts
  type := .messageReceived
  subjectKind := none
  subjectId := none
  sourceKind := "runtime"
  sourceName := "rust-runtime"
  rawType := none
  traceId := none
  spanId := none
  parentSpanId := none
  data := []
  schemaVersion := 3

/-- The first event of the second run has a later timestamp than its second one. -/
def exampleLog : EventLog (Option Rat) where
  runs := [⟨firstRun, none, none⟩, ⟨secondRun, none, none⟩]
  events :=
    [exampleRow "5f0c9a54-0a57-4c1e-a6a3-6f1f0e0d1a01" firstRun 1 "2026-10-24T00:00:00.000Z",
      exampleRow "5f0c9a54-0a57-4c1e-a6a3-6f1f0e0d1a02" secondRun 1 "2026-10-24T00:00:01.000Z",
      exampleRow "5f0c9a54-0a57-4c1e-a6a3-6f1f0e0d1a03" secondRun 2 "2026-10-24T00:00:00.000Z"]
  runIds := by decide +kernel
  owned := by decide +kernel
  ids := by decide +kernel
  runSeqs := by decide +kernel
  seq_pos := by decide +kernel

def oneByOne : ListEventsQueryDto where
  afterSeq := none
  limit := some 1
  limit_min := by simp
  afterTs := some "2026-10-24T00:00:00.000Z"
  beforeTs := none
  type := none

/-- `GET /events`, one event a page. -/
def allOneByOne : EventListing := .crossRun { oneByOne with scenarioRef := none, runId := none }

/-- `GET /runs/:id/events` of the second run, one event a page. -/
def secondOneByOne : EventListing := .ofRun secondRun oneByOne rfl

/-- Page by page, neither listing comes to the later event of the second run. -/
theorem pages_not_complete_oneByOne :
    ¬ Paging.Complete (allOneByOne.request exampleDatabase exampleLog)
      (allOneByOne.matching exampleDatabase exampleLog) none ∧
    ¬ Paging.Complete (secondOneByOne.request exampleDatabase exampleLog)
      (secondOneByOne.matching exampleDatabase exampleLog) none := by
  constructor
  · have h : (Paging.follow (allOneByOne.request exampleDatabase exampleLog) 3 none).map (List.map (·.id)) =
        some ["5f0c9a54-0a57-4c1e-a6a3-6f1f0e0d1a01", "5f0c9a54-0a57-4c1e-a6a3-6f1f0e0d1a03"] := by decide +kernel
    exact Paging.not_complete h (by decide +kernel)
  · have h : (Paging.follow (secondOneByOne.request exampleDatabase exampleLog) 2 none).map (List.map (·.id)) =
        some ["5f0c9a54-0a57-4c1e-a6a3-6f1f0e0d1a03"] := by decide +kernel
    exact Paging.not_complete h (by decide +kernel)

end EventListing

end MacpControlPlane

import MacpControlPlane.Contracts

/-!
# The canonical event log (`storage/event.repository.ts`)

An event is stored as flat columns.  `appendCanonical` skips a row whose id, or whose run and sequence number, is
taken; `listCanonicalUpTo` reads the rows of a run in the order of their sequence numbers.
-/

namespace MacpControlPlane

open Js

variable {N : Type}

/-- The columns of `run_events_canonical`.  A `timestamptz` column holds the instant it stores. -/
structure CanonicalRow (N : Type) where
  id : String
  runId : String
  seq : Nat
  ts : String
  type : CanonicalEventType
  subjectKind : Option SubjectKind
  subjectId : Option String
  sourceKind : String
  sourceName : String
  rawType : Option String
  traceId : Option String
  spanId : Option String
  parentSpanId : Option String
  data : JsonObject N
  schemaVersion : Nat

/-- The values that `appendCanonical` inserts for an event. -/
def CanonicalRow.ofEvent (event : CanonicalEvent N) : CanonicalRow N where
  id := event.id
  runId := event.runId
  seq := event.seq
  ts := event.ts
  type := event.type
  subjectKind := event.subject.map (·.kind)
  subjectId := event.subject.map (·.id)
  sourceKind := event.source.kind.name
  sourceName := event.source.name
  rawType := event.source.rawType
  traceId := event.trace.bind (·.traceId)
  spanId := event.trace.bind (·.spanId)
  parentSpanId := event.trace.bind (·.parentSpanId)
  data := event.data
  schemaVersion := event.schemaVersion.getD 3

/-- The primary key or the unique index on `(run_id, seq)` rejects the row. -/
def CanonicalRow.conflicts (row other : CanonicalRow N) : Bool :=
  row.id = other.id || (row.runId = other.runId && row.seq = other.seq)

namespace EventRepository

/-- `INSERT … ON CONFLICT DO NOTHING` of one row. -/
def insertRow (table : List (CanonicalRow N)) (row : CanonicalRow N) : List (CanonicalRow N) :=
  if table.any row.conflicts then table else table ++ [row]

def appendCanonical (table : List (CanonicalRow N)) (events : List (CanonicalEvent N)) : List (CanonicalRow N) :=
  events.foldl (fun table event => insertRow table (.ofEvent event)) table

/-- `listCanonicalUpTo`; without `seq` it reads all rows of the run. -/
def listCanonicalUpTo (table : List (CanonicalRow N)) (runId : String) (seq : Option Nat := none) :
    List (CanonicalRow N) :=
  (table.filter fun row => row.runId = runId && seq.all (row.seq ≤ ·)).mergeSort fun a b => a.seq ≤ b.seq

/-- Events whose ids and sequence numbers are not taken twice. -/
structure Distinct (es : List (CanonicalEvent N)) : Prop where
  ids : (es.map (·.id)).Nodup
  seqs : (es.map fun e => (e.runId, e.seq)).Nodup

theorem Distinct.of_append {es fs : List (CanonicalEvent N)} (h : Distinct (es ++ fs)) : Distinct es := by
  refine ⟨?_, ?_⟩
  · have hids := h.ids
    rw [List.map_append] at hids
    exact (List.nodup_append.1 hids).1
  · have hseqs := h.seqs
    rw [List.map_append] at hseqs
    exact (List.nodup_append.1 hseqs).1

/-- Rows that take no id and no sequence number twice do not conflict. -/
theorem pairwise_not_conflicts {rows : List (CanonicalRow N)} (hids : (rows.map (·.id)).Nodup)
    (hseqs : (rows.map fun row => (row.runId, row.seq)).Nodup) :
    rows.Pairwise fun a b => b.conflicts a = false := by
  rw [List.Nodup, List.pairwise_map] at hids hseqs
  refine (hids.and hseqs).imp ?_
  rintro a b ⟨hid, hseq⟩
  rw [Bool.eq_false_iff]
  intro hconflict
  unfold CanonicalRow.conflicts at hconflict
  rw [Bool.or_eq_true, Bool.and_eq_true] at hconflict
  rcases hconflict with heq | ⟨hrun, heq⟩
  · exact hid (of_decide_eq_true heq).symm
  · exact hseq (Prod.ext (of_decide_eq_true hrun).symm (of_decide_eq_true heq).symm)

/-- Events whose rows conflict with nothing are all stored, in order. -/
theorem appendCanonical_eq_append {table : List (CanonicalRow N)} {es : List (CanonicalEvent N)}
    (h : (table ++ es.map CanonicalRow.ofEvent).Pairwise fun a b => b.conflicts a = false) :
    appendCanonical table es = table ++ es.map CanonicalRow.ofEvent := by
  induction es generalizing table with
  | nil => rw [List.map_nil, List.append_nil]; rfl
  | cons e es ih =>
    have hsplit : table ++ (e :: es).map CanonicalRow.ofEvent =
      table ++ [.ofEvent e] ++ es.map CanonicalRow.ofEvent := by
      rw [List.map_cons, List.append_assoc, List.singleton_append]
    have hnone : table.any (CanonicalRow.ofEvent e).conflicts = false := by
      rw [List.any_eq_false]
      intro row hrow hconflict
      rw [(List.pairwise_append.1 h).2.2 row hrow (.ofEvent e) (by simp)] at hconflict
      exact Bool.false_ne_true hconflict
    have hinsert : insertRow table (.ofEvent e) = table ++ [.ofEvent e] := by
      rw [insertRow, hnone]
      rfl
    rw [hsplit] at h ⊢
    rw [← ih h, ← hinsert]
    rfl

/-- Events that take nothing twice are all stored, in order. -/
theorem appendCanonical_eq_map {es : List (CanonicalEvent N)} (h : Distinct es) :
    appendCanonical [] es = es.map CanonicalRow.ofEvent := by
  refine appendCanonical_eq_append (pairwise_not_conflicts ?_ ?_)
  · rw [List.nil_append, List.map_map]
    exact h.ids
  · rw [List.nil_append, List.map_map]
    exact h.seqs

/-- Rows of one run that are stored in the order of their sequence numbers are read as they are. -/
theorem listCanonicalUpTo_of_increasing {table : List (CanonicalRow N)} {runId : String}
    (hrun : ∀ row ∈ table, row.runId = runId)
    (hincreasing : (table.map (·.seq)).Pairwise (· < ·)) : listCanonicalUpTo table runId = table := by
  have hfilter : table.filter (fun row => row.runId = runId && (none : Option Nat).all (row.seq ≤ ·)) = table := by
    rw [List.filter_eq_self]
    intro row hrow
    rw [hrun row hrow]
    simp
  unfold listCanonicalUpTo
  rw [hfilter]
  refine List.mergeSort_of_pairwise ?_
  rw [List.pairwise_map] at hincreasing
  exact hincreasing.imp fun hlt => decide_eq_true (Nat.le_of_lt hlt)

/-- The rows of a run come back in the order in which they were appended, up to a sequence number. -/
theorem listCanonicalUpTo_map {es : List (CanonicalEvent N)} {runId : String}
    (hsorted : ((es.filter (·.runId = runId)).map (·.seq)).Pairwise (· < ·)) {seq : Option Nat}
    (hseq : ∀ n ∈ seq, ∀ e ∈ es.filter (·.runId = runId), e.seq ≤ n) :
    listCanonicalUpTo (es.map CanonicalRow.ofEvent) runId seq =
      (es.filter (·.runId = runId)).map CanonicalRow.ofEvent := by
  have hfilter : (es.map CanonicalRow.ofEvent).filter (fun row => row.runId = runId && seq.all (row.seq ≤ ·)) =
      (es.filter (·.runId = runId)).map CanonicalRow.ofEvent := by
    rw [List.filter_map]
    congr 1
    refine List.filter_congr fun e he => ?_
    by_cases hrun : e.runId = runId
    · have hall : seq.all (e.seq ≤ ·) = true := by
        cases seq with
        | none => rfl
        | some n => exact decide_eq_true (hseq n rfl e (List.mem_filter.2 ⟨he, decide_eq_true hrun⟩))
      show (decide (e.runId = runId) && seq.all (e.seq ≤ ·)) = _
      rw [hall, Bool.and_true]
    · show (decide (e.runId = runId) && seq.all (e.seq ≤ ·)) = _
      rw [decide_eq_false hrun, Bool.false_and]
  unfold listCanonicalUpTo
  rw [hfilter]
  refine List.mergeSort_of_pairwise ?_
  rw [List.pairwise_map] at hsorted ⊢
  refine hsorted.imp ?_
  intro d e hlt
  exact decide_eq_true (Nat.le_of_lt hlt)

end EventRepository

end MacpControlPlane

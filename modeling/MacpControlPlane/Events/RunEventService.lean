import MacpControlPlane.Contracts

/-!
# Preparing events (`events/run-event.service.ts`)

`emitControlPlaneEvents` and `persistRawAndCanonical` stamp the events with the trace of the run, give them the
sequence numbers they have allocated, and append them.  This module has the values they compute; the transactions
around them are steps of the machines that use them.
-/

namespace MacpControlPlane

open Js

variable {N : Type}

/-- `Omit<CanonicalEvent, 'id' | 'seq' | 'runId'>` -/
structure PartialEvent (N : Type) where
  ts : String
  type : CanonicalEventType
  source : EventSource
  subject : Option Subject := none
  trace : Option TraceRef := none
  data : JsonObject N
  deriving DecidableEq

namespace RunEventService

/-- The stamping of `emitControlPlaneEvents`: an event that has a trace keeps it. -/
def stampEmitted (runCtx : Option TraceRef) (event : PartialEvent N) : PartialEvent N :=
  { event with trace := event.trace.or runCtx }

/-- The stamping of `persistRawAndCanonical`: an event that has a trace id keeps its trace. -/
def stampPersisted (runCtx : Option TraceRef) (event : CanonicalEvent N) : CanonicalEvent N :=
  let traceId := (event.trace.bind (·.traceId)).getD ""
  { event with trace := if traceId = "" then runCtx.or event.trace else event.trace }

/-- An event that `emitControlPlaneEvents` has prepared. -/
def prepareEvent (runId : String) (runCtx : Option TraceRef) (id : String) (seq : Nat) (event : PartialEvent N) :
    CanonicalEvent N where
  id
  runId
  seq
  ts := event.ts
  type := event.type
  schemaVersion := some 3
  subject := event.subject
  source := event.source
  trace := (stampEmitted runCtx event).trace
  data := event.data

/-- The events that `emitControlPlaneEvents` appends, from the sequence number `startSeq` on.  `uuid` is what its
calls of `randomUUID()` return. -/
def prepareEmitted (runId : String) (runCtx : Option TraceRef) (uuid : Nat → String) (startSeq : Nat)
    (events : List (PartialEvent N)) : List (CanonicalEvent N) :=
  events.mapIdx fun index => prepareEvent runId runCtx (uuid index) (startSeq + index)

/-- The events that `persistRawAndCanonical` appends: the raw event has the sequence number `startSeq`. -/
def preparePersisted (runCtx : Option TraceRef) (uuid : Nat → String) (startSeq : Nat)
    (events : List (CanonicalEvent N)) : List (CanonicalEvent N) :=
  events.mapIdx fun index event =>
    let event := stampPersisted runCtx event
    { event with seq := startSeq + index + 1, id := if event.id = "" then uuid index else event.id }

theorem length_prepareEmitted (runId : String) (runCtx : Option TraceRef) (uuid : Nat → String) (startSeq : Nat)
    (events : List (PartialEvent N)) : (prepareEmitted runId runCtx uuid startSeq events).length = events.length :=
  List.length_mapIdx

theorem length_preparePersisted (runCtx : Option TraceRef) (uuid : Nat → String) (startSeq : Nat)
    (events : List (CanonicalEvent N)) : (preparePersisted runCtx uuid startSeq events).length = events.length :=
  List.length_mapIdx

/-- The emitted events have consecutive sequence numbers. -/
theorem map_seq_prepareEmitted (runId : String) (runCtx : Option TraceRef) (uuid : Nat → String) (startSeq : Nat)
    (events : List (PartialEvent N)) :
    (prepareEmitted runId runCtx uuid startSeq events).map (·.seq) = List.range' startSeq events.length := by
  apply List.ext_getElem
  · simp [prepareEmitted]
  · intro i _ _
    simp [prepareEmitted, prepareEvent]

/-- The persisted events have the sequence numbers that follow the one of the raw event. -/
theorem map_seq_preparePersisted (runCtx : Option TraceRef) (uuid : Nat → String) (startSeq : Nat)
    (events : List (CanonicalEvent N)) :
    (preparePersisted runCtx uuid startSeq events).map (·.seq) = List.range' (startSeq + 1) events.length := by
  apply List.ext_getElem
  · simp [preparePersisted]
  · intro i _ _
    simp [preparePersisted]
    omega

/-- What persisting keeps of an event. -/
def Kept (event stored : CanonicalEvent N) : Prop :=
  stored.runId = event.runId ∧ stored.type = event.type ∧ stored.subject = event.subject ∧ stored.data = event.data

theorem mem_preparePersisted {runCtx : Option TraceRef} {uuid : Nat → String} {startSeq : Nat}
    {events : List (CanonicalEvent N)} {stored : CanonicalEvent N}
    (h : stored ∈ preparePersisted runCtx uuid startSeq events) : ∃ event ∈ events, Kept event stored := by
  obtain ⟨index, hindex, rfl⟩ := List.mem_mapIdx.1 h
  exact ⟨events[index], List.getElem_mem hindex, rfl, rfl, rfl, rfl⟩

theorem exists_mem_preparePersisted (runCtx : Option TraceRef) (uuid : Nat → String) (startSeq : Nat)
    {events : List (CanonicalEvent N)} {event : CanonicalEvent N} (h : event ∈ events) :
    ∃ stored ∈ preparePersisted runCtx uuid startSeq events, Kept event stored := by
  obtain ⟨index, hindex, rfl⟩ := List.getElem_of_mem h
  exact ⟨_, List.mem_mapIdx.2 ⟨index, hindex, rfl⟩, rfl, rfl, rfl, rfl⟩

end RunEventService

end MacpControlPlane

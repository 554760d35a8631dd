import Mathlib.Data.List.Perm.Basic
import MacpControlPlane.Events.RunEventService
import MacpControlPlane.Events.StreamHub
import MacpControlPlane.Lib.Callers
import MacpControlPlane.Lib.HighWater
import MacpControlPlane.Lib.Machine
import MacpControlPlane.Projection.Reducer

/-!
# The event stream of a run (`controllers/runs.controller.ts`)

`streamRun` for any number of clients, with the writers that commit events of the run and publish them later on, each
batch after its metrics.  The transactions of the writers wait for each other at the row of the run, so that a commit
appends its events with the next sequence numbers.

A client drops what is not above the last event that it has been sent.  So a batch that is published after a later one
is lost to the clients that are live, and `complete` ends the response of a client even while its backfill is under
way.
-/

namespace MacpControlPlane.StreamRun

open Js HighWater

variable {N : Type}

def batchSize : Nat := 500

/-- `listCanonicalByRun`, of the rows of the run. -/
def listCanonicalByRun (log : List (CanonicalEvent N)) (afterSeq limit : Nat) : List (CanonicalEvent N) :=
  ((log.filter fun e => afterSeq < e.seq).mergeSort fun a b => a.seq ≤ b.seq).take limit

/-- Where the response to a client is. -/
inductive ClientAt (N : Type) where
  /-- `getState` -/
  | loading
  /-- `listCanonicalByRun`, before the database has read. -/
  | reading (cursor : Nat)
  /-- `listCanonicalByRun`, after it has. -/
  | paging (cursor : Nat) (rows : List (CanonicalEvent N))
  /-- `backfillDone` -/
  | live
  /-- The hub has completed; `published` is what had been published by then. -/
  | completed (published : List (CanonicalEvent N))
  /-- The client has left, or has got an error. -/
  | closed

/-- A client, with its local variables and what has been written to its response. -/
structure Client (N : Type) where
  afterSeq : Nat
  here : ClientAt N
  buffer : List (StreamHubMessage N) := []
  highSeq : Nat
  sent : List (StreamHubMessage N) := []

namespace Client

/-- The canonical events that the client has been sent. -/
def events (c : Client N) : List (CanonicalEvent N) := canonicalEvents c.sent

/-- The canonical events in the buffer. -/
def buffered (c : Client N) : List (CanonicalEvent N) := canonicalEvents c.buffer

/-- The response has not ended. -/
def isOpen (c : Client N) : Bool :=
  match c.here with
  | .completed _ | .closed => false
  | _ => true

/-- `subscriber.next` of a message that is not a repetition. -/
def push (c : Client N) (msg : StreamHubMessage N) : Client N :=
  match msg.seq with
  | some seq => if seq ≤ c.highSeq then c else { c with highSeq := seq, sent := c.sent ++ [msg] }
  | none => { c with sent := c.sent ++ [msg] }

/-- The messages of the hub, one after the other. -/
def next (c : Client N) (msgs : List (StreamHubMessage N)) : Client N :=
  match c.here with
  | .live => msgs.foldl push c
  | .completed _ | .closed => c
  | _ => { c with buffer := c.buffer ++ msgs }

/-- The end of the backfill. -/
def flush (c : Client N) : Client N := { c.buffer.foldl push c with buffer := [], here := .live }

/-- What follows the snapshot. -/
def backfill (c : Client N) : Client N :=
  if 0 < c.afterSeq then { c with here := .reading c.afterSeq } else c.flush

/-- The handler, up to its first `await`. -/
def subscribe (afterSeq : Nat) (includeSnapshot : Bool) : Client N :=
  let c : Client N := { afterSeq, here := .loading, highSeq := afterSeq }
  if includeSnapshot then c else c.backfill

/-- What the loop of the backfill does with the rows that it has read. -/
def page (c : Client N) (cursor : Nat) (rows : List (CanonicalEvent N)) : Client N :=
  let c := (rows.map .canonicalEvent).foldl push c
  if rows.length < batchSize then c.flush
  else { c with here := .reading ((rows.getLast?.map (·.seq)).getD cursor) }

/-- `subscriber.complete` -/
def complete (published : List (CanonicalEvent N)) (c : Client N) : Client N :=
  if c.isOpen then { c with here := .completed published } else c

end Client

/-- The rows of the run, the batches that are committed and have yet to be published, what has been published, the hub
and the clients. -/
structure State (N : Type) where
  lastEventSeq : Nat := 0
  log : List (CanonicalEvent N) := []
  pending : List (List (CanonicalEvent N) × RunStateProjection N) := []
  published : List (CanonicalEvent N) := []
  hub : StreamHub := {}
  clients : List (Client N) := []

/-- What can happen next. -/
inductive Action (N : Type) where
  /-- `emitControlPlaneEvents` commits. -/
  | emit (runCtx : Option TraceRef) (uuid : Nat → String) (events : List (PartialEvent N))
      (projection : RunStateProjection N)
  /-- `persistRawAndCanonical` commits. -/
  | persist (runCtx : Option TraceRef) (uuid : Nat → String) (events : List (CanonicalEvent N))
      (projection : RunStateProjection N)
  /-- The metrics of a batch are recorded, and it is published. -/
  | publish (i : Nat)
  | connect (afterSeq : Nat) (includeSnapshot : Bool)
  /-- `getState` of client `k` returns. -/
  | snapshot (k : Nat) (state : RunStateProjection N)
  /-- The database reads a page for client `k`. -/
  | read (k : Nat)
  /-- Client `k` gets the page. -/
  | receive (k : Nat)
  /-- `getState` or `listCanonicalByRun` of client `k` throws. -/
  | fail (k : Nat)
  | disconnect (k : Nat)
  /-- `streamHub.complete` -/
  | complete
  /-- The cleanup timer fires. -/
  | cleanup

/-- A transaction commits events, and takes `count` sequence numbers. -/
def State.commit (s : State N) (count : Nat) (events : List (CanonicalEvent N)) (projection : RunStateProjection N) :
    State N :=
  { s with
    lastEventSeq := s.lastEventSeq + count
    log := s.log ++ events
    pending := s.pending ++ [(events, projection)] }

/-- The response to client `k` ends, and its subscription with it. -/
def State.close (s : State N) (k : Nat) (c : Client N) : State N :=
  { s with hub := s.hub.unsubscribe, clients := s.clients.set k { c with here := .closed } }

/-- One step. -/
def next (runId : String) (s : State N) : Action N → Option (State N)
  | .emit runCtx uuid events projection =>
    if events.isEmpty then none
    else
      let prepared := RunEventService.prepareEmitted runId runCtx uuid (s.lastEventSeq + 1) events
      some (s.commit events.length prepared projection)
  | .persist runCtx uuid events projection =>
    let prepared := RunEventService.preparePersisted runCtx uuid (s.lastEventSeq + 1) events
    some (s.commit (1 + events.length) prepared projection)
  | .publish i =>
    s.pending[i]?.map fun (events, projection) =>
      { s with
        pending := s.pending.eraseIdx i
        published := s.published ++ events
        hub := s.hub.getSubject
        clients := s.clients.map fun c => c.next (events.map .canonicalEvent ++ [.snapshot projection]) }
  | .connect afterSeq includeSnapshot =>
    some { s with hub := s.hub.stream, clients := s.clients ++ [.subscribe afterSeq includeSnapshot] }
  | .snapshot k state =>
    s.clients[k]?.bind fun c =>
      match c.here with
      | .loading => some { s with clients := s.clients.set k (c.push (.snapshot state)).backfill }
      | _ => none
  | .read k =>
    s.clients[k]?.bind fun c =>
      match c.here with
      | .reading cursor =>
        let rows := listCanonicalByRun s.log cursor batchSize
        some { s with clients := s.clients.set k { c with here := .paging cursor rows } }
      | _ => none
  | .receive k =>
    s.clients[k]?.bind fun c =>
      match c.here with
      | .paging cursor rows => some { s with clients := s.clients.set k (c.page cursor rows) }
      | _ => none
  | .fail k =>
    s.clients[k]?.bind fun c =>
      match c.here with
      | .loading | .reading _ => some (s.close k c)
      | _ => none
  | .disconnect k => s.clients[k]?.bind fun c => if c.isOpen then some (s.close k c) else none
  | .complete =>
    let clients := if s.hub.subject then s.clients.map (Client.complete s.published) else s.clients
    some { s with hub := s.hub.complete, clients }
  | .cleanup =>
    if s.hub.cleanupTimer then
      let clients := if s.hub.abandons then s.clients.map (Client.complete s.published) else s.clients
      some { s with hub := s.hub.cleanup, clients }
    else none

/-- A process that has just started, with the rows of a run whose events have been published before. -/
def machine (runId : String) : Machine (State N) (Action N) where
  start s := ∃ lastEventSeq log, Increasing CanonicalEvent.seq log ∧ (∀ e ∈ log, e.seq ≤ lastEventSeq) ∧
    s = { lastEventSeq, log, published := log }
  next := next runId

/-! ### What the clients are sent -/

/-- A client that is live has been sent the published events after `afterSeq`, each once and in order, and no others
than committed events after `afterSeq`. -/
def Delivered (s : State N) : Prop :=
  ∀ c ∈ s.clients, 0 < c.afterSeq → c.here = .live →
    Increasing CanonicalEvent.seq c.events ∧ (∀ e ∈ c.events, e ∈ s.log ∧ c.afterSeq < e.seq) ∧
      ∀ e ∈ s.published, c.afterSeq < e.seq → e ∈ c.events

/-- No batch is overtaken at a client: a live client is sent a batch before anything later, unless its backfill has
had the batch, and the buffer that a backfill leaves behind is in order. -/
def InOrder (s : State N) : Action N → Prop
  | .publish i =>
    ∀ events projection, s.pending[i]? = some (events, projection) →
      ∀ c ∈ s.clients, 0 < c.afterSeq → c.here = .live →
        ∀ e ∈ events, c.highSeq < e.seq ∨ e.seq ≤ c.afterSeq ∨ e ∈ c.events
  | .receive k =>
    ∀ (c : Client N) (cursor : Nat) (rows : List (CanonicalEvent N)), s.clients[k]? = some c → 0 < c.afterSeq →
      c.here = .paging cursor rows → rows.length < batchSize →
        Increasing CanonicalEvent.seq
          (c.buffered.filter fun e => (rows.getLast?.map (·.seq)).getD cursor < e.seq)
  | _ => True

/-- A client whose response has ended with the hub has been sent the events after `afterSeq` that had been published
by then. -/
def Untruncated (s : State N) : Prop :=
  ∀ c ∈ s.clients, 0 < c.afterSeq → ∀ published, c.here = .completed published →
    ∀ e ∈ published, c.afterSeq < e.seq → e ∈ c.events

/-- `complete` does not come before the backfill of a client has got to the last published event. -/
def CaughtUp (s : State N) : Action N → Prop
  | .complete =>
    ∀ c ∈ s.clients, 0 < c.afterSeq → c.isOpen = true → c.here ≠ .live →
      ∀ e ∈ s.published, c.afterSeq < e.seq → e.seq ≤ c.highSeq
  | _ => True

/-! ### One client -/

theorem increasing_of_map_seq {events : List (CanonicalEvent N)} {startSeq count : Nat}
    (h : events.map (·.seq) = List.range' startSeq count) :
    Increasing CanonicalEvent.seq events ∧ ∀ e ∈ events, startSeq ≤ e.seq ∧ e.seq < startSeq + count := by
  refine ⟨?_, fun e he => ?_⟩
  · have hlt : (events.map (·.seq)).Pairwise (· < ·) := by
      rw [h]
      exact List.pairwise_lt_range'
    exact List.pairwise_map.1 hlt
  · have hmem : e.seq ∈ events.map (·.seq) := List.mem_map_of_mem he
    rw [h] at hmem
    simpa using hmem

theorem canonicalEvents_batch (events : List (CanonicalEvent N)) (projection : RunStateProjection N) :
    canonicalEvents (events.map .canonicalEvent ++ [.snapshot projection]) = events := by
  rw [canonicalEvents_append, canonicalEvents_map]
  exact List.append_nil events

private theorem listCanonicalByRun_eq {log : List (CanonicalEvent N)} (h : Increasing CanonicalEvent.seq log)
    (afterSeq limit : Nat) :
    listCanonicalByRun log afterSeq limit = (log.filter fun e => afterSeq < e.seq).take limit := by
  rw [listCanonicalByRun, List.mergeSort_of_pairwise]
  exact (h.filter _).imp fun hlt => by simpa using Nat.le_of_lt hlt

theorem mem_listCanonicalByRun {log : List (CanonicalEvent N)} {afterSeq limit : Nat} {e : CanonicalEvent N}
    (h : e ∈ listCanonicalByRun log afterSeq limit) : e ∈ log ∧ afterSeq < e.seq := by
  have hmem := List.mem_filter.1 (List.mem_mergeSort.1 (List.mem_of_mem_take h))
  exact ⟨hmem.1, by simpa using hmem.2⟩

theorem listCanonicalByRun_eq_nil {log : List (CanonicalEvent N)} {afterSeq : Nat} (h : ∀ e ∈ log, e.seq ≤ afterSeq)
    (limit : Nat) : listCanonicalByRun log afterSeq limit = [] := by
  refine List.eq_nil_iff_forall_not_mem.2 fun e he => ?_
  obtain ⟨hmem, hlt⟩ := mem_listCanonicalByRun he
  have := h e hmem
  omega

namespace Client

variable {c : Client N}

@[simp] theorem events_push_canonicalEvent (c : Client N) (e : CanonicalEvent N) :
    (c.push (.canonicalEvent e)).events = c.events ++ pass CanonicalEvent.seq c.highSeq [e] ∧
      (c.push (.canonicalEvent e)).highSeq = top CanonicalEvent.seq c.highSeq [e] := by
  by_cases hle : e.seq ≤ c.highSeq
  · simp [push, StreamHubMessage.seq, StreamHubMessage.event?, HighWater.pass, top, hle]
  · simp [push, StreamHubMessage.seq, StreamHubMessage.event?, HighWater.pass, top, hle, events, canonicalEvents]

private theorem isOpen_flush (c : Client N) : c.flush.isOpen = true := rfl

theorem isOpen_backfill (c : Client N) : c.backfill.isOpen = true := by
  unfold backfill
  split_ifs
  · rfl
  · exact isOpen_flush c

theorem isOpen_subscribe (afterSeq : Nat) (includeSnapshot : Bool) :
    (subscribe afterSeq includeSnapshot : Client N).isOpen = true := by
  unfold subscribe
  split_ifs
  · rfl
  · exact isOpen_backfill _

theorem isOpen_page (c : Client N) (cursor : Nat) (rows : List (CanonicalEvent N)) :
    (c.page cursor rows).isOpen = true := by
  unfold page
  split_ifs
  · exact isOpen_flush _
  · rfl

/-- What a client has apart from its response. -/
structure SameClient (c c' : Client N) : Prop where
  afterSeq : c'.afterSeq = c.afterSeq
  here : c'.here = c.here
  buffer : c'.buffer = c.buffer

private theorem same_push (c : Client N) (msg : StreamHubMessage N) : SameClient c (c.push msg) := by
  unfold push
  split
  · split <;> exact ⟨rfl, rfl, rfl⟩
  · exact ⟨rfl, rfl, rfl⟩

theorem same_foldl_push (c : Client N) (msgs : List (StreamHubMessage N)) : SameClient c (msgs.foldl push c) := by
  induction msgs generalizing c with
  | nil => exact ⟨rfl, rfl, rfl⟩
  | cons msg msgs ih =>
    have hfirst := same_push c msg
    have hrest := ih (c.push msg)
    exact ⟨hrest.1.trans hfirst.1, hrest.2.trans hfirst.2, hrest.3.trans hfirst.3⟩

theorem afterSeq_page (c : Client N) (cursor : Nat) (rows : List (CanonicalEvent N)) :
    (c.page cursor rows).afterSeq = c.afterSeq := by
  have hrows := (same_foldl_push c (rows.map .canonicalEvent)).afterSeq
  unfold page
  split_ifs
  · exact (same_foldl_push _ _).afterSeq.trans hrows
  · exact hrows

theorem here_page_of_lt (c : Client N) (cursor : Nat) {rows : List (CanonicalEvent N)} (h : rows.length < batchSize) :
    (c.page cursor rows).here = .live := by
  rw [page, if_pos h]
  rfl

/-- Of the events among the messages a client is sent what is above `highSeq`. -/
theorem foldl_push (c : Client N) (msgs : List (StreamHubMessage N)) :
    (msgs.foldl push c).events = c.events ++ pass CanonicalEvent.seq c.highSeq (canonicalEvents msgs) ∧
      (msgs.foldl push c).highSeq = top CanonicalEvent.seq c.highSeq (canonicalEvents msgs) := by
  induction msgs generalizing c with
  | nil => simp [canonicalEvents, HighWater.pass, top]
  | cons msg msgs ih =>
    obtain ⟨hevents, hhighSeq⟩ := ih (c.push msg)
    cases msg with
    | canonicalEvent e =>
      obtain ⟨hfirst, htop⟩ := events_push_canonicalEvent c e
      have hcons : canonicalEvents (.canonicalEvent e :: msgs) = [e] ++ canonicalEvents msgs := rfl
      rw [List.foldl_cons, hevents, hhighSeq, hfirst, htop, hcons, pass_append, top_append, List.append_assoc]
      exact ⟨rfl, rfl⟩
    | snapshot state =>
      have hsent : (c.push (.snapshot state)).events = c.events := by
        simp [push, StreamHubMessage.seq, StreamHubMessage.event?, events, canonicalEvents]
      rw [List.foldl_cons, hevents, hhighSeq, hsent]
      exact ⟨rfl, rfl⟩

/-- What a client has been sent is in order, and goes up to `highSeq`. -/
structure Marked (c : Client N) : Prop where
  increasing : Increasing CanonicalEvent.seq c.events
  le : ∀ e ∈ c.events, e.seq ≤ c.highSeq
  afterSeq_le : c.afterSeq ≤ c.highSeq

private theorem mem_foldl_push {msgs : List (StreamHubMessage N)} {e : CanonicalEvent N}
    (h : e ∈ (msgs.foldl push c).events) : e ∈ c.events ∨ e ∈ canonicalEvents msgs ∧ c.highSeq < e.seq := by
  rw [(foldl_push c msgs).1] at h
  exact (List.mem_append.1 h).imp_right mem_pass

private theorem mem_foldl_push_of_mem {e : CanonicalEvent N} (h : e ∈ c.events) (msgs : List (StreamHubMessage N)) :
    e ∈ (msgs.foldl push c).events := by
  rw [(foldl_push c msgs).1]
  exact List.mem_append_left _ h

/-- Messages in order are all sent. -/
theorem mem_foldl_push_of_increasing {msgs : List (StreamHubMessage N)}
    (h : Increasing CanonicalEvent.seq ((canonicalEvents msgs).filter fun e => c.highSeq < e.seq))
    {e : CanonicalEvent N} (he : e ∈ canonicalEvents msgs) (hmark : c.highSeq < e.seq) :
    e ∈ (msgs.foldl push c).events := by
  rw [(foldl_push c msgs).1, pass_eq_filter h]
  exact List.mem_append_right _ (List.mem_filter.2 ⟨he, by simpa using hmark⟩)

private theorem Marked.foldl_push (h : c.Marked) (msgs : List (StreamHubMessage N)) : (msgs.foldl push c).Marked := by
  obtain ⟨hevents, hhighSeq⟩ := Client.foldl_push c msgs
  refine ⟨?_, ?_, ?_⟩
  · rw [hevents]
    refine List.pairwise_append.2 ⟨h.increasing, pairwise_pass _ _, fun e he x hx => ?_⟩
    exact Nat.lt_of_le_of_lt (h.le e he) (mem_pass hx).2
  · intro e he
    rw [hhighSeq]
    rcases mem_foldl_push he with hold | ⟨hnew, -⟩
    · exact Nat.le_trans (h.le e hold) (le_top _ _)
    · exact le_top_of_mem hnew
  · rw [(same_foldl_push c msgs).afterSeq, hhighSeq]
    exact Nat.le_trans h.afterSeq_le (le_top _ _)

/-- The client has been sent a part of the beginning of what it is to be sent. -/
structure Backfilling (log : List (CanonicalEvent N)) (c : Client N) : Prop where
  sent : c.events <+: log.filter fun e => c.afterSeq < e.seq
  highSeq : c.highSeq = top CanonicalEvent.seq c.afterSeq c.events

theorem Backfilling.mono {log log' : List (CanonicalEvent N)} (h : c.Backfilling log) (hlog : log <+: log') :
    c.Backfilling log' :=
  ⟨h.sent.trans (hlog.filter _), h.highSeq⟩

private theorem Backfilling.marked {log : List (CanonicalEvent N)} (h : c.Backfilling log)
    (hlog : Increasing CanonicalEvent.seq log) : c.Marked := by
  refine ⟨(hlog.filter _).sublist h.sent.sublist, fun e he => ?_, ?_⟩
  · rw [h.highSeq]
    exact le_top_of_mem he
  · rw [h.highSeq]
    exact le_top _ _

private theorem Backfilling.page {log rows : List (CanonicalEvent N)} (hlog : Increasing CanonicalEvent.seq log)
    (h : c.Backfilling log) (hrows : rows = listCanonicalByRun log c.highSeq batchSize) :
    let c' := (rows.map StreamHubMessage.canonicalEvent).foldl push c
    c'.events = c.events ++ rows ∧ c'.Backfilling log ∧
      c'.highSeq = (rows.getLast?.map (·.seq)).getD c.highSeq ∧
      (rows.length < batchSize → c'.events = log.filter fun e => c.afterSeq < e.seq) := by
  intro c'
  have hsplit := filter_eq_append hlog h.sent
  rw [← h.highSeq] at hsplit
  rw [listCanonicalByRun_eq hlog] at hrows
  have hincreasing : Increasing CanonicalEvent.seq rows := by
    rw [hrows]
    exact (hlog.filter _).sublist (List.take_sublist _ _)
  have habove : ∀ e ∈ rows, c.highSeq < e.seq := by
    intro e he
    rw [hrows] at he
    simpa using (List.mem_filter.1 (List.mem_of_mem_take he)).2
  obtain ⟨hevents, hhighSeq⟩ := foldl_push c (rows.map StreamHubMessage.canonicalEvent)
  rw [canonicalEvents_map] at hevents hhighSeq
  rw [pass_eq_self hincreasing habove] at hevents
  have hafterSeq : c'.afterSeq = c.afterSeq := (same_foldl_push c _).afterSeq
  refine ⟨hevents, ⟨?_, ?_⟩, ?_, ?_⟩
  · rw [hafterSeq, hsplit, show c'.events = c.events ++ rows from hevents]
    refine (List.prefix_append_right_inj _).2 ?_
    rw [hrows]
    exact List.take_prefix _ _
  · rw [hafterSeq, show c'.events = c.events ++ rows from hevents, top_append, ← h.highSeq]
    exact hhighSeq
  · rw [show c'.highSeq = _ from hhighSeq, top_eq_getLast hincreasing habove]
  · intro hlength
    rw [hsplit, show c'.events = c.events ++ rows from hevents]
    congr 1
    rw [hrows, List.length_take] at hlength
    rw [hrows, List.take_of_length_le (by omega)]

/-- What holds of a client that is live. -/
structure Live (log published : List (CanonicalEvent N)) (c : Client N) : Prop where
  increasing : Increasing CanonicalEvent.seq c.events
  mem : ∀ e ∈ c.events, e ∈ log ∧ c.afterSeq < e.seq
  all : ∀ e ∈ published, c.afterSeq < e.seq → e ∈ c.events
  le : ∀ e ∈ c.events, e.seq ≤ c.highSeq
  afterSeq_le : c.afterSeq ≤ c.highSeq

/-- What is known of a client where its response is.  While a page is under way, `before` is what the database has read
it from: what is published and not in the buffer is there. -/
def Stage (log published : List (CanonicalEvent N)) (c : Client N) : Prop :=
  match c.here with
  | .loading => c.events = [] ∧ c.highSeq = c.afterSeq
  | .reading cursor => c.Backfilling log ∧ cursor = c.highSeq
  | .paging cursor rows =>
    ∃ before, before <+: log ∧ c.Backfilling before ∧ cursor = c.highSeq ∧
      rows = listCanonicalByRun before cursor batchSize ∧ ∀ e ∈ published, e ∈ c.buffered ∨ e ∈ before
  | .live => 0 < c.afterSeq → c.Live log published
  | .completed _ | .closed => True

/-- What holds of a client. -/
structure Sound (log published : List (CanonicalEvent N)) (c : Client N) : Prop where
  buffered : c.buffered.Sublist published
  stage : c.Stage log published

variable {log published : List (CanonicalEvent N)}

private theorem Live.commit (h : c.Live log published) (events : List (CanonicalEvent N)) :
    c.Live (log ++ events) published :=
  { h with mem := fun e he => (h.mem e he).imp_left (List.mem_append_left _) }

theorem Sound.commit (h : c.Sound log published) (events : List (CanonicalEvent N)) :
    c.Sound (log ++ events) published := by
  refine ⟨h.buffered, ?_⟩
  have hstage := h.stage
  unfold Stage at hstage ⊢
  split at hstage
  · exact hstage
  · exact ⟨hstage.1.mono (List.prefix_append _ _), hstage.2⟩
  · obtain ⟨before, hbefore, hrest⟩ := hstage
    exact ⟨before, hbefore.trans (List.prefix_append _ _), hrest⟩
  · exact fun hpos => (hstage hpos).commit events
  · trivial
  · trivial

/-- A batch of which the live client is sent everything that it has not had. -/
theorem Live.publish (h : c.Live log published) {events : List (CanonicalEvent N)} {msgs : List (StreamHubMessage N)}
    (hmsgs : canonicalEvents msgs = events) (hevents : Increasing CanonicalEvent.seq events)
    (hlog : ∀ e ∈ events, e ∈ log) (hwhen : ∀ e ∈ events, c.highSeq < e.seq ∨ e.seq ≤ c.afterSeq ∨ e ∈ c.events) :
    (msgs.foldl push c).Live log (published ++ events) := by
  have hmarked : (msgs.foldl push c).Marked :=
    Marked.foldl_push ⟨h.increasing, h.le, h.afterSeq_le⟩ msgs
  have hafterSeq := (same_foldl_push c msgs).afterSeq
  have hle := h.afterSeq_le
  refine ⟨hmarked.increasing, ?_, ?_, hmarked.le, hmarked.afterSeq_le⟩
  · intro e he
    rw [hafterSeq]
    rcases mem_foldl_push he with hold | ⟨hnew, hmark⟩
    · exact h.mem e hold
    · exact ⟨hlog e (hmsgs ▸ hnew), by omega⟩
  · intro e he hseq
    rw [hafterSeq] at hseq
    rcases List.mem_append.1 he with hold | hnew
    · exact mem_foldl_push_of_mem (h.all e hold hseq) msgs
    · rcases hwhen e hnew with hmark | hsmall | hsent
      · refine mem_foldl_push_of_increasing ?_ (hmsgs.symm ▸ hnew) hmark
        rw [hmsgs]
        exact hevents.filter _
      · omega
      · exact mem_foldl_push_of_mem hsent msgs

/-- A batch of which the live client is sent everything has come in order. -/
theorem of_publish {events : List (CanonicalEvent N)} {msgs : List (StreamHubMessage N)}
    (hall : ∀ e ∈ published ++ events, c.afterSeq < e.seq → e ∈ (msgs.foldl push c).events) {e : CanonicalEvent N}
    (he : e ∈ events) : c.highSeq < e.seq ∨ e.seq ≤ c.afterSeq ∨ e ∈ c.events := by
  by_cases hmark : c.highSeq < e.seq
  · exact Or.inl hmark
  · by_cases hseq : c.afterSeq < e.seq
    · rcases mem_foldl_push (hall e (List.mem_append_right _ he) hseq) with hold | ⟨-, hnew⟩
      · exact Or.inr (Or.inr hold)
      · exact absurd hnew hmark
    · exact Or.inr (Or.inl (by omega))

theorem Sound.publish (h : c.Sound log published) {events : List (CanonicalEvent N)}
    {msgs : List (StreamHubMessage N)} (hmsgs : canonicalEvents msgs = events)
    (hevents : Increasing CanonicalEvent.seq events) (hlog : ∀ e ∈ events, e ∈ log)
    (hwhen : 0 < c.afterSeq → c.here = .live →
      ∀ e ∈ events, c.highSeq < e.seq ∨ e.seq ≤ c.afterSeq ∨ e ∈ c.events) :
    (c.next msgs).Sound log (published ++ events) := by
  obtain ⟨hbuffered, hstage⟩ := h
  obtain ⟨afterSeq, here, buffer, highSeq, sent⟩ := c
  have hbuffered' : (canonicalEvents (buffer ++ msgs)).Sublist (published ++ events) := by
    rw [canonicalEvents_append, hmsgs]
    exact List.Sublist.append hbuffered (List.Sublist.refl _)
  have hold : (canonicalEvents buffer).Sublist (published ++ events) :=
    hbuffered.trans (List.sublist_append_left _ _)
  -- Until the client is live, the batch goes to its buffer.
  cases here with
  | loading => exact ⟨hbuffered', hstage⟩
  | reading cursor => exact ⟨hbuffered', ⟨hstage.1.sent, hstage.1.highSeq⟩, hstage.2⟩
  | paging cursor rows =>
    obtain ⟨before, hbefore, hbackfilling, hcursor, hrows, hpublished⟩ := hstage
    refine ⟨hbuffered', before, hbefore, ⟨hbackfilling.sent, hbackfilling.highSeq⟩, hcursor, hrows, fun e he => ?_⟩
    show e ∈ canonicalEvents (buffer ++ msgs) ∨ e ∈ before
    rw [canonicalEvents_append, hmsgs, List.mem_append]
    rcases List.mem_append.1 he with he | he
    · exact (hpublished e he).imp_left Or.inl
    · exact Or.inl (Or.inr he)
  | live =>
    have hsame := same_foldl_push (N := N) ⟨afterSeq, .live, buffer, highSeq, sent⟩ msgs
    refine ⟨?_, ?_⟩
    · show (canonicalEvents (msgs.foldl push _).buffer).Sublist _
      rw [hsame.buffer]
      exact hold
    · show (msgs.foldl push _).Stage _ _
      unfold Stage
      rw [hsame.here]
      intro hpos
      rw [hsame.afterSeq] at hpos
      exact (hstage hpos).publish hmsgs hevents hlog (hwhen hpos rfl)
  | completed before => exact ⟨hold, trivial⟩
  | closed => exact ⟨hold, trivial⟩

/-- The end of a backfill whose buffer is in order. -/
theorem live_flush {before : List (CanonicalEvent N)} (hlog : Increasing CanonicalEvent.seq log)
    (hbefore : before <+: log) (hevents : c.events = before.filter fun e => c.afterSeq < e.seq)
    (hhighSeq : c.highSeq = top CanonicalEvent.seq c.afterSeq c.events) (hpublished : ∀ e ∈ published, e ∈ log)
    (hsplit : ∀ e ∈ published, e ∈ c.buffered ∨ e ∈ before) (hbuffered : ∀ e ∈ c.buffered, e ∈ published)
    (hwhen : Increasing CanonicalEvent.seq (c.buffered.filter fun e => c.highSeq < e.seq)) :
    c.flush.Live log published := by
  have hincreasing : Increasing CanonicalEvent.seq c.events := by
    rw [hevents]
    exact (hlog.sublist hbefore.sublist).filter _
  have hle : c.afterSeq ≤ c.highSeq := hhighSeq ▸ le_top _ _
  have hevents_le : ∀ e ∈ c.events, e.seq ≤ c.highSeq := fun e he => by
    rw [hhighSeq]
    exact le_top_of_mem he
  have hmem : ∀ e ∈ c.events, e ∈ before ∧ c.afterSeq < e.seq := fun e he => by
    rw [hevents] at he
    simpa using List.mem_filter.1 he
  have hmem_of : ∀ e ∈ before, c.afterSeq < e.seq → e ∈ c.events := fun e he hseq => by
    rw [hevents]
    exact List.mem_filter.2 ⟨he, by simpa using hseq⟩
  have hmarked : (c.buffer.foldl push c).Marked := Marked.foldl_push ⟨hincreasing, hevents_le, hle⟩ c.buffer
  have hafterSeq : c.flush.afterSeq = c.afterSeq := (same_foldl_push c c.buffer).afterSeq
  refine ⟨hmarked.increasing, ?_, ?_, hmarked.le, hmarked.afterSeq_le⟩
  · intro e he
    rw [hafterSeq]
    rcases mem_foldl_push (show e ∈ (c.buffer.foldl push c).events from he) with hold | ⟨hnew, habove⟩
    · exact (hmem e hold).imp_left fun h => hbefore.subset h
    · exact ⟨hpublished e (hbuffered e hnew), by omega⟩
  · intro e he hseq
    rw [hafterSeq] at hseq
    by_cases habove : c.highSeq < e.seq
    · -- It is not among the rows, so that the buffer has it.
      have hnew : e ∈ c.buffered := by
        refine (hsplit e he).resolve_right fun hold => ?_
        have := hevents_le e (hmem_of e hold hseq)
        omega
      exact mem_foldl_push_of_increasing hwhen hnew habove
    · -- The rows go up to `highSeq`, and what has been committed after them is above it.
      have hold : e ∈ before := by
        obtain ⟨later, hlater⟩ := hbefore
        have hmemlog := hpublished e he
        rw [← hlater] at hmemlog hlog
        refine (List.mem_append.1 hmemlog).resolve_right fun hnew => habove ?_
        have hlt := (List.pairwise_append.1 hlog).2.2
        rw [hhighSeq]
        exact top_lt hseq fun x hx => hlt x (hmem x hx).1 e hnew
      exact mem_foldl_push_of_mem (hmem_of e hold hseq) c.buffer

/-- A backfill that has sent everything has left a buffer in order. -/
theorem increasing_of_flush (h : c.Marked) (hnodup : c.buffered.Nodup) (hbuffered : ∀ e ∈ c.buffered, e ∈ published)
    (hall : ∀ e ∈ published, c.afterSeq < e.seq → e ∈ c.flush.events) :
    Increasing CanonicalEvent.seq (c.buffered.filter fun e => c.highSeq < e.seq) := by
  have hsent : c.flush.events = c.events ++ pass CanonicalEvent.seq c.highSeq c.buffered := (foldl_push c c.buffer).1
  rw [← pass_eq_filter_of_subset (hnodup.filter _)]
  · exact pairwise_pass _ _
  · intro e he habove
    have hle := h.afterSeq_le
    have hflush := hall e (hbuffered e he) (by omega)
    rw [hsent] at hflush
    refine (List.mem_append.1 hflush).resolve_left fun hold => ?_
    have := h.le e hold
    omega

/-- A client whose page is under way, and what it is after the page. -/
theorem Sound.page_cases (h : c.Sound log published) (hlog : Increasing CanonicalEvent.seq log) {cursor : Nat}
    {rows : List (CanonicalEvent N)} (hhere : c.here = .paging cursor rows) :
    ∃ before c', before <+: log ∧ c'.Backfilling before ∧ SameClient c c' ∧
      c'.highSeq = (rows.getLast?.map (·.seq)).getD cursor ∧
      (rows.length < batchSize → c'.events = before.filter fun e => c'.afterSeq < e.seq) ∧
      (∀ e ∈ published, e ∈ c'.buffered ∨ e ∈ before) ∧
      c.page cursor rows = if rows.length < batchSize then c'.flush else { c' with here := .reading c'.highSeq } := by
  have hstage := h.stage
  unfold Stage at hstage
  rw [hhere] at hstage
  obtain ⟨before, hbefore, hbackfilling, rfl, hrows, hpublished⟩ := hstage
  obtain ⟨-, hafter, hhighSeq, hall⟩ := hbackfilling.page (hlog.sublist hbefore.sublist) hrows
  have hsame := same_foldl_push c (rows.map .canonicalEvent)
  refine ⟨before, (rows.map .canonicalEvent).foldl push c, hbefore, hafter, hsame, hhighSeq, ?_, ?_, ?_⟩
  · rw [hsame.afterSeq]
    exact hall
  · intro e he
    rw [show Client.buffered _ = c.buffered from congrArg canonicalEvents hsame.buffer]
    exact hpublished e he
  · have hpage : c.page c.highSeq rows =
        if rows.length < batchSize then ((rows.map .canonicalEvent).foldl push c).flush
        else { (rows.map .canonicalEvent).foldl push c with
          here := .reading ((rows.getLast?.map (·.seq)).getD c.highSeq) } := rfl
    rw [hpage, ← hhighSeq]

theorem Sound.page (h : c.Sound log published) (hlog : Increasing CanonicalEvent.seq log)
    (hpublished : ∀ e ∈ published, e ∈ log) {cursor : Nat} {rows : List (CanonicalEvent N)}
    (hhere : c.here = .paging cursor rows)
    (hwhen : 0 < c.afterSeq → rows.length < batchSize → Increasing CanonicalEvent.seq
      (c.buffered.filter fun e => (rows.getLast?.map (·.seq)).getD cursor < e.seq)) :
    (c.page cursor rows).Sound log published := by
  obtain ⟨before, c', hbefore, hafter, hsame, hhighSeq, hall, hsplit, hpage⟩ := h.page_cases hlog hhere
  have hbuffered : c'.buffered = c.buffered := congrArg canonicalEvents hsame.buffer
  rw [hpage]
  split_ifs with hlength
  · refine ⟨List.nil_sublist _, fun hpos => ?_⟩
    have hpos' : 0 < c.afterSeq := by
      rw [← hsame.afterSeq, ← (same_foldl_push c' c'.buffer).afterSeq]
      exact hpos
    apply live_flush hlog hbefore (hall hlength) hafter.highSeq hpublished hsplit
    · rw [hbuffered]
      exact fun e he => h.buffered.subset he
    · rw [hbuffered, hhighSeq]
      exact hwhen hpos' hlength
  · refine ⟨?_, ?_, rfl⟩
    · show c'.buffered.Sublist published
      rw [hbuffered]
      exact h.buffered
    · exact ⟨(hafter.mono hbefore).sent, hafter.highSeq⟩

/-- A page after which the client has been sent everything has found a buffer in order. -/
theorem Sound.of_page (h : c.Sound log published) (hlog : Increasing CanonicalEvent.seq log)
    (hnodup : published.Nodup) {cursor : Nat} {rows : List (CanonicalEvent N)} (hhere : c.here = .paging cursor rows)
    (hlength : rows.length < batchSize)
    (hall : ∀ e ∈ published, c.afterSeq < e.seq → e ∈ (c.page cursor rows).events) :
    Increasing CanonicalEvent.seq
      (c.buffered.filter fun e => (rows.getLast?.map (·.seq)).getD cursor < e.seq) := by
  obtain ⟨before, c', hbefore, hafter, hsame, hhighSeq, -, hsplit, hpage⟩ := h.page_cases hlog hhere
  have hbuffered : c'.buffered = c.buffered := congrArg canonicalEvents hsame.buffer
  rw [hpage, if_pos hlength, ← hsame.afterSeq] at hall
  rw [← hhighSeq, ← hbuffered]
  apply increasing_of_flush (hafter.marked (hlog.sublist hbefore.sublist)) _ _ hall
  · rw [hbuffered]
    exact hnodup.sublist h.buffered
  · rw [hbuffered]
    exact fun e he => h.buffered.subset he

/-- What follows the snapshot, where nothing has been sent before. -/
theorem Sound.backfill (hbuffered : c.buffered.Sublist published) (hevents : c.events = [])
    (hhighSeq : c.highSeq = c.afterSeq) : c.backfill.Sound log published := by
  unfold Client.backfill
  split_ifs with hpos
  · refine ⟨hbuffered, ⟨?_, ?_⟩, hhighSeq.symm⟩
    · show c.events <+: _
      rw [hevents]
      exact List.nil_prefix
    · show c.highSeq = top _ c.afterSeq c.events
      rw [hevents]
      exact hhighSeq
  · refine ⟨List.nil_sublist _, fun hpos' => absurd hpos' ?_⟩
    rw [show c.flush.afterSeq = c.afterSeq from (same_foldl_push c c.buffer).afterSeq]
    exact hpos

theorem Sound.subscribe (afterSeq : Nat) (includeSnapshot : Bool) :
    (subscribe afterSeq includeSnapshot : Client N).Sound log published := by
  unfold Client.subscribe
  split_ifs
  · exact ⟨List.nil_sublist _, rfl, rfl⟩
  · exact Sound.backfill (List.nil_sublist _) rfl rfl

end Client

end MacpControlPlane.StreamRun

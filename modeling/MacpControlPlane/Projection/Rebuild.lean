import MacpControlPlane.Projection.Store
import MacpControlPlane.Storage.EventRepository

/-!
# Rebuild and replay (`events/run-event.service.ts`, `replay/replay.service.ts`)

Two paths read the stored rows back into events.  `rebuildProjection` casts the rows, so that the reducer finds
neither `subject` nor `trace` on them; `stateAt` converts the rows and restores both.
-/

namespace MacpControlPlane

open Js Reducer EventRepository

variable {N : Type} [JsNumber N]

/-- `ProjectionService.rebuild`: the projection it returns, and the row of the run afterwards. -/
def ProjectionService.rebuild (runId : String) (events : List (CanonicalEvent N)) (row : Option (ProjectionRow N)) :
    RunStateProjection N × ProjectionRow N :=
  let projection := applyEvents (.empty runId) events
  let version := (events.getLast?.map (·.seq)).getD 0
  (projection, ProjectionRepository.upsert row projection version projectionSchemaVersion true)

def ProjectionService.replayStateAt (runId : String) (events : List (CanonicalEvent N)) : RunStateProjection N :=
  applyEvents (.empty runId) events

omit [JsNumber N] in
/-- `row as unknown as CanonicalEvent`: a row has none of the objects `subject`, `source` and `trace`.  The reducer
does not read `source`. -/
def CanonicalRow.cast (row : CanonicalRow N) : CanonicalEvent N where
  id := row.id
  runId := row.runId
  seq := row.seq
  ts := row.ts
  type := row.type
  schemaVersion := some row.schemaVersion
  subject := none
  source := ⟨.other row.sourceKind, row.sourceName, row.rawType⟩
  trace := none
  data := row.data

omit [JsNumber N] in
def ReplayService.rowToCanonical (row : CanonicalRow N) : CanonicalEvent N where
  id := row.id
  runId := row.runId
  seq := row.seq
  ts := row.ts
  type := row.type
  subject :=
    match row.subjectKind, row.subjectId with
    | some kind, some id => if id ≠ "" then some { kind, id } else none
    | _, _ => none
  source := { kind := normalizeEventSourceKind row.sourceKind, name := row.sourceName, rawType := row.rawType }
  trace := some { traceId := row.traceId, spanId := row.spanId, parentSpanId := row.parentSpanId }
  data := row.data

/-- `RunEventService.rebuildProjection`, as far as the projection it returns goes. -/
def RunEventService.rebuildProjection (table : List (CanonicalRow N)) (runId : String) : RunStateProjection N :=
  (ProjectionService.rebuild runId ((listCanonicalUpTo table runId).map CanonicalRow.cast) none).1

def ReplayService.stateAt (table : List (CanonicalRow N)) (runId : String) (seq : Option Nat := none) :
    RunStateProjection N :=
  ProjectionService.replayStateAt runId ((listCanonicalUpTo table runId seq).map ReplayService.rowToCanonical)

/-! ### What the reducer reads of an event -/

omit [JsNumber N] in
/-- Two events that the reducer cannot tell apart. -/
structure Alike (d e : CanonicalEvent N) : Prop where
  id : d.id = e.id
  runId : d.runId = e.runId
  seq : d.seq = e.seq
  ts : d.ts = e.ts
  type : d.type = e.type
  subject : d.subject = e.subject
  data : d.data = e.data
  traceId : eventTraceId d = eventTraceId e
  spanId : eventSpanId d = eventSpanId e

private theorem dispatch_congr (r : String) (p : RunStateProjection N) (e : CanonicalEvent N) (source : EventSource)
    (schemaVersion : Option Nat) (trace : Option TraceRef) :
    dispatch r p { e with source, schemaVersion, trace } = dispatch r p e := rfl

private theorem Alike.applyEvent_eq {d e : CanonicalEvent N} (h : Alike d e) (r : String) (p : RunStateProjection N) :
    applyEvent r p d = applyEvent r p e := by
  have hd : d = { e with source := d.source, schemaVersion := d.schemaVersion, trace := d.trace } := by
    obtain ⟨id, runId, seq, ts, type, schemaVersion, subject, source, trace, data⟩ := d
    obtain ⟨hid, hrun, hseq, hts, htype, hsubject, hdata, -, -⟩ := h
    dsimp only at hid hrun hseq hts htype hsubject hdata ⊢
    subst hid hrun hseq hts htype hsubject hdata
    rfl
  have htrack : track p d = track p e := by
    unfold track trace timeline
    rw [h.id, h.seq, h.ts, h.type, h.subject, h.traceId, h.spanId]
  unfold applyEvent
  rw [htrack, hd, dispatch_congr]

private theorem applyEvents_map_alike {f : CanonicalEvent N → CanonicalEvent N} (p : RunStateProjection N)
    {es : List (CanonicalEvent N)} (h : ∀ e ∈ es, Alike (f e) e) : applyEvents p (es.map f) = applyEvents p es := by
  unfold applyEvents
  rw [List.foldl_map]
  refine List.foldl_ext _ _ p fun q e he => ?_
  exact (h e he).applyEvent_eq _ q

/-! ### What a row keeps of an event -/

omit [JsNumber N] in
/-- A row, cast, is its event without subject and trace. -/
theorem cast_alike_iff (e : CanonicalEvent N) :
    Alike (CanonicalRow.ofEvent e).cast e ↔ e.subject = none ∧ eventTraceId e = none ∧ eventSpanId e = none := by
  constructor
  · intro h
    exact ⟨h.subject.symm, h.traceId.symm, h.spanId.symm⟩
  · rintro ⟨hsubject, htrace, hspan⟩
    exact ⟨rfl, rfl, rfl, rfl, rfl, hsubject.symm, rfl, htrace.symm, hspan.symm⟩

omit [JsNumber N] in
/-- A row, converted, is its event, unless the id of the subject is empty. -/
theorem rowToCanonical_alike {e : CanonicalEvent N} (h : ∀ s ∈ e.subject, s.id ≠ "") :
    Alike (ReplayService.rowToCanonical (CanonicalRow.ofEvent e)) e := by
  refine ⟨rfl, rfl, rfl, rfl, rfl, ?_, rfl, ?_, ?_⟩
  · cases hs : e.subject with
    | none => simp [ReplayService.rowToCanonical, CanonicalRow.ofEvent, hs]
    | some s => simp [ReplayService.rowToCanonical, CanonicalRow.ofEvent, hs, h s hs]
  · rfl
  · rfl

/-! ### Rebuild against the live fold and the replay -/

omit [JsNumber N] in
/-- The events of one run among those appended for any run. -/
def logOf (runId : String) (es : List (CanonicalEvent N)) : List (CanonicalEvent N) :=
  es.filter (·.runId = runId)

theorem rebuildProjection_eq {es : List (CanonicalEvent N)} {runId : String} (hdistinct : Distinct es)
    (hlog : IsLog runId (logOf runId es)) :
    RunEventService.rebuildProjection (appendCanonical [] es) runId =
      applyEvents (.empty runId) ((logOf runId es).map fun e => (CanonicalRow.ofEvent e).cast) := by
  unfold RunEventService.rebuildProjection
  rw [appendCanonical_eq_map hdistinct,
    listCanonicalUpTo_map hlog.increasing (fun n h => absurd h (Option.not_mem_none n)), List.map_map]
  rfl

omit [JsNumber N] in
/-- Nothing in a log has a higher sequence number than its last event. -/
theorem IsLog.le_lastSeq {runId : String} {es : List (CanonicalEvent N)} (h : IsLog runId es) {e : CanonicalEvent N}
    (he : e ∈ es) : e.seq ≤ lastSeq es := by
  obtain ⟨init, last, rfl⟩ := (List.eq_nil_or_concat es).resolve_left (List.ne_nil_of_mem he)
  have hlast : lastSeq (init.concat last) = last.seq := by simp [lastSeq]
  have hpair := h.increasing
  rw [List.concat_eq_append] at he hpair
  rw [List.map_append, List.pairwise_append] at hpair
  rw [hlast]
  rcases List.mem_append.1 he with he | he
  · exact Nat.le_of_lt (hpair.2.2 e.seq (List.mem_map_of_mem he) last.seq (by simp))
  · exact Nat.le_of_eq (congrArg (·.seq) (List.mem_singleton.1 he))

private theorem stateAt_eq {es : List (CanonicalEvent N)} {runId : String} (hdistinct : Distinct es)
    (hlog : IsLog runId (logOf runId es)) :
    ReplayService.stateAt (appendCanonical [] es) runId (some (lastSeq (logOf runId es))) =
      applyEvents (.empty runId)
        ((logOf runId es).map fun e => ReplayService.rowToCanonical (CanonicalRow.ofEvent e)) := by
  have hseq : ∀ n ∈ some (lastSeq (logOf runId es)), ∀ e ∈ logOf runId es, e.seq ≤ n := by
    intro n hn e he
    rw [← Option.some.inj hn]
    exact hlog.le_lastSeq he
  unfold ReplayService.stateAt ProjectionService.replayStateAt
  rw [appendCanonical_eq_map hdistinct, listCanonicalUpTo_map hlog.increasing hseq, List.map_map]
  rfl

/-- Replay gives back the live fold, as long as no subject has an empty id. -/
theorem stateAt_eq_live {es : List (CanonicalEvent N)} {runId : String} (hdistinct : Distinct es)
    (hlog : IsLog runId (logOf runId es)) (hsubject : ∀ e ∈ logOf runId es, ∀ s ∈ e.subject, s.id ≠ "") :
    ReplayService.stateAt (appendCanonical [] es) runId (some (lastSeq (logOf runId es))) =
      applyEvents (.empty runId) (logOf runId es) := by
  rw [stateAt_eq hdistinct hlog]
  exact applyEvents_map_alike _ fun e he => rowToCanonical_alike (hsubject e he)

/-- Where the rebuild agrees with the live fold, no event has a trace, and none of the last 50 has a subject. -/
theorem blank_of_rebuild_eq {log : List (CanonicalEvent N)} {runId : String}
    (h : applyEvents (.empty runId) (log.map fun e => (CanonicalRow.ofEvent e).cast) =
      (applyEvents (.empty runId) log : RunStateProjection N)) :
    (∀ e ∈ log, eventTraceId e = none ∧ eventSpanId e = none) ∧ ∀ e ∈ sliceLast 50 log, e.subject = none := by
  constructor
  · have hblank : (applyEvents (.empty runId : RunStateProjection N)
        (log.map fun e => (CanonicalRow.ofEvent e).cast)).trace.traceId = none ∧ (applyEvents (.empty runId :
          RunStateProjection N) (log.map fun e => (CanonicalRow.ofEvent e).cast)).trace.lastSpanId = none := by
      refine trace_applyEvents_eq_none.2 ⟨⟨rfl, rfl⟩, ?_⟩
      intro e he
      obtain ⟨d, -, rfl⟩ := List.mem_map.1 he
      exact ⟨rfl, rfl⟩
    rw [h] at hblank
    exact (trace_applyEvents_eq_none.1 hblank).2
  · have hrecent := congrArg (fun p => p.timeline.recent.map (·.subject)) h
    rw [recent_applyEvents_empty, recent_applyEvents_empty, map_sliceLast, map_sliceLast, List.map_map, List.map_map,
      List.map_map, ← map_sliceLast, ← map_sliceLast] at hrecent
    intro e he
    have hmem := List.mem_map_of_mem (f := (·.subject) ∘ timelineEntry) he
    rw [← hrecent] at hmem
    obtain ⟨d, -, hd⟩ := List.mem_map.1 hmem
    exact hd.symm

/-- Rebuild, live fold and replay agree all along the log exactly when no event has a subject or a trace.  Where they
agree on one log, no event of it has a trace, and none of the last 50 has a subject. -/
theorem rebuild_agrees_iff {es : List (CanonicalEvent N)} {runId : String} (hdistinct : Distinct es)
    (hlog : IsLog runId (logOf runId es)) :
    ((∀ a, a <+: es →
        RunEventService.rebuildProjection (appendCanonical [] a) runId = applyEvents (.empty runId) (logOf runId a) ∧
        RunEventService.rebuildProjection (appendCanonical [] a) runId =
          ReplayService.stateAt (appendCanonical [] a) runId (some (lastSeq (logOf runId a)))) ↔
      ∀ e ∈ logOf runId es, e.subject = none ∧ eventTraceId e = none ∧ eventSpanId e = none) ∧
    (RunEventService.rebuildProjection (appendCanonical [] es) runId = applyEvents (.empty runId) (logOf runId es) →
      (∀ e ∈ logOf runId es, eventTraceId e = none ∧ eventSpanId e = none) ∧
        ∀ e ∈ sliceLast 50 (logOf runId es), e.subject = none) := by
  have hprefix : ∀ a, a <+: es → Distinct a ∧ IsLog runId (logOf runId a) := by
    rintro a ⟨b, rfl⟩
    unfold logOf at hlog
    rw [List.filter_append] at hlog
    exact ⟨hdistinct.of_append, hlog.of_append⟩
  refine ⟨⟨?_, ?_⟩, ?_⟩
  · intro h e he
    obtain ⟨hmem, hrun⟩ := List.mem_filter.1 he
    obtain ⟨init, rest, rfl⟩ := List.append_of_mem hmem
    have ha : init ++ [e] <+: init ++ e :: rest := ⟨rest, by simp⟩
    obtain ⟨hd, hl⟩ := hprefix _ ha
    have heq := (h _ ha).1
    rw [rebuildProjection_eq hd hl] at heq
    obtain ⟨htrace, hsubject⟩ := blank_of_rebuild_eq heq
    have hsplit : logOf runId (init ++ [e]) = logOf runId init ++ [e] := by
      unfold logOf
      rw [List.filter_append, List.filter_singleton, hrun]
      rfl
    rw [hsplit] at htrace hsubject
    exact ⟨hsubject e (mem_sliceLast_append_singleton (by decide) _ e), htrace e (by simp)⟩
  · intro h a ha
    obtain ⟨hd, hl⟩ := hprefix a ha
    have hblank : ∀ e ∈ logOf runId a, e.subject = none ∧ eventTraceId e = none ∧ eventSpanId e = none := by
      intro e he
      obtain ⟨hmem, hrun⟩ := List.mem_filter.1 he
      exact h e (List.mem_filter.2 ⟨ha.subset hmem, hrun⟩)
    have hlive : RunEventService.rebuildProjection (appendCanonical [] a) runId =
        applyEvents (.empty runId) (logOf runId a) := by
      rw [rebuildProjection_eq hd hl]
      exact applyEvents_map_alike _ fun e he => (cast_alike_iff e).2 (hblank e he)
    refine ⟨hlive, ?_⟩
    rw [hlive, stateAt_eq_live hd hl]
    intro e he s hs
    rw [(hblank e he).1] at hs
    exact absurd hs nofun
  · intro h
    rw [rebuildProjection_eq hdistinct hlog] at h
    exact blank_of_rebuild_eq h

/-- An event without subject and trace is rebuilt as it was. -/
theorem rebuild_agrees_started :
    let started : CanonicalEvent (Option Rat) :=
      { id := "e1", runId := "run", seq := 1, ts := "10:00", type := .runStarted,
        source := ⟨.macpControlPlane, "run-manager", none⟩
        data := [("status", .str "starting")] }
    RunEventService.rebuildProjection (appendCanonical [] [started]) "run" = applyEvents (.empty "run") [started] := by
  intro started
  have hdistinct : Distinct [started] := ⟨by decide, by decide⟩
  have hlog : IsLog "run" (logOf "run" [started]) := ⟨by decide, by decide, by decide⟩
  exact ((rebuild_agrees_iff hdistinct hlog).1.2 (by decide) [started] (List.prefix_refl _)).1

/-- An artifact event names the artifact in its subject; the rebuild links the id of the event instead. -/
theorem rebuild_agrees_artifact :
    ¬ ∀ (runId : String) (es : List (CanonicalEvent (Option Rat))), Distinct es → IsLog runId (logOf runId es) →
      RunEventService.rebuildProjection (appendCanonical [] es) runId = applyEvents (.empty runId) (logOf runId es) ∧
      RunEventService.rebuildProjection (appendCanonical [] es) runId =
        ReplayService.stateAt (appendCanonical [] es) runId (some (lastSeq (logOf runId es))) := by
  intro h
  let created : CanonicalEvent (Option Rat) :=
    { id := "e1", runId := "run", seq := 1, ts := "10:00", type := .artifactCreated,
      source := ⟨.runtime, "macp", none⟩
      subject := some ⟨.artifact, "report"⟩, data := [] }
  have hdistinct : Distinct [created] := ⟨by decide, by decide⟩
  have hlog : IsLog "run" (logOf "run" [created]) := ⟨by decide, by decide, by decide⟩
  have hlive := (h "run" [created] hdistinct hlog).1
  rw [rebuildProjection_eq hdistinct hlog] at hlive
  have hlinked : ["e1"] = ["report"] := congrArg (fun p => p.trace.linkedArtifacts) hlive
  exact absurd hlinked (by decide)

end MacpControlPlane

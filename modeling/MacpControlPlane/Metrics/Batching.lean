import Mathlib.Data.List.Infix
import MacpControlPlane.Lib.Columns
import MacpControlPlane.Lib.Folds
import MacpControlPlane.Metrics.MetricsService

/-!
# Metrics and batches

The events of a run reach `recordEvents` in batches, one call for each transaction.  Between two calls only the row is
kept, so that `runTerminal` has to be found again from its `sessionState`.  The counters and the session state do not
depend on where the events are cut; the time of the last event does.  A call fails where a value of the events does not
convert or a column refuses the row, and with other cuts other calls fail.
-/

namespace MacpControlPlane.MetricsService

open Columns Js EventNormalizer Folds

variable {N : Type}

/-! ### The row in the table -/

/-- A row of `run_metrics` as its columns keep it: the times are moments, in milliseconds. -/
@[ext]
structure StoredMetrics where
  count : Counter → Rat
  /-- `none` is the text `NaN`. -/
  estimatedCostUsd : Option Rat
  firstEventAt : Option Int
  lastEventAt : Option Int
  durationMs : Option Int
  sessionState : Option String

/-- `firstEventAt && lastEventAt ? new Date(lastEventAt).getTime() - new Date(firstEventAt).getTime() : undefined` -/
def durationOf (getTime : String → Int) : Option String → Option String → Option Int
  | some first, some last => some (getTime last - getTime first)
  | _, _ => none

def RunMetrics.durationMs (getTime : String → Int) (row : RunMetrics) : Option Int :=
  durationOf getTime row.firstEventAt row.lastEventAt

def RunMetrics.stored (getTime : String → Int) (row : RunMetrics) : StoredMetrics where
  count := row.count
  estimatedCostUsd := row.estimatedCostUsd
  firstEventAt := row.firstEventAt.map getTime
  lastEventAt := row.lastEventAt.map getTime
  durationMs := row.durationMs getTime
  sessionState := row.sessionState

/-- The duration is the difference of the times. -/
theorem durationOf_eq (getTime : String → Int) (first last : Option String) :
    durationOf getTime first last =
      (first.map getTime).bind fun first => (last.map getTime).map fun last => last - first := by
  cases first <;> cases last <;> rfl

/-- The counters in `integer` columns. -/
def integerCounters : List Counter :=
  [.eventCount, .messageCount, .signalCount, .proposalCount, .toolCallCount, .decisionCount, .streamReconnectCount,
    .promptTokens, .completionTokens, .totalTokens]

/-- The columns take these values. -/
def columnsTake (count : Counter → Rat) (durationMs : Option Int) (sessionState : Option String) : Bool :=
  integerCounters.all (fun counter => integer (count counter)) && durationMs.all (fun ms => integer ms) &&
    sessionState.all (varchar 64)

/-- The columns take the row. -/
def RunMetrics.fits (getTime : String → Int) (row : RunMetrics) : Bool :=
  columnsTake row.count (row.durationMs getTime) row.sessionState

/-- The row as the columns keep it. -/
def RunMetrics.cut (row : RunMetrics) : RunMetrics :=
  { row with sessionState := row.sessionState.bind (Columns.stored 64) }

/-- A row in the table. -/
structure TableRow (getTime : String → Int) where
  row : RunMetrics
  fits : row.fits getTime = true
  kept : row.cut = row

/-! ### What the events of a run write -/

/-- The run ends with the event. -/
def runEnded (event : CanonicalEvent N) : Bool :=
  event.type = .runCompleted ∨ event.type = .runFailed ∨ event.type = .runCancelled

/-- The session state that an event reports. -/
def reportedState (event : CanonicalEvent N) : Option String :=
  if event.type = .sessionStateChanged then asString (event.datum "state") else none

/-- The session state after the events. -/
def stateAfter (state : Option String) (events : List (CanonicalEvent N)) : Option String :=
  (lastWrite reportedState events).or state

/-- The time of the last event with which the run ends. -/
def lastEnded (events : List (CanonicalEvent N)) : Option String :=
  lastWrite (fun event => if runEnded event then some event.ts else none) events

/-- The time at which one call freezes the run: that of the last event with which it ends, and else of the last event,
unless the run has been terminal before. -/
def frozenAt (row : RunMetrics) (events : List (CanonicalEvent N)) : Option String :=
  (lastEnded events).or
    (if isTerminalState row.sessionState then row.lastEventAt
      else (events.getLast?.map fun event => event.ts).or row.lastEventAt)

/-- The last event of the last batch that begins in a session that is not terminal and from which on the run does not
end. -/
def lastOpen : Option String → List (List (CanonicalEvent N)) → Option (CanonicalEvent N)
  | _, [] => none
  | state, batch :: batches =>
    (lastOpen (stateAfter state batch) batches).or
      (if isTerminalState state || (batch ++ batches.flatten).any runEnded then none else batch.getLast?)

/-- No batch writes the time of a later event than one call does: the last batch to begin in an open session, when the
run does not end any more, ends at the time at which one call freezes the run. -/
def FrozenAcross (getTime : String → Int) (row : RunMetrics) (batches : List (List (CanonicalEvent N))) : Prop :=
  ∀ event, lastOpen row.sessionState batches = some event →
    (frozenAt row batches.flatten).map getTime = some (getTime event.ts)

/-- The time of the last event after the batches. -/
def lastTime (row : RunMetrics) (batches : List (List (CanonicalEvent N))) : Option String :=
  ((lastOpen row.sessionState batches).map fun event => event.ts).or ((lastEnded batches.flatten).or row.lastEventAt)

private theorem stateAfter_append (state : Option String) (events rest : List (CanonicalEvent N)) :
    stateAfter state (events ++ rest) = stateAfter (stateAfter state events) rest := by
  rw [stateAfter, lastWrite_append, Option.or_assoc]
  rfl

private theorem lastEnded_append (events rest : List (CanonicalEvent N)) :
    lastEnded (events ++ rest) = (lastEnded rest).or (lastEnded events) := lastWrite_append _ _

private theorem lastEnded_eq_none {events : List (CanonicalEvent N)} :
    lastEnded events = none ↔ events.any runEnded = false := by
  simp [lastEnded, lastWrite_eq_none]

/-- Some batch finds the session open, unless the run is terminal from the start or ends. -/
theorem lastOpen_ne_none {state : Option String} (hstate : isTerminalState state = false)
    {batches : List (List (CanonicalEvent N))} (hbatches : ∀ batch ∈ batches, batch ≠ []) (hne : batches ≠ [])
    (hended : lastEnded batches.flatten = none) : lastOpen state batches ≠ none := by
  cases batches with
  | nil => exact absurd rfl hne
  | cons batch batches =>
    rw [lastEnded_eq_none, List.flatten_cons] at hended
    rw [lastOpen, hstate, hended]
    have hlast := hbatches batch (List.mem_cons_self ..)
    simp [hlast]

/-! ### One call -/

section

variable [JsNumber N] [ExactNumber N]

private theorem sessionState_recordEvent (l : Recording) (event : CanonicalEvent N) :
    (recordEvent l event).row.sessionState = (reportedState event).or l.row.sessionState := rfl

private theorem firstEventAt_recordEvent (l : Recording) (event : CanonicalEvent N) :
    (recordEvent l event).row.firstEventAt = l.row.firstEventAt.or (some event.ts) := rfl

private theorem runTerminal_recordEvent (l : Recording) (event : CanonicalEvent N) :
    (recordEvent l event).runTerminal = (l.runTerminal || runEnded event) := rfl

private theorem lastEventAt_recordEvent (l : Recording) (event : CanonicalEvent N) :
    (recordEvent l event).row.lastEventAt =
      if !l.runTerminal || runEnded event then some event.ts else l.row.lastEventAt := rfl

private theorem sessionState_recordEvents (row : RunMetrics) (events : List (CanonicalEvent N)) :
    (recordEvents (some row) events).sessionState = stateAfter row.sessionState events :=
  read_foldl (fun l : Recording => l.row.sessionState) sessionState_recordEvent _ events

private theorem firstEventAt_recordEvents (row : RunMetrics) (events : List (CanonicalEvent N)) :
    (recordEvents (some row) events).firstEventAt =
      row.firstEventAt.or (events.head?.map fun event => event.ts) := by
  have hfold : ∀ l : Recording, (events.foldl recordEvent l).row.firstEventAt =
      l.row.firstEventAt.or (events.head?.map fun event => event.ts) := by
    induction events with
    | nil => simp
    | cons event events ih =>
      intro l
      rw [List.foldl_cons, ih, firstEventAt_recordEvent, Option.or_assoc]
      rfl
  exact hfold _

/-- The loop writes the time of an event until the run is terminal, and that of an event with which it ends. -/
theorem lastEventAt_foldl (events : List (CanonicalEvent N)) (l : Recording) :
    (events.foldl recordEvent l).row.lastEventAt = (lastEnded events).or
      (if l.runTerminal then l.row.lastEventAt
        else (events.getLast?.map fun event => event.ts).or l.row.lastEventAt) := by
  -- the flag is only ever raised by an event with which the run ends
  have hflag : ∀ (events : List (CanonicalEvent N)) (l : Recording),
      (events.foldl recordEvent l).runTerminal = (l.runTerminal || events.any runEnded) := by
    intro events
    induction events with
    | nil => simp
    | cons event events ih =>
      intro l
      rw [List.foldl_cons, ih, runTerminal_recordEvent, List.any_cons, Bool.or_assoc]
  induction events using List.reverseRecOn with
  | nil => simp [lastEnded]
  | append_singleton events event ih =>
    rw [List.foldl_append, List.foldl_cons, List.foldl_nil, lastEventAt_recordEvent, hflag, ih, lastEnded_append,
      List.getLast?_concat]
    cases hended : runEnded event with
    | true => simp [lastEnded, lastWrite_singleton, hended]
    | false =>
      have hnone : lastEnded [event] = none := by simp [lastEnded, lastWrite_singleton, hended]
      rw [hnone]
      cases hany : events.any runEnded with
      | true =>
        obtain ⟨ts, hts⟩ : ∃ ts, lastEnded events = some ts := by
          rw [← Option.isSome_iff_exists, ← Option.ne_none_iff_isSome, ne_eq, lastEnded_eq_none, hany]
          simp
        simp [hts]
      | false =>
        rw [lastEnded_eq_none.2 hany]
        cases l.runTerminal <;> simp

private theorem lastEventAt_recordEvents (row : RunMetrics) (events : List (CanonicalEvent N)) :
    (recordEvents (some row) events).lastEventAt = frozenAt row events :=
  lastEventAt_foldl events _

/-! ### A call for each batch -/

/-- The row that the calls for the batches hand to `upsert`, when each one gets the row of the call before. -/
def recordAll (row : RunMetrics) (batches : List (List (CanonicalEvent N))) : RunMetrics :=
  batches.foldl (fun row batch => recordEvents (some row) batch) row

private theorem recordAll_cons (row : RunMetrics) (batch : List (CanonicalEvent N))
    (batches : List (List (CanonicalEvent N))) :
    recordAll row (batch :: batches) = recordAll (recordEvents (some row) batch) batches := rfl

private theorem recordAll_concat (row : RunMetrics) (batches : List (List (CanonicalEvent N)))
    (batch : List (CanonicalEvent N)) :
    recordAll row (batches ++ [batch]) = recordEvents (some (recordAll row batches)) batch := by
  simp [recordAll]

/-- The counters are what the batches contribute together. -/
theorem count_recordAll (row : RunMetrics) (batches : List (List (CanonicalEvent N))) {counter : Counter}
    (h : Priced counter batches.flatten) :
    (recordAll row batches).count counter = row.count counter + contributions counter batches.flatten := by
  induction batches generalizing row with
  | nil => simp [recordAll]
  | cons batch batches ih =>
    rw [List.flatten_cons] at h
    obtain ⟨hbatch, hrest⟩ := Priced.append_iff.1 h
    rw [recordAll_cons, ih _ hrest, count_recordEvents _ _ hbatch, List.flatten_cons, contributions_append, add_assoc,
      Option.getD_some]

private theorem sessionState_recordAll (row : RunMetrics) (batches : List (List (CanonicalEvent N))) :
    (recordAll row batches).sessionState = stateAfter row.sessionState batches.flatten := by
  induction batches generalizing row with
  | nil => simp [recordAll, stateAfter]
  | cons batch batches ih =>
    rw [recordAll_cons, ih, sessionState_recordEvents, List.flatten_cons, stateAfter_append]

private theorem firstEventAt_recordAll (row : RunMetrics) (batches : List (List (CanonicalEvent N))) :
    (recordAll row batches).firstEventAt =
      row.firstEventAt.or (batches.flatten.head?.map fun event => event.ts) := by
  induction batches generalizing row with
  | nil => simp [recordAll]
  | cons batch batches ih =>
    rw [recordAll_cons, ih, firstEventAt_recordEvents, List.flatten_cons, Option.or_assoc, List.head?_append,
      Option.map_or]

/-- The calls write the time of the last event of the last batch that finds the session open, unless the run ends
after. -/
theorem lastEventAt_recordAll (row : RunMetrics) (batches : List (List (CanonicalEvent N))) :
    (recordAll row batches).lastEventAt = lastTime row batches := by
  unfold lastTime
  induction batches generalizing row with
  | nil => simp [recordAll, lastOpen, lastEnded]
  | cons batch batches ih =>
    rw [recordAll_cons, ih, sessionState_recordEvents, lastEventAt_recordEvents, lastOpen, Option.map_or,
      Option.or_assoc, List.flatten_cons]
    congr 1
    rw [lastEnded_append, frozenAt]
    cases hany : (batch ++ batches.flatten).any runEnded with
    | true =>
      obtain ⟨ts, hts⟩ : ∃ ts, lastEnded (batch ++ batches.flatten) = some ts := by
        rw [← Option.isSome_iff_exists, ← Option.ne_none_iff_isSome, ne_eq, lastEnded_eq_none, hany]
        simp
      rw [lastEnded_append] at hts
      rw [← Option.or_assoc, hts]
      simp
    | false =>
      obtain ⟨hbatch, hrest⟩ := Bool.or_eq_false_iff.1 (List.any_append.symm.trans hany)
      rw [lastEnded_eq_none.2 hbatch, lastEnded_eq_none.2 hrest]
      cases isTerminalState row.sessionState <;> simp

/-- One call freezes the run where one batch does. -/
theorem lastTime_singleton (row : RunMetrics) (events : List (CanonicalEvent N)) :
    lastTime row [events] = frozenAt row events := by
  rw [← lastEventAt_recordAll, ← lastEventAt_recordEvents]
  rfl

omit [JsNumber N] [ExactNumber N] in
/-- When the calls write the time that one call writes. -/
theorem lastTime_iff (getTime : String → Int) (row : RunMetrics) {batches : List (List (CanonicalEvent N))}
    (hbatches : ∀ batch ∈ batches, batch ≠ []) :
    (lastTime row batches).map getTime = (frozenAt row batches.flatten).map getTime ↔
      FrozenAcross getTime row batches := by
  unfold lastTime FrozenAcross
  cases hopen : lastOpen row.sessionState batches with
  | some event =>
    constructor
    · rintro h _ ⟨⟩
      exact h.symm
    · intro h
      exact (h event rfl).symm
  | none =>
    -- every batch finds the session closed, or the run ends later
    have hfrozen : frozenAt row batches.flatten = (lastEnded batches.flatten).or row.lastEventAt := by
      cases hended : lastEnded batches.flatten with
      | some ts => simp [frozenAt, hended]
      | none =>
        cases hstate : isTerminalState row.sessionState with
        | true => simp [frozenAt, hended, hstate]
        | false =>
          have hnil : batches = [] := by
            by_contra hne
            exact lastOpen_ne_none hstate hbatches hne hended hopen
          subst hnil
          simp [frozenAt, hstate, lastEnded]
    simp [hfrozen]

/-- The last batch decides whether the cost is `NaN`, and without a batch the row before. -/
theorem estimatedCostUsd_recordAll_iff (row : RunMetrics) (batches : List (List (CanonicalEvent N))) :
    (recordAll row batches).estimatedCostUsd = (recordEvents (some row) batches.flatten).estimatedCostUsd ↔
      (batches.flatten.any isUnpriced = true →
        ∃ batch, batches.getLast? = some batch ∧ batch.any isUnpriced = true) ∧
      (batches = [] → row.estimatedCostUsd ≠ none) := by
  rcases List.eq_nil_or_concat batches with rfl | ⟨before, batch, rfl⟩
  · have hrow : (recordEvents (some row) ([] : List (CanonicalEvent N))).estimatedCostUsd =
        some (row.estimatedCostUsd.getD 0) := rfl
    rw [List.flatten_nil, hrow]
    cases hcost : row.estimatedCostUsd <;> simp [recordAll, hcost]
  · have hflatten : (before ++ [batch]).flatten = before.flatten ++ batch := by simp
    rw [List.concat_eq_append, recordAll_concat, estimatedCostUsd_recordEvents, estimatedCostUsd_recordEvents, hflatten,
      List.any_append, Option.getD_some, Option.getD_some]
    have hlast : (∃ last, (before ++ [batch]).getLast? = some last ∧ last.any isUnpriced = true) ↔
        batch.any isUnpriced = true := by
      rw [List.getLast?_concat]
      simp only [Option.some.injEq, exists_eq_left']
    rw [hlast]
    cases hbatch : batch.any isUnpriced with
    | true => simp
    | false =>
      cases hbefore : before.flatten.any isUnpriced with
      | true => simp
      | false =>
        rw [count_recordAll row before fun _ => hbefore, contributions_append, add_assoc]
        simp

end

/-! ### Calls that fail -/

section

variable [JsNumber N] [ExactNumber N] {getTime : String → Int}

/-- What is stored of a session state. -/
theorem varchar_stored {state : Option String} (h : state.all (varchar 64) = true) :
    (state.bind (Columns.stored 64)).all (varchar 64) = true ∧
      (state.bind (Columns.stored 64)).bind (Columns.stored 64) = state.bind (Columns.stored 64) ∧
      isTerminalState (state.bind (Columns.stored 64)) = isTerminalState state := by
  cases state with
  | none => simp
  | some s =>
    obtain ⟨t, ht⟩ := Option.isSome_iff_exists.1 (isSome_stored.trans h)
    rw [Option.bind_some, ht, Option.bind_some]
    refine ⟨?_, stored_stored ht, ?_⟩
    · rw [Option.all_some, ← isSome_stored, stored_stored ht]
      rfl
    · -- a text that has lost something has the length of the column
      by_cases hlength : t.length < 64
      · rw [eq_of_stored_of_lt ht hlength]
      · obtain ⟨-, -, spaces, -, hs⟩ := stored_eq_some ht
        have hlong : ¬s.length < 64 := by
          rw [← String.length_toList, hs, List.length_append, String.length_toList]
          omega
        have hopen : ∀ u : String, ¬u.length < 64 → isTerminalState (some u) = false := by
          intro u hu
          simp only [isTerminalState, Option.some.injEq, Bool.or_eq_false_iff, decide_eq_false_iff_not]
          refine ⟨⟨?_, ?_⟩, ?_⟩ <;> · rintro rfl; exact hu (by decide)
        rw [hopen t hlength, hopen s hlong]

private theorem RunMetrics.fits_iff {row : RunMetrics} : row.fits getTime = true ↔
    (∀ counter ∈ integerCounters, integer (row.count counter) = true) ∧
      (row.durationMs getTime).all (fun ms => integer ms) = true ∧ row.sessionState.all (varchar 64) = true := by
  rw [RunMetrics.fits, columnsTake, Bool.and_eq_true, Bool.and_eq_true, List.all_eq_true, and_assoc]

private theorem count_cut (row : RunMetrics) : row.cut.count = row.count := by
  funext counter
  cases counter <;> rfl

private theorem fits_cut {row : RunMetrics} (h : row.fits getTime = true) : row.cut.fits getTime = true := by
  rw [RunMetrics.fits_iff] at h ⊢
  rw [count_cut]
  exact ⟨h.1, h.2.1, (varchar_stored h.2.2).1⟩

private theorem cut_cut {row : RunMetrics} (h : row.fits getTime = true) : row.cut.cut = row.cut := by
  rw [RunMetrics.fits_iff] at h
  unfold RunMetrics.cut
  simp only [(varchar_stored h.2.2).2.1]

/-- The call for the events succeeds. -/
def isTaken (current : Option (TableRow getTime)) (events : List (CanonicalEvent N)) : Bool :=
  events.all isRecordable && (recordEvents (current.map TableRow.row) events).fits getTime

private theorem isTaken_iff {current : Option (TableRow getTime)} {events : List (CanonicalEvent N)} :
    isTaken current events = true ↔ events.all isRecordable = true ∧
      (recordEvents (current.map TableRow.row) events).fits getTime = true := by
  rw [isTaken, Bool.and_eq_true]

/-- The row after a call of `recordEvents`.  A call throws where a value of the events cannot be converted and where
`upsert` is refused, and leaves the row. -/
def recordCall (current : Option (TableRow getTime)) (events : List (CanonicalEvent N)) : Option (TableRow getTime) :=
  if h : isTaken current events = true then
    some ⟨(recordEvents (current.map TableRow.row) events).cut, fits_cut (isTaken_iff.1 h).2,
      cut_cut (isTaken_iff.1 h).2⟩
  else current

/-- The row after the calls for the batches. -/
def recordBatches (current : Option (TableRow getTime)) (batches : List (List (CanonicalEvent N))) :
    Option (TableRow getTime) :=
  batches.foldl recordCall current

/-- The row that a call loads. -/
def rowOf (current : Option (TableRow getTime)) : RunMetrics := (current.map TableRow.row).getD {}

private theorem recordEvents_rowOf (current : Option (TableRow getTime)) (events : List (CanonicalEvent N)) :
    recordEvents (current.map TableRow.row) events = recordEvents (some (rowOf current)) events := by
  cases current <;> rfl

private theorem fits_rowOf (current : Option (TableRow getTime)) : (rowOf current).fits getTime = true := by
  cases current with
  | none =>
    have hcount : ∀ counter ∈ integerCounters, integer (({} : RunMetrics).count counter) = true := by decide +kernel
    exact RunMetrics.fits_iff.2 ⟨hcount, rfl, rfl⟩
  | some row => exact row.fits

private theorem cut_rowOf (current : Option (TableRow getTime)) : (rowOf current).cut = rowOf current := by
  cases current with
  | none => rfl
  | some row => exact row.kept

private theorem recordCall_of_taken {current : Option (TableRow getTime)} {events : List (CanonicalEvent N)}
    (h : isTaken current events = true) :
    rowOf (recordCall current events) = (recordEvents (some (rowOf current)) events).cut := by
  rw [← recordEvents_rowOf, recordCall, dif_pos h]
  rfl

private theorem recordCall_of_not_taken {current : Option (TableRow getTime)} {events : List (CanonicalEvent N)}
    (h : isTaken current events = false) : recordCall current events = current := by
  rw [recordCall, dif_neg (by rw [h]; exact Bool.false_ne_true)]

/-! ### Every call, and none -/

/-- Each of the calls for the batches succeeds. -/
def allTaken : Option (TableRow getTime) → List (List (CanonicalEvent N)) → Bool
  | _, [] => true
  | current, batch :: batches => isTaken current batch && allTaken (recordCall current batch) batches

private theorem eventCount_recordEvents (row : RunMetrics) (events : List (CanonicalEvent N)) :
    (recordEvents (some row) events).eventCount = row.eventCount + events.length := by
  have hpriced : Priced .eventCount events := priced_of_ne (by decide) events
  have hcount : ((recordEvents (some row) events).eventCount : Rat) = row.eventCount + events.length := by
    rw [← contributions_eventCount]
    exact count_recordEvents (some row) events hpriced
  exact_mod_cast hcount

private theorem eventCount_recordCall (current : Option (TableRow getTime)) (events : List (CanonicalEvent N)) :
    (rowOf (recordCall current events)).eventCount =
      (rowOf current).eventCount + if isTaken current events then events.length else 0 := by
  cases h : isTaken current events with
  | true =>
    rw [recordCall_of_taken h]
    exact eventCount_recordEvents _ _
  | false =>
    rw [recordCall_of_not_taken h]
    simp

private theorem eventCount_le_recordBatches (current : Option (TableRow getTime))
    (batches : List (List (CanonicalEvent N))) :
    (rowOf current).eventCount ≤ (rowOf (recordBatches current batches)).eventCount := by
  induction batches generalizing current with
  | nil => exact le_refl _
  | cons batch batches ih =>
    have hcall := eventCount_recordCall current batch
    have hrest := ih (recordCall current batch)
    exact (by omega : (rowOf current).eventCount ≤ (rowOf (recordCall current batch)).eventCount).trans hrest

private theorem eventCount_recordBatches_le (current : Option (TableRow getTime))
    (batches : List (List (CanonicalEvent N))) :
    (rowOf (recordBatches current batches)).eventCount ≤ (rowOf current).eventCount + batches.flatten.length := by
  induction batches generalizing current with
  | nil => simp [recordBatches]
  | cons batch batches ih =>
    have hcall := eventCount_recordCall current batch
    have hrest := ih (recordCall current batch)
    change (rowOf (recordBatches (recordCall current batch) batches)).eventCount ≤ _
    rw [List.flatten_cons, List.length_append]
    split at hcall <;> omega

/-- When all events are counted, every call has succeeded. -/
theorem allTaken_of_eventCount {current : Option (TableRow getTime)} {batches : List (List (CanonicalEvent N))}
    (hbatches : ∀ batch ∈ batches, batch ≠ [])
    (h : (rowOf (recordBatches current batches)).eventCount = (rowOf current).eventCount + batches.flatten.length) :
    allTaken current batches = true := by
  induction batches generalizing current with
  | nil => rfl
  | cons batch batches ih =>
    obtain ⟨hbatch, hrest⟩ := List.forall_mem_cons.1 hbatches
    have hlength := List.length_pos_of_ne_nil hbatch
    have hcall := eventCount_recordCall current batch
    have hle := eventCount_recordBatches_le (recordCall current batch) batches
    change (rowOf (recordBatches (recordCall current batch) batches)).eventCount = _ at h
    rw [List.flatten_cons, List.length_append] at h
    cases htaken : isTaken current batch with
    | true =>
      rw [htaken, if_pos rfl] at hcall
      rw [allTaken, htaken, Bool.true_and]
      exact ih hrest (by omega)
    | false =>
      rw [htaken, if_neg Bool.false_ne_true] at hcall
      omega

/-- When no event is counted, no call has succeeded. -/
theorem not_taken_of_eventCount {current : Option (TableRow getTime)} {batches : List (List (CanonicalEvent N))}
    (hbatches : ∀ batch ∈ batches, batch ≠ [])
    (h : (rowOf (recordBatches current batches)).eventCount = (rowOf current).eventCount) :
    ∀ batch ∈ batches, isTaken current batch = false := by
  induction batches with
  | nil => simp
  | cons batch batches ih =>
    obtain ⟨hbatch, hrest⟩ := List.forall_mem_cons.1 hbatches
    have hlength := List.length_pos_of_ne_nil hbatch
    have hcall := eventCount_recordCall current batch
    have hle := eventCount_le_recordBatches (recordCall current batch) batches
    change (rowOf (recordBatches (recordCall current batch) batches)).eventCount = _ at h
    cases htaken : isTaken current batch with
    | true =>
      rw [htaken, if_pos rfl] at hcall
      omega
    | false =>
      rw [recordCall_of_not_taken htaken] at h
      exact List.forall_mem_cons.2 ⟨htaken, ih hrest h⟩

private theorem recordBatches_of_not_taken {current : Option (TableRow getTime)}
    {batches : List (List (CanonicalEvent N))}
    (h : ∀ batch ∈ batches, isTaken current batch = false) : recordBatches current batches = current := by
  induction batches with
  | nil => rfl
  | cons batch batches ih =>
    obtain ⟨hbatch, hrest⟩ := List.forall_mem_cons.1 h
    change recordBatches (recordCall current batch) batches = current
    rw [recordCall_of_not_taken hbatch, ih hrest]

private theorem allTaken_concat (current : Option (TableRow getTime)) (batches : List (List (CanonicalEvent N)))
    (batch : List (CanonicalEvent N)) :
    allTaken current (batches ++ [batch]) =
      (allTaken current batches && isTaken (recordBatches current batches) batch) := by
  induction batches generalizing current with
  | nil => simp [allTaken, recordBatches]
  | cons first batches ih =>
    rw [List.cons_append, allTaken, ih, allTaken, Bool.and_assoc]
    rfl

private theorem recordBatches_concat (current : Option (TableRow getTime)) (batches : List (List (CanonicalEvent N)))
    (batch : List (CanonicalEvent N)) :
    recordBatches current (batches ++ [batch]) = recordCall (recordBatches current batches) batch := by
  simp [recordBatches]

/-! ### When every call succeeds -/

/-- The call after a row has been stored writes what it would have written of the row before. -/
theorem recordEvents_cut {row : RunMetrics} (h : row.sessionState.all (varchar 64) = true)
    (events : List (CanonicalEvent N)) :
    recordEvents (some row.cut) events =
      { recordEvents (some row) events with sessionState := stateAfter row.cut.sessionState events } := by
  have hfold : ∀ (l : Recording) (state : Option String),
      (events.foldl recordEvent { l with row := { l.row with sessionState := state } }).row =
        { (events.foldl recordEvent l).row with sessionState := stateAfter state events } := by
    induction events with
    | nil => intro l state; rfl
    | cons event events ih =>
      intro l state
      have hstep : recordEvent { l with row := { l.row with sessionState := state } } event =
          { recordEvent l event with
            row := { (recordEvent l event).row with sessionState := stateAfter state [event] } } := by
        rw [stateAfter, lastWrite_singleton]
        rfl
      have hsplit : stateAfter (stateAfter state [event]) events = stateAfter state (event :: events) :=
        (stateAfter_append state [event] events).symm
      rw [List.foldl_cons, List.foldl_cons, hstep, ih, hsplit]
  have hterminal : isTerminalState row.cut.sessionState = isTerminalState row.sessionState := (varchar_stored h).2.2
  unfold recordEvents
  show (events.foldl recordEvent ⟨row.cut.loaded, isTerminalState row.cut.sessionState⟩).row = _
  rw [hterminal]
  exact hfold ⟨row.loaded, isTerminalState row.sessionState⟩ row.cut.sessionState

/-- The columns take what the calls write, and keep the same of it. -/
theorem recordEvents_cut_iff (getTime : String → Int) {row : RunMetrics} (h : row.sessionState.all (varchar 64) = true)
    (events : List (CanonicalEvent N)) :
    ((recordEvents (some row.cut) events).fits getTime = (recordEvents (some row) events).fits getTime) ∧
      (recordEvents (some row.cut) events).cut = (recordEvents (some row) events).cut := by
  obtain ⟨hfits, hstored, -⟩ := varchar_stored h
  have hstate : stateAfter row.cut.sessionState events =
      stateAfter (row.sessionState.bind (Columns.stored 64)) events :=
    rfl
  have hcount : ∀ (r : RunMetrics) (state : Option String), { r with sessionState := state }.count = r.count := by
    intro r state
    funext counter
    cases counter <;> rfl
  have hrow := sessionState_recordEvents row events
  rw [recordEvents_cut h, hstate]
  unfold stateAfter at hrow ⊢
  cases hwrite : lastWrite reportedState events with
  | some state =>
    rw [hwrite, Option.some_or] at hrow
    rw [Option.some_or, ← hrow]
    exact ⟨rfl, rfl⟩
  | none =>
    rw [hwrite, Option.none_or] at hrow
    rw [Option.none_or]
    constructor
    · unfold RunMetrics.fits columnsTake
      rw [hcount, hrow, hfits, h]
      rfl
    · unfold RunMetrics.cut
      simp only [hstored, hrow]

/-- What the columns have to take after the calls for the batches: the row before with what the events add to it, the
times of the first event and of the last one that counts, and the session state. -/
def fitsAfter (getTime : String → Int) (row : RunMetrics) (batches : List (List (CanonicalEvent N))) : Bool :=
  columnsTake (fun counter => row.count counter + contributions counter batches.flatten)
    (durationOf getTime (row.firstEventAt.or (batches.flatten.head?.map fun event => event.ts)) (lastTime row batches))
    (stateAfter row.sessionState batches.flatten)

private theorem fits_recordAll (row : RunMetrics) (batches : List (List (CanonicalEvent N))) :
    (recordAll row batches).fits getTime = fitsAfter getTime row batches := by
  have hcount : integerCounters.all (fun counter => integer ((recordAll row batches).count counter)) =
      integerCounters.all fun counter => integer (row.count counter + contributions counter batches.flatten) := by
    rw [Bool.eq_iff_iff, List.all_eq_true, List.all_eq_true]
    refine forall₂_congr fun counter hcounter => ?_
    have hne : counter ≠ .estimatedCostUsd := by
      rintro rfl
      exact absurd hcounter (by decide)
    rw [count_recordAll row batches (priced_of_ne hne _)]
  unfold RunMetrics.fits fitsAfter columnsTake RunMetrics.durationMs
  rw [firstEventAt_recordAll, lastEventAt_recordAll, sessionState_recordAll, hcount]

end

/-! ### Cutting the events into batches -/

section

variable [JsNumber N] [ExactNumber N] {getTime : String → Int}

/-- The table keeps what the calls write, and its session state fits. -/
theorem recordBatches_of_allTaken {current : Option (TableRow getTime)} {batches : List (List (CanonicalEvent N))}
    (h : allTaken current batches = true) :
    rowOf (recordBatches current batches) = (recordAll (rowOf current) batches).cut ∧
      (recordAll (rowOf current) batches).sessionState.all (varchar 64) = true := by
  induction batches using List.reverseRecOn with
  | nil => exact ⟨(cut_rowOf current).symm, (RunMetrics.fits_iff.1 (fits_rowOf current)).2.2⟩
  | append_singleton batches batch ih =>
    rw [allTaken_concat, Bool.and_eq_true] at h
    obtain ⟨hbatches, htaken⟩ := h
    obtain ⟨hrow, hstate⟩ := ih hbatches
    obtain ⟨hfits, hcut⟩ := recordEvents_cut_iff getTime hstate batch
    have hlast := (isTaken_iff.1 htaken).2
    rw [recordEvents_rowOf, hrow, hfits] at hlast
    rw [recordBatches_concat, recordCall_of_taken htaken, recordAll_concat, hrow]
    exact ⟨hcut, (RunMetrics.fits_iff.1 hlast).2.2⟩

/-- When the call after a number of calls succeeds. -/
theorem isTaken_recordBatches {current : Option (TableRow getTime)} {batches : List (List (CanonicalEvent N))}
    (h : allTaken current batches = true) (batch : List (CanonicalEvent N)) :
    isTaken (recordBatches current batches) batch =
      (batch.all isRecordable && fitsAfter getTime (rowOf current) (batches ++ [batch])) := by
  obtain ⟨hrow, hstate⟩ := recordBatches_of_allTaken h
  rw [isTaken, recordEvents_rowOf, hrow, (recordEvents_cut_iff getTime hstate batch).1, ← recordAll_concat,
    fits_recordAll]

/-- The first call after a row. -/
theorem isTaken_eq (current : Option (TableRow getTime)) (events : List (CanonicalEvent N)) :
    isTaken current events = (events.all isRecordable && fitsAfter getTime (rowOf current) [events]) := by
  have hnone : allTaken current ([] : List (List (CanonicalEvent N))) = true := rfl
  exact isTaken_recordBatches hnone events

/-- Each of the calls succeeds when the values of the events convert and the columns take every row. -/
theorem allTaken_iff {current : Option (TableRow getTime)} {batches : List (List (CanonicalEvent N))} :
    allTaken current batches = true ↔ batches.flatten.all isRecordable = true ∧
      ∀ cut, cut <+: batches → cut ≠ [] → fitsAfter getTime (rowOf current) cut = true := by
  induction batches using List.reverseRecOn with
  | nil => simp [allTaken]
  | append_singleton batches batch ih =>
    have hflatten : (batches ++ [batch]).flatten = batches.flatten ++ batch := by simp
    have hprefix : (∀ cut, cut <+: batches ++ [batch] → cut ≠ [] → fitsAfter getTime (rowOf current) cut = true) ↔
        (∀ cut, cut <+: batches → cut ≠ [] → fitsAfter getTime (rowOf current) cut = true) ∧
          fitsAfter getTime (rowOf current) (batches ++ [batch]) = true := by
      constructor
      · intro hall
        exact ⟨fun cut hcut => hall cut (hcut.trans (List.prefix_append ..)), hall _ (List.prefix_refl _) (by simp)⟩
      · rintro ⟨hall, hlast⟩ cut hcut hne
        rcases List.prefix_concat_iff.1 hcut with rfl | hcut
        · exact hlast
        · exact hall cut hcut hne
    rw [allTaken_concat, Bool.and_eq_true, hflatten, List.all_append, Bool.and_eq_true, hprefix]
    constructor
    · rintro ⟨hbatches, htaken⟩
      rw [isTaken_recordBatches hbatches, Bool.and_eq_true] at htaken
      obtain ⟨hconvert, hfits⟩ := ih.1 hbatches
      exact ⟨⟨hconvert, htaken.1⟩, hfits, htaken.2⟩
    · rintro ⟨⟨hconvert, hbatch⟩, hfits, hlast⟩
      have hbatches := ih.2 ⟨hconvert, hfits⟩
      rw [isTaken_recordBatches hbatches, hbatch, hlast]
      exact ⟨hbatches, rfl⟩

/-- Every call succeeds, no batch writes a later time than one call does, and the last batch has an event without a cost
if there is one at all. -/
structure TakenAlike (current : Option (TableRow getTime)) (batches : List (List (CanonicalEvent N))) : Prop where
  convert : batches.flatten.all isRecordable = true
  fit : ∀ cut, cut <+: batches → cut ≠ [] → fitsAfter getTime (rowOf current) cut = true
  frozen : FrozenAcross getTime (rowOf current) batches
  priced : batches.flatten.any isUnpriced = true →
    ∃ batch, batches.getLast? = some batch ∧ batch.any isUnpriced = true
  /-- Of no events one call writes a row, too, and the cost as a number. -/
  recorded : batches = [] → current ≠ none ∧ (rowOf current).estimatedCostUsd ≠ none

/-- One call would fail, and so would the call for each batch. -/
structure RefusedAlike (current : Option (TableRow getTime)) (batches : List (List (CanonicalEvent N))) : Prop where
  whole : (batches.flatten.all isRecordable && fitsAfter getTime (rowOf current) [batches.flatten]) = false
  each : ∀ batch ∈ batches, (batch.all isRecordable && fitsAfter getTime (rowOf current) [batch]) = false

def TableRow.stored (row : TableRow getTime) : StoredMetrics := row.row.stored getTime

/-- One call takes what the calls for the batches have taken. -/
theorem TakenAlike.whole {current : Option (TableRow getTime)} {batches : List (List (CanonicalEvent N))}
    (hbatches : ∀ batch ∈ batches, batch ≠ []) (h : TakenAlike current batches) :
    isTaken current batches.flatten = true := by
  have htime := (lastTime_iff getTime (rowOf current) hbatches).2 h.frozen
  have hfits : fitsAfter getTime (rowOf current) [batches.flatten] = fitsAfter getTime (rowOf current) batches := by
    unfold fitsAfter
    rw [durationOf_eq, durationOf_eq, lastTime_singleton, htime, List.flatten_singleton]
  rw [isTaken_eq, h.convert, hfits, Bool.true_and]
  by_cases hnil : batches = []
  · subst hnil
    rw [← fits_recordAll]
    exact fits_rowOf current
  · exact h.fit batches (List.prefix_refl _) hnil

private theorem stored_eq_iff (row row' : RunMetrics)
    (hcount : ∀ counter, counter ≠ .estimatedCostUsd → row.count counter = row'.count counter)
    (hfirst : row.firstEventAt = row'.firstEventAt) (hstate : row.sessionState = row'.sessionState) :
    row.cut.stored getTime = row'.cut.stored getTime ↔
      row.lastEventAt.map getTime = row'.lastEventAt.map getTime ∧ row.estimatedCostUsd = row'.estimatedCostUsd := by
  constructor
  · intro h
    exact ⟨congrArg StoredMetrics.lastEventAt h, congrArg StoredMetrics.estimatedCostUsd h⟩
  · rintro ⟨hlast, hcost⟩
    have hall : row.count = row'.count := by
      funext counter
      by_cases hcounter : counter = .estimatedCostUsd
      · subst hcounter
        exact congrArg (fun cost : Option Rat => cost.getD 0) hcost
      · exact hcount counter hcounter
    have hduration : row.cut.durationMs getTime = row'.cut.durationMs getTime := by
      show durationOf getTime row.firstEventAt row.lastEventAt = durationOf getTime row'.firstEventAt row'.lastEventAt
      rw [durationOf_eq, durationOf_eq, hfirst, hlast]
    unfold RunMetrics.stored
    rw [count_cut, count_cut, hall, hduration]
    simp only [RunMetrics.cut, hcost, hfirst, hlast, hstate]

private theorem eventCount_of_stored {current current' : Option (TableRow getTime)}
    (h : current.map TableRow.stored = current'.map TableRow.stored) :
    (rowOf current).eventCount = (rowOf current').eventCount := by
  have hcount : ∀ current : Option (TableRow getTime), ((rowOf current).eventCount : Rat) =
      ((current.map TableRow.stored).map fun row => row.count .eventCount).getD 0 := by
    intro current
    cases current <;> rfl
  have hcast : ((rowOf current).eventCount : Rat) = (rowOf current').eventCount := by rw [hcount, h, ← hcount]
  exact_mod_cast hcast

/-- A call that succeeds leaves a row. -/
theorem eq_none_of_recordBatches {current : Option (TableRow getTime)} {batches : List (List (CanonicalEvent N))}
    (hall : allTaken current batches = true) (h : recordBatches current batches = none) :
    batches = [] ∧ current = none := by
  rcases List.eq_nil_or_concat batches with rfl | ⟨before, batch, rfl⟩
  · exact ⟨rfl, h⟩
  · rw [List.concat_eq_append] at hall h
    rw [allTaken_concat, Bool.and_eq_true] at hall
    rw [recordBatches_concat, recordCall, dif_pos hall.2] at h
    exact absurd h nofun

/-- Calls that all succeed leave the row of one call that succeeds when they freeze the run and its cost alike. -/
theorem stored_of_allTaken_iff {current : Option (TableRow getTime)} {batches : List (List (CanonicalEvent N))}
    (hbatches : ∀ batch ∈ batches, batch ≠ []) (hwhole : isTaken current batches.flatten = true)
    (hall : allTaken current batches = true) :
    (recordBatches current batches).map TableRow.stored =
        (recordBatches current [batches.flatten]).map TableRow.stored ↔
      TakenAlike current batches := by
  obtain ⟨hconvert, hfit⟩ := allTaken_iff.1 hall
  have hone : rowOf (recordBatches current [batches.flatten]) =
      (recordEvents (some (rowOf current)) batches.flatten).cut := recordCall_of_taken hwhole
  obtain ⟨one, hsome⟩ : ∃ one, recordBatches current [batches.flatten] = some one := ⟨_, dif_pos hwhole⟩
  rw [hsome] at hone ⊢
  cases hrows : recordBatches current batches with
  | none =>
    obtain ⟨hnil, hcurrent⟩ := eq_none_of_recordBatches hall hrows
    constructor
    · exact nofun
    · intro h
      exact absurd hcurrent (h.recorded hnil).1
  | some row =>
    have hrow : row.row = (recordAll (rowOf current) batches).cut := by
      rw [← (recordBatches_of_allTaken hall).1, hrows]
      rfl
    have hstored : some row.stored = some one.stored ↔
        (recordAll (rowOf current) batches).cut.stored getTime =
          (recordEvents (some (rowOf current)) batches.flatten).cut.stored getTime := by
      rw [Option.some.injEq, TableRow.stored, TableRow.stored, hrow, ← hone]
      rfl
    have hcounts : ∀ counter, counter ≠ .estimatedCostUsd → (recordAll (rowOf current) batches).count counter =
        (recordEvents (some (rowOf current)) batches.flatten).count counter := by
      intro counter hne
      rw [count_recordAll _ _ (priced_of_ne hne _), count_recordEvents _ _ (priced_of_ne hne _), Option.getD_some]
    rw [Option.map_some, Option.map_some, hstored, stored_eq_iff _ _ hcounts
      (by rw [firstEventAt_recordAll, firstEventAt_recordEvents])
      (by rw [sessionState_recordAll, sessionState_recordEvents]), lastEventAt_recordAll, lastEventAt_recordEvents,
      lastTime_iff getTime _ hbatches, estimatedCostUsd_recordAll_iff]
    constructor
    · rintro ⟨hfrozen, hpriced, hrecorded⟩
      refine ⟨hconvert, hfit, hfrozen, hpriced, fun hnil => ⟨?_, hrecorded hnil⟩⟩
      rintro rfl
      rw [hnil] at hrows
      exact absurd hrows nofun
    · intro h
      exact ⟨h.frozen, h.priced, fun hnil => (h.recorded hnil).2⟩

/-- Cutting the events into batches leaves the row of one call exactly when every call succeeds and freezes the run and
its cost as one call does, or no call succeeds. -/
theorem stored_recordBatches_iff (current : Option (TableRow getTime)) (batches : List (List (CanonicalEvent N)))
    (hbatches : ∀ batch ∈ batches, batch ≠ []) :
    (recordBatches current batches).map TableRow.stored =
        (recordBatches current [batches.flatten]).map TableRow.stored ↔
      TakenAlike current batches ∨ RefusedAlike current batches := by
  have hcounts : (recordBatches current batches).map TableRow.stored =
      (recordBatches current [batches.flatten]).map TableRow.stored →
        (rowOf (recordBatches current batches)).eventCount = (rowOf (recordCall current batches.flatten)).eventCount :=
    eventCount_of_stored
  have hcall := eventCount_recordCall current batches.flatten
  cases hwhole : isTaken current batches.flatten with
  | true =>
    rw [hwhole, if_pos rfl] at hcall
    have hrefused : ¬RefusedAlike current batches := by
      intro h
      rw [isTaken_eq, h.whole] at hwhole
      exact Bool.false_ne_true hwhole
    rw [or_iff_left hrefused]
    constructor
    · intro h
      exact (stored_of_allTaken_iff hbatches hwhole (allTaken_of_eventCount hbatches ((hcounts h).trans hcall))).1 h
    · intro h
      exact (stored_of_allTaken_iff hbatches hwhole (allTaken_iff.2 ⟨h.convert, h.fit⟩)).2 h
  | false =>
    have hrow : recordBatches current [batches.flatten] = current := recordCall_of_not_taken hwhole
    rw [hwhole, if_neg Bool.false_ne_true, Nat.add_zero] at hcall
    constructor
    · intro h
      have hnone := not_taken_of_eventCount hbatches ((hcounts h).trans hcall)
      refine .inr ⟨by rw [← isTaken_eq, hwhole], fun batch hbatch => ?_⟩
      rw [← isTaken_eq, hnone batch hbatch]
    · rintro (h | h)
      · rw [h.whole hbatches] at hwhole
        exact absurd hwhole nofun
      · have hnone : ∀ batch ∈ batches, isTaken current batch = false := by
          intro batch hbatch
          rw [isTaken_eq, h.each batch hbatch]
        rw [hrow, recordBatches_of_not_taken hnone]

end

/-! ### A cleanup event after the end -/

/-- The milliseconds since the full hour, of a time as `toISOString` writes it. -/
def sinceTheHour (ts : String) : Int :=
  let digit (i : Nat) : Int := (ts.toList.getD i '0').toNat - '0'.toNat
  (digit 14 * 10 + digit 15) * 60000 + (digit 17 * 10 + digit 18) * 1000 + (digit 20 * 100 + digit 21 * 10 + digit 22)

def eventAt (type : CanonicalEventType) (ts : String) : CanonicalEvent (Option Rat) where
  id := "e1"
  runId := "r1"
  seq := 1
  ts := ts
  type := type
  schemaVersion := some 3
  subject := none
  source := { kind := .runtime, name := "rust-runtime" }
  data := []

/-- A run that starts, and completes in the next batch. -/
def completed : List (List (CanonicalEvent (Option Rat))) :=
  [[eventAt .runStarted "2026-10-24T00:00:00.000Z"], [eventAt .runCompleted "2026-10-24T00:00:05.000Z"]]

/-- The same run, and the runtime reports the end of the session a minute later. -/
def cleanedUp : List (List (CanonicalEvent (Option Rat))) :=
  completed ++ [[eventAt .sessionStateChanged "2026-10-24T00:01:05.000Z"]]

/-- A run without metrics. -/
def unrecorded : Option (TableRow sinceTheHour) := none

theorem stored_completed : TakenAlike unrecorded completed ∧
    (recordBatches unrecorded completed).map TableRow.stored =
      (recordBatches unrecorded [completed.flatten]).map TableRow.stored := by
  have hfit : ∀ cut ∈ completed.inits, cut ≠ [] → fitsAfter sinceTheHour (rowOf unrecorded) cut = true := by
    decide +kernel
  have halike : TakenAlike unrecorded completed := by
    refine ⟨by decide +kernel, fun cut hcut => hfit cut ((List.mem_inits _ _).2 hcut), ?_, by decide +kernel, nofun⟩
    intro event h
    exact absurd (h.symm.trans (show lastOpen none completed = none by rfl)) nofun
  exact ⟨halike, (stored_recordBatches_iff unrecorded completed (by decide)).2 (.inl halike)⟩

/-- In one call the duration is frozen at the end of the run, in batches it is that of the cleanup event. -/
theorem not_stored_cleanedUp :
    ((recordBatches unrecorded cleanedUp).map TableRow.stored).map StoredMetrics.durationMs = some (some 65000) ∧
      ((recordBatches unrecorded [cleanedUp.flatten]).map TableRow.stored).map StoredMetrics.durationMs =
        some (some 5000) ∧
      ¬∀ batches : List (List (CanonicalEvent (Option Rat))), (∀ batch ∈ batches, batch ≠ []) →
        (recordBatches unrecorded batches).map TableRow.stored =
          (recordBatches unrecorded [batches.flatten]).map TableRow.stored := by
  have hbatches : ((recordBatches unrecorded cleanedUp).map TableRow.stored).map StoredMetrics.durationMs =
      some (some 65000) := by decide +kernel
  have hone : ((recordBatches unrecorded [cleanedUp.flatten]).map TableRow.stored).map StoredMetrics.durationMs =
      some (some 5000) := by decide +kernel
  refine ⟨hbatches, hone, ?_⟩
  intro hall
  rw [hall cleanedUp (by decide), hone] at hbatches
  exact absurd hbatches (by decide)

end MacpControlPlane.MetricsService

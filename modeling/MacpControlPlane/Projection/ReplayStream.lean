import Mathlib.Algebra.Order.Floor.Defs
import Mathlib.Data.Rat.Floor
import MacpControlPlane.Controllers.EventPages
import MacpControlPlane.Lib.HighWater
import MacpControlPlane.Projection.Rebuild

/-!
# The replay of a run (`ReplayService.stream`)

A replay reads the log of a run in batches, each from the last sequence number on that it has seen, and emits the
events one by one.  The numbers of a log have gaps, as the raw events are numbered by the same counter.

In the mode `timed` it waits between two events; the waits are part of what it does here, and `getTime` is the time of
a timestamp in milliseconds.
-/

namespace MacpControlPlane

open Js EventRepository HighWater

variable {N : Type}

namespace ReplayService

inductive ReplayMode where
  | instant
  | timed
  | step
  deriving DecidableEq

structure ReplayRequest where
  mode : Option ReplayMode := none
  speed : Option {speed : Rat // 0 < speed} := none
  fromSeq : Option Int := none
  toSeq : Option Int := none

structure ReplayConfig where
  replayBatchSize : Nat
  replayMaxDelayMs : Rat

/-- What the subscriber of a replay sees, and the waits. -/
inductive Output (N : Type) where
  | wait (ms : Rat)
  | next (event : CanonicalEvent N)
  | complete

/-- `Math.round` -/
def round (x : Rat) : Int := ⌊x + 1 / 2⌋

/-- The local variables of the loop. -/
structure Cursor where
  previousTimestamp : Int := 0
  afterSeq : Int

variable (getTime : String → Int) (config : ReplayConfig) (request : ReplayRequest)

/-- The wait before an event, and `previousTimestamp` after it. -/
def pace (previousTimestamp : Int) (event : CanonicalEvent N) : List (Output N) × Int :=
  match request.mode.getD .timed with
  | .instant | .step => ([], previousTimestamp)
  | .timed =>
    let currentTimestamp := getTime event.ts
    let speed : Rat := (request.speed.map Subtype.val).getD 1
    let delay : Rat := max 0 (round ((currentTimestamp - previousTimestamp) / speed))
    (if previousTimestamp ≠ 0 then [.wait (min delay config.replayMaxDelayMs)] else [], currentTimestamp)

/-- The rows of one batch; there is no cursor once the subscriber has been completed. -/
def emitRows : List (CanonicalRow N) → Cursor → List (Output N) × Option Cursor
  | [], cursor => ([], some cursor)
  | row :: rows, cursor =>
    if request.toSeq.any (· < (row.seq : Int)) then ([.complete], none)
    else
      let event := rowToCanonical row
      let (waits, previousTimestamp) := pace getTime config request cursor.previousTimestamp event
      let (rest, cursor') := emitRows rows { previousTimestamp, afterSeq := row.seq }
      (waits ++ .next event :: rest, cursor')

/-- `listCanonicalByRun`, from a position that may be negative. -/
def listCanonicalAfter (table : List (CanonicalRow N)) (runId : String) (afterSeq : Int) (limit : Nat) :
    List (CanonicalRow N) :=
  ((table.filter fun row => row.runId = runId && afterSeq < row.seq).mergeSort fun a b => a.seq ≤ b.seq).take limit

/-- The loop, with a bound on its rounds. -/
def streamLoop (table : List (CanonicalRow N)) (runId : String) : Nat → Cursor → Option (List (Output N))
  | 0, _ => none
  | rounds + 1, cursor =>
    let rows := listCanonicalAfter table runId cursor.afterSeq config.replayBatchSize
    if rows = [] then some [.complete]
    else
      match emitRows getTime config request rows cursor with
      | (outputs, none) => some outputs
      | (outputs, some cursor) =>
        if rows.length < config.replayBatchSize then some (outputs ++ [.complete])
        else (streamLoop table runId rounds cursor).map (outputs ++ ·)

def stream (table : List (CanonicalRow N)) (runId : String) (rounds : Nat) : Option (List (Output N)) :=
  streamLoop getTime config request table runId rounds { afterSeq := request.fromSeq.getD 1 - 1 }

/-! ### The log -/

/-- The table under its unique index on `(run_id, seq)`; `allocateSequence` counts from 1. -/
structure CanonicalTable (N : Type) where
  rows : List (CanonicalRow N)
  unique : (rows.map fun row => (row.runId, row.seq)).Nodup
  positive : ∀ row ∈ rows, 0 < row.seq

def Output.event? : Output N → Option (CanonicalEvent N)
  | .next event => some event
  | .wait _ | .complete => none

/-- The events among the outputs. -/
def emitted (outputs : List (Output N)) : List (CanonicalEvent N) := outputs.filterMap Output.event?

/-- `fromSeq <= seq <= toSeq` -/
def inRange (row : CanonicalRow N) : Bool :=
  request.fromSeq.getD 1 ≤ row.seq && request.toSeq.all ((row.seq : Int) ≤ ·)

variable {table : CanonicalTable N} {runId : String}

/-- The rows of a run that meet a condition, in the order of their numbers. -/
theorem increasing_sorted (table : CanonicalTable N) (runId : String) (p : CanonicalRow N → Bool) :
    Increasing CanonicalRow.seq
      ((table.rows.filter fun row => row.runId = runId && p row).mergeSort fun a b => a.seq ≤ b.seq) := by
  set rows := table.rows.filter fun row => row.runId = runId && p row
  have hrun : ∀ row ∈ rows, row.runId = runId := by
    intro row hrow
    have hboth := (List.mem_filter.1 hrow).2
    rw [Bool.and_eq_true, decide_eq_true_eq] at hboth
    exact hboth.1
  have hne : rows.Pairwise fun a b => a.seq ≠ b.seq := by
    refine ((List.pairwise_map.1 table.unique).filter _).imp_of_mem ?_
    intro a b ha hb hab heq
    exact hab (Prod.ext ((hrun a ha).trans (hrun b hb).symm) heq)
  exact increasing_mergeSort hne

theorem mem_listCanonicalUpTo {row : CanonicalRow N} {rows : List (CanonicalRow N)} {seq : Option Nat} :
    row ∈ listCanonicalUpTo rows runId seq ↔ row ∈ rows ∧ row.runId = runId ∧ seq.all (row.seq ≤ ·) := by
  simp [listCanonicalUpTo]

private theorem increasing_listCanonicalUpTo (table : CanonicalTable N) (runId : String) (seq : Option Nat) :
    Increasing CanonicalRow.seq (listCanonicalUpTo table.rows runId seq) := increasing_sorted table runId _

/-- A batch is the next part of the log. -/
theorem listCanonicalAfter_eq (table : CanonicalTable N) (runId : String) (afterSeq : Int) (limit : Nat) :
    listCanonicalAfter table.rows runId afterSeq limit =
      ((listCanonicalUpTo table.rows runId).filter fun row => afterSeq.toNat < row.seq).take limit := by
  unfold listCanonicalAfter
  congr 1
  refine eq_of_increasing (increasing_sorted table runId fun row => afterSeq < row.seq)
    ((increasing_listCanonicalUpTo table runId none).filter _) ?_
  intro row
  rw [List.mem_mergeSort, List.mem_filter, List.mem_filter, mem_listCanonicalUpTo]
  simp only [Option.all_none, and_true, Bool.and_eq_true, decide_eq_true_eq, and_assoc]
  refine and_congr_right fun hrow => and_congr_right fun _ => ?_
  have hpositive := table.positive row hrow
  omega

/-- From a position that is not negative it is what the endpoint for events reads. -/
theorem listCanonicalAfter_natCast (rows : List (CanonicalRow N)) (runId : String) (afterSeq limit : Nat) :
    listCanonicalAfter rows runId afterSeq limit = listCanonicalByRun rows runId afterSeq limit := by
  simp [listCanonicalAfter, listCanonicalByRun]

/-! ### One batch -/

@[simp] theorem emitted_nil : emitted ([] : List (Output N)) = [] := rfl

private theorem emitted_append (outputs rest : List (Output N)) :
    emitted (outputs ++ rest) = emitted outputs ++ emitted rest :=
  List.filterMap_append

/-- Outputs before the subscriber is completed. -/
def Running (outputs : List (Output N)) : Prop := Output.complete ∉ outputs

variable {getTime config request}

private theorem pace_running (previousTimestamp : Int) (event : CanonicalEvent N) :
    Running (pace getTime config request previousTimestamp event).1 ∧
      emitted (pace getTime config request previousTimestamp event).1 = [] := by
  unfold pace
  split
  · exact ⟨List.not_mem_nil, rfl⟩
  · exact ⟨List.not_mem_nil, rfl⟩
  · dsimp only
    split
    · exact ⟨by simp [Running], rfl⟩
    · exact ⟨List.not_mem_nil, rfl⟩

/-- The row is not past the end of the range. -/
def upTo (request : ReplayRequest) (row : CanonicalRow N) : Bool := request.toSeq.all ((row.seq : Int) ≤ ·)

private theorem any_toSeq_eq (row : CanonicalRow N) : request.toSeq.any (· < (row.seq : Int)) = !upTo request row := by
  unfold upTo
  cases request.toSeq with
  | none => rfl
  | some toSeq =>
    rw [Option.any_some, Option.all_some, ← decide_not]
    exact decide_eq_decide.2 not_le.symm

/-- What comes of an event, before the rows after it. -/
theorem emitted_cons (previousTimestamp : Int) (event : CanonicalEvent N) (rest : List (Output N)) :
    emitted ((pace getTime config request previousTimestamp event).1 ++ .next event :: rest) =
      event :: emitted rest := by
  rw [emitted_append, (pace_running previousTimestamp event).2]
  rfl

private theorem running_cons {previousTimestamp : Int} {event : CanonicalEvent N} {rest : List (Output N)}
    (h : Running rest) : Running ((pace getTime config request previousTimestamp event).1 ++ .next event :: rest) := by
  unfold Running
  rw [List.mem_append, List.mem_cons, not_or, not_or]
  exact ⟨(pace_running previousTimestamp event).1, nofun, h⟩

private theorem emitRows_cons_of_upTo {row : CanonicalRow N} (h : upTo request row = true)
    (rows : List (CanonicalRow N)) (cursor : Cursor) :
    emitRows getTime config request (row :: rows) cursor =
      let paced := pace getTime config request cursor.previousTimestamp (rowToCanonical row)
      let rest := emitRows getTime config request rows { previousTimestamp := paced.2, afterSeq := row.seq }
      (paced.1 ++ .next (rowToCanonical row) :: rest.1, rest.2) := by
  rw [emitRows, any_toSeq_eq, h, Bool.not_true, if_neg Bool.false_ne_true]

/-- A batch within the range is emitted, and the cursor is at its last row. -/
theorem emitRows_of_upTo (getTime : String → Int) (config : ReplayConfig) {rows : List (CanonicalRow N)}
    (h : ∀ row ∈ rows, upTo request row = true) (cursor : Cursor) :
    ∃ outputs previousTimestamp, emitRows getTime config request rows cursor =
        (outputs, some
          { previousTimestamp, afterSeq := (rows.getLast?.map fun row => (row.seq : Int)).getD cursor.afterSeq }) ∧
      Running outputs ∧ emitted outputs = rows.map rowToCanonical := by
  induction rows generalizing cursor with
  | nil => exact ⟨[], cursor.previousTimestamp, rfl, List.not_mem_nil, rfl⟩
  | cons row rows ih =>
    obtain ⟨hrow, hrows⟩ := List.forall_mem_cons.1 h
    set paced := pace getTime config request cursor.previousTimestamp (rowToCanonical row) with hpaced
    obtain ⟨outputs, previousTimestamp, heq, hrunning, hemitted⟩ := ih hrows
      { previousTimestamp := paced.2, afterSeq := row.seq }
    refine ⟨paced.1 ++ .next (rowToCanonical row) :: outputs, previousTimestamp, ?_, running_cons hrunning, ?_⟩
    · rw [emitRows_cons_of_upTo hrow]
      dsimp only
      rw [← hpaced, heq, List.getLast?_cons]
      cases rows.getLast? <;> rfl
    · rw [emitted_cons, hemitted, List.map_cons]

/-- A batch that goes past the range is emitted up to its end, and the subscriber is completed. -/
theorem emitRows_of_past (getTime : String → Int) (config : ReplayConfig) {rows : List (CanonicalRow N)}
    (h : ∃ row ∈ rows, upTo request row = false) (cursor : Cursor) :
    ∃ outputs, emitRows getTime config request rows cursor = (outputs ++ [.complete], none) ∧
      Running outputs ∧ emitted outputs = (rows.takeWhile (upTo request)).map rowToCanonical := by
  induction rows generalizing cursor with
  | nil =>
    obtain ⟨row, hrow, -⟩ := h
    exact absurd hrow List.not_mem_nil
  | cons row rows ih =>
    cases hrow : upTo request row with
    | false =>
      refine ⟨[], by rw [emitRows, any_toSeq_eq, hrow]; rfl, List.not_mem_nil, ?_⟩
      rw [List.takeWhile_cons_of_neg (by simp [hrow])]
      rfl
    | true =>
      obtain ⟨row', hmem, hpast⟩ := h
      have hrest : row' ∈ rows := by
        rcases List.mem_cons.1 hmem with rfl | hmem
        · exact absurd (hrow.symm.trans hpast) nofun
        · exact hmem
      set paced := pace getTime config request cursor.previousTimestamp (rowToCanonical row) with hpaced
      obtain ⟨outputs, heq, hrunning, hemitted⟩ := ih ⟨row', hrest, hpast⟩
        { previousTimestamp := paced.2, afterSeq := row.seq }
      refine ⟨paced.1 ++ .next (rowToCanonical row) :: outputs, ?_, running_cons hrunning, ?_⟩
      · rw [emitRows_cons_of_upTo hrow]
        dsimp only
        rw [← hpaced, heq, List.append_assoc, List.cons_append]
      · rw [emitted_cons, hemitted, List.takeWhile_cons_of_pos hrow, List.map_cons]

/-! ### The loop -/

/-- The rows of the log after a position. -/
def after (table : CanonicalTable N) (runId : String) (afterSeq : Int) : List (CanonicalRow N) :=
  (listCanonicalUpTo table.rows runId).filter fun row => afterSeq.toNat < row.seq

private theorem increasing_after (table : CanonicalTable N) (runId : String) (afterSeq : Int) :
    Increasing CanonicalRow.seq (after table runId afterSeq) :=
  (increasing_listCanonicalUpTo table runId none).filter _

/-- Past the end of the range there are only rows past its end. -/
theorem upTo_eq_false_of_lt {row row' : CanonicalRow N} (h : upTo request row = false) (hlt : row.seq < row'.seq) :
    upTo request row' = false := by
  unfold upTo at h ⊢
  cases htoSeq : request.toSeq with
  | none => simp [htoSeq] at h
  | some toSeq =>
    rw [htoSeq, Option.all_some, decide_eq_false_iff_not] at h
    rw [Option.all_some, decide_eq_false_iff_not]
    omega

/-- In an increasing list the rows of the range come first. -/
theorem takeWhile_upTo {rows : List (CanonicalRow N)} (h : Increasing CanonicalRow.seq rows) :
    rows.takeWhile (upTo request) = rows.filter (upTo request) := by
  induction rows with
  | nil => rfl
  | cons row rows ih =>
    obtain ⟨hrow, hrows⟩ := List.pairwise_cons.1 h
    cases hup : upTo request row with
    | true => rw [List.takeWhile_cons_of_pos hup, List.filter_cons_of_pos hup, ih hrows]
    | false =>
      rw [List.takeWhile_cons_of_neg (by simp [hup]), List.filter_cons_of_neg (by simp [hup]), eq_comm,
        List.filter_eq_nil_iff]
      intro row' hmem
      rw [upTo_eq_false_of_lt hup (hrow row' hmem)]
      exact Bool.false_ne_true

/-- Where the range has ended, so it has for all later rows. -/
theorem filter_upTo_append {rows rest : List (CanonicalRow N)} (h : Increasing CanonicalRow.seq (rows ++ rest))
    (hpast : ∃ row ∈ rows, upTo request row = false) :
    (rows ++ rest).filter (upTo request) = rows.filter (upTo request) := by
  obtain ⟨row, hrow, hup⟩ := hpast
  have hrest : rest.filter (upTo request) = [] := by
    rw [List.filter_eq_nil_iff]
    intro row' hrow'
    have hlt := (List.pairwise_append.1 h).2.2 row hrow row' hrow'
    rw [upTo_eq_false_of_lt hup hlt]
    exact Bool.false_ne_true
  rw [List.filter_append, hrest, List.append_nil]

/-- The log from the last row of a batch on is what is left of it. -/
theorem after_last {afterSeq : Int} {rows rest : List (CanonicalRow N)}
    (h : after table runId afterSeq = rows ++ rest) :
    after table runId ((rows.getLast?.map fun row => (row.seq : Int)).getD afterSeq) = rest := by
  have hrest : after table runId (top CanonicalRow.seq afterSeq.toNat rows : Nat) = rest := by
    have hprefix : rows <+: (listCanonicalUpTo table.rows runId).filter fun row => afterSeq.toNat < row.seq :=
      ⟨rest, h.symm⟩
    have hsplit := filter_eq_append (increasing_listCanonicalUpTo table runId none) hprefix
    exact List.append_cancel_left (hsplit.symm.trans h)
  have hincreasing : Increasing CanonicalRow.seq rows := by
    have hall := increasing_after table runId afterSeq
    rw [h] at hall
    exact (List.pairwise_append.1 hall).1
  have hmark : ∀ row ∈ rows, afterSeq.toNat < row.seq := by
    intro row hrow
    have hmem : row ∈ after table runId afterSeq := h ▸ List.mem_append_left rest hrow
    simpa using (List.mem_filter.1 hmem).2
  rw [top_eq_getLast hincreasing hmark] at hrest
  rw [← hrest]
  unfold after
  cases rows.getLast? <;>
    simp only [Option.map_none, Option.map_some, Option.getD_none, Option.getD_some, Int.toNat_natCast]

/-- With enough rounds the loop emits the rows of the range that are left, and completes the subscriber. -/
theorem streamLoop_eq (getTime : String → Int) (request : ReplayRequest) (hbatch : 1 ≤ config.replayBatchSize)
    {rounds : Nat} (cursor : Cursor) (hrounds : (after table runId cursor.afterSeq).length < rounds) :
    ∃ outputs, streamLoop getTime config request table.rows runId rounds cursor = some (outputs ++ [.complete]) ∧
      Running outputs ∧
      emitted outputs = ((after table runId cursor.afterSeq).filter (upTo request)).map rowToCanonical := by
  induction rounds generalizing cursor with
  | zero => exact absurd hrounds (Nat.not_lt_zero _)
  | succ rounds ih =>
    set log := after table runId cursor.afterSeq with hlog
    obtain ⟨rows, rest, hsplit, hrows, hlength⟩ : ∃ rows rest, log = rows ++ rest ∧
        listCanonicalAfter table.rows runId cursor.afterSeq config.replayBatchSize = rows ∧
        rows.length = min config.replayBatchSize log.length :=
      ⟨_, _, (List.take_append_drop config.replayBatchSize log).symm,
        listCanonicalAfter_eq table runId cursor.afterSeq config.replayBatchSize, List.length_take⟩
    have hlogLength : log.length = rows.length + rest.length := by rw [hsplit, List.length_append]
    have hincreasing : Increasing CanonicalRow.seq (rows ++ rest) :=
      hsplit ▸ increasing_after table runId cursor.afterSeq
    rw [streamLoop, hrows, hsplit]
    by_cases hnil : rows = []
    · -- nothing is left
      rw [if_pos hnil]
      have hrest : rest = [] := by
        subst hnil
        rw [List.length_nil] at hlength hlogLength
        exact List.eq_nil_of_length_eq_zero (by omega)
      exact ⟨[], rfl, List.not_mem_nil, by simp [hnil, hrest]⟩
    · rw [if_neg hnil]
      by_cases hpast : ∃ row ∈ rows, upTo request row = false
      · -- the batch goes past the end of the range
        obtain ⟨outputs, heq, hrunning, hemitted⟩ := emitRows_of_past getTime config hpast cursor
        have hrange : rows.takeWhile (upTo request) = (rows ++ rest).filter (upTo request) := by
          rw [takeWhile_upTo (List.pairwise_append.1 hincreasing).1, filter_upTo_append hincreasing hpast]
        rw [heq]
        exact ⟨outputs, rfl, hrunning, by rw [hemitted, hrange]⟩
      · have hall : ∀ row ∈ rows, upTo request row = true := by
          intro row hrow
          by_contra hnot
          exact hpast ⟨row, hrow, Bool.eq_false_iff.2 hnot⟩
        obtain ⟨outputs, previousTimestamp, heq, hrunning, hemitted⟩ :=
          emitRows_of_upTo getTime config hall cursor
        have hfilter : rows.filter (upTo request) = rows := List.filter_eq_self.2 hall
        rw [heq]
        dsimp only
        by_cases hshort : rows.length < config.replayBatchSize
        · -- a short batch is the last one
          have hrest : rest = [] := List.eq_nil_of_length_eq_zero (by omega)
          rw [if_pos hshort]
          exact ⟨outputs, rfl, hrunning, by rw [hemitted, hrest, List.append_nil, hfilter]⟩
        · rw [if_neg hshort]
          have hafter := after_last (hlog.symm.trans hsplit)
          have hfuel :
              (after table runId ((rows.getLast?.map fun row => (row.seq : Int)).getD cursor.afterSeq)).length <
                rounds := by
            have hpositive : 0 < rows.length := List.length_pos_of_ne_nil hnil
            rw [hafter]
            omega
          obtain ⟨outputs', heq', hrunning', hemitted'⟩ := ih
            { previousTimestamp, afterSeq := (rows.getLast?.map fun row => (row.seq : Int)).getD cursor.afterSeq }
            hfuel
          refine ⟨outputs ++ outputs', ?_, ?_, ?_⟩
          · rw [heq', Option.map_some, List.append_assoc]
          · unfold Running
            rw [List.mem_append, not_or]
            exact ⟨hrunning, hrunning'⟩
          · rw [emitted_append, hemitted, hemitted', hafter, List.filter_append, hfilter, List.map_append]

/-! ### The replay -/

variable [JsNumber N]

omit [JsNumber N] in
/-- What is left from the first position on is what is in the range. -/
theorem filter_after_eq (table : CanonicalTable N) (runId : String) (request : ReplayRequest) :
    (after table runId (request.fromSeq.getD 1 - 1)).filter (upTo request) =
      (listCanonicalUpTo table.rows runId).filter (inRange request) := by
  unfold after
  rw [List.filter_filter]
  refine List.filter_congr ?_
  intro row hrow
  have hpositive := table.positive row (mem_listCanonicalUpTo.1 hrow).1
  have hfrom : ((request.fromSeq.getD 1 - 1).toNat < row.seq) ↔ request.fromSeq.getD 1 ≤ (row.seq : Int) := by omega
  rw [Bool.and_comm, inRange, decide_eq_decide.2 hfrom]
  rfl

omit [JsNumber N] in
/-- The rows up to a number are those of the log in that range. -/
theorem listCanonicalUpTo_eq_filter (table : CanonicalTable N) (runId : String) {request : ReplayRequest} {seq : Nat}
    (hfrom : request.fromSeq.getD 1 = 1) (hto : request.toSeq = some (seq : Int)) :
    listCanonicalUpTo table.rows runId (some seq) = (listCanonicalUpTo table.rows runId).filter (inRange request) := by
  refine eq_of_increasing (increasing_listCanonicalUpTo table runId (some seq))
    ((increasing_listCanonicalUpTo table runId none).filter _) ?_
  intro row
  rw [List.mem_filter, mem_listCanonicalUpTo, mem_listCanonicalUpTo, inRange, hfrom, hto]
  simp only [Option.all_some, Option.all_none, and_true, Bool.and_eq_true, decide_eq_true_eq, Nat.cast_le, and_assoc]
  refine and_congr_right fun hrow => and_congr_right fun _ => ?_
  have hpositive := table.positive row hrow
  omega

/-- A replay emits the events of the log in its range, in the order of their numbers and each once, and completes; what
it emits up to a number is what the state at that number is folded from. -/
theorem stream_faithful (getTime : String → Int) (config : ReplayConfig) (request : ReplayRequest)
    (table : CanonicalTable N) (runId : String) (hbatch : 1 ≤ config.replayBatchSize) (rounds : Nat)
    (hrounds : table.rows.length < rounds) :
    ∃ outputs, stream getTime config request table.rows runId rounds = some (outputs ++ [.complete]) ∧
      Running outputs ∧
      emitted outputs = ((listCanonicalUpTo table.rows runId).filter (inRange request)).map rowToCanonical ∧
      (emitted outputs).Pairwise (fun d e => d.seq < e.seq) ∧
      ∀ seq : Nat, request.fromSeq.getD 1 = 1 → request.toSeq = some (seq : Int) →
        applyEvents (.empty runId) (emitted outputs) = stateAt table.rows runId (some seq) := by
  have hlength : (after table runId (request.fromSeq.getD 1 - 1)).length < rounds := by
    have hle : (after table runId (request.fromSeq.getD 1 - 1)).length ≤ table.rows.length := by
      refine (List.length_filter_le _ _).trans ?_
      rw [listCanonicalUpTo, List.length_mergeSort]
      exact List.length_filter_le _ _
    omega
  obtain ⟨outputs, heq, hrunning, hemitted⟩ := streamLoop_eq getTime request hbatch
    { afterSeq := request.fromSeq.getD 1 - 1 } hlength
  rw [filter_after_eq] at hemitted
  refine ⟨outputs, heq, hrunning, hemitted, ?_, ?_⟩
  · rw [hemitted, List.pairwise_map]
    exact (increasing_listCanonicalUpTo table runId none).filter _
  · intro seq hfrom hto
    rw [hemitted, stateAt, ProjectionService.replayStateAt, listCanonicalUpTo_eq_filter table runId hfrom hto]

def rowAt (seq : Nat) (ts : String) : CanonicalRow (Option Rat) where
  id := "e"
  runId := "r1"
  seq := seq
  ts := ts
  type := .progressReported
  subjectKind := none
  subjectId := none
  sourceKind := "runtime"
  sourceName := "rust-runtime"
  rawType := none
  traceId := none
  spanId := none
  parentSpanId := none
  data := []
  schemaVersion := 3

/-- Three events between raw events. -/
def threeEvents : CanonicalTable (Option Rat) where
  rows := [rowAt 1 "a", rowAt 3 "b", rowAt 5 "c"]
  unique := by decide
  positive := by decide

theorem stream_threeEvents : 1 ≤ (⟨1, 2000⟩ : ReplayConfig).replayBatchSize ∧ threeEvents.rows.length < 4 ∧
    ∃ outputs, stream (fun _ => 0) ⟨1, 2000⟩ { toSeq := some 4 } threeEvents.rows "r1" 4 =
        some (outputs ++ [.complete]) ∧
      (emitted outputs).map CanonicalEvent.seq = [1, 3] := by
  obtain ⟨outputs, heq, -, hemitted, -⟩ := stream_faithful (fun _ => 0) ⟨1, 2000⟩ { toSeq := some 4 } threeEvents "r1"
    (by decide) 4 (by decide)
  have hlog : listCanonicalUpTo threeEvents.rows "r1" = threeEvents.rows :=
    listCanonicalUpTo_of_increasing (by decide) (by decide)
  refine ⟨by decide, by decide, outputs, heq, ?_⟩
  rw [hemitted, hlog]
  decide +kernel

end ReplayService

end MacpControlPlane

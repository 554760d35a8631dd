import MacpControlPlane.Lib.Machine
import MacpControlPlane.Runs.CancelCalls

/-!
# Cancelling runs in a batch (`run-insights.controller.ts`, `runs/run-executor.service.ts`)

`batchCancel` starts one `cancel` for each run id and waits until all have settled.  A call that has not thrown is
reported as `cancelled`.  Here the calls are interleaved statement by statement, with everything else that moves the
rows in between.

`markCancelled` does not throw for a run that has ended: it returns the row that it has read.  So the report is true if
and only if no call reads a run that is `completed` or `failed` at that point (`batchCancel_truthful_iff`).
-/

namespace MacpControlPlane

open Lifecycle RunExecutor

variable {N : Type}

namespace BatchCancel

/-- A row of `runs`, with what `cancel` reads of it besides. -/
structure Stored (N : Type) extends CancelHooks where
  record : Record N
  runtimeKind : String

def Stored.status (run : Stored N) : RunStatus := run.record.row.status

/-- What a call waits for. -/
inductive Event where
  /-- The next statement that reads or writes the database. -/
  | statement (env : Env)
  /-- That statement throws. -/
  | fault (message : String)
  | answered (answer : Answer)
  | stop
  /-- `streamHub.complete` -/
  | complete

/-- A call of `cancel` goes on; `kinds` are the runtimes that are registered. -/
def callNext (kinds : List String) (runId : String) (run : Option (Stored N)) :
    CancelAt → Event → Option (Option (Stored N) × CancelAt)
  | .reading, .statement _ =>
    match run with
    | some stored => some (run, hooked kinds stored.runtimeKind stored.toCancelHooks stored.record.row)
    | none => some (run, .rejected s!"run {runId} not found")
  | .reading, .fault message => some (run, .rejected message)
  | .marking phase, .statement env =>
    match run with
    | some stored =>
      let result := step env .markCancelled stored.record phase
      some (some { stored with record := result.1 }, .after result.2)
    | none => some (run, .rejected s!"run {runId} not found")
  | .marking _, .fault message => some (run, .rejected message)
  | here, .answered answer => (here.answered answer).map fun here' => (run, here')
  | .marked, .stop => some (run, .stopped)
  | .stopped, .complete => some (run, .returned)
  | _, _ => none

structure Call where
  runId : String
  here : CancelAt := .reading

inductive ReportedStatus where
  | cancelled | failed
  deriving DecidableEq

structure BatchCancelResult where
  runId : String
  status : ReportedStatus
  error : Option String
  deriving DecidableEq

/-- What `batchCancel` makes of a call that has settled. -/
def Call.result (call : Call) : Option BatchCancelResult :=
  match call.here with
  | .returned => some { runId := call.runId, status := .cancelled, error := none }
  | .rejected message => some { runId := call.runId, status := .failed, error := some message }
  | _ => none

/-- The results, once all calls have settled. -/
def batchCancel (calls : List Call) : Option (List BatchCancelResult) := calls.mapM Call.result

structure State (N : Type) where
  runs : String → Option (Stored N)
  calls : List Call

inductive Action where
  | call (i : Nat) (event : Event)
  /-- Another service moves the row of a run: it completes, or fails. -/
  | other (runId : String) (transition : Transition) (operation : IsOperation transition) (now : String)

/-- One step. -/
def next (kinds : List String) (s : State N) : Action → Option (State N)
  | .call i event =>
    s.calls[i]?.bind fun call =>
      (callNext kinds call.runId (s.runs call.runId) call.here event).map fun result =>
        { runs := Function.update s.runs call.runId result.1, calls := s.calls.set i { call with here := result.2 } }
  | .other runId transition _ now =>
    (s.runs runId).bind fun run =>
      (compareAndSet transition now run.record.row).map fun row =>
        { s with runs := Function.update s.runs runId (some { run with record := { run.record with row } }) }

/-- Any runs, in any status, and any list of ids. -/
def machine (kinds : List String) : Machine (State N) Action where
  start s := ∃ (runs : String → Option (Stored N)) (runIds : List String),
    s = { runs, calls := runIds.map fun runId => { runId } }
  next := next kinds

/-- The stored status of a run. -/
def State.status (s : State N) (runId : String) : Option RunStatus := (s.runs runId).map (·.status)

/-- Every run that is reported as cancelled is cancelled. -/
def Truthful (s : State N) : Prop :=
  ∀ call ∈ s.calls, ∀ result ∈ call.result, result.status = .cancelled → s.status result.runId = some .cancelled

/-- `markCancelled` does not find the run completed or failed. -/
def ReadsOpen (s : State N) : Action → Prop
  | .call i (.statement _) =>
    ∀ call, s.calls[i]? = some call → call.here = .marking .check →
      s.status call.runId ≠ some .completed ∧ s.status call.runId ≠ some .failed
  | _ => True

/-! ### One call -/

/-- The row is as it was, or has made a transition. -/
def StoredMoved : Option (Stored N) → Option (Stored N) → Prop
  | some run, some run' => RowMoved run.record.row run'.record.row
  | none, none => True
  | _, _ => False

variable {kinds : List String} {runId : String} {run run' : Option (Stored N)} {here here' : CancelAt} {event : Event}
  {s t : State N} {a : Action} {i : Nat}

private theorem StoredMoved.rfl : StoredMoved run run := by
  cases run with
  | some stored => exact Or.inl (Eq.refl _)
  | none => trivial

/-- A run that has ended keeps its status. -/
theorem StoredMoved.status (h : StoredMoved run run') {status : RunStatus}
    (hstatus : run.map (·.status) = some status) (hterminal : status.terminal = true) :
    run'.map (·.status) = some status := by
  cases run with
  | none => cases hstatus
  | some stored =>
    cases run' with
    | none => exact h.elim
    | some stored' =>
      have hrow : stored.status = status := Option.some.inj hstatus
      rw [← hrow] at hterminal
      have hkept : stored'.record.row = stored.record.row := RowMoved.of_terminal h hterminal
      rw [Option.map_some, Stored.status, hkept]
      exact congrArg some hrow

private theorem next_moved (h : callNext kinds runId run here event = some (run', here')) : StoredMoved run run' := by
  unfold callNext at h
  split at h
  case h_3 =>
    split at h
    · cases h
      exact step_rowMoved _ _ _ _
    · cases h
      trivial
  case h_1 =>
    split at h <;> (cases h; exact StoredMoved.rfl)
  case h_5 =>
    obtain ⟨here', -, heq⟩ := Option.map_eq_some_iff.1 h
    cases heq
    exact StoredMoved.rfl
  all_goals first | (cases h; exact StoredMoved.rfl) | cases h

/-- A statement of `markCancelled` that finds or makes the run ended leaves it cancelled, unless it is the first one. -/
theorem step_cancelled (env : Env) {record : Record N} {phase : Phase}
    (hcertain : certain (.marking phase) = true → record.row.status = .cancelled)
    (hopen : phase = .check → record.row.status ≠ .completed ∧ record.row.status ≠ .failed)
    (h : certain (.after (step env .markCancelled record phase).2) = true) :
    (step env .markCancelled record phase).1.row.status = .cancelled := by
  have hspec := step_spec env .markCancelled record phase
  generalize step env .markCancelled record phase = result at h hspec ⊢
  cases hspec with
  | left hleft =>
    obtain ⟨hcompleted, hfailed⟩ := hopen rfl
    change record.row.status.terminal = true at hleft
    change record.row.status = .cancelled
    revert hleft hcompleted hfailed
    cases record.row.status <;> simp [RunStatus.terminal]
  | wrote hwrote => exact compareAndSet_status hwrote
  | agreed hagreed => exact hagreed
  | emitted run => exact hcertain rfl
  | checked | missed | refused => exact absurd h Bool.false_ne_true

/-- What the call is certain of. -/
def Told (run : Option (Stored N)) (here : CancelAt) : Prop :=
  certain here = true → run.map (·.status) = some .cancelled

private theorem next_told (h : callNext kinds runId run here event = some (run', here')) (htold : Told run here)
    (hopen : ∀ env, here = .marking .check → event = .statement env →
      run.map (·.status) ≠ some .completed ∧ run.map (·.status) ≠ some .failed) : Told run' here' := by
  unfold callNext at h
  split at h
  · split at h
    · cases h
      intro hcertain
      rw [certain_hooked] at hcertain
      exact absurd hcertain Bool.false_ne_true
    · cases h
      exact fun hcertain => absurd hcertain Bool.false_ne_true
  · cases h
    exact fun hcertain => absurd hcertain Bool.false_ne_true
  · rename_i phase env
    split at h
    · rename_i stored
      cases h
      intro hcertain
      refine congrArg some (step_cancelled env (fun hphase => Option.some.inj (htold hphase)) ?_ hcertain)
      intro hcheck
      rw [hcheck] at hopen
      obtain ⟨hcompleted, hfailed⟩ := hopen env rfl rfl
      exact ⟨fun heq => hcompleted (congrArg some heq), fun heq => hfailed (congrArg some heq)⟩
    · cases h
      exact fun hcertain => absurd hcertain Bool.false_ne_true
  · cases h
    exact fun hcertain => absurd hcertain Bool.false_ne_true
  · obtain ⟨here', hanswered, heq⟩ := Option.map_eq_some_iff.1 h
    cases heq
    intro hcertain
    rw [certain_answered hanswered] at hcertain
    exact absurd hcertain Bool.false_ne_true
  · cases h
    exact fun _ => htold rfl
  · cases h
    exact fun _ => htold rfl
  · cases h

/-- After `markCancelled`, a call comes to its end. -/
theorem next_pastMark (h : callNext kinds runId run here event = some (run', here')) (hpast : pastMark here = true) :
    pastMark here' = true ∧ run' = run := by
  unfold callNext at h
  split at h
  case h_6 | h_7 =>
    cases h
    exact ⟨rfl, rfl⟩
  case h_5 =>
    obtain ⟨here', hanswered, -⟩ := Option.map_eq_some_iff.1 h
    unfold CancelAt.answered at hanswered
    split at hanswered
    · cases hpast
    · cases hpast
    · cases hanswered
  case h_8 => cases h
  all_goals exact absurd hpast Bool.false_ne_true

/-- `markCancelled` returns the row of a run that has ended. -/
theorem next_check {stored : Stored N} {env : Env} (hterminal : stored.status.terminal = true)
    (h : callNext kinds runId (some stored) (.marking .check) (.statement env) = some (run', here')) :
    here' = .marked ∧ run' = some stored := by
  have hstep : step env .markCancelled stored.record .check = (stored.record, .returned stored.record.row) := by
    rw [step, if_pos]
    exact hterminal
  simp only [callNext, hstep, Option.some.injEq, Prod.mk.injEq] at h
  obtain ⟨rfl, rfl⟩ := h
  exact ⟨rfl, rfl⟩

/-! ### All calls -/

private theorem StoredMoved.update {runs : String → Option (Stored N)} (h : StoredMoved (runs runId) run')
    (id : String) : StoredMoved (runs id) (Function.update runs runId run' id) := by
  by_cases hid : id = runId
  · subst hid
    rwa [Function.update_self]
  · rw [Function.update_of_ne hid]
    exact StoredMoved.rfl

/-- The cases of a step: a call goes on, or a row has moved. -/
theorem next_cases (h : next kinds s a = some t) :
    (∃ i event call run' here', a = .call i event ∧ s.calls[i]? = some call ∧
      callNext kinds call.runId (s.runs call.runId) call.here event = some (run', here') ∧
      t = { runs := Function.update s.runs call.runId run', calls := s.calls.set i { call with here := here' } }) ∨
    (t.calls = s.calls ∧ (∀ id, StoredMoved (s.runs id) (t.runs id)) ∧ ∀ i event, a ≠ .call i event) := by
  cases a with
  | call i event =>
    rw [next, Option.bind_eq_some_iff] at h
    obtain ⟨call, hcall, h⟩ := h
    obtain ⟨⟨run', here'⟩, hnext, rfl⟩ := Option.map_eq_some_iff.1 h
    exact Or.inl ⟨i, event, call, run', here', rfl, hcall, hnext, rfl⟩
  | other runId transition operation now =>
    rw [next, Option.bind_eq_some_iff] at h
    obtain ⟨stored, hstored, h⟩ := h
    obtain ⟨row, hrow, rfl⟩ := Option.map_eq_some_iff.1 h
    refine Or.inr ⟨rfl, StoredMoved.update ?_, fun _ _ heq => nomatch heq⟩
    rw [hstored]
    exact Or.inr ⟨transition, now, hrow⟩

private theorem next_runs_moved (h : next kinds s a = some t) (id : String) : StoredMoved (s.runs id) (t.runs id) := by
  rcases next_cases h with ⟨i, event, call, run', here', -, -, hnext, rfl⟩ | ⟨-, hmoved, -⟩
  · exact StoredMoved.update (next_moved hnext) id
  · exact hmoved id

/-- A run that has ended keeps its status. -/
theorem next_status (h : next kinds s a = some t) {id : String} {status : RunStatus}
    (hstatus : s.status id = some status) (hterminal : status.terminal = true) : t.status id = some status :=
  (next_runs_moved h id).status hstatus hterminal

/-- Every call is certain of its run. -/
def Inv (s : State N) : Prop := ∀ call ∈ s.calls, Told (s.runs call.runId) call.here

private theorem Inv.start (h : (machine kinds).start s) : Inv s := by
  obtain ⟨runs, runIds, rfl⟩ := h
  intro call hcall
  obtain ⟨runId, -, rfl⟩ := List.mem_map.1 hcall
  exact fun hcertain => absurd hcertain Bool.false_ne_true

private theorem Inv.step (h : Inv s) (hopen : ReadsOpen s a) (hnext : next kinds s a = some t) : Inv t := by
  have hother : ∀ call ∈ s.calls, Told (t.runs call.runId) call.here :=
    fun call hcall hcertain => next_status hnext (h call hcall hcertain) rfl
  rcases next_cases hnext with ⟨i, event, call, run', here', rfl, hcall, hcallNext, rfl⟩ | ⟨hcalls, -, -⟩
  · intro other hmem
    rcases List.mem_or_eq_of_mem_set hmem with hmem | rfl
    · exact hother other hmem
    · change Told (Function.update s.runs call.runId run' call.runId) here'
      rw [Function.update_self]
      refine next_told hcallNext (h call (List.mem_of_getElem? hcall)) fun env hcheck hevent => ?_
      subst hevent
      exact hopen call hcall hcheck
  · intro call hcall
    rw [hcalls] at hcall
    exact hother call hcall

/-- Who is reported as cancelled has returned. -/
theorem result_cancelled {call : Call} {result : BatchCancelResult} (h : result ∈ call.result)
    (hstatus : result.status = .cancelled) : call.here = .returned ∧ result.runId = call.runId := by
  unfold Call.result at h
  split at h
  · cases h
    exact ⟨‹_›, rfl⟩
  · cases h
    cases hstatus
  · cases h

private theorem Inv.truthful (h : Inv s) : Truthful s := by
  intro call hcall result hresult hstatus
  obtain ⟨hreturned, hrunId⟩ := result_cancelled hresult hstatus
  rw [hrunId]
  exact h call hcall (by rw [hreturned]; rfl)

/-- `markCancelled` of a call has returned, and its run has ended otherwise. -/
def Misled (i : Nat) (s : State N) : Prop :=
  ∃ call status, s.calls[i]? = some call ∧ pastMark call.here = true ∧ s.status call.runId = some status ∧
    status.terminal = true ∧ status ≠ .cancelled

private theorem Misled.step (h : Misled i s) (hnext : next kinds s a = some t) : Misled i t := by
  obtain ⟨call, status, hcall, hpast, hstatus, hterminal, hne⟩ := h
  have hkept : t.status call.runId = some status := next_status hnext hstatus hterminal
  rcases next_cases hnext with ⟨j, event, other, run', here', -, hother, hotherNext, rfl⟩ | ⟨hcalls, -, -⟩
  · by_cases hij : i = j
    · subst hij
      rw [hcall, Option.some.injEq] at hother
      subst hother
      have hbound := (List.getElem?_eq_some_iff.1 hcall).1
      refine ⟨{ call with here := here' }, status, ?_, (next_pastMark hotherNext hpast).1, hkept, hterminal, hne⟩
      exact List.getElem?_set_self hbound
    · refine ⟨call, status, ?_, hpast, hkept, hterminal, hne⟩
      rw [← hcall]
      exact List.getElem?_set_ne (Ne.symm hij)
  · exact ⟨call, status, by rw [hcalls]; exact hcall, hpast, hkept, hterminal, hne⟩

/-- A call that reads a run that is completed or failed is misled. -/
theorem misled_of_not_readsOpen (hopen : ¬ ReadsOpen s a) (hnext : next kinds s a = some t) : ∃ i, Misled i t := by
  rcases next_cases hnext with ⟨i, event, call, run', here', rfl, hcall, hcallNext, rfl⟩ | ⟨-, -, hnone⟩
  · cases event with
    | statement env =>
      unfold ReadsOpen at hopen
      push Not at hopen
      obtain ⟨call', hcall', hcheck, hended⟩ := hopen
      rw [hcall, Option.some.injEq] at hcall'
      subst hcall'
      obtain ⟨status, hstatus, hterminal, hne⟩ : ∃ status, s.status call.runId = some status ∧
          status.terminal = true ∧ status ≠ .cancelled := by
        by_cases hcompleted : s.status call.runId = some .completed
        · exact ⟨.completed, hcompleted, rfl, by decide⟩
        · exact ⟨.failed, hended hcompleted, rfl, by decide⟩
      have hkept := next_status hnext hstatus hterminal
      obtain ⟨stored, hstored, hstoredStatus⟩ := Option.map_eq_some_iff.1 hstatus
      rw [hcheck, hstored] at hcallNext
      obtain ⟨rfl, -⟩ := next_check (by rw [hstoredStatus]; exact hterminal) hcallNext
      have hbound := (List.getElem?_eq_some_iff.1 hcall).1
      exact ⟨i, _, status, List.getElem?_set_self hbound, rfl, hkept, hterminal, hne⟩
    | fault | answered | stop | complete => exact absurd trivial hopen
  · cases a with
    | call i event => exact absurd rfl (hnone i event)
    | other => exact absurd trivial hopen

private theorem result_of_batchCancel {calls : List Call} (h : (batchCancel calls).isSome) :
    ∀ call ∈ calls, call.result.isSome := by
  induction calls with
  | nil => exact fun _ hcall => absurd hcall List.not_mem_nil
  | cons first calls ih =>
    obtain ⟨results, hresults⟩ := Option.isSome_iff_exists.1 h
    rw [batchCancel, List.mapM_cons] at hresults
    obtain ⟨result, hresult, hrest⟩ := Option.bind_eq_some_iff.1 hresults
    obtain ⟨rest, hrest, -⟩ := Option.bind_eq_some_iff.1 hrest
    rw [List.forall_mem_cons]
    refine ⟨Option.isSome_of_eq_some hresult, ih ?_⟩
    exact Option.isSome_of_eq_some hrest

/-- Once all calls have settled, the report about a misled one is wrong. -/
theorem Misled.not_truthful (h : Misled i s) (hsettled : (batchCancel s.calls).isSome) : ¬ Truthful s := by
  obtain ⟨call, status, hcall, hpast, hstatus, -, hne⟩ := h
  have hmem := List.mem_of_getElem? hcall
  have hresult : call.result.isSome := result_of_batchCancel hsettled call hmem
  intro htruthful
  have hreported : call.result = some { runId := call.runId, status := .cancelled, error := none } := by
    unfold Call.result at hresult ⊢
    split at hresult
    · rfl
    · rename_i heq
      rw [heq] at hpast
      exact absurd hpast Bool.false_ne_true
    · exact absurd hresult Bool.false_ne_true
  have hcancelled := htruthful call hmem _ hreported rfl
  rw [hstatus, Option.some.injEq] at hcancelled
  exact hne hcancelled

/-- Once all calls of a batch have settled, the report has been true all along if and only if `markCancelled` has never
found a run completed or failed. -/
theorem batchCancel_truthful_iff {s₀ : State N} {as : List Action} (hstart : (machine kinds).start s₀)
    (h : (machine kinds).exec s₀ as = some s) (hsettled : (batchCancel s.calls).isSome) :
    (∀ bs t, bs <+: as → (machine kinds).exec s₀ bs = some t → Truthful t) ↔
      (machine kinds).Throughout ReadsOpen s₀ as := by
  constructor
  · intro htruthful
    by_contra hopen
    obtain ⟨bs, a, cs, t, v, rfl, -, -, hnot, hv, hcs⟩ := Machine.exists_of_not_throughout hopen h
    obtain ⟨i, hmisled⟩ := misled_of_not_readsOpen hnot hv
    have hend : Misled i s := Machine.exec_invariant (fun _ _ _ hs ht => hs.step ht) hmisled hcs
    exact hend.not_truthful hsettled (htruthful _ s (List.prefix_refl _) h)
  · intro hopen bs t hbs ht
    have hinv : Inv t := (hopen.of_prefix hbs).invariant (fun _ _ _ hs hP ht => hs.step hP ht) (Inv.start hstart) ht
    exact hinv.truthful

/-- A run whose cancellation is delegated to the control plane. -/
def delegatedRun (status : RunStatus) : Stored (Option Rat) where
  record := { row := { id := "run", status, runtimeSessionId := some "session" } }
  runtimeKind := "rust"
  cancellationDelegated := true

def oneRun (status : RunStatus) : State (Option Rat) where
  runs := fun id => if id = "run" then some (delegatedRun status) else none
  calls := [{ runId := "run" }]

/-- A run is cancelled while it is running. -/
theorem batchCancel_truthful_running :
    ∃ (as : List Action) (s : State (Option Rat)), (machine ["rust"]).exec (oneRun .running) as = some s ∧
      batchCancel s.calls = some [{ runId := "run", status := .cancelled, error := none }] ∧ Truthful s := by
  let env : Env := { now := "10:00", uuid := fun _ => "" }
  let as : List Action :=
    [.call 0 (.statement env), .call 0 (.answered .ok), .call 0 (.statement env), .call 0 (.statement env),
     .call 0 (.statement env), .call 0 .stop, .call 0 .complete]
  obtain ⟨s, hs, hresults⟩ : ∃ s, (machine ["rust"]).exec (oneRun .running) as = some s ∧
      batchCancel s.calls = some [{ runId := "run", status := .cancelled, error := none }] := ⟨_, rfl, rfl⟩
  have hstart : (machine ["rust"]).start (oneRun .running) := ⟨_, ["run"], rfl⟩
  have hopen : (machine ["rust"]).Throughout ReadsOpen (oneRun .running) as := by
    refine .cons (fun _ hcall hcheck => ?_) rfl (.cons trivial rfl (.cons (fun _ hcall hcheck => ?_) rfl ?_))
    · cases hcall
      cases hcheck
    · cases hcall
      exact ⟨by decide, by decide⟩
    refine .cons (fun _ hcall hcheck => ?_) rfl (.cons (fun _ hcall hcheck => ?_) rfl ?_)
    · cases hcall
      cases hcheck
    · cases hcall
      cases hcheck
    exact .cons trivial rfl (.cons trivial rfl trivial)
  have hsettled : (batchCancel s.calls).isSome := by rw [hresults]; rfl
  exact ⟨as, s, hs, hresults,
    (batchCancel_truthful_iff hstart hs hsettled).2 hopen as s (List.prefix_refl as) hs⟩

/-- A run that has been completed is reported as cancelled. -/
theorem completed_run_reported :
    ¬ ∀ (kinds : List String) (as : List Action) (s₀ s : State (Option Rat)), (machine kinds).start s₀ →
      (machine kinds).exec s₀ as = some s → Truthful s := by
  intro h
  let env : Env := { now := "10:00", uuid := fun _ => "" }
  let as : List Action :=
    [.call 0 (.statement env), .call 0 (.answered .ok), .call 0 (.statement env), .call 0 .stop, .call 0 .complete]
  obtain ⟨s, call, hs, hcall, hresult, hstatus⟩ :
      ∃ s call, (machine ["rust"]).exec (oneRun .completed) as = some s ∧ s.calls[0]? = some call ∧
        call.result = some { runId := "run", status := .cancelled, error := none } ∧
        s.status "run" = some .completed := ⟨_, _, rfl, rfl, rfl, rfl⟩
  have hstart : (machine ["rust"]).start (oneRun .completed) := ⟨_, ["run"], rfl⟩
  have hcancelled := h ["rust"] as _ s hstart hs call (List.mem_of_getElem? hcall) _ hresult rfl
  exact absurd (hstatus.symm.trans hcancelled) (by decide)

end BatchCancel

end MacpControlPlane

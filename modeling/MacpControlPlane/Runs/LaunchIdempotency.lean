import Mathlib.Algebra.GroupWithZero.Nat
import Mathlib.Data.List.Infix
import MacpControlPlane.Lib.Callers
import MacpControlPlane.Lib.Machine
import MacpControlPlane.Runs.RunManager
import MacpControlPlane.Runtime.ThrownErrors

/-!
# Launching twice with one idempotency key (`RunExecutorService.launch`)

Any number of launches carry one key.  `createRun` looks the key up and inserts a row when there is none; in both
cases the launch starts `execute` in the background, with the session id of its own request.  So a launch that finds a
row runs the status writes of `execute`, and of `handleExecuteError` when one of them is refused, against the run of
another launch.  The machine interleaves the launches and the transitions of the other services at every await point.
-/

namespace MacpControlPlane.Launches

open RunManager

/-! ### The pure parts of the executor -/

/-- `candidate.length`, in UTF-16 code units. -/
def utf16Length (cs : List Char) : Nat :=
  (cs.map fun c => if c.val < 0x10000 then 1 else 2).sum

def isHexDigit (c : Char) : Bool :=
  c.isDigit || ('a' ≤ c && c ≤ 'f') || ('A' ≤ c && c ≤ 'F')

/-- `UUID_SHAPE` -/
def uuidShape (cs : List Char) : Bool :=
  cs.length = 36 && cs.zipIdx.all fun (c, i) => if i ∈ [8, 13, 18, 23] then c = '-' else isHexDigit c

/-- `BASE64URL_TOKEN` -/
def base64urlToken (cs : List Char) : Bool :=
  22 ≤ cs.length && cs.all fun c => c.isAlphanum || c = '_' || c = '-'

/-- `MAX_SESSION_ID_BYTES` -/
def maxSessionIdBytes : Nat := 128

def isValidSessionId (candidate : String) : Bool :=
  let cs := candidate.toList
  if utf16Length cs = 0 || candidate.utf8ByteSize > maxSessionIdBytes then false
  else if utf16Length cs = 36 && '-' ∈ cs && uuidShape cs then
    cs = cs.map Char.toLower && (cs[14]? = some '4' || cs[14]? = some '7')
  else base64urlToken cs

/-- `SESSION_ID_RULE` -/
def sessionIdRule : String :=
  "session.sessionId must be at most 128 bytes and a lowercase UUID v4/v7 or a base64url token of 22+ chars"

/-- `resolveSessionId`, where `uuid` is what `randomUUID` returns. -/
def resolveSessionId (request : RunDescriptor) (uuid : String) : Except String String :=
  match request.sessionId with
  | some id => if id = "" then .ok uuid else if isValidSessionId id then .ok id else .error sessionIdRule
  | none => .ok uuid

private theorem resolveSessionId_of_valid {request : RunDescriptor} {id : String} (h : request.sessionId = some id)
    (hvalid : isValidSessionId id = true) (uuid : String) : resolveSessionId request uuid = .ok id := by
  have hne : id ≠ "" := by
    rintro rfl
    exact absurd hvalid (by decide)
  unfold resolveSessionId
  rw [h]
  dsimp only
  rw [if_neg hne, if_pos hvalid]

/-! ### The state -/

inductive Write where
  | started
  | bindingSession
  | running
  | failed (message : String)

/-- The transition of the repository behind a write of a launch with this session id. -/
def Write.transition (sessionId now : String) : Write → Transition
  | started => RunRepository.markStarted now
  | bindingSession => RunRepository.markBindingSession sessionId
  | running => RunRepository.markRunning (some sessionId)
  | failed message => RunRepository.markFailed now (some "RUN_FAILED") (some message)

def Write.target : Write → RunStatus
  | started => .starting
  | bindingSession => .bindingSession
  | running => .running
  | failed _ => .failed

/-- Where the background `execute` is. -/
inductive Execute where
  /-- Before the conditional update of a write. -/
  | update (write : Write)
  /-- Before the second read of `transitionTo`. -/
  | reread (write : Write)
  /-- Before the `findById` of `bindSession`, which has caught a conflict. -/
  | swallow
  /-- The write is done, or `bindSession` has skipped it; what comes before the next write is to follow. -/
  | after (write : Write)
  /-- Before the `getRun` of `markFailed`. -/
  | check (message : String)
  | finished

/-- Where a launch is. -/
inductive Phase where
  /-- Before `findByIdempotencyKey`. -/
  | lookup
  /-- Before the `INSERT`. -/
  | insert
  /-- Before the `findByIdOrThrow` of `create`. -/
  | load (runId : String)
  /-- Before the event of `createRun`. -/
  | emit (record : RunRow)
  /-- Returned; `execute` runs in the background. -/
  | execute (runId : String) (at_ : Execute)
  | threw

structure Launched where
  run : RunRow
  sessionId : String

/-- A call of `launch`; `created` tells whether it inserted the row. -/
structure Launch where
  request : RunDescriptor
  sessionId : String
  created : Bool := false
  phase : Phase
  result : Option (Except String Launched) := none

/-- A status write that matched the row; `later` tells whether a launch made it that did not insert the row. -/
structure Written where
  later : Bool
  before : RunRow
  after : RunRow

/-- The rows of `runs` with the key, the writes to them, and the launches with the key. -/
structure State where
  rows : List RunRow
  writes : List Written
  launches : List Launch

def State.findById (s : State) (id : String) : Option RunRow :=
  s.rows.find? fun row => row.id = id

def State.write (s : State) (later : Bool) (row row' : RunRow) : State :=
  { s with
    rows := s.rows.map fun r => if r.id = row.id then row' else r
    writes := s.writes ++ [⟨later, row, row'⟩] }

def State.set (s : State) (i : Nat) (l : Launch) : State :=
  { s with launches := s.launches.set i l }

/-- The await points of a launch, with what they return or throw. -/
inductive Step where
  | lookup
  | insert (runId traceId now : String)
  | load
  | emit
  | update (now : String)
  | reread
  | swallow
  | check
  | proceed
  | throws (e : Caught)
  /-- The process shuts down, and `execute` returns. -/
  | shutdown
  /-- A statement of `createRun` throws: the columns refuse the row, its session id is another run's, or the database
  fails. -/
  | fails (message : String)

inductive Action where
  /-- A call of `launch`; `uuid` is what `randomUUID` returns. -/
  | launch (request : RunDescriptor) (uuid : String)
  | step (i : Nat) (step : Step)
  /-- Another service makes a transition of a run; it knows no other session id than the run's. -/
  | other (runId : String) (transition : Transition) (operation : IsOperation transition) (now : String)

/-- The first phase of `createRun`: an empty key is not looked up. -/
def firstPhase (key : String) : Phase := if key = "" then .insert else .lookup

/-- What `bindSession`, `handleExecuteError` and `execute` do with an error of `transitionTo`. -/
def afterError (e : RunError) : Write → Execute
  | .bindingSession =>
    match e with
    | .conflict _ => .swallow
    | .error _ => .check (RunExecutor.failureMessage { message := e.message })
  | .failed _ => .finished
  | .started | .running => .check (RunExecutor.failureMessage { message := e.message })

/-- What comes after a write, its events and everything up to the next write. -/
def afterWrite : Write → Execute
  | .started => .update .bindingSession
  | .bindingSession => .update .running
  | .running | .failed _ => .finished

def State.stepExecute (s : State) (i : Nat) (l : Launch) (runId : String) (a : Step) : Execute → Option State
  | .update w =>
    match a with
    | .update now =>
      match s.findById runId with
      | none => some (s.set i { l with phase := .execute runId (.reread w) })
      | some row =>
        match compareAndSet (w.transition l.sessionId now) now row with
        | some row' => some ((s.write (!l.created) row row').set i { l with phase := .execute runId (.after w) })
        | none => some (s.set i { l with phase := .execute runId (.reread w) })
    | _ => none
  | .reread w =>
    match a with
    | .reread =>
      match afterMiss runId w.target (s.findById runId) with
      | .ok _ => some (s.set i { l with phase := .execute runId (.after w) })
      | .error e => some (s.set i { l with phase := .execute runId (afterError e w) })
    | _ => none
  | .swallow =>
    match a with
    | .swallow =>
      match s.findById runId with
      | some _ => some (s.set i { l with phase := .execute runId (.after .bindingSession) })
      | none =>
        let message := RunExecutor.failureMessage { message := s!"run {runId} not found" }
        some (s.set i { l with phase := .execute runId (.check message) })
    | _ => none
  | .after w =>
    match a with
    | .proceed => some (s.set i { l with phase := .execute runId (afterWrite w) })
    | .throws e =>
      match w with
      | .failed _ => some (s.set i { l with phase := .execute runId .finished })
      | _ => some (s.set i { l with phase := .execute runId (.check (RunExecutor.failureMessage e)) })
    | .shutdown =>
      match w with
      | .started | .running => some (s.set i { l with phase := .execute runId .finished })
      | _ => none
    | _ => none
  | .check message =>
    match a with
    | .check =>
      match s.findById runId with
      | none => some (s.set i { l with phase := .execute runId .finished })
      | some row =>
        if endedAlready row then some (s.set i { l with phase := .execute runId .finished })
        else some (s.set i { l with phase := .execute runId (.update (.failed message)) })
    | _ => none
  | .finished => none

def State.returned (s : State) (i : Nat) (l : Launch) (run : RunRow) : State :=
  s.set i { l with phase := .execute run.id (.update .started), result := some (.ok ⟨run, l.sessionId⟩) }

def State.threw (s : State) (i : Nat) (l : Launch) (message : String) : State :=
  s.set i { l with phase := .threw, result := some (.error message) }

def State.step (s : State) (i : Nat) (l : Launch) (a : Step) : Option State :=
  match l.phase with
  | .lookup =>
    match a with
    | .lookup =>
      match s.rows with
      | row :: _ => some (s.returned i l row)
      | [] => some (s.set i { l with phase := .insert })
    | .fails message => some (s.threw i l message)
    | _ => none
  | .insert =>
    match a with
    | .insert runId traceId now =>
      match s.rows with
      | _ :: _ =>
        some (s.threw i l "duplicate key value violates unique constraint \"runs_idempotency_key_unique\"")
      | [] =>
        some ({ s with rows := [createdRow l.request l.sessionId runId traceId now] }.set i
          { l with created := true, phase := .load runId })
    | .fails message => some (s.threw i l message)
    | _ => none
  | .load runId =>
    match a with
    | .load =>
      match s.findById runId with
      | some record => some (s.set i { l with phase := .emit record })
      | none => some (s.threw i l s!"run {runId} not found")
    | .fails message => some (s.threw i l message)
    | _ => none
  | .emit record =>
    match a with
    | .emit => some (s.returned i l record)
    | .fails message => some (s.threw i l message)
    | _ => none
  | .execute runId e => s.stepExecute i l runId a e
  | .threw => none

/-- A transition of another service: it sets the session id to the one of the run, or not at all. -/
def State.other (s : State) (runId : String) (t : Transition) (now : String) : Option State :=
  match s.findById runId with
  | none => none
  | some row =>
    if t.patch.runtimeSessionId = none ∨ t.patch.runtimeSessionId = row.runtimeSessionId then
      (compareAndSet t now row).map fun row' => s.write false row row'
    else none

def next (key : String) (s : State) : Action → Option State
  | .launch request uuid =>
    if request.idempotencyKey = some key then
      match resolveSessionId request uuid with
      | .ok sessionId => some { s with launches := s.launches ++ [{ request, sessionId, phase := firstPhase key }] }
      | .error _ => none
    else none
  | .step i a => s.launches[i]?.bind fun l => s.step i l a
  | .other runId transition _ now => s.other runId transition now

/-- Launches with this key, where there is no row for it yet, or one from before in any status. -/
def machine (key : String) : Machine State Action where
  start s := s.rows.length ≤ 1 ∧ s.writes = [] ∧ s.launches = []
  next := next key

/-! ### The property -/

/-- There is at most one row with the key; every launch that has returned or thrown has returned its id, with the
session id that it is bound to; and no launch has changed the status, the session id or the error of a row that it did
not insert. -/
structure Idempotent (s : State) : Prop where
  one : s.rows.length ≤ 1
  returned : ∀ (i : Nat) (l : Launch) (r : Except String Launched), s.launches[i]? = some l → l.result = some r →
    ∃ row launched, s.rows = [row] ∧ r = .ok launched ∧ launched.run.id = row.id ∧
      row.runtimeSessionId = some launched.sessionId
  untouched : ∀ w ∈ s.writes, w.later = true → w.after.status = w.before.status ∧
    w.after.runtimeSessionId = w.before.runtimeSessionId ∧ w.after.errorCode = w.before.errorCode ∧
    w.after.errorMessage = w.before.errorMessage

/-- A lookup finds a row that is bound to the launch's own session id, an insert finds no row, no statement of
`createRun` throws, and a write of a launch that did not insert the row finds it in a status that the write does not
start from. -/
def Launch.Harmless (s : State) (l : Launch) (a : Step) : Prop :=
  match l.phase, a with
  | .lookup, .lookup => ∀ row ∈ s.rows.head?, row.runtimeSessionId = some l.sessionId
  | .insert, .insert _ _ _ => s.rows = []
  | .lookup, .fails _ | .insert, .fails _ | .load _, .fails _ | .emit _, .fails _ => False
  | .execute runId (.update w), .update _ =>
    l.created = false → ∀ row ∈ s.findById runId, w.target ∉ validTransitions row.status
  | _, _ => True

def Harmless (s : State) : Action → Prop
  | .step i a => ∀ l, s.launches[i]? = some l → l.Harmless s a
  | _ => True

/-! ### What a step does -/

/-- The run a launch works on. -/
def Phase.runId : Phase → Option String
  | .load runId => some runId
  | .emit record => some record.id
  | .execute runId _ => some runId
  | _ => none

/-- `createRun` has inserted the row and not returned. -/
def Phase.creating : Phase → Bool
  | .load _ | .emit _ => true
  | _ => false

inductive StepSpec (s : State) (i : Nat) (l : Launch) (a : Step) : State → Prop
  | moved {phase : Phase} (hrun : phase.runId = none ∨ phase.runId = l.phase.runId)
      (hcreating : phase.creating = true → l.phase.creating = true) (hharmless : l.Harmless s a) :
      StepSpec s i l a (s.set i { l with phase })
  | loaded {runId : String} {record : RunRow} (hphase : l.phase = .load runId) (hrow : s.findById runId = some record)
      (hharmless : l.Harmless s a) : StepSpec s i l a (s.set i { l with phase := .emit record })
  | lost {runId message : String} (hphase : l.phase = .load runId) (hrow : s.findById runId = none) :
      StepSpec s i l a (s.threw i l message)
  | found {row : RunRow} {rows : List RunRow} (hphase : l.phase = .lookup) (hrows : s.rows = row :: rows)
      (hharmless : l.Harmless s a ↔ row.runtimeSessionId = some l.sessionId) : StepSpec s i l a (s.returned i l row)
  | refused {message : String} (hharmless : ¬ l.Harmless s a) : StepSpec s i l a (s.threw i l message)
  | inserted {runId traceId now : String} (hphase : l.phase = .insert) (hrows : s.rows = [])
      (hharmless : l.Harmless s a) :
      StepSpec s i l a ({ s with rows := [createdRow l.request l.sessionId runId traceId now] }.set i
        { l with created := true, phase := .load runId })
  | returned {record : RunRow} (hphase : l.phase = .emit record) (hharmless : l.Harmless s a) :
      StepSpec s i l a (s.returned i l record)
  | wrote {runId now : String} {w : Write} {row row' : RunRow} (hphase : l.phase = .execute runId (.update w))
      (hrow : s.findById runId = some row) (hrow' : compareAndSet (w.transition l.sessionId now) now row = some row')
      (hharmless : l.Harmless s a ↔ l.created = true) :
      StepSpec s i l a ((s.write (!l.created) row row').set i { l with phase := .execute runId (.after w) })

private theorem Write.transition_target (w : Write) (sessionId now : String) :
    (w.transition sessionId now).target = w.target := by
  cases w <;> rfl

private theorem Write.transition_runtimeSessionId (w : Write) (sessionId now : String) :
    (w.transition sessionId now).patch.runtimeSessionId = none ∨
      (w.transition sessionId now).patch.runtimeSessionId = some sessionId := by
  cases w
  · exact Or.inl rfl
  · exact Or.inr rfl
  · exact Or.inr rfl
  · exact Or.inl rfl

/-- Inside `execute` the launch keeps its run. -/
private theorem stepExecute_spec {s t : State} {i : Nat} {l : Launch} {runId : String} {a : Step} {e : Execute}
    (hphase : l.phase = .execute runId e) (h : s.stepExecute i l runId a e = some t) : StepSpec s i l a t := by
  have hmoved : ∀ e', l.Harmless s a → StepSpec s i l a (s.set i { l with phase := .execute runId e' }) :=
    fun e' hharmless => .moved (Or.inr (by rw [hphase]; rfl)) nofun hharmless
  have hother : (∀ w, e ≠ .update w) → l.Harmless s a := by
    intro hne
    unfold Launch.Harmless
    rw [hphase]
    cases e with
    | update w => exact absurd rfl (hne w)
    | _ => trivial
  cases e with
  | update w =>
    cases a with
    | update now =>
      have hunfold : l.Harmless s (.update now) ↔
          (l.created = false → ∀ row ∈ s.findById runId, w.target ∉ validTransitions row.status) := by
        unfold Launch.Harmless
        rw [hphase]
      simp only [State.stepExecute] at h
      split at h
      · rename_i hrow
        rw [← Option.some.inj h]
        refine hmoved _ (hunfold.2 fun _ row hmem => ?_)
        rw [hrow] at hmem
        exact absurd hmem (Option.not_mem_none row)
      · rename_i row hrow
        split at h
        · rename_i row' hrow'
          rw [← Option.some.inj h]
          refine .wrote hphase hrow hrow' (hunfold.trans ⟨?_, ?_⟩)
          · intro hall
            by_contra hcreated
            have hedge := (compareAndSet_eq_some.1 hrow').1
            rw [w.transition_target] at hedge
            exact hall (Bool.eq_false_iff.2 hcreated) row hrow hedge
          · intro hcreated hnot
            exact Bool.noConfusion (hcreated.symm.trans hnot)
        · rename_i hnone
          rw [← Option.some.inj h]
          refine hmoved _ (hunfold.2 fun _ r hmem => ?_)
          rw [hrow] at hmem
          rw [compareAndSet_eq_none, w.transition_target] at hnone
          exact Option.some.inj hmem ▸ hnone
    | _ => simp only [State.stepExecute, reduceCtorEq] at h
  | reread w =>
    cases a with
    | reread =>
      simp only [State.stepExecute] at h
      split at h <;> exact Option.some.inj h ▸ hmoved _ (hother nofun)
    | _ => simp only [State.stepExecute, reduceCtorEq] at h
  | swallow =>
    cases a with
    | swallow =>
      simp only [State.stepExecute] at h
      split at h <;> exact Option.some.inj h ▸ hmoved _ (hother nofun)
    | _ => simp only [State.stepExecute, reduceCtorEq] at h
  | after w =>
    cases a with
    | proceed => exact Option.some.inj h ▸ hmoved _ (hother nofun)
    | throws e => cases w <;> exact Option.some.inj h ▸ hmoved _ (hother nofun)
    | shutdown =>
      cases w with
      | started | running => exact Option.some.inj h ▸ hmoved _ (hother nofun)
      | _ => simp only [State.stepExecute, reduceCtorEq] at h
    | _ => simp only [State.stepExecute, reduceCtorEq] at h
  | check message =>
    cases a with
    | check =>
      simp only [State.stepExecute] at h
      split at h
      · exact Option.some.inj h ▸ hmoved _ (hother nofun)
      · split at h <;> exact Option.some.inj h ▸ hmoved _ (hother nofun)
    | _ => simp only [State.stepExecute, reduceCtorEq] at h
  | finished => exact absurd h nofun

private theorem step_spec {s t : State} {i : Nat} {l : Launch} {a : Step} (h : s.step i l a = some t) :
    StepSpec s i l a t := by
  have hfails : ∀ {message : String}, ¬ l.Harmless s a → some (s.threw i l message) = some t → StepSpec s i l a t :=
    fun hharmless h => Option.some.inj h ▸ .refused hharmless
  unfold State.step at h
  split at h
  · rename_i hphase
    split at h
    · have hunfold : l.Harmless s .lookup ↔ ∀ row ∈ s.rows.head?, row.runtimeSessionId = some l.sessionId := by
        unfold Launch.Harmless
        rw [hphase]
      split at h
      · rename_i row rows hrows
        rw [← Option.some.inj h]
        refine .found hphase hrows (hunfold.trans ?_)
        rw [hrows]
        exact ⟨fun hall => hall row rfl, fun hbound r hr => Option.some.inj hr ▸ hbound⟩
      · rename_i hrows
        rw [← Option.some.inj h]
        refine .moved (Or.inl rfl) nofun (hunfold.2 ?_)
        rw [hrows]
        exact fun row hrow => absurd hrow (Option.not_mem_none row)
    · exact hfails (by simp [Launch.Harmless, hphase]) h
    · exact absurd h nofun
  · rename_i hphase
    split at h
    · rename_i runId traceId now
      have hunfold : l.Harmless s (.insert runId traceId now) ↔ s.rows = [] := by
        unfold Launch.Harmless
        rw [hphase]
      split at h
      · rename_i hrows
        rw [← Option.some.inj h]
        refine .refused (fun hharmless => ?_)
        rw [hunfold, hrows] at hharmless
        exact List.cons_ne_nil _ _ hharmless
      · rename_i hrows
        rw [← Option.some.inj h]
        exact .inserted hphase hrows (hunfold.2 hrows)
    · exact hfails (by simp [Launch.Harmless, hphase]) h
    · exact absurd h nofun
  · rename_i runId hphase
    split at h
    · split at h
      · rename_i record hrow
        rw [← Option.some.inj h]
        refine .loaded hphase hrow ?_
        unfold Launch.Harmless
        rw [hphase]
        trivial
      · rename_i hrow
        exact Option.some.inj h ▸ .lost hphase hrow
    · exact hfails (by simp [Launch.Harmless, hphase]) h
    · exact absurd h nofun
  · rename_i record hphase
    split at h
    · rw [← Option.some.inj h]
      refine .returned hphase ?_
      unfold Launch.Harmless
      rw [hphase]
      trivial
    · exact hfails (by simp [Launch.Harmless, hphase]) h
    · exact absurd h nofun
  · rename_i runId e hphase
    exact stepExecute_spec hphase h
  · exact absurd h nofun

/-! ### The invariant -/

/-- What holds of a launch, given the rows with the key. -/
structure Launch.Ok (rows : List RunRow) (l : Launch) : Prop where
  created : l.created = true → ∃ row, rows = [row] ∧ row.runtimeSessionId = some l.sessionId
  creating : l.phase.creating = true → l.created = true
  run : ∀ runId, l.phase.runId = some runId → ∃ row, rows = [row] ∧ row.id = runId
  returned : ∀ r, l.result = some r → ∃ row launched, rows = [row] ∧ r = .ok launched ∧ launched.run.id = row.id ∧
    row.runtimeSessionId = some launched.sessionId

structure Invariant (s : State) : Prop where
  short : s.rows.length ≤ 1
  launches : ∀ (i : Nat) (l : Launch), s.launches[i]? = some l → l.Ok s.rows
  untouched : ∀ w ∈ s.writes, w.later = true → w.after.status = w.before.status ∧
    w.after.runtimeSessionId = w.before.runtimeSessionId ∧ w.after.errorCode = w.before.errorCode ∧
    w.after.errorMessage = w.before.errorMessage

private theorem Invariant.idempotent {s : State} (h : Invariant s) : Idempotent s :=
  ⟨h.short, fun i l r hl hr => (h.launches i l hl).returned r hr, h.untouched⟩

/-- The row, if there is one, stays, with its id and its session id. -/
def Keeps (rows rows' : List RunRow) : Prop :=
  ∀ row, rows = [row] → ∃ row', rows' = [row'] ∧ row'.id = row.id ∧ row'.runtimeSessionId = row.runtimeSessionId

private theorem Launch.Ok.keeps {rows rows' : List RunRow} {l : Launch} (h : l.Ok rows) (hrows : Keeps rows rows') :
    l.Ok rows' := by
  refine ⟨?_, h.creating, ?_, ?_⟩
  · intro hcreated
    obtain ⟨row, hrow, hbound⟩ := h.created hcreated
    obtain ⟨row', hrow', -, hsession⟩ := hrows row hrow
    exact ⟨row', hrow', hsession.trans hbound⟩
  · intro runId hrun
    obtain ⟨row, hrow, hid⟩ := h.run runId hrun
    obtain ⟨row', hrow', hid', -⟩ := hrows row hrow
    exact ⟨row', hrow', hid'.trans hid⟩
  · intro r hr
    obtain ⟨row, launched, hrow, hok, hid, hbound⟩ := h.returned r hr
    obtain ⟨row', hrow', hid', hsession⟩ := hrows row hrow
    exact ⟨row', launched, hrow', hok, hid.trans hid'.symm, hsession.trans hbound⟩

private theorem Invariant.set {s : State} (h : Invariant s) (i : Nat) {l : Launch} (hl : l.Ok s.rows) :
    Invariant (s.set i l) := by
  refine ⟨h.short, ?_, h.untouched⟩
  intro j m hm
  rcases Callers.getElem?_set_cases hm with ⟨-, rfl⟩ | ⟨-, hm⟩
  · exact hl
  · exact h.launches j m hm

/-- A transition that sets the session id of the row, or none, keeps the session id. -/
private theorem compareAndSet_runtimeSessionId {t : Transition} {now : String} {row row' : RunRow}
    (ht : t.patch.runtimeSessionId = none ∨ t.patch.runtimeSessionId = row.runtimeSessionId)
    (h : compareAndSet t now row = some row') : row'.runtimeSessionId = row.runtimeSessionId := by
  rw [(compareAndSet_eq_some.1 h).2]
  show t.patch.runtimeSessionId.or row.runtimeSessionId = row.runtimeSessionId
  rcases ht with ht | ht
  · rw [ht, Option.none_or]
  · rw [ht, Option.or_self]

/-- The row that `findById` finds is the only one. -/
private theorem Invariant.rows_eq {s : State} (h : Invariant s) {id : String} {row : RunRow}
    (hrow : s.findById id = some row) :
    s.rows = [row] := by
  have hmem := List.mem_of_find?_eq_some hrow
  have hshort := h.short
  match hrows : s.rows with
  | [] =>
    rw [hrows] at hmem
    exact absurd hmem List.not_mem_nil
  | [r] =>
    rw [hrows] at hmem
    rw [List.mem_singleton.1 hmem]
  | _ :: _ :: _ =>
    rw [hrows] at hshort
    simp at hshort

private theorem Invariant.write {s : State} (h : Invariant s) {id : String} {row row' : RunRow}
    (hrow : s.findById id = some row)
    (hid : row'.id = row.id) (hsession : row'.runtimeSessionId = row.runtimeSessionId) :
    Invariant (s.write false row row') ∧ Keeps s.rows (s.write false row row').rows := by
  have hrows := h.rows_eq hrow
  have hrows' : (s.write false row row').rows = [row'] := by
    show s.rows.map _ = _
    rw [hrows, List.map_singleton, if_pos rfl]
  have hkeeps : Keeps s.rows (s.write false row row').rows := by
    intro r hr
    rw [hrows] at hr
    obtain rfl := List.singleton_inj.1 hr
    exact ⟨row', hrows', hid, hsession⟩
  refine ⟨⟨?_, fun i l hl => (h.launches i l hl).keeps hkeeps, ?_⟩, hkeeps⟩
  · rw [hrows']
    exact Nat.le_refl 1
  · intro w hw hlater
    rcases List.mem_append.1 hw with hw | hw
    · exact h.untouched w hw hlater
    · rw [List.mem_singleton.1 hw] at hlater
      exact absurd hlater nofun

private theorem Invariant.start {key : String} {s : State} (h : (machine key).start s) : Invariant s := by
  obtain ⟨hshort, hwrites, hlaunches⟩ := h
  refine ⟨hshort, ?_, ?_⟩
  · intro i l hl
    rw [hlaunches] at hl
    exact absurd hl nofun
  · rw [hwrites]
    exact List.forall_mem_nil _

private theorem next_launch {key : String} (s : State) {request : RunDescriptor} {uuid sessionId : String}
    (hkey : request.idempotencyKey = some key) (hid : resolveSessionId request uuid = .ok sessionId) :
    (machine key).next s (.launch request uuid) =
      some { s with launches := s.launches ++ [{ request, sessionId, phase := firstPhase key }] } := by
  simp only [machine, next]
  rw [if_pos hkey, hid]

private theorem Invariant.launch {s : State} (h : Invariant s) (key : String) (request : RunDescriptor)
    (sessionId : String) :
    Invariant { s with launches := s.launches ++ [{ request, sessionId, phase := firstPhase key }] } := by
  refine ⟨h.short, ?_, h.untouched⟩
  intro i l hl
  rcases Callers.getElem?_concat_cases hl with ⟨-, rfl⟩ | hl
  · refine ⟨fun hcreated => absurd hcreated Bool.false_ne_true, ?_, ?_, fun r hr => absurd hr (Option.not_mem_none r)⟩
    · intro hcreating
      unfold firstPhase at hcreating
      split at hcreating <;> exact absurd hcreating nofun
    · intro runId hrun
      unfold firstPhase at hrun
      split at hrun <;> exact absurd hrun nofun
  · exact h.launches i l hl

private theorem Invariant.insert {s : State} (h : Invariant s) (hrows : s.rows = []) (i : Nat)
    {l : Launch} (hl : s.launches[i]? = some l)
    (runId traceId now : String) :
    Invariant ({ s with rows := [createdRow l.request l.sessionId runId traceId now] }.set i
      { l with created := true, phase := .load runId }) := by
  have hnone : ∀ {m : Launch} {r : Except String Launched}, m.Ok s.rows → m.result = some r → False := by
    intro m r hm hr
    obtain ⟨row, launched, hrow, -⟩ := hm.returned r hr
    rw [hrows] at hrow
    exact absurd hrow.symm (List.cons_ne_nil _ _)
  have hkeeps : Keeps s.rows [createdRow l.request l.sessionId runId traceId now] := by
    intro row hrow
    rw [hrows] at hrow
    exact absurd hrow.symm (List.cons_ne_nil _ _)
  refine ⟨Nat.le_refl 1, ?_, h.untouched⟩
  intro j m hm
  rcases Callers.getElem?_set_cases hm with ⟨-, rfl⟩ | ⟨-, hm⟩
  · refine ⟨fun _ => ⟨_, rfl, rfl⟩, fun _ => rfl, ?_, fun r hr => (hnone (h.launches i l hl) hr).elim⟩
    intro id hid
    exact ⟨_, rfl, Option.some.inj hid⟩
  · exact (h.launches j m hm).keeps hkeeps

private theorem Invariant.returned {s : State} (h : Invariant s) (i : Nat)
    {l : Launch} (hl : s.launches[i]? = some l) {row run : RunRow}
    (hrows : s.rows = [row]) (hid : run.id = row.id) (hbound : row.runtimeSessionId = some l.sessionId) :
    Invariant (s.returned i l run) := by
  refine h.set i ⟨(h.launches i l hl).created, nofun, ?_, ?_⟩
  · intro id hrun
    exact ⟨row, hrows, hid.symm.trans (Option.some.inj hrun)⟩
  · intro r hr
    exact ⟨row, ⟨run, l.sessionId⟩, hrows, (Option.some.inj hr).symm, hid, hbound⟩

/-- A harmless step keeps the invariant, and a step that keeps the property is harmless. -/
private theorem Invariant.step {s t : State} (h : Invariant s)
    {i : Nat} {l : Launch} (hl : s.launches[i]? = some l) {a : Step}
    (hstep : s.step i l a = some t) : (Idempotent t → l.Harmless s a) ∧ (l.Harmless s a → Invariant t) := by
  have hok := h.launches i l hl
  cases step_spec hstep with
  | moved hrun hcreating hharmless =>
    refine ⟨fun _ => hharmless, fun _ =>
      h.set i ⟨hok.created, fun hc => hok.creating (hcreating hc), ?_, hok.returned⟩⟩
    intro runId hid
    rcases hrun with hnone | hsame
    · rw [hnone] at hid
      exact absurd hid nofun
    · exact hok.run runId (hsame.symm.trans hid)
  | loaded hphase hrow hharmless =>
    rename_i runId record
    refine ⟨fun _ => hharmless, fun _ =>
      h.set i ⟨hok.created, fun _ => hok.creating (by rw [hphase]; rfl), ?_, hok.returned⟩⟩
    intro id hid
    exact ⟨record, h.rows_eq hrow, Option.some.inj hid⟩
  | lost hphase hrow =>
    rename_i runId message
    obtain ⟨row, hrows, hid⟩ := hok.run runId (by rw [hphase]; rfl)
    rw [State.findById, hrows, List.find?_cons_of_pos (by simp [hid])] at hrow
    exact absurd hrow nofun
  | found hphase hrows hharmless =>
    rename_i row rows
    have hnil : rows = [] := by
      have hshort := h.short
      rw [hrows, List.length_cons] at hshort
      exact List.eq_nil_of_length_eq_zero (by omega)
    rw [hnil] at hrows
    refine ⟨fun ht => hharmless.2 ?_, fun hgood => h.returned i hl hrows rfl (hharmless.1 hgood)⟩
    obtain ⟨row', launched, hrows', hr, -, hbound⟩ := ht.returned i _ _ (Callers.getElem?_set_self_of_some hl) rfl
    rw [← List.singleton_inj.1 (hrows.symm.trans hrows'), ← Except.ok.inj hr] at hbound
    exact hbound
  | refused hharmless =>
    refine ⟨fun ht => ?_, fun hgood => absurd hgood hharmless⟩
    obtain ⟨row', launched, -, hr, -⟩ := ht.returned i _ _ (Callers.getElem?_set_self_of_some hl) rfl
    exact absurd hr nofun
  | inserted hphase hrows hharmless => exact ⟨fun _ => hharmless, fun _ => h.insert hrows i hl _ _ _⟩
  | returned hphase hharmless =>
    rename_i record
    obtain ⟨row, hrows, hbound⟩ := hok.created (hok.creating (by rw [hphase]; rfl))
    obtain ⟨row', hrows', hid⟩ := hok.run record.id (by rw [hphase]; rfl)
    rw [← List.singleton_inj.1 (hrows.symm.trans hrows')] at hid
    exact ⟨fun _ => hharmless, fun _ => h.returned i hl hrows hid.symm hbound⟩
  | wrote hphase hrow hrow' hharmless =>
    rename_i runId now w row row'
    refine ⟨fun ht => hharmless.2 ?_, fun hgood => ?_⟩
    · -- A launch that did not insert the row has changed its status.
      by_contra hcreated
      have hlater : (!l.created) = true := by simpa using hcreated
      have hmem : (⟨!l.created, row, row'⟩ : Written) ∈ s.writes ++ [⟨!l.created, row, row'⟩] := by simp
      have hstatus := (ht.untouched _ hmem hlater).1
      have hedge := (compareAndSet_eq_some.1 hrow').1
      rw [← compareAndSet_status hrow'] at hedge
      exact validTransitions_irrefl row.status (hstatus ▸ hedge)
    · have hcreated := hharmless.1 hgood
      obtain ⟨row₀, hrows, hbound⟩ := hok.created hcreated
      obtain rfl := List.singleton_inj.1 (hrows.symm.trans (h.rows_eq hrow))
      have hsession : (w.transition l.sessionId now).patch.runtimeSessionId = none ∨
          (w.transition l.sessionId now).patch.runtimeSessionId = row₀.runtimeSessionId := by
        rw [hbound]
        exact w.transition_runtimeSessionId l.sessionId now
      obtain ⟨hwrite, hkeeps⟩ := h.write hrow (compareAndSet_id hrow') (compareAndSet_runtimeSessionId hsession hrow')
      have hok' := hok.keeps hkeeps
      have hearlier : (!l.created) = false := by simpa using hcreated
      rw [hearlier]
      refine hwrite.set i ⟨hok'.created, nofun, ?_, hok'.returned⟩
      intro id hid
      rw [← Option.some.inj hid]
      exact hok'.run runId (by rw [hphase]; rfl)

/-- In every sequence of steps, all launches behave as one exactly as long as each step is harmless: a lookup finds a
row that is bound to the launch's own session id, an insert finds no row, no statement of `createRun` throws, and a
write of a launch that did not insert the row misses. -/
theorem launch_idempotent_iff {key : String} {s₀ s : State} {as : List Action} (hstart : (machine key).start s₀)
    (hrun : (machine key).exec s₀ as = some s) :
    (∀ bs t, bs <+: as → (machine key).exec s₀ bs = some t → Idempotent t) ↔
      (machine key).Throughout Harmless s₀ as := by
  refine Machine.throughout_iff_of_step (fun s h => h.idempotent) ?_ (Invariant.start hstart) hrun
  intro s a t h hnext
  cases a with
  | launch request uuid =>
    refine ⟨fun _ => trivial, fun _ => ?_⟩
    change next key s (.launch request uuid) = some t at hnext
    simp only [next] at hnext
    split at hnext
    · split at hnext
      · exact Option.some.inj hnext ▸ h.launch key request _
      · exact absurd hnext (by simp)
    · exact absurd hnext (by simp)
  | step i a =>
    obtain ⟨l, hl, hstep⟩ := Option.bind_eq_some_iff.1 hnext
    obtain ⟨hnec, hsuf⟩ := h.step hl hstep
    refine ⟨fun ht m hm => ?_, fun hharmless => hsuf (hharmless l hl)⟩
    rw [hl] at hm
    exact Option.some.inj hm ▸ hnec ht
  | other runId transition operation now =>
    refine ⟨fun _ => trivial, fun _ => ?_⟩
    change s.other runId transition now = some t at hnext
    unfold State.other at hnext
    split at hnext
    · exact absurd hnext (by simp)
    · rename_i row hrow
      split at hnext
      · rename_i hsession
        obtain ⟨row', hrow', ht⟩ := Option.map_eq_some_iff.1 hnext
        rw [← ht]
        exact (h.write hrow (compareAndSet_id hrow') (compareAndSet_runtimeSessionId hsession hrow')).1
      · exact absurd hnext (by simp)

/-- A launch with the session id of a run that has completed: its `markStarted` is refused, and `markFailed` finds the
run completed. -/
theorem launch_idempotent_ended :
    let sessionId := "0123456789abcdefABCDEF"
    let request : RunDescriptor :=
      { runtimeKind := "rust", modeName := "decision", modeVersion := "1", configurationVersion := "1",
        sessionId := some sessionId, idempotencyKey := some "key" }
    let row : RunRow :=
      { id := "run", status := .completed, runtimeSessionId := some sessionId, idempotencyKey := some "key" }
    ∃ s, (machine "key").exec ⟨[row], [], []⟩ [.launch request "uuid", .step 0 .lookup, .step 0 (.update "10:00"),
      .step 0 .reread, .step 0 .check] = some s ∧ Idempotent s := by
  intro sessionId request row
  have hstart : (machine "key").start ⟨[row], [], []⟩ := ⟨Nat.le_refl 1, rfl, rfl⟩
  have hvalid : isValidSessionId sessionId = true := by decide
  have hid : resolveSessionId request "uuid" = .ok sessionId := resolveSessionId_of_valid rfl hvalid "uuid"
  have hlaunch : (machine "key").next ⟨[row], [], []⟩ (.launch request "uuid") =
      some ⟨[row], [], [{ request, sessionId, phase := firstPhase "key" }]⟩ := next_launch _ rfl hid
  obtain ⟨s, hs⟩ : ∃ s, (machine "key").exec ⟨[row], [], [{ request, sessionId, phase := firstPhase "key" }]⟩
      [.step 0 .lookup, .step 0 (.update "10:00"), .step 0 .reread, .step 0 .check] = some s := ⟨_, rfl⟩
  have hrun := Machine.exec_cons_eq_some.2 ⟨_, hlaunch, hs⟩
  refine ⟨s, hrun, (launch_idempotent_iff hstart hrun).2 ?_ _ s (List.prefix_refl _) hrun⟩
  refine .cons trivial hlaunch (.cons ?_ rfl (.cons ?_ rfl (.cons ?_ rfl (.cons ?_ rfl trivial))))
  · intro l hl
    rw [← Option.some.inj hl]
    intro r hr
    rw [← Option.some.inj hr]
  · intro l hl
    rw [← Option.some.inj hl]
    intro _ r hr
    rw [← Option.some.inj hr]
    decide
  · intro l hl
    rw [← Option.some.inj hl]
    trivial
  · intro l hl
    rw [← Option.some.inj hl]
    trivial

/-- A run without a session id of its own is launched, runs, and is launched again: the second launch returns another
session id than the one the run is bound to, and marks the run as failed. -/
theorem launch_idempotent_retry :
    ¬ ∀ (key : String) (s₀ s : State) (as : List Action), (machine key).start s₀ → (machine key).exec s₀ as = some s →
      Idempotent s := by
  intro h
  let request : RunDescriptor :=
    { runtimeKind := "rust", modeName := "decision", modeVersion := "1", configurationVersion := "1",
      idempotencyKey := some "key" }
  have hrun : ((machine "key").exec ⟨[], [], []⟩
      [.launch request "uuid1", .step 0 .lookup, .step 0 (.insert "run" "trace" "10:00"), .step 0 .load,
        .step 0 .emit, .step 0 (.update "10:01"), .step 0 .proceed, .step 0 (.update "10:02"), .step 0 .proceed,
        .step 0 (.update "10:03"), .step 0 .proceed, .launch request "uuid2", .step 1 .lookup,
        .step 1 (.update "10:04"), .step 1 .reread, .step 1 .check,
        .step 1 (.update "10:05")]).map (fun s => s.writes.map fun w => (w.later, w.before.status, w.after.status)) =
      some [(false, .queued, .starting), (false, .starting, .bindingSession), (false, .bindingSession, .running),
        (true, .running, .failed)] := by decide +kernel
  obtain ⟨s, hs, hwrites⟩ := Option.map_eq_some_iff.1 hrun
  have hidempotent := h "key" ⟨[], [], []⟩ s _ ⟨Nat.zero_le 1, rfl, rfl⟩ hs
  have hmem : (true, RunStatus.running, RunStatus.failed) ∈
      s.writes.map fun w => (w.later, w.before.status, w.after.status) := by
    rw [hwrites]
    decide
  obtain ⟨w, hw, hwrite⟩ := List.mem_map.1 hmem
  obtain ⟨hlater, hstatus⟩ := Prod.mk.inj hwrite
  obtain ⟨hbefore, hafter⟩ := Prod.mk.inj hstatus
  have hsame := (hidempotent.untouched w hw hlater).1
  rw [hbefore, hafter] at hsame
  exact absurd hsame nofun

end MacpControlPlane.Launches

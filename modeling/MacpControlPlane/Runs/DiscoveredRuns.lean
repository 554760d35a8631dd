import MacpControlPlane.Runs.LaunchIdempotency
import MacpControlPlane.Runs.SessionDiscovery

/-!
# The run of a discovered session (`runs/session-discovery.service.ts`)

What the handler of a created event has done when it comes to its end, for a session that is new.  The run gets the
session id as its primary key, of type `uuid`, although a session id need not be a UUID.  The columns of
`runtime_sessions` refuse a long text of the snapshot, and then the run is left binding its session.  `markRunning` is
called without the state of the session, and so reports that it is open.
-/

namespace MacpControlPlane.SessionDiscovery

open Js RunManager Lifecycle

variable {N : Type}

/-- What happens while a session is discovered: a statement of the loop, which succeeds, or another caller that leaves
the session and its run alone. -/
def LeavesAlone (uuid : String → Option String) (sessionId : String) : Action N → Prop
  | .statement _ _ | .destroy => True
  | .create row => uuid sessionId ≠ some row.id ∧ row.runtimeSessionId ≠ some sessionId
  | .transition id transition _ =>
    uuid sessionId ≠ some id ∧ transition.patch.runtimeSessionId ≠ some sessionId
  | .append id _ _ | .delete id => uuid sessionId ≠ some id
  | _ => False

/-- A session without a run, whose id is no primary key and in no runtime session, and that is not known. -/
structure New (uuid : String → Option String) (s : State N) (sessionId : String) : Prop where
  session : s.findBySessionId sessionId = none
  run : ∀ id, uuid sessionId = some id → s.findById id = none
  unbound : ∀ values ∈ s.runtimeSessions, values.runtimeSessionId ≠ sessionId
  known : sessionId ∉ s.knownSessions

/-- Postgres takes the row of the run: its id is a UUID, and no text of the snapshot has a NUL. -/
structure Insertable (uuid : String → Option String) (session : RuntimeSessionSnapshot) : Prop where
  id : (uuid session.sessionId).isSome = true
  row : insertable session = true

/-- Postgres takes the row of the runtime session: no text of the snapshot is too long for its column. -/
def bindable (session : RuntimeSessionSnapshot) : Bool :=
  (boundValues "" (buildRunDescriptor session) (boundSession session) "").fits

/-- A runtime session with the id of the session is that of its run, and its columns have taken the snapshot. -/
def Unshared (uuid : String → Option String) (session : RuntimeSessionSnapshot) (s : State N) : Prop :=
  ∀ values ∈ s.runtimeSessions, values.runtimeSessionId = session.sessionId →
    uuid session.sessionId = some values.runId ∧ bindable session = true

/-- The handler has come to its end. -/
def Settled (s : State N) : Prop := s.here = .waiting ∨ ∃ error, s.here = .threw error

/-- The session has a run that is running, and a runtime session that is bound to it. -/
def Discovered (s : State N) (sessionId : String) : Prop :=
  ∃ r ∈ s.records, r.row.runtimeSessionId = some sessionId ∧ r.row.status = .running ∧
    ∃ values ∈ s.runtimeSessions, values.runId = r.row.id ∧ values.runtimeSessionId = sessionId

/-- The log of the run claims that the session is open only if it is, and the run of a suspended session is
suspended. -/
def Faithful (s : State N) (session : RuntimeSessionSnapshot) : Prop :=
  ∀ r ∈ s.records, r.row.runtimeSessionId = some session.sessionId →
    (∀ e ∈ r.log, e.type = .sessionStateChanged → e.datum "state" = some (.str "SESSION_STATE_OPEN") →
      session.state = "SESSION_STATE_OPEN") ∧
    (session.state = "SESSION_STATE_SUSPENDED" → r.row.status = .suspended)

/-! ### The operations in the `try` -/

/-- The operations lead from a status to another one. -/
def Leads : RunStatus → List Op → RunStatus → Prop
  | status, [], final => status = final
  | status, op :: rest, final => op.target ∈ validTransitions status ∧ Leads op.target rest final

/-- What an operation has left behind: its events, and the runtime session that it has bound. -/
structure Did (runId : String) (log : List (CanonicalEvent N)) (runtimeSessions : List RuntimeSessionValues)
    (op : Op) : Prop where
  logged : ∃ run now, ∀ e ∈ (op.events run now : List (PartialEvent N)), ∃ c ∈ log, c.type = e.type ∧ c.data = e.data
  bound : ∀ request session, op = .bindSession request session →
    ∃ now, (boundValues runId request session now).fits = true ∧
      (boundValues runId request session now).cut ∈ runtimeSessions

/-- Where the run is before a statement of one of the operations. -/
def SyncAt (s : State N) (r : Record N) (runId : String) (op : Op) (rest : List Op) : Phase → Prop
  | .update => Leads r.row.status (op :: rest) .running
  | .emit _ =>
    r.row.status = op.target ∧ Leads op.target rest .running ∧
      ∀ request session, op = .bindSession request session →
        ∃ now, (boundValues runId request session now).fits = true ∧
          (boundValues runId request session now).cut ∈ s.runtimeSessions
  | .check | .reread => False

/-- The handler of the created event of a new session: what holds where it is. -/
def Discovering (uuid : String → Option String) (session : RuntimeSessionSnapshot) (s : State N) : Prop :=
  match s.here with
  | .lookup session' => session' = session ∧ New uuid s session.sessionId
  | .insert session' =>
    session' = session ∧ s.findBySessionId session.sessionId = none ∧
      ∀ id, uuid session.sessionId = some id → s.findById id = none
  | .readBack session' id _ =>
    session' = session ∧ uuid session.sessionId = some id ∧ insertable session = true ∧
      ∃ r, s.findById id = some r ∧ r.row.runtimeSessionId = some session.sessionId ∧ r.row.status = .queued
  | .announce session' record _ =>
    session' = session ∧ uuid session.sessionId = some record.id ∧ insertable session = true ∧
      ∃ r, s.findById record.id = some r ∧ r.row.runtimeSessionId = some session.sessionId ∧ r.row.status = .queued
  | .sync runId op rest phase =>
    uuid session.sessionId = some runId ∧ insertable session = true ∧
      ∃ r done, s.findById runId = some r ∧ r.row.runtimeSessionId = some session.sessionId ∧
        syncOps session = done ++ op :: rest ∧ (∀ op ∈ done, Did runId r.log s.runtimeSessions op) ∧
        SyncAt s r runId op rest phase
  | .upsert runId request bound rest _ =>
    uuid session.sessionId = some runId ∧ insertable session = true ∧
      ∃ r done, s.findById runId = some r ∧ r.row.runtimeSessionId = some session.sessionId ∧
        syncOps session = done ++ .bindSession request bound :: rest ∧
        (∀ op ∈ done, Did runId r.log s.runtimeSessions op) ∧
        r.row.status = .bindingSession ∧ Leads .bindingSession rest .running
  | .waiting =>
    ∃ id r, uuid session.sessionId = some id ∧ insertable session = true ∧ s.findById id = some r ∧
      r.row.runtimeSessionId = some session.sessionId ∧
      (r.row.status = .running ∧ (∀ op ∈ syncOps session, Did id r.log s.runtimeSessions op) ∨
        r.row.status = .bindingSession ∧ bindable session = false)
  | .threw _ => ¬Insertable uuid session ∧ s.findBySessionId session.sessionId = none
  | .find _ _ _ | .mark _ _ _ _ | .stopped => False

section Discovering

variable {uuid : String → Option String} {session : RuntimeSessionSnapshot} {s t : State N}

private theorem Did.mono {runId : String} {log log' : List (CanonicalEvent N)}
    {runtimeSessions : List RuntimeSessionValues}
    {op : Op} (h : Did runId log runtimeSessions op) (hlog : log ⊆ log') : Did runId log' runtimeSessions op where
  logged := by
    obtain ⟨run, now, hevents⟩ := h.logged
    refine ⟨run, now, fun e he => ?_⟩
    obtain ⟨c, hc, hsame⟩ := hevents e he
    exact ⟨c, hlog hc, hsame⟩
  bound := h.bound

/-- What an operation of the `try` is: it updates the row without a look at it, and keeps the session. -/
theorem mem_syncOps {op : Op} (h : op ∈ syncOps session) :
    op.first = .update ∧ ∀ now, (op.transition now).patch.runtimeSessionId = none ∨
      (op.transition now).patch.runtimeSessionId = some session.sessionId := by
  simp only [syncOps, List.mem_cons, List.not_mem_nil, or_false] at h
  rcases h with rfl | rfl | rfl
  · exact ⟨rfl, fun _ => Or.inl rfl⟩
  · exact ⟨rfl, fun _ => Or.inr rfl⟩
  · exact ⟨rfl, fun _ => Or.inr rfl⟩

private theorem bindSession_not_mem {request : RunDescriptor} {bound : BoundSession} {done rest : List Op}
    (h : syncOps session = done ++ .bindSession request bound :: rest) (request' : RunDescriptor)
    (bound' : BoundSession) : .bindSession request' bound' ∉ done := by
  rcases done with _ | ⟨first, _ | ⟨second, done⟩⟩
  · exact List.not_mem_nil
  · obtain ⟨rfl, -⟩ := List.cons.inj h
    simp
  · have hlast := (List.cons.inj (List.cons.inj h).2).2
    rcases done with _ | ⟨third, done⟩ <;> simp at hlast

/-- The session that is bound is that of the snapshot. -/
theorem bindSession_eq {request : RunDescriptor} {bound : BoundSession} {done rest : List Op}
    (h : syncOps session = done ++ .bindSession request bound :: rest) :
    request = buildRunDescriptor session ∧ bound = boundSession session := by
  have hmem : .bindSession request bound ∈ syncOps session := by
    rw [h]
    exact List.mem_append_right _ List.mem_cons_self
  simpa [syncOps] using hmem

private theorem leads_syncOps (session : RuntimeSessionSnapshot) : Leads .queued (syncOps session) .running := by
  simp [syncOps, Leads, Op.target, validTransitions]

/-- The operations go on, or the session is subscribed to. -/
theorem discovering_syncNext {runId : String} {r : Record N} (done : List Op) {rest : List Op}
    (huuid : uuid session.sessionId = some runId) (hrow : insertable session = true)
    (hfound : s.findById runId = some r)
    (hsession : r.row.runtimeSessionId = some session.sessionId) (hops : syncOps session = done ++ rest)
    (hdone : ∀ op ∈ done, Did runId r.log s.runtimeSessions op) (hleads : Leads r.row.status rest .running) :
    Discovering uuid session (s.syncNext runId rest) := by
  cases rest with
  | nil =>
    rw [List.append_nil] at hops
    refine ⟨runId, r, huuid, hrow, hfound, hsession, .inl ⟨hleads, ?_⟩⟩
    rw [hops]
    exact hdone
  | cons op rest =>
    have hmem : op ∈ syncOps session := by
      rw [hops]
      exact List.mem_append_right _ List.mem_cons_self
    refine ⟨huuid, hrow, r, done, hfound, hsession, hops, hdone, ?_⟩
    rw [(mem_syncOps hmem).1]
    exact hleads

private theorem discovering_update {runId : String} {r : Record N} {op : Op} {done rest : List Op}
    (huuid : uuid session.sessionId = some runId) (hinsert : insertable session = true)
    (hfound : s.findById runId = some r)
    (hsession : r.row.runtimeSessionId = some session.sessionId) (hops : syncOps session = done ++ op :: rest)
    (hdone : ∀ op ∈ done, Did runId r.log s.runtimeSessions op) (hleads : Leads r.row.status (op :: rest) .running)
    (env : Env) :
    Discovering uuid session ((s.save (stepOn env op s.records runId .update).1).afterSync runId op rest
      (stepOn env op s.records runId .update).2) := by
  obtain ⟨row, hrow⟩ : ∃ row, compareAndSet (op.transition env.now) env.now r.row = some row := by
    refine ⟨_, compareAndSet_eq_some.2 ⟨?_, rfl⟩⟩
    rw [op.transition_target]
    exact hleads.1
  have hstep : step env op r .update = ({ r with row }, .goesOn (.emit row)) := by rw [step, hrow]
  have hkey : runKey r = runId := Table.key_of_get hfound
  have hid : runKey ({ r with row } : Record N) = runId :=
    (compareAndSet_id hrow).trans hkey
  have hput : Table.get runKey (Table.put runKey s.records runId { r with row }) runId = some { r with row } :=
    Table.get_put_self hfound hid
  have hstatus : row.status = op.target := (compareAndSet_status hrow).trans (op.transition_target env.now)
  have hmem : op ∈ syncOps session := by
    rw [hops]
    exact List.mem_append_right _ List.mem_cons_self
  have hsession' : row.runtimeSessionId = some session.sessionId := by
    rw [(compareAndSet_eq_some.1 hrow).2]
    rcases (mem_syncOps hmem).2 env.now with hpatch | hpatch <;> simp [RunRow.patched, hpatch, hsession]
  rw [stepOn_of_found hfound, hstep]
  cases op with
  | bindSession request bound =>
    exact ⟨huuid, hinsert, _, done, hput, hsession', hops, hdone, hstatus, hleads.2⟩
  | markStarted | markRunning | markSuspended | markResumed | markCompleted | markFailed | markCancelled =>
    exact ⟨huuid, hinsert, _, done, hput, hsession', hops, hdone, hstatus, hleads.2, fun _ _ h => absurd h (by simp)⟩

/-- The prepared events have the types and the data of the events. -/
theorem exists_mem_prepareEmitted (runId : String) (runCtx : Option TraceRef) (uuid : Nat → String) (startSeq : Nat)
    {events : List (PartialEvent N)} {e : PartialEvent N} (he : e ∈ events) :
    ∃ c ∈ RunEventService.prepareEmitted runId runCtx uuid startSeq events, c.type = e.type ∧ c.data = e.data := by
  obtain ⟨i, hi, rfl⟩ := List.mem_iff_getElem.1 he
  exact ⟨_, List.mem_mapIdx.2 ⟨i, hi, rfl⟩, rfl, rfl⟩

private theorem discovering_emit {runId : String} {r : Record N} {op : Op} {done rest : List Op} {run : RunRow}
    (huuid : uuid session.sessionId = some runId) (hinsert : insertable session = true)
    (hfound : s.findById runId = some r)
    (hsession : r.row.runtimeSessionId = some session.sessionId) (hops : syncOps session = done ++ op :: rest)
    (hdone : ∀ op ∈ done, Did runId r.log s.runtimeSessions op) (hat : SyncAt s r runId op rest (.emit run))
    (env : Env) :
    Discovering uuid session ((s.save (stepOn env op s.records runId (.emit run)).1).afterSync runId op rest
      (stepOn env op s.records runId (.emit run)).2) := by
  obtain ⟨hstatus, hleads, hbound⟩ := hat
  have hkey : runKey r = runId := Table.key_of_get hfound
  have hid : runKey (r.emit env (op.events run env.now)) = runId := hkey
  have hput : Table.get runKey (Table.put runKey s.records runId (r.emit env (op.events run env.now))) runId =
      some (r.emit env (op.events run env.now)) := Table.get_put_self hfound hid
  have hlog : r.log ⊆ (r.emit env (op.events run env.now)).log := fun _ h => List.mem_append_left _ h
  rw [stepOn_of_found hfound]
  refine discovering_syncNext (done ++ [op]) huuid hinsert hput hsession ?_ ?_ (hstatus ▸ hleads)
  · rw [hops, List.append_assoc]
    rfl
  · intro other hother
    rcases List.mem_append.1 hother with hother | hother
    · exact (hdone other hother).mono hlog
    · rw [List.mem_singleton.1 hother]
      refine ⟨⟨run, env.now, fun e he => ?_⟩, hbound⟩
      obtain ⟨c, hc, hsame⟩ := exists_mem_prepareEmitted r.row.id env.runCtx env.uuid (r.lastEventSeq + 1) he
      exact ⟨c, List.mem_append_right _ hc, hsame⟩

/-- The upsert for the session that is discovered is refused only by a column. -/
theorem upsert_iff (hunshared : Unshared uuid session s) {runId : String}
    (huuid : uuid session.sessionId = some runId) (hinsert : insertable session = true) {r : Record N}
    (hfound : s.findById runId = some r) (now : String) :
    s.upsert (boundValues runId (buildRunDescriptor session) (boundSession session) now) =
      if bindable session then
        some (Table.remove RuntimeSessionValues.runId s.runtimeSessions runId ++
          [(boundValues runId (buildRunDescriptor session) (boundSession session) now).cut])
      else none := by
  simp only [insertable, Bool.and_eq_true, decide_eq_true_eq] at hinsert
  have hcut : Columns.cut 255 session.sessionId = session.sessionId := Columns.cut_of_length_le hinsert.1.1.1.1.1.1
  have hothers : (Table.remove RuntimeSessionValues.runId s.runtimeSessions runId).all
      (fun other => other.runtimeSessionId ≠ session.sessionId) = true := by
    rw [List.all_eq_true]
    intro other hother
    obtain ⟨hmem, hne⟩ := List.mem_filter.1 hother
    rw [decide_eq_true_eq] at hne ⊢
    intro hsame
    exact hne (Option.some.inj ((hunshared other hmem hsame).1.symm.trans huuid))
  have hfits : (boundValues runId (buildRunDescriptor session) (boundSession session) now).fits = bindable session :=
    rfl
  have hid : (boundValues runId (buildRunDescriptor session) (boundSession session) now).runId = runId := rfl
  have hbound : (boundValues runId (buildRunDescriptor session) (boundSession session) now).cut.runtimeSessionId =
      session.sessionId := hcut
  rw [State.upsert, hid, hfound, hbound, hothers, hfits]
  simp

private theorem discovering_statement (h : Discovering uuid session s) (hunshared : Unshared uuid session s)
    {env : Env} {traceId : String} (hnext : s.statement uuid env traceId = some t) : Discovering uuid session t := by
  unfold Discovering at h
  cases hhere : s.here with
  | waiting | threw error | stopped => exact absurd hnext (by simp [State.statement, hhere])
  | find | mark => simp only [hhere] at h
  | lookup session' =>
    simp only [hhere] at h
    obtain ⟨rfl, hnew⟩ := h
    simp only [State.statement, hhere, hnew.session, hnew.known, if_false] at hnext
    rw [← Option.some.inj hnext]
    exact ⟨rfl, hnew.session, hnew.run⟩
  | insert session' =>
    simp only [hhere] at h
    obtain ⟨rfl, hsession, hrun⟩ := h
    cases huuid : uuid session'.sessionId with
    | none =>
      simp only [State.statement, hhere, huuid] at hnext
      rw [← Option.some.inj hnext]
      refine ⟨fun hinsert => ?_, hsession⟩
      have hid := hinsert.id
      rw [huuid] at hid
      exact absurd hid Bool.false_ne_true
    | some id =>
      have hfree : s.free id session'.sessionId = true := by
        rw [State.free, hsession, hrun id huuid]
        rfl
      simp only [State.statement, hhere, huuid, hfree, Bool.and_true] at hnext
      split at hnext <;> rw [← Option.some.inj hnext]
      · rename_i hinsert
        let record : Record N :=
          { row := createdRow (buildRunDescriptor session') session'.sessionId id traceId env.now }
        have hconcat : Table.get runKey (s.records ++ [record]) (runKey record) = some record :=
          Table.get_concat_self (hrun id huuid)
        exact ⟨rfl, huuid, hinsert, _, hconcat, rfl, rfl⟩
      · rename_i hrefused
        exact ⟨fun hinsert => hrefused hinsert.row, hsession⟩
  | readBack session' id traceId' =>
    simp only [hhere] at h
    obtain ⟨rfl, huuid, hinsert, r, hfound, hsession, hstatus⟩ := h
    simp only [State.statement, hhere, hfound] at hnext
    rw [← Option.some.inj hnext]
    have hkey : runKey r = id := Table.key_of_get hfound
    obtain rfl : r.row.id = id := hkey
    exact ⟨rfl, huuid, hinsert, r, hfound, hsession, hstatus⟩
  | announce session' record traceId' =>
    simp only [hhere] at h
    obtain ⟨rfl, huuid, hinsert, r, hfound, hsession, hstatus⟩ := h
    simp only [State.statement, hhere, hfound] at hnext
    rw [← Option.some.inj hnext]
    have hkey : runKey r = record.id := Table.key_of_get hfound
    have hput : ∀ events, Table.get runKey (Table.put runKey s.records record.id (r.emit env events)) record.id =
        some (r.emit env events) := fun events => Table.get_put_self hfound hkey
    refine discovering_syncNext [] huuid hinsert (hput _) hsession rfl (fun _ hop => absurd hop List.not_mem_nil) ?_
    rw [show Record.row (r.emit env _) = r.row from rfl, hstatus]
    exact leads_syncOps session'
  | sync runId op rest phase =>
    simp only [hhere] at h
    obtain ⟨huuid, hinsert, r, done, hfound, hsession, hops, hdone, hat⟩ := h
    simp only [State.statement, hhere] at hnext
    rw [← Option.some.inj hnext]
    cases phase with
    | check => exact hat.elim
    | update => exact discovering_update huuid hinsert hfound hsession hops hdone hat env
    | reread => exact hat.elim
    | emit run => exact discovering_emit huuid hinsert hfound hsession hops hdone hat env
  | upsert runId request bound rest run =>
    simp only [hhere] at h
    obtain ⟨huuid, hinsert, r, done, hfound, hsession, hops, hdone, hstatus, hleads⟩ := h
    obtain ⟨rfl, rfl⟩ := bindSession_eq hops
    simp only [State.statement, hhere, upsert_iff hunshared huuid hinsert hfound] at hnext
    cases hbind : bindable session with
    | true =>
      rw [hbind, if_pos rfl] at hnext
      rw [← Option.some.inj hnext]
      refine ⟨huuid, hinsert, r, done, hfound, hsession, hops, fun op hop => ⟨(hdone op hop).logged, ?_⟩, hstatus,
        hleads,
        ?_⟩
      · -- The session is bound once.
        rintro request' bound' rfl
        exact absurd hop (bindSession_not_mem hops _ _)
      · intro request' bound' hop
        obtain ⟨rfl, rfl⟩ := Op.bindSession.inj hop
        exact ⟨env.now, hbind, List.mem_append_right _ (List.mem_singleton_self _)⟩
    | false =>
      rw [hbind, if_neg Bool.false_ne_true] at hnext
      rw [← Option.some.inj hnext]
      exact ⟨runId, r, huuid, hinsert, hfound, hsession, .inr ⟨hstatus, hbind⟩⟩

/-- What a caller that leaves the session alone keeps. -/
structure Kept (uuid : String → Option String) (sessionId : String) (s t : State N) : Prop where
  here : t.here = s.here
  known : t.knownSessions = s.knownSessions
  runtimeSessions : t.runtimeSessions ⊆ s.runtimeSessions
  own : ∀ values ∈ s.runtimeSessions, uuid sessionId = some values.runId → values ∈ t.runtimeSessions
  run : ∀ id, uuid sessionId = some id → t.findById id = s.findById id
  session : s.findBySessionId sessionId = none → t.findBySessionId sessionId = none

private theorem Did.kept {sessionId runId : String} (hkept : Kept uuid sessionId s t)
    (huuid : uuid sessionId = some runId)
    {log : List (CanonicalEvent N)} {op : Op} (h : Did runId log s.runtimeSessions op) :
    Did runId log t.runtimeSessions op where
  logged := h.logged
  bound request session hop := by
    obtain ⟨now, hfits, hvalues⟩ := h.bound request session hop
    exact ⟨now, hfits, hkept.own _ hvalues huuid⟩

private theorem discovering_kept (h : Discovering uuid session s) (hkept : Kept uuid session.sessionId s t) :
    Discovering uuid session t := by
  unfold Discovering at h ⊢
  rw [hkept.here]
  cases hhere : s.here with
  | stopped | find | mark => simp only [hhere] at h
  | lookup session' =>
    simp only [hhere] at h ⊢
    obtain ⟨hsame, hnew⟩ := h
    refine ⟨hsame, hkept.session hnew.session, fun id hid => ?_, fun values hvalues => ?_, hkept.known ▸ hnew.known⟩
    · rw [hkept.run id hid]
      exact hnew.run id hid
    · exact hnew.unbound values (hkept.runtimeSessions hvalues)
  | insert session' =>
    simp only [hhere] at h ⊢
    obtain ⟨hsame, hsession, hrun⟩ := h
    refine ⟨hsame, hkept.session hsession, fun id hid => ?_⟩
    rw [hkept.run id hid]
    exact hrun id hid
  | threw error =>
    simp only [hhere] at h ⊢
    exact ⟨h.1, hkept.session h.2⟩
  | readBack session' id traceId =>
    simp only [hhere] at h ⊢
    rw [hkept.run id h.2.1]
    exact h
  | announce session' record traceId =>
    simp only [hhere] at h ⊢
    rw [hkept.run record.id h.2.1]
    exact h
  | sync runId op rest phase =>
    simp only [hhere] at h ⊢
    obtain ⟨huuid, hinsert, r, done, hfound, hsession, hops, hdone, hat⟩ := h
    rw [hkept.run runId huuid]
    refine ⟨huuid, hinsert, r, done, hfound, hsession, hops, fun op hop => (hdone op hop).kept hkept huuid, ?_⟩
    cases phase with
    | check | reread => exact hat.elim
    | update => exact hat
    | emit run =>
      refine ⟨hat.1, hat.2.1, fun request bound hop => ?_⟩
      obtain ⟨now, hfits, hvalues⟩ := hat.2.2 request bound hop
      exact ⟨now, hfits, hkept.own _ hvalues huuid⟩
  | upsert runId request bound rest run =>
    simp only [hhere] at h ⊢
    obtain ⟨huuid, hinsert, r, done, hfound, hsession, hops, hdone, hstatus⟩ := h
    rw [hkept.run runId huuid]
    exact ⟨huuid, hinsert, r, done, hfound, hsession, hops, fun op hop => (hdone op hop).kept hkept huuid, hstatus⟩
  | waiting =>
    simp only [hhere] at h ⊢
    obtain ⟨id, r, huuid, hinsert, hfound, hsession, hend⟩ := h
    refine ⟨id, r, huuid, hinsert, (hkept.run id huuid).trans hfound, hsession, hend.imp_left ?_⟩
    exact fun ⟨hstatus, hdid⟩ => ⟨hstatus, fun op hop => (hdid op hop).kept hkept huuid⟩

private theorem unshared_kept (h : Unshared uuid session s) (hkept : Kept uuid session.sessionId s t) :
    Unshared uuid session t :=
  fun values hvalues => h values (hkept.runtimeSessions hvalues)

private theorem findBySessionId_eq_none {sessionId : String} :
    s.findBySessionId sessionId = none ↔ ∀ r ∈ s.records, r.row.runtimeSessionId ≠ some sessionId :=
  Table.get_eq_none

/-- Another caller writes a row that is not the run of the session. -/
theorem kept_put {sessionId id : String} (hid : uuid sessionId ≠ some id) {r r' : Record N}
    (hfound : s.findById id = some r) (hkey : runKey r' = runKey r)
    (hsession : r.row.runtimeSessionId ≠ some sessionId → r'.row.runtimeSessionId ≠ some sessionId) :
    Kept uuid sessionId s (s.save (Table.put runKey s.records id r')) where
  here := rfl
  known := rfl
  runtimeSessions := List.Subset.refl _
  own _ hvalues _ := hvalues
  run other hother := by
    have hne : other ≠ id := by
      rintro rfl
      exact hid hother
    have hkey' : runKey r = id := Table.key_of_get hfound
    exact Table.get_put_of_ne (hkey.trans hkey') hne
  session hnone := by
    rw [findBySessionId_eq_none] at hnone ⊢
    intro x hx
    rcases Table.mem_put hx with hx | rfl
    · exact hnone x hx
    · exact hsession (hnone r (Table.mem_of_get hfound))

private theorem kept_next {sessionId : String} {a : Action N} (ha : LeavesAlone uuid sessionId a)
    (hown : ∀ env traceId, a ≠ .statement env traceId) (hnext : next uuid s a = some t) :
    Kept uuid sessionId s t := by
  cases next_spec uuid hnext with
  | event | fail | reconnect => exact ha.elim
  | statement => exact absurd rfl (hown _ _)
  | destroy => exact ⟨rfl, rfl, List.Subset.refl _, fun _ hvalues _ => hvalues, fun _ _ => rfl, id⟩
  | create =>
    refine ⟨rfl, rfl, List.Subset.refl _, fun _ hvalues _ => hvalues, fun id hid => ?_, fun hnone => ?_⟩
    · refine Table.get_concat_of_ne fun hrow => ha.1 ?_
      rw [hid, ← hrow]
    · rw [findBySessionId_eq_none] at hnone ⊢
      intro x hx
      rcases List.mem_append.1 hx with hx | hx
      · exact hnone x hx
      · rw [List.mem_singleton.1 hx]
        exact ha.2
  | @transition id now transition r row hfound hmoved =>
    have hset := (compareAndSet_eq_some.1 hmoved).2
    refine kept_put ha.1 hfound (compareAndSet_id hmoved) fun hsession => ?_
    show row.runtimeSessionId ≠ some sessionId
    rw [hset]
    have hpatch := ha.2
    cases hsome : transition.patch.runtimeSessionId with
    | none => simpa [RunRow.patched, hsome] using hsession
    | some other =>
      rw [hsome] at hpatch
      simpa [RunRow.patched, hsome] using hpatch
  | append hfound => exact kept_put ha hfound rfl fun hsession => hsession
  | delete =>
    refine ⟨rfl, rfl, fun _ hvalues => List.mem_of_mem_filter hvalues, fun values hvalues huuid => ?_,
      fun other hother => Table.get_remove_of_ne ?_, fun hnone => ?_⟩
    · refine List.mem_filter.2 ⟨hvalues, decide_eq_true ?_⟩
      rintro rfl
      exact ha huuid
    · rintro rfl
      exact ha hother
    · rw [findBySessionId_eq_none] at hnone ⊢
      exact fun x hx => hnone x (List.mem_of_mem_filter hx)

private theorem runtimeSessions_syncNext (s : State N) (runId : String) (ops : List Op) :
    (s.syncNext runId ops).runtimeSessions = s.runtimeSessions := by
  cases ops <;> rfl

private theorem runtimeSessions_afterSync (s : State N) (runId : String) (op : Op) (rest : List Op)
    (outcome : Outcome) : (s.afterSync runId op rest outcome).runtimeSessions = s.runtimeSessions := by
  cases outcome with
  | goesOn phase => cases phase <;> cases op <;> rfl
  | returned run => exact runtimeSessions_syncNext s runId rest
  | threw error => rfl

/-- Only the upsert writes a runtime session. -/
theorem unshared_statement (h : Discovering uuid session s) (hunshared : Unshared uuid session s) {env : Env}
    {traceId : String} (hnext : s.statement uuid env traceId = some t) : Unshared uuid session t := by
  have hsame : t.runtimeSessions = s.runtimeSessions → Unshared uuid session t := by
    intro heq
    rw [Unshared, heq]
    exact hunshared
  unfold Discovering at h
  cases hhere : s.here with
  | waiting | threw error | stopped => exact absurd hnext (by simp [State.statement, hhere])
  | find | mark => simp only [hhere] at h
  | lookup session' =>
    simp only [State.statement, hhere] at hnext
    split at hnext <;> split at hnext <;> rw [← Option.some.inj hnext] at hsame ⊢ <;> exact hsame rfl
  | insert session' =>
    simp only [State.statement, hhere] at hnext
    split at hnext
    · split at hnext <;> rw [← Option.some.inj hnext] at hsame ⊢ <;> exact hsame rfl
    · rw [← Option.some.inj hnext] at hsame ⊢
      exact hsame rfl
  | readBack session' id traceId' =>
    simp only [State.statement, hhere] at hnext
    split at hnext <;> rw [← Option.some.inj hnext] at hsame ⊢ <;> exact hsame rfl
  | announce session' record traceId' =>
    simp only [State.statement, hhere] at hnext
    split at hnext <;> rw [← Option.some.inj hnext] at hsame ⊢
    · exact hsame (runtimeSessions_syncNext _ _ _)
    · exact hsame rfl
  | sync runId op rest phase =>
    simp only [State.statement, hhere] at hnext
    rw [← Option.some.inj hnext] at hsame ⊢
    exact hsame (runtimeSessions_afterSync _ _ _ _ _)
  | upsert runId request bound rest run =>
    simp only [hhere] at h
    obtain ⟨huuid, hinsert, r, done, hfound, -, hops, -⟩ := h
    obtain ⟨rfl, rfl⟩ := bindSession_eq hops
    simp only [State.statement, hhere, upsert_iff hunshared huuid hinsert hfound] at hnext
    cases hbind : bindable session with
    | true =>
      rw [hbind, if_pos rfl] at hnext
      rw [← Option.some.inj hnext]
      intro values hvalues hid
      rcases List.mem_append.1 hvalues with hvalues | hvalues
      · exact hunshared values (List.mem_of_mem_filter hvalues) hid
      · rw [List.mem_singleton.1 hvalues]
        exact ⟨huuid, hbind⟩
    | false =>
      rw [hbind, if_neg Bool.false_ne_true] at hnext
      rw [← Option.some.inj hnext] at hsame ⊢
      exact hsame rfl

private theorem discovering_next (h : Discovering uuid session s) (hunshared : Unshared uuid session s) {a : Action N}
    (ha : LeavesAlone uuid session.sessionId a) (hnext : next uuid s a = some t) :
    Discovering uuid session t ∧ Unshared uuid session t := by
  by_cases hown : ∃ env traceId, a = .statement env traceId
  · obtain ⟨env, traceId, rfl⟩ := hown
    exact ⟨discovering_statement h hunshared hnext, unshared_statement h hunshared hnext⟩
  · have hkept := kept_next ha (fun env traceId heq => hown ⟨env, traceId, heq⟩) hnext
    exact ⟨discovering_kept h hkept, unshared_kept hunshared hkept⟩

private theorem discovering_exec {as : List (Action N)} (has : ∀ a ∈ as, LeavesAlone uuid session.sessionId a)
    (h : Discovering uuid session s) (hunshared : Unshared uuid session s)
    (hexec : (machine uuid).exec s as = some t) : Discovering uuid session t ∧ Unshared uuid session t := by
  induction as generalizing s with
  | nil => exact Option.some.inj hexec ▸ ⟨h, hunshared⟩
  | cons a as ih =>
    obtain ⟨u, hu, hrest⟩ := Machine.exec_cons_eq_some.1 hexec
    obtain ⟨hdiscovering, hunshared'⟩ := discovering_next h hunshared (has a List.mem_cons_self) hu
    exact ih (fun b hb => has b (List.mem_cons_of_mem _ hb)) hdiscovering hunshared' hrest

private theorem New.unshared (h : New uuid s session.sessionId) : Unshared uuid session s :=
  fun values hvalues hid => absurd hid (h.unbound values hvalues)

/-- The event of a new session. -/
theorem next_created (hhere : s.here = .waiting) (haborted : s.aborted = false) (hne : session.sessionId ≠ "") :
    (machine uuid).next s (.event ⟨.created, some session⟩) = some { s with here := .lookup session } := by
  simp [machine, next, hhere, State.consume, haborted, hne, eventOp]

/-- Where the handler of a new session comes to its end. -/
theorem discovering_created (hhere : s.here = .waiting) (haborted : s.aborted = false) (hne : session.sessionId ≠ "")
    (hnew : New uuid s session.sessionId) {as : List (Action N)}
    (has : ∀ a ∈ as, LeavesAlone uuid session.sessionId a)
    (hexec : (machine uuid).exec s (.event ⟨.created, some session⟩ :: as) = some t) :
    Discovering uuid session t ∧ Unshared uuid session t := by
  obtain ⟨u, hu, hrest⟩ := Machine.exec_cons_eq_some.1 hexec
  obtain rfl := Option.some.inj ((next_created hhere haborted hne).symm.trans hu)
  have hstart : Discovering uuid session { s with here := .lookup session } :=
    ⟨rfl, hnew.session, hnew.run, hnew.unbound, hnew.known⟩
  exact discovering_exec has hstart hnew.unshared hrest

/-- A session that is known, although it has no run, is skipped. -/
structure Skipping (session : RuntimeSessionSnapshot) (s : State N) : Prop where
  here : s.here = .lookup session ∨ s.here = .waiting
  known : session.sessionId ∈ s.knownSessions
  unbound : s.findBySessionId session.sessionId = none

private theorem skipping_next (h : Skipping session s) {a : Action N} (ha : LeavesAlone uuid session.sessionId a)
    (hnext : next uuid s a = some t) : Skipping session t := by
  by_cases hown : ∃ env traceId, a = .statement env traceId
  · obtain ⟨env, traceId, rfl⟩ := hown
    have hstep : s.statement uuid env traceId = some t := hnext
    rcases h.here with hhere | hhere
    · simp only [State.statement, hhere, h.unbound, h.known, if_true] at hstep
      rw [← Option.some.inj hstep]
      exact ⟨Or.inr rfl, h.known, h.unbound⟩
    · exact absurd hstep (by simp [State.statement, hhere])
  · have hkept := kept_next ha (fun env traceId heq => hown ⟨env, traceId, heq⟩) hnext
    exact ⟨hkept.here ▸ h.here, hkept.known ▸ h.known, hkept.session h.unbound⟩

private theorem skipping_exec {as : List (Action N)} (has : ∀ a ∈ as, LeavesAlone uuid session.sessionId a)
    (h : Skipping session s) (hexec : (machine uuid).exec s as = some t) : Skipping session t := by
  induction as generalizing s with
  | nil => exact Option.some.inj hexec ▸ h
  | cons a as ih =>
    obtain ⟨u, hu, hrest⟩ := Machine.exec_cons_eq_some.1 hexec
    exact ih (fun b hb => has b (List.mem_cons_of_mem _ hb)) (skipping_next h (has a List.mem_cons_self) hu) hrest

/-! ### A handler comes to its end -/

/-- How many statements an operation still has at most. -/
def phaseRank : Phase → Nat
  | .check => 5
  | .update => 4
  | .reread => 3
  | .emit _ => 1

/-- How many statements the handler still has at most. -/
def rank : At → Nat
  | .waiting | .threw _ | .stopped => 0
  | .lookup _ => 20
  | .insert _ => 19
  | .readBack _ _ _ => 18
  | .announce _ _ _ => 17
  | .sync _ _ rest phase => 5 * rest.length + phaseRank phase
  | .upsert _ _ _ rest _ => 5 * rest.length + 2
  | .find _ _ _ => 6
  | .mark _ _ phase _ => phaseRank phase

private theorem phaseRank_pos (phase : Phase) : 0 < phaseRank phase := by cases phase <;> exact Nat.succ_pos _

/-- A statement of an operation takes it on. -/
theorem phaseRank_step (env : Env) (op : Op) (r : Record N) (phase phase' : Phase)
    (h : (step env op r phase).2 = .goesOn phase') : phaseRank phase' < phaseRank phase := by
  have hspec := step_spec env op r phase
  generalize step env op r phase = result at h hspec
  cases hspec with
  | left | emitted => exact absurd h (by simp)
  | checked | wrote | missed | agreed =>
    obtain rfl := Outcome.goesOn.inj h
    simp [phaseRank]
  | refused hstatus =>
    rename_i error
    rcases op.caught_cases r.row error with hcaught | ⟨hcaught, -⟩ <;>
      exact absurd (hcaught.symm.trans h) (by simp)

private theorem phaseRank_stepOn (env : Env) (op : Op) (records : List (Record N)) (runId : String)
    (phase phase' : Phase)
    (h : (stepOn env op records runId phase).2 = .goesOn phase') : phaseRank phase' < phaseRank phase := by
  unfold stepOn at h
  split at h
  · exact phaseRank_step env op _ phase phase' h
  · cases phase with
    | update =>
      obtain rfl := Outcome.goesOn.inj h
      exact Nat.lt_succ_self 3
    | check | reread | emit run => exact absurd h (by simp [missing])

private theorem rank_syncNext (s : State N) (runId : String) (rest : List Op)
    (hfirst : ∀ op ∈ rest, op.first = .update) : rank (s.syncNext runId rest).here < 5 * rest.length + 1 := by
  cases rest with
  | nil => exact Nat.zero_lt_one
  | cons op rest =>
    have hop := hfirst op List.mem_cons_self
    simp only [State.syncNext, rank, hop, phaseRank, List.length_cons]
    omega

private theorem rank_afterSync (s : State N) (runId : String) (op : Op) (rest : List Op)
    (hfirst : ∀ op ∈ rest, op.first = .update) {phase : Phase} {outcome : Outcome}
    (h : ∀ phase', outcome = .goesOn phase' → phaseRank phase' < phaseRank phase) :
    rank (s.afterSync runId op rest outcome).here < 5 * rest.length + phaseRank phase := by
  have hpos := phaseRank_pos phase
  cases outcome with
  | goesOn phase' =>
    have hlt := h phase' rfl
    cases phase' with
    | emit run =>
      -- Only an update, or what comes before it, leads to the event.
      have hge : 3 ≤ phaseRank phase := by
        cases phase with
        | check | update | reread => simp [phaseRank]
        | emit run => exact absurd hlt (Nat.lt_irrefl 1)
      have hone : phaseRank (.emit run) = 1 := rfl
      cases op <;> simp only [State.afterSync, rank, hone] <;> omega
    | check | update | reread =>
      simp only [State.afterSync, rank]
      omega
  | returned run =>
    have := rank_syncNext s runId rest hfirst
    simp only [State.afterSync]
    omega
  | threw error =>
    simp only [State.afterSync, State.subscribe, rank]
    omega

private theorem first_of_rest {done rest : List Op} {op : Op} (h : syncOps session = done ++ op :: rest) :
    ∀ op ∈ rest, op.first = .update := by
  intro op hop
  have hmem : op ∈ syncOps session := by
    rw [h]
    exact List.mem_append_right _ (List.mem_cons_of_mem _ hop)
  exact (mem_syncOps hmem).1

/-- The handler of a new session has a next statement until it comes to its end, and fewer and fewer of them. -/
theorem statement_rank (h : Discovering uuid session s) (env : Env) (traceId : String) (hnot : ¬ Settled s) :
    ∃ t, s.statement uuid env traceId = some t ∧ rank t.here < rank s.here := by
  unfold Discovering at h
  cases hhere : s.here with
  | waiting => exact absurd (Or.inl hhere) hnot
  | threw error => exact absurd (Or.inr ⟨error, hhere⟩) hnot
  | stopped | find | mark => simp only [hhere] at h
  | lookup session' =>
    simp only [hhere] at h
    obtain ⟨rfl, hnew⟩ := h
    simp only [State.statement, hhere, hnew.session, hnew.known, if_false]
    exact ⟨_, rfl, by simp [rank]⟩
  | insert session' =>
    simp only [State.statement, hhere]
    split
    · split <;> exact ⟨_, rfl, by simp [rank, State.reject]⟩
    · exact ⟨_, rfl, by simp [rank, State.reject]⟩
  | readBack session' id traceId' =>
    simp only [hhere] at h
    obtain ⟨rfl, huuid, -, r, hfound, -⟩ := h
    simp only [State.statement, hhere, hfound]
    exact ⟨_, rfl, by simp [rank]⟩
  | announce session' record traceId' =>
    simp only [hhere] at h
    obtain ⟨rfl, huuid, -, r, hfound, -⟩ := h
    simp only [State.statement, hhere, hfound]
    refine ⟨_, rfl, ?_⟩
    have hlt := rank_syncNext (s.save (Table.put runKey s.records record.id (r.emit env
      (createdEvents (buildRunDescriptor session') session'.sessionId record traceId' env.now)))) record.id
      (syncOps session') fun op hop => (mem_syncOps hop).1
    have hlength : (syncOps session').length = 3 := rfl
    have hannounce : rank (.announce session' record traceId') = 17 := rfl
    rw [hannounce]
    omega
  | sync runId op rest phase =>
    simp only [hhere] at h
    obtain ⟨-, -, r, done, -, -, hops, -⟩ := h
    simp only [State.statement, hhere]
    exact ⟨_, rfl, rank_afterSync _ runId op rest (first_of_rest hops) (phaseRank_stepOn env op s.records runId phase)⟩
  | upsert runId request bound rest run =>
    simp only [State.statement, hhere]
    split
    · exact ⟨_, rfl, by simp [rank, phaseRank]⟩
    · exact ⟨_, rfl, by simp [rank, State.subscribe]⟩

private theorem settles (h : Discovering uuid session s) (hunshared : Unshared uuid session s) :
    ∃ as t, (∀ a ∈ as, IsStatement a) ∧ (machine uuid).exec s as = some t ∧ Settled t := by
  -- By induction on the number of statements that are left.
  induction hrank : rank s.here using Nat.strongRecOn generalizing s with
  | ind n ih =>
    by_cases hsettled : Settled s
    · exact ⟨[], s, fun a ha => absurd ha List.not_mem_nil, rfl, hsettled⟩
    · let env : Env := ⟨"", fun _ => "", none⟩
      obtain ⟨t, ht, hlt⟩ := statement_rank h env "" hsettled
      obtain ⟨as, u, has, hexec, hu⟩ := ih (rank t.here) (hrank ▸ hlt) (discovering_statement h hunshared ht)
        (unshared_statement h hunshared ht) rfl
      refine ⟨.statement env "" :: as, u, ?_, Machine.exec_cons_eq_some.2 ⟨t, ht, hexec⟩, hu⟩
      intro a ha
      rcases List.mem_cons.1 ha with rfl | ha
      · exact ⟨env, "", rfl⟩
      · exact has a ha

/-! ### What has become of the session -/

/-- At its end the handler has discovered the session exactly when both tables have taken its snapshot. -/
theorem discovered_iff_of_settled (h : Discovering uuid session s) (hunshared : Unshared uuid session s)
    (hsettled : Settled s) :
    Discovered s session.sessionId ↔ Insertable uuid session ∧ bindable session = true := by
  unfold Discovering at h
  rcases hsettled with hhere | ⟨error, hhere⟩
  · simp only [hhere] at h
    obtain ⟨id, r, huuid, hrow, hfound, hsession, hend⟩ := h
    have hinsert : Insertable uuid session := ⟨by rw [huuid]; rfl, hrow⟩
    constructor
    · rintro ⟨-, -, -, -, values, hvalues, -, hbound⟩
      exact ⟨hinsert, (hunshared values hvalues hbound).2⟩
    · rintro ⟨-, hbind⟩
      obtain ⟨hstatus, hdid⟩ := hend.resolve_right fun hrefused => by simp [hbind] at hrefused
      have hmem : Op.bindSession (buildRunDescriptor session) (boundSession session) ∈ syncOps session := by
        simp [syncOps]
      obtain ⟨now, -, hvalues⟩ := (hdid _ hmem).bound _ _ rfl
      have hkey : runKey r = id := Table.key_of_get hfound
      simp only [insertable, Bool.and_eq_true, decide_eq_true_eq] at hrow
      exact ⟨r, Table.mem_of_get hfound, hsession, hstatus, _, hvalues, hkey.symm,
        Columns.cut_of_length_le hrow.1.1.1.1.1.1⟩
  · simp only [hhere] at h
    refine iff_of_false ?_ fun hinsert => h.1 hinsert.1
    rintro ⟨r, hr, hsession, -⟩
    exact findBySessionId_eq_none.1 h.2 r hr hsession

/-- At its end the handler has reported that the session is open. -/
theorem faithful_iff_of_settled (h : Discovering uuid session s) (hsettled : Settled s)
    (hinsert : Insertable uuid session) (hbind : bindable session = true) :
    Faithful s session ↔ session.state = "SESSION_STATE_OPEN" := by
  unfold Discovering at h
  rcases hsettled with hhere | ⟨error, hhere⟩
  · simp only [hhere] at h
    obtain ⟨id, r, -, -, hfound, hsession, ⟨-, hdid⟩ | ⟨-, hrefused⟩⟩ := h
    · constructor
      · intro hfaithful
        have hrunning : Op.markRunning session.sessionId "SESSION_STATE_OPEN" ∈ syncOps session := by simp [syncOps]
        obtain ⟨run, now, hlogged⟩ := (hdid _ hrunning).logged
        obtain ⟨e, he, htype, hdata⟩ := hlogged _ (List.mem_singleton_self _)
        refine (hfaithful r (Table.mem_of_get hfound) hsession).1 e he htype ?_
        rw [CanonicalEvent.datum, hdata]
        rfl
      · intro hopen r' hr' hsession'
        refine ⟨fun _ _ _ _ => hopen, fun hsuspended => ?_⟩
        rw [hopen] at hsuspended
        exact absurd hsuspended (by decide)
    · rw [hbind] at hrefused
      exact absurd hrefused nofun
  · simp only [hhere] at h
    exact absurd hinsert h.1

private theorem ne_empty_of_valid {sessionId : String} (h : Launches.isValidSessionId sessionId = true) :
    sessionId ≠ "" := by
  rintro rfl
  exact absurd h (by decide)

/-- A session whose id the control plane accepts, and that has no run and no runtime session: when the handler of its
created event comes to its end, and it does, the session is discovered exactly when it was not known and both tables
take its snapshot. -/
theorem session_discovered_iff (hhere : s.here = .waiting) (haborted : s.aborted = false)
    (hvalid : Launches.isValidSessionId session.sessionId = true)
    (hsession : s.findBySessionId session.sessionId = none)
    (hrun : ∀ id, uuid session.sessionId = some id → s.findById id = none)
    (hunbound : ∀ values ∈ s.runtimeSessions, values.runtimeSessionId ≠ session.sessionId) :
    (∀ (as : List (Action N)) (t : State N), (∀ a ∈ as, LeavesAlone uuid session.sessionId a) →
        (machine uuid).exec s (.event ⟨.created, some session⟩ :: as) = some t → Settled t →
          (Discovered t session.sessionId ↔
            session.sessionId ∉ s.knownSessions ∧ Insertable uuid session ∧ bindable session = true)) ∧
      ∃ as t, (∀ a ∈ as, IsStatement a) ∧
        (machine uuid).exec s (.event ⟨.created, some session⟩ :: as) = some t ∧ Settled t := by
  have hevent : (machine uuid).next s (.event ⟨.created, some session⟩) = some { s with here := .lookup session } :=
    next_created hhere haborted (ne_empty_of_valid hvalid)
  by_cases hknown : session.sessionId ∈ s.knownSessions
  · -- `knownSessions` is asked before the `INSERT`.
    have hskipping : Skipping session { s with here := .lookup session } := ⟨Or.inl rfl, hknown, hsession⟩
    constructor
    · intro as t has hexec hsettled
      obtain ⟨u, hu, hrest⟩ := Machine.exec_cons_eq_some.1 hexec
      obtain rfl := Option.some.inj (hevent.symm.trans hu)
      refine iff_of_false ?_ fun h => h.1 hknown
      rintro ⟨r, hr, hbound, -⟩
      exact findBySessionId_eq_none.1 (skipping_exec has hskipping hrest).unbound r hr hbound
    · let env : Env := ⟨"", fun _ => "", none⟩
      have hstatement : (machine uuid).next { s with here := .lookup session } (.statement env "") = some s := by
        have hsession' : State.findBySessionId { s with here := .lookup session } session.sessionId = none := hsession
        simp only [machine, next, State.statement, hsession', hknown, if_true, ← hhere]
      refine ⟨[.statement env ""], s, ?_, ?_, Or.inl hhere⟩
      · exact fun a ha => ⟨env, "", List.mem_singleton.1 ha⟩
      · exact Machine.exec_cons_eq_some.2 ⟨_, hevent, Machine.exec_cons_eq_some.2 ⟨s, hstatement, rfl⟩⟩
  · have hnew : New uuid s session.sessionId := ⟨hsession, hrun, hunbound, hknown⟩
    constructor
    · intro as t has hexec hsettled
      obtain ⟨hdiscovering, hunshared⟩ :=
        discovering_created hhere haborted (ne_empty_of_valid hvalid) hnew has hexec
      rw [discovered_iff_of_settled hdiscovering hunshared hsettled]
      exact (and_iff_right hknown).symm
    · have hstart : Discovering uuid session { s with here := .lookup session } :=
        ⟨rfl, hnew.session, hnew.run, hnew.unbound, hnew.known⟩
      obtain ⟨as, t, has, hexec, hsettled⟩ := settles hstart hnew.unshared
      exact ⟨as, t, has, Machine.exec_cons_eq_some.2 ⟨_, hevent, hexec⟩, hsettled⟩

end Discovering

/-- A column that takes the UUID strings. -/
def uuidColumn (id : String) : Option String := if Launches.uuidShape id.toList then some id else none

/-- A session with a UUID. -/
def external : RuntimeSessionSnapshot := opened "11111111-1111-4111-8111-111111111111"

/-- The same session, while it is suspended. -/
def paused : RuntimeSessionSnapshot := { external with state := "SESSION_STATE_SUSPENDED" }

/-- A session with a UUID is discovered. -/
theorem session_discovered_uuid :
    ∃ t, (machine uuidColumn).exec {} (.event ⟨.created, some external⟩ :: List.replicate 11 statement) = some t ∧
      Discovered t external.sessionId := by
  obtain ⟨t, ht, hsettled⟩ : ∃ t : State (Option Rat), (machine uuidColumn).exec {}
      (.event ⟨.created, some external⟩ :: List.replicate 11 statement) = some t ∧ Settled t := ⟨_, rfl, Or.inl rfl⟩
  have halone : ∀ a ∈ List.replicate 11 statement, LeavesAlone uuidColumn external.sessionId a := by
    intro a ha
    rw [List.eq_of_mem_replicate ha]
    trivial
  have hrun : ∀ id, uuidColumn external.sessionId = some id → ({} : State (Option Rat)).findById id = none :=
    fun _ _ => rfl
  have hiff := (session_discovered_iff rfl rfl (by decide) rfl hrun (by simp)).1 _ t halone ht hsettled
  exact ⟨t, ht, hiff.2 ⟨List.not_mem_nil, ⟨by decide, by decide⟩, by decide⟩⟩

/-- A session with a token, which the primary key refuses. -/
theorem session_discovered_token :
    ¬ ∀ session : RuntimeSessionSnapshot, Launches.isValidSessionId session.sessionId = true →
      session.state = "SESSION_STATE_OPEN" → ∀ (as : List (Action (Option Rat))) (t : State (Option Rat)),
        (∀ a ∈ as, IsStatement a) → (machine uuidColumn).exec {} (.event ⟨.created, some session⟩ :: as) = some t →
          Settled t → Discovered t session.sessionId := by
  intro h
  obtain ⟨t, ht, hsettled, hrecords⟩ : ∃ t, (machine uuidColumn).exec {}
      (.event ⟨.created, some (opened "abcdefghijklmnopqrstuv")⟩ :: List.replicate 2 statement) = some t ∧
        Settled t ∧ t.records = [] := ⟨_, rfl, Or.inr ⟨_, rfl⟩, rfl⟩
  obtain ⟨r, hr, -⟩ := h (opened "abcdefghijklmnopqrstuv") (by decide) rfl _ t
    (fun a ha => ⟨_, _, List.eq_of_mem_replicate ha⟩) ht hsettled
  rw [hrecords] at hr
  exact absurd hr List.not_mem_nil

/-- A new session in any state, whose snapshot both tables take: when the handler of its created event has come to its
end, what is stored of the session is faithful exactly when the session is open. -/
theorem discovered_faithful_iff {uuid : String → Option String} {session : RuntimeSessionSnapshot} {s t : State N}
    (hhere : s.here = .waiting) (haborted : s.aborted = false)
    (hne : session.sessionId ≠ "") (hnew : New uuid s session.sessionId)
    (hinsert : Insertable uuid session) (hbind : bindable session = true) {as : List (Action N)}
    (has : ∀ a ∈ as, LeavesAlone uuid session.sessionId a)
    (hexec : (machine uuid).exec s (.event ⟨.created, some session⟩ :: as) = some t) (hsettled : Settled t) :
    Faithful t session ↔ session.state = "SESSION_STATE_OPEN" :=
  faithful_iff_of_settled (discovering_created hhere haborted hne hnew has hexec).1 hsettled hinsert hbind

/-- An open session. -/
theorem discovered_faithful_open :
    ∃ t, (machine uuidColumn).exec {} (.event ⟨.created, some external⟩ :: List.replicate 11 statement) = some t ∧
      Faithful t external := by
  obtain ⟨t, ht, hsettled⟩ : ∃ t : State (Option Rat), (machine uuidColumn).exec {}
      (.event ⟨.created, some external⟩ :: List.replicate 11 statement) = some t ∧ Settled t := ⟨_, rfl, Or.inl rfl⟩
  have halone : ∀ a ∈ List.replicate 11 statement, LeavesAlone uuidColumn external.sessionId a := by
    intro a ha
    rw [List.eq_of_mem_replicate ha]
    trivial
  have hnew : New uuidColumn ({} : State (Option Rat)) external.sessionId :=
    ⟨rfl, fun _ _ => rfl, by simp, List.not_mem_nil⟩
  have hinsert : Insertable uuidColumn external := ⟨by decide, by decide⟩
  exact ⟨t, ht, (discovered_faithful_iff rfl rfl (by decide) hnew hinsert (by decide) halone ht hsettled).2 rfl⟩

/-- A session that was suspended while the watch was down: its run is running, and the log claims that it is open. -/
theorem discovered_faithful_suspended :
    ¬ ∀ session : RuntimeSessionSnapshot, session.sessionId ≠ "" →
      New uuidColumn ({} : State (Option Rat)) session.sessionId → Insertable uuidColumn session →
        bindable session = true →
        ∀ (as : List (Action (Option Rat))) (t : State (Option Rat)), (∀ a ∈ as, IsStatement a) →
          (machine uuidColumn).exec {} (.event ⟨.created, some session⟩ :: as) = some t → Settled t →
            Faithful t session := by
  intro h
  obtain ⟨t, r, ht, hsettled, hr, hsession, hstatus⟩ : ∃ (t : State (Option Rat)) (r : Record (Option Rat)),
      (machine uuidColumn).exec {} (.event ⟨.created, some paused⟩ :: List.replicate 11 statement) = some t ∧
        Settled t ∧ r ∈ t.records ∧ r.row.runtimeSessionId = some paused.sessionId ∧ r.row.status = .running :=
    ⟨_, _, rfl, Or.inl rfl, List.mem_singleton_self _, rfl, rfl⟩
  have hfaithful := h paused (by decide) ⟨rfl, fun _ _ => rfl, by simp, List.not_mem_nil⟩ ⟨by decide, by decide⟩
    (by decide) _ t
    (fun a ha => ⟨_, _, List.eq_of_mem_replicate ha⟩) ht hsettled r hr hsession
  rw [hstatus] at hfaithful
  exact absurd (hfaithful.2 rfl) (by decide)

end MacpControlPlane.SessionDiscovery

import MacpControlPlane.Runs.SessionDiscovery

/-!
# What ends the watch of the discovery loop (`runs/session-discovery.service.ts`)

While the statements of the database succeed, a handler can only throw what the repository does: a conflict, when the
status of the run does not allow the operation and is not its target either, or that a run is gone that was there a
moment ago.  `reconcileFromSnapshot` and the `try` of `handleSessionCreated` catch that; the handlers of the other
events do not.
-/

namespace MacpControlPlane.SessionDiscovery

open Js RunManager Lifecycle

variable {N : Type}

/-- `consumeWatchStream` has thrown. -/
def Threw (s : State N) : Prop := ∃ error, s.here = .threw error

/-- The statements of the database succeed. -/
def Succeeds (uuid : String → Option String) (s : State N) : Action N → Prop
  | .statement _ _ =>
    ∀ session, s.here = .insert session →
      ∃ id, uuid session.sessionId = some id ∧ (insertable session && s.free id session.sessionId) = true
  | .fail => False
  | _ => True

/-- What a statement of an operation outside of a `try` needs: the run is there, and the second read, which comes after
an update that has matched nothing, finds it in the status that the operation was to write. -/
def Meets (s : State N) (runId : String) (op : Op) : Phase → Prop
  | .update => True
  | .reread => ∃ r, s.findById runId = some r ∧ r.row.status = op.target
  | .check | .emit _ => ∃ r, s.findById runId = some r

/-- What a statement of the loop needs. -/
def Agrees (s : State N) : Action N → Prop
  | .statement _ _ =>
    match s.here with
    | .readBack _ id _ => ∃ r, s.findById id = some r
    | .announce _ record _ => ∃ r, s.findById record.id = some r
    | .mark runId op phase false => Meets s runId op phase
    | _ => True
  | _ => True

section Watch

variable {uuid : String → Option String} {s t : State N}

/-- The operations of the handlers outside of `handleSessionCreated`. -/
structure Marks (op : Op) : Prop where
  first : op.first = .check
  target : op.target ≠ .bindingSession
  leaves : op.leaves op.target = true

private theorem marks_of_eventOp {eventType : SessionLifecycleEventType} {op : Op} (h : eventOp eventType = some op) :
    Marks op := by
  cases eventType with
  | created => exact absurd h (by simp [eventOp])
  | _ =>
    obtain rfl := Option.some.inj h
    exact ⟨rfl, by decide, rfl⟩

private theorem marks_of_reconcileOp {status : RunStatus} {state : String} {op : Op}
    (h : reconcileOp status state = some op) : Marks op := by
  unfold reconcileOp at h
  split_ifs at h <;> (obtain rfl := Option.some.inj h; exact ⟨rfl, by decide, rfl⟩)

/-- The loop has not thrown, and the operation it is at is one of the handlers'. -/
structure Watching (s : State N) : Prop where
  here : ¬ Threw s
  find : ∀ sessionId op caught, s.here = .find sessionId op caught → Marks op
  mark : ∀ runId op phase caught, s.here = .mark runId op phase caught → Marks op

/-- The loop is at no operation of a handler. -/
theorem Watching.of_here (hthrew : ∀ error, s.here ≠ .threw error)
    (hfind : ∀ sessionId op caught, s.here ≠ .find sessionId op caught)
    (hmark : ∀ runId op phase caught, s.here ≠ .mark runId op phase caught) : Watching s :=
  ⟨fun ⟨error, h⟩ => hthrew error h, fun _ _ _ h => absurd h (hfind _ _ _), fun _ _ _ _ h => absurd h (hmark _ _ _ _)⟩

private theorem watching_subscribe (s : State N) (runId : String) : Watching (s.subscribe runId) :=
  .of_here (by simp [State.subscribe]) (by simp [State.subscribe]) (by simp [State.subscribe])

private theorem watching_syncNext (s : State N) (runId : String) (ops : List Op) : Watching (s.syncNext runId ops) := by
  cases ops with
  | nil => exact watching_subscribe s runId
  | cons op rest => exact .of_here (by simp [State.syncNext]) (by simp [State.syncNext]) (by simp [State.syncNext])

private theorem watching_afterSync (s : State N) (runId : String) (op : Op) (rest : List Op) (outcome : Outcome) :
    Watching (s.afterSync runId op rest outcome) := by
  cases outcome with
  | goesOn phase =>
    cases phase <;> cases op <;>
      exact .of_here (by simp [State.afterSync]) (by simp [State.afterSync]) (by simp [State.afterSync])
  | returned run => exact watching_syncNext s runId rest
  | threw error => exact watching_subscribe s runId

private theorem threw_afterMark (s : State N) (runId : String) (op : Op) (caught : Bool) (outcome : Outcome) :
    Threw (s.afterMark runId op caught outcome) ↔ caught = false ∧ ∃ error, outcome = .threw error := by
  cases outcome with
  | goesOn phase => simp [Threw, State.afterMark]
  | returned run => simp [Threw, State.afterMark]
  | threw error => cases caught <;> simp [Threw, State.afterMark, State.reject]

private theorem watching_afterMark {runId : String} {op : Op} (hop : Marks op) {caught : Bool} {outcome : Outcome}
    (h : ¬ Threw (s.afterMark runId op caught outcome)) : Watching (s.afterMark runId op caught outcome) := by
  cases outcome with
  | goesOn phase =>
    refine ⟨h, fun _ _ _ hhere => absurd hhere (by simp [State.afterMark]), ?_⟩
    intro _ _ _ _ hhere
    obtain ⟨-, rfl, -, -⟩ := At.mark.inj hhere
    exact hop
  | returned run => exact .of_here (by simp [State.afterMark]) (by simp [State.afterMark]) (by simp [State.afterMark])
  | threw error =>
    cases caught with
    | true =>
      exact .of_here (by simp [State.afterMark, State.reject]) (by simp [State.afterMark, State.reject])
        (by simp [State.afterMark, State.reject])
    | false => exact absurd ⟨some error, rfl⟩ h

/-- Only the second read can find something that the operation does not allow. -/
theorem stepOn_threw (env : Env) {op : Op} (hop : Marks op) (s : State N) (runId : String) (phase : Phase) :
    (∃ error, (stepOn env op s.records runId phase).2 = .threw error) ↔ ¬ Meets s runId op phase := by
  have hget : s.findById runId = Table.get runKey s.records runId := rfl
  unfold stepOn Meets
  rw [hget]
  cases hfound : Table.get runKey s.records runId with
  | none => cases phase <;> simp [missing]
  | some r =>
    dsimp only
    have hspec := step_spec env op r phase
    generalize step env op r phase = result at hspec ⊢
    cases hspec with
    | left | checked | wrote | missed | emitted => simp
    | agreed hstatus => simp [hstatus]
    | refused hstatus =>
      rename_i error
      rcases op.caught_cases r.row error with hthrew | ⟨-, htarget⟩
      · simp [hthrew, hstatus]
      · exact absurd htarget hop.target

private theorem watching_consume (h : Watching s) (event : SessionLifecycleEvent) : Watching (s.consume event) := by
  unfold State.consume
  split
  · exact .of_here (by simp) (by simp) (by simp)
  · split
    · exact h
    · split
      · exact h
      · split
        · exact .of_here (by simp) (by simp) (by simp)
        · rename_i op hop
          refine ⟨fun h => absurd h.choose_spec (by simp), ?_, fun _ _ _ _ hhere => absurd hhere (by simp)⟩
          intro _ _ _ hhere
          obtain ⟨-, rfl, -⟩ := At.find.inj hhere
          exact marks_of_eventOp hop

/-- A statement of the loop throws exactly when it does not find what it needs. -/
theorem Watching.statement_iff (h : Watching s) {env : Env} {traceId : String}
    (hsucceeds : Succeeds uuid s (.statement env traceId)) (hnext : s.statement uuid env traceId = some t) :
    (¬ Threw t → Agrees s (.statement env traceId)) ∧ (Agrees s (.statement env traceId) → Watching t) := by
  have hreject : ∀ error, Threw (s.reject false error) := fun error => ⟨error, rfl⟩
  cases hhere : s.here with
  | waiting | threw error | stopped => exact absurd hnext (by simp [State.statement, hhere])
  | lookup session =>
    simp only [State.statement, hhere] at hnext
    refine ⟨fun _ => by simp [Agrees, hhere], fun _ => ?_⟩
    split at hnext
    · split at hnext <;> rw [← Option.some.inj hnext]
      · rename_i op hop
        refine ⟨fun h => absurd h.choose_spec (by simp), ?_, fun _ _ _ _ hhere => absurd hhere (by simp)⟩
        intro _ _ _ hhere
        obtain ⟨-, rfl, -⟩ := At.find.inj hhere
        exact marks_of_reconcileOp hop
      · exact .of_here (by simp) (by simp) (by simp)
    · split at hnext <;> rw [← Option.some.inj hnext] <;> exact .of_here (by simp) (by simp) (by simp)
  | insert session =>
    obtain ⟨id, huuid, hfree⟩ := hsucceeds session hhere
    simp only [State.statement, hhere, huuid, hfree, if_true] at hnext
    refine ⟨fun _ => by simp [Agrees, hhere], fun _ => ?_⟩
    rw [← Option.some.inj hnext]
    exact .of_here (by simp) (by simp) (by simp)
  | readBack session id traceId =>
    simp only [State.statement, hhere] at hnext
    simp only [Agrees, hhere]
    split at hnext <;> rw [← Option.some.inj hnext]
    · rename_i r hfound
      exact ⟨fun _ => ⟨r, hfound⟩, fun _ => .of_here (by simp) (by simp) (by simp)⟩
    · rename_i hnone
      refine ⟨fun hnot => absurd (hreject _) hnot, ?_⟩
      rintro ⟨r, hfound⟩
      exact absurd (hnone.symm.trans hfound) (by simp)
  | announce session record traceId =>
    simp only [State.statement, hhere] at hnext
    simp only [Agrees, hhere]
    split at hnext <;> rw [← Option.some.inj hnext]
    · rename_i r hfound
      exact ⟨fun _ => ⟨r, hfound⟩, fun _ => watching_syncNext _ _ _⟩
    · rename_i hnone
      refine ⟨fun hnot => absurd (hreject _) hnot, ?_⟩
      rintro ⟨r, hfound⟩
      exact absurd (hnone.symm.trans hfound) (by simp)
  | sync runId op rest phase =>
    simp only [State.statement, hhere] at hnext
    rw [← Option.some.inj hnext]
    exact ⟨fun _ => by simp [Agrees, hhere], fun _ => watching_afterSync _ _ _ _ _⟩
  | upsert runId request session rest run =>
    simp only [State.statement, hhere] at hnext
    refine ⟨fun _ => by simp [Agrees, hhere], fun _ => ?_⟩
    split at hnext <;> rw [← Option.some.inj hnext]
    · exact .of_here (by simp) (by simp) (by simp)
    · exact watching_subscribe s runId
  | find sessionId op caught =>
    have hop := h.find _ _ _ hhere
    simp only [State.statement, hhere] at hnext
    refine ⟨fun _ => by simp [Agrees, hhere], fun _ => ?_⟩
    split at hnext
    · rw [← Option.some.inj hnext]
      exact .of_here (by simp) (by simp) (by simp)
    · split at hnext <;> rw [← Option.some.inj hnext]
      · exact .of_here (by simp) (by simp) (by simp)
      · refine ⟨fun h => absurd h.choose_spec (by simp), fun _ _ _ hhere => absurd hhere (by simp), ?_⟩
        intro _ _ _ _ hhere
        obtain ⟨-, rfl, -, -⟩ := At.mark.inj hhere
        exact hop
  | mark runId op phase caught =>
    -- The operation of a handler, with or without a `try` around it.
    have hop := h.mark _ _ _ _ hhere
    simp only [State.statement, hhere] at hnext
    rw [← Option.some.inj hnext]
    have hthrew := threw_afterMark (s.save (stepOn env op s.records runId phase).1) runId op caught
      (stepOn env op s.records runId phase).2
    rw [stepOn_threw env hop] at hthrew
    cases caught with
    | true =>
      refine ⟨fun _ => by simp [Agrees, hhere], fun _ => watching_afterMark hop fun h => ?_⟩
      exact absurd (hthrew.1 h).1 (by simp)
    | false =>
      simp only [Agrees, hhere]
      refine ⟨fun hnot => ?_, fun hmeets => watching_afterMark hop fun h => (hthrew.1 h).2 hmeets⟩
      by_contra hmeets
      exact hnot (hthrew.2 ⟨rfl, hmeets⟩)

private theorem Watching.next_iff (h : Watching s) {a : Action N} (hsucceeds : Succeeds uuid s a)
    (hnext : next uuid s a = some t) : (¬ Threw t → Agrees s a) ∧ (Agrees s a → Watching t) := by
  cases next_spec uuid hnext with
  | event hhere => exact ⟨fun _ => trivial, fun _ => watching_consume h _⟩
  | statement hstep => exact h.statement_iff hsucceeds hstep
  | fail => exact absurd hsucceeds not_false
  | reconnect hhere => exact absurd ⟨_, hhere⟩ h.here
  | destroy | create | transition | append | delete =>
    exact ⟨fun _ => trivial, fun _ => ⟨h.here, h.find, h.mark⟩⟩

/-! ### A handler that nobody disturbs -/

/-- The primary keys are distinct. -/
def Keyed (s : State N) : Prop := (s.records.map runKey).Nodup

theorem step_id (env : Env) (op : Op) (r : Record N) (phase : Phase) : runKey (step env op r phase).1 = runKey r := by
  rcases step_row env op r phase with h | ⟨now, h⟩
  · exact congrArg RunRow.id h
  · exact compareAndSet_id h

private theorem keyed_put (h : Keyed s) {id : String} {r r' : Record N} (hr : s.findById id = some r)
    (hid : runKey r' = runKey r) : Keyed (s.save (Table.put runKey s.records id r')) :=
  Table.nodup_put h (hid.trans (Table.key_of_get hr))

private theorem keyed_stepOn (h : Keyed s) (env : Env) (op : Op) (runId : String) (phase : Phase) :
    Keyed (s.save (stepOn env op s.records runId phase).1) := by
  unfold stepOn
  split
  · rename_i r hr
    exact keyed_put h hr (step_id env op r phase)
  · exact h

private theorem keyed_statement (h : Keyed s) {env : Env} {traceId : String}
    (hnext : s.statement uuid env traceId = some t) : Keyed t := by
  cases hhere : s.here with
  | waiting | threw error | stopped => exact absurd hnext (by simp [State.statement, hhere])
  | lookup session =>
    simp only [State.statement, hhere] at hnext
    split at hnext <;> split at hnext <;> (rw [← Option.some.inj hnext]; exact h)
  | insert session =>
    simp only [State.statement, hhere] at hnext
    split at hnext
    · split at hnext <;> rw [← Option.some.inj hnext]
      · rename_i hfree
        have hnone := (Bool.and_eq_true_iff.1 (Bool.and_eq_true_iff.1 hfree).2).1
        exact Table.nodup_concat h (Option.isNone_iff_eq_none.1 hnone)
      · exact h
    · rw [← Option.some.inj hnext]
      exact h
  | readBack session id traceId =>
    simp only [State.statement, hhere] at hnext
    split at hnext <;> (rw [← Option.some.inj hnext]; exact h)
  | announce session record traceId =>
    simp only [State.statement, hhere] at hnext
    split at hnext <;> rw [← Option.some.inj hnext]
    · rename_i r hr
      rw [Keyed, (GoesOn.syncNext _ _ _).records]
      exact keyed_put h hr rfl
    · exact h
  | sync runId op rest phase =>
    simp only [State.statement, hhere] at hnext
    rw [← Option.some.inj hnext, Keyed, (GoesOn.afterSync _ _ _ _ _).records]
    exact keyed_stepOn h env op runId phase
  | upsert runId request session rest run =>
    simp only [State.statement, hhere] at hnext
    split at hnext <;> (rw [← Option.some.inj hnext]; exact h)
  | find sessionId op caught =>
    simp only [State.statement, hhere] at hnext
    split at hnext
    · rw [← Option.some.inj hnext]
      exact h
    · split at hnext <;> (rw [← Option.some.inj hnext]; exact h)
  | mark runId op phase caught =>
    simp only [State.statement, hhere] at hnext
    rw [← Option.some.inj hnext, Keyed, (GoesOn.afterMark _ _ _ _ _).records]
    exact keyed_stepOn h env op runId phase

theorem fails_records (hnext : s.fails = some t) : t.records = s.records := by
  cases hhere : s.here with
  | waiting | threw error | stopped => exact absurd hnext (by simp [State.fails, hhere])
  | lookup session =>
    simp only [State.fails, hhere] at hnext
    split at hnext <;> rw [← Option.some.inj hnext]
    rfl
  | insert | readBack | announce | sync | upsert | find | mark =>
    simp only [State.fails, hhere] at hnext
    rw [← Option.some.inj hnext]
    rfl

private theorem consume_records (s : State N) (event : SessionLifecycleEvent) :
    (s.consume event).records = s.records := by
  unfold State.consume
  split
  · rfl
  · split
    · rfl
    · split
      · rfl
      · split <;> rfl

private theorem keyed_next (h : Keyed s) {a : Action N} (hnext : next uuid s a = some t) : Keyed t := by
  cases next_spec uuid hnext with
  | event hhere =>
    rw [Keyed, consume_records]
    exact h
  | statement hstep => exact keyed_statement h hstep
  | fail hstep =>
    rw [Keyed, fails_records hstep]
    exact h
  | reconnect | destroy => exact h
  | create hfree => exact Table.nodup_concat h hfree
  | transition hfound hmoved => exact keyed_put h hfound (compareAndSet_id hmoved)
  | append hfound => exact keyed_put h hfound rfl
  | delete => exact Table.nodup_remove h

/-- The operation throws in this status, when nobody else changes it. -/
def refuses (op : Op) (status : RunStatus) : Prop := op.leaves status = false ∧ op.target ∉ validTransitions status

/-- What an undisturbed operation on the run has found so far. -/
def Reaches (s : State N) (r : Record N) (op : Op) : Phase → Prop
  | .check => s.findById r.row.id = some r
  | .update => s.findById r.row.id = some r ∧ op.leaves r.row.status = false
  | .reread => s.findById r.row.id = some r ∧ refuses op r.row.status
  | .emit _ => ∃ r', s.findById r.row.id = some r'

/-- Where the undisturbed handler of an event is, that is about run `r` and makes the operation `op`. -/
def Handling (r : Record N) (op? : Option Op) (s : State N) : Prop :=
  match s.here with
  | .waiting => True
  | .lookup session => s.findBySessionId session.sessionId = some r
  | .find sessionId op caught =>
    caught = true ∨ op? = some op ∧ s.findBySessionId sessionId = some r ∧ s.findById r.row.id = some r
  | .mark runId op phase caught => caught = true ∨ op? = some op ∧ runId = r.row.id ∧ Reaches s r op phase
  | .threw _ => ∃ op, op? = some op ∧ refuses op r.row.status
  | _ => False

/-- A statement of an undisturbed operation, on the run. -/
theorem handling_step {r : Record N} {op : Op} (hop : Marks op) (env : Env) {phase : Phase}
    (hreaches : Reaches s r op phase) (hfound : s.findById r.row.id = some r) :
    Handling r (some op) ((s.save (stepOn env op s.records r.row.id phase).1).afterMark r.row.id op false
      (stepOn env op s.records r.row.id phase).2) := by
  rw [stepOn_of_found hfound]
  have hput : Table.get runKey (Table.put runKey s.records r.row.id (step env op r phase).1) r.row.id =
      some (step env op r phase).1 := Table.get_put_self hfound (step_id env op r phase)
  have hspec := step_spec env op r phase
  generalize step env op r phase = result at hspec hput ⊢
  cases hspec with
  | left hleaves => trivial
  | checked hleaves => exact Or.inr ⟨rfl, rfl, hput, hleaves⟩
  | wrote hrow => exact Or.inr ⟨rfl, rfl, _, hput⟩
  | missed hmissed => exact Or.inr ⟨rfl, rfl, hput, hreaches.2, hmissed⟩
  | agreed hstatus => exact Or.inr ⟨rfl, rfl, _, hput⟩
  | refused hstatus =>
    rename_i error
    rcases op.caught_cases r.row error with hthrew | ⟨-, htarget⟩
    · rw [hthrew]
      exact ⟨op, rfl, hreaches.2⟩
    · exact absurd htarget hop.target
  | emitted run => trivial

private theorem handling_caught (r : Record N) (op? : Option Op) (s : State N) (runId : String) (op : Op)
    (outcome : Outcome) : Handling r op? (s.afterMark runId op true outcome) := by
  cases outcome with
  | goesOn phase => exact Or.inl rfl
  | returned run => trivial
  | threw error => trivial

private theorem handling_statement {r : Record N} {op? : Option Op} (hop : ∀ op, op? = some op → Marks op)
    (h : Handling r op? s) {env : Env} {traceId : String} (hnext : s.statement uuid env traceId = some t) :
    Handling r op? t := by
  unfold Handling at h
  cases hhere : s.here with
  | waiting | threw error | stopped => exact absurd hnext (by simp [State.statement, hhere])
  | insert | readBack | announce | sync | upsert => simp only [hhere] at h
  | lookup session =>
    simp only [hhere] at h
    simp only [State.statement, hhere, h] at hnext
    split at hnext <;> rw [← Option.some.inj hnext]
    · exact Or.inl rfl
    · trivial
  | find sessionId op caught =>
    simp only [hhere] at h
    simp only [State.statement, hhere] at hnext
    split at hnext
    · rw [← Option.some.inj hnext]
      trivial
    · rename_i found hfound
      split at hnext <;> rw [← Option.some.inj hnext]
      · trivial
      · rcases h with hcaught | ⟨hop?, hsession, hid⟩
        · exact Or.inl hcaught
        · obtain rfl : r = found := Option.some.inj (hsession.symm.trans hfound)
          refine Or.inr ⟨hop?, rfl, ?_⟩
          rw [(hop op hop?).first]
          exact hid
  | mark runId op phase caught =>
    simp only [hhere] at h
    simp only [State.statement, hhere] at hnext
    rw [← Option.some.inj hnext]
    cases caught with
    | true => exact handling_caught r op? _ runId op _
    | false =>
      obtain ⟨rfl, rfl, hreaches⟩ := h.resolve_left (by simp)
      cases phase with
      | check => exact handling_step (hop op rfl) env hreaches hreaches
      | update => exact handling_step (hop op rfl) env hreaches hreaches.1
      | reread => exact handling_step (hop op rfl) env hreaches hreaches.1
      | emit run =>
        obtain ⟨r', hr'⟩ := hreaches
        rw [stepOn_of_found hr']
        trivial

private theorem handling_exec {r : Record N} {op? : Option Op} (hop : ∀ op, op? = some op → Marks op)
    {as : List (Action N)}
    (has : ∀ a ∈ as, IsStatement a) (h : Handling r op? s) (hexec : (machine uuid).exec s as = some t) :
    Handling r op? t := by
  induction as generalizing s with
  | nil => exact Option.some.inj hexec ▸ h
  | cons a as ih =>
    obtain ⟨u, hu, hrest⟩ := Machine.exec_cons_eq_some.1 hexec
    obtain ⟨env, traceId, rfl⟩ := has a List.mem_cons_self
    exact ih (fun b hb => has b (List.mem_cons_of_mem _ hb)) (handling_statement hop h hu) hrest

/-- The run has a status that the event's operation does not allow. -/
def Disagrees (eventType : SessionLifecycleEventType) (status : RunStatus) : Prop :=
  (eventType = .resolved ∨ eventType = .suspended) ∧
    (status = .queued ∨ status = .starting ∨ status = .bindingSession)

private theorem disagrees_iff {eventType : SessionLifecycleEventType} {status : RunStatus} :
    Disagrees eventType status ↔ ∃ op, eventOp eventType = some op ∧ refuses op status := by
  cases eventType <;> cases status <;>
    simp [Disagrees, refuses, eventOp, Op.leaves, Op.target, validTransitions, RunStatus.terminal]

/-- An operation that the status does not allow throws at its third statement. -/
theorem threw_of_refuses {r : Record N} {op : Op} (hop : Marks op) (hrefuses : refuses op r.row.status)
    (hhere : s.here = .mark r.row.id op .check false) (hfound : s.findById r.row.id = some r) (env : Env)
    (traceId : String) :
    ∃ u, (machine uuid).exec s (List.replicate 3 (.statement env traceId)) = some u ∧ Threw u := by
  have hstatement : ∀ {u : State N} {phase : Phase} {outcome : Outcome}, u.here = .mark r.row.id op phase false →
      u.findById r.row.id = some r → step env op r phase = (r, outcome) →
      (machine uuid).next u (.statement env traceId) =
        some ((u.save (Table.put runKey u.records r.row.id r)).afterMark r.row.id op false outcome) := by
    intro u phase outcome huhere hufound hstep
    show u.statement uuid env traceId = _
    simp only [State.statement, huhere, stepOn_of_found hufound, hstep]
  have hput : ∀ {u : State N} (outcome : Outcome), u.findById r.row.id = some r →
      ((u.save (Table.put runKey u.records r.row.id r)).afterMark r.row.id op false outcome).findById r.row.id =
        some r := by
    intro u outcome hufound
    rw [State.findById, (GoesOn.afterMark _ _ _ _ _).records]
    exact Table.get_put_self hufound rfl
  have hcheck : step env op r .check = (r, .goesOn .update) := by rw [step, hrefuses.1]; rfl
  have hupdate : step env op r .update = (r, .goesOn .reread) := by
    have hnone : compareAndSet (op.transition env.now) env.now r.row = none := by
      rw [compareAndSet_eq_none, op.transition_target]
      exact hrefuses.2
    rw [step, hnone]
  obtain ⟨error, hreread⟩ : ∃ error, step env op r .reread = (r, .threw error) := by
    have hne : r.row.status ≠ op.target := fun hstatus => by
      have hleft := hop.leaves
      rw [← hstatus, hrefuses.1] at hleft
      exact Bool.false_ne_true hleft
    obtain ⟨error, herror⟩ := (afterMiss_cases r.row.id op.target r.row).resolve_left fun h => hne h.2
    rcases op.caught_cases r.row error with hthrew | ⟨-, htarget⟩
    · exact ⟨error, by simp only [step, herror, hthrew]⟩
    · exact absurd htarget hop.target
  refine ⟨_, Machine.exec_cons_eq_some.2 ⟨_, hstatement hhere hfound hcheck, Machine.exec_cons_eq_some.2 ⟨_,
    hstatement rfl (hput _ hfound) hupdate, Machine.exec_cons_eq_some.2 ⟨_,
      hstatement rfl (hput _ (hput _ hfound)) hreread, rfl⟩⟩⟩, ?_⟩
  exact (threw_afterMark _ _ _ _ _).2 ⟨rfl, error, rfl⟩

/-- The handler of an event for a session with a run, when nobody else writes meanwhile, throws exactly when the status
of the run does not allow the event's operation. -/
theorem threw_iff_disagrees (hkeyed : Keyed s) (hhere : s.here = .waiting) (haborted : s.aborted = false)
    {session : RuntimeSessionSnapshot} (hne : session.sessionId ≠ "") {r : Record N}
    (hfound : s.findBySessionId session.sessionId = some r) (eventType : SessionLifecycleEventType) :
    (∃ as u, (∀ a ∈ as, IsStatement a) ∧
        (machine uuid).exec s (.event ⟨eventType, some session⟩ :: as) = some u ∧ Threw u) ↔
      Disagrees eventType r.row.status := by
  have hid : s.findById r.row.id = some r := Table.get_eq_some_of_mem hkeyed (Table.mem_of_get hfound)
  have hevent : (machine uuid).next s (.event ⟨eventType, some session⟩) =
      some (s.consume ⟨eventType, some session⟩) := by
    simp only [machine, next, hhere]
  have hlookup : eventOp eventType = none →
      s.consume ⟨eventType, some session⟩ = { s with here := .lookup session } := by
    intro hop
    simp [State.consume, haborted, hne, hop]
  have hfind : ∀ op, eventOp eventType = some op →
      s.consume ⟨eventType, some session⟩ = { s with here := .find session.sessionId op false } := by
    intro op hop
    simp [State.consume, haborted, hne, hop]
  rw [disagrees_iff]
  constructor
  · rintro ⟨as, u, has, hexec, error, hthrew⟩
    obtain ⟨v, hv, hrest⟩ := Machine.exec_cons_eq_some.1 hexec
    obtain rfl := Option.some.inj (hevent.symm.trans hv)
    have hstart : Handling r (eventOp eventType) (s.consume ⟨eventType, some session⟩) := by
      cases hop : eventOp eventType with
      | none =>
        rw [hlookup hop]
        exact hfound
      | some op =>
        rw [hfind op hop]
        exact Or.inr ⟨rfl, hfound, hid⟩
    have hend := handling_exec (fun op hop => marks_of_eventOp hop) has hstart hrest
    unfold Handling at hend
    rw [hthrew] at hend
    exact hend
  · rintro ⟨op, hop, hrefuses⟩
    have hmarks := marks_of_eventOp hop
    have hterminal : r.row.status.terminal = false := by
      rw [Bool.eq_false_iff]
      intro hterminal
      obtain ⟨-, hstatus⟩ := disagrees_iff.2 ⟨op, hop, hrefuses⟩
      rcases hstatus with h | h | h <;> rw [h] at hterminal <;> exact absurd hterminal (by decide)
    have env : Env := ⟨"", fun _ => "", none⟩
    have hstatement : (machine uuid).next { s with here := .find session.sessionId op false } (.statement env "") =
        some { s with here := .mark r.row.id op .check false } := by
      have hfound' : State.findBySessionId { s with here := .find session.sessionId op false } session.sessionId =
          some r := hfound
      simp only [machine, next, State.statement, hfound', hterminal, Bool.false_eq_true, if_false, hmarks.first]
    have hid' : State.findById { s with here := .mark r.row.id op .check false } r.row.id = some r := hid
    obtain ⟨u, hu, hthrew⟩ : ∃ u, (machine uuid).exec { s with here := .mark r.row.id op .check false }
        (List.replicate 3 (.statement env "")) = some u ∧ Threw u :=
      threw_of_refuses hmarks hrefuses rfl hid' env ""
    refine ⟨List.replicate 4 (.statement env ""), u, fun a ha => ⟨env, "", List.eq_of_mem_replicate ha⟩, ?_, hthrew⟩
    refine Machine.exec_cons_eq_some.2 ⟨_, hevent, ?_⟩
    rw [hfind op hop]
    exact Machine.exec_cons_eq_some.2 ⟨_, hstatement, hu⟩

/-- While the statements of the database succeed: the watch is never ended by a handler exactly when every statement of
an operation finds what it needs.  Undisturbed, a handler throws for a run that is queued, starting or binding its
session, on an event that resolves or suspends the session, and for no other. -/
theorem watch_survives_iff {as : List (Action N)} (hs : (machine uuid).start s)
    (h : (machine uuid).exec s as = some t) (hsucceeds : (machine uuid).Throughout (Succeeds uuid) s as) :
    ((∀ bs u, bs <+: as → (machine uuid).exec s bs = some u → ¬ Threw u) ↔ (machine uuid).Throughout Agrees s as) ∧
      (t.here = .waiting → t.aborted = false →
        ∀ (session : RuntimeSessionSnapshot) (r : Record N), session.sessionId ≠ "" →
          t.findBySessionId session.sessionId = some r → ∀ eventType,
            ((∃ bs u, (∀ a ∈ bs, IsStatement a) ∧
                (machine uuid).exec t (.event ⟨eventType, some session⟩ :: bs) = some u ∧ Threw u) ↔
              Disagrees eventType r.row.status)) := by
  have hstart : Watching s ∧ Keyed s := by
    obtain ⟨records, runtimeSessions, hnodup, rfl⟩ := hs
    exact ⟨.of_here (by simp) (by simp) (by simp), hnodup⟩
  constructor
  · refine hsucceeds.iff_of_step (fun _ hwatching => hwatching.here) ?_ hstart.1 h
    exact fun s a t hwatching hP hnext => hwatching.next_iff hP hnext
  · intro hhere haborted session r hne hfound eventType
    have hkeyed : Keyed t :=
      Machine.exec_invariant (I := Keyed) (fun _ _ _ hkeyed hnext => keyed_next hkeyed hnext) hstart.2 h
    exact threw_iff_disagrees hkeyed hhere haborted hne hfound eventType

end Watch

/-- Tables with one run, of session "session". -/
def tracked (status : RunStatus) : State (Option Rat) where
  records := [{ row := { id := "run", status, runtimeSessionId := some "session" } }]
  bound := ["session"]

theorem start_tracked (status : RunStatus) : (machine some).start (tracked status) :=
  ⟨(tracked status).records, [], List.nodup_singleton _, rfl⟩

/-- The session of a running run is resolved. -/
theorem watch_survives_completed :
    let as := [.event ⟨.resolved, some (opened "session")⟩, statement, statement, statement, statement]
    ∃ t, (machine some).exec (tracked .running) as = some t ∧ t.records.map (·.row.status) = [.completed] ∧
      ∀ bs u, bs <+: as → (machine some).exec (tracked .running) bs = some u → ¬ Threw u := by
  intro as
  obtain ⟨t, ht, hstatus⟩ : ∃ t, (machine some).exec (tracked .running) as = some t ∧
      t.records.map (·.row.status) = [.completed] := ⟨_, rfl, rfl⟩
  have hsucceeds : (machine some).Throughout (Succeeds some) (tracked .running) as := by
    refine .cons trivial rfl (.cons ?_ rfl (.cons ?_ rfl (.cons ?_ rfl (.cons ?_ rfl trivial)))) <;>
      exact fun session hhere => At.noConfusion hhere
  refine ⟨t, ht, hstatus, (watch_survives_iff (start_tracked .running) ht hsucceeds).1.2 ?_⟩
  refine .cons trivial rfl (.cons trivial rfl (.cons ?_ rfl (.cons trivial rfl (.cons ?_ rfl trivial))))
  · exact ⟨_, rfl⟩
  · exact ⟨_, rfl⟩

/-- The session of a run that is starting is resolved: `markCompleted` refuses, and the watch is over. -/
theorem watch_survives_starting :
    ¬ ∀ (as : List (Action (Option Rat))) (t : State (Option Rat)),
      (machine some).exec (tracked .starting) as = some t →
        (machine some).Throughout (Succeeds some) (tracked .starting) as → ¬ Threw t := by
  intro h
  let as := [.event ⟨.resolved, some (opened "session")⟩, statement, statement, statement, statement]
  obtain ⟨t, ht, hthrew⟩ : ∃ t, (machine some).exec (tracked .starting) as = some t ∧ Threw t := ⟨_, rfl, _, rfl⟩
  have hsucceeds : (machine some).Throughout (Succeeds some) (tracked .starting) as := by
    refine .cons trivial rfl (.cons ?_ rfl (.cons ?_ rfl (.cons ?_ rfl (.cons ?_ rfl trivial)))) <;>
      exact fun session hhere => At.noConfusion hhere
  exact h as t ht hsucceeds hthrew

end MacpControlPlane.SessionDiscovery

import MacpControlPlane.Runs.SuspendResume

/-!
# A run that follows its session (`runs/session-discovery.service.ts`, `runs/run-executor.service.ts`)

What the discovery loop makes of one session, whatever else it handles: the row of the run is written by the handlers of
its events and snapshots, and by others.  The last event that is ahead has the state of the session, and where none is
ahead, what the loop has in hand leads to it, or the run shows it already (`Track`).  Every step keeps that but for the
marks that come late, and a new watch brings it about for a session that has not been swept (`status_follows_iff`).
-/

namespace MacpControlPlane.SuspendResume

open RunManager Lifecycle
open SessionDiscovery (At SessionLifecycleEvent SessionLifecycleEventType runKey sessionKey stepOn eventOp reconcileOp
  Threw)

variable {N : Type}

/-! ### The discovery loop -/

section Loop

variable {runId sessionId : String} {uuid : String → Option String} {d d' : SessionDiscovery.State N}

/-- The operations bind no run to the session. -/
def Unbinding (sessionId : String) (ops : List Op) : Prop :=
  ∀ op ∈ ops, ∀ now, (op.transition now).patch.runtimeSessionId ≠ some sessionId

/-- A run that the loop creates is another one, and the operations of its handlers are what they are. -/
def Apart (runId sessionId : String) : At → Prop
  | .insert session => session.sessionId ≠ sessionId
  | .readBack session id _ => session.sessionId ≠ sessionId ∧ id ≠ runId
  | .announce session record _ => session.sessionId ≠ sessionId ∧ record.id ≠ runId
  | .sync id op rest _ => id ≠ runId ∧ Unbinding sessionId (op :: rest)
  | .upsert id request session rest _ => id ≠ runId ∧ Unbinding sessionId (.bindSession request session :: rest)
  | .find _ op _ | .mark _ op _ _ => Marking op
  | _ => True

/-- What the loop has in hand leads to what the session is. -/
def Right (state : String) : At → Prop
  | .lookup session => session.state = state
  | .find _ op _ | .mark _ op _ _ => Shows op.target state
  | _ => True

/-- The run shows the state of the session, or will when the loop has written it. -/
structure Heading (runId sessionId : String) (d : SessionDiscovery.State N) (state : String) : Prop where
  coming : OnTheWay runId sessionId d.here → Right state d.here
  here : ¬ OnTheWay runId sessionId d.here → ∃ r, d.findById runId = some r ∧ Shows r.row.status state

/-- The tables and the loop, as far as the run is concerned. -/
structure Loop (runId sessionId : String) (d : SessionDiscovery.State N) : Prop where
  holds : Holds runId sessionId d.records
  apart : Apart runId sessionId d.here

/-- Where the run was to show the state of the session, it still is, while the watch goes on. -/
def Keeps (runId sessionId : String) (d d' : SessionDiscovery.State N) : Prop :=
  ∀ eventType, Heading runId sessionId d (stateAfter eventType) → ¬ Threw d' →
    Heading runId sessionId d' (stateAfter eventType)

/-- A step of the loop, or of another caller, as far as the run is concerned. -/
structure Goes (runId sessionId : String) (d d' : SessionDiscovery.State N) : Prop where
  loop : Loop runId sessionId d'
  keeps : Keeps runId sessionId d d'

/-- The loop is at something else, before and afterwards. -/
theorem Keeps.elsewhere (hnot : ¬ OnTheWay runId sessionId d.here) (hnot' : ¬ OnTheWay runId sessionId d'.here)
    (hrow : d'.findById runId = d.findById runId) : Keeps runId sessionId d d' := by
  intro eventType h _
  refine ⟨fun hon => absurd hon hnot', fun _ => ?_⟩
  rw [hrow]
  exact h.here hnot

private theorem Keeps.of_threw (h : Threw d') : Keeps runId sessionId d d' := fun _ _ hnot => absurd h hnot

/-- The loop has read the run, and there is nothing to write. -/
theorem Keeps.settled {r : Record N} (hon : OnTheWay runId sessionId d.here)
    (hnot' : ¬ OnTheWay runId sessionId d'.here) (hrow : d'.findById runId = some r)
    (hshows : ∀ eventType, Right (stateAfter eventType) d.here → Shows r.row.status (stateAfter eventType)) :
    Keeps runId sessionId d d' :=
  fun eventType h _ => ⟨fun hon' => absurd hon' hnot', fun _ => ⟨r, hrow, hshows eventType (h.coming hon)⟩⟩

/-- The loop has still to write the run. -/
theorem Keeps.onTheWay (hon : OnTheWay runId sessionId d.here) (hon' : OnTheWay runId sessionId d'.here)
    (hright : ∀ eventType, Right (stateAfter eventType) d.here → Right (stateAfter eventType) d'.here) :
    Keeps runId sessionId d d' :=
  fun eventType h _ => ⟨fun _ => hright eventType (h.coming hon), fun hnot => absurd hon' hnot⟩

private theorem apart_afterMark (d : SessionDiscovery.State N) (id : String) {op : Op} (hop : Marking op)
    (caught : Bool) (outcome : Outcome) : Apart runId sessionId (d.afterMark id op caught outcome).here := by
  cases outcome with
  | goesOn phase => exact hop
  | returned run => trivial
  | threw error => cases caught <;> trivial

/-- An operation of a handler, on any run. -/
theorem Loop.mark (h : Loop runId sessionId d) {id : String} {op : Op} {phase : Phase} {caught : Bool}
    (hhere : d.here = .mark id op phase caught) (env : Env) :
    Goes runId sessionId d ((d.save (stepOn env op d.records id phase).1).afterMark id op caught
      (stepOn env op d.records id phase).2) := by
  have hop : Marking op := by simpa [Apart, hhere] using h.apart
  have hrecords : ∀ outcome, ((d.save (stepOn env op d.records id phase).1).afterMark id op caught outcome).records =
      (stepOn env op d.records id phase).1 := fun outcome => (SessionDiscovery.GoesOn.afterMark _ _ _ _ _).records
  have hholds : Holds runId sessionId (stepOn env op d.records id phase).1 :=
    h.holds.stepOn env op phase fun other hpatch => absurd ((hop.patch env.now).symm.trans hpatch) (by simp)
  refine ⟨⟨(hrecords _).symm ▸ hholds, apart_afterMark _ _ hop _ _⟩, ?_⟩
  by_cases hid : id = runId
  · subst hid
    obtain ⟨r, hr, -, hdriven⟩ := h.holds.found
    have hfound : d.findById id = some r := hr
    have hget : ∀ outcome, ((d.save (stepOn env op d.records id phase).1).afterMark id op caught outcome).findById id =
        some (step env op r phase).1 := by
      intro outcome
      rw [SessionDiscovery.State.findById, hrecords, SessionDiscovery.stepOn_of_found hfound]
      exact Table.get_put_self hr ((SessionDiscovery.step_id env op r phase).trans (Table.key_of_get hr))
    rw [SessionDiscovery.stepOn_of_found hfound] at hget ⊢
    have hspec := step_spec env op r phase
    generalize step env op r phase = result at hspec hget ⊢
    cases hspec with
    | left hleaves =>
      refine .settled ?_ (fun h => h) (hget _) fun eventType hright => ?_
      · simp [hhere, OnTheWay]
      · rw [hhere] at hright
        exact Shows.of_settled hright (hop.of_leaves hdriven hleaves)
    | checked hleaves =>
      refine .onTheWay ?_ rfl fun eventType hright => ?_
      · simp [hhere, OnTheWay]
      · rw [hhere] at hright
        exact hright
    | wrote hmoved =>
      refine .settled ?_ (fun h => h) (hget _) fun eventType hright => ?_
      · simp [hhere, OnTheWay]
      · rw [hhere] at hright
        have hstatus := (compareAndSet_status hmoved).trans (op.transition_target env.now)
        exact Shows.of_settled hright (Or.inr hstatus)
    | missed hmissed =>
      refine .settled ?_ (fun h => h) (hget _) fun eventType hright => ?_
      · simp [hhere, OnTheWay]
      · rw [hhere] at hright
        exact Shows.of_settled hright (hop.of_missed hdriven hmissed)
    | agreed hstatus =>
      refine .elsewhere ?_ (fun h => h) ((hget _).trans hfound.symm)
      simp [hhere, OnTheWay]
    | refused hstatus =>
      rename_i error
      rcases op.caught_cases r.row error with hthrew | ⟨-, htarget⟩
      · rw [hthrew] at hget ⊢
        cases caught with
        | true =>
          refine .elsewhere ?_ (fun h => h) ((hget _).trans hfound.symm)
          simp [hhere, OnTheWay]
        | false => exact .of_threw ⟨_, rfl⟩
      · exact absurd htarget hop.target_ne
    | emitted run =>
      have hnot : ¬ OnTheWay id sessionId d.here := by simp [hhere, OnTheWay]
      intro eventType hheading _
      obtain ⟨found, hfound', hshows⟩ := hheading.here hnot
      obtain rfl : r = found := Option.some.inj (hfound.symm.trans hfound')
      exact ⟨fun hon => absurd hon (fun h => h), fun _ => ⟨_, hget _, hshows⟩⟩
  · refine .elsewhere ?_ ?_ ?_
    · cases phase <;> simp [hhere, OnTheWay, hid]
    · cases stepOn env op d.records id phase with
      | mk records outcome =>
        cases outcome with
        | goesOn phase => cases phase <;> simp [SessionDiscovery.State.afterMark, OnTheWay, hid]
        | returned run => exact fun h => h
        | threw error => cases caught <;> exact fun h => h
    · rw [SessionDiscovery.State.findById, hrecords]
      exact get_stepOn_of_ne env op phase hid

private theorem unbinding_syncOps {session : RuntimeSessionSnapshot} (hne : session.sessionId ≠ sessionId) :
    Unbinding sessionId (SessionDiscovery.syncOps session) := by
  intro op hop now hpatch
  simp only [SessionDiscovery.syncOps, List.mem_cons, List.not_mem_nil, or_false] at hop
  rcases hop with rfl | rfl | rfl
  · exact absurd hpatch (by simp [Op.transition, RunRepository.markStarted])
  · exact hne (Option.some.inj hpatch)
  · exact hne (Option.some.inj hpatch)

/-- The loop goes on with the operations of a new run. -/
theorem apart_syncNext (d : SessionDiscovery.State N) {id : String} (hne : id ≠ runId) {ops : List Op}
    (hops : Unbinding sessionId ops) :
    Apart runId sessionId (d.syncNext id ops).here ∧ ¬ OnTheWay runId sessionId (d.syncNext id ops).here := by
  cases ops with
  | nil => exact ⟨trivial, fun h => h⟩
  | cons op rest => exact ⟨⟨hne, hops⟩, fun h => h⟩

private theorem apart_afterSync (d : SessionDiscovery.State N) {id : String} (hne : id ≠ runId) {op : Op}
    {rest : List Op} (hops : Unbinding sessionId (op :: rest)) (outcome : Outcome) :
    Apart runId sessionId (d.afterSync id op rest outcome).here ∧
      ¬ OnTheWay runId sessionId (d.afterSync id op rest outcome).here := by
  cases outcome with
  | goesOn phase => cases phase <;> cases op <;> exact ⟨⟨hne, hops⟩, fun h => h⟩
  | returned run => exact apart_syncNext d hne fun op hop => hops op (List.mem_cons_of_mem _ hop)
  | threw error => exact ⟨trivial, fun h => h⟩

/-- Another row is written, and the loop goes on with another run. -/
theorem Goes.elsewhere (hnot : ¬ OnTheWay runId sessionId d.here)
    (hholds : Holds runId sessionId d'.records) (hapart : Apart runId sessionId d'.here)
    (hnot' : ¬ OnTheWay runId sessionId d'.here)
    (hrow : Table.get runKey d'.records runId = Table.get runKey d.records runId) :
    Goes runId sessionId d d' :=
  ⟨⟨hholds, hapart⟩, .elsewhere hnot hnot' hrow⟩

/-- The lookup of the handler of a created event. -/
theorem Loop.lookup (h : Loop runId sessionId d) {session : RuntimeSessionSnapshot} (hhere : d.here = .lookup session)
    {env : Env} {traceId : String} (hnext : d.statement uuid env traceId = some d') :
    Goes runId sessionId d d' := by
  obtain ⟨r, hbySession, hr⟩ := h.holds.bySession
  obtain ⟨found, hfound, -, hdriven⟩ := h.holds.found
  obtain rfl : r = found := Option.some.inj (hr.symm.trans hfound)
  simp only [SessionDiscovery.State.statement, hhere] at hnext
  by_cases hsession : session.sessionId = sessionId
  · subst hsession
    have hon : OnTheWay runId session.sessionId d.here := by simp [hhere, OnTheWay]
    have hbySession' : d.findBySessionId session.sessionId = some r := hbySession
    simp only [hbySession'] at hnext
    split at hnext <;> rw [← Option.some.inj hnext]
    · rename_i op hop
      refine ⟨⟨h.holds, marking_of_reconcileOp hop⟩, .onTheWay hon rfl fun eventType hright => ?_⟩
      rw [hhere] at hright
      rw [show session.state = stateAfter eventType from hright] at hop
      exact (shows_of_reconcileOp hdriven eventType).1 op hop
    · rename_i hop
      refine ⟨⟨h.holds, trivial⟩, .settled hon (fun h => h) hr fun eventType hright => ?_⟩
      rw [hhere] at hright
      rw [show session.state = stateAfter eventType from hright] at hop
      exact (shows_of_reconcileOp hdriven eventType).2 hop
  · have hnot : ¬ OnTheWay runId sessionId d.here := by simpa [hhere, OnTheWay] using hsession
    split at hnext
    · split at hnext <;> rw [← Option.some.inj hnext]
      · rename_i op hop
        exact .elsewhere hnot h.holds (marking_of_reconcileOp hop) hsession rfl
      · exact .elsewhere hnot h.holds trivial (fun h => h) rfl
    · split at hnext <;> rw [← Option.some.inj hnext]
      · exact .elsewhere hnot h.holds trivial (fun h => h) rfl
      · exact .elsewhere hnot h.holds hsession (fun h => h) rfl

/-- The lookup of the handlers of the other events, and of a reconciliation. -/
theorem Loop.find (h : Loop runId sessionId d) {other : String} {op : Op} {caught : Bool}
    (hhere : d.here = .find other op caught) {env : Env} {traceId : String}
    (hnext : d.statement uuid env traceId = some d') : Goes runId sessionId d d' := by
  have hop : Marking op := by simpa [Apart, hhere] using h.apart
  obtain ⟨r, hbySession, hr⟩ := h.holds.bySession
  have hkey : runKey r = runId := Table.key_of_get hr
  simp only [SessionDiscovery.State.statement, hhere] at hnext
  by_cases hsession : other = sessionId
  · subst hsession
    have hon : OnTheWay runId other d.here := by simp [hhere, OnTheWay]
    have hbySession' : d.findBySessionId other = some r := hbySession
    simp only [hbySession'] at hnext
    split at hnext <;> rw [← Option.some.inj hnext]
    · rename_i hterminal
      exact ⟨⟨h.holds, trivial⟩, .settled hon (fun h => h) hr fun _ _ => Or.inl hterminal⟩
    · refine ⟨⟨h.holds, hop⟩, .onTheWay hon ?_ fun eventType hright => ?_⟩
      · rw [hop.first]
        exact hkey
      · rw [hhere] at hright
        exact hright
  · have hnot : ¬ OnTheWay runId sessionId d.here := by simpa [hhere, OnTheWay] using hsession
    split at hnext
    · rw [← Option.some.inj hnext]
      exact .elsewhere hnot h.holds trivial (fun h => h) rfl
    · rename_i found hfound
      split at hnext <;> rw [← Option.some.inj hnext]
      · exact .elsewhere hnot h.holds trivial (fun h => h) rfl
      · refine .elsewhere hnot h.holds hop ?_ rfl
        rw [hop.first]
        -- The run is bound to one session only.
        intro hid
        have hmem := Table.mem_of_get hfound
        have hget : Table.get runKey d.records (runKey found) = some found :=
          Table.get_eq_some_of_mem h.holds.keyed hmem
        have hother : sessionKey found = some other := Table.key_of_get hfound
        have hours := (h.holds.session_iff hget).2 hid
        exact hsession (Option.some.inj (hother.symm.trans hours))

private theorem Loop.statement (h : Loop runId sessionId d) {env : Env} {traceId : String}
    (hnext : d.statement uuid env traceId = some d') : Goes runId sessionId d d' := by
  have hfound := h.holds.found
  cases hhere : d.here with
  | waiting | threw error | stopped => exact absurd hnext (by simp [SessionDiscovery.State.statement, hhere])
  | lookup session => exact h.lookup hhere hnext
  | find other op caught => exact h.find hhere hnext
  | mark id op phase caught =>
    simp only [SessionDiscovery.State.statement, hhere] at hnext
    rw [← Option.some.inj hnext]
    exact h.mark hhere env
  | insert session =>
    have hne : session.sessionId ≠ sessionId := by simpa [Apart, hhere] using h.apart
    have hnot : ¬ OnTheWay runId sessionId d.here := by simp [hhere, OnTheWay]
    simp only [SessionDiscovery.State.statement, hhere] at hnext
    split at hnext
    · rename_i id huuid
      split at hnext <;> rw [← Option.some.inj hnext]
      · rename_i hfree
        have hnone : Table.get runKey d.records id = none :=
          Option.isNone_iff_eq_none.1 (Bool.and_eq_true_iff.1 (Bool.and_eq_true_iff.1 hfree).2).1
        have hid : id ≠ runId := by
          rintro rfl
          obtain ⟨r, hr, -⟩ := hfound
          exact absurd (hnone.symm.trans hr) (by simp)
        refine .elsewhere hnot (h.holds.concat hnone ?_) ⟨hne, hid⟩ (fun h => h) (Table.get_concat_of_ne hid)
        simpa [createdRow] using hne
      · exact ⟨⟨h.holds, trivial⟩, .of_threw ⟨_, rfl⟩⟩
    · rw [← Option.some.inj hnext]
      exact ⟨⟨h.holds, trivial⟩, .of_threw ⟨_, rfl⟩⟩
  | readBack session id traceId =>
    have hapart : session.sessionId ≠ sessionId ∧ id ≠ runId := by simpa [Apart, hhere] using h.apart
    have hnot : ¬ OnTheWay runId sessionId d.here := by simp [hhere, OnTheWay]
    simp only [SessionDiscovery.State.statement, hhere] at hnext
    split at hnext <;> rw [← Option.some.inj hnext]
    · rename_i r hr
      have hkey : runKey r = id := Table.key_of_get hr
      exact .elsewhere hnot h.holds ⟨hapart.1, fun hid => hapart.2 (hkey.symm.trans hid)⟩ (fun h => h) rfl
    · exact ⟨⟨h.holds, trivial⟩, .of_threw ⟨_, rfl⟩⟩
  | announce session record traceId =>
    have hapart : session.sessionId ≠ sessionId ∧ record.id ≠ runId := by simpa [Apart, hhere] using h.apart
    have hnot : ¬ OnTheWay runId sessionId d.here := by simp [hhere, OnTheWay]
    simp only [SessionDiscovery.State.statement, hhere] at hnext
    split at hnext <;> rw [← Option.some.inj hnext]
    · rename_i r hr
      have hgoes := apart_syncNext (d.save (Table.put runKey d.records record.id
        (r.emit env (createdEvents (SessionDiscovery.buildRunDescriptor session) session.sessionId record traceId
          env.now)))) hapart.2 (unbinding_syncOps hapart.1)
      have hkey : runKey r = record.id := Table.key_of_get hr
      refine .elsewhere hnot ?_ hgoes.1 hgoes.2 ?_ <;> rw [(SessionDiscovery.GoesOn.syncNext _ _ _).records]
      · exact h.holds.put hr rfl Iff.rfl fun hid => absurd hid hapart.2
      · exact Table.get_put_of_ne hkey (Ne.symm hapart.2)
    · exact ⟨⟨h.holds, trivial⟩, .of_threw ⟨_, rfl⟩⟩
  | sync id op rest phase =>
    have hapart : id ≠ runId ∧ Unbinding sessionId (op :: rest) := by simpa [Apart, hhere] using h.apart
    have hnot : ¬ OnTheWay runId sessionId d.here := by simp [hhere, OnTheWay]
    simp only [SessionDiscovery.State.statement, hhere] at hnext
    rw [← Option.some.inj hnext]
    have hgoes := apart_afterSync (d.save (stepOn env op d.records id phase).1) hapart.1 hapart.2
      (stepOn env op d.records id phase).2
    refine .elsewhere hnot ?_ hgoes.1 hgoes.2 ?_ <;> rw [(SessionDiscovery.GoesOn.afterSync _ _ _ _ _).records]
    · refine h.holds.stepOn env op phase fun other hpatch => iff_of_false ?_ hapart.1
      rintro rfl
      exact hapart.2 op List.mem_cons_self env.now hpatch
    · exact get_stepOn_of_ne env op phase hapart.1
  | upsert id request session rest run =>
    have hapart : id ≠ runId ∧ Unbinding sessionId (.bindSession request session :: rest) := by
      simpa [Apart, hhere] using h.apart
    have hnot : ¬ OnTheWay runId sessionId d.here := by simp [hhere, OnTheWay]
    simp only [SessionDiscovery.State.statement, hhere] at hnext
    split at hnext <;> rw [← Option.some.inj hnext]
    · exact .elsewhere hnot h.holds hapart (fun h => h) rfl
    · exact .elsewhere hnot h.holds trivial (fun h => h) rfl

/-- A statement of the loop that fails: what is given up must not have been needed. -/
theorem Loop.fails (h : Loop runId sessionId d) (hnext : d.fails = some d') :
    Loop runId sessionId d' ∧
      ∀ eventType, (GivesUp runId sessionId d →
          ∃ r, d.findById runId = some r ∧ Shows r.row.status (stateAfter eventType)) →
        Heading runId sessionId d (stateAfter eventType) → ¬ Threw d' →
        Heading runId sessionId d' (stateAfter eventType) := by
  cases hhere : d.here with
  | waiting | threw error | stopped => exact absurd hnext (by simp [SessionDiscovery.State.fails, hhere])
  | insert | readBack | announce =>
    simp only [SessionDiscovery.State.fails, hhere] at hnext
    rw [← Option.some.inj hnext]
    exact ⟨⟨h.holds, trivial⟩, fun _ _ _ hthrew => absurd ⟨_, rfl⟩ hthrew⟩
  | sync id | upsert id =>
    have hnot : ¬ OnTheWay runId sessionId d.here := by simp [hhere, OnTheWay]
    simp only [SessionDiscovery.State.fails, hhere] at hnext
    rw [← Option.some.inj hnext]
    have hkeeps : Keeps runId sessionId d (d.subscribe id) := .elsewhere hnot (fun h => h) rfl
    exact ⟨⟨h.holds, trivial⟩, fun eventType _ => hkeeps eventType⟩
  | lookup session =>
    simp only [SessionDiscovery.State.fails, hhere] at hnext
    split at hnext <;> rw [← Option.some.inj hnext]
    · rename_i hknown
      refine ⟨⟨h.holds, trivial⟩, fun eventType hgives hheading _ => ⟨fun hon => hon.elim, fun _ => ?_⟩⟩
      by_cases hsession : session.sessionId = sessionId
      · subst hsession
        have hgivesUp : GivesUp runId session.sessionId d := by simpa [GivesUp, hhere] using hknown
        exact hgives hgivesUp
      · exact hheading.here (by simpa [hhere, OnTheWay] using hsession)
    · exact ⟨⟨h.holds, trivial⟩, fun _ _ _ hthrew => absurd ⟨_, rfl⟩ hthrew⟩
  | find other op caught =>
    simp only [SessionDiscovery.State.fails, hhere] at hnext
    rw [← Option.some.inj hnext]
    cases caught with
    | false => exact ⟨⟨h.holds, trivial⟩, fun _ _ _ hthrew => absurd ⟨_, rfl⟩ hthrew⟩
    | true =>
      refine ⟨⟨h.holds, trivial⟩, fun eventType hgives hheading _ => ⟨fun hon => hon.elim, fun _ => ?_⟩⟩
      by_cases hsession : other = sessionId
      · have hgivesUp : GivesUp runId sessionId d := by simpa [GivesUp, hhere] using hsession
        exact hgives hgivesUp
      · exact hheading.here (by simpa [hhere, OnTheWay] using hsession)
  | mark id op phase caught =>
    simp only [SessionDiscovery.State.fails, hhere] at hnext
    rw [← Option.some.inj hnext]
    cases caught with
    | false => exact ⟨⟨h.holds, trivial⟩, fun _ _ _ hthrew => absurd ⟨_, rfl⟩ hthrew⟩
    | true =>
      refine ⟨⟨h.holds, trivial⟩, fun eventType hgives hheading _ => ⟨fun hon => hon.elim, fun _ => ?_⟩⟩
      by_cases hon : OnTheWay runId sessionId d.here
      · have hgivesUp : GivesUp runId sessionId d := by
          cases phase with
          | check | update => simpa [GivesUp, OnTheWay, hhere] using hon
          | reread | emit => exact absurd hon (by simp [hhere, OnTheWay])
        exact hgives hgivesUp
      · exact hheading.here hon

/-- The loop takes an event that is not about the session. -/
theorem Loop.consume_of_not_about (h : Loop runId sessionId d) (hhere : d.here = .waiting)
    {event : SessionLifecycleEvent} (habout : about sessionId event = false) :
    Goes runId sessionId d (d.consume event) := by
  have hnot : ¬ OnTheWay runId sessionId d.here := by simp [hhere, OnTheWay]
  unfold SessionDiscovery.State.consume
  split
  · exact .elsewhere hnot h.holds trivial (fun h => h) rfl
  · split
    · exact .elsewhere hnot h.holds h.apart hnot rfl
    · rename_i session hsession
      have hne : session.sessionId ≠ sessionId := by simpa [about, hsession] using habout
      split
      · exact .elsewhere hnot h.holds h.apart hnot rfl
      · split
        · exact .elsewhere hnot h.holds trivial hne rfl
        · rename_i op hop
          exact .elsewhere hnot h.holds (marking_of_eventOp hop) hne rfl

/-- The loop takes an event of the session. -/
theorem Loop.consume_of_about (h : Loop runId sessionId d) {eventType : SessionLifecycleEventType}
    {session : RuntimeSessionSnapshot} (hsession : session.sessionId = sessionId) (hne : sessionId ≠ "")
    (hstate : eventType = .created ∨ session.state = stateAfter eventType) :
    Loop runId sessionId (d.consume ⟨eventType, some session⟩) ∧
      ((d.consume ⟨eventType, some session⟩).here ≠ .stopped →
        Heading runId sessionId (d.consume ⟨eventType, some session⟩) session.state) := by
  subst hsession
  cases haborted : d.aborted with
  | true =>
    simp only [SessionDiscovery.State.consume, haborted, if_true]
    exact ⟨⟨h.holds, trivial⟩, fun hnot => absurd rfl hnot⟩
  | false =>
    cases hop : eventOp eventType with
    | none =>
      simp only [SessionDiscovery.State.consume, haborted, hne, hop, if_false, Bool.false_eq_true]
      exact ⟨⟨h.holds, trivial⟩, fun _ => ⟨fun _ => rfl, fun hnot => absurd rfl hnot⟩⟩
    | some op =>
      simp only [SessionDiscovery.State.consume, haborted, hne, hop, if_false, Bool.false_eq_true]
      refine ⟨⟨h.holds, marking_of_eventOp hop⟩, fun _ => ⟨fun _ => ?_, fun hnot => absurd rfl hnot⟩⟩
      have hshows := shows_of_eventOp hop
      rcases hstate with rfl | hstate
      · exact absurd hop (by simp [eventOp])
      · rw [← hstate] at hshows
        exact hshows

/-- Another caller writes the row of the run. -/
theorem Heading.save {state : String} (h : Heading runId sessionId d state) {records : List (Record N)} {r : Record N}
    (hr : Table.get runKey records runId = some r)
    (hshows : ¬ OnTheWay runId sessionId d.here → Shows r.row.status state) :
    Heading runId sessionId (d.save records) state :=
  ⟨h.coming, fun hnot => ⟨r, hr, hshows hnot⟩⟩

/-- Another caller leaves the row of the run alone. -/
theorem Heading.save_of_get {state : String} (h : Heading runId sessionId d state) {records : List (Record N)}
    (hget : Table.get runKey records runId = Table.get runKey d.records runId) :
    Heading runId sessionId (d.save records) state := by
  refine ⟨h.coming, fun hnot => ?_⟩
  obtain ⟨r, hr, hshows⟩ := h.here hnot
  exact ⟨r, hget.trans hr, hshows⟩

private theorem Heading.shows {state : String} (h : Heading runId sessionId d state) {r : Record N}
    (hr : Table.get runKey d.records runId = some r) (hnot : ¬ OnTheWay runId sessionId d.here) :
    Shows r.row.status state := by
  obtain ⟨found, hfound, hshows⟩ := h.here hnot
  rw [← Option.some.inj (hr.symm.trans hfound)] at hshows
  exact hshows

private theorem Loop.save (h : Loop runId sessionId d) {records : List (Record N)}
    (hholds : Holds runId sessionId records) : Loop runId sessionId (d.save records) :=
  ⟨hholds, h.apart⟩

/-- Another caller appends events to a run. -/
theorem Loop.append (h : Loop runId sessionId d) {id : String} {r : Record N} (hr : d.findById id = some r) (env : Env)
    (events : List (PartialEvent N)) :
    Goes runId sessionId d (d.save (Table.put runKey d.records id (r.emit env events))) := by
  have hkey : runKey r = id := Table.key_of_get hr
  have hdriven : id = runId → Driven r.row.status := by
    rintro rfl
    obtain ⟨found, hfound, -, hdriven⟩ := h.holds.found
    rw [Option.some.inj (hr.symm.trans hfound)]
    exact hdriven
  refine ⟨h.save (h.holds.put hr rfl Iff.rfl hdriven), fun eventType hheading _ => ?_⟩
  by_cases hid : id = runId
  · subst hid
    refine hheading.save (Table.get_put_self hr hkey) fun hnot => ?_
    have hold := hheading.shows hr hnot
    exact hold
  · exact hheading.save_of_get (Table.get_put_of_ne hkey (Ne.symm hid))

/-- Another caller makes a transition of a run: if it is this run, the new status must be right. -/
theorem Loop.transition (h : Loop runId sessionId d) {id now : String} {transition : Transition} {r : Record N}
    {row : RunRow} (hr : d.findById id = some r) (hmoved : compareAndSet transition now r.row = some row)
    (hown : ∀ other, transition.patch.runtimeSessionId = some other → (other = sessionId ↔ id = runId)) :
    Loop runId sessionId (d.save (Table.put runKey d.records id { r with row })) ∧
      ∀ state, (id = runId → ¬ OnTheWay runId sessionId d.here → Shows transition.target state) →
        Heading runId sessionId d state →
        Heading runId sessionId (d.save (Table.put runKey d.records id { r with row })) state := by
  have hold : runKey r = id := Table.key_of_get hr
  have hkey : runKey ({ r with row } : Record N) = id := (compareAndSet_id hmoved).trans hold
  refine ⟨h.save (h.holds.transition hr hmoved hown), fun state hshows hheading => ?_⟩
  by_cases hid : id = runId
  · subst hid
    refine hheading.save (Table.get_put_self hr hkey) fun hnot => ?_
    show Shows row.status state
    rw [compareAndSet_status hmoved]
    exact hshows rfl hnot
  · exact hheading.save_of_get (Table.get_put_of_ne hkey (Ne.symm hid))

/-- A statement of a call on a run: where it writes this run, the new status must be right. -/
theorem Loop.called (h : Loop runId sessionId d) (env : Env) {op : Op} (hop : Marking op) (id : String)
    (phase : Phase) :
    Loop runId sessionId (d.save (stepOn env op d.records id phase).1) ∧
      ∀ state, (id = runId → phase = .update →
          (∃ r, d.findById runId = some r ∧ op.target ∈ validTransitions r.row.status) →
            ¬ OnTheWay runId sessionId d.here → Shows op.target state) →
        Heading runId sessionId d state →
        Heading runId sessionId (d.save (stepOn env op d.records id phase).1) state := by
  have hholds : Holds runId sessionId (stepOn env op d.records id phase).1 :=
    h.holds.stepOn env op phase fun other hpatch => absurd ((hop.patch env.now).symm.trans hpatch) (by simp)
  refine ⟨h.save hholds, fun state hwrites hheading => ?_⟩
  by_cases hid : id = runId
  · subst hid
    obtain ⟨r, hr, -, -⟩ := h.holds.found
    have hget : Table.get runKey (stepOn env op d.records id phase).1 id = some (step env op r phase).1 := by
      rw [SessionDiscovery.stepOn_of_found hr]
      exact Table.get_put_self hr ((SessionDiscovery.step_id env op r phase).trans (Table.key_of_get hr))
    refine hheading.save hget fun hnot => ?_
    have hold := hheading.shows hr hnot
    have hspec := step_spec env op r phase
    generalize step env op r phase = result at hspec ⊢
    cases hspec with
    | wrote hmoved =>
      have htarget := (compareAndSet_eq_some.1 hmoved).1
      rw [op.transition_target] at htarget
      show Shows (RunRow.status _) state
      rw [compareAndSet_status hmoved, op.transition_target]
      exact hwrites rfl rfl ⟨r, hr, htarget⟩ hnot
    | left | checked | missed | agreed | refused | emitted => exact hold
  · exact hheading.save_of_get (get_stepOn_of_ne env op phase hid)

private theorem watches_of_statement {env : Env} {traceId : String} (h : d.statement uuid env traceId = some d') :
    Watches d := by
  refine ⟨fun ⟨error, hhere⟩ => ?_, fun hhere => ?_⟩ <;>
    exact absurd h (by simp [SessionDiscovery.State.statement, hhere])

private theorem watches_of_fails (h : d.fails = some d') : Watches d := by
  refine ⟨fun ⟨error, hhere⟩ => ?_, fun hhere => ?_⟩ <;>
    exact absurd h (by simp [SessionDiscovery.State.fails, hhere])

/-- What is given up ends the handler, and not the watch. -/
theorem waiting_of_givesUp (hgives : GivesUp runId sessionId d) (h : d.fails = some d') : d'.here = .waiting := by
  cases hhere : d.here with
  | lookup session =>
    simp only [GivesUp, hhere] at hgives
    obtain ⟨rfl, hknown⟩ := hgives
    simp only [SessionDiscovery.State.fails, hhere, hknown, if_true] at h
    rw [← Option.some.inj h]
  | find other op caught =>
    cases caught with
    | false => exact absurd hgives (by simp [GivesUp, hhere])
    | true =>
      simp only [SessionDiscovery.State.fails, hhere] at h
      rw [← Option.some.inj h]
      rfl
  | mark id op phase caught =>
    cases caught with
    | false => cases phase <;> exact absurd hgives (by simp [GivesUp, hhere])
    | true =>
      simp only [SessionDiscovery.State.fails, hhere] at h
      rw [← Option.some.inj h]
      rfl
  | waiting | threw | stopped | insert | readBack | announce | sync | upsert =>
    exact absurd hgives (by simp [GivesUp, hhere])

end Loop

/-! ### The watch and the runtime -/

section Follows

variable {runId sessionId : String} {uuid : String → Option String} {s t : State N} {a : Action N}

/-- The last event of the session that is ahead has its state; where there is none, the loop leads to it. -/
def Coming (runId sessionId : String) (queue : List SessionLifecycleEvent) (d : SessionDiscovery.State N)
    (state : String) : Prop :=
  match (queue.filter (about sessionId)).getLast? with
  | some event => event.session.map RuntimeSessionSnapshot.state = some state
  | none => Heading runId sessionId d state

/-- What holds of the registry, the queue and the tables, whatever is written late. -/
structure Base (runId sessionId : String) (s : State N) : Prop where
  named : sessionId ≠ ""
  keys : (s.sessions.map registryKey).Nodup
  states : ∀ session ∈ s.sessions ++ s.swept, ∃ eventType, session.state = stateAfter eventType
  registered : ∃ session, s.last sessionId = some session
  queue : ∀ event ∈ s.queue, ∃ session, event.session = some session ∧
    (event.eventType = .created ∨ session.state = stateAfter event.eventType)
  loop : Loop runId sessionId s.discovery

/-- While the runtime feeds the watch, what the session is comes to the run. -/
def Track (runId sessionId : String) (s : State N) : Prop :=
  s.feeding = true → Watches s.discovery → ∀ session, s.last sessionId = some session →
    Coming runId sessionId s.queue s.discovery session.state

private theorem State.last_of_session {session : RuntimeSessionSnapshot} (h : s.session sessionId = some session) :
    s.last sessionId = some session := by
  rw [State.last, h, Option.some_or]

private theorem State.mem_of_last {session : RuntimeSessionSnapshot} (h : s.last sessionId = some session) :
    session ∈ s.sessions ++ s.swept ∧ session.sessionId = sessionId := by
  rcases Option.or_eq_some_iff.1 h with hlive | ⟨-, hswept⟩
  · exact ⟨List.mem_append_left _ (Table.mem_of_get hlive), Table.key_of_get hlive⟩
  · exact ⟨List.mem_append_right _ (Table.mem_of_get hswept), Table.key_of_get hswept⟩

private theorem getLast?_filter_about {queue : List SessionLifecycleEvent} :
    (queue.filter (about sessionId)).getLast? = none ↔ ∀ event ∈ queue, about sessionId event = false := by
  simp

private theorem about_some (eventType : SessionLifecycleEventType) (session : RuntimeSessionSnapshot) :
    about sessionId ⟨eventType, some session⟩ = true ↔ session.sessionId = sessionId := by
  simp [about]

/-- Where the loop has caught up, the run shows what the session is. -/
theorem Base.inStep (h : Base runId sessionId s) (htrack : Track runId sessionId s)
    (hcaught : CaughtUp runId sessionId s) : InStep runId sessionId s := by
  obtain ⟨session, hsession⟩ := h.registered
  have hcoming := htrack hcaught.fed.feeding hcaught.watches session hsession
  rw [Coming, getLast?_filter_about.2 hcaught.fed.queue] at hcoming
  obtain ⟨r, hr, hshows⟩ := hcoming.here hcaught.here
  exact ⟨r, hr, session, hsession, hshows⟩

/-- The runtime has changed a session, or has a new one. -/
theorem Base.announce (h : Base runId sessionId s) {sessions : List RuntimeSessionSnapshot}
    {eventType : SessionLifecycleEventType} {session : RuntimeSessionSnapshot}
    (hkeys : (sessions.map registryKey).Nodup) (hmem : ∀ x ∈ sessions, x ∈ s.sessions ∨ x = session)
    (hstate : session.state = stateAfter eventType)
    (hget : Table.get registryKey sessions session.sessionId = some session)
    (hother : ∀ id, id ≠ session.sessionId → Table.get registryKey sessions id = s.session id) :
    Base runId sessionId (s.announce sessions ⟨eventType, some session⟩) ∧
      (Track runId sessionId s → Track runId sessionId (s.announce sessions ⟨eventType, some session⟩)) := by
  have hlast : (s.announce sessions ⟨eventType, some session⟩).last session.sessionId = some session :=
    State.last_of_session hget
  have hothers : ∀ id, id ≠ session.sessionId →
      (s.announce sessions ⟨eventType, some session⟩).last id = s.last id := by
    intro id hid
    show (Table.get registryKey sessions id).or (Table.get registryKey s.swept id) = _
    rw [hother id hid]
    rfl
  constructor
  · refine ⟨h.named, hkeys, fun x hx => ?_, ?_, fun event hevent => ?_, h.loop⟩
    · rcases List.mem_append.1 hx with hx | hswept
      · rcases hmem x hx with hold | rfl
        · exact h.states x (List.mem_append_left _ hold)
        · exact ⟨eventType, hstate⟩
      · exact h.states x (List.mem_append_right _ hswept)
    · by_cases hid : sessionId = session.sessionId
      · exact ⟨session, hid ▸ hlast⟩
      · obtain ⟨old, hold⟩ := h.registered
        exact ⟨old, (hothers sessionId hid).trans hold⟩
    · have hcases : event ∈ s.queue ∨ event = ⟨eventType, some session⟩ := by
        simp only [State.announce] at hevent
        split at hevent
        · simpa using hevent
        · exact Or.inl hevent
      rcases hcases with hold | rfl
      · exact h.queue event hold
      · exact ⟨session, rfl, Or.inr hstate⟩
  · intro htrack hfeeding hwatches live hlive
    have hfed : s.feeding = true := hfeeding
    have hqueue : (s.announce sessions ⟨eventType, some session⟩).queue = s.queue ++ [⟨eventType, some session⟩] := by
      simp [State.announce, hfed]
    rw [hqueue, Coming, List.filter_append]
    by_cases hid : session.sessionId = sessionId
    · have habout : about sessionId ⟨eventType, some session⟩ = true := (about_some _ _).2 hid
      rw [← hid] at hlive
      rw [List.filter_cons_of_pos habout, List.filter_nil, List.getLast?_concat,
        Option.some.inj (hlive.symm.trans hlast)]
      rfl
    · have habout : ¬ about sessionId ⟨eventType, some session⟩ = true := fun h => hid ((about_some _ _).1 h)
      rw [List.filter_cons_of_neg habout, List.filter_nil, List.append_nil]
      exact htrack hfed hwatches live ((hothers sessionId (Ne.symm hid)).symm.trans hlive)

private theorem Base.change (h : Base runId sessionId s) {eventType : SessionLifecycleEventType}
    {session old : RuntimeSessionSnapshot} (hfound : s.session session.sessionId = some old)
    (hstate : session.state = stateAfter eventType) :
    Base runId sessionId (s.change eventType session) ∧
      (Track runId sessionId s → Track runId sessionId (s.change eventType session)) := by
  refine h.announce (Table.nodup_put h.keys rfl) (fun x hx => Table.mem_put hx) hstate
    (Table.get_put_self hfound rfl) fun id hid => ?_
  exact Table.get_put_of_ne rfl hid

/-- The runtime sweeps a session: what it was last stays. -/
theorem Base.sweep (h : Base runId sessionId s) {other : String} {session : RuntimeSessionSnapshot}
    (hfound : s.session other = some session) :
    Base runId sessionId
        { s with sessions := Table.remove registryKey s.sessions other, swept := session :: s.swept } ∧
      (Track runId sessionId s → Track runId sessionId
        { s with sessions := Table.remove registryKey s.sessions other, swept := session :: s.swept }) := by
  have hkey : registryKey session = other := Table.key_of_get hfound
  have hlast : State.last { s with
      sessions := Table.remove registryKey s.sessions other, swept := session :: s.swept } sessionId =
        s.last sessionId := by
    show (Table.get registryKey (Table.remove registryKey s.sessions other) sessionId).or
      (Table.get registryKey (session :: s.swept) sessionId) = _
    by_cases hid : sessionId = other
    · subst hid
      rw [Table.get_remove_self, Option.none_or, State.last_of_session hfound, Table.get_cons_self hkey]
    · have hother : registryKey session ≠ sessionId := hkey ▸ Ne.symm hid
      rw [Table.get_remove_of_ne hid, Table.get_cons_of_ne hother]
      rfl
  constructor
  · refine ⟨h.named, Table.nodup_remove h.keys, fun x hx => h.states x ?_, ?_, h.queue, h.loop⟩
    · rcases List.mem_append.1 hx with hx | hx
      · exact List.mem_append_left _ (List.mem_filter.1 hx).1
      · rcases List.mem_cons.1 hx with rfl | hx
        · exact List.mem_append_left _ (Table.mem_of_get hfound)
        · exact List.mem_append_right _ hx
    · obtain ⟨live, hlive⟩ := h.registered
      exact ⟨live, hlast.trans hlive⟩
  · intro htrack hfeeding hwatches live hlive
    exact htrack hfeeding hwatches live (hlast.symm.trans hlive)

/-- A new watch brings what all sessions of the registry are. -/
theorem Base.connect (h : Base runId sessionId s) {snapshots : List RuntimeSessionSnapshot}
    (hperm : snapshots.Perm s.sessions) :
    Base runId sessionId { s with
        queue := snapshots.map fun session => ⟨.created, some session⟩
        feeding := true
        discovery := { s.discovery with here := .waiting } } ∧
      ((s.session sessionId = none → InStep runId sessionId s) → Track runId sessionId { s with
        queue := snapshots.map fun session => ⟨.created, some session⟩
        feeding := true
        discovery := { s.discovery with here := .waiting } }) := by
  constructor
  · refine ⟨h.named, h.keys, h.states, h.registered, fun event hevent => ?_, h.loop.holds, trivial⟩
    obtain ⟨session, -, rfl⟩ := List.mem_map.1 hevent
    exact ⟨session, rfl, Or.inl rfl⟩
  · intro hmissing _ _ live hlive
    have hlast : s.last sessionId = some live := hlive
    unfold Coming
    split
    · rename_i event hqueued
      obtain ⟨hevent, habout⟩ := List.mem_filter.1 (List.mem_of_getLast? hqueued)
      obtain ⟨session, hsession, rfl⟩ := List.mem_map.1 hevent
      have hkey : registryKey session = sessionId := (about_some _ _).1 habout
      have hsame := Table.get_eq_some_of_mem h.keys (hperm.mem_iff.1 hsession)
      rw [hkey] at hsame
      rw [Option.some.inj (hlast.symm.trans (State.last_of_session hsame))]
      rfl
    · rename_i hnone
      refine ⟨fun hon => hon.elim, fun _ => ?_⟩
      -- A session of the registry is among the snapshots.
      have hswept : s.session sessionId = none := by
        refine Option.eq_none_iff_forall_ne_some.2 fun session hsession => ?_
        have hmem : session ∈ snapshots := hperm.mem_iff.2 (Table.mem_of_get hsession)
        have hnot := getLast?_filter_about.1 hnone ⟨.created, some session⟩ (List.mem_map.2 ⟨session, hmem, rfl⟩)
        rw [(about_some _ _).2 (Table.key_of_get hsession)] at hnot
        exact absurd hnot (by simp)
      obtain ⟨r, hr, session, hsession, hshows⟩ := hmissing hswept
      rw [Option.some.inj (hlast.symm.trans hsession)]
      exact ⟨r, hr, hshows⟩

/-- The watch yields an event. -/
theorem Base.yield (h : Base runId sessionId s) {event : SessionLifecycleEvent} {queue : List SessionLifecycleEvent}
    (hqueue : s.queue = event :: queue) (hhere : s.discovery.here = .waiting) :
    Base runId sessionId { s with queue, discovery := s.discovery.consume event } ∧
      (Track runId sessionId s →
        Track runId sessionId { s with queue, discovery := s.discovery.consume event }) := by
  have hwatched : Watches s.discovery :=
    ⟨fun ⟨error, hthrew⟩ => absurd (hhere.symm.trans hthrew) (by simp), fun hstopped =>
      absurd (hhere.symm.trans hstopped) (by simp)⟩
  have hrest : ∀ x ∈ queue, x ∈ s.queue := fun x hx => hqueue ▸ List.mem_cons_of_mem event hx
  obtain ⟨session, hsession, hstate⟩ := h.queue event (hqueue ▸ List.mem_cons_self)
  obtain ⟨eventType, _⟩ := event
  dsimp only at hsession hstate
  subst hsession
  by_cases habout : about sessionId ⟨eventType, some session⟩ = true
  · have hid := (about_some _ _).1 habout
    obtain ⟨hloop, hheading⟩ := h.loop.consume_of_about hid h.named hstate
    refine ⟨⟨h.named, h.keys, h.states, h.registered, fun x hx => h.queue x (hrest x hx), hloop⟩, ?_⟩
    intro htrack hfeeding hwatches live hlive
    have hcoming := htrack hfeeding hwatched live hlive
    rw [hqueue, Coming, List.filter_cons_of_pos habout] at hcoming
    unfold Coming
    split
    · rename_i last hlast
      rw [List.getLast?_cons, hlast] at hcoming
      exact hcoming
    · rename_i hnone
      rw [List.getLast?_cons, hnone] at hcoming
      have hlast : session.state = live.state := Option.some.inj hcoming
      rw [← hlast]
      exact hheading hwatches.2
  · obtain ⟨hloop, hkeeps⟩ := h.loop.consume_of_not_about hhere (Bool.eq_false_iff.2 habout)
    refine ⟨⟨h.named, h.keys, h.states, h.registered, fun x hx => h.queue x (hrest x hx), hloop⟩, ?_⟩
    intro htrack hfeeding hwatches live hlive
    have hcoming := htrack hfeeding hwatched live hlive
    obtain ⟨liveType, hlivestate⟩ := h.states live (State.mem_of_last hlive).1
    rw [hqueue, Coming, List.filter_cons_of_neg habout] at hcoming
    unfold Coming
    split
    · rename_i last hlast
      rw [hlast] at hcoming
      exact hcoming
    · rename_i hnone
      rw [hnone, hlivestate] at hcoming
      rw [hlivestate]
      exact hkeeps liveType hcoming hwatches.1

/-- A step that leaves the registry and the watch alone. -/
theorem Base.step (h : Base runId sessionId s) {d : SessionDiscovery.State N} {calls : List Call}
    (hloop : Loop runId sessionId d) : Base runId sessionId { s with discovery := d, calls } :=
  ⟨h.named, h.keys, h.states, h.registered, h.queue, hloop⟩

private theorem Base.track (h : Base runId sessionId s) (htrack : Track runId sessionId s)
    {d : SessionDiscovery.State N} {calls : List Call} (hwatched : Watches d → Watches s.discovery)
    (hkeeps : Fed sessionId s → ∀ session eventType, s.last sessionId = some session →
      session.state = stateAfter eventType → Heading runId sessionId s.discovery (stateAfter eventType) → Watches d →
        Heading runId sessionId d (stateAfter eventType)) :
    Track runId sessionId { s with discovery := d, calls } := by
  intro hfeeding hwatches live hlive
  have hcoming := htrack hfeeding (hwatched hwatches) live hlive
  obtain ⟨liveType, hlivestate⟩ := h.states live (State.mem_of_last hlive).1
  unfold Coming at hcoming ⊢
  dsimp only
  split
  · rename_i last hlast
    rw [hlast] at hcoming
    exact hcoming
  · rename_i hnone
    rw [hnone, hlivestate] at hcoming
    rw [hlivestate]
    exact hkeeps ⟨hfeeding, getLast?_filter_about.1 hnone⟩ live liveType hlive hlivestate hcoming hwatches

/-- The status that a writer finds to be current is right for the session. -/
theorem Current.shows {status : RunStatus} (h : Current sessionId s status) {session : RuntimeSessionSnapshot}
    (hsession : s.last sessionId = some session) : Shows status session.state := by
  obtain ⟨live, hlive, hshows⟩ := h
  rw [Option.some.inj (hsession.symm.trans hlive)]
  exact hshows

/-- A statement of the loop, or of another caller. -/
theorem Base.tables (h : Base runId sessionId s) {a : SessionDiscovery.Action N} {d : SessionDiscovery.State N}
    (hstep : SessionDiscovery.next uuid s.discovery a = some d) (hevent : ∀ event, a ≠ .event event)
    (hreconnect : a ≠ .reconnect) (hown : Own runId sessionId (.tables a : Action N)) :
    Base runId sessionId { s with discovery := d } ∧
      (Track runId sessionId s → Timely runId sessionId s (.tables a) →
        Track runId sessionId { s with discovery := d }) := by
  have hspec := SessionDiscovery.next_spec uuid hstep
  cases hspec with
  | event => exact absurd rfl (hevent _)
  | reconnect => exact absurd rfl hreconnect
  | statement hstatement =>
    obtain ⟨hloop, hkeeps⟩ := h.loop.statement hstatement
    refine ⟨h.step hloop, fun htrack _ => h.track htrack (fun _ => watches_of_statement hstatement) ?_⟩
    exact fun _ _ eventType _ _ hheading hwatches => hkeeps eventType hheading hwatches.1
  | fail hfails =>
    obtain ⟨hloop, hkeeps⟩ := h.loop.fails hfails
    refine ⟨h.step hloop, fun htrack htimely => h.track htrack (fun _ => watches_of_fails hfails) ?_⟩
    intro hfed session eventType hsession hstate hheading hwatches
    refine hkeeps eventType (fun hgives => ?_) hheading hwatches.1
    obtain ⟨r, hr, hcurrent⟩ := htimely hgives hfed
    exact ⟨r, hr, hstate ▸ hcurrent.shows hsession⟩
  | destroy =>
    refine ⟨h.step ⟨h.loop.holds, h.loop.apart⟩, fun htrack _ => h.track htrack (fun hwatches => hwatches) ?_⟩
    exact fun _ _ _ _ _ hheading _ => ⟨hheading.coming, hheading.here⟩
  | create hfree =>
    rename_i row
    have hnone : Table.get runKey s.discovery.records row.id = none := hfree
    obtain ⟨r, hr, hbound, -⟩ := h.loop.holds.found
    have hne : row.id ≠ runId := by
      intro hid
      rw [hid, hr] at hnone
      exact absurd hnone (by simp)
    have hsession : row.runtimeSessionId ≠ some sessionId := by
      intro hrow
      simp only [SessionDiscovery.next] at hstep
      split at hstep
      · rename_i hguard
        rcases hguard.2 r (Table.mem_of_get hr) with hunbound | hother
        · exact absurd (hrow.symm.trans hunbound) (by simp)
        · exact hother (hbound.trans hrow.symm)
      · exact absurd hstep (by simp)
    have hholds : Holds runId sessionId (s.discovery.records ++ [{ row := row }]) :=
      h.loop.holds.concat hnone hsession
    refine ⟨h.step (h.loop.save hholds), fun htrack _ => h.track htrack (fun hwatches => hwatches) ?_⟩
    exact fun _ _ _ _ _ hheading _ => hheading.save_of_get (Table.get_concat_of_ne hne)
  | transition hfound hmoved =>
    obtain ⟨hloop, hheads⟩ := h.loop.transition hfound hmoved hown
    refine ⟨h.step hloop, fun htrack htimely => h.track htrack (fun hwatches => hwatches) ?_⟩
    intro hfed session eventType hsession hstate hheading hwatches
    refine hheads _ (fun hid hnot => ?_) hheading
    exact hstate ▸ (htimely hid ⟨hfed, hwatches, hnot⟩).shows hsession
  | append hfound =>
    obtain ⟨hloop, hkeeps⟩ := h.loop.append hfound _ _
    refine ⟨h.step hloop, fun htrack _ => h.track htrack (fun hwatches => hwatches) ?_⟩
    exact fun _ _ eventType _ _ hheading hwatches => hkeeps eventType hheading hwatches.1
  | delete =>
    have hholds := h.loop.holds.remove hown
    refine ⟨h.step ⟨hholds, h.loop.apart⟩, fun htrack _ => h.track htrack (fun hwatches => hwatches) ?_⟩
    intro _ _ _ _ _ hheading _
    have hsaved := hheading.save_of_get (Table.get_remove_of_ne (Ne.symm hown))
    exact ⟨hsaved.coming, hsaved.here⟩

/-- A statement of a call. -/
theorem Base.statement (h : Base runId sessionId s) {i : Nat} {c : Call} {env : Env} (hc : s.calls[i]? = some c)
    (hstep : s.statement i c env = some t) :
    Base runId sessionId t ∧
      (Track runId sessionId s → Timely runId sessionId s (.statement i env : Action N) → Track runId sessionId t) := by
  have hmove : ∀ here, Base runId sessionId (s.move i c here) ∧
      (Track runId sessionId s → Timely runId sessionId s (.statement i env : Action N) →
        Track runId sessionId (s.move i c here)) :=
    fun here => ⟨h.step h.loop, fun htrack _ => h.track htrack (fun hwatches => hwatches)
      fun _ _ _ _ _ hheading _ => hheading⟩
  cases hhere : c.here with
  | asking | returned | threw => exact absurd hstep (by simp [State.statement, hhere])
  | read =>
    simp only [State.statement, hhere] at hstep
    repeat' split at hstep
    all_goals
      rw [← Option.some.inj hstep]
      exact hmove _
  | marking phase =>
    simp only [State.statement, hhere] at hstep
    rw [← Option.some.inj hstep]
    obtain ⟨hloop, hheads⟩ := h.loop.called env c.method.marking c.runId phase
    refine ⟨h.step hloop, fun htrack htimely => h.track htrack (fun hwatches => hwatches) ?_⟩
    intro hfed session eventType hsession hstate hheading hwatches
    refine hheads _ (fun hid hphase hwrites hnot => ?_) hheading
    subst hphase
    exact hstate ▸ (htimely c hc ⟨hid, hhere, hwrites⟩ ⟨hfed, hwatches, hnot⟩).shows hsession

/-- The runtime answers a call. -/
theorem Base.answer (h : Base runId sessionId s) {i : Nat} {c : Call} {asked : String} {answer : Answer}
    (hstep : s.answer i c asked answer = some t) :
    Base runId sessionId t ∧ (Track runId sessionId s → Track runId sessionId t) := by
  have hmove : ∀ {u : State N} here, Base runId sessionId u →
      Base runId sessionId (u.move i c here) ∧ (Track runId sessionId u → Track runId sessionId (u.move i c here)) :=
    fun here h => ⟨h.step h.loop, fun htrack => h.track htrack (fun hwatches => hwatches)
      fun _ _ _ _ _ hheading _ => hheading⟩
  cases answer with
  | refused | threw =>
    rw [← Option.some.inj hstep]
    exact hmove _ h
  | ok =>
    obtain ⟨session, hsession, hstep⟩ := Option.bind_eq_some_iff.1 hstep
    split at hstep
    · exact absurd hstep (by simp)
    · rw [← Option.some.inj hstep]
      have hid : session.sessionId = asked := Table.key_of_get hsession
      rw [← hid] at hsession
      obtain ⟨hbase, htrack⟩ : Base runId sessionId
          (s.change c.method.eventType { session with state := stateAfter c.method.eventType }) ∧ _ :=
        h.change hsession rfl
      exact ⟨(hmove _ hbase).1, fun h => (hmove _ hbase).2 (htrack h)⟩

/-- What every step keeps, and what the steps keep that come in time. -/
theorem Base.next (h : Base runId sessionId s) (hown : Own runId sessionId a)
    (hnext : SuspendResume.next uuid s a = some t) :
    Base runId sessionId t ∧ (Track runId sessionId s → Timely runId sessionId s a → Track runId sessionId t) := by
  cases next_spec uuid hnext with
  | created hnew hstate =>
    rename_i session
    obtain ⟨hbase, htrack⟩ : Base runId sessionId
        (s.announce (s.sessions ++ [session]) ⟨.created, some session⟩) ∧ _ := by
      refine h.announce (Table.nodup_concat h.keys hnew) (fun x hx => ?_) hstate (Table.get_concat_self hnew)
        fun id hid => ?_
      · simpa using hx
      · exact Table.get_concat_of_ne (Ne.symm hid)
    exact ⟨hbase, fun h _ => htrack h⟩
  | changed hfound hstate =>
    obtain ⟨hbase, htrack⟩ := h.change hfound hstate
    exact ⟨hbase, fun h _ => htrack h⟩
  | sweep hfound =>
    obtain ⟨hbase, htrack⟩ := h.sweep hfound
    exact ⟨hbase, fun h _ => htrack h⟩
  | connect hperm =>
    obtain ⟨hbase, htrack⟩ := h.connect hperm
    exact ⟨hbase, fun _ htimely => htrack htimely⟩
  | disconnect =>
    refine ⟨⟨h.named, h.keys, h.states, h.registered, h.queue, h.loop⟩, fun _ _ hfeeding => ?_⟩
    exact absurd hfeeding Bool.false_ne_true
  | yield hqueue hhere =>
    obtain ⟨hbase, htrack⟩ := h.yield hqueue hhere
    exact ⟨hbase, fun h _ => htrack h⟩
  | tables hstep hevent hreconnect => exact h.tables hstep hevent hreconnect hown
  | call =>
    refine ⟨h.step h.loop, fun htrack _ => h.track htrack (fun hwatches => hwatches) ?_⟩
    exact fun _ _ _ _ _ hheading _ => hheading
  | statement hc hstep => exact h.statement hc hstep
  | fail =>
    refine ⟨h.step h.loop, fun htrack _ => h.track htrack (fun hwatches => hwatches) ?_⟩
    exact fun _ _ _ _ _ hheading _ => hheading
  | answer _ hstep =>
    obtain ⟨hbase, htrack⟩ := h.answer hstep
    exact ⟨hbase, fun h _ => htrack h⟩

/-- A step that comes late: the loop has caught up afterwards, and the run does not show what the session is. -/
theorem Base.timely (h : Base runId sessionId s) (hnext : SuspendResume.next uuid s a = some t)
    (hshown : CaughtUp runId sessionId t → InStep runId sessionId t) : Timely runId sessionId s a := by
  cases next_spec uuid hnext with
  | tables hstep hevent hreconnect =>
    have hspec := SessionDiscovery.next_spec uuid hstep
    cases hspec with
    | event | reconnect | statement | destroy | create | append | delete => trivial
    | fail hfails =>
      intro hgives hfed
      have hwaiting := waiting_of_givesUp hgives hfails
      obtain ⟨r, hr, hcurrent⟩ := hshown ⟨⟨hfed.feeding, hfed.queue⟩, by simp [Watches, Threw, hwaiting],
        by simp [hwaiting, OnTheWay]⟩
      refine ⟨r, ?_, hcurrent⟩
      rw [SessionDiscovery.State.findById, ← SessionDiscovery.fails_records hfails]
      exact hr
    | transition hfound hmoved =>
      rintro rfl hcaught
      obtain ⟨r, hr, hcurrent⟩ := hshown ⟨⟨hcaught.fed.feeding, hcaught.fed.queue⟩, hcaught.watches, hcaught.here⟩
      have hold := Table.key_of_get hfound
      rename_i found row
      have hkey : runKey ({ found with row } : Record N) = runKey found := compareAndSet_id hmoved
      have hput := Table.get_put_self hfound (hkey.trans hold)
      rw [Option.some.inj (hr.symm.trans hput), show RunRow.status _ = _ from compareAndSet_status hmoved] at hcurrent
      exact hcurrent
  | statement hc hstep =>
    rintro c' hc' ⟨hid, hhere, found, hfound, htarget⟩ hcaught
    rename_i env c
    obtain rfl : c = c' := Option.some.inj (hc.symm.trans hc')
    simp only [State.statement, hhere] at hstep
    rw [← Option.some.inj hstep] at hshown
    obtain ⟨r, hr, hcurrent⟩ := hshown ⟨⟨hcaught.fed.feeding, hcaught.fed.queue⟩, hcaught.watches, hcaught.here⟩
    subst hid
    -- The update of the call matches the row.
    obtain ⟨row, hrow⟩ : ∃ row, compareAndSet (c.method.op.transition env.now) env.now found.row = some row := by
      refine ⟨_, compareAndSet_eq_some.2 ⟨?_, rfl⟩⟩
      rw [Op.transition_target]
      exact htarget
    have hget : Table.get runKey (stepOn env c.method.op s.discovery.records c.runId .update).1 c.runId =
        some { found with row } := by
      have hstepped : Lifecycle.step env c.method.op found .update = ({ found with row }, .goesOn (.emit row)) := by
        rw [Lifecycle.step, hrow]
      have hold : runKey found = c.runId := Table.key_of_get hfound
      have hkey : runKey ({ found with row } : Record N) = runKey found := compareAndSet_id hrow
      rw [SessionDiscovery.stepOn_of_found hfound, hstepped]
      exact Table.get_put_self hfound (hkey.trans hold)
    have hstatus : row.status = c.method.op.target :=
      (compareAndSet_status hrow).trans (Op.transition_target _ _)
    rw [Option.some.inj (hr.symm.trans hget)] at hcurrent
    exact hstatus ▸ hcurrent
  | connect hperm =>
    intro hmissing
    refine hshown ⟨⟨rfl, fun event hevent => ?_⟩, by simp [Watches, Threw], fun hon => hon⟩
    obtain ⟨session, hsession, rfl⟩ := List.mem_map.1 hevent
    refine Bool.eq_false_iff.2 fun habout => ?_
    exact Table.get_eq_none.1 hmissing session (hperm.mem_iff.1 hsession) ((about_some _ _).1 habout)
  | created | changed | sweep | disconnect | yield | call | fail | answer => trivial

/-- The run is bound to a session of the registry, and has been since that was bound; no other run is bound to it. -/
structure Tracks (runId sessionId : String) (s : State N) : Prop where
  named : sessionId ≠ ""
  session : ∃ session, s.session sessionId = some session
  run : ∃ r, s.discovery.findById runId = some r ∧ r.row.runtimeSessionId = some sessionId ∧ Driven r.row.status
  unique : ∀ r ∈ s.discovery.records, r.row.runtimeSessionId = some sessionId → r.row.id = runId

private theorem Tracks.base (h : Tracks runId sessionId s) (hs : (machine uuid).start s) : Base runId sessionId s := by
  obtain ⟨sessions, discovery, hkeys, hstates, ⟨records, runtimeSessions, hnodup, rfl⟩, rfl⟩ := hs
  obtain ⟨session, hsession⟩ := h.session
  exact ⟨h.named, hkeys, fun x hx => hstates x (by simpa using hx), ⟨session, State.last_of_session hsession⟩,
    fun event hevent => absurd hevent List.not_mem_nil, ⟨h.run, h.unique, hnodup⟩, trivial⟩

private theorem Base.exec {as : List (Action N)} (h : Base runId sessionId s) (hown : ∀ a ∈ as, Own runId sessionId a)
    (hexec : (machine uuid).exec s as = some t) : Base runId sessionId t := by
  have hthroughout : (machine uuid).Throughout (fun _ a => Own runId sessionId a) s as :=
    Machine.throughout_of_forall (fun a ha _ => hown a ha) s
  exact hthroughout.invariant (fun _ _ _ hbase hown hnext => (hbase.next hown hnext).1) h hexec

/-- Whenever the loop has caught up with the session of a run, the run shows whether the session is suspended, or is
over, exactly when no mark comes late, no reconciliation is given up, and no watch begins without the session of a run
that does not show its end.  And whatever has come late, or has been missed while there was no watch: after the next
watch has begun, this is so again, if the session has not been swept by then. -/
theorem status_follows_iff {as : List (Action N)} (hs : (machine uuid).start s) (hrun : Tracks runId sessionId s)
    (h : (machine uuid).exec s as = some t) (hown : ∀ a ∈ as, Own runId sessionId a) :
    ((∀ bs u, bs <+: as → (machine uuid).exec s bs = some u → CaughtUp runId sessionId u → InStep runId sessionId u) ↔
        (machine uuid).Throughout (Timely runId sessionId) s as) ∧
      ∀ bs snapshots cs u, as = bs ++ .connect snapshots :: cs →
        (machine uuid).exec s (bs ++ [.connect snapshots]) = some u →
          (∃ session, u.session sessionId = some session) ∨ InStep runId sessionId u →
          (machine uuid).Throughout (Timely runId sessionId) u cs →
            CaughtUp runId sessionId t → InStep runId sessionId t := by
  have hbase := hrun.base hs
  constructor
  · have howned : (machine uuid).Throughout (fun _ a => Own runId sessionId a) s as :=
      Machine.throughout_of_forall (fun a ha _ => hown a ha) s
    have hstart : Base runId sessionId s ∧ Track runId sessionId s := by
      refine ⟨hbase, fun hfeeding => ?_⟩
      obtain ⟨sessions, discovery, -, -, -, rfl⟩ := hs
      exact absurd hfeeding Bool.false_ne_true
    refine howned.iff_of_step (I := fun s => Base runId sessionId s ∧ Track runId sessionId s)
      (fun u hu => hu.1.inStep hu.2) ?_ hstart h
    rintro u a v ⟨hu, htrack⟩ hown hnext
    obtain ⟨hv, hkeeps⟩ := hu.next hown hnext
    exact ⟨hu.timely hnext, fun htimely => ⟨hv, hkeeps htrack htimely⟩⟩
  · rintro bs snapshots cs u rfl hu hpresent htimely hcaught
    obtain ⟨v, hv, hlast⟩ := Machine.exec_append_eq_some.1 hu
    obtain ⟨u', hconnect, hnil⟩ := Machine.exec_cons_eq_some.1 hlast
    obtain rfl := Option.some.inj hnil
    obtain ⟨v', hv', hrest⟩ := Machine.exec_append_eq_some.1 h
    obtain rfl := Option.some.inj (hv.symm.trans hv')
    obtain ⟨w, hw, hcs⟩ := Machine.exec_cons_eq_some.1 hrest
    obtain rfl := Option.some.inj (hconnect.symm.trans hw)
    have hbefore : Base runId sessionId v := hbase.exec (fun a ha => hown a (List.mem_append_left _ ha)) hv
    have hconnected : Base runId sessionId u' ∧ Track runId sessionId u' := by
      have hnext : SuspendResume.next uuid v (.connect snapshots) = some u' := hconnect
      cases next_spec uuid hnext with
      | connect hperm =>
        obtain ⟨hconnected, htrack⟩ := hbefore.connect hperm
        refine ⟨hconnected, htrack fun hmissing => ?_⟩
        rcases hpresent with ⟨session, hsession⟩ | hinStep
        · exact absurd (hmissing.symm.trans hsession) (by simp)
        · exact hinStep
    have howned : ∀ a ∈ cs, Own runId sessionId a := fun a ha =>
      hown a (List.mem_append_right _ (List.mem_cons_of_mem _ ha))
    have hboth := htimely.and
      (Machine.throughout_of_forall (P := fun _ a => Own runId sessionId a) (fun a ha _ => howned a ha) u')
    have hend := hboth.invariant (I := fun s => Base runId sessionId s ∧ Track runId sessionId s)
      (fun x a y hx hP hnext =>
        ⟨(hx.1.next hP.2 hnext).1, (hx.1.next hP.2 hnext).2 hx.2 hP.1⟩) hconnected hcs
    exact hend.1.inStep hend.2 hcaught

end Follows

/-- A session that is suspended, with its run. -/
def suspended : State (Option Rat) where
  sessions := [{ SessionDiscovery.opened "session" with state := "SESSION_STATE_SUSPENDED" }]
  discovery := SessionDiscovery.tracked .suspended

/-- The session is resumed by a call, of which the runtime tells the watch before the call marks the run. -/
def resumed : List (Action (Option Rat)) :=
  let env : Env := ⟨"2026-01-01T00:00:00.000Z", fun _ => "e", none⟩
  [.connect suspended.sessions, .yield, .tables SessionDiscovery.statement, .call .resume "run", .statement 0 env,
    .answer 0 .ok, .statement 0 env, .statement 0 env, .yield, .tables SessionDiscovery.statement,
    .tables SessionDiscovery.statement]

/-- The loop finds the run marked by the call. -/
theorem status_follows_iff_resumed :
    ∃ t, (machine some).exec suspended resumed = some t ∧ t.discovery.records.map (·.row.status) = [.running] ∧
      CaughtUp "run" "session" t ∧ InStep "run" "session" t := by
  obtain ⟨t, ht, hstatus, hfeeding, hqueue, hhere⟩ : ∃ t, (machine some).exec suspended resumed = some t ∧
      t.discovery.records.map (·.row.status) = [.running] ∧ t.feeding = true ∧ t.queue = [] ∧
      t.discovery.here = .waiting := ⟨_, rfl, rfl, rfl, rfl, rfl⟩
  have hcaught : CaughtUp "run" "session" t := by
    refine ⟨⟨hfeeding, by simp [hqueue]⟩, ⟨?_, by simp [hhere]⟩, by simp [hhere, OnTheWay]⟩
    rintro ⟨error, hthrew⟩
    exact absurd (hhere.symm.trans hthrew) (by simp)
  have hstart : (machine some).start suspended := by
    refine ⟨suspended.sessions, suspended.discovery, by decide, ?_, SessionDiscovery.start_tracked _, rfl⟩
    intro session hsession
    exact ⟨.suspended, by rw [List.mem_singleton.1 hsession]; rfl⟩
  have htracks : Tracks "run" "session" suspended := by
    refine ⟨by decide, ⟨_, rfl⟩, ⟨_, rfl, rfl, Or.inr (Or.inl rfl)⟩, fun r hr _ => ?_⟩
    rw [List.mem_singleton.1 hr]
  have hown : ∀ a ∈ resumed, Own "run" "session" a := by
    simp [resumed, Own, SessionDiscovery.statement]
  refine ⟨t, ht, hstatus, hcaught, ?_⟩
  refine (status_follows_iff hstart htracks ht hown).1.2 ?_ resumed t (List.prefix_refl _) ht hcaught
  refine .cons ?_ rfl (.cons trivial rfl (.cons trivial rfl (.cons trivial rfl (.cons ?_ rfl (.cons trivial rfl
    (.cons ?_ rfl (.cons ?_ rfl (.cons trivial rfl (.cons trivial rfl (.cons trivial rfl trivial))))))))))
  · intro hmissing
    exact absurd hmissing (by decide)
  · rintro c hc ⟨-, hupdate, -⟩
    obtain rfl := Option.some.inj hc
    exact absurd hupdate (by simp)
  · rintro c hc ⟨-, hupdate, -⟩
    obtain rfl := Option.some.inj hc
    exact absurd hupdate (by simp [Method.op, Op.first])
  · -- The event of the runtime is still ahead.
    rintro c - - hcaughtUp
    exact absurd (hcaughtUp.fed.queue _ (List.mem_singleton_self _)) (by decide)

/-- The runtime refuses to suspend a session, and says so in its `ack`: the run is suspended all the same. -/
example : ∃ t : State (Option Rat),
    (machine some).exec { suspended with
          sessions := [SessionDiscovery.opened "session"], discovery := SessionDiscovery.tracked .running }
        [.connect [SessionDiscovery.opened "session"], .yield, .tables SessionDiscovery.statement, .call .suspend "run",
          .statement 0 ⟨"", fun _ => "e", none⟩, .answer 0 .refused, .statement 0 ⟨"", fun _ => "e", none⟩,
          .statement 0 ⟨"", fun _ => "e", none⟩] = some t ∧
      t.sessions = [SessionDiscovery.opened "session"] ∧ t.queue = [] ∧
      t.discovery.records.map (·.row.status) = [.suspended] :=
  ⟨_, rfl, rfl, rfl, rfl⟩

end MacpControlPlane.SuspendResume

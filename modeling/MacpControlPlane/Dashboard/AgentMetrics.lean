import MacpControlPlane.Events.NormalizedLog
import MacpControlPlane.Events.RunEventService
import MacpControlPlane.Lib.Grouping
import MacpControlPlane.Metrics.MetricsService
import MacpControlPlane.Projection.Helpers
import MacpControlPlane.Storage.EventRepository

/-!
# The metrics of agents (`dashboard/dashboard.service.ts`)

`getAgentMetrics` groups the rows whose subject is a participant by that participant, and counts messages and signals
among them.  The normalizer gives messages and signals other subjects: it names the sender in `data.sender`, and puts
the confidence of a signal into `data.decodedPayload`.
-/

namespace MacpControlPlane

open Js Grouping EventNormalizer

variable {B N : Type}

namespace Dashboard

/-! ### The query -/

/-- A row of the result. -/
structure AgentMetrics where
  participantId : String
  runs : Nat
  signals : Nat
  messages : Nat
  averageConfidence : Rat
  deriving DecidableEq

/-- `type LIKE 'message.%'` -/
def isMessage (row : CanonicalRow N) : Bool := startsWith row.type.name "message."

def isSignal (row : CanonicalRow N) : Bool := row.type = .signalEmitted

/-- `avg`, which is `NULL` of no values. -/
def avg (xs : List Rat) : Option Rat := if xs = [] then none else some (xs.sum / xs.length)

/-- `(data->>'confidence')::numeric` of the signals, where it is not `NULL`; `none` when the cast of a value fails. -/
def confidences (numeric : Json N → Option Rat) (rows : List (CanonicalRow N)) : Option (List Rat) :=
  ((rows.filter isSignal).filterMap fun row => defined (JsonObject.prop row.data "confidence")).mapM numeric

/-- The columns of a group. -/
def aggregate (numeric : Json N → Option Rat) (participantId : String) (rows : List (CanonicalRow N)) :
    Option AgentMetrics :=
  (confidences numeric rows).map fun xs =>
    { participantId
      runs := (rows.map (·.runId)).dedup.length
      signals := rows.countP isSignal
      messages := rows.countP isMessage
      averageConfidence := (avg xs).getD 0 }

/-- `WHERE subject_kind = 'participant' AND subject_id IS NOT NULL`, with the subject id. -/
def participantRows (table : List (CanonicalRow N)) : List (String × CanonicalRow N) :=
  table.filterMap fun row => if row.subjectKind = some .participant then row.subjectId.map fun id => (id, row) else none

/-- `getAgentMetrics`; `none` when the query fails. -/
def getAgentMetrics (numeric : Json N → Option Rat) (table : List (CanonicalRow N)) : Option (List AgentMetrics) :=
  ((groupBy Prod.fst (fun rows => rows.map Prod.snd) (participantRows table)).mapM
    fun g => aggregate numeric g.1 g.2).map fun rows => rows.mergeSort fun a b => b.runs ≤ a.runs

/-! ### The log -/

variable [JsNumber N]

/-- An envelope, and the transaction that persists it. -/
structure Persisted (B N : Type) where
  raw : RawEnvelope B N
  runCtx : Option TraceRef
  uuid : Nat → String
  startSeq : Nat

/-- The rows of the events of the envelopes, whose ids are fresh. -/
def canonicalLog (codec : Codec B N) (patterns : List (String → String)) :
    List String → List (Persisted B N) → List (CanonicalRow N)
  | _, [] => []
  | known, p :: ps =>
    let normalized := normalizeEnvelope codec patterns p.raw.ctx known p.raw.envelope p.raw.senderAuthenticated
    (RunEventService.preparePersisted p.runCtx p.uuid p.startSeq normalized.1).map .ofEvent ++
      canonicalLog codec patterns normalized.2 ps

/-- The sender of the envelope that a row comes from. -/
def sender (row : CanonicalRow N) : Option String := asString (JsonObject.prop row.data "sender")

variable [ExactNumber N]

/-- The confidence that a signal carries. -/
def signalConfidence (row : CanonicalRow N) : Option Rat :=
  let n : Option N := safeOptionalNumber (field (JsonObject.prop row.data "decodedPayload") "confidence")
  n.map ExactNumber.value

/-- The metrics match the log: the messages and signals that the participant has sent, and their confidence. -/
structure Matches (table : List (CanonicalRow N)) (participant : String) (m : AgentMetrics) : Prop where
  messages : m.messages = table.countP fun row => isMessage row && sender row = some participant
  signals : m.signals = table.countP fun row => isSignal row && sender row = some participant
  averageConfidence : m.averageConfidence =
    (avg ((table.filter fun row => isSignal row && sender row = some participant).filterMap signalConfidence)).getD 0

/-- Every participant of the log is reported, with metrics that match the log. -/
def ReportsAll (numeric : Json N → Option Rat) (table : List (CanonicalRow N)) (participants : List String) : Prop :=
  ∃ ms, getAgentMetrics numeric table = some ms ∧
    ∀ participant ∈ participants, ∃ m ∈ ms, m.participantId = participant ∧ Matches table participant m

/-! ### What the rows of the log are -/

section Log

variable {codec : Codec B N} {patterns : List (String → String)}

omit [ExactNumber N] in
/-- A row holds what an event of one of the envelopes holds. -/
theorem mem_canonicalLog {known : List String} {ps : List (Persisted B N)} {row : CanonicalRow N}
    (h : row ∈ canonicalLog codec patterns known ps) :
    ∃ p ∈ ps, ∃ e, (e = participantSeen (p.raw.incoming codec) ∨ e ∈ eventsOf codec patterns p.raw) ∧
      row.type = e.type ∧ row.subjectKind = e.subject.map (·.kind) := by
  induction ps generalizing known with
  | nil => cases h
  | cons p ps ih =>
    rcases List.mem_append.1 h with h | h
    · obtain ⟨stored, hstored, rfl⟩ := List.mem_map.1 h
      obtain ⟨e, he, -, htype, hsubject, -⟩ := RunEventService.mem_preparePersisted hstored
      refine ⟨p, List.mem_cons_self, e, ?_, htype, congrArg (Option.map Subject.kind) hsubject⟩
      rcases normalizeEnvelope_eq known p.raw with heq | heq <;> rw [heq] at he
      · exact .inr he
      · exact List.mem_cons.1 he
    · obtain ⟨other, hother, he⟩ := ih h
      exact ⟨other, List.mem_cons_of_mem _ hother, he⟩

omit [ExactNumber N] in
private theorem deriveSubject_kind (type : CanonicalEventType) (envelope : RuntimeEnvelope B N)
    (payload : Option (Json N)) : (deriveSubject type envelope payload).kind ≠ .participant := by
  cases type <;> exact nofun

omit [ExactNumber N] in
/-- The rows about a participant are those of its arrival and of its ambient progress. -/
theorem type_of_participant {known : List String} {ps : List (Persisted B N)} {row : CanonicalRow N}
    (h : row ∈ canonicalLog codec patterns known ps) (hkind : row.subjectKind = some .participant) :
    row.type = .participantSeen ∨ row.type = .progressReported := by
  obtain ⟨p, -, e, he, htype, hsubject⟩ := mem_canonicalLog h
  rw [hkind] at hsubject
  rw [htype]
  rcases he with rfl | he
  · exact .inl rfl
  · rcases mem_messageEvents_iff.1 he with rfl | ⟨llm, -, rfl⟩ | ⟨type, -, rfl⟩ | htask | hpolicy | hprogress
    · cases hsubject
    · cases hsubject
    · exact absurd (Option.some.inj hsubject).symm (deriveSubject_kind type _ _)
    · rcases mem_taskEvents htask with ⟨progress, -, rfl⟩ | rfl | rfl <;> cases hsubject
    · rcases mem_policyEvents_iff.1 hpolicy with ⟨decoded, -, -, rfl⟩ | ⟨decoded, -, -, rfl⟩ | ⟨-, rfl⟩ <;>
        cases hsubject
    · obtain ⟨-, rfl⟩ := mem_progressEvents_iff.1 hprogress
      exact .inr rfl

omit [ExactNumber N] in
/-- Each envelope has a message of its sender in the log. -/
theorem exists_message {known : List String} {ps : List (Persisted B N)} {p : Persisted B N} (hp : p ∈ ps) :
    ∃ row ∈ canonicalLog codec patterns known ps,
      isMessage row = true ∧ sender row = some p.raw.envelope.sender := by
  induction ps generalizing known with
  | nil => cases hp
  | cons q ps ih =>
    rcases List.mem_cons.1 hp with rfl | hp
    · have hreceived : messageReceived (p.raw.incoming codec) codec ∈
          (normalizeEnvelope codec patterns p.raw.ctx known p.raw.envelope p.raw.senderAuthenticated).1 := by
        rcases normalizeEnvelope_eq known p.raw with heq | heq <;> rw [heq]
        · exact List.mem_cons_self
        · exact List.mem_cons_of_mem _ List.mem_cons_self
      obtain ⟨stored, hstored, -, htype, -, hdata⟩ :=
        RunEventService.exists_mem_preparePersisted p.runCtx p.uuid p.startSeq hreceived
      refine ⟨.ofEvent stored, List.mem_append_left _ (List.mem_map_of_mem hstored), ?_, ?_⟩
      · show startsWith stored.type.name "message." = true
        rw [htype]
        show startsWith "message.received" "message." = true
        decide
      · show asString (JsonObject.prop stored.data "sender") = _
        rw [hdata]
        rfl
    · obtain ⟨row, hrow, hboth⟩ := ih hp
      exact ⟨row, List.mem_append_right _ hrow, hboth⟩

omit [ExactNumber N] in
/-- A row about a participant is neither a message nor a signal. -/
theorem idle_of_participant {known : List String} {ps : List (Persisted B N)} {entry : String × CanonicalRow N}
    (h : entry ∈ participantRows (canonicalLog codec patterns known ps)) :
    isMessage entry.2 = false ∧ isSignal entry.2 = false := by
  obtain ⟨row, hrow, hentry⟩ := List.mem_filterMap.1 h
  rw [Option.ite_none_right_eq_some] at hentry
  obtain ⟨hkind, hid⟩ := hentry
  obtain ⟨id, -, rfl⟩ := Option.map_eq_some_iff.1 hid
  unfold isMessage isSignal
  rcases type_of_participant hrow hkind with htype | htype <;> rw [htype] <;> exact ⟨by decide, by decide⟩

/-! ### What is reported -/

/-- The metrics of a participant without messages and signals. -/
def idle (participantId : String) (rows : List (CanonicalRow N)) : AgentMetrics where
  participantId
  runs := (rows.map (·.runId)).dedup.length
  signals := 0
  messages := 0
  averageConfidence := 0

omit [JsNumber N] [ExactNumber N] in
private theorem aggregate_eq_idle (numeric : Json N → Option Rat) (participantId : String)
    {rows : List (CanonicalRow N)} (h : ∀ row ∈ rows, isMessage row = false ∧ isSignal row = false) :
    aggregate numeric participantId rows = some (idle participantId rows) := by
  have hmessages : rows.countP isMessage = 0 :=
    List.countP_eq_zero.2 fun row hrow => by rw [(h row hrow).1]; decide
  have hsignals : rows.filter isSignal = [] :=
    List.filter_eq_nil_iff.2 fun row hrow => by rw [(h row hrow).2]; decide
  unfold aggregate confidences
  rw [List.countP_eq_length_filter (p := isSignal), hsignals, hmessages]
  rfl

omit [JsNumber N] [ExactNumber N] in
private theorem mapM_eq_some {α β : Type} {f : α → Option β} {g : α → β} {xs : List α}
    (h : ∀ x ∈ xs, f x = some (g x)) : xs.mapM f = some (xs.map g) := by
  induction xs with
  | nil => rfl
  | cons x xs ih =>
    obtain ⟨hx, hxs⟩ := List.forall_mem_cons.1 h
    rw [List.mapM_cons, hx, ih hxs]
    rfl

variable (codec patterns) in
omit [ExactNumber N] in
/-- Of a log that the normalizer has made, the query reports participants without messages and signals. -/
theorem getAgentMetrics_canonicalLog (numeric : Json N → Option Rat) (known : List String)
    (ps : List (Persisted B N)) :
    ∃ ms, getAgentMetrics numeric (canonicalLog codec patterns known ps) = some ms ∧
      ∀ m ∈ ms, m.messages = 0 ∧ m.signals = 0 ∧ m.averageConfidence = 0 := by
  have hgroups : ∀ g ∈ groupBy Prod.fst (fun rows => rows.map Prod.snd)
      (participantRows (canonicalLog codec patterns known ps)), aggregate numeric g.1 g.2 = some (idle g.1 g.2) := by
    rintro ⟨id, rows⟩ hg
    obtain ⟨-, rfl⟩ := mem_groupBy.1 hg
    refine aggregate_eq_idle numeric id fun row hrow => ?_
    obtain ⟨entry, hentry, rfl⟩ := List.mem_map.1 hrow
    exact idle_of_participant (mem_group.1 hentry).1
  refine ⟨_, congrArg (Option.map _) (mapM_eq_some hgroups), fun m hm => ?_⟩
  obtain ⟨g, -, rfl⟩ := List.mem_map.1 (List.mem_mergeSort.1 hm)
  exact ⟨rfl, rfl, rfl⟩

end Log

/-- The participants of a log get the metrics that match it exactly when the log has no envelopes: each envelope brings
a message of its sender, and no message and no signal is counted for a participant. -/
theorem reportsAll_iff (numeric : Json N → Option Rat) (codec : Codec B N) (patterns : List (String → String))
    (known : List String) (ps : List (Persisted B N)) :
    ReportsAll numeric (canonicalLog codec patterns known ps) (ps.map (·.raw.envelope.sender)) ↔ ps = [] := by
  obtain ⟨ms, hms, hzero⟩ := getAgentMetrics_canonicalLog codec patterns numeric known ps
  constructor
  · rintro ⟨ms', hms', hall⟩
    rw [hms] at hms'
    obtain rfl := Option.some.inj hms'
    cases ps with
    | nil => rfl
    | cons p ps =>
      obtain ⟨m, hm, -, hmatches⟩ := hall p.raw.envelope.sender List.mem_cons_self
      have hexists : ∃ row ∈ canonicalLog codec patterns known (p :: ps),
          isMessage row = true ∧ sender row = some p.raw.envelope.sender := exists_message List.mem_cons_self
      obtain ⟨row, hrow, hmessage, hsender⟩ := hexists
      have hpos : 0 < (canonicalLog codec patterns known (p :: ps)).countP fun row =>
          isMessage row && sender row = some p.raw.envelope.sender :=
        List.countP_pos_iff.2 ⟨row, hrow, by simp [hmessage, hsender]⟩
      rw [← hmatches.messages, (hzero m hm).1] at hpos
      exact absurd hpos (Nat.lt_irrefl 0)
  · rintro rfl
    exact ⟨ms, hms, fun _ hmem => absurd hmem List.not_mem_nil⟩

/-! ### One signal -/

/-- A text that is sent as a signal. -/
def signalText : WireText := ⟨"done", "ZG9uZQ==", none⟩

/-- The log of one signal of the analyst. -/
def signalLog : List (CanonicalRow (Option Rat)) :=
  canonicalLog signalText.codec [] [] [⟨signalText.raw "Signal", none, fun _ => "e2", 1⟩]

/-- `::numeric` of a number. -/
def numeric : Json (Option Rat) → Option Rat
  | .num n => n
  | _ => none

/-- The analyst has sent a message and a signal, and is reported with none. -/
theorem signal_not_reported :
    signalLog.countP (fun row => isMessage row && sender row = some "analyst") = 1 ∧
      signalLog.countP (fun row => isSignal row && sender row = some "analyst") = 1 ∧
      ¬ ReportsAll numeric signalLog ["analyst"] := by
  have hcount : signalLog.countP (fun row => isMessage row && sender row = some "analyst") = 1 := by decide
  refine ⟨hcount, by decide, ?_⟩
  rintro ⟨ms, hms, hall⟩
  obtain ⟨ms', hms', hzero⟩ := getAgentMetrics_canonicalLog signalText.codec [] numeric []
    [⟨signalText.raw "Signal", none, fun _ => "e2", 1⟩]
  obtain rfl : ms = ms' := Option.some.inj (hms.symm.trans hms')
  obtain ⟨m, hm, -, hmatches⟩ := hall "analyst" List.mem_cons_self
  have hmessages := hmatches.messages
  rw [hcount, (hzero m hm).1] at hmessages
  exact absurd hmessages (by decide)

end Dashboard

end MacpControlPlane

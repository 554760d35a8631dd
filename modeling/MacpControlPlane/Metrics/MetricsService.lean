import Mathlib.Algebra.BigOperators.Group.List.Basic
import Mathlib.Algebra.Order.Field.Rat
import MacpControlPlane.Events.EventNormalizer

/-!
# Metrics of a run (`metrics/metrics.service.ts`)

`recordEvents` loads the row of the run, adds what the events of a batch contribute to its counters, and writes the
whole row.  The counters and the costs are exact here.
-/

namespace MacpControlPlane

open Js EventNormalizer

/-- Numbers with which a program can compute exactly: a finite one has a value. -/
class ExactNumber (N : Type) [JsNumber N] where
  value : N → Rat
  isFinite_nan : JsNumber.isFinite (JsNumber.nan : N) = false
  isFinite_ofNat (n : Nat) : JsNumber.isFinite (JsNumber.ofNat n : N) = true
  value_ofNat (n : Nat) : value (JsNumber.ofNat n) = n
  isFinite_add {a b : N} (ha : JsNumber.isFinite a = true) (hb : JsNumber.isFinite b = true) :
    JsNumber.isFinite (JsNumber.add a b) = true
  value_add {a b : N} (ha : JsNumber.isFinite a = true) (hb : JsNumber.isFinite b = true) :
    value (JsNumber.add a b) = value a + value b

instance : ExactNumber (Option Rat) where
  value a := a.getD 0
  isFinite_nan := rfl
  isFinite_ofNat _ := rfl
  value_ofNat _ := rfl
  isFinite_add {a b} ha hb := by
    obtain ⟨x, rfl⟩ := Option.isSome_iff_exists.1 ha
    obtain ⟨y, rfl⟩ := Option.isSome_iff_exists.1 hb
    rfl
  value_add {a b} ha hb := by
    obtain ⟨x, rfl⟩ := Option.isSome_iff_exists.1 ha
    obtain ⟨y, rfl⟩ := Option.isSome_iff_exists.1 hb
    rfl

variable {N : Type} [JsNumber N] [ExactNumber N]

namespace MetricsService

/-- `safeNumber(val)` -/
def safeNumber (val : Option (Json N)) : Rat :=
  let n : N := toNumber val
  if JsNumber.isFinite n then ExactNumber.value n else 0

/-! ### Token usage -/

structure TokenUsage where
  promptTokens : Rat
  completionTokens : Rat
  deriving DecidableEq

/-- The usage that an object holds. -/
def usageAt (usage : Option (Json N)) : TokenUsage where
  promptTokens := safeNumber (coalesce (field usage "promptTokens") (field usage "prompt_tokens"))
  completionTokens := safeNumber (coalesce (field usage "completionTokens") (field usage "completion_tokens"))

/-- The loop of `extractTokenUsage` takes the candidate. -/
def isUsage (candidate : Option (Json N)) : Bool :=
  isObject candidate && (0 < (usageAt candidate).promptTokens || 0 < (usageAt candidate).completionTokens)

def usageCandidates (event : CanonicalEvent N) : List (Option (Json N)) :=
  let decodedPayload := event.datum "decodedPayload"
  [some (.obj event.data), event.datum "tokenUsage", field (event.datum "metadata") "tokenUsage", decodedPayload,
    field decodedPayload "tokenUsage", field (event.datum "payloadDescriptor") "tokenUsage"]

def extractTokenUsage (event : CanonicalEvent N) : Option TokenUsage :=
  ((usageCandidates event).find? isUsage).map usageAt

/-! ### Costs -/

/-- Rates in USD per million tokens. -/
structure Rates where
  prompt : Rat
  completion : Rat
  deriving DecidableEq

def defaultRates : Rates := ⟨1, 3⟩

/-- `MODEL_COSTS` -/
def modelCosts : List (String × Rates) :=
  [("gpt-4o", ⟨5 / 2, 10⟩), ("gpt-4o-mini", ⟨3 / 20, 3 / 5⟩), ("gpt-4-turbo", ⟨10, 30⟩), ("claude-3-opus", ⟨15, 75⟩),
    ("claude-3-sonnet", ⟨3, 15⟩), ("claude-3-haiku", ⟨1 / 4, 5 / 4⟩), ("default", defaultRates)]

/-- The rates that `MODEL_COSTS` lists for a model, the default ones where it lists none. -/
def ratesOf (model : Option String) : Rates :=
  (modelCosts.lookup (model.getD "")).getD defaultRates

/-- What a usage costs at these rates. -/
def price (usage : TokenUsage) (rates : Rates) : Rat :=
  (usage.promptTokens * rates.prompt + usage.completionTokens * rates.completion) / 1000000

/-- The properties that every object inherits. -/
def inheritedNames : List String :=
  ["constructor", "toString", "valueOf", "toLocaleString", "hasOwnProperty", "isPrototypeOf", "propertyIsEnumerable",
    "__proto__", "__defineGetter__", "__defineSetter__", "__lookupGetter__", "__lookupSetter__"]

/-- The model has a name that `MODEL_COSTS` inherits. -/
def isInherited (model : Option String) : Bool := inheritedNames.contains (model.getD "")

/-- `estimateCost`; `none` is `NaN`.  `MODEL_COSTS[model ?? '']` is what `MODEL_COSTS` inherits under the name, and that
has no rates. -/
def estimateCost (usage : TokenUsage) (model : Option String) : Option Rat :=
  if isInherited model then none else some (price usage (ratesOf model))

/-- The value that `recordEvents` takes for the model of the `tokenUsage` of an event. -/
def modelValue (event : CanonicalEvent N) : Option (Json N) :=
  coalesce (field (event.datum "tokenUsage") "model") (field (field (event.datum "metadata") "tokenUsage") "model")

/-- The model of the `tokenUsage` of an event. -/
def eventModel (event : CanonicalEvent N) : Option String :=
  if truthy (modelValue event) then (modelValue event).map Json.toJsString else none

/-- The usage of the event has no cost. -/
def isUnpriced (event : CanonicalEvent N) : Bool :=
  (extractTokenUsage event).isSome && isInherited (eventModel event)

/-! ### What is converted -/

/-- `extractTokenUsage` does not throw: it converts the counts of every candidate up to the one that it takes. -/
def usageConverts : List (Option (Json N)) → Bool
  | [] => true
  | c :: cs =>
    if isObject c then
      converts (coalesce (field c "promptTokens") (field c "prompt_tokens")) &&
        converts (coalesce (field c "completionTokens") (field c "completion_tokens")) &&
          (isUsage c || usageConverts cs)
    else usageConverts cs

/-- `recordEvents` does not throw at the event: it converts the model, too, where there is a usage. -/
def isRecordable (event : CanonicalEvent N) : Bool :=
  usageConverts (usageCandidates event) && ((extractTokenUsage event).isNone || converts (modelValue event))

/-! ### `recordEvents` -/

/-- A row of `run_metrics`, without `durationMs`, which is the difference of its times. -/
structure RunMetrics where
  eventCount : Nat := 0
  messageCount : Nat := 0
  signalCount : Nat := 0
  proposalCount : Nat := 0
  toolCallCount : Nat := 0
  decisionCount : Nat := 0
  streamReconnectCount : Nat := 0
  promptTokens : Rat := 0
  completionTokens : Rat := 0
  totalTokens : Rat := 0
  /-- `none` is `NaN`. -/
  estimatedCostUsd : Option Rat := some 0
  firstEventAt : Option String := none
  lastEventAt : Option String := none
  sessionState : Option String := none
  deriving DecidableEq

/-- `a + b`; `none` is `NaN`. -/
def addCost (a b : Option Rat) : Option Rat := a.bind fun x => b.map fun y => x + y

/-- The local variables of the loop. -/
structure Recording where
  row : RunMetrics
  runTerminal : Bool

def isTerminalState (sessionState : Option String) : Bool :=
  sessionState = some "SESSION_STATE_RESOLVED" || sessionState = some "SESSION_STATE_EXPIRED" ||
    sessionState = some "SESSION_STATE_CANCELLED"

/-- The columns that `recordEvents` adds to. -/
inductive Counter where
  | eventCount | messageCount | signalCount | proposalCount | toolCallCount | decisionCount | streamReconnectCount
  | promptTokens | completionTokens | totalTokens | estimatedCostUsd
  deriving DecidableEq, Repr

/-- `1` if the condition holds. -/
def tick (p : Prop) [Decidable p] : Nat := if p then 1 else 0

/-- One round of the loop, for an event that `isRecordable`. -/
def recordEvent (l : Recording) (event : CanonicalEvent N) : Recording :=
  let ended := event.type = .runCompleted ∨ event.type = .runFailed ∨ event.type = .runCancelled
  let usage := (extractTokenUsage event).getD ⟨0, 0⟩
  let state := if event.type = .sessionStateChanged then asString (event.datum "state") else none
  { runTerminal := l.runTerminal || decide ended
    row :=
      { eventCount := l.row.eventCount + 1
        messageCount := l.row.messageCount + tick (startsWith event.type.name "message." = true)
        signalCount := l.row.signalCount + tick (event.type = .signalEmitted)
        proposalCount := l.row.proposalCount + tick (startsWith event.type.name "proposal." = true)
        toolCallCount := l.row.toolCallCount + tick (startsWith event.type.name "tool." = true)
        decisionCount := l.row.decisionCount + tick (event.type = .decisionFinalized ∨ event.type = .decisionProposed)
        streamReconnectCount := l.row.streamReconnectCount +
          tick (event.type = .sessionStreamOpened ∧ asString (event.datum "status") = some "reconnecting")
        promptTokens := l.row.promptTokens + usage.promptTokens
        completionTokens := l.row.completionTokens + usage.completionTokens
        totalTokens := l.row.totalTokens + (usage.promptTokens + usage.completionTokens)
        estimatedCostUsd :=
          match extractTokenUsage event with
          | some usage => addCost l.row.estimatedCostUsd (estimateCost usage (eventModel event))
          | none => l.row.estimatedCostUsd
        firstEventAt := l.row.firstEventAt.or (some event.ts)
        lastEventAt := if !l.runTerminal || decide ended then some event.ts else l.row.lastEventAt
        sessionState := state.or l.row.sessionState } }

/-- The row as it is loaded: `safeNumber` makes a cost of `NaN` zero. -/
def RunMetrics.loaded (row : RunMetrics) : RunMetrics :=
  { row with estimatedCostUsd := some (row.estimatedCostUsd.getD 0) }

/-- The row that `recordEvents` hands to `upsert`, from the one that it gets, for events that are all `isRecordable`. -/
def recordEvents (current : Option RunMetrics) (events : List (CanonicalEvent N)) : RunMetrics :=
  let row := (current.getD {}).loaded
  (events.foldl recordEvent { row := row, runTerminal := isTerminalState row.sessionState }).row

/-! ### What a batch contributes -/

/-- The counters as `toSummary` reads them. -/
def RunMetrics.count (row : RunMetrics) : Counter → Rat
  | .eventCount => row.eventCount
  | .messageCount => row.messageCount
  | .signalCount => row.signalCount
  | .proposalCount => row.proposalCount
  | .toolCallCount => row.toolCallCount
  | .decisionCount => row.decisionCount
  | .streamReconnectCount => row.streamReconnectCount
  | .promptTokens => row.promptTokens
  | .completionTokens => row.completionTokens
  | .totalTokens => row.totalTokens
  | .estimatedCostUsd => row.estimatedCostUsd.getD 0

/-- What an event adds to a counter. -/
def contribution (counter : Counter) (event : CanonicalEvent N) : Rat :=
  (recordEvent { row := {}, runTerminal := false } event).row.count counter

/-- What a batch adds to a counter. -/
def contributions (counter : Counter) (events : List (CanonicalEvent N)) : Rat :=
  (events.map (contribution counter)).sum

@[simp] theorem contributions_nil (counter : Counter) : contributions counter ([] : List (CanonicalEvent N)) = 0 := rfl

theorem contributions_cons (counter : Counter) (event : CanonicalEvent N) (events : List (CanonicalEvent N)) :
    contributions counter (event :: events) = contribution counter event + contributions counter events := by
  simp [contributions]

theorem contributions_append (counter : Counter) (events rest : List (CanonicalEvent N)) :
    contributions counter (events ++ rest) = contributions counter events + contributions counter rest := by
  simp [contributions]

/-- Every event is counted. -/
theorem contributions_eventCount (events : List (CanonicalEvent N)) :
    contributions .eventCount events = events.length := by
  induction events with
  | nil => simp
  | cons event events ih =>
    have hone : contribution .eventCount event = 1 := by simp [contribution, recordEvent, RunMetrics.count]
    rw [contributions_cons, hone, ih, List.length_cons]
    push_cast
    exact add_comm _ _

/-- A counter is read as a number, unless it is the cost and one of the events has none. -/
def Priced (counter : Counter) (events : List (CanonicalEvent N)) : Prop :=
  counter = .estimatedCostUsd → events.any isUnpriced = false

theorem Priced.append_iff {counter : Counter} {events rest : List (CanonicalEvent N)} :
    Priced counter (events ++ rest) ↔ Priced counter events ∧ Priced counter rest := by
  unfold Priced
  rw [List.any_append, Bool.or_eq_false_iff]
  exact imp_and

theorem priced_of_ne {counter : Counter} (h : counter ≠ .estimatedCostUsd) (events : List (CanonicalEvent N)) :
    Priced counter events :=
  fun hcost => absurd hcost h

/-- What an event adds to the cost. -/
theorem estimatedCostUsd_recordEvent (l : Recording) (event : CanonicalEvent N) :
    (recordEvent l event).row.estimatedCostUsd =
      if isUnpriced event then none
      else l.row.estimatedCostUsd.map fun cost => cost + contribution .estimatedCostUsd event := by
  have hcontribution : contribution .estimatedCostUsd event =
      (recordEvent { row := {}, runTerminal := false } event).row.estimatedCostUsd.getD 0 := rfl
  rw [hcontribution]
  unfold isUnpriced recordEvent
  cases husage : extractTokenUsage event with
  | none => simp
  | some usage =>
    cases hname : isInherited (eventModel event) with
    | true => cases l.row.estimatedCostUsd <;> simp [addCost, estimateCost, hname]
    | false => cases l.row.estimatedCostUsd <;> simp [addCost, estimateCost, hname]

/-- A round adds the contribution of its event to a counter other than the cost. -/
theorem count_recordEvent (l : Recording) (event : CanonicalEvent N) {counter : Counter}
    (hcounter : counter ≠ .estimatedCostUsd) :
    (recordEvent l event).row.count counter = l.row.count counter + contribution counter event := by
  cases counter
  case estimatedCostUsd => exact absurd rfl hcounter
  all_goals simp [contribution, recordEvent, RunMetrics.count]

/-- The cost after the loop: `NaN` once an event has none, and else the sum. -/
theorem estimatedCostUsd_foldl (events : List (CanonicalEvent N)) (l : Recording) :
    (events.foldl recordEvent l).row.estimatedCostUsd =
      if events.any isUnpriced then none
      else l.row.estimatedCostUsd.map fun cost => cost + contributions .estimatedCostUsd events := by
  induction events generalizing l with
  | nil => simp
  | cons event events ih =>
    rw [List.foldl_cons, ih, estimatedCostUsd_recordEvent, contributions_cons, List.any_cons]
    cases isUnpriced event with
    | true => simp
    | false =>
      cases l.row.estimatedCostUsd with
      | none => simp
      | some cost => simp [add_assoc]

theorem estimatedCostUsd_recordEvents (current : Option RunMetrics) (events : List (CanonicalEvent N)) :
    (recordEvents current events).estimatedCostUsd =
      if events.any isUnpriced then none
      else some ((current.getD {}).count .estimatedCostUsd + contributions .estimatedCostUsd events) :=
  estimatedCostUsd_foldl events _

/-- The row is the one that was loaded, and the contributions of the batch. -/
theorem count_recordEvents (current : Option RunMetrics) (events : List (CanonicalEvent N)) {counter : Counter}
    (h : Priced counter events) :
    (recordEvents current events).count counter =
      (current.getD {}).count counter + contributions counter events := by
  by_cases hcounter : counter = .estimatedCostUsd
  · subst hcounter
    show (recordEvents current events).estimatedCostUsd.getD 0 = _
    rw [estimatedCostUsd_recordEvents, h rfl]
    rfl
  · have hfold : ∀ l : Recording, (events.foldl recordEvent l).row.count counter =
        l.row.count counter + contributions counter events := by
      clear h
      induction events with
      | nil => simp
      | cons event events ih =>
        intro l
        rw [List.foldl_cons, ih, count_recordEvent l event hcounter, contributions_cons, add_assoc]
    have hloaded : (current.getD {}).loaded.count counter = (current.getD {}).count counter := by
      cases counter
      case estimatedCostUsd => exact absurd rfl hcounter
      all_goals rfl
    rw [← hloaded]
    exact hfold _

end MetricsService

end MacpControlPlane

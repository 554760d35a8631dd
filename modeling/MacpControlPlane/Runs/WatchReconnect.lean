import MacpControlPlane.Lib.Machine
import MacpControlPlane.Runtime.ThrownErrors

/-!
# The reconnects of the ambient watches (`runs/watch-reconnect.ts`)

The loops `startDiscoveryLoop` of `SessionDiscoveryService` and `startConsumeLoop` of `SignalConsumerService`, which
differ in the stream that they watch.  An iteration that throws goes through `watchReconnectDelay`; one that returns
goes straight back to the head of the loop.

Time is a clock in milliseconds that only `advance` moves: what the loop does between two of its awaits takes none.
-/

namespace MacpControlPlane.WatchReconnect

open Js

/-- Back-off between reconnects after an ordinary stream end. -/
def watchReconnectDelayMs : Nat := 5000

/-- The runtime has ended a watch that lagged behind. -/
def lagged (error : Thrown) : Bool := macpErrorCodeOf error = some "STREAM_LAGGED"

structure ReconnectDelay where
  lagged : Bool
  delayMs : Nat
  deriving DecidableEq

def watchReconnectDelay (error : Thrown) (lastImmediateReconnectAt : Option Nat) (now : Nat) : ReconnectDelay :=
  let immediateAllowed := lagged error &&
    match lastImmediateReconnectAt with
    | none => true
    | some last => watchReconnectDelayMs ≤ now - last
  { lagged := lagged error, delayMs := if immediateAllowed then 0 else watchReconnectDelayMs }

/-- How an iteration over the stream has ended, and when. -/
structure StreamEnd where
  time : Nat
  /-- `none`: the iterator was done. -/
  thrown : Option Thrown
  deriving DecidableEq

/-- A connect attempt, and the end of the stream before it. -/
structure Connect where
  time : Nat
  after : Option StreamEnd
  deriving DecidableEq

inductive LoopAt where
  | notStarted
  | consuming
  /-- In the `setTimeout` after an end. -/
  | sleeping (wake : Nat) (after : StreamEnd)
  | ended
  deriving DecidableEq

structure State where
  now : Nat
  aborted : Bool := false
  lastImmediateReconnectAt : Option Nat := none
  here : LoopAt := .notStarted
  /-- The attempts so far, the last one first. -/
  connects : List Connect := []
  /-- The labels under which `watchStreamLaggedTotal` was incremented. -/
  watchStreamLaggedTotal : List String := []

inductive Action where
  | advance (ms : Nat)
  | onModuleInit (sessionDiscoveryEnabled : Bool)
  /-- `consumeWatchStream` or `consumeSignalStream` returns, or throws. -/
  | streamEnds (thrown : Option Thrown)
  | timeout
  | onModuleDestroy

/-- The head of the `while`, up to the `await` on the stream. -/
def State.head (s : State) (after : Option StreamEnd) : State :=
  if s.aborted then { s with here := .ended }
  else { s with here := .consuming, connects := ⟨s.now, after⟩ :: s.connects }

/-- The `catch` of the loop. -/
def State.caught (stream : String) (s : State) (error : Thrown) : State :=
  if s.aborted then { s with here := .ended }
  else
    let reconnect := watchReconnectDelay error s.lastImmediateReconnectAt s.now
    let counted : State :=
      { s with watchStreamLaggedTotal :=
          if reconnect.lagged then stream :: s.watchStreamLaggedTotal else s.watchStreamLaggedTotal }
    if reconnect.delayMs = 0 then
      State.head { counted with lastImmediateReconnectAt := some s.now } (some ⟨s.now, some error⟩)
    else { counted with here := .sleeping (s.now + reconnect.delayMs) ⟨s.now, some error⟩ }

def next (stream : String) (s : State) : Action → Option State
  | .advance ms => some { s with now := s.now + ms }
  | .onModuleInit sessionDiscoveryEnabled =>
    if s.here = .notStarted then
      some (if sessionDiscoveryEnabled then s.head none else { s with here := .ended })
    else none
  | .streamEnds thrown =>
    if s.here = .consuming then
      some (match thrown with
        | none => s.head (some ⟨s.now, none⟩)
        | some error => s.caught stream error)
    else none
  | .timeout =>
    match s.here with
    | .sleeping wake after => if wake ≤ s.now then some (s.head (some after)) else none
    | _ => none
  | .onModuleDestroy =>
    -- The sleep is resolved, and the loop finds `aborted` set.
    match s.here with
    | .sleeping _ _ => some { s with aborted := true, here := .ended }
    | _ => some { s with aborted := true }

/-- The loop over a watch, by the label that it counts its lags under. -/
def watchLoop (stream : String) : Machine State Action where
  start s := s = { now := s.now }
  next := next stream

def startDiscoveryLoop : Machine State Action := watchLoop "watch_sessions"

def startConsumeLoop : Machine State Action := watchLoop "watch_signals"

/-! ### Pacing -/

/-- The reconnect has come at once after a coded lag. -/
def Connect.immediate (c : Connect) : Bool :=
  match c.after with
  | some { time := time, thrown := some error } => lagged error && time == c.time
  | _ => false

private theorem Connect.time_of_immediate {c : Connect} {e : StreamEnd} (h : c.immediate = true)
    (hafter : c.after = some e) : e.time = c.time := by
  unfold Connect.immediate at h
  rw [hafter] at h
  obtain ⟨time, thrown⟩ := e
  cases thrown with
  | none => exact absurd h (by simp)
  | some error =>
    simp only [Bool.and_eq_true, beq_iff_eq] at h
    exact h.2

/-- The attempts, the last one first, keep the delay. -/
structure Paced (connects : List Connect) : Prop where
  consecutive : connects.IsChain fun newer older =>
    older.time + watchReconnectDelayMs ≤ newer.time ∨ newer.immediate = true
  window : ∀ start, (connects.filter fun c =>
    c.immediate && (start ≤ c.time && c.time < start + watchReconnectDelayMs)).length ≤ 1

/-- A stream that is done, while the loop is not to stop, has lasted for the delay. -/
def EndsLate (s : State) : Action → Prop
  | .streamEnds none =>
    s.aborted = false → ∀ c, s.connects.head? = some c → c.time + watchReconnectDelayMs ≤ s.now
  | _ => True

/-- What the history of a loop looks like, as long as its streams end late. -/
structure Pacing (s : State) : Prop where
  notStarted : s.here = .notStarted → s.connects = []
  consecutive : s.connects.IsChain fun newer older =>
    older.time + watchReconnectDelayMs ≤ newer.time ∨ newer.immediate = true
  spaced : (s.connects.filter Connect.immediate).Pairwise fun newer older =>
    older.time + watchReconnectDelayMs ≤ newer.time
  passed : ∀ c ∈ s.connects, c.time ≤ s.now
  last : ∀ c ∈ s.connects, c.immediate = true → ∃ last, s.lastImmediateReconnectAt = some last ∧ c.time ≤ last
  sleeping : ∀ wake after, s.here = .sleeping wake after →
    after.time + watchReconnectDelayMs ≤ wake ∧ ∀ c ∈ s.connects, c.time ≤ after.time

/-- Times that are a delay apart are not in one window. -/
theorem filter_window_length_le_one {connects : List Connect} {d : Nat}
    (h : connects.Pairwise fun newer older => older.time + d ≤ newer.time) (start : Nat) :
    (connects.filter fun c => start ≤ c.time && c.time < start + d).length ≤ 1 := by
  induction h with
  | nil => simp
  | @cons c connects hc _ ih =>
    rw [List.filter_cons]
    split
    · rename_i hin
      have hnone : (connects.filter fun c => start ≤ c.time && c.time < start + d) = [] := by
        rw [List.filter_eq_nil_iff]
        intro b hb hb'
        have := hc b hb
        simp at hin hb'
        omega
      simp [hnone]
    · exact ih

private theorem Pacing.paced {s : State} (h : Pacing s) : Paced s.connects := by
  refine ⟨h.consecutive, fun start => ?_⟩
  have hle := filter_window_length_le_one h.spaced start
  rw [List.filter_filter] at hle
  simpa only [Bool.and_comm] using hle

/-- The history alone does not depend on what the loop waits for. -/
theorem Pacing.awake {s t : State} (h : Pacing s) (hconnects : t.connects = s.connects)
    (hlast : t.lastImmediateReconnectAt = s.lastImmediateReconnectAt) (hnow : s.now ≤ t.now)
    (hstart : t.here = .notStarted → s.here = .notStarted)
    (hsleep : ∀ wake after, t.here = .sleeping wake after → s.here = .sleeping wake after) : Pacing t := by
  refine ⟨?_, hconnects ▸ h.consecutive, hconnects ▸ h.spaced, ?_, ?_, ?_⟩
  · intro hhere
    rw [hconnects]
    exact h.notStarted (hstart hhere)
  · intro c hc
    rw [hconnects] at hc
    exact Nat.le_trans (h.passed c hc) hnow
  · rw [hconnects, hlast]
    exact h.last
  · intro wake after hhere
    rw [hconnects]
    exact h.sleeping wake after (hsleep wake after hhere)

/-- A connect attempt of the head of the loop. -/
theorem Pacing.head {s : State} (h : Pacing s) {after : Option StreamEnd}
    (hgap : s.aborted = false → ∀ c, s.connects.head? = some c →
      c.time + watchReconnectDelayMs ≤ s.now ∨ Connect.immediate ⟨s.now, after⟩ = true)
    (himm : Connect.immediate ⟨s.now, after⟩ = true → s.lastImmediateReconnectAt = some s.now ∧
      ∀ c ∈ s.connects, c.immediate = true → c.time + watchReconnectDelayMs ≤ s.now) :
    Pacing (s.head after) := by
  unfold State.head
  split
  · exact h.awake rfl rfl (Nat.le_refl _) (by simp) (by simp)
  rename_i haborted
  refine ⟨by simp, ?_, ?_, ?_, ?_, by simp⟩
  · cases hconnects : s.connects with
    | nil => exact .singleton _
    | cons c rest =>
      have hchain := h.consecutive
      rw [hconnects] at hchain
      exact List.isChain_cons_cons.2 ⟨hgap (by simpa using haborted) c (by simp [hconnects]), hchain⟩
  · rw [List.filter_cons]
    split
    · rename_i hnew
      refine List.pairwise_cons.2 ⟨?_, h.spaced⟩
      intro c hc
      obtain ⟨hmem, hc⟩ := List.mem_filter.1 hc
      exact (himm hnew).2 c hmem hc
    · exact h.spaced
  · intro c hc
    rcases List.mem_cons.1 hc with rfl | hc
    · exact Nat.le_refl _
    · exact h.passed c hc
  · intro c hc hcimm
    rcases List.mem_cons.1 hc with rfl | hc
    · exact ⟨s.now, (himm hcimm).1, Nat.le_refl _⟩
    · exact h.last c hc hcimm

private theorem watchReconnectDelay_eq_zero {error : Thrown} {last : Option Nat} {now : Nat}
    (h : (watchReconnectDelay error last now).delayMs = 0) :
    lagged error = true ∧ ∀ l, last = some l → l + watchReconnectDelayMs ≤ now := by
  cases last with
  | none => simpa [watchReconnectDelay, watchReconnectDelayMs] using h
  | some l =>
    obtain ⟨hlagged, hle⟩ : lagged error = true ∧ decide (watchReconnectDelayMs ≤ now - l) = true := by
      simpa [watchReconnectDelay, watchReconnectDelayMs] using h
    have hle := of_decide_eq_true hle
    refine ⟨hlagged, fun m hm => ?_⟩
    obtain rfl := Option.some.inj hm
    unfold watchReconnectDelayMs at hle ⊢
    omega

private theorem watchReconnectDelay_ne_zero {error : Thrown} {last : Option Nat} {now : Nat}
    (h : (watchReconnectDelay error last now).delayMs ≠ 0) :
    (watchReconnectDelay error last now).delayMs = watchReconnectDelayMs := by
  have hcases : (watchReconnectDelay error last now).delayMs = 0 ∨
      (watchReconnectDelay error last now).delayMs = watchReconnectDelayMs := ite_eq_or_eq _ _ _
  exact hcases.resolve_left h

/-- Whatever has been thrown, the reconnect keeps the delay, or is the one that a lag may have at once. -/
theorem Pacing.caught {s : State} (h : Pacing s) (stream : String) (error : Thrown) :
    Pacing (s.caught stream error) := by
  unfold State.caught
  split
  · exact h.awake rfl rfl (Nat.le_refl _) (by simp) (by simp)
  dsimp only
  split
  · rename_i hzero
    obtain ⟨hlagged, hlast⟩ := watchReconnectDelay_eq_zero hzero
    apply Pacing.head
    · refine ⟨h.notStarted, h.consecutive, h.spaced, h.passed, ?_, h.sleeping⟩
      exact fun c hc _ => ⟨s.now, rfl, h.passed c hc⟩
    · intro _ c _
      exact .inr (by simp [Connect.immediate, hlagged])
    · refine fun _ => ⟨rfl, fun c hc himm => ?_⟩
      obtain ⟨l, hl, hle⟩ := h.last c hc himm
      have := hlast l hl
      change c.time + watchReconnectDelayMs ≤ s.now
      omega
  · rename_i hne
    refine ⟨by simp, h.consecutive, h.spaced, h.passed, h.last, ?_⟩
    rintro wake after hsleep
    obtain ⟨rfl, rfl⟩ := LoopAt.sleeping.inj hsleep
    rw [watchReconnectDelay_ne_zero hne]
    exact ⟨Nat.le_refl _, h.passed⟩

/-- A stream that ends late is followed by a connect attempt that keeps the delay. -/
theorem Pacing.returned {s : State} (h : Pacing s) (hlate : EndsLate s (.streamEnds none)) :
    Pacing (s.head (some ⟨s.now, none⟩)) :=
  h.head (fun haborted c hc => .inl (hlate haborted c hc)) (fun himm => absurd himm (by simp [Connect.immediate]))

/-- A stream that does not is followed by one that does not. -/
theorem endsLate_of_paced {s : State} (h : Paced (s.head (some ⟨s.now, none⟩)).connects) :
    EndsLate s (.streamEnds none) := by
  intro haborted c hc
  have hchain := h.consecutive
  unfold State.head at hchain
  rw [haborted] at hchain
  cases hconnects : s.connects with
  | nil => simp [hconnects] at hc
  | cons d rest =>
    obtain rfl : d = c := by simpa [hconnects] using hc
    rw [hconnects] at hchain
    exact (List.isChain_cons_cons.1 hchain).1.resolve_right (by simp [Connect.immediate])

private theorem Pacing.timeout {s : State} (h : Pacing s) {wake : Nat} {after : StreamEnd}
    (hhere : s.here = .sleeping wake after) (hwake : wake ≤ s.now) : Pacing (s.head (some after)) := by
  obtain ⟨hdelay, hpassed⟩ := h.sleeping wake after hhere
  refine h.head ?_ ?_
  · intro _ c hc
    have := hpassed c (List.mem_of_mem_head? hc)
    exact .inl (by omega)
  · intro himm
    have htime : after.time = s.now := Connect.time_of_immediate himm rfl
    unfold watchReconnectDelayMs at hdelay
    omega

private theorem pacing_next {stream : String} {s t : State} {a : Action} (h : Pacing s)
    (hnext : next stream s a = some t) : (Paced t.connects → EndsLate s a) ∧ (EndsLate s a → Pacing t) := by
  cases a with
  | advance ms =>
    obtain rfl := Option.some.inj hnext
    refine ⟨fun _ => trivial, fun _ => h.awake rfl rfl (Nat.le_add_right s.now ms) ?_ ?_⟩
    · exact fun hhere => hhere
    · exact fun _ _ hhere => hhere
  | onModuleInit sessionDiscoveryEnabled =>
    obtain ⟨hhere, heq⟩ := Option.ite_none_right_eq_some.1 hnext
    obtain rfl := Option.some.inj heq
    refine ⟨fun _ => trivial, fun _ => ?_⟩
    cases sessionDiscoveryEnabled with
    | false => exact h.awake rfl rfl (Nat.le_refl _) (by simp) (by simp)
    | true =>
      refine h.head (fun _ c hc => ?_) (fun himm => absurd himm (by simp [Connect.immediate]))
      rw [h.notStarted hhere] at hc
      exact absurd hc (by simp)
  | streamEnds thrown =>
    obtain ⟨hhere, heq⟩ := Option.ite_none_right_eq_some.1 hnext
    obtain rfl := Option.some.inj heq
    cases thrown with
    | none => exact ⟨endsLate_of_paced, h.returned⟩
    | some error => exact ⟨fun _ => trivial, fun _ => h.caught stream error⟩
  | timeout =>
    refine ⟨fun _ => trivial, fun _ => ?_⟩
    cases hhere : s.here with
    | sleeping wake after =>
      simp only [next, hhere] at hnext
      obtain ⟨hwake, heq⟩ := Option.ite_none_right_eq_some.1 hnext
      obtain rfl := Option.some.inj heq
      exact h.timeout hhere hwake
    | notStarted | consuming | ended => simp [next, hhere] at hnext
  | onModuleDestroy =>
    refine ⟨fun _ => trivial, fun _ => ?_⟩
    cases hhere : s.here with
    | sleeping wake after =>
      simp only [next, hhere] at hnext
      obtain rfl := Option.some.inj hnext
      exact h.awake rfl rfl (Nat.le_refl _) (by simp) (by simp)
    | notStarted | consuming | ended =>
      simp only [next, hhere] at hnext
      obtain rfl := Option.some.inj hnext
      exact h.awake rfl rfl (Nat.le_refl _) (fun hstart => hhere.trans hstart) (by simp)

/-- The attempts of a loop keep the delay exactly as long as no stream is done before it has lasted for it. -/
theorem watchLoop_paced_iff {stream : String} {s u : State} {as : List Action} (hs : (watchLoop stream).start s)
    (h : (watchLoop stream).exec s as = some u) :
    (∀ bs t, bs <+: as → (watchLoop stream).exec s bs = some t → Paced t.connects) ↔
      (watchLoop stream).Throughout EndsLate s as := by
  have hstart : Pacing s := by
    have hs : s = { now := s.now } := hs
    rw [hs]
    exact ⟨fun _ => rfl, .nil, .nil, by simp, by simp, by simp⟩
  refine Machine.throughout_iff_of_step (I := Pacing) (fun _ hI => hI.paced) ?_ hstart h
  exact fun _ _ _ hI hnext => pacing_next hI hnext

/-- Both of the watch loops. -/
theorem watchLoops_paced_iff {loop : Machine State Action} (hloop : loop = startDiscoveryLoop ∨ loop = startConsumeLoop)
    {s u : State} {as : List Action} (hs : loop.start s) (h : loop.exec s as = some u) :
    (∀ bs t, bs <+: as → loop.exec s bs = some t → Paced t.connects) ↔ loop.Throughout EndsLate s as := by
  rcases hloop with rfl | rfl
  · exact watchLoop_paced_iff hs h
  · exact watchLoop_paced_iff hs h

/-- The watch ends after five seconds, then lags twice in a row. -/
def laggingRun : List Action :=
  [.onModuleInit true, .advance 5000, .streamEnds none, .streamEnds (some (.raw (some "STREAM_LAGGED"))),
    .streamEnds (some (.appException (some "STREAM_LAGGED"))), .advance 5000, .timeout]

theorem watchLoops_paced_iff_lagging :
    (∀ bs t, bs <+: laggingRun → startDiscoveryLoop.exec { now := 0 } bs = some t → Paced t.connects) ∧
      (startDiscoveryLoop.exec { now := 0 } laggingRun).map (fun t => t.connects.map Connect.time) =
        some [10000, 5000, 5000, 0] := by
  refine ⟨?_, by decide⟩
  have hstart : startDiscoveryLoop.start { now := 0 } := rfl
  obtain ⟨u, hu⟩ := Option.isSome_iff_exists.1
    (show (startDiscoveryLoop.exec { now := 0 } laggingRun).isSome = true by decide)
  refine (watchLoops_paced_iff (.inl rfl) hstart hu).2 ?_
  simp [laggingRun, Machine.Throughout, EndsLate, startDiscoveryLoop, watchLoop, next, State.head,
    watchReconnectDelayMs]

/-- A stream that is done as soon as it is opened is opened again at once, by either of the loops. -/
theorem watchLoops_not_paced :
    (∃ u, startDiscoveryLoop.exec { now := 0 } [.onModuleInit true, .streamEnds none] = some u ∧ ¬ Paced u.connects) ∧
      ∃ u, startConsumeLoop.exec { now := 0 } [.onModuleInit true, .streamEnds none] = some u ∧ ¬ Paced u.connects := by
  constructor
  all_goals
    refine ⟨_, rfl, fun h => ?_⟩
    have hchain := h.consecutive
    exact absurd hchain (by decide)

end MacpControlPlane.WatchReconnect

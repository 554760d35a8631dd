import Mathlib.Data.List.Infix
import MacpControlPlane.Contracts
import MacpControlPlane.Lib.Callers
import MacpControlPlane.Lib.Machine

/-!
# The Redis stream hub (`events/redis-stream-hub.strategy.ts`)

An instance that publishes a message sends it to the Redis channel and emits it locally.  Redis passes the messages of
the channel on to every instance, the publishing one included, and `on message` emits them there.  The messages are
numbered in the order in which they are published, so that the copies of two equal messages can be told apart.
-/

namespace MacpControlPlane

variable {N : Type}

/-- `RedisHubMessage` -/
inductive RedisHubMessage (N : Type) where
  | canonicalEvent (event : CanonicalEvent N)
  | snapshot (runId : String) (snapshot : RunStateProjection N)
  | complete (runId : String)

/-- `_runId` -/
def RedisHubMessage.runId : RedisHubMessage N → String
  | .canonicalEvent event => event.runId
  | .snapshot runId _ => runId
  | .complete runId => runId

namespace RedisStreamHub

/-- A copy of a published message, with its number and the instance that has published it. -/
structure Copy (N : Type) where
  number : Nat
  origin : Nat
  message : RedisHubMessage N

/-- What `stream(runId)` has returned on an instance: the number of messages published by then, and what it has
emitted since. -/
structure Subscriber (N : Type) where
  place : Nat
  runId : String
  since : Nat
  received : List (Copy N) := []

/-- The published messages, those on their way to each instance, and the subscribers. -/
structure State (N : Type) where
  published : List (Copy N) := []
  channels : List (List (Copy N))
  subscribers : List (Subscriber N) := []

def State.initial (instances : Nat) : State N := { channels := List.replicate instances [] }

inductive Action (N : Type) where
  /-- `publishEvent`, `publishSnapshot` or `complete` on instance `i`. -/
  | publish (i : Nat) (message : RedisHubMessage N)
  /-- `on message`, for the next message of the channel. -/
  | onMessage (i : Nat)
  | stream (i : Nat) (runId : String)
  /-- Subscriber `k` leaves. -/
  | unsubscribe (k : Nat)

/-- `stream(runId)` emits the messages of the run. -/
def Subscriber.wants (u : Subscriber N) (c : Copy N) : Bool := c.message.runId = u.runId

/-- `localSubject.next(msg)` on instance `i` -/
def emit (i : Nat) (c : Copy N) (u : Subscriber N) : Subscriber N :=
  if u.place = i ∧ u.wants c then { u with received := u.received ++ [c] } else u

/-- `publish` -/
def State.publish (s : State N) (i : Nat) (message : RedisHubMessage N) : State N :=
  let c : Copy N := ⟨s.published.length, i, message⟩
  { published := s.published ++ [c]
    channels := s.channels.map (· ++ [c])
    subscribers := s.subscribers.map (emit i c) }

def next (s : State N) : Action N → Option (State N)
  | .publish i message => if i < s.channels.length then some (s.publish i message) else none
  | .onMessage i =>
    match s.channels[i]? with
    | some (c :: rest) =>
      some { s with channels := s.channels.set i rest, subscribers := s.subscribers.map (emit i c) }
    | _ => none
  | .stream i runId =>
    if i < s.channels.length then
      some { s with subscribers := s.subscribers ++ [{ place := i, runId, since := s.published.length }] }
    else none
  | .unsubscribe k => some { s with subscribers := s.subscribers.eraseIdx k }

def machine : Machine (State N) (Action N) where
  start s := ∃ instances, s = .initial instances
  next := next

/-! ### What a subscriber observes -/

/-- The messages of its run that have been published after it has subscribed. -/
def State.expected (s : State N) (u : Subscriber N) : List (Copy N) :=
  s.published.filter fun c => u.wants c && u.since ≤ c.number

/-- Those that it has observed. -/
def Subscriber.observed (u : Subscriber N) : List (Copy N) := u.received.filter fun c => u.since ≤ c.number

/-- The channel of an instance. -/
def State.channel (s : State N) (i : Nat) : List (Copy N) := s.channels[i]?.getD []

/-- Every subscriber observes the messages once and in the order in which they are published: so far the first ones,
and all of them when nothing is on its way. -/
def DeliversOnce (s : State N) : Prop :=
  ∀ u ∈ s.subscribers, u.observed <+: s.expected u ∧ (s.channel u.place = [] → u.observed = s.expected u)

/-- An instance publishes a message of a run when its subscribers of the run wait for no message of another instance,
and a message comes back to it when none of its subscribers was there when it was published. -/
def OthersOnly (s : State N) : Action N → Prop
  | .publish i message => ∀ u ∈ s.subscribers, u.place = i → u.runId = message.runId →
      ∀ c ∈ s.channel i, u.wants c → u.since ≤ c.number → c.origin = i
  | .onMessage i => ∀ c ∈ (s.channel i).head?, c.origin = i →
      ∀ u ∈ s.subscribers, u.place = i → u.wants c → c.number < u.since
  | _ => True

/-! ### Copies -/

variable {i : Nat} {c : Copy N} {u : Subscriber N} {s t : State N}

@[simp] theorem emit_place : (emit i c u).place = u.place := by
  unfold emit
  split <;> rfl

@[simp] theorem emit_since : (emit i c u).since = u.since := by
  unfold emit
  split <;> rfl

@[simp] theorem emit_runId : (emit i c u).runId = u.runId := by
  unfold emit
  split <;> rfl

@[simp] theorem emit_wants (c' : Copy N) : (emit i c u).wants c' = u.wants c' := by
  simp [Subscriber.wants]

private theorem observed_emit_of_not (h : ¬ (u.place = i ∧ u.wants c ∧ u.since ≤ c.number)) :
    (emit i c u).observed = u.observed := by
  unfold emit Subscriber.observed
  split
  · rename_i hemit
    have hlt : ¬ u.since ≤ c.number := fun hle => h ⟨hemit.1, hemit.2, hle⟩
    simp [hlt]
  · rfl

private theorem observed_emit (hplace : u.place = i) (hwants : u.wants c) (hsince : u.since ≤ c.number) :
    (emit i c u).observed = u.observed ++ [c] := by
  unfold emit Subscriber.observed
  rw [if_pos ⟨hplace, hwants⟩]
  simp [hsince]

/-- The messages of other instances that a subscriber waits for. -/
def State.waiting (s : State N) (u : Subscriber N) : List (Copy N) :=
  (s.channel u.place).filter fun c => u.wants c && u.since ≤ c.number && c.origin ≠ u.place

@[simp] theorem expected_emit : s.expected (emit i c u) = s.expected u := by
  simp [State.expected]

@[simp] theorem waiting_emit : s.waiting (emit i c u) = s.waiting u := by
  simp [State.waiting]

/-- A subscriber has observed what it waits for no longer. -/
structure Inv (s : State N) : Prop where
  published : ∀ c ∈ s.published, c.number < s.published.length
  channels : ∀ i, ∀ c ∈ s.channel i, c.number < s.published.length
  place : ∀ u ∈ s.subscribers, u.place < s.channels.length
  since : ∀ u ∈ s.subscribers, u.since ≤ s.published.length
  observed : ∀ u ∈ s.subscribers, u.observed ++ s.waiting u = s.expected u

private theorem inv_initial (instances : Nat) : Inv (.initial instances : State N) where
  published := by simp [State.initial]
  channels := by
    intro i c hc
    simp only [State.channel, State.initial, List.getElem?_replicate] at hc
    split at hc <;> simp at hc
  place := by simp [State.initial]
  since := by simp [State.initial]
  observed := by simp [State.initial]

private theorem Inv.deliversOnce (h : Inv s) : DeliversOnce s := by
  intro u hu
  have hobserved := h.observed u hu
  refine ⟨⟨_, hobserved⟩, fun hempty => ?_⟩
  have hwaiting : s.waiting u = [] := by simp [State.waiting, hempty]
  rw [hwaiting, List.append_nil] at hobserved
  exact hobserved

private theorem next_cases {a : Action N} (h : next s a = some t) :
    (∃ i message, a = .publish i message ∧ i < s.channels.length ∧ t = s.publish i message) ∨
      (∃ i c rest, a = .onMessage i ∧ s.channels[i]? = some (c :: rest) ∧
        t = { s with channels := s.channels.set i rest, subscribers := s.subscribers.map (emit i c) }) ∨
      (∃ i runId, a = .stream i runId ∧ i < s.channels.length ∧
        t = { s with subscribers := s.subscribers ++ [{ place := i, runId, since := s.published.length }] }) ∨
      ∃ k, a = .unsubscribe k ∧ t = { s with subscribers := s.subscribers.eraseIdx k } := by
  cases a with
  | publish i message =>
    simp only [next] at h
    split at h
    · rename_i hi
      exact .inl ⟨i, message, rfl, hi, (Option.some.inj h).symm⟩
    · exact absurd h nofun
  | onMessage i =>
    simp only [next] at h
    split at h
    · rename_i c rest hchannel
      exact .inr (.inl ⟨i, c, rest, rfl, hchannel, (Option.some.inj h).symm⟩)
    · exact absurd h nofun
  | stream i runId =>
    simp only [next] at h
    split at h
    · rename_i hi
      exact .inr (.inr (.inl ⟨i, runId, rfl, hi, (Option.some.inj h).symm⟩))
    · exact absurd h nofun
  | unsubscribe k => exact .inr (.inr (.inr ⟨k, rfl, (Option.some.inj h).symm⟩))

/-! ### Publishing -/

section Publish

variable {message : RedisHubMessage N}

private theorem channel_publish {j : Nat} (hj : j < s.channels.length) :
    (s.publish i message).channel j = s.channel j ++ [⟨s.published.length, i, message⟩] := by
  simp [State.channel, State.publish, hj]

/-- The numbers of the copies stay below the next one. -/
theorem number_lt_of_mem_concat {copies : List (Copy N)} (h : ∀ c ∈ copies, c.number < s.published.length) :
    ∀ c ∈ copies ++ [⟨s.published.length, i, message⟩], c.number < (s.publish i message).published.length := by
  intro c hc
  simp only [State.publish, List.length_append, List.length_singleton]
  rcases List.mem_append.1 hc with hc | hc
  · exact Nat.lt_succ_of_lt (h c hc)
  · rw [List.mem_singleton.1 hc]
    exact Nat.lt_succ_self _

private theorem expected_publish (hsince : u.since ≤ s.published.length) : (s.publish i message).expected u =
    s.expected u ++ [(⟨s.published.length, i, message⟩ : Copy N)].filter u.wants := by
  simp only [State.expected, State.publish, List.filter_append]
  congr 1
  apply List.filter_congr
  intro c hc
  obtain rfl := List.mem_singleton.1 hc
  simp [hsince]

private theorem waiting_publish (hplace : u.place < s.channels.length) (hsince : u.since ≤ s.published.length) :
    (s.publish i message).waiting u =
      s.waiting u ++ [(⟨s.published.length, i, message⟩ : Copy N)].filter fun c => u.wants c && i ≠ u.place := by
  simp only [State.waiting, channel_publish hplace, List.filter_append]
  congr 1
  apply List.filter_congr
  intro c hc
  obtain rfl := List.mem_singleton.1 hc
  simp [hsince]

/-- A message that a subscriber observes next is the one that it waits for. -/
theorem mem_waiting_of_prefix (h : Inv s) (hu : u ∈ s.subscribers) {rest : List (Copy N)}
    (hbegin : u.observed ++ [c] <+: s.expected u ++ rest) (hne : s.waiting u ≠ []) : c ∈ s.waiting u := by
  rw [← h.observed u hu, List.append_assoc, List.prefix_append_right_inj] at hbegin
  cases hwaiting : s.waiting u with
  | nil => exact absurd hwaiting hne
  | cons c' others =>
    rw [hwaiting, List.cons_append, List.cons_prefix_cons] at hbegin
    rw [hbegin.1]
    exact List.mem_cons_self

/-- A message that reaches the local subscribers in its turn finds them waiting for no message of another instance. -/
theorem othersOnly_publish (h : Inv s) (hdelivers : DeliversOnce (s.publish i message)) :
    OthersOnly s (.publish i message) := by
  intro u hu hplace hrun c hc hwants hsince
  by_contra hother
  have hmem : c ∈ s.waiting u := by
    subst hplace
    simp [State.waiting, hc, hwants, hsince, hother]
  have hnew := (hdelivers _ (List.mem_map_of_mem hu)).1
  have hwantsNew : u.wants ⟨s.published.length, i, message⟩ = true := by
    simp [Subscriber.wants, hrun]
  rw [observed_emit hplace hwantsNew (h.since u hu), expected_emit, expected_publish (h.since u hu)] at hnew
  have hmemNew := mem_waiting_of_prefix h hu hnew (List.ne_nil_of_mem hmem)
  have hlt := h.channels _ _ (List.mem_of_mem_filter hmemNew)
  exact absurd hlt (Nat.lt_irrefl _)

/-- A message that is published reaches the local subscribers in its turn when they wait for no other. -/
theorem Inv.publish (h : Inv s) (hothers : OthersOnly s (.publish i message)) : Inv (s.publish i message) := by
  refine ⟨?_, ?_, ?_, ?_, ?_⟩
  · exact number_lt_of_mem_concat h.published
  · intro j c hc
    by_cases hj : j < s.channels.length
    · rw [channel_publish hj] at hc
      exact number_lt_of_mem_concat (h.channels j) c hc
    · simp [State.channel, State.publish, hj] at hc
  · intro u' hu'
    obtain ⟨u, hu, rfl⟩ := List.mem_map.1 hu'
    rw [emit_place]
    simpa [State.publish] using h.place u hu
  · intro u' hu'
    obtain ⟨u, hu, rfl⟩ := List.mem_map.1 hu'
    rw [emit_since]
    simp only [State.publish, List.length_append, List.length_singleton]
    exact Nat.le_succ_of_le (h.since u hu)
  · intro u' hu'
    obtain ⟨u, hu, rfl⟩ := List.mem_map.1 hu'
    have hsince := h.since u hu
    rw [waiting_emit, expected_emit, expected_publish hsince, waiting_publish (h.place u hu) hsince,
      ← h.observed u hu]
    by_cases hwants : u.wants ⟨s.published.length, i, message⟩ = true
    · by_cases hplace : u.place = i
      · have hrun : u.runId = message.runId := by simpa [Subscriber.wants, eq_comm] using hwants
        have hnone : s.waiting u = [] := by
          apply List.filter_eq_nil_iff.2
          intro c hc hwaits
          simp only [Bool.and_eq_true, decide_eq_true_eq] at hwaits
          subst hplace
          exact hwaits.2 (hothers u hu rfl hrun c hc hwaits.1.1 hwaits.1.2)
        rw [observed_emit hplace hwants hsince, hnone]
        simp [hwants, hplace]
      · rw [observed_emit_of_not fun hemit => hplace hemit.1]
        simp [hwants, Ne.symm hplace]
    · rw [observed_emit_of_not fun hemit => hwants hemit.2.1]
      simp [hwants]

end Publish

/-! ### Messages of the channel -/

section Message

variable {rest : List (Copy N)}

private theorem channel_set {j : Nat} (hchannel : s.channels[i]? = some (c :: rest))
    (subscribers : List (Subscriber N)) :
    ({ s with channels := s.channels.set i rest, subscribers } : State N).channel j =
      if j = i then rest else s.channel j := by
  unfold State.channel
  split
  · rename_i hj
    rw [hj, Callers.getElem?_set_self_of_some hchannel, Option.getD_some]
  · rename_i hj
    rw [List.getElem?_set_ne (Ne.symm hj)]

private theorem expected_set (channels : List (List (Copy N))) (subscribers : List (Subscriber N)) :
    ({ s with channels, subscribers } : State N).expected u = s.expected u := rfl

/-- A message that comes back and is observed once has been observed by no subscriber before. -/
theorem othersOnly_onMessage (h : Inv s) (hchannel : s.channels[i]? = some (c :: rest))
    (hdelivers : DeliversOnce
      { s with channels := s.channels.set i rest, subscribers := s.subscribers.map (emit i c) }) :
    OthersOnly s (.onMessage i) := by
  have hqueue : s.channel i = c :: rest := by simp [State.channel, hchannel]
  intro c' hc' horigin u hu hplace hwants
  obtain rfl : c = c' := by simpa [hqueue] using hc'
  by_contra hlt
  have hsince := Nat.not_lt.1 hlt
  have hnew := (hdelivers _ (List.mem_map_of_mem hu)).1
  rw [observed_emit hplace hwants hsince, expected_emit, expected_set] at hnew
  have hne : s.waiting u ≠ [] := by
    intro hnil
    have hobserved := h.observed u hu
    rw [hnil, List.append_nil] at hobserved
    have hlength := hnew.length_le
    rw [← hobserved, List.length_append] at hlength
    exact absurd hlength (Nat.not_succ_le_self _)
  have hbegin : u.observed ++ [c] <+: s.expected u ++ [] := by rwa [List.append_nil]
  have hmem := mem_waiting_of_prefix h hu hbegin hne
  have hother := (List.mem_filter.1 hmem).2
  simp [horigin, hplace] at hother

/-- A message that comes back reaches a subscriber for the first time when another instance has published it. -/
theorem Inv.onMessage (h : Inv s) (hchannel : s.channels[i]? = some (c :: rest))
    (hothers : OthersOnly s (.onMessage i)) :
    Inv { s with channels := s.channels.set i rest, subscribers := s.subscribers.map (emit i c) } := by
  have hqueue : s.channel i = c :: rest := by simp [State.channel, hchannel]
  refine ⟨h.published, ?_, ?_, ?_, ?_⟩
  · intro j c' hc'
    rw [channel_set hchannel] at hc'
    split at hc'
    · exact h.channels i c' (hqueue ▸ List.mem_cons_of_mem _ hc')
    · exact h.channels j c' hc'
  · intro u' hu'
    obtain ⟨u, hu, rfl⟩ := List.mem_map.1 hu'
    rw [emit_place, List.length_set]
    exact h.place u hu
  · intro u' hu'
    obtain ⟨u, hu, rfl⟩ := List.mem_map.1 hu'
    rw [emit_since]
    exact h.since u hu
  · intro u' hu'
    obtain ⟨u, hu, rfl⟩ := List.mem_map.1 hu'
    have hobserved := h.observed u hu
    rw [waiting_emit, expected_emit, expected_set, ← hobserved]
    unfold State.waiting
    rw [channel_set hchannel]
    split
    · rename_i hplace
      rw [hplace, hqueue, List.filter_cons]
      by_cases hemit : u.wants c = true ∧ u.since ≤ c.number
      · have horigin : c.origin ≠ i := by
          intro horigin
          have hlt := hothers c (by simp [hqueue]) horigin u hu hplace hemit.1
          exact absurd hemit.2 (Nat.not_le.2 hlt)
        rw [observed_emit hplace hemit.1 hemit.2]
        simp [hemit.1, hemit.2, horigin]
      · rw [observed_emit_of_not fun hnot => hemit hnot.2]
        have hskip : ¬ (u.wants c && decide (u.since ≤ c.number) && decide (c.origin ≠ i)) = true := by
          simp only [Bool.and_eq_true, decide_eq_true_eq]
          exact fun hwaits => hemit hwaits.1
        rw [if_neg hskip]
    · rename_i hplace
      rw [observed_emit_of_not fun hnot => hplace hnot.1]

end Message

/-! ### Runs -/

private theorem step_inv {a : Action N} (h : Inv s) (ha : next s a = some t) :
    (DeliversOnce t → OthersOnly s a) ∧ (OthersOnly s a → Inv t) := by
  rcases next_cases ha with ⟨i, message, rfl, -, rfl⟩ | ⟨i, c, rest, rfl, hchannel, rfl⟩ | ⟨i, runId, rfl, hi, rfl⟩ |
    ⟨k, rfl, rfl⟩
  · exact ⟨othersOnly_publish h, h.publish⟩
  · exact ⟨othersOnly_onMessage h hchannel, h.onMessage hchannel⟩
  · refine ⟨fun _ => trivial, fun _ => ⟨h.published, h.channels, ?_, ?_, ?_⟩⟩
    · intro u hu
      rcases List.mem_append.1 hu with hu | hu
      · exact h.place u hu
      · rw [List.mem_singleton.1 hu]
        exact hi
    · intro u hu
      rcases List.mem_append.1 hu with hu | hu
      · exact h.since u hu
      · rw [List.mem_singleton.1 hu]
    · intro u hu
      rcases List.mem_append.1 hu with hu | hu
      · exact h.observed u hu
      · have hwaiting : s.waiting ⟨i, runId, s.published.length, []⟩ = [] := by
          apply List.filter_eq_nil_iff.2
          intro c hc
          have hlt := h.channels i c hc
          simp [Nat.not_le.2 hlt]
        have hexpected : s.expected ⟨i, runId, s.published.length, []⟩ = [] := by
          apply List.filter_eq_nil_iff.2
          intro c hc
          have hlt := h.published c hc
          simp [Nat.not_le.2 hlt]
        rw [List.mem_singleton.1 hu]
        exact hwaiting.trans hexpected.symm
  · refine ⟨fun _ => trivial, fun _ => ⟨h.published, h.channels, ?_, ?_, ?_⟩⟩
    · exact fun u hu => h.place u (List.mem_of_mem_eraseIdx hu)
    · exact fun u hu => h.since u (List.mem_of_mem_eraseIdx hu)
    · exact fun u hu => h.observed u (List.mem_of_mem_eraseIdx hu)

/-- In a run of the hubs every message is delivered once and in order, at any time, exactly when the messages come from
other instances. -/
theorem deliversOnce_iff {instances : Nat} {as : List (Action N)} {s : State N}
    (h : machine.exec (.initial instances) as = some s) :
    (∀ bs t, bs <+: as → machine.exec (.initial instances) bs = some t → DeliversOnce t) ↔
      machine.Throughout OthersOnly (.initial instances) as :=
  Machine.throughout_iff_of_step (fun _ hs => hs.deliversOnce) (fun _ _ _ hs ha => step_inv hs ha)
    (inv_initial instances) h

/-! ### Two instances -/

/-- A run completes on instance 1, which has no subscriber, or on instance 0, which has one. -/
def completion (i : Nat) : List (Action (Option Rat)) :=
  [.stream 0 "r1", .publish i (.complete "r1"), .onMessage 0, .onMessage 1]

def afterCompletion (i : Nat) : State (Option Rat) :=
  ((machine.exec (.initial 2) (completion i)).getD (.initial 2))

theorem deliversOnce_remote : machine.exec (.initial 2) (completion 1) = some (afterCompletion 1) ∧
    ∀ bs t, bs <+: completion 1 → machine.exec (.initial 2) bs = some t → DeliversOnce t := by
  have hexec : machine.exec (.initial 2) (completion 1) = some (afterCompletion 1) := rfl
  refine ⟨hexec, (deliversOnce_iff hexec).2 ?_⟩
  refine .cons trivial rfl (.cons ?_ rfl (.cons ?_ rfl (.cons ?_ rfl trivial)))
  · intro u hu hplace
    rw [List.mem_singleton.1 hu] at hplace
    exact absurd hplace (by decide)
  · intro c hc horigin
    rw [← Option.some.inj hc] at horigin
    exact absurd horigin (by decide)
  · intro c hc horigin u hu hplace
    rw [List.mem_singleton.1 hu] at hplace
    exact absurd hplace (by decide)

/-- A local subscriber observes the message twice. -/
theorem not_deliversOnce_local : machine.exec (.initial 2) (completion 0) = some (afterCompletion 0) ∧
    ¬ DeliversOnce (afterCompletion 0) := by
  refine ⟨rfl, fun h => ?_⟩
  have hbegin := (h _ List.mem_cons_self).1
  exact absurd hbegin.length_le (by decide)

end RedisStreamHub

end MacpControlPlane

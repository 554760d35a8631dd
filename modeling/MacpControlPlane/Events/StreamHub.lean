import MacpControlPlane.Contracts

/-!
# The in-memory stream hub (`events/memory-stream-hub.strategy.ts`)

The part of the hub that belongs to one run.  The observers of its subject are the clients that have subscribed and not
left; `subscriberCounts` counts them, and the subject is given up a minute after the last of them has left.
-/

namespace MacpControlPlane

variable {N : Type}

/-- `StreamHubMessage` -/
inductive StreamHubMessage (N : Type) where
  | canonicalEvent (event : CanonicalEvent N)
  | snapshot (state : RunStateProjection N)

/-- The canonical event of a message. -/
def StreamHubMessage.event? : StreamHubMessage N → Option (CanonicalEvent N)
  | .canonicalEvent event => some event
  | .snapshot _ => none

/-- `(msg.data as CanonicalEvent)?.seq`: a projection has no such field. -/
def StreamHubMessage.seq (msg : StreamHubMessage N) : Option Nat := msg.event?.map (·.seq)

/-- The canonical events among messages. -/
def canonicalEvents (msgs : List (StreamHubMessage N)) : List (CanonicalEvent N) :=
  msgs.filterMap StreamHubMessage.event?

@[simp] theorem canonicalEvents_append (xs ys : List (StreamHubMessage N)) :
    canonicalEvents (xs ++ ys) = canonicalEvents xs ++ canonicalEvents ys :=
  List.filterMap_append

@[simp] theorem canonicalEvents_map (events : List (CanonicalEvent N)) :
    canonicalEvents (events.map .canonicalEvent) = events := by
  rw [canonicalEvents, List.filterMap_map]
  exact List.filterMap_some

/-- The entries of a run in `subjects`, `subscriberCounts` and `cleanupTimers`. -/
structure StreamHub where
  subject : Bool := false
  subscriberCount : Option Int := none
  cleanupTimer : Bool := false

namespace StreamHub

def getSubject (hub : StreamHub) : StreamHub := { hub with subject := true }

/-- `stream`, and the subscription to what it returns. -/
def stream (hub : StreamHub) : StreamHub where
  subject := true
  subscriberCount := some (hub.subscriberCount.getD 0 + 1)
  cleanupTimer := false

/-- The teardown of a subscription, with `scheduleCleanup`. -/
def unsubscribe (hub : StreamHub) : StreamHub :=
  let count := hub.subscriberCount.getD 1 - 1
  { hub with subscriberCount := some count, cleanupTimer := hub.cleanupTimer || count ≤ 0 }

/-- `complete`.  The teardowns of the observers come first, and what they leave behind is deleted after them. -/
def complete (hub : StreamHub) : StreamHub where
  subject := false
  subscriberCount := if hub.subject then none else hub.subscriberCount
  cleanupTimer := false

/-- The cleanup timer gives up the subject. -/
def abandons (hub : StreamHub) : Bool := hub.subscriberCount.getD 0 ≤ 0 && hub.subject

/-- The cleanup timer fires. -/
def cleanup (hub : StreamHub) : StreamHub :=
  if hub.abandons then {} else { hub with cleanupTimer := false }

/-- `n` clients observe the subject, and the timer runs only when there are none. -/
structure Counts (hub : StreamHub) (n : Nat) : Prop where
  count : hub.subscriberCount.getD 0 = n
  subject : hub.subject = false → n = 0
  timer : hub.cleanupTimer = true → n = 0

variable {hub : StreamHub} {n : Nat}

theorem Counts.getSubject (h : hub.Counts n) : hub.getSubject.Counts n where
  count := h.count
  subject hnone := absurd hnone (by simp [StreamHub.getSubject])
  timer := h.timer

theorem Counts.stream (h : hub.Counts n) : hub.stream.Counts (n + 1) where
  count := by
    have := h.count
    simp only [StreamHub.stream, Option.getD_some]
    omega
  subject hnone := absurd hnone (by simp [StreamHub.stream])
  timer hsome := absurd hsome (by simp [StreamHub.stream])

theorem Counts.unsubscribe (h : hub.Counts (n + 1)) : hub.unsubscribe.Counts n := by
  have hcount := h.count
  obtain ⟨subject, subscriberCount, cleanupTimer⟩ := hub
  cases subscriberCount with
  | none =>
    simp only [Option.getD_none] at hcount
    omega
  | some count =>
    simp only [Option.getD_some] at hcount
    refine ⟨?_, fun hnone => absurd (h.subject hnone) (by omega), ?_⟩
    · simp only [StreamHub.unsubscribe, Option.getD_some]
      omega
    · intro htimer
      simp only [StreamHub.unsubscribe, Option.getD_some, Bool.or_eq_true, decide_eq_true_eq] at htimer
      rcases htimer with htimer | hle
      · exact absurd (h.timer htimer) (by omega)
      · omega

theorem Counts.complete (h : hub.Counts n) : hub.complete.Counts 0 := by
  refine ⟨?_, fun _ => rfl, fun _ => rfl⟩
  cases hsubject : hub.subject with
  | true => simp [StreamHub.complete, hsubject]
  | false =>
    have hnone := h.subject hsubject
    have hcount := h.count
    simp only [StreamHub.complete, hsubject, Bool.false_eq_true, if_false]
    omega

/-- The timer gives up the subject only when nobody observes it. -/
theorem Counts.cleanup (h : hub.Counts n) (htimer : hub.cleanupTimer = true) : n = 0 ∧ hub.cleanup.Counts 0 := by
  have hn := h.timer htimer
  subst hn
  refine ⟨rfl, ?_⟩
  unfold StreamHub.cleanup
  split
  · exact ⟨rfl, fun _ => rfl, fun _ => rfl⟩
  · exact ⟨h.count, fun _ => rfl, fun _ => rfl⟩

end StreamHub

end MacpControlPlane

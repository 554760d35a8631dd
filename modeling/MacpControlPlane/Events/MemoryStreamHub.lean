import Mathlib.Data.List.Nodup
import Mathlib.Logic.Function.Basic
import MacpControlPlane.Lib.Machine
import MacpControlPlane.Events.StreamHub

/-!
# The in-memory stream hub, with all its runs (`events/memory-stream-hub.strategy.ts`)

The three maps of the hub, the timers that have been set, and the clients that have subscribed.  Subjects and timers
have identities of their own, so that a client can be left on a subject that the hub has replaced, and a timer can fire
that the hub has lost sight of.  Completing a subject runs the teardowns of its observers, which count down and
set timers before the hub deletes its entries.
-/

namespace MacpControlPlane

variable {N : Type}

namespace MemoryStreamHub

/-- A subscription to what `stream` has returned, and what it has received. -/
structure Client (N : Type) where
  runId : String
  subject : Nat
  live : Bool
  received : List (StreamHubMessage N)

/-- A timer of `scheduleCleanup` that has been set, and neither cleared nor fired. -/
structure Timer where
  id : Nat
  runId : String

/-- The hub and its clients. -/
structure Hub (N : Type) where
  subjects : List (String × Nat) := []
  subscriberCounts : String → Option Int := fun _ => none
  cleanupTimers : String → Option Nat := fun _ => none
  timers : List Timer := []
  /-- The subjects that have been completed. -/
  stopped : List Nat := []
  clients : List (Client N) := []
  /-- How many subjects and timers have been created. -/
  created : Nat := 0

variable (hub : Hub N)

namespace Hub

/-! ### Timers -/

def clearTimeout (timer : Nat) : Hub N := { hub with timers := hub.timers.filter (·.id ≠ timer) }

/-- Clear the timer of a run and forget it. -/
def dropTimer (runId : String) : Hub N :=
  match hub.cleanupTimers runId with
  | some timer => { hub.clearTimeout timer with cleanupTimers := Function.update hub.cleanupTimers runId none }
  | none => hub

def scheduleCleanup (runId : String) : Hub N :=
  let hub :=
    match hub.cleanupTimers runId with
    | some existing => hub.clearTimeout existing
    | none => hub
  { hub with
    timers := hub.timers ++ [⟨hub.created, runId⟩]
    cleanupTimers := Function.update hub.cleanupTimers runId (some hub.created)
    created := hub.created + 1 }

/-! ### Subjects -/

def getSubject (runId : String) : Nat × Hub N :=
  match hub.subjects.lookup runId with
  | some subject => (subject, hub)
  | none =>
    (hub.created, { hub with subjects := hub.subjects ++ [(runId, hub.created)], created := hub.created + 1 })

/-- The teardown of a subscription to the run. -/
def teardown (runId : String) : Hub N :=
  let count := (hub.subscriberCounts runId).getD 1 - 1
  let hub := { hub with subscriberCounts := Function.update hub.subscriberCounts runId (some count) }
  if count ≤ 0 then hub.scheduleCleanup runId else hub

/-- The subscription of a client ends, with its teardown. -/
def leave (i : Nat) : Hub N :=
  match hub.clients[i]? with
  | some client =>
    { hub with clients := hub.clients.set i { client with live := false } }.teardown client.runId
  | none => hub

/-- The clients that observe a subject. -/
def observers (subject : Nat) : List Nat :=
  (List.range hub.clients.length).filter fun i =>
    hub.clients[i]?.any fun client => client.live && client.subject = subject

/-- `subject.complete()`: each observer completes, one after the other. -/
def completeSubject (subject : Nat) : Hub N :=
  if subject ∈ hub.stopped then hub
  else (hub.observers subject).foldl leave { hub with stopped := hub.stopped ++ [subject] }

/-- Delete the subject and the count of a run. -/
def delete (runId : String) : Hub N :=
  { hub with
    subjects := hub.subjects.filter (·.1 ≠ runId)
    subscriberCounts := Function.update hub.subscriberCounts runId none }

/-- Complete and delete the subject of a run, if it has one. -/
def giveUp (runId : String) : Hub N :=
  match hub.subjects.lookup runId with
  | some subject => (hub.completeSubject subject).delete runId
  | none => hub

/-! ### The operations -/

/-- `stream`, and the subscription to what it returns. -/
def stream (runId : String) : Hub N :=
  let (subject, hub) := (hub.dropTimer runId).getSubject runId
  let hub :=
    { hub with
      subscriberCounts := Function.update hub.subscriberCounts runId (some ((hub.subscriberCounts runId).getD 0 + 1))
      clients := hub.clients ++ [⟨runId, subject, true, []⟩] }
  -- A subject that has been completed completes the new observer at once.
  if subject ∈ hub.stopped then hub.leave (hub.clients.length - 1) else hub

/-- `getSubject(runId).next(msg)` -/
def publish (runId : String) (msg : StreamHubMessage N) : Hub N :=
  let (subject, hub) := hub.getSubject runId
  if subject ∈ hub.stopped then hub
  else
    { hub with
      clients := hub.clients.map fun client =>
        if client.live && client.subject = subject then { client with received := client.received ++ [msg] }
        else client }

def publishEvent (event : CanonicalEvent N) : Hub N := hub.publish event.runId (.canonicalEvent event)

def publishSnapshot (runId : String) (snapshot : RunStateProjection N) : Hub N := hub.publish runId (.snapshot snapshot)

def complete (runId : String) : Hub N := (hub.giveUp runId).dropTimer runId

/-- The callback of a timer. -/
def cleanup (timer : Timer) : Hub N :=
  let hub :=
    { hub.clearTimeout timer.id with cleanupTimers := Function.update hub.cleanupTimers timer.runId none }
  if (hub.subscriberCounts timer.runId).getD 0 ≤ 0 then hub.giveUp timer.runId else hub

/-- `destroy`: a timer is filed under its own run. -/
def destroy : Hub N :=
  let hub := { hub with timers := hub.timers.filter fun timer => hub.cleanupTimers timer.runId ≠ some timer.id }
  let hub := hub.subjects.foldl (fun hub entry => hub.completeSubject entry.2) hub
  { hub with subjects := [], subscriberCounts := fun _ => none, cleanupTimers := fun _ => none }

end Hub

/-- What can happen next. -/
inductive Action (N : Type) where
  | stream (runId : String)
  /-- A client unsubscribes. -/
  | unsubscribe (client : Nat)
  | publishEvent (event : CanonicalEvent N)
  | publishSnapshot (runId : String) (snapshot : RunStateProjection N)
  | complete (runId : String)
  /-- A timer fires. -/
  | fire (timer : Nat)
  | destroy

def next : Action N → Option (Hub N)
  | .stream runId => some (hub.stream runId)
  | .unsubscribe i =>
    -- The teardown of a subscription runs once.
    if hub.clients[i]?.any (·.live) then some (hub.leave i) else none
  | .publishEvent event => some (hub.publishEvent event)
  | .publishSnapshot runId snapshot => some (hub.publishSnapshot runId snapshot)
  | .complete runId => some (hub.complete runId)
  | .fire timer => (hub.timers.find? (·.id = timer)).map hub.cleanup
  | .destroy => some hub.destroy

def machine (N : Type) : Machine (Hub N) (Action N) where
  start hub := hub = {}
  next := next

/-! ### What concerns timers alone -/

/-- The hubs differ at most in their timers. -/
structure OnlyTimers (hub hub' : Hub N) : Prop where
  subjects : hub'.subjects = hub.subjects
  subscriberCounts : hub'.subscriberCounts = hub.subscriberCounts
  stopped : hub'.stopped = hub.stopped
  clients : hub'.clients = hub.clients
  created : hub.created ≤ hub'.created

private theorem onlyTimers_dropTimer (runId : String) : OnlyTimers hub (hub.dropTimer runId) := by
  unfold Hub.dropTimer
  split <;> exact ⟨rfl, rfl, rfl, rfl, Nat.le_refl _⟩

private theorem onlyTimers_scheduleCleanup (runId : String) : OnlyTimers hub (hub.scheduleCleanup runId) := by
  unfold Hub.scheduleCleanup
  split <;> exact ⟨rfl, rfl, rfl, rfl, Nat.le_succ _⟩

/-! ### The counts -/

/-- How many clients of the run are live. -/
def Hub.liveCount (runId : String) : Nat := hub.clients.countP fun client => client.live && client.runId = runId

/-- Each run counts its live clients. -/
def Balanced : Prop := ∀ runId, (hub.subscriberCounts runId).getD 0 = hub.liveCount runId

/-- The client, with its subscription ended. -/
def Client.ended (client : Client N) : Client N := { client with live := false }

variable {hub} {hub' : Hub N} {i : Nat} {client : Client N}

private theorem Balanced.onlyTimers (h : Balanced hub) (htimers : OnlyTimers hub hub') : Balanced hub' := by
  intro runId
  unfold Hub.liveCount
  rw [htimers.subscriberCounts, htimers.clients]
  exact h runId

private theorem leave_eq (hclient : hub.clients[i]? = some client) :
    hub.leave i = { hub with clients := hub.clients.set i client.ended }.teardown client.runId := by
  unfold Hub.leave
  rw [hclient]
  rfl

/-- The hub after a teardown, but for its timers. -/
theorem onlyTimers_teardown (runId : String) :
    OnlyTimers
      { hub with
        subscriberCounts :=
          Function.update hub.subscriberCounts runId (some ((hub.subscriberCounts runId).getD 1 - 1)) }
      (hub.teardown runId) := by
  unfold Hub.teardown
  dsimp only
  split
  · exact onlyTimers_scheduleCleanup _ runId
  · exact ⟨rfl, rfl, rfl, rfl, Nat.le_refl _⟩

/-- A live client that leaves is no longer counted. -/
theorem Balanced.leave (h : Balanced hub) (hclient : hub.clients[i]? = some client) (hlive : client.live = true) :
    Balanced (hub.leave i) := by
  rw [leave_eq hclient]
  refine Balanced.onlyTimers (fun runId => ?_) (onlyTimers_teardown client.runId)
  obtain ⟨hi, rfl⟩ := List.getElem?_eq_some_iff.1 hclient
  have hset := List.countP_set (p := fun c : Client N => c.live && c.runId = runId) (a := hub.clients[i].ended) hi
  have hcount := h runId
  unfold Hub.liveCount at hcount ⊢
  dsimp only
  rw [hset]
  by_cases hrun : hub.clients[i].runId = runId
  · have hpos : 0 < hub.clients.countP fun c => c.live && c.runId = runId :=
      List.countP_pos_iff.2 ⟨hub.clients[i], List.getElem_mem hi, by simp [hlive, hrun]⟩
    rw [hrun, Function.update_self]
    cases hentry : hub.subscriberCounts runId with
    | none =>
      rw [hentry, Option.getD_none] at hcount
      omega
    | some count =>
      rw [hentry, Option.getD_some] at hcount
      simp [hlive, hrun, Client.ended]
      omega
  · rw [Function.update_of_ne (Ne.symm hrun), hcount]
    simp [hrun, Client.ended]

/-! ### Completing a subject -/

/-- Some clients have left. -/
structure Left (ids : List Nat) (hub hub' : Hub N) : Prop where
  subjects : hub'.subjects = hub.subjects
  stopped : hub'.stopped = hub.stopped
  created : hub.created ≤ hub'.created
  clients : ∀ i : Nat, hub'.clients[i]? = if i ∈ ids then hub.clients[i]?.map Client.ended else hub.clients[i]?
  balanced : Balanced hub'

private theorem left_leave (h : Balanced hub) (hclient : hub.clients[i]? = some client) (hlive : client.live = true) :
    Left [i] hub (hub.leave i) := by
  have hbalanced := h.leave hclient hlive
  rw [leave_eq hclient] at hbalanced ⊢
  have htimers := @onlyTimers_teardown N { hub with clients := hub.clients.set i client.ended } client.runId
  refine ⟨htimers.subjects, htimers.stopped, htimers.created, fun j => ?_, hbalanced⟩
  rw [htimers.clients, List.getElem?_set]
  by_cases hij : i = j
  · subst hij
    rw [if_pos rfl, if_pos (List.getElem?_eq_some_iff.1 hclient).1, if_pos (List.mem_singleton.2 rfl), hclient]
    rfl
  · rw [if_neg hij, if_neg fun hmem => hij (List.mem_singleton.1 hmem).symm]

/-- Live clients leave one after the other. -/
theorem left_foldl {ids : List Nat} (h : Balanced hub) (hnodup : ids.Nodup)
    (hlive : ∀ i ∈ ids, ∃ client, hub.clients[i]? = some client ∧ client.live = true) :
    Left ids hub (ids.foldl Hub.leave hub) := by
  induction ids generalizing hub with
  | nil => exact ⟨rfl, rfl, Nat.le_refl _, fun i => by simp, h⟩
  | cons j ids ih =>
    obtain ⟨hj, hnodup⟩ := List.nodup_cons.1 hnodup
    obtain ⟨⟨client, hclient, hclientLive⟩, hrest⟩ := List.forall_mem_cons.1 hlive
    have hleft := left_leave h hclient hclientLive
    have hstill : ∀ i ∈ ids, ∃ client, (hub.leave j).clients[i]? = some client ∧ client.live = true := by
      intro i hi
      have hne : i ∉ [j] := by
        rintro hij
        exact hj (List.mem_singleton.1 hij ▸ hi)
      rw [hleft.clients, if_neg hne]
      exact hrest i hi
    have hall := ih hleft.balanced hnodup hstill
    refine ⟨hall.subjects.trans hleft.subjects, hall.stopped.trans hleft.stopped,
      Nat.le_trans hleft.created hall.created, fun i => ?_, hall.balanced⟩
    rw [List.foldl_cons, hall.clients, hleft.clients]
    by_cases hij : i = j
    · subst hij
      simp [hj]
    · simp [hij]

private theorem mem_observers {subject : Nat} :
    i ∈ hub.observers subject ↔
      ∃ client, hub.clients[i]? = some client ∧ client.live = true ∧ client.subject = subject := by
  unfold Hub.observers
  rw [List.mem_filter, List.mem_range]
  constructor
  · rintro ⟨hi, hany⟩
    rw [List.getElem?_eq_getElem hi] at hany ⊢
    exact ⟨_, rfl, by simpa using hany⟩
  · rintro ⟨client, hclient, hlive, hsubject⟩
    refine ⟨(List.getElem?_eq_some_iff.1 hclient).1, ?_⟩
    rw [hclient]
    simp [hlive, hsubject]

/-- A client when a subject completes. -/
def Client.completed (subject : Nat) (client : Client N) : Client N :=
  if client.live && client.subject = subject then client.ended else client

/-- The observers of a subject that is completed have left, and all is counted. -/
theorem completeSubject_spec {subject : Nat} (h : Balanced hub) (hopen : subject ∉ hub.stopped) :
    (hub.completeSubject subject).subjects = hub.subjects ∧
      (hub.completeSubject subject).stopped = hub.stopped ++ [subject] ∧
      hub.created ≤ (hub.completeSubject subject).created ∧
      (hub.completeSubject subject).clients = hub.clients.map (Client.completed subject) ∧
      Balanced (hub.completeSubject subject) := by
  have hleft : Left (hub.observers subject) { hub with stopped := hub.stopped ++ [subject] }
      (hub.completeSubject subject) := by
    unfold Hub.completeSubject
    rw [if_neg hopen]
    refine left_foldl h (List.nodup_range.filter _) fun i hi => ?_
    obtain ⟨client, hclient, hlive, -⟩ := mem_observers.1 hi
    exact ⟨client, hclient, hlive⟩
  refine ⟨hleft.subjects, hleft.stopped, hleft.created, List.ext_getElem? fun i => ?_, hleft.balanced⟩
  rw [hleft.clients, List.getElem?_map]
  cases hclient : hub.clients[i]? with
  | none => simp
  | some client =>
    by_cases hobserves : client.live = true ∧ client.subject = subject
    · have hmem : i ∈ hub.observers subject := mem_observers.2 ⟨client, hclient, hobserves⟩
      rw [if_pos hmem]
      simp [Client.completed, hobserves]
    · have hnot : i ∉ hub.observers subject := by
        intro hmem
        obtain ⟨other, hother, hboth⟩ := mem_observers.1 hmem
        rw [hclient] at hother
        exact hobserves (Option.some.inj hother ▸ hboth)
      rw [if_neg hnot]
      simp [Client.completed, hobserves]

/-! ### The invariant -/

/-- Each run counts its live clients, and a live client observes the subject of its run, which no other run has. -/
structure Inv (hub : Hub N) : Prop where
  balanced : Balanced hub
  attached : ∀ client ∈ hub.clients, client.live = true → hub.subjects.lookup client.runId = some client.subject
  distinct : (hub.subjects.map Prod.snd).Nodup
  fresh : ∀ entry ∈ hub.subjects, entry.2 < hub.created
  unstopped : ∀ entry ∈ hub.subjects, entry.2 ∉ hub.stopped
  created : ∀ subject ∈ hub.stopped, subject < hub.created

private theorem inv_initial : Inv ({} : Hub N) := by
  constructor
  · exact fun _ => rfl
  all_goals simp

private theorem Inv.onlyTimers (h : Inv hub) (htimers : OnlyTimers hub hub') : Inv hub' where
  balanced := h.balanced.onlyTimers htimers
  attached := by
    rw [htimers.clients, htimers.subjects]
    exact h.attached
  distinct := by
    rw [htimers.subjects]
    exact h.distinct
  fresh := by
    rw [htimers.subjects]
    exact fun entry hentry => Nat.lt_of_lt_of_le (h.fresh entry hentry) htimers.created
  unstopped := by
    rw [htimers.subjects, htimers.stopped]
    exact h.unstopped
  created := by
    rw [htimers.stopped]
    exact fun subject hsubject => Nat.lt_of_lt_of_le (h.created subject hsubject) htimers.created

/-- Two runs have no subject in common. -/
theorem Inv.runId_eq (h : Inv hub) {runId runId' : String} {subject : Nat}
    (hrun : hub.subjects.lookup runId = some subject) (hrun' : hub.subjects.lookup runId' = some subject) :
    runId = runId' :=
  congrArg Prod.fst
    (List.inj_on_of_nodup_map h.distinct (Js.mem_of_lookup hrun) (Js.mem_of_lookup hrun') rfl)

/-- A client that leaves takes nothing with it. -/
theorem Inv.leave (h : Inv hub) (hclient : hub.clients[i]? = some client) (hlive : client.live = true) :
    Inv (hub.leave i) := by
  have hleft := left_leave h.balanced hclient hlive
  refine ⟨hleft.balanced, ?_, ?_, ?_, ?_, ?_⟩
  · intro other hother hotherLive
    obtain ⟨j, hj⟩ := List.getElem?_of_mem hother
    rw [hleft.clients] at hj
    rw [hleft.subjects]
    split at hj
    · obtain ⟨before, -, rfl⟩ := Option.map_eq_some_iff.1 hj
      cases hotherLive
    · exact h.attached other (List.mem_of_getElem? hj) hotherLive
  · rw [hleft.subjects]
    exact h.distinct
  · rw [hleft.subjects]
    exact fun entry hentry => Nat.lt_of_lt_of_le (h.fresh entry hentry) hleft.created
  · rw [hleft.subjects, hleft.stopped]
    exact h.unstopped
  · rw [hleft.stopped]
    exact fun subject hsubject => Nat.lt_of_lt_of_le (h.created subject hsubject) hleft.created

/-! ### Giving up the subject of a run -/

/-- A client when its run completes. -/
def Client.endedWith (runId : String) (client : Client N) : Client N :=
  if client.runId = runId then client.ended else client

private theorem Client.ended_of_not_live (h : client.live ≠ true) : client.ended = client := by
  obtain ⟨runId, subject, live, received⟩ := client
  obtain rfl : live = false := by simpa using h
  rfl

private theorem liveCount_eq_zero {runId : String}
    (h : ∀ client ∈ hub.clients, client.live = true → client.runId ≠ runId) : hub.liveCount runId = 0 := by
  refine List.countP_eq_zero.2 fun client hclient hboth => ?_
  rw [Bool.and_eq_true, decide_eq_true_eq] at hboth
  exact h client hclient hboth.1 hboth.2

/-- Without live clients of the run, no client ends with it. -/
theorem map_endedWith {runId : String} (h : ∀ client ∈ hub.clients, client.live = true → client.runId ≠ runId) :
    hub.clients.map (Client.endedWith runId) = hub.clients := by
  refine (List.map_congr_left fun client hclient => ?_).trans (List.map_id _)
  unfold Client.endedWith
  by_cases hrun : client.runId = runId
  · rw [if_pos hrun]
    exact Client.ended_of_not_live fun hlive => h client hclient hlive hrun
  · rw [if_neg hrun]
    rfl

/-- A run without a subject has no live clients. -/
theorem Inv.not_live (h : Inv hub) {runId : String} (hnone : hub.subjects.lookup runId = none) :
    ∀ client ∈ hub.clients, client.live = true → client.runId ≠ runId := by
  rintro client hclient hlive rfl
  rw [h.attached client hclient hlive] at hnone
  cases hnone

/-- Completing the subject of a run ends the clients of the run, and no others. -/
theorem Inv.completed_eq (h : Inv hub) {runId : String} {subject : Nat}
    (hsubject : hub.subjects.lookup runId = some subject) (hclient : client ∈ hub.clients) :
    client.completed subject = client.endedWith runId := by
  unfold Client.completed Client.endedWith
  by_cases hlive : client.live = true
  · have hattached := h.attached client hclient hlive
    by_cases hrun : client.runId = runId
    · rw [hrun, hsubject] at hattached
      simp [hlive, hrun, Option.some.inj hattached]
    · have hne : client.subject ≠ subject := by
        rintro rfl
        exact hrun (h.runId_eq hattached hsubject)
      simp [hrun, hne]
  · rw [Client.ended_of_not_live hlive, ite_self, ite_self]

private theorem giveUp_spec (h : Inv hub) (runId : String) :
    Inv (hub.giveUp runId) ∧ (hub.giveUp runId).clients = hub.clients.map (Client.endedWith runId) := by
  unfold Hub.giveUp
  cases hsubject : hub.subjects.lookup runId with
  | none =>
    exact ⟨h, (map_endedWith (h.not_live hsubject)).symm⟩
  | some subject =>
    have hmem := Js.mem_of_lookup hsubject
    obtain ⟨hsubjects, hstopped, hcreated, hclients, hbalanced⟩ :=
      completeSubject_spec h.balanced (h.unstopped _ hmem)
    have hmap : (hub.completeSubject subject).clients = hub.clients.map (Client.endedWith runId) :=
      hclients.trans (List.map_congr_left fun client hclient => h.completed_eq hsubject hclient)
    have hothers : ∀ client ∈ (hub.completeSubject subject).clients, client.live = true →
        client.runId ≠ runId ∧ client ∈ hub.clients := by
      intro client hclient hlive
      rw [hmap] at hclient
      obtain ⟨before, hbefore, rfl⟩ := List.mem_map.1 hclient
      by_cases hrun : before.runId = runId
      · rw [Client.endedWith, if_pos hrun] at hlive
        cases hlive
      · rw [Client.endedWith, if_neg hrun]
        exact ⟨hrun, hbefore⟩
    refine ⟨⟨fun r => ?_, ?_, ?_, ?_, ?_, ?_⟩, hmap⟩
    · show (Function.update (hub.completeSubject subject).subscriberCounts runId none r).getD 0 =
        ((hub.completeSubject subject).liveCount r : Int)
      by_cases hr : r = runId
      · subst hr
        rw [Function.update_self, liveCount_eq_zero fun client hclient hlive => (hothers client hclient hlive).1]
        rfl
      · rw [Function.update_of_ne hr]
        exact hbalanced r
    · intro client hclient hlive
      obtain ⟨hrun, hbefore⟩ := hothers client hclient hlive
      show (List.filter _ _).lookup _ = _
      rw [Js.lookup_filter_ne hrun, hsubjects]
      exact h.attached client hbefore hlive
    · show ((List.filter _ _).map Prod.snd).Nodup
      rw [hsubjects]
      exact h.distinct.sublist (List.filter_sublist.map _)
    · intro entry hentry
      have hbefore := (List.mem_filter.1 hentry).1
      rw [hsubjects] at hbefore
      exact Nat.lt_of_lt_of_le (h.fresh entry hbefore) hcreated
    · intro entry hentry
      obtain ⟨hbefore, hne⟩ := List.mem_filter.1 hentry
      rw [hsubjects] at hbefore
      show entry.2 ∉ (hub.completeSubject subject).stopped
      rw [hstopped, List.mem_append, List.mem_singleton, not_or]
      refine ⟨h.unstopped entry hbefore, fun heq => ?_⟩
      have hsame : entry = (runId, subject) := List.inj_on_of_nodup_map h.distinct hbefore hmem heq
      exact absurd (congrArg Prod.fst hsame) (by simpa using hne)
    · intro k hk
      replace hk : k ∈ (hub.completeSubject subject).stopped := hk
      rw [hstopped, List.mem_append, List.mem_singleton] at hk
      rcases hk with hk | rfl
      · exact Nat.lt_of_lt_of_le (h.created k hk) hcreated
      · exact Nat.lt_of_lt_of_le (h.fresh _ hmem) hcreated

/-! ### The operations -/

private theorem getSubject_spec (h : Inv hub) (runId : String) :
    Inv (hub.getSubject runId).2 ∧ (hub.getSubject runId).2.clients = hub.clients ∧
      (hub.getSubject runId).2.subjects.lookup runId = some (hub.getSubject runId).1 ∧
      (hub.getSubject runId).1 ∉ (hub.getSubject runId).2.stopped := by
  unfold Hub.getSubject
  cases hsubject : hub.subjects.lookup runId with
  | some subject => exact ⟨h, rfl, hsubject, h.unstopped _ (Js.mem_of_lookup hsubject)⟩
  | none =>
    have hnew : hub.created ∉ hub.stopped := fun hmem => Nat.lt_irrefl _ (h.created _ hmem)
    have hentry : ∀ entry ∈ hub.subjects ++ [(runId, hub.created)],
        entry ∈ hub.subjects ∨ entry = (runId, hub.created) := by
      intro entry hmem
      rwa [List.mem_append, List.mem_singleton] at hmem
    refine ⟨⟨h.balanced, ?_, ?_, ?_, ?_, ?_⟩, rfl, ?_, hnew⟩
    · intro client hclient hlive
      show (hub.subjects ++ _).lookup _ = _
      rw [List.lookup_append, h.attached client hclient hlive, Option.some_or]
    · show ((hub.subjects ++ [(runId, hub.created)]).map Prod.snd).Nodup
      rw [List.map_append, List.nodup_append]
      refine ⟨h.distinct, List.nodup_singleton _, ?_⟩
      rintro _ hold _ hcreated rfl
      obtain ⟨entry, hmem, hid⟩ := List.mem_map.1 hold
      have hlt := h.fresh entry hmem
      rw [hid, List.mem_singleton.1 hcreated] at hlt
      exact Nat.lt_irrefl _ hlt
    · intro entry hmem
      rcases hentry entry hmem with hold | rfl
      · exact Nat.lt_succ_of_lt (h.fresh entry hold)
      · exact Nat.lt_succ_self _
    · intro entry hmem
      rcases hentry entry hmem with hold | rfl
      · exact h.unstopped entry hold
      · exact hnew
    · exact fun subject hstopped => Nat.lt_succ_of_lt (h.created subject hstopped)
    · show (hub.subjects ++ _).lookup _ = _
      rw [List.lookup_append, hsubject, Option.none_or, List.lookup_cons_self]

private theorem stream_spec (h : Inv hub) (runId : String) :
    Inv (hub.stream runId) ∧
      ∃ subject, (hub.stream runId).clients = hub.clients ++ [⟨runId, subject, true, []⟩] := by
  have htimers := onlyTimers_dropTimer hub runId
  obtain ⟨hinv, hclients, hsubject, hopen⟩ := getSubject_spec (h.onlyTimers htimers) runId
  unfold Hub.stream
  dsimp only
  rw [if_neg hopen]
  refine ⟨⟨fun r => ?_, ?_, hinv.distinct, hinv.fresh, hinv.unstopped, hinv.created⟩, _,
    congrArg (· ++ _) (hclients.trans htimers.clients)⟩
  · have hcount := hinv.balanced r
    unfold Hub.liveCount at hcount ⊢
    dsimp only
    rw [List.countP_append]
    by_cases hr : r = runId
    · subst hr
      rw [Function.update_self, Option.getD_some, hcount]
      simp
    · rw [Function.update_of_ne hr, hcount]
      simp [Ne.symm hr]
  · intro client hclient hlive
    rcases List.mem_append.1 hclient with hold | hnew
    · exact hinv.attached client hold hlive
    · obtain rfl := List.mem_singleton.1 hnew
      exact hsubject

/-- A client when a message of the run is published. -/
def Client.deliver (runId : String) (msg : StreamHubMessage N) (client : Client N) : Client N :=
  if client.live && client.runId = runId then { client with received := client.received ++ [msg] } else client

private theorem publish_spec (h : Inv hub) (runId : String) (msg : StreamHubMessage N) :
    Inv (hub.publish runId msg) ∧ (hub.publish runId msg).clients = hub.clients.map (Client.deliver runId msg) := by
  obtain ⟨hinv, hclients, hsubject, hopen⟩ := getSubject_spec h runId
  have hdeliver : (hub.publish runId msg).clients = hub.clients.map (Client.deliver runId msg) := by
    unfold Hub.publish
    dsimp only
    rw [if_neg hopen]
    show (hub.getSubject runId).2.clients.map _ = _
    rw [hclients]
    refine List.map_congr_left fun client hclient => ?_
    unfold Client.deliver
    by_cases hlive : client.live = true
    · have hattached := hinv.attached client (hclients ▸ hclient) hlive
      by_cases hrun : client.runId = runId
      · rw [hrun, hsubject] at hattached
        simp [hlive, hrun, Option.some.inj hattached]
      · have hne : client.subject ≠ (hub.getSubject runId).1 := by
          intro heq
          rw [heq] at hattached
          exact hrun (hinv.runId_eq hattached hsubject)
        simp [hrun, hne]
    · simp [hlive]
  have hkeeps : ∀ client : Client N, (client.deliver runId msg).live = client.live ∧
      (client.deliver runId msg).runId = client.runId ∧ (client.deliver runId msg).subject = client.subject := by
    intro client
    unfold Client.deliver
    split <;> exact ⟨rfl, rfl, rfl⟩
  refine ⟨?_, hdeliver⟩
  have hsame : hub.publish runId msg =
      { (hub.getSubject runId).2 with clients := hub.clients.map (Client.deliver runId msg) } := by
    rw [← hdeliver]
    unfold Hub.publish
    dsimp only
    rw [if_neg hopen]
  rw [hsame]
  refine ⟨fun r => ?_, ?_, hinv.distinct, hinv.fresh, hinv.unstopped, hinv.created⟩
  · have hcount := hinv.balanced r
    unfold Hub.liveCount at hcount ⊢
    dsimp only
    rw [hcount, hclients, List.countP_map]
    congr 2
    funext client
    obtain ⟨hlive, hrun, -⟩ := hkeeps client
    rw [Function.comp_apply, hlive, hrun]
  · intro client hclient hlive
    obtain ⟨before, hbefore, rfl⟩ := List.mem_map.1 hclient
    obtain ⟨hlive', hrun, hid⟩ := hkeeps before
    rw [hlive'] at hlive
    rw [hrun, hid]
    exact hinv.attached before (hclients.symm ▸ hbefore) hlive

private theorem complete_spec (h : Inv hub) (runId : String) :
    Inv (hub.complete runId) ∧ (hub.complete runId).clients = hub.clients.map (Client.endedWith runId) := by
  obtain ⟨hinv, hclients⟩ := giveUp_spec h runId
  have htimers := onlyTimers_dropTimer (hub.giveUp runId) runId
  exact ⟨hinv.onlyTimers htimers, htimers.clients.trans hclients⟩

/-- A timer that fires ends no client: it gives up a subject that nobody observes, or none. -/
theorem cleanup_spec (h : Inv hub) (timer : Timer) :
    Inv (hub.cleanup timer) ∧ (hub.cleanup timer).clients = hub.clients := by
  have htimers : OnlyTimers hub
      { hub.clearTimeout timer.id with cleanupTimers := Function.update hub.cleanupTimers timer.runId none } :=
    ⟨rfl, rfl, rfl, rfl, Nat.le_refl _⟩
  have hinv := h.onlyTimers htimers
  unfold Hub.cleanup
  dsimp only
  split
  · rename_i hcount
    have hnone : hub.liveCount timer.runId = 0 := by
      have hbalanced := h.balanced timer.runId
      replace hcount : (hub.subscriberCounts timer.runId).getD 0 ≤ 0 := hcount
      omega
    have hdead : ∀ client ∈ hub.clients, client.live = true → client.runId ≠ timer.runId := by
      intro client hclient hlive hrun
      exact List.countP_eq_zero.1 hnone client hclient (by simp [hlive, hrun])
    obtain ⟨hgiven, hclients⟩ := giveUp_spec hinv timer.runId
    exact ⟨hgiven, hclients.trans (map_endedWith hdead)⟩
  · exact ⟨hinv, rfl⟩

/-- The subjects of `destroy` complete one after the other. -/
theorem foldl_completeSubject {entries : List (String × Nat)} (h : Balanced hub)
    (hdistinct : (entries.map Prod.snd).Nodup) (hopen : ∀ entry ∈ entries, entry.2 ∉ hub.stopped) :
    (entries.foldl (fun hub entry => hub.completeSubject entry.2) hub).stopped = hub.stopped ++ entries.map Prod.snd ∧
      hub.created ≤ (entries.foldl (fun hub entry => hub.completeSubject entry.2) hub).created ∧
      (entries.foldl (fun hub entry => hub.completeSubject entry.2) hub).clients =
        hub.clients.map fun client => entries.foldl (fun client entry => client.completed entry.2) client := by
  induction entries generalizing hub with
  | nil => exact ⟨(List.append_nil _).symm, Nat.le_refl _, (List.map_id _).symm⟩
  | cons entry entries ih =>
    obtain ⟨hne, hdistinct⟩ := List.nodup_cons.1 hdistinct
    obtain ⟨hentry, hentries⟩ := List.forall_mem_cons.1 hopen
    obtain ⟨-, hstopped, hcreated, hclients, hbalanced⟩ := completeSubject_spec h hentry
    have hstill : ∀ other ∈ entries, other.2 ∉ (hub.completeSubject entry.2).stopped := by
      intro other hother
      rw [hstopped, List.mem_append, List.mem_singleton, not_or]
      exact ⟨hentries other hother, fun heq => hne (List.mem_map.2 ⟨other, hother, heq⟩)⟩
    obtain ⟨hstopped', hcreated', hclients'⟩ := ih hbalanced hdistinct hstill
    refine ⟨?_, Nat.le_trans hcreated hcreated', ?_⟩
    · rw [List.foldl_cons, hstopped', hstopped, List.append_assoc]
      rfl
    · rw [List.foldl_cons, hclients', hclients, List.map_map]
      rfl

/-- A client whose subject is among those that complete has ended. -/
theorem foldl_completed {entries : List (String × Nat)}
    (h : client.live = true → client.subject ∈ entries.map Prod.snd) :
    entries.foldl (fun client entry => client.completed entry.2) client = client.ended := by
  induction entries generalizing client with
  | nil =>
    refine (Client.ended_of_not_live fun hlive => ?_).symm
    exact absurd (h hlive) List.not_mem_nil
  | cons entry entries ih =>
    rw [List.foldl_cons]
    unfold Client.completed
    by_cases hnow : client.live = true ∧ client.subject = entry.2
    · rw [if_pos (by simpa using hnow)]
      have hended : client.ended.live = true → client.ended.subject ∈ entries.map Prod.snd := fun hlive => nomatch hlive
      exact ih hended
    · rw [if_neg (by simpa using hnow)]
      refine ih fun hlive => ?_
      rcases List.mem_cons.1 (h hlive) with heq | hmem
      · exact absurd ⟨hlive, heq⟩ hnow
      · exact hmem

private theorem destroy_spec (h : Inv hub) :
    Inv hub.destroy ∧ hub.destroy.clients = hub.clients.map Client.ended := by
  have hbalanced : Balanced
      { hub with timers := hub.timers.filter fun timer => hub.cleanupTimers timer.runId ≠ some timer.id } := h.balanced
  obtain ⟨hstopped, hcreated, hclients⟩ := foldl_completeSubject hbalanced h.distinct h.unstopped
  have hended : hub.destroy.clients = hub.clients.map Client.ended := by
    refine hclients.trans (List.map_congr_left fun client hclient => foldl_completed fun hlive => ?_)
    exact List.mem_map.2 ⟨_, Js.mem_of_lookup (h.attached client hclient hlive), rfl⟩
  have hnone : ∀ client ∈ hub.destroy.clients, client.live ≠ true := by
    rw [hended]
    rintro _ hclient hlive
    obtain ⟨client, -, rfl⟩ := List.mem_map.1 hclient
    cases hlive
  refine ⟨⟨fun r => ?_, fun client hclient hlive => absurd hlive (hnone client hclient), List.nodup_nil,
    fun _ hentry => absurd hentry List.not_mem_nil, fun _ hentry => absurd hentry List.not_mem_nil, ?_⟩, hended⟩
  · rw [liveCount_eq_zero fun client hclient hlive => absurd hlive (hnone client hclient)]
    rfl
  · intro subject hmem
    refine Nat.lt_of_lt_of_le ?_ hcreated
    replace hmem := hstopped ▸ hmem
    rcases List.mem_append.1 hmem with hold | hnew
    · exact h.created subject hold
    · obtain ⟨entry, hentry, rfl⟩ := List.mem_map.1 hnew
      exact h.fresh entry hentry

/-! ### What a client sees -/

/-- What an action does to a client that has subscribed: nothing but the messages of its run, until it leaves or its run
completes. -/
def Client.after (i : Nat) (client : Client N) : Action N → Client N
  | .unsubscribe j => if j = i then client.ended else client
  | .publishEvent event => client.deliver event.runId (.canonicalEvent event)
  | .publishSnapshot runId snapshot => client.deliver runId (.snapshot snapshot)
  | .complete runId => client.endedWith runId
  | .destroy => client.ended
  | .stream _ | .fire _ => client

private theorem next_spec {action : Action N} (h : Inv hub) (hnext : next hub action = some hub') :
    Inv hub' ∧ ∀ (i : Nat) (client : Client N), hub.clients[i]? = some client →
      hub'.clients[i]? = some (client.after i action) := by
  have hmap : ∀ {f : Client N → Client N}, hub'.clients = hub.clients.map f → ∀ (i : Nat) (client : Client N),
      hub.clients[i]? = some client → hub'.clients[i]? = some (f client) := by
    intro f hclients i client hclient
    rw [hclients, List.getElem?_map, hclient, Option.map_some]
  cases action with
  | stream runId =>
    obtain rfl := Option.some.inj hnext
    obtain ⟨hinv, subject, hclients⟩ := stream_spec h runId
    refine ⟨hinv, fun i client hclient => ?_⟩
    rw [hclients, List.getElem?_append_left (List.getElem?_eq_some_iff.1 hclient).1]
    exact hclient
  | unsubscribe j =>
    rw [next] at hnext
    split at hnext
    · rename_i hlive
      obtain rfl := Option.some.inj hnext
      obtain ⟨left, hleft, hleftLive⟩ := Option.any_eq_true _ _ |>.1 hlive
      refine ⟨h.leave hleft hleftLive, fun i client hclient => ?_⟩
      rw [(left_leave h.balanced hleft hleftLive).clients, Client.after]
      by_cases hij : j = i
      · rw [if_pos (List.mem_singleton.2 hij.symm), if_pos hij, hclient, Option.map_some]
      · rw [if_neg fun hmem => hij (List.mem_singleton.1 hmem).symm, if_neg hij]
        exact hclient
    · cases hnext
  | publishEvent event =>
    obtain rfl := Option.some.inj hnext
    obtain ⟨hinv, hclients⟩ := publish_spec h event.runId (.canonicalEvent event)
    exact ⟨hinv, hmap hclients⟩
  | publishSnapshot runId snapshot =>
    obtain rfl := Option.some.inj hnext
    obtain ⟨hinv, hclients⟩ := publish_spec h runId (.snapshot snapshot)
    exact ⟨hinv, hmap hclients⟩
  | complete runId =>
    obtain rfl := Option.some.inj hnext
    obtain ⟨hinv, hclients⟩ := complete_spec h runId
    exact ⟨hinv, hmap hclients⟩
  | fire id =>
    obtain ⟨timer, -, rfl⟩ := Option.map_eq_some_iff.1 hnext
    obtain ⟨hinv, hclients⟩ := cleanup_spec h timer
    refine ⟨hinv, fun i client hclient => ?_⟩
    rw [hclients]
    exact hclient
  | destroy =>
    obtain rfl := Option.some.inj hnext
    obtain ⟨hinv, hclients⟩ := destroy_spec h
    exact ⟨hinv, hmap hclients⟩

private theorem inv_of_reachable (h : (machine N).Reachable hub) : Inv hub := by
  refine Machine.Reachable.invariant (I := Inv) ?_ ?_ h
  · rintro _ rfl
    exact inv_initial
  · exact fun _ _ _ hinv hnext => (next_spec hinv hnext).1

/-- The messages that are published to a run. -/
def published (runId : String) (actions : List (Action N)) : List (StreamHubMessage N) :=
  actions.filterMap fun
    | .publishEvent event => if event.runId = runId then some (.canonicalEvent event) else none
    | .publishSnapshot r snapshot => if r = runId then some (.snapshot snapshot) else none
    | _ => none

/-- What ends a subscription to a run: the client leaves, the run completes, or the hub is destroyed. -/
def Ends (i : Nat) (runId : String) (action : Action N) : Prop :=
  action = .unsubscribe i ∨ action = .complete runId ∨ action = .destroy

private theorem Client.after_of_not_ends {action : Action N} (hlive : client.live = true)
    (hends : ¬ Ends i client.runId action) :
    client.after i action = { client with received := client.received ++ published client.runId [action] } := by
  have hsame : client = { client with received := client.received ++ [] } := by rw [List.append_nil]
  cases action with
  | unsubscribe j =>
    have hij : j ≠ i := fun hij => hends (.inl (hij ▸ rfl))
    rw [Client.after, if_neg hij]
    exact hsame
  | publishEvent event =>
    rw [Client.after, Client.deliver, published]
    by_cases hrun : event.runId = client.runId
    · simp [hlive, hrun]
    · simp [hrun, Ne.symm hrun]
  | publishSnapshot runId snapshot =>
    rw [Client.after, Client.deliver, published]
    by_cases hrun : runId = client.runId
    · simp [hlive, hrun]
    · simp [hrun, Ne.symm hrun]
  | complete runId =>
    have hne : client.runId ≠ runId := fun heq => hends (.inr (.inl (heq ▸ rfl)))
    rw [Client.after, Client.endedWith, if_neg hne]
    exact hsame
  | destroy => exact absurd (.inr (.inr rfl)) hends
  | stream _ | fire _ => exact hsame

/-- From any reachable state, whatever timers fire and whoever else comes and goes: a client that is live stays live on
the subject of its run, which is not completed, and receives each message published to the run once, until it leaves,
its run completes or the hub is destroyed. -/
theorem live_client_receives {actions : List (Action N)} (hreach : (machine N).Reachable hub)
    (hclient : hub.clients[i]? = some client) (hlive : client.live = true)
    (hends : ∀ action ∈ actions, ¬ Ends i client.runId action) (hexec : (machine N).exec hub actions = some hub') :
    hub'.clients[i]? = some { client with received := client.received ++ published client.runId actions } ∧
      hub'.subjects.lookup client.runId = some client.subject ∧ client.subject ∉ hub'.stopped := by
  induction actions generalizing hub client with
  | nil =>
    obtain rfl := Option.some.inj hexec
    have hinv := inv_of_reachable hreach
    have hattached := hinv.attached client (List.mem_of_getElem? hclient) hlive
    refine ⟨?_, hattached, hinv.unstopped _ (Js.mem_of_lookup hattached)⟩
    rw [hclient]
    simp [published]
  | cons action actions ih =>
    obtain ⟨mid, hnext, hrest⟩ := Machine.exec_cons_eq_some.1 hexec
    obtain ⟨hnot, hnots⟩ := List.forall_mem_cons.1 hends
    have hafter := (next_spec (inv_of_reachable hreach) hnext).2 i client hclient
    rw [Client.after_of_not_ends hlive hnot] at hafter
    obtain ⟨hreceived, hsubject, hopen⟩ := ih (hreach.next hnext) hafter hlive hnots hrest
    refine ⟨?_, hsubject, hopen⟩
    rw [hreceived]
    have hsplit : published client.runId (action :: actions) =
        published client.runId [action] ++ published client.runId actions :=
      @List.filterMap_append _ _ [action] actions _
    simp only [hsplit, List.append_assoc]

/-! ### A timer that `destroy` leaves behind -/

def started : CanonicalEvent (Option Rat) where
  id := "e1"
  runId := "r1"
  seq := 1
  ts := "2026-10-24T00:00:00.000Z"
  type := .runStarted
  source := { kind := .macpControlPlane, name := "run-manager" }
  data := []

/-- A client of a hub that has been destroyed under another client. -/
def reopened : Hub (Option Rat) := (Hub.stream {} "r1").destroy.stream "r1"

theorem live_client_receives_reopened :
    ∃ hub', (machine (Option Rat)).exec reopened [.fire 1, .publishEvent started] = some hub' ∧
      hub'.clients[1]? = some ⟨"r1", 2, true, [.canonicalEvent started]⟩ := by
  have hreach : (machine (Option Rat)).Reachable reopened :=
    ⟨{}, [.stream "r1", .destroy, .stream "r1"], rfl, rfl⟩
  have hexec : (machine (Option Rat)).exec reopened [.fire 1, .publishEvent started] =
      some ((reopened.cleanup ⟨1, "r1"⟩).publishEvent started) := rfl
  have hclient : reopened.clients[1]? = some ⟨"r1", 2, true, []⟩ := rfl
  have hends : ∀ action ∈ [Action.fire 1, .publishEvent started], ¬ Ends 1 "r1" action := by simp [Ends]
  exact ⟨_, hexec, (live_client_receives hreach hclient rfl hends hexec).1⟩

end MemoryStreamHub

end MacpControlPlane

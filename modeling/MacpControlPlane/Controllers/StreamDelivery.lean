import MacpControlPlane.Controllers.StreamRun

/-!
# What the clients of a run's stream are sent

A live client has always been sent the published events after its `afterSeq`, each once and in order, exactly when no
batch is overtaken at a client.  A client whose response ends with the hub has been sent all that had been published,
exactly when `complete` does not come before its backfill has got there.
-/

namespace MacpControlPlane.StreamRun

open Js HighWater

variable {N : Type}

private theorem Client.isOpen_next (c : Client N) (msgs : List (StreamHubMessage N)) :
    (c.next msgs).isOpen = c.isOpen := by
  unfold Client.next
  split
  · rw [Client.isOpen, (Client.same_foldl_push c msgs).here, Client.isOpen]
  · rfl
  · rfl
  · rfl

private theorem Client.isOpen_complete (published : List (CanonicalEvent N)) (c : Client N) :
    (Client.complete published c).isOpen = false := by
  unfold Client.complete
  split_ifs with hopen
  · rfl
  · simpa using hopen

/-! ### The invariant -/

/-- What holds of the rows, of what has been published of them, and of the clients. -/
structure Inv (s : State N) : Prop where
  log_le : ∀ e ∈ s.log, e.seq ≤ s.lastEventSeq
  log_increasing : Increasing CanonicalEvent.seq s.log
  published_perm : (s.published ++ s.pending.flatMap (·.1)).Perm s.log
  pending_increasing : ∀ batch ∈ s.pending, Increasing CanonicalEvent.seq batch.1
  clients : ∀ c ∈ s.clients, c.Sound s.log s.published
  hub : s.hub.Counts (s.clients.countP Client.isOpen)

namespace Inv

variable {s t : State N}

private theorem mem_log (h : Inv s) {e : CanonicalEvent N} (he : e ∈ s.published) : e ∈ s.log :=
  h.published_perm.subset (List.mem_append_left _ he)

private theorem published_nodup (h : Inv s) : s.published.Nodup := by
  have hlog : s.log.Nodup := h.log_increasing.imp fun hlt heq => by
    rw [heq] at hlt
    exact Nat.lt_irrefl _ hlt
  exact (List.nodup_append.1 (h.published_perm.nodup_iff.2 hlog)).1

private theorem delivered (h : Inv s) : Delivered s := by
  intro c hc hpos hhere
  have hstage := (h.clients c hc).stage
  unfold Client.Stage at hstage
  rw [hhere] at hstage
  exact ⟨(hstage hpos).increasing, (hstage hpos).mem, (hstage hpos).all⟩

private theorem commit (h : Inv s) {count : Nat} {events : List (CanonicalEvent N)}
    (hevents : Increasing CanonicalEvent.seq events)
    (hseqs : ∀ e ∈ events, s.lastEventSeq < e.seq ∧ e.seq ≤ s.lastEventSeq + count)
    (projection : RunStateProjection N) : Inv (s.commit count events projection) where
  log_le e he := by
    rcases List.mem_append.1 he with he | he
    · have := h.log_le e he
      show e.seq ≤ s.lastEventSeq + count
      omega
    · exact (hseqs e he).2
  log_increasing := by
    refine List.pairwise_append.2 ⟨h.log_increasing, hevents, fun e he x hx => ?_⟩
    exact Nat.lt_of_le_of_lt (h.log_le e he) (hseqs x hx).1
  published_perm := by
    show (s.published ++ (s.pending ++ [(events, projection)]).flatMap (·.1)).Perm (s.log ++ events)
    rw [List.flatMap_append, ← List.append_assoc]
    simpa using h.published_perm.append_right events
  pending_increasing batch hbatch := by
    rcases List.mem_append.1 hbatch with hbatch | hbatch
    · exact h.pending_increasing batch hbatch
    · rw [List.mem_singleton.1 hbatch]
      exact hevents
  clients c hc := (h.clients c hc).commit events
  hub := h.hub

private theorem set (h : Inv s) {k : Nat} {c c' : Client N} (hc : s.clients[k]? = some c)
    (hopen : c'.isOpen = c.isOpen) (hsound : c'.Sound s.log s.published) :
    Inv { s with clients := s.clients.set k c' } where
  log_le := h.log_le
  log_increasing := h.log_increasing
  published_perm := h.published_perm
  pending_increasing := h.pending_increasing
  clients other hother := by
    rcases List.mem_or_eq_of_mem_set hother with hold | rfl
    · exact h.clients other hold
    · exact hsound
  hub := by
    have hcount := Callers.countP_set (p := Client.isOpen) (y := c') hc
    rw [hopen, Nat.add_right_cancel_iff] at hcount
    show s.hub.Counts ((s.clients.set k c').countP Client.isOpen)
    rw [hcount]
    exact h.hub

private theorem close (h : Inv s) {k : Nat} {c : Client N} (hc : s.clients[k]? = some c) (hopen : c.isOpen = true) :
    Inv (s.close k c) where
  log_le := h.log_le
  log_increasing := h.log_increasing
  published_perm := h.published_perm
  pending_increasing := h.pending_increasing
  clients other hother := by
    rcases List.mem_or_eq_of_mem_set hother with hold | rfl
    · exact h.clients other hold
    · exact ⟨(h.clients c (List.mem_of_getElem? hc)).buffered, trivial⟩
  hub := by
    have hcount := Callers.countP_set (p := Client.isOpen) (y := { c with here := .closed }) hc
    have hclosed : ({ c with here := .closed } : Client N).isOpen = false := rfl
    simp only [hopen, hclosed, if_true, Bool.false_eq_true, if_false, Nat.add_zero] at hcount
    have hhub := h.hub
    rw [← hcount] at hhub
    exact hhub.unsubscribe

private theorem publish (h : Inv s) {i : Nat} {events : List (CanonicalEvent N)} {projection : RunStateProjection N}
    (hi : s.pending[i]? = some (events, projection)) {msgs : List (StreamHubMessage N)}
    (hmsgs : canonicalEvents msgs = events)
    (hwhen : ∀ c ∈ s.clients, 0 < c.afterSeq → c.here = .live →
      ∀ e ∈ events, c.highSeq < e.seq ∨ e.seq ≤ c.afterSeq ∨ e ∈ c.events) :
    Inv { s with
      pending := s.pending.eraseIdx i
      published := s.published ++ events
      hub := s.hub.getSubject
      clients := s.clients.map fun c => c.next msgs } := by
  obtain ⟨hlt, hget⟩ := List.getElem?_eq_some_iff.1 hi
  have hmem : (events, projection) ∈ s.pending := List.mem_of_getElem? hi
  have hperm : (events ++ (s.pending.eraseIdx i).flatMap (·.1)).Perm (s.pending.flatMap (·.1)) := by
    have herase := (List.getElem_cons_eraseIdx_perm hlt).flatMap_right (·.1)
    rwa [hget, List.flatMap_cons] at herase
  have hpublished : ((s.published ++ events) ++ (s.pending.eraseIdx i).flatMap (·.1)).Perm s.log := by
    rw [List.append_assoc]
    exact (hperm.append_left s.published).trans h.published_perm
  have hlog : ∀ e ∈ events, e ∈ s.log := fun e he =>
    hpublished.subset (List.mem_append_left _ (List.mem_append_right _ he))
  refine ⟨h.log_le, h.log_increasing, hpublished, ?_, ?_, ?_⟩
  · exact fun batch hbatch => h.pending_increasing batch (List.mem_of_mem_eraseIdx hbatch)
  · intro c' hc'
    obtain ⟨c, hc, rfl⟩ := List.mem_map.1 hc'
    exact (h.clients c hc).publish hmsgs (h.pending_increasing _ hmem) hlog (hwhen c hc)
  · show s.hub.getSubject.Counts ((s.clients.map fun c => c.next msgs).countP Client.isOpen)
    rw [List.countP_map, List.countP_congr (q := Client.isOpen) fun c _ => by simp [Client.isOpen_next]]
    exact h.hub.getSubject

private theorem complete (h : Inv s) {hub : StreamHub} (hhub : hub.Counts 0) :
    Inv { s with hub, clients := s.clients.map (Client.complete s.published) } := by
  refine ⟨h.log_le, h.log_increasing, h.published_perm, h.pending_increasing, ?_, ?_⟩
  · intro c' hc'
    obtain ⟨c, hc, rfl⟩ := List.mem_map.1 hc'
    unfold Client.complete
    split_ifs
    · exact ⟨(h.clients c hc).buffered, trivial⟩
    · exact h.clients c hc
  · have hcount : (s.clients.map (Client.complete s.published)).countP Client.isOpen = 0 := by
      rw [List.countP_eq_zero]
      intro c' hc'
      obtain ⟨c, -, rfl⟩ := List.mem_map.1 hc'
      simp [Client.isOpen_complete]
    show hub.Counts ((s.clients.map (Client.complete s.published)).countP Client.isOpen)
    rwa [hcount]

/-- A new client counts as an observer, and has been sent nothing. -/
theorem connect (h : Inv s) (afterSeq : Nat) (includeSnapshot : Bool) :
    Inv { s with hub := s.hub.stream, clients := s.clients ++ [.subscribe afterSeq includeSnapshot] } := by
  refine ⟨h.log_le, h.log_increasing, h.published_perm, h.pending_increasing, ?_, ?_⟩
  · intro c hc
    rcases List.mem_append.1 hc with hc | hc
    · exact h.clients c hc
    · rw [List.mem_singleton.1 hc]
      exact .subscribe afterSeq includeSnapshot
  · have hopen : (Client.subscribe afterSeq includeSnapshot : Client N).isOpen = true :=
      Client.isOpen_subscribe afterSeq includeSnapshot
    have hcount : (s.clients ++ [Client.subscribe afterSeq includeSnapshot]).countP Client.isOpen =
        s.clients.countP Client.isOpen + 1 := by
      simp [List.countP_append, hopen]
    show s.hub.stream.Counts ((s.clients ++ [Client.subscribe afterSeq includeSnapshot]).countP Client.isOpen)
    rw [hcount]
    exact h.hub.stream

/-- Where nobody observes the subject, the hub changes alone. -/
theorem of_hub (h : Inv s) {hub : StreamHub} (hhub : hub.Counts (s.clients.countP Client.isOpen)) :
    Inv { s with hub } :=
  ⟨h.log_le, h.log_increasing, h.published_perm, h.pending_increasing, h.clients, hhub⟩

variable {runId : String}

/-- One step keeps it, where no batch is overtaken at a client. -/
theorem next (h : Inv s) {a : Action N} (hwhen : InOrder s a) (hnext : StreamRun.next runId s a = some t) : Inv t := by
  cases a with
  | emit runCtx uuid events projection =>
    simp only [StreamRun.next] at hnext
    split_ifs at hnext
    rw [← Option.some.inj hnext]
    obtain ⟨hincreasing, hbounds⟩ := increasing_of_map_seq
      (RunEventService.map_seq_prepareEmitted runId runCtx uuid (s.lastEventSeq + 1) events)
    refine h.commit hincreasing (fun e he => ?_) projection
    have := hbounds e he
    omega
  | persist runCtx uuid events projection =>
    rw [← Option.some.inj hnext]
    obtain ⟨hincreasing, hbounds⟩ := increasing_of_map_seq
      (RunEventService.map_seq_preparePersisted runCtx uuid (s.lastEventSeq + 1) events)
    refine h.commit hincreasing (fun e he => ?_) projection
    have := hbounds e he
    omega
  | publish i =>
    obtain ⟨⟨events, projection⟩, hi, rfl⟩ := Option.map_eq_some_iff.1 hnext
    exact h.publish hi (canonicalEvents_batch events projection) (hwhen events projection hi)
  | connect afterSeq includeSnapshot =>
    rw [← Option.some.inj hnext]
    exact h.connect afterSeq includeSnapshot
  | snapshot k state =>
    obtain ⟨c, hc, hstep⟩ := Option.bind_eq_some_iff.1 hnext
    split at hstep
    · rename_i hhere
      rw [← Option.some.inj hstep]
      have hsound := h.clients c (List.mem_of_getElem? hc)
      have hstage := hsound.stage
      unfold Client.Stage at hstage
      rw [hhere] at hstage
      -- The projection is no event.
      have hsent : (c.push (.snapshot state)).events = c.events := by
        simp [Client.push, StreamHubMessage.seq, StreamHubMessage.event?, Client.events, canonicalEvents]
      refine h.set hc ?_ (Client.Sound.backfill (c := c.push (.snapshot state)) hsound.buffered ?_ ?_)
      · rw [Client.isOpen_backfill, Client.isOpen, hhere]
      · rw [hsent]
        exact hstage.1
      · exact hstage.2
    · exact absurd hstep (by simp)
  | read k =>
    obtain ⟨c, hc, hstep⟩ := Option.bind_eq_some_iff.1 hnext
    split at hstep
    · rename_i cursor hhere
      rw [← Option.some.inj hstep]
      have hsound := h.clients c (List.mem_of_getElem? hc)
      have hstage := hsound.stage
      unfold Client.Stage at hstage
      rw [hhere] at hstage
      obtain ⟨hbackfilling, rfl⟩ := hstage
      -- The page comes from the rows that are there now.
      refine h.set hc (by rw [Client.isOpen, Client.isOpen, hhere]) ⟨hsound.buffered, s.log, List.prefix_rfl, ?_⟩
      exact ⟨⟨hbackfilling.sent, hbackfilling.highSeq⟩, rfl, rfl, fun e he => Or.inr (h.mem_log he)⟩
    · exact absurd hstep (by simp)
  | receive k =>
    obtain ⟨c, hc, hstep⟩ := Option.bind_eq_some_iff.1 hnext
    split at hstep
    · rename_i cursor rows hhere
      rw [← Option.some.inj hstep]
      have hsound := h.clients c (List.mem_of_getElem? hc)
      refine h.set hc ?_ (hsound.page h.log_increasing (fun e he => h.mem_log he) hhere fun hpos hlength =>
        hwhen c cursor rows hc hpos hhere hlength)
      rw [Client.isOpen_page, Client.isOpen, hhere]
    · exact absurd hstep (by simp)
  | fail k =>
    obtain ⟨c, hc, hstep⟩ := Option.bind_eq_some_iff.1 hnext
    split at hstep
    · rename_i hhere
      rw [← Option.some.inj hstep]
      exact h.close hc (by rw [Client.isOpen, hhere])
    · rename_i cursor hhere
      rw [← Option.some.inj hstep]
      exact h.close hc (by rw [Client.isOpen, hhere])
    · exact absurd hstep (by simp)
  | disconnect k =>
    obtain ⟨c, hc, hstep⟩ := Option.bind_eq_some_iff.1 hnext
    split_ifs at hstep with hopen
    rw [← Option.some.inj hstep]
    exact h.close hc hopen
  | complete =>
    rw [← Option.some.inj hnext]
    by_cases hsubject : s.hub.subject = true
    · rw [if_pos hsubject]
      exact h.complete h.hub.complete
    · -- Without a subject there are no observers.
      rw [if_neg hsubject]
      refine h.of_hub ?_
      rw [h.hub.subject (by simpa using hsubject)]
      exact h.hub.complete
  | cleanup =>
    simp only [StreamRun.next] at hnext
    split_ifs at hnext with htimer habandons
    · rw [← Option.some.inj hnext]
      exact h.complete (h.hub.cleanup htimer).2
    · rw [← Option.some.inj hnext]
      refine h.of_hub ?_
      rw [(h.hub.cleanup htimer).1]
      exact (h.hub.cleanup htimer).2

/-- A step after which the live clients have been sent everything has not let a batch be overtaken. -/
theorem inOrder (h : Inv s) {a : Action N} (hnext : StreamRun.next runId s a = some t) (hdelivered : Delivered t) :
    InOrder s a := by
  cases a with
  | publish i =>
    obtain ⟨⟨events, projection⟩, hi, rfl⟩ := Option.map_eq_some_iff.1 hnext
    intro events' projection' hi' c hc hpos hhere e he
    obtain ⟨rfl, rfl⟩ : events = events' ∧ projection = projection' := by simpa using hi.symm.trans hi'
    have hsame := Client.same_foldl_push c (events.map .canonicalEvent ++ [.snapshot projection])
    have hlive : ∀ msgs, c.next msgs = msgs.foldl Client.push c := fun msgs => by rw [Client.next, hhere]
    have hclient := hdelivered _ (List.mem_map_of_mem hc)
    rw [hlive, hsame.afterSeq, hsame.here] at hclient
    exact Client.of_publish (hclient hpos hhere).2.2 he
  | receive k =>
    obtain ⟨c, hc, hstep⟩ := Option.bind_eq_some_iff.1 hnext
    intro c' cursor rows hc' hpos hhere hlength
    obtain rfl : c = c' := Option.some.inj (hc.symm.trans hc')
    simp only [hhere, Option.some.injEq] at hstep
    have hsound := h.clients c (List.mem_of_getElem? hc)
    have hmem : c.page cursor rows ∈ t.clients := by
      rw [← hstep]
      exact Callers.mem_set_self hc _
    have hafterSeq : (c.page cursor rows).afterSeq = c.afterSeq := Client.afterSeq_page c cursor rows
    have hlive : (c.page cursor rows).here = .live := Client.here_page_of_lt c cursor hlength
    have hall := (hdelivered _ hmem (hafterSeq.symm ▸ hpos) hlive).2.2
    rw [hafterSeq, ← hstep] at hall
    exact hsound.of_page h.log_increasing h.published_nodup hhere hlength hall
  | _ => trivial

private theorem of_start (h : (machine runId).start s) : Inv s := by
  obtain ⟨lastEventSeq, log, hincreasing, hle, rfl⟩ := h
  refine ⟨hle, hincreasing, ?_, ?_, ?_, rfl, fun _ => rfl, fun _ => rfl⟩
  · simp
  · exact fun batch hbatch => absurd hbatch List.not_mem_nil
  · exact fun c hc => absurd hc List.not_mem_nil

private theorem of_exec (h : (machine runId).start s) {as : List (Action N)}
    (hwhen : (machine runId).Throughout InOrder s as) (hexec : (machine runId).exec s as = some t) : Inv t :=
  hwhen.invariant (fun _ _ _ hinv hP hnext => hinv.next hP hnext) (of_start h) hexec

/-- Once everything is published, a live client has been sent the rows after `afterSeq`. -/
theorem events_eq (h : Inv s) (hpending : s.pending = []) {c : Client N} (hc : c ∈ s.clients) (hpos : 0 < c.afterSeq)
    (hhere : c.here = .live) : c.events = s.log.filter fun e => c.afterSeq < e.seq := by
  obtain ⟨hincreasing, hmem, hall⟩ := h.delivered c hc hpos hhere
  have hperm := h.published_perm
  simp only [hpending, List.flatMap_nil, List.append_nil] at hperm
  refine eq_of_increasing hincreasing (h.log_increasing.filter _) fun e => ?_
  rw [List.mem_filter, decide_eq_true_eq]
  exact ⟨hmem e, fun ⟨he, hseq⟩ => hall e (hperm.mem_iff.2 he) hseq⟩

end Inv

/-! ### The backfill ends -/

/-- The own steps of the backfill of client `k`, to which `getState` returns `state`. -/
def Backfills (state : RunStateProjection N) (k : Nat) (a : Action N) : Prop :=
  a = .snapshot k state ∨ a = .read k ∨ a = .receive k

/-- Client `k` gets to be live by its own steps. -/
def Ends (runId : String) (state : RunStateProjection N) (k : Nat) (s : State N) : Prop :=
  ∃ as t c, (∀ a ∈ as, Backfills state k a) ∧ (machine runId).exec s as = some t ∧ t.clients[k]? = some c ∧
    c.here = .live

section Progress

variable {runId : String} {state : RunStateProjection N} {k : Nat} {s t : State N} {c : Client N}

private theorem Ends.of_next {a : Action N} (ha : Backfills state k a) (hnext : next runId s a = some t)
    (h : Ends runId state k t) : Ends runId state k s := by
  obtain ⟨as, u, c, has, hexec, hc, hhere⟩ := h
  refine ⟨a :: as, u, c, ?_, Machine.exec_cons_eq_some.2 ⟨t, hnext, hexec⟩, hc, hhere⟩
  intro b hb
  rcases List.mem_cons.1 hb with rfl | hb
  · exact ha
  · exact has b hb

private theorem Ends.of_live (hc : s.clients[k]? = some c) (hhere : c.here = .live) : Ends runId state k s :=
  ⟨[], s, c, fun _ ha => absurd ha List.not_mem_nil, rfl, hc, hhere⟩

/-- Every full page leaves fewer rows above the cursor. -/
theorem Ends.of_reading (hc : s.clients[k]? = some c) {cursor : Nat} (hhere : c.here = .reading cursor) :
    Ends runId state k s := by
  -- By induction on the number of rows above the cursor.
  induction hrows : s.log.countP (fun e => cursor < e.seq) using Nat.strongRecOn generalizing s c cursor with
  | ind count ih =>
    have hlt : k < s.clients.length := (List.getElem?_eq_some_iff.1 hc).1
    set rows := listCanonicalByRun s.log cursor batchSize with hpage
    set paging : Client N := { c with here := .paging cursor rows } with hpaging
    have hread : next runId s (.read k) = some { s with clients := s.clients.set k paging } := by
      simp only [next, hc, Option.bind_some, hhere]
      rfl
    refine Ends.of_next (Or.inr (Or.inl rfl)) hread ?_
    have hreceive : next runId { s with clients := s.clients.set k paging } (.receive k) =
        some { s with clients := (s.clients.set k paging).set k (paging.page cursor rows) } := by
      simp only [next, List.getElem?_set_self hlt, Option.bind_some, hpaging]
    refine Ends.of_next (Or.inr (Or.inr rfl)) hreceive ?_
    rw [List.set_set]
    have hget : (s.clients.set k (paging.page cursor rows))[k]? = some (paging.page cursor rows) :=
      List.getElem?_set_self hlt
    by_cases hlength : rows.length < batchSize
    · exact Ends.of_live hget (Client.here_page_of_lt paging cursor hlength)
    · -- The last row of the page is above the cursor, and no longer above the next one.
      have hne : rows ≠ [] := by
        intro hnil
        rw [hnil] at hlength
        exact hlength (Nat.succ_pos 499)
      have hmem : rows.getLast hne ∈ s.log ∧ cursor < (rows.getLast hne).seq :=
        mem_listCanonicalByRun (List.getLast_mem hne)
      have hlast : rows.getLast? = some (rows.getLast hne) := List.getLast?_eq_some_getLast hne
      have hfewer : s.log.countP (fun e => (rows.getLast hne).seq < e.seq) < count := by
        rw [← hrows]
        exact countP_lt_countP hmem.1 hmem.2
      have hnext : (paging.page cursor rows).here = .reading (rows.getLast hne).seq := by
        rw [Client.page, if_neg hlength, hlast]
        rfl
      exact ih _ hfewer hget hnext rfl

/-- The backfill of a client that has not left gets to its end. -/
theorem ends_of_isOpen (hc : s.clients[k]? = some c) (hopen : c.isOpen = true) : Ends runId state k s := by
  have hlt : k < s.clients.length := (List.getElem?_eq_some_iff.1 hc).1
  cases hhere : c.here with
  | loading =>
    have hnext : next runId s (.snapshot k state) = some { s with
        clients := s.clients.set k (c.push (.snapshot state)).backfill } := by
      simp only [next, hc, Option.bind_some, hhere]
    refine Ends.of_next (Or.inl rfl) hnext ?_
    have hget := List.getElem?_set_self (a := (c.push (.snapshot state)).backfill) hlt
    by_cases hpos : 0 < c.afterSeq
    · have hreading : (c.push (.snapshot state)).backfill.here = .reading c.afterSeq := by
        rw [Client.backfill, if_pos (show 0 < (c.push (.snapshot state)).afterSeq from hpos)]
        rfl
      exact Ends.of_reading hget hreading
    · refine Ends.of_live hget ?_
      rw [Client.backfill, if_neg (show ¬ 0 < (c.push (.snapshot state)).afterSeq from hpos)]
      rfl
  | reading cursor => exact Ends.of_reading hc hhere
  | paging cursor rows =>
    have hnext : next runId s (.receive k) = some { s with clients := s.clients.set k (c.page cursor rows) } := by
      simp only [next, hc, Option.bind_some, hhere]
    refine Ends.of_next (Or.inr (Or.inr rfl)) hnext ?_
    have hget := List.getElem?_set_self (a := c.page cursor rows) hlt
    by_cases hlength : rows.length < batchSize
    · exact Ends.of_live hget (Client.here_page_of_lt c cursor hlength)
    · have hreading : (c.page cursor rows).here = .reading ((rows.getLast?.map (·.seq)).getD cursor) := by
        rw [Client.page, if_neg hlength]
      exact Ends.of_reading hget hreading
  | live => exact Ends.of_live hc hhere
  | completed published => exact absurd hopen (by simp [Client.isOpen, hhere])
  | closed => exact absurd hopen (by simp [Client.isOpen, hhere])

end Progress

/-! ### Delivery -/

/-- In any order of commits, publishes and steps of the clients: a live client has always been sent what has been
published exactly when no batch is overtaken.  The backfill of a client that has not left comes to its end, and when
everything that is committed is published, a live client has been sent exactly the rows after its `afterSeq`. -/
theorem stream_delivers_iff {runId : String} {s t : State N} {as : List (Action N)} (hs : (machine runId).start s)
    (h : (machine runId).exec s as = some t) :
    ((∀ bs u, bs <+: as → (machine runId).exec s bs = some u → Delivered u) ↔
        (machine runId).Throughout InOrder s as) ∧
      (∀ (state : RunStateProjection N) (k : Nat) (c : Client N), t.clients[k]? = some c → c.isOpen = true →
        Ends runId state k t) ∧
      ((machine runId).Throughout InOrder s as → t.pending = [] → ∀ c ∈ t.clients, 0 < c.afterSeq →
        c.here = .live → c.events = t.log.filter fun e => c.afterSeq < e.seq) := by
  refine ⟨?_, fun state k c hc hopen => ends_of_isOpen hc hopen, ?_⟩
  · refine Machine.throughout_iff_of_step (fun _ hinv => hinv.delivered) ?_ (Inv.of_start hs) h
    intro s a t hinv hnext
    exact ⟨hinv.inOrder hnext, fun hwhen => hinv.next hwhen hnext⟩
  · intro hwhen hpending c hc hpos hhere
    exact (Inv.of_exec hs hwhen h).events_eq hpending hc hpos hhere

/-- The first event of a run. -/
def created : CanonicalEvent (Option Rat) where
  id := "e1"
  runId := "run"
  seq := 1
  ts := "2026-01-01T00:00:00.000Z"
  type := .runCreated
  source := { kind := .macpControlPlane, name := "macp-control-plane" }
  data := []

/-- An event that is emitted. -/
def emitted (type : CanonicalEventType) : Action (Option Rat) :=
  .emit none (fun _ => "e") [{ ts := created.ts, type, source := created.source, data := [] }] (.empty "run")

/-- A process that has just started. -/
def started : State (Option Rat) := { lastEventSeq := 1, log := [created], published := [created] }

private theorem start_started : (machine "run").start started := by
  refine ⟨1, [created], List.pairwise_singleton _ _, fun e he => ?_, rfl⟩
  rw [List.mem_singleton.1 he]
  exact Nat.le_refl 1

/-- The process with client `c`. -/
def withClient (c : Client (Option Rat)) : State (Option Rat) :=
  { started with hub := StreamHub.stream {}, clients := [c] }

/-- A client that has had the first event gets an empty page. -/
theorem next_read :
    (machine "run").next (withClient (.subscribe 1 false)) (.read 0) =
      some (withClient { afterSeq := 1, here := .paging 1 [], highSeq := 1 }) := by
  have hrows : listCanonicalByRun [created] 1 batchSize = [] := listCanonicalByRun_eq_nil (fun e he => by
    rw [List.mem_singleton.1 he]
    exact Nat.le_refl 1) batchSize
  show some (withClient
    { afterSeq := 1, here := .paging 1 (listCanonicalByRun [created] 1 batchSize), highSeq := 1 }) = _
  rw [hrows]

/-- The process with a client that is live. -/
def watched : State (Option Rat) := withClient { afterSeq := 1, here := .live, highSeq := 1 }

/-- The backfill of a client that has had the first event. -/
def watch : List (Action (Option Rat)) := [.connect 1 false, .read 0, .receive 0]

private theorem exec_watch : (machine "run").exec started watch = some watched :=
  Machine.exec_cons_eq_some.2 ⟨_, rfl, Machine.exec_cons_eq_some.2 ⟨_, next_read, rfl⟩⟩

private theorem throughout_watch : (machine "run").Throughout InOrder started watch := by
  refine .cons trivial rfl (.cons trivial (next_read) (.cons ?_ rfl trivial))
  intro c cursor rows hc hpos hhere hlength
  obtain rfl := Option.some.inj hc
  exact .nil

/-- Two events after the backfill, which are published in the order of their commits. -/
theorem stream_delivers_published :
    let as := watch ++ [emitted .runStarted, emitted .runCompleted, .publish 0, .publish 0]
    ∃ t c, (machine "run").exec started as = some t ∧ t.clients = [c] ∧ c.events.map (·.seq) = [2, 3] ∧
      ∀ bs u, bs <+: as → (machine "run").exec started bs = some u → Delivered u := by
  intro as
  obtain ⟨t, c, ht, hc, hseqs⟩ :
      ∃ t c, (machine "run").exec started as = some t ∧ t.clients = [c] ∧ c.events.map (·.seq) = [2, 3] :=
    ⟨_, _, Machine.exec_append_eq_some.2 ⟨watched, exec_watch, rfl⟩, rfl, rfl⟩
  refine ⟨t, c, ht, hc, hseqs, (stream_delivers_iff start_started ht).1.2 ?_⟩
  refine Machine.throughout_append.2 ⟨throughout_watch, fun s hs => ?_⟩
  obtain rfl := Option.some.inj (exec_watch.symm.trans hs)
  refine .cons trivial rfl (.cons trivial rfl (.cons ?_ rfl (.cons ?_ rfl trivial)))
  · intro events projection hi c hc hpos hhere e he
    obtain ⟨rfl, rfl⟩ := Prod.mk.inj (Option.some.inj hi)
    rw [List.mem_singleton.1 hc, List.mem_singleton.1 he]
    exact Or.inl (by decide)
  · intro events projection hi c hc hpos hhere e he
    obtain ⟨rfl, rfl⟩ := Prod.mk.inj (Option.some.inj hi)
    rw [List.mem_singleton.1 hc, List.mem_singleton.1 he]
    exact Or.inl (by decide)

/-- The metrics of the later of the two events are recorded first: the other one is lost to the client. -/
theorem stream_delivers_overtaken :
    ¬ ∀ (as : List (Action (Option Rat))) (t : State (Option Rat)), (machine "run").exec started as = some t →
      t.pending = [] → ∀ c ∈ t.clients, 0 < c.afterSeq → c.here = .live →
        c.events = t.log.filter fun e => c.afterSeq < e.seq := by
  intro h
  obtain ⟨t, c, ht, hpending, hc, hpos, hhere, hevents⟩ :
      ∃ t c, (machine "run").exec started
          (watch ++ [emitted .runStarted, emitted .runCompleted, .publish 1, .publish 0]) = some t ∧
        t.pending = [] ∧ c ∈ t.clients ∧ 0 < c.afterSeq ∧ c.here = .live ∧
        c.events.length ≠ (t.log.filter fun e => c.afterSeq < e.seq).length :=
    ⟨_, _, Machine.exec_append_eq_some.2 ⟨watched, exec_watch, rfl⟩, rfl, List.mem_singleton_self _,
      Nat.one_pos, rfl, by decide⟩
  exact hevents (congrArg List.length (h _ t ht hpending c hc hpos hhere))

/-! ### Completion -/

section Completion

variable {runId : String} {s t : State N} {c : Client N}

private theorem Client.not_completed (hopen : c.isOpen = true) (published : List (CanonicalEvent N)) :
    c.here ≠ .completed published := by
  intro hhere
  rw [Client.isOpen, hhere] at hopen
  exact Bool.false_ne_true hopen

/-- A backfill has sent the rows up to `highSeq`. -/
theorem Client.Backfilling.mem_iff {log : List (CanonicalEvent N)} (h : c.Backfilling log)
    (hlog : Increasing CanonicalEvent.seq log) {e : CanonicalEvent N} (he : e ∈ log) (hseq : c.afterSeq < e.seq) :
    e ∈ c.events ↔ e.seq ≤ c.highSeq := by
  rw [h.highSeq]
  constructor
  · exact fun hsent => le_top_of_mem hsent
  · intro hle
    have hmem : e ∈ log.filter fun e => c.afterSeq < e.seq := List.mem_filter.2 ⟨he, by simpa using hseq⟩
    rw [filter_eq_append hlog h.sent] at hmem
    refine (List.mem_append.1 hmem).resolve_right fun hlater => ?_
    have hlt : top CanonicalEvent.seq c.afterSeq c.events < e.seq := by simpa using (List.mem_filter.1 hlater).2
    omega

/-- Before a client is live, it has been sent the rows up to `highSeq`. -/
theorem Inv.mem_events_iff (h : Inv s) (hc : c ∈ s.clients) (hopen : c.isOpen = true) (hlive : c.here ≠ .live)
    {e : CanonicalEvent N} (he : e ∈ s.published) (hseq : c.afterSeq < e.seq) : e ∈ c.events ↔ e.seq ≤ c.highSeq := by
  have hstage := (h.clients c hc).stage
  unfold Client.Stage at hstage
  split at hstage
  · obtain ⟨hevents, hhighSeq⟩ := hstage
    rw [hevents, hhighSeq]
    exact iff_of_false List.not_mem_nil (by omega)
  · exact hstage.1.mem_iff h.log_increasing (h.mem_log he) hseq
  · obtain ⟨before, hbefore, hbackfilling, -⟩ := hstage
    exact (hbackfilling.mono hbefore).mem_iff h.log_increasing (h.mem_log he) hseq
  · exact absurd ‹_› hlive
  · exact absurd ‹_› (Client.not_completed hopen _)
  · rename_i hhere
    rw [Client.isOpen, hhere] at hopen
    exact absurd hopen Bool.false_ne_true

/-- Only `complete` ends the response to a client with the hub. -/
theorem Inv.mem_of_completed (h : Inv s) {a : Action N} (hnext : StreamRun.next runId s a = some t)
    (ha : a ≠ .complete) {published : List (CanonicalEvent N)} (hc : c ∈ t.clients)
    (hhere : c.here = .completed published) : c ∈ s.clients := by
  have hset : ∀ {k : Nat} {c' : Client N}, c ∈ s.clients.set k c' → c'.here ≠ .completed published →
      c ∈ s.clients := by
    intro k c' hmem hne
    rcases List.mem_or_eq_of_mem_set hmem with hold | rfl
    · exact hold
    · exact absurd hhere hne
  cases a with
  | emit runCtx uuid events projection =>
    simp only [StreamRun.next] at hnext
    split_ifs at hnext
    rw [← Option.some.inj hnext] at hc
    exact hc
  | persist runCtx uuid events projection =>
    rw [← Option.some.inj hnext] at hc
    exact hc
  | publish i =>
    obtain ⟨⟨events, projection⟩, -, rfl⟩ := Option.map_eq_some_iff.1 hnext
    obtain ⟨c', hc', rfl⟩ := List.mem_map.1 hc
    unfold Client.next at hhere ⊢
    split at hhere
    · rename_i hlive
      rw [(Client.same_foldl_push c' _).here, hlive] at hhere
      exact absurd hhere (by simp)
    · exact hc'
    · exact hc'
    · exact absurd hhere (by simp_all)
  | connect afterSeq includeSnapshot =>
    rw [← Option.some.inj hnext] at hc
    rcases List.mem_append.1 hc with hc | hc
    · exact hc
    · rw [List.mem_singleton.1 hc] at hhere
      exact absurd hhere (Client.not_completed (Client.isOpen_subscribe _ _) _)
  | snapshot k state =>
    obtain ⟨c', -, hstep⟩ := Option.bind_eq_some_iff.1 hnext
    split at hstep
    · rw [← Option.some.inj hstep] at hc
      exact hset hc (Client.not_completed (Client.isOpen_backfill _) _)
    · exact absurd hstep (by simp)
  | read k =>
    obtain ⟨c', -, hstep⟩ := Option.bind_eq_some_iff.1 hnext
    split at hstep
    · rw [← Option.some.inj hstep] at hc
      exact hset hc (by simp)
    · exact absurd hstep (by simp)
  | receive k =>
    obtain ⟨c', -, hstep⟩ := Option.bind_eq_some_iff.1 hnext
    split at hstep
    · rw [← Option.some.inj hstep] at hc
      exact hset hc (Client.not_completed (Client.isOpen_page _ _ _) _)
    · exact absurd hstep (by simp)
  | fail k =>
    obtain ⟨c', -, hstep⟩ := Option.bind_eq_some_iff.1 hnext
    split at hstep
    · rw [← Option.some.inj hstep] at hc
      exact hset hc (by simp)
    · rw [← Option.some.inj hstep] at hc
      exact hset hc (by simp)
    · exact absurd hstep (by simp)
  | disconnect k =>
    obtain ⟨c', -, hstep⟩ := Option.bind_eq_some_iff.1 hnext
    split_ifs at hstep
    rw [← Option.some.inj hstep] at hc
    exact hset hc (by simp)
  | complete => exact absurd rfl ha
  | cleanup =>
    simp only [StreamRun.next] at hnext
    split_ifs at hnext with htimer habandons
    · rw [← Option.some.inj hnext] at hc
      obtain ⟨c', hc', rfl⟩ := List.mem_map.1 hc
      -- The timer has found no observers.
      have hopen : c'.isOpen = false := by
        have hnone := List.countP_eq_zero.1 (h.hub.cleanup htimer).1 c' hc'
        simpa using hnone
      rw [Client.complete, hopen]
      exact hc'
    · rw [← Option.some.inj hnext] at hc
      exact hc

/-- A step ends no response too early exactly when `complete` finds the backfills at the last published event. -/
theorem Inv.untruncated_iff (h : Inv s) (huntruncated : Untruncated s) {a : Action N}
    (hnext : StreamRun.next runId s a = some t) : Untruncated t ↔ CaughtUp s a := by
  by_cases ha : a = .complete
  · subst ha
    rw [← Option.some.inj hnext]
    by_cases hsubject : s.hub.subject = true
    · simp only [hsubject, if_true]
      constructor
      · intro hall c hc hpos hopen hlive e he hseq
        have hcompleted : Client.complete s.published c = { c with here := .completed s.published } := by
          rw [Client.complete, if_pos hopen]
        have hsent := hall _ (List.mem_map_of_mem hc)
        rw [hcompleted] at hsent
        exact (h.mem_events_iff hc hopen hlive he hseq).1 (hsent hpos s.published rfl e he hseq)
      · intro hcaught c' hc' hpos published hhere e he hseq
        obtain ⟨c, hc, rfl⟩ := List.mem_map.1 hc'
        by_cases hopen : c.isOpen = true
        · rw [Client.complete, if_pos hopen] at hpos hhere hseq ⊢
          obtain rfl : s.published = published := by simpa using hhere
          by_cases hlive : c.here = .live
          · exact (h.delivered c hc hpos hlive).2.2 e he hseq
          · exact (h.mem_events_iff hc hopen hlive he hseq).2 (hcaught c hc hpos hopen hlive e he hseq)
        · rw [Client.complete, if_neg hopen] at hpos hhere hseq ⊢
          exact huntruncated c hc hpos published hhere e he hseq
    · -- Nobody observes the subject.
      rw [if_neg hsubject]
      have hnone := List.countP_eq_zero.1 (h.hub.subject (by simpa using hsubject))
      refine iff_of_true huntruncated ?_
      exact fun c hc _ hopen => absurd hopen (hnone c hc)
  · have hcaught : CaughtUp s a := by
      cases a <;> first | exact absurd rfl ha | trivial
    refine iff_of_true (fun c hc hpos published hhere => ?_) hcaught
    exact huntruncated c (h.mem_of_completed hnext ha hc hhere) hpos published hhere

/-- Where no batch is overtaken: a response that ends with the hub has had all that had been published by then exactly
when `complete` finds the backfills at the last published event. -/
theorem stream_completes_iff {as : List (Action N)} (hs : (machine runId).start s)
    (h : (machine runId).exec s as = some t) (hwhen : (machine runId).Throughout InOrder s as) :
    (∀ bs u, bs <+: as → (machine runId).exec s bs = some u → Untruncated u) ↔
      (machine runId).Throughout CaughtUp s as := by
  refine hwhen.iff_of_step (I := fun s => Inv s ∧ Untruncated s) (fun _ hinv => hinv.2) ?_ ⟨Inv.of_start hs, ?_⟩ h
  · rintro s a t ⟨hinv, huntruncated⟩ hP hnext
    have hiff := hinv.untruncated_iff huntruncated hnext
    exact ⟨hiff.1, fun hcaught => ⟨hinv.next hP hnext, hiff.2 hcaught⟩⟩
  · obtain ⟨lastEventSeq, log, -, -, rfl⟩ := hs
    exact fun c hc => absurd hc List.not_mem_nil

end Completion

/-- A client that is live gets the terminal event before `complete`. -/
theorem stream_completes_live :
    let as := watch ++ [emitted .runCompleted, .publish 0, .complete]
    ∃ t c published, (machine "run").exec started as = some t ∧ t.clients = [c] ∧ c.here = .completed published ∧
      c.events.map (·.seq) = [2] ∧ ∀ bs u, bs <+: as → (machine "run").exec started bs = some u → Untruncated u := by
  intro as
  obtain ⟨t, c, published, ht, hc, hhere, hseqs⟩ :
      ∃ t c published, (machine "run").exec started as = some t ∧ t.clients = [c] ∧ c.here = .completed published ∧
        c.events.map (·.seq) = [2] :=
    ⟨_, _, _, Machine.exec_append_eq_some.2 ⟨watched, exec_watch, rfl⟩, rfl, rfl, rfl⟩
  refine ⟨t, c, published, ht, hc, hhere, hseqs, (stream_completes_iff start_started ht ?_).2 ?_⟩
  · refine Machine.throughout_append.2 ⟨throughout_watch, fun s hs => ?_⟩
    obtain rfl := Option.some.inj (exec_watch.symm.trans hs)
    refine .cons trivial rfl (.cons ?_ rfl (.cons trivial rfl trivial))
    intro events projection hi c hc hpos hhere e he
    obtain ⟨rfl, rfl⟩ := Prod.mk.inj (Option.some.inj hi)
    rw [List.mem_singleton.1 hc, List.mem_singleton.1 he]
    exact Or.inl (by decide)
  · refine Machine.throughout_append.2 ⟨.cons trivial rfl (.cons trivial next_read (.cons trivial rfl trivial)), ?_⟩
    intro s hs
    obtain rfl := Option.some.inj (exec_watch.symm.trans hs)
    refine .cons trivial rfl (.cons trivial rfl (.cons ?_ rfl trivial))
    intro c hc hpos hopen hlive
    rw [List.mem_singleton.1 hc] at hlive
    exact absurd rfl hlive

/-- `complete` ends the response while the page is under way, and the terminal event stays in the buffer. -/
theorem stream_completes_backfilling :
    ¬ ∀ (as : List (Action (Option Rat))) (t : State (Option Rat)), (machine "run").exec started as = some t →
      Untruncated t := by
  intro h
  let as : List (Action (Option Rat)) := [.connect 1 false, emitted .runCompleted, .publish 0, .complete]
  obtain ⟨t, c, published, ht, hc, hpos, hhere, hevents, e, he, hseq⟩ :
      ∃ t c published, (machine "run").exec started as = some t ∧ c ∈ t.clients ∧ 0 < c.afterSeq ∧
        c.here = .completed published ∧ c.events = [] ∧ ∃ e, e ∈ published ∧ c.afterSeq < e.seq :=
    ⟨_, _, _, rfl, List.mem_singleton_self _, Nat.one_pos, rfl, rfl, _,
      List.mem_cons_of_mem _ (List.mem_singleton_self _), by decide⟩
  have hsent := h as t ht c hc hpos published hhere e he hseq
  rw [hevents] at hsent
  exact absurd hsent List.not_mem_nil

end MacpControlPlane.StreamRun

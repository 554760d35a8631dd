import MacpControlPlane.Lib.Keyed
import MacpControlPlane.Projection.Sections

/-!
# Participants and their nodes

The reducer keeps a list of participants and a graph.  A participant gets its node when it is pushed, and every later
change of its status changes the node as well; the other nodes are the few with reserved ids that `message.received`
upserts.  `Shaped` says this of a projection, for ids of participants that are not reserved: each helper keeps it, and
so does every event.
-/

namespace MacpControlPlane

open Js

/-- The ids of the nodes that `message.received` upserts. -/
def reservedNodes : List String := ["__start", "__proposal", "__decision", "__outcome"]

/-- The node that shows a participant. -/
def ParticipantProjection.node (q : ParticipantProjection) : GraphNode :=
  ⟨q.participantId, "participant", q.status.name⟩

def GraphNode.isParticipant (n : GraphNode) : Bool := n.kind = "participant"

/-- The participants and the graph of a projection fit. -/
structure Shape (participants : List ParticipantProjection) (graph : GraphProjection) : Prop where
  participants_nodup : (participants.map (·.participantId)).Nodup
  participants_free : ∀ q ∈ participants, q.participantId ∉ reservedNodes
  participant_nodes : graph.nodes.filter (·.isParticipant) = participants.map (·.node)
  lifecycle_nodup : ((graph.nodes.filter (!·.isParticipant)).map (·.id)).Nodup
  lifecycle_reserved : ∀ n ∈ graph.nodes, n.isParticipant = false → n.id ∈ reservedNodes
  edges : ∀ e ∈ graph.edges, e.source ∈ graph.nodes.map (·.id) ∧ e.target ∈ graph.nodes.map (·.id)

section Shape

variable {ps ps' : List ParticipantProjection} {graph : GraphProjection}

theorem Shape.node_mem (h : Shape ps graph) {q : ParticipantProjection} (hq : q ∈ ps) : q.node ∈ graph.nodes := by
  have hmem : q.node ∈ ps.map (·.node) := List.mem_map_of_mem hq
  rw [← h.participant_nodes] at hmem
  exact (List.mem_filter.1 hmem).1

theorem Shape.exists_participant (h : Shape ps graph) {n : GraphNode} (hn : n ∈ graph.nodes)
    (hkind : n.isParticipant = true) : ∃ q ∈ ps, q.node = n := by
  have hmem : n ∈ graph.nodes.filter (·.isParticipant) := List.mem_filter.2 ⟨hn, hkind⟩
  rw [h.participant_nodes] at hmem
  exact List.mem_map.1 hmem

theorem Shape.nodes_nodup (h : Shape ps graph) : (graph.nodes.map (·.id)).Nodup := by
  have hperm : (graph.nodes.filter (·.isParticipant) ++ graph.nodes.filter (!·.isParticipant)).Perm graph.nodes :=
    List.filter_append_perm _ _
  have hparticipants : ((graph.nodes.filter (·.isParticipant)).map (·.id)).Nodup := by
    rw [h.participant_nodes, List.map_map]
    exact h.participants_nodup
  rw [← (hperm.map (·.id)).nodup_iff, List.map_append]
  refine List.Nodup.append hparticipants h.lifecycle_nodup ?_
  rw [h.participant_nodes, List.map_map]
  intro id hid hid'
  obtain ⟨q, hq, rfl⟩ := List.mem_map.1 hid
  obtain ⟨n, hn, hsame⟩ := List.mem_map.1 hid'
  obtain ⟨hmem, hkind⟩ := List.mem_filter.1 hn
  have hreserved := h.lifecycle_reserved n hmem (by simpa using hkind)
  rw [hsame] at hreserved
  exact h.participants_free q hq hreserved

/-- A new participant, with its node. -/
theorem Shape.add (h : Shape ps graph) {id : String} (hfree : id ∉ reservedNodes)
    (hnew : id ∉ ps.map (·.participantId)) :
    Shape (ps ++ [{ participantId := id, status := .idle }])
      { graph with nodes := graph.nodes ++ [⟨id, "participant", "idle"⟩] } := by
  have hnode : (⟨id, "participant", "idle"⟩ : GraphNode).isParticipant = true := by simp [GraphNode.isParticipant]
  constructor
  · exact nodup_map_concat _ h.participants_nodup hnew
  · intro q hq
    rcases List.mem_append.1 hq with hq | hq
    · exact h.participants_free q hq
    · obtain rfl := List.mem_singleton.1 hq
      exact hfree
  · rw [List.filter_append, h.participant_nodes, List.map_append]
    rfl
  · simpa [List.filter_append, hnode] using h.lifecycle_nodup
  · intro n hn hkind
    rcases List.mem_append.1 hn with hn | hn
    · exact h.lifecycle_reserved n hn hkind
    · obtain rfl := List.mem_singleton.1 hn
      rw [hnode] at hkind
      cases hkind
  · intro e he
    rw [List.map_append]
    exact ⟨List.mem_append_left _ (h.edges e he).1, List.mem_append_left _ (h.edges e he).2⟩

/-- A change of statuses, of the participants and of their nodes alike. -/
theorem Shape.restatus (h : Shape ps graph) {g : GraphNode → GraphNode} (hid : ∀ n, (g n).id = n.id)
    (hkind : ∀ n, (g n).kind = n.kind) (hps : ps'.map (·.node) = ps.map fun q => g q.node) :
    Shape ps' { graph with nodes := graph.nodes.map g } := by
  have hids : ps'.map (·.participantId) = ps.map (·.participantId) := by
    have hnodes := congrArg (List.map (·.id)) hps
    simpa [Function.comp_def, ParticipantProjection.node, hid] using hnodes
  have hparticipant : ∀ n, (g n).isParticipant = n.isParticipant := fun n => by simp [GraphNode.isParticipant, hkind]
  have hnodeIds : (graph.nodes.map g).map (·.id) = graph.nodes.map (·.id) := by
    simp [Function.comp_def, hid]
  constructor
  · rw [hids]
    exact h.participants_nodup
  · intro q hq
    have hmem : q.participantId ∈ ps'.map (·.participantId) := List.mem_map_of_mem hq
    rw [hids] at hmem
    obtain ⟨q', hq', heq⟩ := List.mem_map.1 hmem
    exact heq ▸ h.participants_free q' hq'
  · simp only [List.filter_map, Function.comp_def, hparticipant]
    rw [h.participant_nodes, List.map_map, hps]
    rfl
  · simp only [List.filter_map, Function.comp_def, hparticipant, List.map_map, hid]
    exact h.lifecycle_nodup
  · intro n hn hfalse
    obtain ⟨m, hm, rfl⟩ := List.mem_map.1 hn
    rw [hid]
    exact h.lifecycle_reserved m hm ((hparticipant m).symm.trans hfalse)
  · intro e he
    rw [hnodeIds]
    exact h.edges e he

/-- A node with a reserved id that is not there yet. -/
theorem Shape.addLifecycle (h : Shape ps graph) {node : GraphNode} (hkind : node.isParticipant = false)
    (hreserved : node.id ∈ reservedNodes) (hnew : node.id ∉ graph.nodes.map (·.id)) :
    Shape ps { graph with nodes := graph.nodes ++ [node] } := by
  constructor
  · exact h.participants_nodup
  · exact h.participants_free
  · simpa [List.filter_append, hkind] using h.participant_nodes
  · have hfilter : (graph.nodes ++ [node]).filter (!·.isParticipant) =
        graph.nodes.filter (!·.isParticipant) ++ [node] := by
      simp [List.filter_append, hkind]
    simp only [hfilter]
    refine nodup_map_concat _ h.lifecycle_nodup fun hmem => hnew ?_
    obtain ⟨n, hn, heq⟩ := List.mem_map.1 hmem
    exact heq ▸ List.mem_map_of_mem (List.mem_filter.1 hn).1
  · intro n hn hfalse
    rcases List.mem_append.1 hn with hn | hn
    · exact h.lifecycle_reserved n hn hfalse
    · obtain rfl := List.mem_singleton.1 hn
      exact hreserved
  · intro e he
    rw [List.map_append]
    exact ⟨List.mem_append_left _ (h.edges e he).1, List.mem_append_left _ (h.edges e he).2⟩

/-- Other edges between the nodes. -/
theorem Shape.setEdges (h : Shape ps graph) {edges : List GraphEdge}
    (hedges : ∀ e ∈ edges, e.source ∈ graph.nodes.map (·.id) ∧ e.target ∈ graph.nodes.map (·.id)) :
    Shape ps { graph with edges } :=
  ⟨h.participants_nodup, h.participants_free, h.participant_nodes, h.lifecycle_nodup, h.lifecycle_reserved, hedges⟩

end Shape

/-! ### The helpers -/

section Helpers

variable {N : Type} {p q u : RunStateProjection N}

def Shaped (p : RunStateProjection N) : Prop := Shape p.participants p.graph

/-- The graph has a node with this id. -/
def HasNode (p : RunStateProjection N) (id : String) : Prop := id ∈ p.graph.nodes.map (·.id)

private theorem Shaped.hasNode (h : Shaped p) {q : ParticipantProjection} (hq : q ∈ p.participants) :
    HasNode p q.participantId :=
  List.mem_map.2 ⟨q.node, h.node_mem hq, rfl⟩

/-- The step from `p` to `q` keeps the shape, and the nodes. -/
structure Keeps (p q : RunStateProjection N) : Prop where
  shaped : Shaped p → Shaped q
  hasNode : ∀ id, HasNode p id → HasNode q id

private theorem Keeps.refl (p : RunStateProjection N) : Keeps p p := ⟨id, fun _ => id⟩

private theorem Keeps.trans (h : Keeps p q) (h' : Keeps q u) : Keeps p u :=
  ⟨fun hp => h'.shaped (h.shaped hp), fun id hid => h'.hasNode id (h.hasNode id hid)⟩

/-- A participant that is pushed, unless it is there. -/
def ensureParticipant (p : RunStateProjection N) (participantId : String) : RunStateProjection N :=
  if p.participants.any (·.participantId = participantId) then p
  else
    { p with
      participants := p.participants ++ [{ participantId, status := .idle }]
      graph := { p.graph with nodes := p.graph.nodes ++ [⟨participantId, "participant", "idle"⟩] } }

private theorem ensureParticipant_keeps {id : String} (hfree : id ∉ reservedNodes) :
    Keeps p (ensureParticipant p id) := by
  unfold ensureParticipant
  split
  · exact Keeps.refl p
  · rename_i hnew
    constructor
    · intro h
      exact h.add hfree (by simpa using hnew)
    · intro id' hid'
      simp only [HasNode, List.map_append]
      exact List.mem_append_left _ hid'

private theorem mem_ensureParticipant (p : RunStateProjection N) (id : String) :
    ∃ q ∈ (ensureParticipant p id).participants, q.participantId = id := by
  unfold ensureParticipant
  split
  · rename_i hknown
    simpa using hknown
  · exact ⟨_, List.mem_append_right _ (List.mem_singleton.2 rfl), rfl⟩

/-- A change of one participant that keeps its id, and gives it the status of its node. -/
theorem shaped_modifyFirst (h : Shaped p) {id : String} {touch : ParticipantProjection → ParticipantProjection}
    {status : ParticipantStatus} (hid : ∀ q, (touch q).participantId = q.participantId)
    (hstatus : ∀ q, (touch q).status = status) :
    Shape (modifyFirst (·.participantId = id) touch p.participants)
      { p.graph with nodes := setNodeStatus p.graph.nodes id status.name } := by
  have hnodes : setNodeStatus p.graph.nodes id status.name =
      p.graph.nodes.map fun n => if n.id = id then { n with status := status.name } else n :=
    modifyFirst_eq_map GraphNode.id id h.nodes_nodup
  rw [hnodes, modifyFirst_eq_map ParticipantProjection.participantId id h.participants_nodup]
  refine h.restatus (fun n => ?_) (fun n => ?_) ?_
  · split <;> rfl
  · split <;> rfl
  · rw [List.map_map]
    refine List.map_congr_left fun q _ => ?_
    by_cases hq : q.participantId = id
    · simp [ParticipantProjection.node, hq, hid, hstatus]
    · simp [ParticipantProjection.node, hq]

/-- A change of one participant that keeps its id and its status. -/
theorem shaped_modifyFirst_settled (h : Shaped p) {id : String}
    {touch : ParticipantProjection → ParticipantProjection} (hnode : ∀ q, (touch q).node = q.node) :
    Shape (modifyFirst (·.participantId = id) touch p.participants) p.graph := by
  have hps : (modifyFirst (·.participantId = id) touch p.participants).map (·.node) =
      p.participants.map fun q => (fun n : GraphNode => n) q.node := map_modifyFirst _ hnode
  simpa using h.restatus (fun _ => rfl) (fun _ => rfl) hps

/-- The run has ended, and so has the participant. -/
def isSettled (p : RunStateProjection N) (participantId : String) : Bool :=
  terminalStatus p.run.status && (p.participants.find? (·.participantId = participantId)).any (·.status.terminal)

/-- A participant after an activity. -/
def touched (settled : Bool) (ts : String) (status : ParticipantStatus) (summary : Option String)
    (q : ParticipantProjection) : ParticipantProjection :=
  { q with
    status := if settled then q.status else status
    latestActivityAt := some ts
    latestSummary := if summary.getD "" = "" then q.latestSummary else summary }

/-- `touchParticipant` after the participant has been pushed. -/
def touchKnown (p : RunStateProjection N) (participantId ts : String) (status : ParticipantStatus)
    (summary : Option String) : RunStateProjection N :=
  let settled := isSettled p participantId
  { p with
    participants := modifyFirst (·.participantId = participantId) (touched settled ts status summary) p.participants
    graph :=
      { p.graph with
        nodes := if settled then p.graph.nodes else setNodeStatus p.graph.nodes participantId status.name } }

theorem touchParticipant_eq (p : RunStateProjection N) {id : String} (hid : id ≠ "") (ts : String)
    (status : ParticipantStatus) (summary : Option String) :
    touchParticipant p id ts status summary = touchKnown (ensureParticipant p id) id ts status summary := by
  unfold touchParticipant ensureParticipant
  rw [if_neg hid]
  cases p.participants.any (·.participantId = id) <;> rfl

private theorem touchKnown_keeps (p : RunStateProjection N) (id ts : String) (status : ParticipantStatus)
    (summary : Option String) : Keeps p (touchKnown p id ts status summary) := by
  unfold touchKnown
  dsimp only
  cases isSettled p id with
  | true => exact ⟨fun h => shaped_modifyFirst_settled h fun _ => rfl, fun _ hid => hid⟩
  | false =>
    refine ⟨fun h => shaped_modifyFirst h (fun _ => rfl) fun _ => rfl, fun id' hid' => ?_⟩
    have hids : (setNodeStatus p.graph.nodes id status.name).map (·.id) = p.graph.nodes.map (·.id) :=
      map_modifyFirst _ fun _ => rfl
    have hmem : id' ∈ (setNodeStatus p.graph.nodes id status.name).map (·.id) := by
      rw [hids]
      exact hid'
    exact hmem

private theorem touchParticipant_keeps {id : String} (hfree : id ∉ reservedNodes) (ts : String)
    (status : ParticipantStatus) (summary : Option String) : Keeps p (touchParticipant p id ts status summary) := by
  by_cases hid : id = ""
  · unfold touchParticipant
    rw [if_pos hid]
    exact Keeps.refl p
  · rw [touchParticipant_eq p hid]
    exact (ensureParticipant_keeps hfree).trans (touchKnown_keeps _ _ _ _ _)

private theorem hasNode_touchParticipant (hp : Shaped p) {id : String} (hid : id ≠ "") (hfree : id ∉ reservedNodes)
    (ts : String) (status : ParticipantStatus) (summary : Option String) :
    HasNode (touchParticipant p id ts status summary) id := by
  rw [touchParticipant_eq p hid]
  obtain ⟨q, hq, rfl⟩ := mem_ensureParticipant p id
  exact (touchKnown_keeps _ _ _ _ _).hasNode _ (((ensureParticipant_keeps hfree).shaped hp).hasNode hq)

/-! ### The sweep -/

/-- The participants that a sweep ends, with their indices. -/
def toSweep (participants : List ParticipantProjection) : List (ParticipantProjection × Nat) :=
  participants.zipIdx.filter fun q => !q.1.status.terminal

/-- The index of the participant that a sweep with this outcome marks as failed. -/
def sweepLast (participants : List ParticipantProjection) (outcome : RunStatus) : Option Nat :=
  if outcome = .failed then lastActive ((toSweep participants).filter (·.1.hasActivity)) else none

/-- A participant after the sweep. -/
def swept (last : Option Nat) (q : ParticipantProjection × Nat) : ParticipantProjection :=
  if q.1.status.terminal then q.1 else { q.1 with status := sweptStatus last q }

theorem sweepTerminal_participants (p : RunStateProjection N) (outcome : RunStatus) :
    (sweepTerminal p outcome).participants =
      p.participants.zipIdx.map (swept (sweepLast p.participants outcome)) := rfl

theorem swept_participantId (last : Option Nat) (q : ParticipantProjection × Nat) :
    (swept last q).participantId = q.1.participantId := by
  unfold swept
  split <;> rfl

private theorem map_eq_map_zipIdx {α β : Type} (f : α → β) (xs : List α) : xs.map f = xs.zipIdx.map fun x => f x.1 := by
  have hmap : (xs.zipIdx.map Prod.fst).map f = xs.zipIdx.map fun x => f x.1 := List.map_map
  rwa [List.zipIdx_map_fst] at hmap

private theorem zipIdx_nodup (h : Shaped p) : (p.participants.zipIdx.map (·.1.participantId)).Nodup := by
  rw [← map_eq_map_zipIdx ParticipantProjection.participantId]
  exact h.participants_nodup

/-- The node of a participant is swept with it. -/
theorem changeAll_node (h : Shaped p) (last : Option Nat) {q : ParticipantProjection × Nat}
    (hq : q ∈ p.participants.zipIdx) :
    changeAll GraphNode.id (fun q : ParticipantProjection × Nat => q.1.participantId)
        (fun q n => { n with status := (sweptStatus last q).name }) (toSweep p.participants) q.1.node =
      (swept last q).node := by
  have hnodup : ((toSweep p.participants).map (·.1.participantId)).Nodup :=
    (zipIdx_nodup h).sublist (List.filter_sublist.map _)
  unfold swept
  by_cases hterminal : q.1.status.terminal = true
  · rw [if_pos hterminal]
    refine changeAll_of_forall_ne fun q' hq' hsame => ?_
    obtain ⟨hmem, hactive⟩ := List.mem_filter.1 hq'
    have heq : q = q' := List.inj_on_of_nodup_map (zipIdx_nodup h) hq hmem hsame
    rw [← heq, hterminal] at hactive
    cases hactive
  · rw [if_neg hterminal]
    have hmem : q ∈ toSweep p.participants := List.mem_filter.2 ⟨hq, by simpa using hterminal⟩
    refine (changeAll_of_mem ?_ hnodup hmem ?_).trans ?_
    · exact fun _ _ => rfl
    · rfl
    · rfl

private theorem sweepTerminal_keeps (p : RunStateProjection N) (outcome : RunStatus) :
    Keeps p (sweepTerminal p outcome) := by
  have hkey : ∀ (q : ParticipantProjection × Nat) (n : GraphNode),
      ({ n with status := (sweptStatus (sweepLast p.participants outcome) q).name } : GraphNode).id = n.id :=
    fun _ _ => rfl
  constructor
  · intro h
    have hnodes : (sweepTerminal p outcome).graph.nodes = p.graph.nodes.map
        (changeAll GraphNode.id (fun q : ParticipantProjection × Nat => q.1.participantId)
          (fun q n => { n with status := (sweptStatus (sweepLast p.participants outcome) q).name })
          (toSweep p.participants)) :=
      foldl_modifyFirst_eq_map hkey h.nodes_nodup
    have hgraph : (sweepTerminal p outcome).graph = { p.graph with nodes := (sweepTerminal p outcome).graph.nodes } :=
      rfl
    unfold Shaped
    rw [hgraph, hnodes, sweepTerminal_participants]
    refine h.restatus (changeAll_keeps hkey) (changeAll_keeps fun _ _ => rfl) ?_
    rw [List.map_map, map_eq_map_zipIdx _ p.participants]
    exact List.map_congr_left fun q hq => (changeAll_node h (sweepLast p.participants outcome) hq).symm
  · intro id hid
    have hids : (sweepTerminal p outcome).graph.nodes.map (·.id) = p.graph.nodes.map (·.id) :=
      map_foldl_modifyFirst hkey
    unfold HasNode
    rw [hids]
    exact hid

/-! ### Nodes and edges -/

/-- `if (newRank > oldRank) existing.status = node.status` -/
def promote (status : String) (existing : GraphNode) : GraphNode :=
  if nodeRank existing.status < nodeRank status then { existing with status } else existing

@[simp] theorem promote_id (status : String) (n : GraphNode) : (promote status n).id = n.id := by
  unfold promote
  split <;> rfl

@[simp] theorem promote_kind (status : String) (n : GraphNode) : (promote status n).kind = n.kind := by
  unfold promote
  split <;> rfl

private theorem upsertNode_nodes (p : RunStateProjection N) (node : GraphNode) :
    (upsertNode p node).graph.nodes =
      if p.graph.nodes.any (·.id = node.id) then modifyFirst (·.id = node.id) (promote node.status) p.graph.nodes
      else p.graph.nodes ++ [node] := rfl

private theorem shaped_upsertNode (hp : Shaped p) {node : GraphNode} (hkind : node.isParticipant = false)
    (hreserved : node.id ∈ reservedNodes) : Shaped (upsertNode p node) := by
  have hgraph : (upsertNode p node).graph = { p.graph with nodes := (upsertNode p node).graph.nodes } := rfl
  have hparticipants : (upsertNode p node).participants = p.participants := rfl
  unfold Shaped
  rw [hgraph, hparticipants, upsertNode_nodes]
  by_cases hany : p.graph.nodes.any (·.id = node.id)
  · rw [if_pos hany, modifyFirst_eq_map GraphNode.id node.id hp.nodes_nodup]
    refine hp.restatus (fun n => ?_) (fun n => ?_) (List.map_congr_left fun q hq => ?_)
    · rw [apply_ite GraphNode.id, promote_id, ite_self]
    · rw [apply_ite GraphNode.kind, promote_kind, ite_self]
    · have hne : q.node.id ≠ node.id := by
        intro heq
        rw [← heq] at hreserved
        exact hp.participants_free q hq hreserved
      rw [if_neg hne]
  · rw [if_neg hany]
    exact hp.addLifecycle hkind hreserved (by simpa using hany)

private theorem upsertNode_keeps (p : RunStateProjection N) (node : GraphNode) (hkind : node.isParticipant = false)
    (hreserved : node.id ∈ reservedNodes) : Keeps p (upsertNode p node) := by
  refine ⟨fun hp => shaped_upsertNode hp hkind hreserved, fun id hid => ?_⟩
  unfold HasNode
  rw [upsertNode_nodes]
  split
  · rw [map_modifyFirst GraphNode.id (promote_id node.status)]
    exact hid
  · rw [List.map_append]
    exact List.mem_append_left _ hid

private theorem hasNode_upsertNode (p : RunStateProjection N) (node : GraphNode) :
    HasNode (upsertNode p node) node.id := by
  unfold HasNode
  rw [upsertNode_nodes]
  split
  · rename_i hany
    rw [map_modifyFirst GraphNode.id (promote_id node.status)]
    simpa using hany
  · simp

/-- An edge between two nodes; one without a source or a target is not drawn. -/
theorem upsertEdge_keeps (p : RunStateProjection N) {source target : String} (kind ts : String)
    (hsource : source ≠ "" → target ≠ "" → HasNode p source) (htarget : source ≠ "" → target ≠ "" → HasNode p target) :
    Keeps p (upsertEdge p source target kind ts) := by
  refine ⟨fun hp => hp.setEdges ?_, fun id hid => hid⟩
  split
  · exact hp.edges
  · rename_i hdrawn
    have hnotSource : source ≠ "" := fun h => hdrawn (.inl h)
    have hnotTarget : target ≠ "" := fun h => hdrawn (.inr (.inl h))
    split
    · exact forall_mem_modifyFirst hp.edges fun e _ _ he => he
    · intro e he
      rcases List.mem_append.1 he with he | he
      · exact hp.edges e he
      · obtain rfl := List.mem_singleton.1 he
        exact ⟨hsource hnotSource hnotTarget, htarget hnotSource hnotTarget⟩

namespace Reducer

private theorem touchRecipients_keeps (p : RunStateProjection N) {rs : List String}
    (hfree : ∀ r ∈ rs, r ∉ reservedNodes) (ts : String) : Keeps p (touchRecipients p rs ts) := by
  unfold touchRecipients
  induction rs generalizing p with
  | nil => exact Keeps.refl p
  | cons r rs ih =>
    obtain ⟨hr, hrs⟩ := List.forall_mem_cons.1 hfree
    exact (touchParticipant_keeps hr ts _ _).trans (ih _ hrs)

private theorem hasNode_touchRecipients {p : RunStateProjection N} (hp : Shaped p) {rs : List String}
    (hfree : ∀ r ∈ rs, r ∉ reservedNodes) (ts : String) :
    ∀ r ∈ rs, r ≠ "" → HasNode (touchRecipients p rs ts) r := by
  induction rs generalizing p with
  | nil => simp
  | cons r rs ih =>
    obtain ⟨hr, hrs⟩ := List.forall_mem_cons.1 hfree
    have htouched : Shaped (touchParticipant p r ts .waiting none) := (touchParticipant_keeps hr ts _ _).shaped hp
    refine List.forall_mem_cons.2 ⟨fun hne => ?_, ih htouched hrs⟩
    exact (touchRecipients_keeps _ hrs ts).hasNode r (hasNode_touchParticipant hp hne hr ts _ _)

/-- Edges between nodes; those without a source or a target are not drawn. -/
theorem upsertEdges_keeps (p : RunStateProjection N) {edges : List (String × String × String)} (ts : String)
    (h : ∀ e ∈ edges, e.1 ≠ "" → e.2.1 ≠ "" → HasNode p e.1 ∧ HasNode p e.2.1) :
    Keeps p (upsertEdges p edges ts) := by
  unfold upsertEdges
  induction edges generalizing p with
  | nil => exact Keeps.refl p
  | cons e edges ih =>
    obtain ⟨he, hedges⟩ := List.forall_mem_cons.1 h
    exact (upsertEdge_keeps p e.2.2 ts (fun hs ht => (he hs ht).1) fun hs ht => (he hs ht).2).trans (ih _ hedges)

private theorem sliceEdges_keeps (n : Nat) (p : RunStateProjection N) : Keeps p (sliceEdges n p) :=
  ⟨fun hp => hp.setEdges fun e he => hp.edges e (List.mem_of_mem_drop he), fun _ hid => hid⟩

private theorem sessionSweep_keeps (state : Option String) (p : RunStateProjection N) :
    Keeps p (sessionSweep state p) := by
  unfold sessionSweep
  split
  · exact sweepTerminal_keeps p _
  · split
    · exact sweepTerminal_keeps p _
    · split
      · exact sweepTerminal_keeps p _
      · exact Keeps.refl p

/-- The lifecycle nodes and edges, for a sender and recipients that have been touched. -/
theorem lifecycleGraph_keeps [JsNumber N] (p : RunStateProjection N) {sender : String} {rs : List String}
    (messageType : String) (decoded : Option (Json N)) (ts : String) (hsender : sender ≠ "" → HasNode p sender)
    (hrs : ∀ r ∈ rs, r ≠ "" → HasNode p r) : Keeps p (lifecycleGraph p sender messageType rs decoded ts) := by
  have hlimit : ∀ q : RunStateProjection N, Keeps q (limitSuspend q decoded) := fun q => ⟨fun h => h, fun _ h => h⟩
  have hstart := upsertNode_keeps p ⟨"__start", "start", "completed"⟩ rfl (by decide)
  have hstartNode := hasNode_upsertNode p ⟨"__start", "start", "completed"⟩
  unfold lifecycleGraph
  dsimp only
  split
  · -- the start points to the sender, and the sender to the recipients
    have hlimited := hstart.trans (hlimit _)
    have hedge : Keeps _ (upsertEdge (limitSuspend (upsertNode p ⟨"__start", "start", "completed"⟩) decoded) "__start"
        sender "session.bound" ts) :=
      upsertEdge_keeps _ _ ts (fun _ _ => hstartNode) fun _ h => hlimited.hasNode _ (hsender h)
    have hbound := hlimited.trans hedge
    refine hbound.trans (upsertEdges_keeps _ ts ?_)
    intro e he hsource htarget
    obtain ⟨r, hr, rfl⟩ := List.mem_map.1 he
    exact ⟨hbound.hasNode _ (hsender hsource), hbound.hasNode _ (hrs r hr htarget)⟩
  · split
    · -- the sender points to the proposal, and the proposal to the recipients
      have hnode := hstart.trans (upsertNode_keeps _ ⟨"__proposal", "proposal", "completed"⟩ rfl (by decide))
      have hproposal := hasNode_upsertNode (upsertNode p ⟨"__start", "start", "completed"⟩)
        ⟨"__proposal", "proposal", "completed"⟩
      have hedge := upsertEdge_keeps (upsertNode (upsertNode p ⟨"__start", "start", "completed"⟩)
        ⟨"__proposal", "proposal", "completed"⟩) "proposes" ts (fun h _ => hnode.hasNode _ (hsender h))
        fun _ _ => hproposal
      refine (hnode.trans hedge).trans (upsertEdges_keeps _ ts ?_)
      intro e he _ htarget
      obtain ⟨r, hr, rfl⟩ := List.mem_map.1 he
      exact ⟨hedge.hasNode _ hproposal, (hnode.trans hedge).hasNode _ (hrs r hr htarget)⟩
    · split
      · have hnode := hstart.trans (upsertNode_keeps _ ⟨"__decision", "decision", "active"⟩ rfl (by decide))
        exact hnode.trans (upsertEdge_keeps _ _ ts (fun h _ => hnode.hasNode _ (hsender h))
          fun _ _ => hasNode_upsertNode _ ⟨"__decision", "decision", "active"⟩)
      · split
        · have hdecision := hstart.trans
            (upsertNode_keeps _ ⟨"__decision", "decision", "completed"⟩ rfl (by decide))
          have houtcome := upsertNode_keeps (upsertNode (upsertNode p ⟨"__start", "start", "completed"⟩)
            ⟨"__decision", "decision", "completed"⟩) ⟨"__outcome", "output", "completed"⟩ rfl (by decide)
          refine (hdecision.trans houtcome).trans (upsertEdge_keeps _ _ ts (fun _ _ => ?_) fun _ _ => ?_)
          · exact houtcome.hasNode _ (hasNode_upsertNode _ ⟨"__decision", "decision", "completed"⟩)
          · exact hasNode_upsertNode _ ⟨"__outcome", "output", "completed"⟩
        · exact hstart

/-! ### The cases of the `switch` -/

variable [JsNumber N]

/-- The participants of a `SessionStart`. -/
def sessionParticipants (event : CanonicalEvent N) : List String :=
  let decoded := decodedPayload event
  if stringOr (event.datum "messageType") "" = "SessionStart" then
    strings ((asArray (coalesce (field decoded "participants") (field decoded "participantIds"))).getD [])
  else []

/-- The participants, senders and recipients that an event names. -/
def namedParticipants (event : CanonicalEvent N) : List String :=
  match event.type with
  | .participantSeen => [stringOr (coalesce (event.datum "participantId") event.subjectId) ""]
  | .messageSent => messageSender event :: explicitRecipients event
  | .messageReceived => messageSender event :: (explicitRecipients event ++ sessionParticipants event)
  | _ => []

private theorem participantSeen_shaped {p : RunStateProjection N} {e : CanonicalEvent N} (hp : Shaped p)
    (hfree : stringOr (coalesce (e.datum "participantId") e.subjectId) "" ∉ reservedNodes) :
    Shaped (participantSeen p e) := by
  have hensure : participantSeen p e =
      ensureParticipant p (stringOr (coalesce (e.datum "participantId") e.subjectId) "") := rfl
  rw [hensure]
  exact (ensureParticipant_keeps hfree).shaped hp

private theorem messageSent_shaped {p : RunStateProjection N} {e : CanonicalEvent N} (hp : Shaped p)
    (hsender : messageSender e ∉ reservedNodes) (hrs : ∀ r ∈ explicitRecipients e, r ∉ reservedNodes) :
    Shaped (messageSent p e) := by
  obtain ⟨summary, hsummary⟩ : ∃ summary, summary = some (stringOr (e.datum "messageType") e.type.name) := ⟨_, rfl⟩
  have hfirst := touchParticipant_keeps (p := p) hsender e.ts .active summary
  have hrest := touchRecipients_keeps (touchParticipant p (messageSender e) e.ts .active summary) hrs e.ts
  have htouched : Shaped (touchRecipients (touchParticipant p (messageSender e) e.ts .active summary)
      (explicitRecipients e) e.ts) := (hfirst.trans hrest).shaped hp
  unfold messageSent sliceEdges
  dsimp only
  rw [← hsummary]
  refine htouched.setEdges fun edge hedge => ?_
  rcases List.mem_append.1 (List.mem_of_mem_drop hedge) with hedge | hedge
  · exact htouched.edges edge hedge
  · obtain ⟨r, hr, rfl⟩ := List.mem_map.1 hedge
    obtain ⟨hr, hdrawn⟩ := List.mem_filter.1 hr
    have hne : messageSender e ≠ "" ∧ r ≠ "" := by simpa using hdrawn
    exact ⟨hrest.hasNode _ (hasNode_touchParticipant hp hne.1 hsender _ _ _),
      hasNode_touchRecipients (hfirst.shaped hp) hrs e.ts r hr hne.2⟩

private theorem inferRecipients_free {p : RunStateProjection N} {e : CanonicalEvent N} (hp : Shaped p)
    (hexplicit : ∀ r ∈ explicitRecipients e, r ∉ reservedNodes)
    (hsession : ∀ r ∈ sessionParticipants e, r ∉ reservedNodes) (sender : String) :
    ∀ r ∈ inferRecipients p e sender (stringOr (e.datum "messageType") "") (decodedPayload e), r ∉ reservedNodes := by
  unfold inferRecipients
  dsimp only
  intro r hr
  split at hr
  · rename_i hstart
    refine hsession r ?_
    unfold sessionParticipants
    rw [if_pos hstart.2]
    exact (List.mem_filter.1 hr).1
  · split at hr
    · obtain ⟨q, hq, rfl⟩ := List.mem_map.1 (List.mem_filter.1 hr).1
      exact hp.participants_free q hq
    · exact hexplicit r hr

private theorem messageReceived_shaped {p : RunStateProjection N} {e : CanonicalEvent N} (hp : Shaped p)
    (hsender : messageSender e ∉ reservedNodes) (hexplicit : ∀ r ∈ explicitRecipients e, r ∉ reservedNodes)
    (hsession : ∀ r ∈ sessionParticipants e, r ∉ reservedNodes) : Shaped (messageReceived p e) := by
  unfold messageReceived
  dsimp only
  generalize hlabel : (if stringOr (e.datum "messageType") "" ≠ "" then stringOr (e.datum "messageType") ""
    else e.type.name) = label
  have hfirst := touchParticipant_keeps (p := p) hsender e.ts .active (some label)
  generalize hp₁ : touchParticipant p (messageSender e) e.ts .active (some label) = p₁ at hfirst ⊢
  have hrs := inferRecipients_free (hfirst.shaped hp) hexplicit hsession (messageSender e)
  generalize inferRecipients p₁ e (messageSender e) (stringOr (e.datum "messageType") "") (decodedPayload e) = rs
    at hrs ⊢
  have hrest := touchRecipients_keeps p₁ hrs e.ts
  have hsenderNode : messageSender e ≠ "" → HasNode (touchRecipients p₁ rs e.ts) (messageSender e) := by
    intro hne
    refine hrest.hasNode _ ?_
    rw [← hp₁]
    exact hasNode_touchParticipant hp hne hsender _ _ _
  have hrsNode := hasNode_touchRecipients (hfirst.shaped hp) hrs e.ts
  have hgraph := lifecycleGraph_keeps (touchRecipients p₁ rs e.ts) (stringOr (e.datum "messageType") "")
    (decodedPayload e) e.ts hsenderNode hrsNode
  have hlifecycle := ((hfirst.trans hrest).trans hgraph).shaped hp
  apply (sliceEdges_keeps 300 _).shaped
  refine (upsertEdges_keeps _ e.ts ?_).shaped hlifecycle
  intro edge hedge hsource htarget
  obtain ⟨r, hr, rfl⟩ := List.mem_map.1 hedge
  exact ⟨hgraph.hasNode _ (hsenderNode hsource), hgraph.hasNode _ (hrsNode r (List.mem_filter.1 hr).1 htarget)⟩

/-- The event names no reserved node as a participant, and its recipients, when it has any, are a list of strings. -/
structure PlainIds (event : CanonicalEvent N) : Prop where
  free : ∀ id ∈ namedParticipants event, id ∉ reservedNodes
  recipients : ∀ v, defined (event.datum "to") = some v → ∃ ids : List String, v = .arr (ids.map .str)

private theorem dispatch_shaped (r : String) {p : RunStateProjection N} {e : CanonicalEvent N} (hp : Shaped p)
    (hfree : ∀ id ∈ namedParticipants e, id ∉ reservedNodes) : Shaped (dispatch r p e) := by
  unfold namedParticipants at hfree
  unfold dispatch
  cases htype : e.type with
  | runCompleted => exact (sweepTerminal_keeps _ _).shaped hp
  | runFailed | runCancelled => exact (sweepTerminal_keeps _ _).shaped hp
  | sessionBound | sessionStateChanged => exact (sessionSweep_keeps _ (sessionUpdate p e)).shaped hp
  | participantSeen =>
    rw [htype] at hfree
    exact participantSeen_shaped hp (hfree _ (List.mem_singleton.2 rfl))
  | messageSent =>
    rw [htype] at hfree
    obtain ⟨hsender, hrs⟩ := List.forall_mem_cons.1 hfree
    exact messageSent_shaped hp hsender hrs
  | messageReceived =>
    rw [htype] at hfree
    obtain ⟨hsender, hrs⟩ := List.forall_mem_cons.1 hfree
    exact messageReceived_shaped hp hsender (fun r hr => hrs r (List.mem_append_left _ hr))
      fun r hr => hrs r (List.mem_append_right _ hr)
  | proposalCreated | proposalUpdated =>
    obtain ⟨policy, h⟩ := proposal_eq p e
    dsimp only
    rw [h]
    exact hp
  | signalEmitted | progressReported | policyCommitmentEvaluated =>
    dsimp only [signalEmitted, progressReported, policyCommitmentEvaluated]
    unfold Shaped
    exact hp
  | _ => exact hp

private theorem foldl_shaped (r : String) {p : RunStateProjection N} {es : List (CanonicalEvent N)} (hp : Shaped p)
    (hes : ∀ e ∈ es, ∀ id ∈ namedParticipants e, id ∉ reservedNodes) : Shaped (es.foldl (applyEvent r) p) :=
  List.foldlRecOn es (applyEvent r) hp fun q hq e he => dispatch_shaped r (p := track q e) hq (hes e he)

private theorem shaped_empty (runId : String) : Shaped (.empty runId : RunStateProjection N) :=
  ⟨List.nodup_nil, by simp [RunStateProjection.empty], rfl, List.nodup_nil, by simp [RunStateProjection.empty],
    by simp [RunStateProjection.empty]⟩

theorem applyEvents_shaped (runId : String) {es : List (CanonicalEvent N)}
    (hes : ∀ e ∈ es, ∀ id ∈ namedParticipants e, id ∉ reservedNodes) : Shaped (applyEvents (.empty runId) es) :=
  foldl_shaped _ (shaped_empty runId) hes

end Reducer

end Helpers

end MacpControlPlane

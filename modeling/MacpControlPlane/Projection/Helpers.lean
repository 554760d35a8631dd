import MacpControlPlane.Contracts

/-!
# Helpers of the reducer (`projection/projection.service.ts`)

The free functions that read a decoded payload, and the private methods that change a part of the projection in place.
A method that writes a part is an update of that part, so that what it leaves alone is left alone by definition.
-/

namespace MacpControlPlane

open Js

variable {N : Type} [JsNumber N]

/-! ### Reading a payload -/

def safeOptionalNumber (val : Option (Json N)) : Option N :=
  match defined val with
  | none => none
  | some v =>
    let n : N := toNumber (some v)
    if JsNumber.isFinite n then some n else none

/-- A character of `[0-9a-f]` -/
def isLowerHex (c : Char) : Bool :=
  ('0' ≤ c && c ≤ '9') || ('a' ≤ c && c ≤ 'f')

/-- `isCanonicalCommitmentHash`: `/^sha256:[0-9a-f]{64}$/` -/
def isCanonicalCommitmentHash (hash : String) : Bool :=
  startsWith hash "sha256:" && (hash.toList.drop 7).length = 64 && (hash.toList.drop 7).all isLowerHex

def extractSupersedes (raw : Option (Json N)) : Option CommitmentSupersedes :=
  let sessionId := stringOr (coalesce (field raw "sessionId") (field raw "session_id")) ""
  let commitmentHash := stringOr (coalesce (field raw "commitmentHash") (field raw "commitment_hash")) ""
  if sessionId = "" ∧ commitmentHash = "" then none
  else some { sessionId, commitmentHash, canonical := some (isCanonicalCommitmentHash commitmentHash) }

omit [JsNumber N] in
def deriveMissingCanonical (decision : DecisionProjection N) : DecisionProjection N :=
  match decision.current with
  | some current =>
    match current.supersedes with
    | some ⟨sessionId, commitmentHash, none⟩ =>
      let canonical := some (isCanonicalCommitmentHash commitmentHash)
      { current := some { current with supersedes := some ⟨sessionId, commitmentHash, canonical⟩ } }
    | _ => decision
  | none => decision

def inferContributionAction (messageType : String) (payload : Option (Json N)) : String :=
  let vote := coalesce (field payload "vote") (field payload "recommendation")
  let action := coalesce (coalesce (field payload "action") (field payload "option")) (field payload "revisedAction")
  if truthy vote then stringOr vote ""
  else if truthy action then stringOr action ""
  else if messageType ≠ "" then messageType else "contribution"

omit [JsNumber N] in
def isImplicitAccept (payload messageId : Option (Json N)) : Bool :=
  asBool (field payload "implicit") = some true ||
    (asString messageId).any fun id => startsWith id "implicit-accept:"

def inferContributionVote (messageType : String) (payload : Option (Json N)) : Option Vote :=
  let raw := upperCase (stringOr (coalesce (field payload "vote") (field payload "recommendation")) "")
  if raw ∈ ["APPROVE", "ACCEPT", "ALLOW", "YES"] then some .allow
  else if raw ∈ ["REJECT", "DENY", "BLOCK", "NO"] then some .deny
  else if messageType ∈ ["Accept", "Approve", "TaskAccept", "HandoffAccept"] then some .allow
  else if messageType ∈ ["Reject", "TaskReject", "HandoffDecline"] then some .deny
  else none

def extractReasons (payload : Option (Json N)) : List String :=
  if truthy payload then
    let fields := ["reason", "rationale", "summary"].filterMap fun k => asString (field payload k)
    let list := strings ((asArray (field payload "reasons")).getD [])
    (fields ++ list).filter (· ≠ "")
  else []

def inferOutcomePositiveFromAction (action : String) : Option Bool :=
  let a := lowerCase action
  if a ∈ ["approve", "approved", "accept", "accepted", "selected", "completed"] then some true
  else if a ∈ ["reject", "rejected", "decline", "declined", "failed"] then some false
  else none

/-! ### Changing a part of the projection -/

/-- `const node = nodes.find((n) => n.id === id); if (node) node.status = status` -/
def setNodeStatus (nodes : List GraphNode) (id status : String) : List GraphNode :=
  modifyFirst (·.id = id) (fun node => { node with status }) nodes

def bumpVoteTally (p : RunStateProjection N) (commitmentId : String) (vote : Vote) : RunStateProjection N :=
  let tally := p.policy.voteTally.getD []
  let tally := if tally.any (·.commitmentId = commitmentId) then tally else tally ++ [{ commitmentId := commitmentId }]
  let voters := p.participants.filter (·.role = some "voter")
  let required := if voters.length > 0 then voters.length else p.participants.length
  let bump := fun entry : VoteTallyEntry =>
    let allow := if vote = .allow then entry.allow + 1 else entry.allow
    let deny := if vote = .allow then entry.deny else entry.deny + 1
    { entry with allow, deny, cast := allow + deny, required, threshold := (required + 1) / 2 }
  { p with
    policy :=
      { p.policy with
        voteTally := some (modifyFirst (·.commitmentId = commitmentId) bump tally)
        quorumStatus := if p.policy.quorumStatus = none then some .pending else p.policy.quorumStatus } }

/-- `new Set(['completed', 'failed', 'skipped']).has(status)` -/
def ParticipantStatus.terminal (s : ParticipantStatus) : Bool :=
  s = completed || s = failed || s = skipped

/-- `Boolean(participant.latestActivityAt)` -/
def ParticipantProjection.hasActivity (q : ParticipantProjection) : Bool :=
  q.latestActivityAt.getD "" ≠ ""

/-- `withActivity.reduce((a, b) => (a.latestActivityAt > b.latestActivityAt ? a : b))`, as the index of the
participant. -/
def lastActive : List (ParticipantProjection × Nat) → Option Nat
  | [] => none
  | a :: rest =>
    let later := fun a b : ParticipantProjection × Nat =>
      if stringGt (a.1.latestActivityAt.getD "") (b.1.latestActivityAt.getD "") then a else b
    some (rest.foldl later a).2

/-- The status that `sweepTerminal` gives a participant: `last` is the index of `lastActive`. -/
def sweptStatus (last : Option Nat) (q : ParticipantProjection × Nat) : ParticipantStatus :=
  if !q.1.hasActivity then .skipped
  else if last = some q.2 then .failed
  else .completed

def sweepTerminal (p : RunStateProjection N) (outcome : RunStatus) : RunStateProjection N :=
  let toSweep := p.participants.zipIdx.filter fun q => !q.1.status.terminal
  let last := if outcome = .failed then lastActive (toSweep.filter (·.1.hasActivity)) else none
  let sweep := fun q : ParticipantProjection × Nat =>
    if q.1.status.terminal then q.1 else { q.1 with status := sweptStatus last q }
  let sweepNode := fun nodes (q : ParticipantProjection × Nat) =>
    setNodeStatus nodes q.1.participantId (sweptStatus last q).name
  { p with
    participants := p.participants.zipIdx.map sweep
    graph := { p.graph with nodes := toSweep.foldl sweepNode p.graph.nodes } }

/-- `order.indexOf(status)` of `upsertNode` -/
def nodeRank (status : String) : Int :=
  match ["idle", "waiting", "active", "completed", "failed"].findIdx? (· = status) with
  | some i => i
  | none => -1

def upsertNode (p : RunStateProjection N) (node : GraphNode) : RunStateProjection N :=
  let promote := fun existing : GraphNode =>
    if nodeRank existing.status < nodeRank node.status then { existing with status := node.status } else existing
  let nodes :=
    if p.graph.nodes.any (·.id = node.id) then modifyFirst (·.id = node.id) promote p.graph.nodes
    else p.graph.nodes ++ [node]
  { p with graph := { p.graph with nodes } }

def upsertEdge (p : RunStateProjection N) (source target kind ts : String) : RunStateProjection N :=
  let same := fun e : GraphEdge => e.source = source && e.target = target && e.kind = kind
  let edges :=
    if source = "" ∨ target = "" ∨ source = target then p.graph.edges
    else if p.graph.edges.any same then modifyFirst same (fun e => { e with ts }) p.graph.edges
    else p.graph.edges ++ [⟨source, target, kind, ts⟩]
  { p with graph := { p.graph with edges } }

/-- `['completed', 'failed', 'cancelled'].includes(status)` of a status that was cast from JSON. -/
def terminalStatus (status : Json N) : Bool :=
  status.is "completed" || status.is "failed" || status.is "cancelled"

def touchParticipant (p : RunStateProjection N) (participantId ts : String) (status : ParticipantStatus)
    (summary : Option String) : RunStateProjection N :=
  if participantId = "" then p
  else
    let known := p.participants.any (·.participantId = participantId)
    let participants := if known then p.participants else p.participants ++ [{ participantId, status := .idle }]
    let nodes := if known then p.graph.nodes else p.graph.nodes ++ [⟨participantId, "participant", "idle"⟩]
    -- A participant that the end of the run has settled is not activated again.
    let settled := terminalStatus p.run.status &&
      (participants.find? (·.participantId = participantId)).any (·.status.terminal)
    let touch := fun q : ParticipantProjection =>
      { q with
        status := if settled then q.status else status
        latestActivityAt := some ts
        latestSummary := if summary.getD "" = "" then q.latestSummary else summary }
    { p with
      participants := modifyFirst (·.participantId = participantId) touch participants
      graph := { p.graph with nodes := if settled then nodes else setNodeStatus nodes participantId status.name } }

end MacpControlPlane

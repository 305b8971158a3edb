import Mathlib.Data.List.MinMax
import Mathlib.Data.Prod.Lex
import TunnelMesh.Registry
import TunnelMesh.Server.AgentSessions

namespace TunnelMesh.Server

open List Function
open Registry (NodeOwner)

section Choice

variable {α : Type} {rank : α → ℤ}

structure Chooses (rank : α → ℤ) (l : List α) (best : Option α) : Prop where
  none_iff : best = none ↔ l = []
  least : ∀ x ∈ best, x ∈ l ∧ ∀ y ∈ l, rank x ≤ rank y

theorem Chooses.map {β : Type} {rank' : β → ℤ} {best : Option α} (h : Chooses rank l best) (f : α → β)
    (hr : ∀ x, rank' (f x) = rank x) : Chooses rank' (l.map f) (best.map f) where
  none_iff := by simpa using h.none_iff
  least := by
    intro y hy
    obtain ⟨x, hx, rfl⟩ := Option.map_eq_some_iff.mp hy
    simpa [hr] using ⟨⟨x, (h.least x hx).1, rfl⟩, (h.least x hx).2⟩

end Choice

-- A session as a selection finds it, with the streams that the local relay
-- carries on it. Registration gives every connection an id.
structure LocalSession where
  session : AgentSession
  healthy : Bool
  lastHeartbeat : ℕ
  activeStreams : ℕ
  named : session.connectionID ≠ ""

structure AgentConnectionTarget where
  agentID : String
  connectionID : String
  connectionEpoch : ℤ
  isLocal : Bool
  serverNodeID : String
  serverNodeEpoch : ℤ
  activeStreams : ℤ
  healthScore : ℤ

inductive SelectError where
  | nodeDisconnected
  | registry (text : String)

def streamProtocolCapability (fold : Char → Char) (proto : String) : String :=
  if Text.equalFold fold proto "icmp-echo" then "stream_icmp_echo.v1"
  else if Text.equalFold fold proto "exec" then "agent_exec.v1"
  else ""

def LocalSession.serves (s : LocalSession) (required : String) : Bool :=
  s.healthy && (required == "" || s.session.capabilities.contains required)

def LocalSession.target (s : LocalSession) : AgentConnectionTarget :=
  ⟨s.session.agentID, s.session.connectionID, s.session.connectionEpoch, true, "", 0, s.activeStreams, 100⟩

-- The integers as a linear order: as a complete one they are not computable.
local instance intPreorder : Preorder ℤ := Int.instLinearOrder.toPreorder

-- The loop keeps the first session with the fewest streams, and of those with
-- as many the one that was heard of last.
def bestSession (required : String) (sessions : List LocalSession) : Option LocalSession :=
  (sessions.filter (·.serves required)).argmin fun s => toLex ((s.activeStreams : ℤ), -(s.lastHeartbeat : ℤ))

def elsewhere (localNodeID : String) (owner : NodeOwner) : Bool :=
  owner.serverNodeID ≠ "" && owner.serverNodeID ≠ localNodeID

def ownerTarget (owner : NodeOwner) : AgentConnectionTarget :=
  ⟨owner.agentID, owner.connectionID, owner.connectionEpoch, false, owner.serverNodeID, owner.serverNodeEpoch,
    owner.activeStreams, owner.healthScore⟩

def bestRemote (localNodeID : String) (owners : List NodeOwner) : Option NodeOwner :=
  (owners.filter (elsewhere localNodeID)).argmin fun owner => toLex (owner.activeStreams, -owner.healthScore)

-- `connections` is the answer of `ListAgentConnections`, `none` without a registry.
def select (fold : Char → Char) (localNodeID proto : String) (sessions : List LocalSession)
    (connections : Option (Except String (List NodeOwner))) : Except SelectError AgentConnectionTarget :=
  match bestSession (streamProtocolCapability fold proto) sessions with
  | some best => .ok best.target
  | none =>
    match connections with
    | none => .error .nodeDisconnected
    | some (.error text) => .error (.registry text)
    | some (.ok owners) => (bestRemote localNodeID owners).elim (.error .nodeDisconnected) fun best => .ok (ownerTarget best)

structure AgentConnectionCandidate where
  connectionID : String
  serverNodeID : String
  activeStreams : ℤ
  healthScore : ℤ
  rtt : ℤ

-- What the policy asks of a choice among the usable connections.
structure Preferred (localNodeID : String) (usable : List AgentConnectionCandidate) (c : AgentConnectionCandidate) :
    Prop where
  mem : c ∈ usable
  nearby : ∀ d ∈ usable, d.serverNodeID = localNodeID → c.serverNodeID = localNodeID
  fewest : ∀ d ∈ usable, (d.serverNodeID = localNodeID ↔ c.serverNodeID = localNodeID) →
    c.activeStreams ≤ d.activeStreams

structure Follows (localNodeID : String) (usable : List AgentConnectionCandidate)
    (best : Option AgentConnectionCandidate) : Prop where
  none_iff : best = none ↔ usable = []
  preferred : ∀ c ∈ best, Preferred localNodeID usable c

theorem Chooses.follows
    (h : Chooses (·.activeStreams) (if usable.filter (·.serverNodeID == localNodeID) = [] then usable
      else usable.filter (·.serverNodeID == localNodeID)) best) : Follows localNodeID usable best := by
  split at h
  · next hnil =>
    refine ⟨h.none_iff, fun c hc => ⟨(h.least c hc).1, fun d hd hl => ?_, fun d hd _ => (h.least c hc).2 d hd⟩⟩
    exact absurd hl (by simpa using filter_eq_nil_iff.mp hnil d hd)
  · next hs =>
    have hne : usable ≠ [] := fun hnil => hs (by rw [hnil]; rfl)
    refine ⟨by simp only [h.none_iff, hs, hne], fun c hc => ?_⟩
    have hleast := h.least c hc
    simp only [mem_filter, beq_iff_eq] at hleast
    obtain ⟨⟨hc, hl⟩, hleast⟩ := hleast
    exact ⟨hc, fun _ _ _ => hl, fun d hd hsame => hleast d ⟨hd, hsame.mpr hl⟩⟩

def AgentConnectionTarget.candidate (localNodeID : String) (t : AgentConnectionTarget) : AgentConnectionCandidate :=
  ⟨t.connectionID, if t.isLocal then localNodeID else t.serverNodeID, t.activeStreams, t.healthScore, 0⟩

section Select

variable {serves : String → String → Bool}

end Select

end TunnelMesh.Server

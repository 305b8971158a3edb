import Mathlib.Algebra.GroupWithZero.Nat
import Mathlib.Data.List.AList
import TunnelMesh.Text

namespace TunnelMesh.Server

-- What a session has for good. Whether it is closed, its writer and its metadata
-- are left out.
structure AgentSession where
  agentID : String
  nodeID : String
  epoch : ℤ
  connectionID : String
  connectionEpoch : ℤ
  serverGeneration : ℕ
  capabilities : List String
  deriving DecidableEq

structure AgentRegistration where
  agentID : String
  nodeID : String
  epoch : ℤ
  connectionID : String
  connectionEpoch : ℤ
  capabilities : List String

structure AgentSessionConfig where
  supportedCapabilities : List String
  maxConnectionsPerAgent : ℤ

def defaultAgentMaxConnectionsPerAgent : ℕ := 64

def AgentSessionConfig.connectionLimit (cfg : AgentSessionConfig) : ℕ :=
  if cfg.maxConnectionsPerAgent ≤ 0 then defaultAgentMaxConnectionsPerAgent else cfg.maxConnectionsPerAgent.toNat

abbrev Connections := AList fun _ : String => AgentSession

structure AgentSessionManager where
  sessions : AList fun _ : String => Connections
  connectionOrder : AList fun _ : String => List String
  nextServerGeneration : ℕ
  retiredGenerations : List ℕ

def newAgentSessionManager : AgentSessionManager := ⟨∅, ∅, 0, []⟩

inductive RegisterError where
  | authentication
  | refused
  | epoch
  | capacity (agentID : String) (held : ℕ)
  | generationExhausted

def newAgentSession (cfg : AgentSessionConfig) (req : AgentRegistration) : AgentSession where
  agentID := req.agentID
  nodeID := req.nodeID
  epoch := req.epoch
  connectionID := if Text.trimSpace req.connectionID = "" then "legacy" else Text.trimSpace req.connectionID
  connectionEpoch := if req.connectionEpoch = 0 then req.epoch else req.connectionEpoch
  serverGeneration := 0
  capabilities :=
    if cfg.supportedCapabilities = [] then req.capabilities
    else req.capabilities.filter (· ∈ cfg.supportedCapabilities)

namespace AgentSessionManager

variable (m : AgentSessionManager) (agentID : String)

def connections : Connections := (m.sessions.lookup agentID).getD ∅

def order : List String := (m.connectionOrder.lookup agentID).getD []

def ensureAgent : AgentSessionManager :=
  if agentID ∈ m.sessions then m else { m with sessions := m.sessions.insert agentID ∅ }

def place (s : AgentSession) : AgentSessionManager :=
  { m with
    nextServerGeneration := m.nextServerGeneration + 1
    sessions := m.sessions.insert s.agentID ((m.connections s.agentID).insert s.connectionID s)
    connectionOrder :=
      if s.connectionID ∈ m.order s.agentID then m.connectionOrder
      else m.connectionOrder.insert s.agentID (m.order s.agentID ++ [s.connectionID]) }

def register (cfg : AgentSessionConfig) (m : AgentSessionManager) (req : AgentRegistration) (authenticated : Bool) :
    AgentSessionManager × Except RegisterError AgentSession :=
  if Text.trimSpace req.agentID = "" ∨ Text.trimSpace req.nodeID = "" ∨ req.epoch ≤ 0 then
    (m, .error .authentication)
  else if authenticated = false then (m, .error .refused)
  else
    let s := newAgentSession cfg req
    let m := m.ensureAgent req.agentID
    let held := m.connections req.agentID
    if (held.lookup s.connectionID).any fun old => s.connectionEpoch ≤ old.connectionEpoch then (m, .error .epoch)
    else if s.connectionID ∉ held ∧ cfg.connectionLimit ≤ held.keys.length then
      (m, .error (.capacity req.agentID held.keys.length))
    else if m.nextServerGeneration = 2 ^ 64 - 1 then (m, .error .generationExhausted)
    else
      let s : AgentSession := { s with serverGeneration := m.nextServerGeneration + 1 }
      (m.place s, .ok s)

def remove : AgentSessionManager :=
  { m with
    sessions := m.sessions.erase agentID
    connectionOrder := m.connectionOrder.erase agentID
    retiredGenerations :=
      (m.connections agentID).entries.map (fun entry => entry.2.serverGeneration) ++ m.retiredGenerations }

def removeSession (expected : AgentSession) : AgentSessionManager :=
  if (m.connections agentID).lookup expected.connectionID = some expected then
    let held := (m.connections agentID).erase expected.connectionID
    let retired := expected.serverGeneration :: m.retiredGenerations
    if held.keys = [] then
      { m with
        sessions := m.sessions.erase agentID
        connectionOrder := m.connectionOrder.erase agentID
        retiredGenerations := retired }
    else
      { m with
        sessions := m.sessions.insert agentID held
        connectionOrder :=
          m.connectionOrder.insert agentID ((m.order agentID).filter fun id => id != expected.connectionID)
        retiredGenerations := retired }
  else m

def list : List AgentSession :=
  (m.order agentID).filterMap fun connectionID => (m.connections agentID).lookup connectionID

def get : Option AgentSession := (m.list agentID).head?

def getConnection (agentID connectionID : String) : Option AgentSession :=
  if connectionID = "" then none else (m.connections agentID).lookup connectionID

inductive LookupError where
  | sessionClosed
  | ambiguousAgentID

def getCaseInsensitive (fold : Char → Char) (m : AgentSessionManager) (id : String) :
    Except LookupError (Option AgentSession) :=
  if Text.trimSpace id = "" then .error .sessionClosed
  else match m.sessions.keys.filter fun key => Text.equalFold fold key id with
    | [] => .error .sessionClosed
    | [key] => .ok (m.get key)
    | _ => .error .ambiguousAgentID

def getServerGeneration (serverGeneration : ℕ) : Option AgentSession :=
  (m.sessions.entries.flatMap fun held => held.2.entries.map Sigma.snd).find?
    fun s => s.serverGeneration = serverGeneration

def sendServerGeneration (id : String) (serverGeneration : ℕ) : Option AgentSession :=
  ((m.connections id).entries.map Sigma.snd).find? fun s => s.serverGeneration = serverGeneration

end AgentSessionManager

inductive SessionOperation where
  | register (req : AgentRegistration) (authenticated : Bool)
  | remove (agentID : String)
  | removeSession (agentID : String) (expected : AgentSession)
  | list (agentID : String)
  | get (agentID : String)
  | getConnection (agentID connectionID : String)
  | getCaseInsensitive (id : String)

structure SessionRegistry where
  manager : AgentSessionManager
  log : List AgentSession

def newSessionRegistry : SessionRegistry := ⟨newAgentSessionManager, []⟩

namespace SessionRegistry

variable (cfg : AgentSessionConfig) (r : SessionRegistry)

def register (req : AgentRegistration) (authenticated : Bool) :
    SessionRegistry :=
  match r.manager.register cfg req authenticated with
  | (m, .ok s) => ⟨m, r.log ++ [s]⟩
  | (m, .error _) => ⟨m, r.log⟩

def apply : SessionOperation → SessionRegistry
  | .register req authenticated => r.register cfg req authenticated
  | .remove agentID => ⟨r.manager.remove agentID, r.log⟩
  | .removeSession agentID expected => ⟨r.manager.removeSession agentID expected, r.log⟩
  | .list _ => r
  | .get _ => r
  | .getConnection _ _ => r
  | .getCaseInsensitive _ => r

def applyAll (ops : List SessionOperation) : SessionRegistry :=
  ops.foldl (apply cfg) r

end SessionRegistry

end TunnelMesh.Server

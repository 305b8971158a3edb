import TunnelMesh.Registry
import TunnelMesh.Storage.Registration
import TunnelMesh.Storage.ServerNode

namespace TunnelMesh.Registry.Database

open TunnelMesh.Storage TunnelMesh.Text

def register (req : NodeRegistration) : Except RegistryError Registration.Request :=
  if trimSpace req.nodeID = "" ∨ trimSpace req.agentID = "" then .error .required
  else .ok
    { agentID := req.agentID
      connectionID := req.connectionID
      nodeID := req.nodeID
      instanceID := req.instanceID
      serverNodeID := if req.serverNodeID = "" then req.nodeID else req.serverNodeID
      epoch := 0
      connectionEpoch := 0
      activeStreams := 0
      healthScore := 0
      ttl := ttlOrMinute req.ttl }

-- The renewal and the list are two statements: `renewed` is the table at the
-- first, `listed` the table at the second.
def keepAlive (renewed listed : LeaseTable) (owner : NodeOwner) (ttl : ℤ) (now later : ℕ) :
    Except RegistryError NodeOwner :=
  match renewConnection renewed owner.agentID owner.connectionID owner.epoch ttl now with
  | none => .error .fencing
  | some _ =>
    match (listActiveByAgent listed owner.agentID later).find?
      (·.connectionID = owner.connectionID) with
    | none => .error .fencing
    | some lease =>
      if lease.connectionEpoch ≠ owner.epoch ∨ lease.nodeID ≠ owner.nodeID then .error .fencing
      else .ok { owner with expiresAt := lease.expiresAt }

def revoke (leases : LeaseTable) (owner : NodeOwner) : Except RegistryError LeaseTable :=
  match releaseConnection leases owner.agentID owner.connectionID owner.epoch with
  | none => .error .fencing
  | some next => .ok next

def updateConnectionStats (leases : LeaseTable) (owner : NodeOwner) (now : ℕ) : Option LeaseTable :=
  Storage.updateConnectionStats leases owner.agentID owner.connectionID owner.connectionEpoch
    owner.activeStreams owner.healthScore now

def nodeOwner (lease : AgentLease) (nodeID : String) (node : ServerNode) : NodeOwner where
  nodeID := node.id
  address := node.address
  metadata := node.metadata
  agentID := lease.agentID
  instanceID := lease.instanceID
  connectionID := lease.connectionID
  serverNodeID := nodeID
  epoch := lease.connectionEpoch
  connectionEpoch := lease.connectionEpoch
  serverNodeEpoch := node.epoch
  activeStreams := lease.activeStreams
  healthScore := lease.healthScore
  expiresAt := lease.expiresAt
  leaseID := 0

-- The leases are read at `now` and their expiry is looked at once more `later`.
def listAgentConnections (nodes : NodeTable) (leases : LeaseTable) (agentID : String) (now later : ℕ) :
    List NodeOwner :=
  (listActiveByAgent leases agentID now).filterMap fun lease =>
    if lease.expiresAt ≤ later then none
    else
      let nodeID := if lease.serverNodeID = "" then lease.nodeID else lease.serverNodeID
      (nodes.get nodeID).map (nodeOwner lease nodeID)

end TunnelMesh.Registry.Database

import Mathlib.Data.Int.Notation
import Mathlib.Data.Nat.Notation

namespace TunnelMesh.Registry

structure NodeRegistration where
  nodeID : String
  address : String
  metadata : String
  agentID : String
  instanceID : String
  connectionID : String
  serverNodeID : String
  ttl : ℤ

def NodeRegistration.pair (req : NodeRegistration) : String × String := (req.agentID, req.connectionID)

structure NodeOwner where
  nodeID : String
  address : String
  metadata : String
  agentID : String
  instanceID : String
  connectionID : String
  serverNodeID : String
  epoch : ℤ
  connectionEpoch : ℤ
  serverNodeEpoch : ℤ
  activeStreams : ℤ
  healthScore : ℤ
  expiresAt : ℕ
  leaseID : ℕ

def NodeOwner.pair (owner : NodeOwner) : String × String := (owner.agentID, owner.connectionID)

inductive RegistryError where
  | required
  | leaseHeld
  | fencing
  | notFound
  | leaseExpired
  | client

def RegistryError.message : RegistryError → String
  | .required => "node_id and agent_id are required"
  | .leaseHeld => "agent lease is held by another node"
  | .fencing => "stale registry epoch"
  | .notFound => "registry owner not found"
  | .leaseExpired => "registry lease expired"
  | .client => "client error"

end TunnelMesh.Registry

import TunnelMesh.Registry.Database
import TunnelMesh.Relay.NodeAuth.Theorems
import TunnelMesh.Storage.ClientLease

namespace TunnelMesh.Relay

open TunnelMesh.Authorization TunnelMesh.Registry TunnelMesh.Storage Text

structure WebSSHSession where
  id : String
  ownerNodeID : String

structure Cluster where
  db : Database
  nodes : NodeTable
  leases : LeaseTable
  clientLeases : ClientLeaseTable
  sessions : Table WebSSHSession.id

structure RelayConfig where
  enabled : Bool
  endpoint : String
  nodeToken : String
  tlsLoads : Bool

structure RuntimeConfig where
  nodeID : String
  relay : RelayConfig

variable (config : RuntimeConfig)

def serverNodeID : String :=
  if trimSpace config.nodeID = "" then "local" else config.nodeID

inductive CloseError where
  | nodeUnavailable
  | epoch
  | sessionClosed
  | noRows

-- What a close service does with a request: it answers itself, it closes the
-- connection on its own node, or it dials the node that owns the connection.
inductive Route where
  | answered (result : Except CloseError Unit)
  | closed
  | remote (nodeID address : String) (epoch : ℤ)

def agentRoute (owners : List NodeOwner) (localNodeID agentID connectionID : String) (epoch : ℤ) : Route :=
  let same := owners.filter fun owner => owner.agentID = agentID && owner.connectionID = connectionID
  match same.find? fun owner => owner.connectionEpoch = epoch with
  | none => .answered (if same.isEmpty then .ok () else .error .epoch)
  | some exact =>
    if exact.serverNodeID = "" ∨ exact.serverNodeID = localNodeID then .closed
    else if exact.address = "" ∨ exact.serverNodeEpoch ≤ 0 then .answered (.error .nodeUnavailable)
    else .remote exact.serverNodeID exact.address exact.serverNodeEpoch

def ownerRoute (nodes : NodeTable) (localNodeID ownerID : String) : Route :=
  if ownerID = "" ∨ ownerID = localNodeID then .closed
  else match nodes.get ownerID with
    | none => .answered (.error .nodeUnavailable)
    | some node =>
      if node.enabled = false ∨ node.deletedAt ≠ none ∨ node.epoch ≤ 0 ∨ node.address = "" then
        .answered (.error .nodeUnavailable)
      else .remote ownerID node.address node.epoch

structure ClientConnectionCloseRequest where
  connectionID : String
  connectionEpoch : ℤ
  clientInstanceID : String

variable (cluster : Cluster)

def clientRoute (localNodeID : String) (request : ClientConnectionCloseRequest) : Route :=
  if request.connectionID = "" ∨ request.connectionEpoch ≤ 0 ∨ request.clientInstanceID = "" then
    .answered (.error .sessionClosed)
  else match cluster.clientLeases.get request.connectionID with
    | none => .answered (.error .sessionClosed)
    | some lease =>
      if lease.clientInstanceID ≠ request.clientInstanceID then .answered (.error .sessionClosed)
      else if lease.connectionEpoch ≠ request.connectionEpoch then .answered (.error .epoch)
      else ownerRoute cluster.nodes localNodeID lease.serverNodeID

def webSSHRoute (localNodeID sessionID : String) : Route :=
  match cluster.sessions.get sessionID with
  | none => .answered (.error .noRows)
  | some session => ownerRoute cluster.nodes (trimSpace localNodeID) session.ownerNodeID

inductive CloseTarget where
  | agent (agentID connectionID : String) (epoch : ℤ)
  | client (request : ClientConnectionCloseRequest)
  | webSSH (sessionID : String)

def closeRoute (config : RuntimeConfig) (now later : ℕ) : CloseTarget → Route
  | .agent agentID connectionID epoch =>
    agentRoute (Registry.Database.listAgentConnections cluster.nodes cluster.leases agentID now later)
      (serverNodeID config) agentID connectionID epoch
  | .client request => clientRoute cluster (serverNodeID config) request
  | .webSSH sessionID => webSSHRoute cluster (serverNodeID config) sessionID

structure NodeTransport where
  endpoint : String
  nodeID : String
  epoch : ℤ
  rawToken : String

inductive DialError where
  | disabled
  | endpoint
  | epoch
  | tls
  | identity

def DialError.message : DialError → String
  | .disabled => "server runtime: authenticated relay is disabled"
  | .endpoint => "server runtime: relay endpoint is required"
  | .epoch => "server runtime: relay epoch is required"
  | .tls => "server runtime: load relay client certificate"
  | .identity => "relay: server-node identity is required"

def dialRelayNode (endpoint : String) (epoch : ℤ) : Except DialError NodeTransport :=
  let endpoint := if trimSpace endpoint = "" then config.relay.endpoint else endpoint
  if config.relay.enabled = false then .error .disabled
  else if trimSpace endpoint = "" then .error .endpoint
  else if epoch ≤ 0 then .error .epoch
  else if config.relay.tlsLoads = false then .error .tls
  else if trimSpace config.nodeID = "" ∨ trimSpace config.relay.nodeToken = "" then .error .identity
  else .ok ⟨endpoint, config.nodeID, epoch, config.relay.nodeToken⟩

def sentMetadata (address : String) (epoch : ℤ) : Option Metadata := do
  let transport ← (dialRelayNode config address epoch).toOption
  (callerMetadata transport.nodeID transport.epoch transport.rawToken).toOption

end TunnelMesh.Relay

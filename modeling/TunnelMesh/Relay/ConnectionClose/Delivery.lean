import Mathlib
import TunnelMesh.Bytes
import TunnelMesh.Relay.ConnectionClose
import TunnelMesh.Relay.StructValue

namespace TunnelMesh.Relay

open Rounding ByteArray

def newClientConnectionEpoch (entropy : Vector UInt8 8) : Int64 :=
  let epoch := (UInt64.ofNat (Bytes.bigEndian entropy.toList)).toInt64
  let epoch := if epoch ≤ 0 then -epoch else epoch
  if epoch ≤ 0 then 1 else epoch

structure CloseAgentConnectionRequest where
  agentID : ByteArray
  connectionID : ByteArray
  connectionEpoch : Int64
  requestedByNodeID : ByteArray

structure CloseClientConnectionRequest where
  connectionID : ByteArray
  connectionEpoch : Int64
  requestedByNodeID : ByteArray

def closeAgentConnectionMetadata (req : CloseAgentConnectionRequest) : List (String × Field) :=
  [("agent_id", .string req.agentID), ("connection_id", .string req.connectionID),
    ("connection_epoch", .int req.connectionEpoch.toInt), ("requested_by_node_id", .string req.requestedByNodeID)]

def closeAgentConnectionRequestFromMetadata (outside : OutOfRange) (fields : Fields) :
    CloseAgentConnectionRequest where
  agentID := getStringValue (fields.lookup "agent_id")
  connectionID := getStringValue (fields.lookup "connection_id")
  connectionEpoch := (getNumberValue (fields.lookup "connection_epoch")).toInt64 outside
  requestedByNodeID := getStringValue (fields.lookup "requested_by_node_id")

def closeClientConnectionMetadata (req : CloseClientConnectionRequest) : List (String × Field) :=
  [("connection_id", .string req.connectionID), ("connection_epoch", .int req.connectionEpoch.toInt),
    ("requested_by_node_id", .string req.requestedByNodeID)]

def closeClientConnectionRequestFromMetadata (outside : OutOfRange) (fields : Fields) :
    CloseClientConnectionRequest where
  connectionID := getStringValue (fields.lookup "connection_id")
  connectionEpoch := (getNumberValue (fields.lookup "connection_epoch")).toInt64 outside
  requestedByNodeID := getStringValue (fields.lookup "requested_by_node_id")

-- A remote procedure that closes a connection: how its request is encoded and
-- what both ends of it refuse.
structure CloseProcedure (request : Type) where
  metadata : request → List (String × Field)
  fromMetadata : OutOfRange → Fields → request
  invalid : request → Bool
  requestedByNodeID : request → ByteArray

def closeAgentConnection : CloseProcedure CloseAgentConnectionRequest where
  metadata := closeAgentConnectionMetadata
  fromMetadata := closeAgentConnectionRequestFromMetadata
  invalid req := req.agentID = empty ∨ req.connectionID = empty ∨ req.connectionEpoch ≤ 0 ∨
    req.requestedByNodeID = empty
  requestedByNodeID := CloseAgentConnectionRequest.requestedByNodeID

def closeClientConnection : CloseProcedure CloseClientConnectionRequest where
  metadata := closeClientConnectionMetadata
  fromMetadata := closeClientConnectionRequestFromMetadata
  invalid req := req.connectionID = empty ∨ req.connectionEpoch ≤ 0 ∨ req.requestedByNodeID = empty
  requestedByNodeID := CloseClientConnectionRequest.requestedByNodeID

inductive CloseStatus where
  | ok
  | invalidArgument
  | permissionDenied
  | failedPrecondition
  | notFound
  | unknown
  | internal
  deriving DecidableEq

def closeStatus : Except CloseError Unit → CloseStatus
  | .ok () => .ok
  | .error .epoch => .failedPrecondition
  | .error .sessionClosed => .notFound
  | .error _ => .internal

namespace CloseProcedure

variable {request : Type} (procedure : CloseProcedure request)

def received (outside : OutOfRange) (req : request) : Option request :=
  (newStruct (procedure.metadata req)).map (procedure.fromMetadata outside)

-- The call of a node with the identity `nodeID`, whose handler at the owner closes
-- the connection that is named.
def invoke (outside : OutOfRange) (nodeID : ByteArray) (close : request → Except CloseError Unit) (req : request) :
    CloseStatus :=
  if procedure.invalid req then .invalidArgument
  else match procedure.received outside req with
    | none => .unknown
    | some got =>
      if procedure.invalid got then .invalidArgument
      else if nodeID ≠ procedure.requestedByNodeID got then .permissionDenied
      else closeStatus (close got)

end CloseProcedure

abbrev ClientSessions := ByteArray → Option Int64

def ClientSessions.closeConnection (sessions : ClientSessions) (req : CloseClientConnectionRequest) :
    Except CloseError Unit :=
  if req.connectionID = empty then .error .sessionClosed
  else match sessions req.connectionID with
    | none => .error .sessionClosed
    | some epoch => if epoch ≠ req.connectionEpoch then .error .epoch else .ok ()

structure AgentLeaseOwner where
  agentID : ByteArray
  connectionID : ByteArray
  connectionEpoch : Int64
  sessionEpoch : Int64

structure LeasedSession where
  connectionEpoch : Int64
  closed : Bool

-- The leases of a node's Agent connections and the sessions they are for. Which of
-- several leases of one connection is found is left to the order of the list.
structure AgentLeases where
  owners : List AgentLeaseOwner
  sessions : ByteArray → ByteArray → Option LeasedSession

def AgentLeases.closeSession (leases : AgentLeases) (agentID connectionID : ByteArray) (epoch : Int64) :
    Except CloseError Unit :=
  if connectionID = empty then .error .sessionClosed
  else match leases.sessions agentID connectionID with
    | none => .error .sessionClosed
    | some session =>
      if session.connectionEpoch ≠ epoch then .error .epoch
      else if session.closed then .error .sessionClosed
      else .ok ()

def AgentLeases.closeConnection (leases : AgentLeases) (req : CloseAgentConnectionRequest) : Except CloseError Unit :=
  match leases.owners.find? fun owner => owner.agentID = req.agentID ∧ owner.connectionID = req.connectionID with
  | none => .error .sessionClosed
  | some owner =>
    if owner.connectionEpoch ≠ req.connectionEpoch then .error .epoch
    else leases.closeSession req.agentID req.connectionID owner.sessionEpoch

end TunnelMesh.Relay

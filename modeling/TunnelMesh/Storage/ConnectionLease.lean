import TunnelMesh.Storage.Timestamp
import TunnelMesh.Table

namespace TunnelMesh.Storage

-- The value of an int64 expression: Go's arithmetic wraps around.
def int64 (n : ℤ) : ℤ := n.bmod (2 ^ 64)

-- A row of `agent_connection_leases`. The timestamp columns hold `tm` of the
-- times given here.
structure AgentLease where
  agentID : String
  connectionID : String
  nodeID : String
  instanceID : String
  serverNodeID : String
  epoch : ℤ
  connectionEpoch : ℤ
  activeStreams : ℤ
  healthScore : ℤ
  acquiredAt : ℕ
  expiresAt : ℕ
  updatedAt : ℕ
  deriving DecidableEq

def AgentLease.key (lease : AgentLease) : String × String := (lease.agentID, lease.connectionID)

abbrev LeaseTable := Table AgentLease.key

def ttlOrMinute (ttl : ℤ) : ℕ := if ttl ≤ 0 then minute else ttl.toNat

namespace AgentLease

-- `agent_id=? AND connection_id=? AND connection_epoch=?`
def heldAt (pair : String × String) (connectionEpoch : ℤ) (lease : AgentLease) : Bool :=
  lease.key = pair ∧ lease.connectionEpoch = connectionEpoch

-- `expires_at>?`, compared as text.
def activeText (now : ℕ) (lease : AgentLease) : Bool := tm now < tm lease.expiresAt

def renewed (ttl : ℤ) (now : ℕ) (lease : AgentLease) : AgentLease :=
  { lease with expiresAt := now + ttlOrMinute ttl, updatedAt := now }

def withStats (activeStreams healthScore : ℤ) (now : ℕ) (lease : AgentLease) : AgentLease :=
  { lease with activeStreams, healthScore, updatedAt := now }

theorem key_renewed (ttl : ℤ) (now : ℕ) (lease : AgentLease) : (lease.renewed ttl now).key = lease.key := rfl

theorem key_withStats (activeStreams healthScore : ℤ) (now : ℕ) (lease : AgentLease) :
    (lease.withStats activeStreams healthScore now).key = lease.key := rfl

-- `agent_id=? AND connection_id=? AND connection_epoch=? AND expires_at>?`
def activeAt (pair : String × String) (connectionEpoch : ℤ) (now : ℕ)
    (lease : AgentLease) : Bool :=
  lease.heldAt pair connectionEpoch && lease.activeText now

end AgentLease

variable (leases : LeaseTable) (agentID connectionID : String)

-- The statements below return `none` for `sql.ErrNoRows`.
def renewConnection (epoch ttl : ℤ)
    (now : ℕ) : Option LeaseTable :=
  let cond := AgentLease.activeAt (agentID, connectionID) epoch now
  if leases.affected cond = 0 then none
  else some (leases.update cond (AgentLease.renewed ttl now) (AgentLease.key_renewed ttl now))

def releaseConnection (epoch : ℤ) :
    Option LeaseTable :=
  let cond := AgentLease.heldAt (agentID, connectionID) epoch
  if leases.affected cond = 0 then none else some (leases.delete cond)

def updateConnectionStats
    (epoch activeStreams healthScore : ℤ) (now : ℕ) : Option LeaseTable :=
  let cond := AgentLease.activeAt (agentID, connectionID) epoch now
  if leases.affected cond = 0 then none
  else some (leases.update cond (AgentLease.withStats activeStreams healthScore now)
    (AgentLease.key_withStats activeStreams healthScore now))

-- `WHERE agent_id=? AND expires_at>? ORDER BY connection_id`
def listActiveByAgent (agentID : String) (now : ℕ) : List AgentLease :=
  (leases.rows.filter fun lease => lease.agentID = agentID && lease.activeText now).mergeSort
    fun a b => a.connectionID ≤ b.connectionID

end TunnelMesh.Storage

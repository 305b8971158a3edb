import TunnelMesh.Storage.Timestamp
import TunnelMesh.Table

namespace TunnelMesh.Storage

-- A row of `client_connection_leases`. The timestamp columns hold `tm` of the
-- times given here.
structure ClientConnectionLease where
  connectionID : String
  clientInstanceID : String
  tokenID : String
  ownerUserID : String
  serverNodeID : String
  connectionEpoch : ℤ
  activeStreams : ℤ
  healthScore : ℤ
  acquiredAt : ℕ
  expiresAt : ℕ
  updatedAt : ℕ

abbrev ClientLeaseTable := Table ClientConnectionLease.connectionID

def defaultClientConnectionDeleteBatch : ℕ := 1000

-- `expires_at<=?`, compared as text.
def ClientConnectionLease.expiredText (cutoff : ℕ) (lease : ClientConnectionLease) : Bool :=
  ¬ tm cutoff < tm lease.expiresAt

-- `ORDER BY expires_at,connection_id`
def ClientConnectionLease.sweepsBefore (a b : ClientConnectionLease) : Bool :=
  tm a.expiresAt < tm b.expiresAt ∨ tm a.expiresAt = tm b.expiresAt ∧ a.connectionID ≤ b.connectionID

-- The ids one sweep selects: at most `limit`, the earliest texts first.
def selectExpired (leases : ClientLeaseTable) (cutoff limit : ℕ) : List String :=
  (((leases.rows.filter (·.expiredText cutoff)).mergeSort
    ClientConnectionLease.sweepsBefore).take limit).map (·.connectionID)

end TunnelMesh.Storage

import TunnelMesh.Interleaving
import TunnelMesh.Storage.IPLease

namespace TunnelMesh.Vpn.SubnetLease

open Storage

structure Peer where
  nodeID : String
  vpnIP : ℕ

def Peer.key (peer : Peer) : String × ℕ := (peer.nodeID, peer.vpnIP)

-- A lease that a node wrote at `now`, and the rows other nodes had for the
-- subnet at that moment.
structure Grant where
  nodeID : String
  subnet : IPNet
  now : ℕ
  foreign : List VPNIPLease

structure Issued where
  nodeID : String
  subnet : IPNet
  vpnIP : ℕ

structure Store where
  clock : ℕ
  leases : IPLeaseTable
  peers : Table Peer.key
  grants : List Grant
  issued : List Issued

-- `server.vpn.ip_pool` as configured, and what `ParsePool` makes of it.
structure Config where
  ipPool : String
  pool : Pool

inductive IssueError where
  | noNodeID
  | lease (nodeID : String) (e : IPLeaseError)
  | pool (e : Error)
  | conflict
  | database (what : String)

def IssueError.message : IssueError → String
  | .noNodeID =>
    "vpn is not usable on this node: this server node has no node id, so it cannot own vpn resources"
  | .lease nodeID e =>
    if e = .staleEpoch ∨ e = .held then
      "vpn: lost the subnet lease fence on node " ++ nodeID ++ ": " ++ e.message
    else "vpn: subnet lease: " ++ e.message
  | .pool e => e.message
  | .conflict =>
    "vpn peer conflicts with an existing peer: the address or key was taken concurrently, " ++ "retry the request"
  | .database what => "vpn: " ++ what

-- Where `Issue` stands: before `ListByHolder`, before the `Renew` of a held
-- lease, before an attempt to acquire that lease again, before an attempt to
-- acquire the next subnet of the scan, and then before the statements that
-- place the peer.
inductive Phase where
  | list
  | renew (lease : VPNIPLease) (subnet : IPNet) (held : List VPNIPLease)
  | reacquire (subnet : IPNet) (held : List VPNIPLease) (attempt : ℕ)
  | scan (subnet : IPNet) (rest : List IPNet) (attempt : ℕ)
  | probe (lease : VPNIPLease) (subnet : IPNet) (offset : ℕ)
  | count (lease : VPNIPLease) (address attempt : ℕ)
  | create (lease : VPNIPLease) (address : ℕ)
  | giveBack (lease : VPNIPLease) (e : IssueError) (attempt : ℕ)
  | issued (address : ℕ)
  | failed (e : IssueError)

structure Call where
  nodeID : String
  ttl : ℤ
  phase : Phase

structure Request where
  nodeID : String
  leaseTTL : ℤ

def Call.begin (v : Request) : Call :=
  let nodeID := Text.trimSpace v.nodeID
  ⟨nodeID, v.leaseTTL, if nodeID = "" then .failed .noNodeID else .list⟩

variable (config : Config)

def Config.scan : List IPNet → Phase
  | [] => .failed (.pool (errIPPoolExhausted.withMessage
      ("every subnet of ip_pool " ++ config.ipPool ++ " is leased by another node")))
  | subnet :: rest => .scan subnet rest 0

def Config.next (config : Config) : List VPNIPLease → Phase
  | [] => config.scan config.pool.subnets
  | lease :: held =>
    match config.pool.nodeSubnet lease.subnet with
    | .error _ => config.next held
    | .ok subnet => .renew lease subnet held

variable (store : Store)

def Store.foreign (nodeID : String) (subnet : IPNet) : List VPNIPLease :=
  store.leases.rows.filter fun row => row.subnet = subnet && row.leaseHolder ≠ nodeID

def Store.grant (nodeID : String) (subnet : IPNet) (now : ℕ)
    (leases : IPLeaseTable) : Store :=
  { store with
    leases, grants := store.grants ++ [⟨nodeID, subnet, now, store.foreign nodeID subnet⟩] }

variable (c : Call)

def Call.fail (e : IssueError) : Call := { c with phase := .failed e }

def Store.acquire (subnet : IPNet) (now attempt : ℕ)
    (again : ℕ → Phase) (held : Phase) : Store × Call :=
  match validateVPNIPLease c.nodeID c.nodeID with
  | .error e => (store, c.fail (.lease c.nodeID e))
  | .ok () =>
    match tryAcquireSubnet store.leases c.nodeID subnet c.nodeID now (now + ttlOrMinute c.ttl) with
    | .ok (lease, leases) =>
      (store.grant c.nodeID subnet now leases, { c with phase := .probe lease subnet 2 })
    | .error .held => (store, { c with phase := held })
    | .error .retry =>
      if attempt + 1 < vpnIPLeaseRetryBudget then (store, { c with phase := again (attempt + 1) })
      else (store, c.fail (.lease c.nodeID .contention))
    | .error e => (store, c.fail (.lease c.nodeID e))

variable (lease : VPNIPLease)

def Store.addAllocated (delta : ℤ)
    (now attempt : ℕ) (again : ℕ → Phase) (done : Phase) (failed : IPLeaseError → Phase) :
    Store × Call :=
  match tryAddAllocated store.leases c.nodeID lease.subnet lease.leaseHolder lease.epoch delta now with
  | .ok (_, leases) => ({ store with leases }, { c with phase := done })
  | .error .retry =>
    if attempt + 1 < vpnIPLeaseRetryBudget then (store, { c with phase := again (attempt + 1) })
    else (store, { c with phase := failed .counterContention })
  | .error e => (store, { c with phase := failed e })

def Config.probe
    (subnet : IPNet) (offset : ℕ) : Phase :=
  match config.pool.nodeSubnet subnet with
  | .error e => .failed (.pool e)
  | .ok normalized =>
    if config.pool.lastOffset < offset then .failed (.pool (Pool.noFreeAddress normalized))
    else
      let candidate := addIPv4 normalized.ip offset
      if (store.peers.get (c.nodeID, candidate)).isSome then .probe lease subnet (offset + 1)
      else .count lease candidate 0

def Store.create (address : ℕ) : Store × Call :=
  match store.peers.insert ⟨c.nodeID, address⟩ with
  | none => (store, { c with phase := .giveBack lease .conflict 0 })
  | some peers =>
    ({ store with peers, issued := store.issued ++ [⟨c.nodeID, lease.subnet, address⟩] },
      { c with phase := .issued address })

inductive Input where
  | run (now : ℕ)
  | fail

-- The next phase when the statement of this one fails. A failed `Renew` leads to
-- an acquisition whatever its reason.
def Phase.broken (nodeID : String) : Phase → Option Phase
  | .list => some (.failed (.database "list leased subnets"))
  | .renew _ subnet held => some (.reacquire subnet held 0)
  | .reacquire _ _ _ | .scan _ _ _ | .count _ _ _ => some (.failed (.lease nodeID .database))
  | .probe _ _ _ => some (.failed (.database "probe allocated addresses"))
  | .create lease _ => some (.giveBack lease (.database "persist peer") 0)
  | .giveBack _ e _ => some (.failed e)
  | .issued _ | .failed _ => none

def Store.run (now : ℕ) : Option (Store × Call) :=
  match c.phase with
  | .list => some (store, { c with phase := config.next (listByHolder store.leases c.nodeID) })
  | .renew lease subnet held =>
    match renewSubnet store.leases c.nodeID lease.subnet c.nodeID lease.epoch c.ttl now with
    | .ok leases =>
      some (store.grant c.nodeID lease.subnet now leases, { c with phase := .probe lease subnet 2 })
    | .error _ => some (store, { c with phase := .reacquire subnet held 0 })
  | .reacquire subnet held attempt =>
    some (store.acquire c subnet now attempt (.reacquire subnet held) (config.next held))
  | .scan subnet rest attempt =>
    some (store.acquire c subnet now attempt (.scan subnet rest) (config.scan rest))
  | .probe lease subnet offset =>
    some (store, { c with phase := config.probe store c lease subnet offset })
  | .count lease address attempt =>
    some (store.addAllocated c lease 1 now attempt (.count lease address) (.create lease address)
      fun e => .failed (.lease c.nodeID e))
  | .create lease address => some (store.create c lease address)
  | .giveBack lease e attempt =>
    some (store.addAllocated c lease (-1) now attempt (.giveBack lease e) (.failed e)
      fun _ => .failed e)
  | .issued _ | .failed _ => none

def move : Input → Option (Store × Call)
  | .run now => if now ≤ store.clock then store.run config c now else none
  | .fail => (c.phase.broken c.nodeID).map fun phase => (store, { c with phase })

def system : Interleaving.System Store Call Request Input ℕ where
  start := Call.begin
  move := move config
  event store elapsed := some { store with clock := store.clock + elapsed }

def init : Interleaving.State Store Call := ⟨⟨0, Table.empty, Table.empty, [], []⟩, []⟩

end TunnelMesh.Vpn.SubnetLease

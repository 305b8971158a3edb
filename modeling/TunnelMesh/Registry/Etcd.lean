import TunnelMesh.Registry
import TunnelMesh.Revisioned
import TunnelMesh.Storage.Registration
import TunnelMesh.Text

namespace TunnelMesh.Registry.Etcd

open TunnelMesh.Revisioned TunnelMesh.Storage TunnelMesh.Text

section Keys

variable (root : String)

def nodeKey (id : String) : String := root ++ "/nodes/" ++ id

def agentConnectionsPrefix (id : String) : String := root ++ "/agents/" ++ id ++ "/connections/"

def agentConnectionKey (pair : String × String) : String := agentConnectionsPrefix root pair.1 ++ pair.2

def agentConnectionEpochKey (pair : String × String) : String :=
  root ++ "/agents/" ++ pair.1 ++ "/connection-epochs/" ++ pair.2

end Keys

inductive Value where
  | owner (value : NodeOwner)
  | epoch (value : ℤ)

def Value.unmarshal : Value → Option NodeOwner
  | .owner value => some value
  | .epoch _ => none

-- `fmt.Sscanf` into a number that stays zero when the text is not one.
def Value.scan : Value → ℤ
  | .owner _ => 0
  | .epoch value => value

abbrev EtcdStore := Store String Value

def validate (req : NodeRegistration) : Except RegistryError NodeRegistration :=
  if trimSpace req.nodeID = "" ∨ trimSpace req.agentID = "" then .error .required
  else
    let connectionID := trimSpace req.connectionID
    let serverNodeID := trimSpace req.serverNodeID
    .ok { req with
      connectionID := if connectionID = "" then "legacy" else connectionID
      serverNodeID := if serverNodeID = "" then req.nodeID else serverNodeID
      ttl := ttlOrMinute req.ttl }

def newOwner (req : NodeRegistration) (lease : ℕ) (epoch : ℤ) (now : ℕ) : NodeOwner where
  nodeID := req.nodeID
  address := req.address
  metadata := req.metadata
  agentID := req.agentID
  instanceID := req.instanceID
  connectionID := req.connectionID
  serverNodeID := req.serverNodeID
  epoch := epoch
  connectionEpoch := epoch
  serverNodeEpoch := epoch
  activeStreams := 0
  healthScore := 0
  expiresAt := now + req.ttl.toNat
  leaseID := lease

-- Where a call stands between two of its requests to the store. A revision that
-- was read is `none` for a key that was absent. A stats update carries the value
-- it will write and the pair of the caller.
inductive Call where
  | granted (req : NodeRegistration) (lease : ℕ)
  | sawConnection (req : NodeRegistration) (lease : ℕ) (seen : Option ℕ)
  | sawEpoch (req : NodeRegistration) (lease : ℕ) (seen : Option ℕ) (oldEpoch : ℤ) (seenEpoch : Option ℕ)
  | keepAlive (owner : NodeOwner) (seen : Option ℕ)
  | kept (owner : NodeOwner) (seen : Option ℕ)
  | stats (value : NodeOwner) (pair : String × String) (seen : Option ℕ)
  | revoking (owner : NodeOwner) (seen : Option ℕ)
  | returned (result : Except RegistryError NodeOwner)

structure State where
  store : EtcdStore
  granted : ℕ
  calls : List Call
  registrations : List NodeOwner

inductive Label where
  | register (req : NodeRegistration)
  | getConnection (call now : ℕ)
  | getEpoch (call : ℕ)
  | commitRegister (call now : ℕ)
  | keepAlive (owner : NodeOwner)
  | keepAliveOnce (call ttl now : ℕ)
  | updateConnectionStats (owner : NodeOwner)
  | revoke (owner : NodeOwner)
  | commit (call : ℕ)
  | endLease (lease : ℕ)
  | fail (call : ℕ) (error : RegistryError)

def State.setCall (s : State) (i : ℕ) (c : Call) : State := { s with calls := s.calls.set i c }

def State.current (root : String) (s : State) (owner : NodeOwner) : Option NodeOwner := do
  let entry ← s.store.entries (agentConnectionKey root owner.pair)
  let current ← entry.value.unmarshal
  if current.epoch ≠ owner.epoch ∨ current.nodeID ≠ owner.nodeID ∨ current.connectionID ≠ owner.connectionID then none
  else some current

-- The first request of a fenced call: a read and the comparison of the epochs.
def State.fence (root : String) (s : State) (owner : NodeOwner) (act : NodeOwner → Option ℕ → Call) :
    Call :=
  match s.current root owner with
  | none => .returned (.error .fencing)
  | some current => act current (s.store.modRevision (agentConnectionKey root owner.pair))

-- A lease id of zero stands for the one on record.
def keepAliveCall (owner current : NodeOwner) (seen : Option ℕ) : Call :=
  let leaseID := if owner.leaseID = 0 then current.leaseID else owner.leaseID
  if current.leaseID ≠ leaseID then .returned (.error .fencing)
  else .keepAlive { owner with leaseID } seen

def statsCall (owner current : NodeOwner) (seen : Option ℕ) : Call :=
  .stats { current with activeStreams := owner.activeStreams, healthScore := owner.healthScore }
    owner.pair seen

def State.putOwner (root : String) (s : State) (pair : String × String) (owner : NodeOwner) : EtcdStore :=
  s.store.puts
    [(agentConnectionKey root pair, .owner owner, some owner.leaseID),
      (nodeKey root owner.serverNodeID, .owner owner, none)]

def State.commitRegister (root : String) (s : State) (i : ℕ) (req : NodeRegistration) (lease : ℕ)
    (seen : Option ℕ) (oldEpoch : ℤ) (seenEpoch : Option ℕ) (now : ℕ) : State :=
  let owner := newOwner req lease (int64 (oldEpoch + 1)) now
  if s.store.modRevision (agentConnectionKey root req.pair) = seen ∧
      s.store.modRevision (agentConnectionEpochKey root req.pair) = seenEpoch then
    { s with
      store := s.store.puts
        [(agentConnectionEpochKey root req.pair, .epoch owner.epoch, none),
          (nodeKey root req.serverNodeID, .owner owner, none),
          (agentConnectionKey root req.pair, .owner owner, some lease)]
      calls := s.calls.set i (.returned (.ok owner))
      registrations := s.registrations ++ [owner] }
  else s.setCall i (.returned (.error .leaseHeld))

def State.commitFenced (root : String) (s : State) (i : ℕ) (pair : String × String) (seen : Option ℕ)
    (owner : NodeOwner) (change : EtcdStore) : State :=
  if s.store.modRevision (agentConnectionKey root pair) = seen then
    { s with store := change, calls := s.calls.set i (.returned (.ok owner)) }
  else s.setCall i (.returned (.error .fencing))

def step (root : String) (s : State) : Label → Option State
  | .register req =>
    let call := match validate req with
      | .error e => Call.returned (.error e)
      | .ok req => .granted req (s.granted + 1)
    some { s with granted := s.granted + 1, calls := s.calls ++ [call] }
  | .getConnection i now => do
      match ← s.calls[i]? with
      | .granted req lease =>
        let key := agentConnectionKey root req.pair
        let live := ((s.store.entries key).bind (·.value.unmarshal)).any (now < ·.expiresAt)
        some (s.setCall i (if live then .returned (.error .leaseHeld)
          else .sawConnection req lease (s.store.modRevision key)))
      | _ => none
  | .getEpoch i => do
      match ← s.calls[i]? with
      | .sawConnection req lease seen =>
        let key := agentConnectionEpochKey root req.pair
        let oldEpoch := ((s.store.entries key).map (·.value.scan)).getD 0
        some (s.setCall i (.sawEpoch req lease seen oldEpoch (s.store.modRevision key)))
      | _ => none
  | .commitRegister i now => do
      match ← s.calls[i]? with
      | .sawEpoch req lease seen oldEpoch seenEpoch =>
        some (s.commitRegister root i req lease seen oldEpoch seenEpoch now)
      | _ => none
  | .keepAlive owner =>
    some { s with calls := s.calls ++ [s.fence root owner (keepAliveCall owner)] }
  | .keepAliveOnce i ttl now => do
      match ← s.calls[i]? with
      | .keepAlive owner seen =>
        some (s.setCall i (if ttl = 0 then .returned (.error .leaseExpired)
          else .kept { owner with expiresAt := now + ttl * nanosPerSecond } seen))
      | _ => none
  | .updateConnectionStats owner =>
    some { s with calls := s.calls ++ [s.fence root owner (statsCall owner)] }
  | .revoke owner =>
    let call := if s.store.entries (agentConnectionKey root owner.pair) = none
      then Call.returned (.error .notFound)
      else s.fence root owner fun _ seen => .revoking owner seen
    some { s with calls := s.calls ++ [call] }
  | .commit i => do
      match ← s.calls[i]? with
      | .kept owner seen =>
        some (s.commitFenced root i owner.pair seen owner (s.putOwner root owner.pair owner))
      | .stats value pair seen =>
        some (s.commitFenced root i pair seen value (s.putOwner root pair value))
      | .revoking owner seen =>
        some (s.commitFenced root i owner.pair seen owner
          (s.store.delete (agentConnectionKey root owner.pair)))
      | _ => none
  | .endLease lease => some { s with store := s.store.endLease lease }
  | .fail i error => do
      match ← s.calls[i]? with
      | .returned _ => none
      | _ => some (s.setCall i (.returned (.error error)))

def init : State := ⟨Store.empty, 0, [], []⟩

end TunnelMesh.Registry.Etcd

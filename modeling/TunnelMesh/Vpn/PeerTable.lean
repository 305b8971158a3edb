import TunnelMesh.Dict
import TunnelMesh.Vpn.PacketPolicy
import Mathlib.Data.Finset.Basic

namespace TunnelMesh.Vpn

def minTunnelMTU : ℤ := 576

structure PeerEntry where
  peerID : String
  publicKey : String
  vpnIP : ℕ
  nodeID : String
  agentID : String
  status : PeerStatus
  policy : PacketPolicy
  peerLimit : ℤ
  rateLimit : ℤ
  icmpEnabled : Bool
  expiresAt : Option ℕ
  deriving DecidableEq

variable (entry : PeerEntry)

def PeerEntry.usable (now : ℕ) : Except ErrorClass Unit :=
  if entry.status ≠ .active then .error .peerRevoked
  else if entry.expiresAt.any (· ≤ now) then .error .peerExpired
  else .ok ()

def PeerEntry.isUsable (now : ℕ) : Bool := (entry.usable now).isOk

inductive PeerTableError where
  | closed
  | rowUnusable (reason : String)

def PeerTableError.message : PeerTableError → String
  | .closed => "vpn: the peer table is closed"
  | .rowUnusable reason => "vpn: the peer row cannot be served: " ++ reason

-- The lists of a row are parsed ones, so that only a list of no networks is
-- left to refuse.
def peerSpecFromRow (d : Decoders) (row : VPNPeer) : Except PeerTableError IssuedSpec :=
  if Text.trimSpace row.id = "" then .error (.rowUnusable "it has no id")
  else do
    (d.validatePublicKey row.publicKey).mapError fun e =>
      .rowUnusable ("its public key is unusable: " ++ e.message)
    if Text.trimSpace row.vpnIP = "" then .error (.rowUnusable "it has no vpn address")
    else if row.allowedIPs = [] then
      .error (.rowUnusable
        "its allowed_ips is empty, so it could reach nothing and would read as a broken tunnel")
    else
      match d.parseAddr (Text.trimSpace row.vpnIP) with
      | none => .error (.rowUnusable "its vpn address must be a single ipv4 address")
      | some address => do
          let spec : IssuedSpec :=
            { specFromStored row with publicKey := row.publicKey, vpnIP := some address, nodeID := row.nodeID }
          spec.validateFields.mapError fun e => .rowUnusable e.message
          return spec

-- The readings of the clock in one `ApplyPeer`: for the check before a policy
-- is built, in the validation of its spec, and for the choice of the hook.
structure Readings where
  checked : ℕ
  validated : ℕ
  hooked : ℕ

def PeerEntry.ofRow (row : VPNPeer) (address : ℕ) (policy : PacketPolicy) : PeerEntry where
  peerID := row.id
  publicKey := row.publicKey
  vpnIP := address
  nodeID := row.nodeID
  agentID := row.agentID
  status := row.status
  policy := policy
  peerLimit := row.maxConcurrentFlows
  rateLimit := row.packetRateLimit
  icmpEnabled := row.icmpEnabled
  expiresAt := row.expiresAt

inductive HookAction where
  | forgetBucket (peerID : String)
  | installDevicePeer (entry : PeerEntry)
  | removeDevicePeer (peerID publicKey : String)
  | closePeer (peerID : String)
  deriving DecidableEq

def peerApplied : List HookAction := [.forgetBucket entry.peerID, .installDevicePeer entry]

def peerKeyReplaced (oldKey : String) (entry : PeerEntry) : List HookAction :=
  [.removeDevicePeer entry.peerID oldKey]

def peerRemoved : List HookAction :=
  [.forgetBucket entry.peerID, .removeDevicePeer entry.peerID entry.publicKey, .closePeer entry.peerID]

structure PeerTableConfig where
  mtu : ℤ
  nodeID : String

structure PeerTable where
  mtu : ℤ
  nodeID : String
  peers : Dict String PeerEntry
  byIP : Dict ℕ String
  closed : Bool

namespace PeerTable

def new (config : PeerTableConfig) : PeerTable where
  mtu := if config.mtu ≤ 0 then minTunnelMTU else config.mtu
  nodeID := config.nodeID
  peers := ∅
  byIP := ∅
  closed := false

variable (d : Decoders) (t : PeerTable)

def buildPolicy (spec : IssuedSpec) (entry : PeerEntry) (readings : Readings) :
    Except PeerTableError PeerEntry :=
  if entry.isUsable readings.checked then
    match PacketPolicy.new d spec t.mtu readings.validated with
    | .error e => .error (.rowUnusable e)
    | .ok policy => .ok { entry with policy }
  else .ok entry

def entryOf (row : VPNPeer) (readings : Readings) : Except PeerTableError PeerEntry :=
  if t.nodeID ≠ "" ∧ row.nodeID ≠ t.nodeID then
    .error (.rowUnusable "it belongs to node \"<another node>\", not this node")
  else do
    let spec ← peerSpecFromRow d row
    match d.parseAddr (Text.trimSpace row.vpnIP) with
    | none => .error (.rowUnusable "vpn_ip must be a single ipv4 address")
    | some address => t.buildPolicy d spec (.ofRow row address .zero) readings

variable (entry : PeerEntry)

def holder : Option String :=
  (t.byIP.lookup entry.vpnIP).filter (· ≠ entry.peerID)

def displaced : Option PeerEntry := (t.holder entry).bind t.peers.lookup

def replacedKey : String :=
  match t.peers.lookup entry.peerID with
  | some previous => if previous.publicKey ≠ entry.publicKey then previous.publicKey else ""
  | none => ""

def withoutHolder : Dict String PeerEntry :=
  match t.holder entry with
  | some holder => t.peers.erase holder
  | none => t.peers

def withoutPrevious : Dict ℕ String :=
  match t.peers.lookup entry.peerID with
  | some previous =>
    if previous.vpnIP ≠ entry.vpnIP ∧ t.byIP.lookup previous.vpnIP = some entry.peerID then
      t.byIP.erase previous.vpnIP
    else t.byIP
  | none => t.byIP

def index : PeerTable :=
  { t with
    peers := (t.withoutHolder entry).insert entry.peerID entry
    byIP := (t.withoutPrevious entry).insert entry.vpnIP entry.peerID }

def applyHooks (now : ℕ) : List HookAction :=
  (t.displaced entry).elim [] peerRemoved ++
    (if t.replacedKey entry = "" then [] else peerKeyReplaced (t.replacedKey entry) entry) ++
    (if entry.isUsable now then peerApplied entry else peerRemoved entry)

-- The writer lock is held from the first check on, so the table cannot be
-- closed before the last one.
def applyPeer (row : VPNPeer) (readings : Readings) :
    Except PeerTableError (PeerTable × List HookAction) :=
  if t.closed then .error .closed
  else (t.entryOf d row readings).map fun entry => (t.index entry, t.applyHooks entry readings.hooked)

def unindex : Dict ℕ String :=
  if t.byIP.lookup entry.vpnIP = some entry.peerID then t.byIP.erase entry.vpnIP else t.byIP

def removePeer (peerID : String) : PeerTable × List HookAction :=
  match t.peers.lookup peerID with
  | none => (t, [])
  | some entry => ({ t with peers := t.peers.erase peerID, byIP := t.unindex entry }, peerRemoved entry)

-- A refusal has the entry of a peer that is not served, and none if the address
-- is unknown. An id without an entry would give the zero entry, which is not active.
def lookupByIP (address : ℕ) (now : ℕ) : Except (Option PeerEntry × ErrorClass) PeerEntry :=
  if t.closed then .error (none, .peerUnknown)
  else
    match t.byIP.lookup address with
    | none => .error (none, .peerUnknown)
    | some peerID =>
      match t.peers.lookup peerID with
      | none => .error (none, .peerRevoked)
      | some entry => ((entry.usable now).mapError fun errorClass => (some entry, errorClass)).map fun _ => entry

def close : PeerTable := { t with peers := ∅, byIP := ∅, closed := true }

end PeerTable

inductive PeerCall where
  | apply (row : VPNPeer) (readings : Readings)
  | remove (peerID : String)

-- The table with the keys that the hooks have put on the device, and whether
-- the hook of a peer's last apply found it usable.
structure PeerState where
  table : PeerTable
  device : Finset (List UInt8)
  usable : Dict String Bool

namespace PeerState

def init (config : PeerTableConfig) : PeerState := ⟨.new config, ∅, ∅⟩

variable (d : Decoders)

-- A block with a key that does not decode is not rendered.
def actOnDevice (device : Finset (List UInt8)) : HookAction → Finset (List UInt8)
  | .installDevicePeer entry =>
    match d.decodeKey entry.publicKey with
    | .error _ => device
    | .ok key => insert key device
  | .removeDevicePeer _ publicKey =>
    match d.decodeKey publicKey with
    | .error _ => device
    | .ok key => device.erase key
  | .forgetBucket _ | .closePeer _ => device

def step (s : PeerState) : PeerCall → Option PeerState
  | .apply row readings =>
    match s.table.applyPeer d row readings with
    | .error _ => some s
    | .ok (table, actions) => some
        { table
          device := actions.foldl (actOnDevice d) s.device
          usable := s.usable.insert row.id ((table.peers.lookup row.id).any (·.isUsable readings.hooked)) }
  | .remove peerID =>
    let (table, actions) := s.table.removePeer peerID
    some { s with table, device := actions.foldl (actOnDevice d) s.device }

end PeerState

end TunnelMesh.Vpn

import TunnelMesh.Text
import TunnelMesh.Vpn.Pool
import Mathlib.Data.List.Dedup
import Mathlib.Data.List.Sort

namespace TunnelMesh.Vpn

open Text

inductive PeerStatus where
  | active
  | disabled
  | revoked
  deriving DecidableEq

structure SealedKey where
  ciphertext : String
  nonce : String
  keyID : String
  version : ℤ
  deriving DecidableEq

-- A row of `vpn_peers`. The columns `allowed_ips` and `allowed_ports` hold the
-- texts of the lists given here.
structure VPNPeer where
  id : String
  name : String
  ownerID : String
  publicKey : String
  privateKey : SealedKey
  vpnIP : String
  nodeID : String
  agentID : String
  allowedIPs : List IPNet
  allowedPorts : List ℤ
  allowPrivateTargets : Bool
  icmpEnabled : Bool
  maxConcurrentFlows : ℤ
  packetRateLimit : ℤ
  expiresAt : Option ℕ
  status : PeerStatus
  description : String
  createdAt : ℕ
  updatedAt : ℕ
  deriving DecidableEq

-- The part of a peer that a request may set. An entry of `allowedIPs` that is
-- `none` stands for a list that did not parse.
structure PeerSpec where
  name : String
  description : String
  agentID : String
  allowedIPs : List (Option IPNet)
  allowedPorts : List ℤ
  allowPrivateTargets : Bool
  icmpEnabled : Bool
  maxConcurrentFlows : ℤ
  packetRateLimit : ℤ
  expiresAt : Option ℕ

inductive StatusText where
  | known (status : PeerStatus)
  | other (text : String)

-- The absent fields are `none`. A list of networks that does not parse is
-- `some none`.
structure VPNPeerPatch where
  name : Option String
  description : Option String
  agentID : Option String
  allowedIPs : Option (Option (List IPNet))
  allowedPorts : Option (List ℤ)
  allowPrivateTargets : Option Bool
  icmpEnabled : Option Bool
  maxConcurrentFlows : Option ℤ
  packetRateLimit : Option ℤ
  expiresAt : Option (Option ℕ)
  status : Option StatusText

def errPeerInvalid : Error := ⟨400, "vpn_peer_invalid", "vpn peer is invalid"⟩
def errPeerNotFound : Error := ⟨404, "vpn_peer_not_found", "vpn peer not found"⟩
def errPeerConflict : Error := ⟨409, "vpn_peer_conflict", "vpn peer conflicts with an existing peer"⟩
def errNodeDisabled : Error := ⟨409, "vpn_node_disabled", "vpn is not enabled on this node"⟩

def errAgentCapabilityMissing : Error :=
  ⟨409, "vpn_agent_capability_missing", "egress agent lacks the required vpn capability"⟩

def errSecretUnavailable : Error :=
  ⟨503, "credential_secret_unavailable", "credential secret storage is unavailable"⟩

def peerInvalid (reason : String) : Error :=
  errPeerInvalid.withMessage ("vpn peer is invalid: " ++ reason)

def revokedPeerConflict (verb : String) : Error :=
  errPeerConflict.withMessage ("vpn peer is revoked and cannot be " ++ verb)

-- An error with a status of its own, or another one, of which only the text is
-- known.
inductive PeerError where
  | vpn (e : Error)
  | other (message : String)

def maxLabelLength : ℕ := 255
def minPort : ℤ := 1
def maxPort : ℤ := 65535

def isControl (c : Char) : Bool := c.toNat < 0x20 || (0x7f ≤ c.toNat && c.toNat < 0xa0)

def validateLabel (field value : String) : Except Error Unit :=
  if maxLabelLength < value.length then
    .error (peerInvalid
      (field ++ " must be at most " ++ toString maxLabelLength ++ " characters"))
  else if value.toList.any isControl then
    .error (peerInvalid (field ++ " must not contain control characters"))
  else .ok ()

def inPortRange (port : ℤ) : Bool := minPort ≤ port && port ≤ maxPort

namespace PeerSpec

def validateAllowedIP : Option IPNet → Except Error Unit
  | none => .error (peerInvalid "allowed_ips contains an empty entry")
  | some network =>
    if ipv4Bits < network.ones then
      .error (peerInvalid
        ("allowed_ips entry " ++ network.text ++ " has an invalid prefix length"))
    else .ok ()

def validatePort (port : ℤ) : Except Error Unit :=
  if inPortRange port then .ok ()
  else .error (peerInvalid
    ("allowed_ports entry " ++ toString port ++ " must be between " ++ toString minPort ++ " and " ++ toString maxPort))

variable (spec : PeerSpec)

def validateFields : Except Error Unit := do
  if trimSpace spec.name = "" then throw (peerInvalid "name is required")
  validateLabel "name" spec.name
  validateLabel "description" spec.description
  if trimSpace spec.agentID = "" then throw (peerInvalid "agent is required")
  spec.allowedIPs.forM validateAllowedIP
  spec.allowedPorts.forM validatePort
  if spec.maxConcurrentFlows < 0 then
    throw (peerInvalid "max_concurrent_flows must not be negative")
  if spec.packetRateLimit < 0 then throw (peerInvalid "packet_rate_limit must not be negative")

def validateRequest (now : ℕ) : Except Error Unit := do
  spec.validateFields
  if spec.expiresAt.any (· ≤ now) then throw (peerInvalid "expires_at must be in the future")

def encodedAllowedIPs : List IPNet :=
  (spec.allowedIPs.reduceOption.map IPNet.masked).dedup.insertionSort fun a b => a.text ≤ b.text

def encodedAllowedPorts : List ℤ :=
  (spec.allowedPorts.filter inPortRange).dedup.insertionSort (· ≤ ·)

end PeerSpec

def specFromStored (peer : VPNPeer) : PeerSpec where
  name := peer.name
  description := peer.description
  agentID := peer.agentID
  allowedIPs := peer.allowedIPs.map some
  allowedPorts := peer.allowedPorts
  allowPrivateTargets := peer.allowPrivateTargets
  icmpEnabled := peer.icmpEnabled
  maxConcurrentFlows := peer.maxConcurrentFlows
  packetRateLimit := peer.packetRateLimit
  expiresAt := peer.expiresAt

def applyVPNPeerPatch (spec : PeerSpec) (patch : VPNPeerPatch) : PeerSpec where
  name := (patch.name.map trimSpace).getD spec.name
  description := patch.description.getD spec.description
  agentID := (patch.agentID.map trimSpace).getD spec.agentID
  allowedIPs :=
    match patch.allowedIPs with
    | none => spec.allowedIPs
    | some none => [none]
    | some (some networks) => networks.map some
  allowedPorts := patch.allowedPorts.getD spec.allowedPorts
  allowPrivateTargets := patch.allowPrivateTargets.getD spec.allowPrivateTargets
  icmpEnabled := patch.icmpEnabled.getD spec.icmpEnabled
  maxConcurrentFlows := patch.maxConcurrentFlows.getD spec.maxConcurrentFlows
  packetRateLimit := patch.packetRateLimit.getD spec.packetRateLimit
  expiresAt := patch.expiresAt.getD spec.expiresAt

def validateVPNPeer (peer : VPNPeer) : Except String Unit :=
  if trimSpace peer.ownerID = "" then .error "vpn peer owner is required"
  else if trimSpace peer.name = "" then .error "vpn peer name is required"
  else if trimSpace peer.publicKey = "" then .error "vpn peer public key is required"
  else if trimSpace peer.vpnIP = "" then .error "vpn peer address is required"
  else if trimSpace peer.nodeID = "" then .error "vpn peer node is required"
  else if trimSpace peer.agentID = "" then .error "vpn peer agent is required"
  else if decide (peer.privateKey.ciphertext = "") ≠ decide (peer.privateKey.nonce = "") then
    .error "vpn peer private key ciphertext and nonce must be set together"
  else if peer.maxConcurrentFlows < 0 then
    .error "vpn peer max concurrent flows must not be negative"
  else if peer.packetRateLimit < 0 then .error "vpn peer packet rate limit must not be negative"
  else .ok ()

end TunnelMesh.Vpn

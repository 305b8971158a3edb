import TunnelMesh.Fallible
import TunnelMesh.Vpn.Peer

namespace TunnelMesh.Vpn

-- What the standard library reads from a text: the bytes of a base64 one, and
-- the number of one that is an IPv4 address.
structure Decoders where
  base64 : String → Except String (List UInt8)
  parseAddr : String → Option ℕ
  base64_empty : base64 "" = .ok []

def keySize : ℕ := 32

namespace Decoders

variable (d : Decoders)

def decodeKey (encoded : String) : Except String (List UInt8) :=
  match d.base64 encoded with
  | .error e => .error ("vpn: key is not standard base64: " ++ e)
  | .ok raw =>
    if raw.length ≠ keySize then
      .error ("vpn: key must decode to " ++ toString keySize ++ " bytes, got " ++ toString raw.length)
    else .ok raw

def validatePublicKey (encoded : String) : Except Error Unit :=
  match d.decodeKey encoded with
  | .error e => .error (errPeerInvalid.withMessage e)
  | .ok raw =>
    if raw.all (· = 0) then
      .error (errPeerInvalid.withMessage "vpn public key must not be the all-zero point")
    else .ok ()

end Decoders

-- A spec with the fields that the server sets. An address without a four-byte
-- form is `none`.
structure IssuedSpec extends PeerSpec where
  publicKey : String
  vpnIP : Option ℕ
  nodeID : String

def IssuedSpec.validate (d : Decoders) (spec : IssuedSpec) (now : ℕ) : Except Error Unit := do
  spec.toPeerSpec.validateRequest now
  d.validatePublicKey spec.publicKey
  if spec.vpnIP.isNone then throw (peerInvalid "vpn address is required and must be ipv4")
  if Text.trimSpace spec.nodeID = "" then throw (peerInvalid "node is required")

def protocolICMP : UInt8 := 1
def protocolTCP : UInt8 := 6
def protocolUDP : UInt8 := 17

inductive ErrorClass where
  | peerUnknown
  | peerRevoked
  | peerExpired
  | targetDenied
  | metadataDenied
  | portDenied
  | protocolUnsupported
  | fragmentDropped
  | oversizeDropped
  | capacityExhausted
  | rateLimited
  | egressUnavailable
  | egressTimeout
  | icmpUnsupported
  | icmpTimeout
  | stackError
  deriving DecidableEq

structure PacketError where
  errorClass : ErrorClass
  reason : String

-- The destination is `none` if it is absent or has no four-byte form.
structure Packet where
  protocol : UInt8
  source : ℕ
  dest : Option ℕ
  port : ℤ
  size : ℤ
  fragment : Bool
  deriving DecidableEq

structure PacketPolicy where
  allowedIPs : List IPNet
  ports : List ℤ
  allowPrivateTargets : Bool
  icmpEnabled : Bool
  mtu : ℤ
  deriving DecidableEq

-- `IsPrivate`, `IsLoopback`, `IsLinkLocalUnicast`, `IsLinkLocalMulticast` and
-- `IsUnspecified` of an IPv4 address.
def isPrivateTarget (ip : ℕ) : Bool :=
  (octet ip 0 = 10 || (octet ip 0 = 172 && octet ip 1 / 16 = 1) || (octet ip 0 = 192 && octet ip 1 = 168)) ||
    octet ip 0 = 127 || (octet ip 0 = 169 && octet ip 1 = 254) ||
    (octet ip 0 = 224 && octet ip 1 = 0 && octet ip 2 = 0) || ip = 0

namespace PacketPolicy

def zero : PacketPolicy := ⟨[], [], false, false, 0⟩

def new (d : Decoders) (spec : IssuedSpec) (mtu : ℤ) (now : ℕ) : Except String PacketPolicy :=
  match spec.validate d now with
  | .error e => .error e.message
  | .ok () =>
    if mtu < 1 then .error ("vpn: mtu must be at least 1, got " ++ toString mtu)
    else .ok ⟨spec.allowedIPs.reduceOption, spec.allowedPorts, spec.allowPrivateTargets, spec.icmpEnabled, mtu⟩

variable (p : PacketPolicy)

def allowProtocol (protocol : UInt8) : Except PacketError Unit :=
  if protocol = protocolTCP ∨ protocol = protocolUDP then .ok ()
  else if protocol = protocolICMP then
    if p.icmpEnabled then .ok () else .error ⟨.icmpUnsupported, "icmp is not enabled for this peer"⟩
  else .error ⟨.protocolUnsupported, "ip protocol " ++ toString protocol.toNat ++ " is not forwarded"⟩

def containsDest (dest : ℕ) : Bool := p.allowedIPs.any fun network => network.contains dest

def allowDest (dest : ℕ) : Except PacketError Unit :=
  if isDangerousAddress dest then
    .error ⟨.metadataDenied, "destination is in a reserved, multicast or metadata range"⟩
  else if p.allowPrivateTargets = false ∧ isPrivateTarget dest then
    .error ⟨.targetDenied, "destination is a private address and this peer may not reach private targets"⟩
  else if p.containsDest dest = false then
    .error ⟨.targetDenied, "destination is outside the peer allowed_ips"⟩
  else .ok ()

def allowPort (port : ℤ) : Except PacketError Unit :=
  if inPortRange port = false then
    .error ⟨.portDenied, "port " ++ toString port ++ " is not a valid tcp/udp port"⟩
  else if p.ports ≠ [] ∧ port ∉ p.ports then
    .error ⟨.portDenied, "port " ++ toString port ++ " is not in the peer allowed_ports"⟩
  else .ok ()

def allow (pkt : Packet) : Except PacketError Unit :=
  if pkt.fragment then .error ⟨.fragmentDropped, "fragmented packets are not forwarded"⟩
  else if p.mtu < pkt.size then
    .error ⟨.oversizeDropped, "packet of " ++ toString pkt.size ++ " bytes exceeds the " ++ toString p.mtu ++
      " byte tunnel mtu"⟩
  else do
    p.allowProtocol pkt.protocol
    match pkt.dest with
    | none => .error ⟨.targetDenied, "destination must be an ipv4 address"⟩
    | some dest =>
      p.allowDest dest
      -- ICMP has no port.
      if pkt.protocol = protocolICMP then .ok () else p.allowPort pkt.port

variable {p : PacketPolicy}

theorem allowProtocol_eq_ok (h : p.allowProtocol protocol = .ok ()) :
    protocol = protocolTCP ∨ protocol = protocolUDP ∨ (protocol = protocolICMP ∧ p.icmpEnabled) := by
  rw [allowProtocol] at h
  split_ifs at h with ht hi he
  · exact ht.elim .inl (.inr ∘ .inl)
  · exact .inr (.inr ⟨hi, he⟩)

theorem allowDest_eq_ok (h : p.allowDest dest = .ok ()) :
    isDangerousAddress dest = false ∧ (p.allowPrivateTargets ∨ isPrivateTarget dest = false) ∧
      ∃ network ∈ p.allowedIPs, network.contains dest := by
  rw [allowDest, guard_eq_ok, guard_eq_ok, guard_eq_ok] at h
  obtain ⟨hs, hp, hi, -⟩ := h
  refine ⟨Bool.eq_false_iff.mpr hs, ?_, ?_⟩
  · cases ha : p.allowPrivateTargets with
    | true => exact .inl rfl
    | false => exact .inr (Bool.eq_false_iff.mpr fun ht => hp ⟨ha, ht⟩)
  · exact List.any_eq_true.mp (Bool.eq_true_of_not_eq_false hi)

theorem allowPort_eq_ok (h : p.allowPort port = .ok ()) : inPortRange port ∧ (p.ports ≠ [] → port ∈ p.ports) := by
  rw [allowPort, guard_eq_ok, guard_eq_ok] at h
  obtain ⟨hr, hl, -⟩ := h
  exact ⟨Bool.eq_true_of_not_eq_false hr, fun hp => not_not.mp fun hport => hl ⟨hp, hport⟩⟩

structure Allows (pkt : Packet) (dest : ℕ) : Prop where
  whole : pkt.fragment = false
  size_le : pkt.size ≤ p.mtu
  protocol : pkt.protocol = protocolTCP ∨ pkt.protocol = protocolUDP ∨ (pkt.protocol = protocolICMP ∧ p.icmpEnabled)
  dest_eq : pkt.dest = some dest
  safe : isDangerousAddress dest = false
  inside : ∃ network ∈ p.allowedIPs, network.contains dest
  public_or_allowed : p.allowPrivateTargets ∨ isPrivateTarget dest = false
  port : pkt.protocol ≠ protocolICMP → inPortRange pkt.port ∧ (p.ports ≠ [] → pkt.port ∈ p.ports)

theorem allow_eq_ok (h : p.allow pkt = .ok ()) : ∃ dest, p.Allows pkt dest := by
  rw [allow, guard_eq_ok, guard_eq_ok] at h
  obtain ⟨hw, hs, hr⟩ := h
  obtain ⟨_, hprotocol, hd⟩ := bind_eq_ok hr
  cases hpkt : pkt.dest with
  | none => rw [hpkt] at hd; cases hd
  | some dest =>
    rw [hpkt] at hd
    obtain ⟨_, ht, hp⟩ := bind_eq_ok hd
    obtain ⟨hsafe, hpublic, hi⟩ := allowDest_eq_ok ht
    refine ⟨dest, Bool.eq_false_iff.mpr hw, not_lt.mp hs, allowProtocol_eq_ok hprotocol, hpkt, hsafe, hi, hpublic, ?_⟩
    intro hicmp
    rw [if_neg hicmp] at hp
    exact allowPort_eq_ok hp

end PacketPolicy

end TunnelMesh.Vpn

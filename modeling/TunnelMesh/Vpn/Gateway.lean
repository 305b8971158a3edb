import Mathlib.Algebra.Order.Ring.Unbundled.Rat
import TunnelMesh.Vpn.FlowTable
import TunnelMesh.Vpn.PeerTable
import TunnelMesh.Vpn.Wire

namespace TunnelMesh.Vpn

structure PacketBucket where
  rate : ℚ
  capacity : ℚ
  tokens : ℚ
  last : ℕ

namespace PacketBucket

-- The rounding of an operation to float64. Nothing below depends on it.
variable (round : ℚ → ℚ)

def rateOf (rate : ℤ) : ℚ := if 0 < rate then round rate else 0

def new (rate : ℤ) (now : ℕ) : PacketBucket :=
  ⟨rateOf round rate, rateOf round rate, rateOf round rate, now⟩

def seconds (elapsed : ℕ) : ℚ :=
  round (round (elapsed / 10 ^ 9 : ℕ) + round (round (elapsed % 10 ^ 9 : ℕ) / 10 ^ 9))

def refill (b : PacketBucket) (now : ℕ) : PacketBucket :=
  if b.last < now then
    { b with
      last := now
      tokens := min (round (b.tokens + round (b.rate * seconds round (now - b.last)))) b.capacity }
  else b

def allow (b : PacketBucket) (now : ℕ) : Bool × PacketBucket :=
  if b.rate ≤ 0 then (true, b)
  else
    let b := b.refill round now
    if b.tokens < 1 then (false, b) else (true, { b with tokens := round (b.tokens - 1) })

def HasBudget (b : PacketBucket) (now : ℕ) : Prop := 0 < b.rate → 1 ≤ (b.refill round now).tokens

theorem hasBudget_of_allow {b : PacketBucket} (h : (b.allow round now).1) : b.HasBudget round now := by
  intro hr
  simp only [allow, if_neg (not_le.mpr hr)] at h
  by_contra hs
  rw [if_pos (not_le.mp hs)] at h
  cases h

end PacketBucket

inductive PacketRelay where
  | tcp
  | udp
  | icmp
  deriving DecidableEq

def PacketRelay.name : PacketRelay → String
  | .tcp => "tcp"
  | .udp => "udp"
  | .icmp => "icmp"

structure Gateway where
  peers : PeerTable
  buckets : Dict String PacketBucket
  packetRatePerPeer : ℤ
  selfAddress : Option ℕ
  relays : List PacketRelay

structure Denial where
  peerID : String
  errorClass : ErrorClass
  reason : String
  protocol : ProtocolLabel
  dest : Option ℕ
  port : ℕ
  deriving DecidableEq

-- What the pipeline does with a packet: the drop metric, the denial record, and
-- the call of a relay's handler.
inductive PacketEffect where
  | dropped (protocol : ProtocolLabel) (errorClass : ErrorClass)
  | recorded (denial : Denial)
  | served (relay : PacketRelay) (entry : PeerEntry) (parsed : WirePacket)
  deriving DecidableEq

def protocolLabel (number : UInt8) : ProtocolLabel :=
  if number = protocolTCP then .tcp
  else if number = protocolUDP then .udp
  else if number = protocolICMP then .icmpEcho
  else .unparsed

def denyUnparsed (cause : WireError) : List PacketEffect :=
  [.dropped .unparsed .protocolUnsupported,
    .recorded ⟨"", .protocolUnsupported, "the datagram could not be parsed: " ++ cause.message, .unparsed, none, 0⟩]

def denyPacket (parsed : WirePacket) (entry : Option PeerEntry) (errorClass : ErrorClass) (reason : String) :
    List PacketEffect :=
  [.dropped (protocolLabel parsed.protocol) errorClass,
    .recorded ⟨(entry.map PeerEntry.peerID).getD "", errorClass, reason, protocolLabel parsed.protocol,
      some parsed.dst, parsed.dstPort⟩]

def peerRefusalReason : ErrorClass → String
  | .peerRevoked => "the peer is disabled or revoked"
  | .peerExpired => "the peer configuration has expired"
  | _ => "the source address does not belong to a peer of this gateway"

namespace Gateway

variable (g : Gateway)

-- The part of `handlePacket` before the rate limit. A fragment is looked up only
-- to name its peer.
def resolve (packet : List UInt8) (now : ℕ) : Except (List PacketEffect) (PeerEntry × WirePacket) :=
  match parseWirePacket packet with
  | .error e => .error (denyUnparsed e)
  | .ok parsed =>
    if parsed.fragment then
      .error (denyPacket parsed
        (match g.peers.lookupByIP parsed.src now with
          | .error (entry, _) => entry
          | .ok entry => some entry)
        .fragmentDropped "fragmented packets are not forwarded")
    else
      match g.peers.lookupByIP parsed.src now with
      | .error (entry, errorClass) => .error (denyPacket parsed entry errorClass (peerRefusalReason errorClass))
      | .ok entry => .ok (entry, parsed)

def effectiveRate (rateLimit : ℤ) : ℤ := if rateLimit ≤ 0 then g.packetRatePerPeer else rateLimit

-- Peers without a limit share a bucket that is not kept here.
def bucketFor (round : ℚ → ℚ) (g : Gateway) (entry : PeerEntry) (now : ℕ) : PacketBucket × Gateway :=
  if g.effectiveRate entry.rateLimit ≤ 0 then (.new round 0 now, g)
  else
    match g.buckets.lookup entry.peerID with
    | some bucket => (bucket, g)
    | none =>
      let bucket : PacketBucket := .new round (g.effectiveRate entry.rateLimit) now
      (bucket, { g with buckets := g.buckets.insert entry.peerID bucket })

def forgetBucket (peerID : String) : Gateway := { g with buckets := g.buckets.erase peerID }

def dispatch (relay : PacketRelay) (entry : PeerEntry) (parsed : WirePacket) : List PacketEffect :=
  if relay ∈ g.relays then [.served relay entry parsed]
  else denyPacket parsed entry .stackError ("the " ++ relay.name ++ " relay is not installed in this build")

def route (entry : PeerEntry) (parsed : WirePacket) : List PacketEffect :=
  if g.selfAddress = some parsed.dst then
    denyPacket parsed entry .targetDenied "the gateway's own vpn address is not an internal service"
  else
    match entry.policy.allow parsed.policyPacket with
    | .error e => denyPacket parsed entry e.errorClass e.reason
    | .ok () =>
      if parsed.protocol = protocolTCP then g.dispatch .tcp entry parsed
      else if parsed.protocol = protocolUDP then g.dispatch .udp entry parsed
      else if parsed.protocol = protocolICMP then
        if parsed.isICMPEchoRequest then g.dispatch .icmp entry parsed
        else
          denyPacket parsed entry .protocolUnsupported
            ("icmp type " ++ toString parsed.icmpType.toNat ++ " code " ++ toString parsed.icmpCode.toNat ++
              " is not relayed")
      else
        denyPacket parsed entry .protocolUnsupported
          ("ip protocol " ++ toString parsed.protocol.toNat ++ " is not forwarded")

-- The readings of the clock for one packet: in the lookup, for a new bucket, and
-- in the bucket.
structure PacketClock where
  looked : ℕ
  created : ℕ
  metered : ℕ

def putBucket (entry : PeerEntry) (bucket : PacketBucket) : Gateway :=
  if g.effectiveRate entry.rateLimit ≤ 0 then g
  else { g with buckets := g.buckets.insert entry.peerID bucket }

def handlePacket (round : ℚ → ℚ) (g : Gateway) (packet : List UInt8) (clock : PacketClock) :
    Gateway × List PacketEffect :=
  match g.resolve packet clock.looked with
  | .error effects => (g, effects)
  | .ok (entry, parsed) =>
    let (bucket, g) := g.bucketFor round entry clock.created
    let (allowed, bucket) := bucket.allow round clock.metered
    let g := g.putBucket entry bucket
    if allowed then (g, g.route entry parsed)
    else (g, denyPacket parsed entry .rateLimited "the peer exceeded its packet rate limit")

end Gateway

end TunnelMesh.Vpn

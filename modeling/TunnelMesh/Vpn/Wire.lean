import TunnelMesh.Bytes
import TunnelMesh.Vpn.PacketPolicy

namespace TunnelMesh.Vpn

open Bytes (slice bigEndian)

inductive WireError where
  | notIPv4
  | shortPacket
  | truncatedTransport

def WireError.message : WireError → String
  | .notIPv4 => "vpn: the tunnel carries ipv4 only"
  | .shortPacket => "vpn: packet is shorter than the ipv4 header it declares"
  | .truncatedTransport => "vpn: the transport header is truncated"

structure WirePacket where
  version : UInt8
  protocol : UInt8
  src : ℕ
  dst : ℕ
  size : ℕ
  fragment : Bool
  malformed : Bool
  srcPort : ℕ := 0
  dstPort : ℕ := 0
  tcpFlags : UInt8 := 0
  icmpType : UInt8 := 0
  icmpCode : UInt8 := 0
  icmpID : ℕ := 0
  icmpSeq : ℕ := 0
  payload : List UInt8 := []
  deriving DecidableEq

def ipv4HeaderMinimum : ℕ := 20
def tcpHeaderMinimum : ℕ := 20
def udpHeader : ℕ := 8
def icmpHeader : ℕ := 8

-- `binary.BigEndian.Uint16(b[i:i+2])`.
def word (b : List UInt8) (i : ℕ) : ℕ := bigEndian (slice b i (i + 2))

variable (parsed : WirePacket) (body : List UInt8)

def parseTCP : Except WireError WirePacket :=
  let dataOffset := (body.getD 12 0 >>> 4).toNat * 4
  if body.length < tcpHeaderMinimum then .error .truncatedTransport
  else if dataOffset < tcpHeaderMinimum ∨ body.length < dataOffset then .error .truncatedTransport
  else .ok
    { parsed with
      srcPort := word body 0
      dstPort := word body 2
      tcpFlags := body.getD 13 0
      payload := body.drop dataOffset }

def parseUDP : Except WireError WirePacket :=
  if body.length < udpHeader then .error .truncatedTransport
  else .ok
    { parsed with
      srcPort := word body 0
      dstPort := word body 2
      malformed := parsed.malformed || word body 4 ≠ body.length
      payload := body.drop udpHeader }

def parseICMP : Except WireError WirePacket :=
  if body.length < icmpHeader then .error .truncatedTransport
  else .ok
    { parsed with
      icmpType := body.getD 0 0
      icmpCode := body.getD 1 0
      icmpID := word body 4
      icmpSeq := word body 6
      payload := body.drop icmpHeader }

def parseTransport : Except WireError WirePacket :=
  if parsed.protocol = protocolTCP then parseTCP parsed body
  else if parsed.protocol = protocolUDP then parseUDP parsed body
  else if parsed.protocol = protocolICMP then parseICMP parsed body
  else .ok { parsed with payload := body }

variable (packet : List UInt8)

-- More fragments, or an offset.
def isFragment : Bool :=
  word packet 6 &&& 0x2000 ≠ 0 || word packet 6 &&& 0x1fff ≠ 0

def headerLength : ℕ := (packet.getD 0 0 &&& 0x0f).toNat * 4

-- The declared length wins over padding, and the bytes received over a longer
-- declared length.
def parseHeader : WirePacket where
  version := 4
  protocol := packet.getD 9 0
  src := bigEndian (slice packet 12 16)
  dst := bigEndian (slice packet 16 20)
  size := min (word packet 2) packet.length
  fragment := isFragment packet
  malformed := packet.length < word packet 2

def parseWirePacket : Except WireError WirePacket :=
  if packet.length < ipv4HeaderMinimum then .error .shortPacket
  else if packet.getD 0 0 >>> 4 ≠ 4 then .error .notIPv4
  else if headerLength packet < ipv4HeaderMinimum ∨ packet.length < headerLength packet then .error .shortPacket
  else if word packet 2 < headerLength packet then .error .shortPacket
  else
    let parsed := parseHeader packet
    if parsed.fragment then .ok parsed
    else parseTransport parsed (slice packet (headerLength packet) parsed.size)

namespace WirePacket

def isICMPEchoRequest (p : WirePacket) : Bool := p.protocol = protocolICMP && p.icmpType = 8 && p.icmpCode = 0

def policyPacket (p : WirePacket) : Packet where
  protocol := p.protocol
  source := p.src
  dest := some p.dst
  port := p.dstPort
  size := p.size
  fragment := p.fragment

structure SameHeader (p q : WirePacket) : Prop where
  protocol : q.protocol = p.protocol
  src : q.src = p.src
  dst : q.dst = p.dst
  size : q.size = p.size
  fragment : q.fragment = p.fragment

end WirePacket

theorem parseTransport_sameHeader {body : List UInt8} (h : parseTransport p body = .ok q) : p.SameHeader q := by
  simp only [parseTransport, parseTCP, parseUDP, parseICMP] at h
  split_ifs at h <;> cases h <;> exact ⟨rfl, rfl, rfl, rfl, rfl⟩

theorem parseWirePacket_eq_ok {packet : List UInt8} {parsed : WirePacket} (h : parseWirePacket packet = .ok parsed) :
    packet.getD 0 0 >>> 4 = 4 ∧ (parseHeader packet).SameHeader parsed := by
  rw [parseWirePacket, guard_eq_ok, guard_eq_ok, guard_eq_ok, guard_eq_ok] at h
  obtain ⟨-, hv, -, -, h⟩ := h
  refine ⟨not_not.mp hv, ?_⟩
  dsimp only at h
  split_ifs at h
  · cases h; exact ⟨rfl, rfl, rfl, rfl, rfl⟩
  · exact parseTransport_sameHeader h

end TunnelMesh.Vpn

import TunnelMesh.Vpn.Gateway

namespace TunnelMesh.Vpn

-- A goroutine of the data plane: one that has looked its peer up and has not
-- called `bucketFor` yet, with the row of `returned` at its lookup, or one with
-- a flow to register.
inductive Handler where
  | looked (entry : PeerEntry) (parsed : WirePacket) (since : Option VPNPeer)
  | registering (reg : FlowRegistration)

def Handler.peerID : Handler → String
  | .looked entry _ _ => entry.peerID
  | .registering reg => reg.key.peerID

def Handler.rateLimit : Handler → Option ℤ
  | .looked entry _ _ => some entry.rateLimit
  | .registering _ => none

-- The flow of a packet that a relay serves. A TCP segment is injected, and the
-- flow is the one of the connection.
def PacketRelay.registration (entry : PeerEntry) (parsed : WirePacket) : PacketRelay → Option FlowRegistration
  | .tcp => none
  | .udp => some ⟨⟨entry.peerID, .udp, ⟨parsed.src, parsed.srcPort⟩, ⟨parsed.dst, parsed.dstPort⟩⟩, entry.peerLimit⟩
  | .icmp =>
    some ⟨⟨entry.peerID, .icmpEcho, ⟨parsed.src, parsed.icmpID⟩, ⟨parsed.dst, parsed.icmpSeq⟩⟩, entry.peerLimit⟩

def PacketEffect.registration : PacketEffect → Option FlowRegistration
  | .served relay entry parsed => relay.registration entry parsed
  | _ => none

def connPacket (remote target : AddrPort) : WirePacket where
  version := 4
  protocol := protocolTCP
  src := remote.addr
  dst := target.addr
  size := 0
  fragment := false
  malformed := false
  srcPort := remote.port
  dstPort := target.port

-- The gateway in use. `current` is the call that has the writer lock and `hooks`
-- what its hooks have still to do. The rest is a record: of the last row of a
-- peer whose `ApplyPeer` returned and that no call has touched since, of the
-- peers whose `RemovePeer` returned and that were not applied since, and of the
-- buckets of the packets that looked up and metered under such a row.
structure GatewayRun where
  gateway : Gateway
  flows : FlowState
  current : Option PeerCall
  hooks : List HookAction
  handlers : List Handler
  returned : String → Option VPNPeer
  revoked : Finset String
  metered : List (VPNPeer × PacketBucket)

inductive GatewayLabel where
  | packet (bytes : List UInt8) (now : ℕ)
  | connect (remote target : AddrPort) (now : ℕ)
  | meter (i now : ℕ) (allowed : Bool)
  | register (i : ℕ) (now : ℤ)
  | leave (i : ℕ)
  | flow (label : FlowLabel)
  | call (call : PeerCall)
  | hook
  | finish

def FlowLabel.registers : FlowLabel → Bool
  | .register _ _ => true
  | _ => false

def GatewayLabel.isHook : GatewayLabel → Bool
  | .hook => true
  | _ => false

namespace GatewayRun

def init (peers : PeerTableConfig) (flows : FlowTableConfig) (packetRatePerPeer : ℤ) (selfAddress : Option ℕ)
    (relays : List PacketRelay) : GatewayRun where
  gateway := ⟨.new peers, ∅, packetRatePerPeer, selfAddress, relays⟩
  flows := .init flows
  current := none
  hooks := []
  handlers := []
  returned _ := none
  revoked := ∅
  metered := []

-- The lookup of a packet. One that is refused before it leaves nothing behind.
def arrive (s : GatewayRun) (bytes : List UInt8) (now : ℕ) : GatewayRun :=
  match s.gateway.resolve bytes now with
  | .error _ => s
  | .ok (entry, parsed) => { s with handlers := s.handlers ++ [.looked entry parsed (s.returned entry.peerID)] }

def connect (s : GatewayRun) (remote target : AddrPort) (now : ℕ) : GatewayRun :=
  match s.gateway.peers.lookupByIP remote.addr now with
  | .error _ => s
  | .ok entry =>
    if (entry.policy.allow (connPacket remote target).policyPacket).isOk then
      { s with handlers := s.handlers ++ [.registering ⟨⟨entry.peerID, .tcp, remote, target⟩, entry.peerLimit⟩] }
    else s

variable (round : ℚ → ℚ) (d : Decoders)

-- `bucketFor` and what `handlePacket` does after it, up to a registration. The
-- answer of the bucket is open.
def meter (s : GatewayRun) (i now : ℕ) (allowed : Bool) (entry : PeerEntry) (parsed : WirePacket)
    (since : Option VPNPeer) : GatewayRun :=
  let found := s.gateway.bucketFor round entry now
  { s with
    gateway := found.2
    handlers := s.handlers.eraseIdx i ++
      if allowed then ((s.gateway.route entry parsed).filterMap PacketEffect.registration).map .registering else []
    metered := (if since = s.returned entry.peerID then since.toList.map (·, found.1) else []) ++ s.metered }

def start (s : GatewayRun) (call : PeerCall) (peerID : String) (result : PeerTable × List HookAction) : GatewayRun :=
  { s with
    gateway := { s.gateway with peers := result.1 }
    current := some call
    hooks := result.2
    returned := fun p => if p = peerID ∨ result.1.peers.lookup p = none then none else s.returned p }

def begin (s : GatewayRun) : PeerCall → GatewayRun
  | .apply row readings =>
    match s.gateway.peers.applyPeer d row readings with
    | .error _ => s
    | .ok result => { s.start (.apply row readings) row.id result with revoked := s.revoked.erase row.id }
  | .remove peerID => s.start (.remove peerID) peerID (s.gateway.peers.removePeer peerID)

def act (s : GatewayRun) : HookAction → GatewayRun
  | .forgetBucket peerID => { s with gateway := s.gateway.forgetBucket peerID }
  | .closePeer peerID => { s with flows := s.flows.detach (s.flows.table.closePeer peerID) }
  | .installDevicePeer _ | .removeDevicePeer _ _ => s

def finished (s : GatewayRun) (call : PeerCall) : GatewayRun :=
  match call with
  | .apply row _ => { s with current := none, returned := fun p => if p = row.id then some row else s.returned p }
  | .remove peerID => { s with current := none, revoked := insert peerID s.revoked }

def step (s : GatewayRun) : GatewayLabel → Option GatewayRun
  | .packet bytes now => some (s.arrive bytes now)
  | .connect remote target now => some (s.connect remote target now)
  | .meter i now allowed =>
    match s.handlers[i]? with
    | some (.looked entry parsed since) => some (s.meter round i now allowed entry parsed since)
    | _ => none
  | .register i now =>
    match s.handlers[i]? with
    | some (.registering reg) =>
      some { s with flows := s.flows.register reg now, handlers := s.handlers.eraseIdx i }
    | _ => none
  -- A relay may have no room for the flow, or may have it already.
  | .leave i =>
    match s.handlers[i]? with
    | some (.registering _) => some { s with handlers := s.handlers.eraseIdx i }
    | _ => none
  | .flow label => if label.registers then none else (s.flows.step label).map fun flows => { s with flows }
  | .call call => if s.current = none then some (s.begin d call) else none
  | .hook =>
    match s.hooks with
    | [] => none
    | action :: rest => some { s.act action with hooks := rest }
  | .finish => if s.hooks = [] then s.current.map s.finished else none

end GatewayRun

end TunnelMesh.Vpn

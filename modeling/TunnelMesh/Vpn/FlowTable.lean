import TunnelMesh.Dict
import TunnelMesh.Transition
import Mathlib.Algebra.Order.Group.Nat

namespace TunnelMesh.Vpn

structure AddrPort where
  addr : ℕ
  port : ℕ
  deriving DecidableEq

inductive ProtocolLabel where
  | tcp
  | udp
  | icmpEcho
  | unparsed
  deriving DecidableEq

def ProtocolLabel.text : ProtocolLabel → String
  | .tcp => "tcp"
  | .udp => "udp"
  | .icmpEcho => "icmp-echo"
  | .unparsed => "unknown"

structure FlowKey where
  peerID : String
  protocol : ProtocolLabel
  src : AddrPort
  dst : AddrPort
  deriving DecidableEq

structure FlowRegistration where
  key : FlowKey
  peerLimit : ℤ

-- A registered flow. `ref` tells it from the other flows of its key, as the
-- pointer to it does. Instants are nanoseconds.
structure Flow where
  ref : ℕ
  key : FlowKey
  lastSeen : ℤ

inductive FlowError where
  | tableClosed
  | draining
  | peerFull (peerID : String) (limit : ℤ)
  | gatewayFull (limit : ℤ)

def errVPNFlowCapacity : String := "vpn: the flow limit is reached"

def FlowError.message : FlowError → String
  | .tableClosed => "vpn: the flow table is closed"
  | .draining => errVPNFlowCapacity ++ ": the gateway is draining"
  | .peerFull peerID limit =>
    errVPNFlowCapacity ++ ": peer " ++ peerID ++ " holds " ++ toString limit ++ " flows"
  | .gatewayFull limit => errVPNFlowCapacity ++ ": the gateway holds " ++ toString limit ++ " flows"

structure FlowTableConfig where
  maxFlowsPerPeer : ℤ
  maxFlowsTotal : ℤ
  idleTimeout : ℤ

structure FlowTable where
  perPeerLimit : ℤ
  totalLimit : ℤ
  idle : ℤ
  draining : Bool
  closed : Bool
  flows : Dict FlowKey Flow
  byPeer : Dict String (Dict FlowKey Unit)

namespace FlowTable

def new (config : FlowTableConfig) : FlowTable where
  perPeerLimit := max config.maxFlowsPerPeer 0
  totalLimit := max config.maxFlowsTotal 0
  idle := max config.idleTimeout 0
  draining := false
  closed := false
  flows := ∅
  byPeer := ∅

variable (t : FlowTable)

def group (peerID : String) : Dict FlowKey Unit := (t.byPeer.lookup peerID).getD ∅

def refs : List ℕ := t.flows.entries.map fun entry => entry.2.ref

def limit (peerLimit : ℤ) : ℤ :=
  if 0 < peerLimit ∧ (t.perPeerLimit ≤ 0 ∨ peerLimit < t.perPeerLimit) then peerLimit else t.perPeerLimit

def add (flow : Flow) : FlowTable :=
  { t with
    flows := t.flows.insert flow.key flow
    byPeer := t.byPeer.insert flow.key.peerID ((t.group flow.key.peerID).insert flow.key ()) }

-- The flow of the key, and whether the call created it. `ref` is the new pointer.
def register (reg : FlowRegistration) (now : ℤ) (ref : ℕ) :
    Except FlowError (FlowTable × Flow × Bool) :=
  if t.closed then .error .tableClosed
  else
    match t.flows.lookup reg.key with
    | some existing => .ok (t, existing, false)
    | none =>
      if t.draining then .error .draining
      else if 0 < t.limit reg.peerLimit ∧ t.limit reg.peerLimit ≤ (t.group reg.key.peerID).keys.length then
        .error (.peerFull reg.key.peerID (t.limit reg.peerLimit))
      else if 0 < t.totalLimit ∧ t.totalLimit ≤ t.flows.keys.length then
        .error (.gatewayFull t.totalLimit)
      else .ok (t.add ⟨ref, reg.key, now⟩, ⟨ref, reg.key, now⟩, true)

variable (key : FlowKey)

def unindex : Dict String (Dict FlowKey Unit) :=
  match t.byPeer.lookup key.peerID with
  | none => t.byPeer
  | some peers =>
    if (peers.erase key).keys.length = 0 then t.byPeer.erase key.peerID
    else t.byPeer.insert key.peerID (peers.erase key)

def detachLocked : FlowTable × Option Flow :=
  match t.flows.lookup key with
  | none => (t, none)
  | some flow => ({ t with flows := t.flows.erase key, byPeer := t.unindex key }, some flow)

def detachEach (t : FlowTable) : List FlowKey → FlowTable × List Flow
  | [] => (t, [])
  | key :: rest =>
    let detached := t.detachLocked key
    let others := detached.1.detachEach rest
    (others.1, detached.2.toList ++ others.2)

-- The operations under the lock. The flows they hand back are closed after it.
def remove : FlowTable × List Flow :=
  let detached := t.detachLocked key
  (detached.1, detached.2.toList)

def closePeer (peerID : String) : FlowTable × List Flow :=
  match t.byPeer.lookup peerID with
  | none => (t, [])
  | some peers =>
    let detached := t.detachEach peers.keys
    ({ detached.1 with byPeer := detached.1.byPeer.erase peerID }, detached.2)

def expired (now : ℤ) (key : FlowKey) : Bool :=
  (t.flows.lookup key).any fun flow => t.idle ≤ now - flow.lastSeen

def reapIdle (now : ℤ) : FlowTable × List Flow :=
  if t.idle ≤ 0 then (t, []) else t.detachEach (t.flows.keys.filter (t.expired now))

def drain : FlowTable := { t with draining := true }

def close : FlowTable × List Flow :=
  if t.closed then (t, []) else { t with closed := true, draining := true }.detachEach t.flows.keys

-- `Touch` of a flow, which the table sees where it still has this flow.
def touch (ref : ℕ) (now : ℤ) : FlowTable :=
  match t.flows.lookup key with
  | none => t
  | some flow =>
    if flow.ref = ref then { t with flows := t.flows.insert key { flow with lastSeen := now } } else t

end FlowTable

-- The table in use. `next` is the pointer of the next flow. A flow that left the
-- table is in `closing` until its `Close` runs, which any goroutine may do later.
-- `fired` remembers the hooks that ran.
structure FlowState where
  table : FlowTable
  next : ℕ
  closing : List ℕ
  fired : List ℕ

inductive FlowLabel where
  | register (reg : FlowRegistration) (now : ℤ)
  | remove (key : FlowKey)
  | closePeer (peerID : String)
  | reapIdle (now : ℤ)
  | drain
  | close
  | touch (key : FlowKey) (ref : ℕ) (now : ℤ)
  | hook (ref : ℕ)

namespace FlowState

def init (config : FlowTableConfig) : FlowState := ⟨FlowTable.new config, 0, [], []⟩

variable (s : FlowState)

def register (reg : FlowRegistration) (now : ℤ) : FlowState :=
  match s.table.register reg now s.next with
  | .ok (table, _, true) => { s with table, next := s.next + 1 }
  | _ => s

def detach (detached : FlowTable × List Flow) : FlowState :=
  { s with table := detached.1, closing := s.closing ++ detached.2.map Flow.ref }

-- `Close` of a flow. Its once-guard lets the hook run the first time only.
def runHook (ref : ℕ) : FlowState :=
  { s with
    closing := s.closing.erase ref
    fired := if ref ∈ s.fired then s.fired else s.fired ++ [ref] }

def step : FlowLabel → Option FlowState
  | .register reg now => some (s.register reg now)
  | .remove key => some (s.detach (s.table.remove key))
  | .closePeer peerID => some (s.detach (s.table.closePeer peerID))
  | .reapIdle now => some (s.detach (s.table.reapIdle now))
  | .drain => some { s with table := s.table.drain }
  | .close => some (s.detach s.table.close)
  | .touch key ref now => some { s with table := s.table.touch key ref now }
  | .hook ref => if ref ∈ s.closing then some (s.runHook ref) else none

end FlowState

end TunnelMesh.Vpn

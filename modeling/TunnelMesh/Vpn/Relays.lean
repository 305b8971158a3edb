import TunnelMesh.Vpn.FlowTable

namespace TunnelMesh.Vpn

-- A stream to an Agent. What arrived before `Close` can be read after it too.
structure EgressStream where
  unread : List UInt8
  closed : Bool
  deriving DecidableEq

-- The stream that a dial returned, whether the owner has it in its field, and
-- the once-guard of the function that closes it.
structure StreamSlot where
  stream : Option EgressStream
  stored : Bool
  released : Bool
  deriving DecidableEq

namespace StreamSlot

def empty : StreamSlot := ⟨none, false, false⟩

variable (slot : StreamSlot)

def store : StreamSlot := { slot with stream := some ⟨[], false⟩, stored := true }

def refuse : StreamSlot := { slot with stream := some ⟨[], true⟩ }

def release : StreamSlot :=
  if slot.released then slot
  else
    { stream := if slot.stored then slot.stream.map ({ · with closed := true }) else slot.stream
      stored := false
      released := true }

def arrive (bytes : List UInt8) : Option StreamSlot :=
  match slot.stream with
  | some ⟨unread, false⟩ => some { slot with stream := some ⟨unread ++ bytes, false⟩ }
  | _ => none

def read (n : ℕ) : Option (List UInt8 × StreamSlot) :=
  match slot.stream with
  | none => none
  | some stream =>
    if 0 < n ∧ n ≤ stream.unread.length then
      some (stream.unread.take n, { slot with stream := some { stream with unread := stream.unread.drop n } })
    else none

end StreamSlot

-- Where the goroutine of `vpnUDPFlow.run` stands, which becomes the writer.
-- `tearing` is between the two parts of `teardown`.
inductive UDPRun where
  | dialing
  | writing
  | tearing
  | returned
  deriving DecidableEq

inductive UDPPump where
  | unstarted
  | reading
  | holding (payload : List UInt8)
  | tearing
  | returned
  deriving DecidableEq

structure UDPFlow where
  key : FlowKey
  run : UDPRun
  pump : UDPPump
  slot : StreamSlot
  deriving DecidableEq

inductive EchoPhase where
  | dialing
  | exchanging
  | retiring
  | returned
  deriving DecidableEq

-- `aborted` is the flag that `abort` sets before it takes the lock.
structure ICMPEcho where
  key : FlowKey
  phase : EchoPhase
  aborted : Bool
  slot : StreamSlot
  deriving DecidableEq

inductive SessionPhase where
  | dialing
  | splicing
  | removing (spliced : Bool)
  | returned
  deriving DecidableEq

structure TCPSession where
  key : FlowKey
  phase : SessionPhase
  slot : StreamSlot
  deriving DecidableEq

-- The next thing that a goroutine of an owner does or that happens to its stream.
inductive RelayMove where
  | dialed (ok : Bool)
  | arrive (bytes : List UInt8)
  | read (n : ℕ)
  | emit (sent : Bool)
  | readFail
  | pumpRemove
  | writeFail
  | writerDone
  | runRemove
  | finish
  | timeout
  | remove

inductive RelayEffect where
  | nothing
  | remove
  | emit (payload : List UInt8)

def UDPFlow.move (a : UDPFlow) : RelayMove → Option (UDPFlow × RelayEffect)
  | .dialed ok =>
    if a.run = .dialing then
      some (if ok then { a with run := .writing, pump := .reading, slot := a.slot.store }
        else { a with run := .tearing, slot := a.slot.release }, .nothing)
    else none
  | .arrive bytes => (a.slot.arrive bytes).map fun slot => ({ a with slot }, .nothing)
  | .read n =>
    if a.pump = .reading then
      (a.slot.read n).map fun got => ({ a with pump := .holding got.1, slot := got.2 }, .nothing)
    else none
  | .emit sent =>
    match a.pump with
    | .holding payload => some ({ a with pump := .reading }, if sent then .emit payload else .nothing)
    | _ => none
  | .readFail =>
    if a.pump = .reading then some ({ a with pump := .tearing, slot := a.slot.release }, .nothing) else none
  | .pumpRemove => if a.pump = .tearing then some ({ a with pump := .returned }, .remove) else none
  | .writeFail =>
    if a.run = .writing then some ({ a with run := .tearing, slot := a.slot.release }, .nothing) else none
  | .writerDone =>
    if a.run = .writing ∧ a.slot.released then some ({ a with run := .returned }, .nothing) else none
  | .runRemove => if a.run = .tearing then some ({ a with run := .returned }, .remove) else none
  | .finish | .timeout | .remove => none

def ICMPEcho.abort (e : ICMPEcho) : ICMPEcho := { e with aborted := true, slot := e.slot.release }

def ICMPEcho.retire (e : ICMPEcho) : ICMPEcho := { e.abort with phase := .retiring }

-- `run` looks at the flag before it dials, and `attach` after.
def ICMPEcho.move (e : ICMPEcho) : RelayMove → Option (ICMPEcho × RelayEffect)
  | .dialed ok =>
    if e.phase = .dialing then
      if ok = false then some (e.retire, .nothing)
      else if e.aborted then some (ICMPEcho.retire { e with slot := e.slot.refuse }, .nothing)
      else some ({ e with phase := .exchanging, slot := e.slot.store }, .nothing)
    else none
  | .finish => if e.phase = .exchanging then some (e.retire, .nothing) else none
  | .timeout => if e.phase = .exchanging then some (e.abort, .nothing) else none
  | .remove => if e.phase = .retiring then some ({ e with phase := .returned }, .remove) else none
  | _ => none

def TCPSession.move (s : TCPSession) : RelayMove → Option (TCPSession × RelayEffect)
  | .dialed ok =>
    if s.phase = .dialing then
      some (if ok then { s with phase := .splicing, slot := s.slot.store }
        else { s with phase := .removing false }, .nothing)
    else none
  | .finish => if s.phase = .splicing then some ({ s with phase := .removing true }, .nothing) else none
  | .remove =>
    match s.phase with
    | .removing true => some ({ s with phase := .returned, slot := s.slot.release }, .remove)
    | .removing false => some ({ s with phase := .returned }, .remove)
    | _ => none
  | _ => none

inductive Owner where
  | udp (a : UDPFlow)
  | icmp (e : ICMPEcho)
  | tcp (s : TCPSession)
  deriving DecidableEq

namespace Owner

def key : Owner → FlowKey
  | .udp a => a.key
  | .icmp e => e.key
  | .tcp s => s.key

def move : Owner → RelayMove → Option (Owner × RelayEffect)
  | .udp a, m => (a.move m).map fun moved => (.udp moved.1, moved.2)
  | .icmp e, m => (e.move m).map fun moved => (.icmp moved.1, moved.2)
  | .tcp s, m => (s.move m).map fun moved => (.tcp moved.1, moved.2)

-- The hook of the flow: `retire` without its `forget`, `abort` and `teardown`.
def onClose : Owner → Owner
  | .udp a => .udp { a with slot := a.slot.release }
  | .icmp e => .icmp e.abort
  | .tcp s => .tcp { s with slot := s.slot.release }

def finished : Owner → Bool
  | .udp a => a.run = .returned && (a.pump = .unstarted || a.pump = .returned)
  | .icmp e => e.phase = .returned
  | .tcp s => s.phase = .returned

def start (key : FlowKey) : ProtocolLabel → Owner
  | .udp => .udp ⟨key, .dialing, .unstarted, .empty⟩
  | .icmpEcho => .icmp ⟨key, .dialing, false, .empty⟩
  | .tcp | .unparsed => .tcp ⟨key, .dialing, .empty⟩

end Owner

structure Removal where
  owner : ℕ
  flow : ℕ
  deriving DecidableEq

structure Emission where
  owner : ℕ
  payload : List UInt8
  late : Bool
  deriving DecidableEq

-- The flow table with the relays that use it. The owner of a flow has the index
-- that is the flow's pointer. `udp` is the map of the UDP relay. A flow in
-- `closing` waits for its `Close`, one in `forgetting` for the last part of it.
structure Relays where
  table : FlowTable
  udp : Dict FlowKey ℕ
  owners : List Owner
  closing : List ℕ
  forgetting : List ℕ
  closed : List ℕ
  removals : List Removal
  emissions : List Emission

inductive RelayLabel where
  | packet (reg : FlowRegistration) (now : ℤ)
  | closePeer (peerID : String)
  | reapIdle (now : ℤ)
  | drain
  | close
  | touch (key : FlowKey) (ref : ℕ) (now : ℤ)
  | hook (ref : ℕ)
  | forget (ref : ℕ)
  | move (ref : ℕ) (m : RelayMove)

namespace Relays

def init (config : FlowTableConfig) : Relays := ⟨FlowTable.new config, ∅, [], [], [], [], [], []⟩

variable (s : Relays)

-- The registration of a packet's flow, and the goroutine of a new owner. The UDP
-- relay has looked into its map before and enters the association.
def register (reg : FlowRegistration) (now : ℤ) : Relays :=
  match s.table.register reg now s.owners.length with
  | .ok (table, _, true) =>
    { s with
      table
      udp := if reg.key.protocol = .udp then s.udp.insert reg.key s.owners.length else s.udp
      owners := s.owners ++ [Owner.start reg.key reg.key.protocol] }
  | _ => s

def packet (reg : FlowRegistration) (now : ℤ) : Relays :=
  if reg.key.protocol = .udp ∧ (s.udp.lookup reg.key).isSome then s else s.register reg now

def detach (detached : FlowTable × List Flow) : Relays :=
  { s with table := detached.1, closing := s.closing ++ detached.2.map Flow.ref }

def isUDP : Owner → Bool
  | .udp _ => true
  | _ => false

def hook (ref : ℕ) (owner : Owner) : Relays :=
  { s with
    owners := s.owners.set ref owner.onClose
    closing := s.closing.erase ref
    forgetting := if isUDP owner then s.forgetting ++ [ref] else s.forgetting
    closed := s.closed ++ [ref] }

def removeFor (ref : ℕ) (key : FlowKey) : Relays :=
  let detached := s.table.remove key
  { s.detach detached with removals := s.removals ++ detached.2.map fun flow => ⟨ref, flow.ref⟩ }

def effect (ref : ℕ) (key : FlowKey) : RelayEffect → Relays
  | .nothing => s
  | .remove => s.removeFor ref key
  | .emit payload => { s with emissions := s.emissions ++ [⟨ref, payload, decide (ref ∈ s.closed)⟩] }

def step : RelayLabel → Option Relays
  | .packet reg now => some (s.packet reg now)
  | .closePeer peerID => some (s.detach (s.table.closePeer peerID))
  | .reapIdle now => some (s.detach (s.table.reapIdle now))
  | .drain => some { s with table := s.table.drain }
  | .close => some (s.detach s.table.close)
  | .touch key ref now => some { s with table := s.table.touch key ref now }
  | .hook ref => if ref ∈ s.closing then (s.owners[ref]?).map (s.hook ref) else none
  | .forget ref =>
    if ref ∈ s.forgetting then
      (s.owners[ref]?).map fun owner =>
        { s with udp := s.udp.erase owner.key, forgetting := s.forgetting.erase ref }
    else none
  | .move ref m => do
      let owner ← s.owners[ref]?
      let moved ← owner.move m
      some (Relays.effect { s with owners := s.owners.set ref moved.1 } ref owner.key moved.2)

end Relays

open Owner UDPFlow TCPSession Option

-- What a move leaves of an owner. Only a goroutine that has not returned removes,
-- and only a pump emits.
structure Advances (owner next : Owner) (e : RelayEffect) : Prop where
  key : next.key = owner.key
  finished : owner.finished → next.finished
  working : e = .remove → owner.finished = false
  emits : ∀ payload, e = .emit payload → ∃ a, owner = .udp a

theorem UDPFlow.advances (h : a.move m = some (next, e)) : Advances (.udp a) (.udp next) e := by
  have hu (payload : List UInt8) (_ : e = .emit payload) : ∃ b, Owner.udp a = .udp b := ⟨a, rfl⟩
  cases m with
  | arrive bytes =>
    obtain ⟨slot, -, hn⟩ := map_eq_some_iff.mp h
    cases hn
    exact ⟨rfl, id, by simp, hu⟩
  | read n =>
    rw [move] at h
    split_ifs at h with hp
    obtain ⟨got, -, hn⟩ := map_eq_some_iff.mp h
    cases hn
    exact ⟨rfl, by simp [finished, hp], by simp, hu⟩
  | emit sent =>
    rw [move] at h
    split at h <;> cases h
    next payload hp => exact ⟨rfl, by simp [finished, hp], by cases sent <;> simp, hu⟩
  | dialed ok | readFail | pumpRemove | writeFail | writerDone | runRemove =>
    rw [move] at h
    split_ifs at h with hp <;> cases h <;> exact ⟨rfl, by simp [finished, hp], by simp [finished, hp], hu⟩
  | finish | timeout | remove => cases h

theorem ICMPEcho.advances (h : e.move m = some (next, effect)) : Advances (.icmp e) (.icmp next) effect := by
  cases m with
  | dialed ok | finish | timeout | remove =>
    rw [ICMPEcho.move] at h
    split_ifs at h with hp <;> cases h <;> exact ⟨rfl, by simp [finished, hp], by simp [finished, hp], by simp⟩
  | _ => cases h

theorem TCPSession.advances (h : s.move m = some (next, e)) : Advances (.tcp s) (.tcp next) e := by
  cases m with
  | dialed ok | finish =>
    rw [move] at h
    split_ifs at h with hp <;> cases h <;> exact ⟨rfl, by simp [finished, hp], by simp, by simp⟩
  | remove =>
    rw [move] at h
    split at h <;> cases h
    all_goals next hp => exact ⟨rfl, by simp [finished], by simp [finished, hp], by simp⟩
  | _ => cases h

theorem Owner.advances (h : owner.move m = some (next, e)) : Advances owner next e := by
  cases owner <;>
    obtain ⟨⟨moved, effect⟩, hm, hn⟩ := map_eq_some_iff.mp h <;>
    cases hn
  · exact UDPFlow.advances hm
  · exact ICMPEcho.advances hm
  · exact TCPSession.advances hm

end TunnelMesh.Vpn

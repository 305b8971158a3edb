import TunnelMesh.Protocol.Frame
import TunnelMesh.Protocol.StreamState

namespace TunnelMesh.Protocol

structure StreamMachine where
  id : UInt32
  status : StreamStatus
  sendWindow : UInt32
  receiveWindow : UInt32

inductive MachineError where
  | stream (e : StreamError)
  | frame (e : FrameError)

abbrev MachineOutcome := StreamMachine × Option MachineError

def newStreamMachine (id initialWindow : UInt32) : Except FrameError StreamMachine :=
  if id = 0 then .error .invalidFrame
  else
    let window := if initialWindow = 0 then 65535 else initialWindow
    .ok ⟨id, .idle, window, window⟩

namespace StreamMachine

variable (s : StreamMachine)

def openLocal : MachineOutcome :=
  if s.status ≠ .idle then (s, some (.stream .invalidTransition)) else ({ s with status := .opened }, none)

def halfCloseLocal : MachineOutcome :=
  match s.status with
  | .opened => ({ s with status := .halfClosedLocal }, none)
  | .halfClosedRemote => ({ s with status := .closed }, none)
  | .halfClosedLocal => (s, none)
  | .closed => (s, some (.stream .closed))
  | .reset => (s, some (.stream .reset))
  | .idle => (s, some (.stream .invalidTransition))

def halfCloseRemote : MachineOutcome :=
  match s.status with
  | .opened => ({ s with status := .halfClosedRemote }, none)
  | .halfClosedLocal => ({ s with status := .closed }, none)
  | .halfClosedRemote => (s, none)
  | .closed => (s, some (.stream .closed))
  | .reset => (s, some (.stream .reset))
  | .idle => (s, some (.stream .invalidTransition))

def reset : MachineOutcome :=
  if s.status = .reset then (s, some (.stream .reset))
  else if s.status = .closed then (s, some (.stream .closed))
  else ({ s with status := .reset }, none)

-- The sums of the two checks for an overflow are made in 64 bits.
def addSendWindow (n : UInt32) : MachineOutcome :=
  if s.status = .reset then (s, some (.stream .reset))
  else if s.status = .closed then (s, some (.stream .closed))
  else if 2 ^ 32 - 1 < s.sendWindow.toNat + n.toNat then (s, some (.stream .sendOverflow))
  else ({ s with sendWindow := s.sendWindow + n }, none)

def addReceiveWindow (n : UInt32) : MachineOutcome :=
  if s.status = .reset then (s, some (.stream .reset))
  else if s.status = .closed then (s, some (.stream .closed))
  else if 2 ^ 32 - 1 < s.receiveWindow.toNat + n.toNat then (s, some (.stream .receiveOverflow))
  else ({ s with receiveWindow := s.receiveWindow + n }, none)

def consumeSend (n : UInt32) : MachineOutcome :=
  if s.status = .reset then (s, some (.stream .reset))
  else if s.status = .closed ∨ s.status = .halfClosedLocal then (s, some (.stream .closed))
  else if s.sendWindow < n then (s, some (.stream .windowExhausted))
  else ({ s with sendWindow := s.sendWindow - n }, none)

def consumeReceive (n : UInt32) : MachineOutcome :=
  if s.receiveWindow < n then (s, some (.stream .windowExhausted))
  else ({ s with receiveWindow := s.receiveWindow - n }, none)

-- The cases of `Handle`, for a frame of the stream that `Validate` accepts.
def handleFrame (f : Frame) : MachineOutcome :=
  if f.type = FrameType.openStream then
    if s.status ≠ .idle then (s, some (.stream .invalidTransition))
    else ({ s with status := .opened, sendWindow := if f.window ≠ 0 then f.window else s.sendWindow }, none)
  else if f.type = FrameType.data then
    if s.status = .reset then (s, some (.stream .reset))
    else if s.status = .closed ∨ s.status = .halfClosedRemote ∨ s.status = .idle then (s, some (.stream .closed))
    else s.consumeReceive (UInt32.ofNat f.payload.length)
  else if f.type = FrameType.halfClose then
    match s.status with
    | .opened => ({ s with status := .halfClosedRemote }, none)
    | .halfClosedLocal => ({ s with status := .closed }, none)
    | .halfClosedRemote => (s, none)
    | .closed => (s, some (.stream .closed))
    | .reset => (s, some (.stream .reset))
    | .idle => (s, some (.stream .invalidTransition))
  else if f.type = FrameType.reset then
    if s.status = .reset then (s, some (.stream .reset))
    else if s.status = .closed then (s, some (.stream .closed))
    else ({ s with status := .reset }, none)
  else if f.type = FrameType.windowUpdate then
    if s.status = .reset then (s, some (.stream .reset))
    else if s.status = .closed then (s, some (.stream .closed))
    else if f.window = 0 ∨ 2 ^ 32 - 1 < s.sendWindow.toNat + f.window.toNat then (s, some (.frame .invalidFrame))
    else ({ s with sendWindow := s.sendWindow + f.window }, none)
  else (s, some (.frame .invalidFrame))

def handle (f : Frame) : MachineOutcome :=
  match f.validate with
  | .error e => (s, some (.frame e))
  | .ok () => if f.streamID ≠ s.id then (s, some (.frame .invalidFrame)) else s.handleFrame f

end StreamMachine

inductive StreamOperation where
  | openLocal
  | halfCloseLocal
  | halfCloseRemote
  | reset
  | consumeSend (n : UInt32)
  | addSendWindow (n : UInt32)
  | addReceiveWindow (n : UInt32)
  | handle (f : Frame)

def StreamMachine.operate (s : StreamMachine) : StreamOperation → MachineOutcome
  | .openLocal => s.openLocal
  | .halfCloseLocal => s.halfCloseLocal
  | .halfCloseRemote => s.halfCloseRemote
  | .reset => s.reset
  | .consumeSend n => s.consumeSend n
  | .addSendWindow n => s.addSendWindow n
  | .addReceiveWindow n => s.addReceiveWindow n
  | .handle f => s.handle f

namespace StreamOperation

def sendCredit : StreamOperation → ℕ
  | .addSendWindow n => n.toNat
  | .handle f => if f.type = FrameType.windowUpdate then f.window.toNat else 0
  | _ => 0

def sendConsumption : StreamOperation → ℕ
  | .consumeSend n => n.toNat
  | _ => 0

def receiveCredit : StreamOperation → ℕ
  | .addReceiveWindow n => n.toNat
  | _ => 0

def receiveConsumption : StreamOperation → ℕ
  | .handle f => if f.type = FrameType.data then f.payload.length else 0
  | _ => 0

def announcedWindow : StreamOperation → Option ℕ
  | .handle f => if f.type = FrameType.openStream ∧ f.window ≠ 0 then some f.window.toNat else none
  | _ => none

end StreamOperation

-- What the accepted operations add up to. An announced window takes the place of
-- the initial one, and what came before it counts no more for the send window.
structure StreamLedger where
  sendBase : ℤ
  sendCredits : ℤ
  sendConsumed : ℤ
  receiveBase : ℤ
  receiveCredits : ℤ
  receiveConsumed : ℤ

namespace StreamLedger

def opening (initialWindow : ℤ) : StreamLedger := ⟨initialWindow, 0, 0, initialWindow, 0, 0⟩

def receive (l : StreamLedger) (op : StreamOperation) : StreamLedger :=
  { l with
    receiveCredits := l.receiveCredits + op.receiveCredit
    receiveConsumed := l.receiveConsumed + op.receiveConsumption }

def record (l : StreamLedger) (op : StreamOperation) : StreamLedger :=
  match op.announcedWindow with
  | some window => { l.receive op with sendBase := window, sendCredits := 0, sendConsumed := 0 }
  | none =>
    { l.receive op with
      sendCredits := l.sendCredits + op.sendCredit
      sendConsumed := l.sendConsumed + op.sendConsumption }

end StreamLedger

def operateOne (s : StreamMachine × StreamLedger) (op : StreamOperation) : StreamMachine × StreamLedger :=
  ((s.1.operate op).1, if (s.1.operate op).2 = none then s.2.record op else s.2)

def operateAll (s : StreamMachine × StreamLedger) (ops : List StreamOperation) : StreamMachine × StreamLedger :=
  ops.foldl operateOne s

end TunnelMesh.Protocol

import TunnelMesh.Agent.StreamEntry
import TunnelMesh.Transition

namespace TunnelMesh.Relay

open Protocol Session
open Agent (Outcome frameSize)

variable {π : Type}

inductive UploadPump (π : Type) where
  | popping
  | writing (payload : π)
  | closing
  | completing
  | stopped

-- Where `relayToClient` stands: about to look for a control frame, with one in
-- hand, in `clientSendLimit`, in `Read`, in `waitForClientWindow`, about to
-- enqueue DATA, or at the end of file or the failure of `Read`.
inductive RelayLoop where
  | looking
  | forwarding (credit : ℕ)
  | limiting
  | reading (limit : ℕ)
  | consuming (n : ℕ)
  | sending (n : ℕ)
  | ending (failed : Bool)
  | returned
  deriving DecidableEq

-- `clientRelayStream`, with the control channel of its connection to the Agent
-- and the queue that the session's writer has for it. In the queues `none` is a
-- HALF_CLOSE, and the DATA for the Client is its length. `present` says that the
-- session has the stream; when it goes, the connection is closed. `pushing` says
-- that the frame loop has marked a HALF_CLOSE and not yet queued it.
structure ClientRelayStream (π : Type) where
  present : Bool
  inbound : FrameQueue (Option π)
  pump : UploadPump π
  clientHalfClosed : Bool
  pushing : Bool
  relayHalfClosed : Bool
  sendState : Option StreamState
  relay : RelayLoop
  control : List ℕ
  outbound : FrameQueue (Option ℕ)

inductive ClientLabel (π : Type) where
  | data (payload : π)
  | halfClose
  | pushHalfClose
  | windowUpdate (credit : ℕ)
  | reset
  | pump (outcome : Outcome)
  | agentCredit (credit : ℕ)
  | relay (outcome : Outcome)
  | read (n : ℕ)
  | readEnd (failed : Bool)
  | drain
  | closeWriter

def streamQueueBytes : ℕ := 262144

def controlSlots : ℕ := 16

namespace ClientRelayStream

def opened (initialWindow : ℕ) : ClientRelayStream π where
  present := true
  inbound := .empty (negotiateReceiveWindow initialWindow)
  pump := .popping
  clientHalfClosed := false
  pushing := false
  relayHalfClosed := false
  sendState := if 0 < initialWindow then some (openedState initialWindow) else none
  relay := .looking
  control := []
  outbound := .empty streamQueueBytes

variable (s : ClientRelayStream π)

def retire : ClientRelayStream π :=
  { s with present := false, inbound := { s.inbound with frames := [], closed := true } }

variable (size : π → ℕ)

-- DATA after a HALF_CLOSE is answered with a RESET and leaves the stream alone.
def handleData (s : ClientRelayStream π) (payload : π) : ClientRelayStream π :=
  if s.present = false ∨ s.clientHalfClosed then s
  else
    match s.inbound.tryPush (frameSize size) (some payload) with
    | some inbound => { s with inbound }
    | none => s.retire

def handleHalfClose : ClientRelayStream π :=
  if s.present = false then s else { s with clientHalfClosed := true, pushing := true }

def pushHalfClose (s : ClientRelayStream π) : ClientRelayStream π :=
  match s.inbound.tryPush (frameSize size) none with
  | some inbound => { s with inbound, pushing := false }
  | none => { s.retire with pushing := false }

def handleWindowUpdate (credit : ℕ) : ClientRelayStream π :=
  if s.present = false then s
  else
    match s.sendState with
    | none => s
    | some sendState =>
      match sendState.addSendWindow credit with
      | .ok sendState => { s with sendState := some sendState }
      | .error _ => s.retire

def pumpClientUpload (outcome : Outcome) : Option (ClientRelayStream π) :=
  match s.pump, outcome with
  | .popping, _ =>
    match s.inbound.pop with
    | some (some payload, inbound) => some { s with inbound, pump := .writing payload }
    | some (none, inbound) => some { s with inbound, pump := .closing }
    | none => if s.inbound.closed then some { s with pump := .stopped } else none
  | .writing _, .ok => some { s with pump := .popping }
  | .closing, .ok => some { s with pump := .completing }
  | .writing _, .failed | .closing, .failed => some { s.retire with pump := .stopped }
  | .completing, _ =>
    if s.relayHalfClosed then some { s.retire with pump := .popping } else some { s with pump := .popping }
  | .stopped, _ => none

-- `clientSendLimit` waits while there is no credit and the session has the
-- stream.
def clientSendLimit (bufferSize : ℕ) (s : ClientRelayStream π) : Option (ClientRelayStream π) :=
  match s.sendState with
  | none => some { s with relay := .reading bufferSize }
  | some sendState =>
    if 0 < sendState.sendWindow then some { s with relay := .reading (min sendState.sendWindow bufferSize) }
    else if s.present then none
    else some { s with relay := .returned }

def waitForClientWindow (n : ℕ) : Option (ClientRelayStream π) :=
  if s.present = false then some { s with relay := .returned }
  else
    match s.sendState with
    | none => some { s with relay := .sending n }
    | some sendState =>
      match sendState.consumeSend n with
      | .ok sendState => some { s with sendState := some sendState, relay := .sending n }
      | .error .windowExhausted => none
      | .error _ => some { s.retire with relay := .returned }

def enqueueData (n : ℕ) : ClientRelayStream π :=
  if s.present = false then { s with relay := .returned }
  else
    match s.outbound.tryPush (frameSize id) (some n) with
    | some outbound => { s with outbound, relay := .looking }
    | none => { s.retire with relay := .returned }

-- The end of file goes on to the Client. A refusal by the writer is ignored.
def endOfRead (failed : Bool) : ClientRelayStream π :=
  if s.present = false then { s with relay := .returned }
  else
    let ended := { s with relayHalfClosed := true, relay := .returned }
    if failed then ended.retire
    else
      let told := { ended with outbound := (s.outbound.tryPush (frameSize id) none).getD s.outbound }
      if s.clientHalfClosed then told.retire else told

def relayToClient (bufferSize : ℕ) (s : ClientRelayStream π) (outcome : Outcome) : Option (ClientRelayStream π) :=
  match s.relay with
  | .looking =>
    match s.control with
    | credit :: control => some { s with control, relay := .forwarding credit }
    | [] => some { s with relay := .limiting }
  | .forwarding _ =>
    if s.present = false then some { s with relay := .returned }
    else if s.outbound.closed ∨ outcome = .failed then some { s.retire with relay := .returned }
    else some { s with relay := .looking }
  | .limiting => s.clientSendLimit bufferSize
  | .consuming n => s.waitForClientWindow n
  | .sending n => some (s.enqueueData n)
  | .ending failed => some (s.endOfRead failed)
  | .reading _ | .returned => none

-- A `Read` of no bytes makes way for a control frame.
def readBytes (n : ℕ) : Option (ClientRelayStream π) :=
  match s.relay with
  | .reading limit =>
    if limit < n then none
    else some { s with relay := if n = 0 then .looking else .consuming n }
  | _ => none

def readEnd (failed : Bool) : Option (ClientRelayStream π) :=
  match s.relay with
  | .reading _ => some { s with relay := .ending failed }
  | _ => none

-- The frame loop takes the next frame when it is done with the last one. A
-- RESET of the Client and the end of the session retire the stream.
def step (bufferSize : ℕ) (s : ClientRelayStream π) : ClientLabel π → Option (ClientRelayStream π)
  | .data payload => if s.pushing then none else some (s.handleData size payload)
  | .halfClose => if s.pushing then none else some s.handleHalfClose
  | .pushHalfClose => if s.pushing then some (s.pushHalfClose size) else none
  | .windowUpdate credit => if s.pushing then none else some (s.handleWindowUpdate credit)
  | .reset => some s.retire
  | .pump outcome => s.pumpClientUpload outcome
  | .agentCredit credit =>
    some (if s.control.length < controlSlots then { s with control := s.control ++ [credit] } else s)
  | .relay outcome => s.relayToClient bufferSize outcome
  | .read n => s.readBytes n
  | .readEnd failed => s.readEnd failed
  | .drain => s.outbound.pop.map fun popped => { s with outbound := popped.2 }
  | .closeWriter => some { s with outbound := { s.outbound with frames := [], closed := true } }

end ClientRelayStream

end TunnelMesh.Relay

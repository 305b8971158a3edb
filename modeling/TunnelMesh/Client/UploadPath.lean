import TunnelMesh.Agent.StreamEntry.Theorems
import TunnelMesh.Relay.AgentStream.Write.Theorems
import TunnelMesh.Relay.ClientStream.Forwarding
import TunnelMesh.Relay.ClientStream.Shutdown

namespace TunnelMesh.Client

open Protocol Session
open Agent (EntryLabel EntryMoved Outcome StreamEntry frameSize)
open Relay (ClientLabel ClientRelayStream RelayError UploadPump WriteChoice Writer WriterMoved)

-- Where a call of the Client's `Write` stands with its last `rest` bytes: in
-- `waitForSendWindow`, or about to send a frame of `size` bytes.
inductive SendCall where
  | reserving (rest : ℕ)
  | sending (rest size : ℕ)
  | returned

def SendCall.hand : SendCall → ℕ
  | .sending _ size => size
  | .reserving _ | .returned => 0

-- The write side of a `frameStream` with its calls. `live` says that the session
-- has the stream and that it has not failed.
structure Sender where
  flow : StreamState
  calls : List SendCall
  live : Bool

namespace Sender

def opened : Sender := ⟨openedState 262144, [], true⟩

variable (s : Sender)

def fail : Sender := { s with live := false }

def write (n : ℕ) : Sender :=
  if n = 0 ∨ s.live = false then s else { s with calls := s.calls ++ [.reserving n] }

def reserve (i : ℕ) : Option Sender :=
  match s.calls[i]? with
  | some (.reserving rest) =>
    let size := min rest maxStreamFrame
    match s.flow.consumeSend size with
    | .ok flow => some { s with flow, calls := s.calls.set i (.sending rest size) }
    | .error .windowExhausted => some (if s.live then s else { s with calls := s.calls.set i .returned })
    | .error _ => some { s with calls := s.calls.set i .returned }
  | _ => none

def send (i : ℕ) (outcome : Outcome) : Option (Sender × List (Option ℕ)) :=
  match s.calls[i]? with
  | some (.sending rest size) =>
    match outcome with
    | .ok =>
      let call := if rest ≤ size then .returned else .reserving (rest - size)
      some ({ s with calls := s.calls.set i call }, [some size])
    | .failed => some ({ s with calls := s.calls.set i .returned }, [])
  | _ => none

def credit (n : ℕ) : Sender :=
  if s.live = false then s
  else
    match s.flow.addSendWindow n with
    | .ok flow => { s with flow }
    | .error _ => s.fail

end Sender

-- The upload of a stream, from the Client by way of the Server to the Agent.
-- The frames on their way are lengths, a `none` is a HALF_CLOSE. Of the
-- Server's stream to the Agent there is the credit, the call of `Write` that
-- `pumpClientUpload` is in, whether it has failed (`attached`) and whether the
-- Agent's end of file has closed `done`. `updates` and `toClient` are
-- WINDOW_UPDATEs on their way to the Server and the Client. `reset` says that
-- an end has sent a RESET.
structure UploadPath where
  sender : Sender
  toServer : List (Option ℕ)
  server : ClientRelayStream ℕ
  sendState : StreamState
  writer : Writer
  attached : Bool
  ended : Bool
  toAgent : List (Option ℕ)
  agent : StreamEntry ℕ
  updates : List ℕ
  toClient : List ℕ
  reset : Bool

inductive PathLabel where
  | write (n : ℕ)
  | reserve (i : ℕ)
  | send (i : ℕ) (outcome : Outcome)
  | closeWrite
  | fail
  | receive
  | server (label : ClientLabel ℕ)
  | pump (outcome : Outcome)
  | writer (choice : WriteChoice)
  | agentEnd
  | detach
  | handle
  | agent (label : EntryLabel ℕ)
  | credit
  | deliver

-- The steps of the Server's stream that are neither about an upload frame, nor
-- the pump's, nor the arrival of the Agent's credit.
def besideUpload : ClientLabel ℕ → Bool
  | .data _ | .halfClose | .pump _ | .agentCredit _ => false
  | _ => true

def ofAgent : EntryLabel ℕ → Bool
  | .data _ | .halfClose => false
  | _ => true

namespace UploadPath

-- The Client's window and that of the Agent are the same; `inboundBytes` is the
-- Agent's queue, and `window` the Server's for the other direction.
def opened (inboundBytes window : ℕ) : UploadPath where
  sender := .opened
  toServer := []
  server := .opened 262144
  sendState := openedState defaultAgentReceiveWindow
  writer := .idle
  attached := true
  ended := false
  toAgent := []
  agent := .opened inboundBytes window
  updates := []
  toClient := []
  reset := false

variable (p : UploadPath)

def writeError : Option RelayError := if p.attached then none else some .disconnected

def doneError : Option RelayError :=
  if p.attached = false then some .disconnected else if p.ended then some .eof else none

variable (bufferSize : ℕ) (p : UploadPath)

def receive : Option UploadPath :=
  match p.toServer with
  | [] => none
  | some n :: toServer =>
    (p.server.step id bufferSize (.data n)).map fun server =>
      { p with toServer, server, reset := p.reset || (p.server.accepts id (.data n)).isEmpty }
  | none :: toServer =>
    (p.server.step id bufferSize .halfClose).map fun server => { p with toServer, server }

def pump (outcome : Outcome) : Option UploadPath :=
  match p.server.pump with
  | .writing _ => none
  | _ =>
    (p.server.step id bufferSize (.pump outcome)).map fun server =>
      let sent : List (Option ℕ) := if p.server.callsCloseWrite (.pump outcome) then [none] else []
      { p with server, toAgent := p.toAgent ++ sent }

def wrote (outcome : Outcome) : Option UploadPath :=
  (p.server.step id bufferSize (.pump outcome)).map fun server => { p with server, writer := .idle }

def sent (moved : WriterMoved) : UploadPath :=
  { p with
    sendState := moved.sendState
    writer := moved.writer
    toAgent := p.toAgent ++ moved.chunk.toList.map fun chunk => some chunk.2
    attached := p.attached && !moved.failed }

def advance (choice : WriteChoice) : Option UploadPath :=
  match p.server.pump, p.writer with
  | .writing n, .idle =>
    if n = 0 then p.wrote bufferSize .ok
    else if maxPayload < n then p.wrote bufferSize .failed
    else some { p with writer := .reserving 0 n }
  | .writing _, writer =>
    match writer.move p.writeError p.doneError p.sendState choice with
    | none => none
    | some moved =>
      match moved.result with
      | none => some (p.sent moved)
      | some (_, none) => (p.sent moved).wrote bufferSize .ok
      | some (_, some _) => (p.sent moved).wrote bufferSize .failed
  | _, _ => none

def agentMoved (moved : EntryMoved ℕ) : UploadPath :=
  { p with agent := moved.entry, updates := p.updates ++ moved.updates, reset := p.reset || moved.reset }

def handle : Option UploadPath :=
  match p.toAgent with
  | [] => none
  | some n :: toAgent => (p.agent.step id bufferSize (.data n)).map (agentMoved { p with toAgent })
  | none :: toAgent => (p.agent.step id bufferSize .halfClose).map (agentMoved { p with toAgent })

-- The Agent's credit goes to the Server's own window and to the mirror, if the
-- transport still has the stream.
def credit : Option UploadPath :=
  match p.updates with
  | [] => none
  | n :: updates =>
    if p.attached = false then some { p with updates }
    else (p.server.step id bufferSize (.agentCredit n)).map fun server =>
      { p with updates, server, sendState := (p.sendState.addSendWindow n).toOption.getD p.sendState }

def deliver : Option UploadPath :=
  match p.toClient with
  | [] => none
  | n :: toClient => some { p with toClient, sender := p.sender.credit n }

def step : PathLabel → Option UploadPath
  | .write n => some { p with sender := p.sender.write n }
  | .reserve i => (p.sender.reserve i).map fun sender => { p with sender }
  | .send i outcome =>
    (p.sender.send i outcome).map fun sent => { p with sender := sent.1, toServer := p.toServer ++ sent.2 }
  | .closeWrite => some { p with toServer := p.toServer ++ [none] }
  | .fail => some { p with sender := p.sender.fail }
  | .receive => p.receive bufferSize
  | .server label =>
    if besideUpload label then
      (p.server.step id bufferSize label).map fun server =>
        { p with server, toClient := p.toClient ++ p.server.forwards label }
    else none
  | .pump outcome => p.pump bufferSize outcome
  | .writer choice => p.advance bufferSize choice
  | .agentEnd => some { p with ended := true }
  | .detach => some { p with attached := false }
  | .handle => p.handle bufferSize
  | .agent label => if ofAgent label then (p.agent.step id bufferSize label).map p.agentMoved else none
  | .credit => p.credit bufferSize
  | .deliver => p.deliver

def held : UploadPump ℕ → Writer → ℕ
  | .writing n, .idle => n
  | .writing _, writer => writer.left
  | _, _ => 0

def outside : ℕ :=
  p.sender.flow.sendWindow + (p.sender.calls.map SendCall.hand).sum + (p.toServer.map (frameSize id)).sum +
    p.server.inbound.bytes (frameSize id) + (p.toAgent.map (frameSize id)).sum + p.agent.intake.carried id +
    p.updates.sum + p.server.control.sum + p.server.relay.carried.sum + p.toClient.sum

-- The Client's window, the bytes on their way to the target, those that the Agent
-- has not yet acknowledged, and the credit on its way back.
def total : ℕ := p.outside + held p.server.pump p.writer

@[mk_iff] structure Live : Prop where
  sender : p.sender.live
  server : p.server.present
  attached : p.attached
  agent : p.agent.present
  reset : p.reset = false

-- The mirror has a free slot for the Agent's credit, the Agent's session takes
-- its WINDOW_UPDATEs, and the Client's session the DATA that credit was reserved
-- for.
def Carries : PathLabel → Prop
  | .credit => p.server.control.length < Relay.controlSlots
  | .agent label => p.agent.losesUpdate label = false
  | .send _ outcome => outcome = .ok
  | _ => True

def Conserved : Prop := p.Live → p.total = 262144

end UploadPath

end TunnelMesh.Client

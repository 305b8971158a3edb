import TunnelMesh.Protocol.StreamState
import TunnelMesh.Session.FrameQueue

namespace TunnelMesh.Agent

open Protocol Session

variable {π : Type}

inductive Pump (π : Type) where
  | popping
  | writing (payload : π)
  | closing
  | releasing (written : ℕ)
  | flushing (update : ℕ)
  | posting (update : ℕ)
  | stopped
  deriving DecidableEq

-- The part of a `streamEntry` that takes in what the Server sends. In the queue
-- `none` is a HALF_CLOSE.
structure Intake (π : Type) where
  receiveState : StreamState
  receiveUnacked : ℕ
  inbound : FrameQueue (Option π)
  pump : Pump π

inductive Outcome where
  | ok
  | failed
  deriving DecidableEq

inductive AdmitError where
  | stream (e : StreamError)
  | queueFull

def frameSize (size : π → ℕ) (frame : Option π) : ℕ := frame.elim 0 size

namespace Intake

def opened (inboundBytes : ℕ) : Intake π :=
  ⟨openedState defaultAgentReceiveWindow, 0, .empty inboundBytes, .popping⟩

def admitInbound (size : π → ℕ) (q : Intake π) (payload : π) : Except AdmitError (Intake π) :=
  match q.receiveState.handleData (size payload) with
  | .error e => .error (.stream e)
  | .ok receiveState =>
    match q.inbound.tryPush (frameSize size) (some payload) with
    | none => .error .queueFull
    | some inbound => .ok { q with receiveState, inbound }

variable (q : Intake π)

def releaseReceiveWindow (written : ℕ) : Intake π :=
  if written = 0 then { q with pump := .popping }
  else
    let unacked := uint32 (q.receiveUnacked + uint32 written)
    if shouldFlushWindowUpdate q.receiveState.receiveWindow unacked defaultWindowUpdateThreshold then
      { q with receiveUnacked := 0, pump := .flushing unacked }
    else { q with receiveUnacked := unacked, pump := .popping }

def addReceiveWindow (update : ℕ) : Intake π :=
  match q.receiveState.addReceiveWindow update with
  | .ok receiveState => { q with receiveState, pump := .posting update }
  | .error _ => { q with pump := .popping }

def pop : Option (Intake π) :=
  match q.inbound.pop with
  | some (some payload, inbound) => some { q with inbound, pump := .writing payload }
  | some (none, inbound) => some { q with inbound, pump := .closing }
  | none => if q.inbound.closed then some { q with pump := .stopped } else none

def stopInbound : Intake π := { q with inbound := { q.inbound with frames := [], closed := true } }

def finishInbound : Intake π := { q with inbound := { q.inbound with closed := true } }

end Intake

inductive Back (π : Type) where
  | reading
  | reserving (payload : π) (last : Bool)
  | sending (payload : π) (last : Bool)
  | ending
  | stopped

def Back.isReading : Back π → Bool
  | .reading => true
  | _ => false

structure StreamEntry (π : Type) where
  present : Bool
  intake : Intake π
  sendState : StreamState
  localHalf : Bool
  remoteHalf : Bool
  back : Back π

inductive EntryLabel (π : Type) where
  | data (payload : π)
  | halfClose
  | windowUpdate (credit : ℕ)
  | pump (outcome : Outcome)
  | target (payload : π) (last : Bool)
  | targetEnd
  | back (outcome : Outcome)
  | targetError
  | retire
  deriving DecidableEq

def EntryLabel.own : EntryLabel π → Bool
  | .data _ | .halfClose | .windowUpdate _ => false
  | _ => true

structure EntryMoved (π : Type) where
  entry : StreamEntry π
  data : List (Option π)
  updates : List ℕ
  reset : Bool

namespace StreamEntry

def opened (inboundBytes window : ℕ) : StreamEntry π :=
  ⟨true, .opened inboundBytes, openedState window, false, false, .reading⟩

def quietly (entry : StreamEntry π) : EntryMoved π := ⟨entry, [], [], false⟩

variable (e : StreamEntry π)

def removeAndClose : StreamEntry π := { e with present := false, intake := e.intake.stopInbound }

def rejectAndClose : EntryMoved π := ⟨e.removeAndClose, [], [], true⟩

variable (size : π → ℕ) (e : StreamEntry π)

def handleData (payload : π) : EntryMoved π :=
  if e.present = false then ⟨e, [], [], true⟩
  else if e.localHalf then e.rejectAndClose
  else
    match e.intake.admitInbound size payload with
    | .ok intake => quietly { e with intake }
    | .error _ => e.rejectAndClose

def handleHalfClose : EntryMoved π :=
  if e.present = false ∨ e.localHalf then quietly e
  else
    let inbound := (e.intake.inbound.tryPush (frameSize size) none).getD e.intake.inbound
    quietly { e with localHalf := true, intake := { e.intake with inbound } }

def handleWindowUpdate (credit : ℕ) : EntryMoved π :=
  if e.present = false then quietly e
  else
    match e.sendState.addSendWindow credit with
    | .ok sendState => quietly { e with sendState }
    | .error _ => e.rejectAndClose

def closeTargetWrite : StreamEntry π :=
  let e : StreamEntry π := { e with intake := { e.intake with pump := .popping } }
  if e.remoteHalf then e.removeAndClose else e

def pumpFailed : EntryMoved π :=
  let moved := e.rejectAndClose
  { moved with entry := { moved.entry with intake := { moved.entry.intake with pump := .stopped } } }

def pumpTarget : Outcome → Option (EntryMoved π)
  | outcome =>
    match e.intake.pump with
    | .popping => e.intake.pop.map fun intake => quietly { e with intake }
    | .writing payload =>
      match outcome with
      | .ok => some (quietly { e with intake := { e.intake with pump := .releasing (size payload) } })
      | .failed => some e.pumpFailed
    | .closing =>
      match outcome with
      | .ok => some (quietly e.closeTargetWrite)
      | .failed => some e.pumpFailed
    | .releasing written => some (quietly { e with intake := e.intake.releaseReceiveWindow written })
    | .flushing update => some (quietly { e with intake := e.intake.addReceiveWindow update })
    | .posting update =>
      let entry := { e with intake := { e.intake with pump := .popping } }
      match outcome with
      | .ok => some ⟨entry, [], [update], false⟩
      | .failed => some (quietly entry)
    | .stopped => none

-- `waitForSendWindow` takes the credit for the whole payload. When the dispatcher
-- no longer has the entry it gives up waiting and lets the payload pass.
def waitForSendWindow (payload : π) (last : Bool) : StreamEntry π :=
  match e.sendState.consumeSend (size payload) with
  | .ok sendState => { e with sendState, back := .sending payload last }
  | .error .windowExhausted => if e.present then e else { e with back := .sending payload last }
  | .error _ => { e.removeAndClose with back := .stopped }

def endOfFile : Outcome → EntryMoved π
  | outcome =>
    if e.present = false then quietly { e with back := .stopped }
    else
      match outcome with
      | .failed => ⟨{ e.removeAndClose with remoteHalf := true, back := .stopped }, [], [], true⟩
      | .ok =>
        if e.localHalf then
          ⟨{ e with present := false, intake := e.intake.finishInbound, remoteHalf := true, back := .stopped },
            [none], [], false⟩
        else ⟨{ e with remoteHalf := true, back := .stopped }, [none], [], false⟩

def readBack : Outcome → Option (EntryMoved π)
  | outcome =>
    match e.back with
    | .reading => none
    | .reserving payload last => some (quietly (e.waitForSendWindow size payload last))
    | .sending payload last =>
      match outcome with
      | .ok => some ⟨{ e with back := if last then .ending else .reading }, [some payload], [], false⟩
      | .failed => some ⟨{ e.removeAndClose with back := .stopped }, [], [], true⟩
    | .ending => some (e.endOfFile outcome)
    | .stopped => none

-- `bufferSize` bounds what one read of the target gives.
def step (bufferSize : ℕ) (e : StreamEntry π) : EntryLabel π → Option (EntryMoved π)
  | .data payload => some (e.handleData size payload)
  | .halfClose => some (e.handleHalfClose size)
  | .windowUpdate credit => some (e.handleWindowUpdate credit)
  | .pump outcome => e.pumpTarget size outcome
  | .target payload last =>
    if e.back.isReading ∧ 0 < size payload ∧ size payload ≤ bufferSize then
      some (quietly { e with back := .reserving payload last })
    else none
  | .targetEnd => if e.back.isReading then some (quietly { e with back := .ending }) else none
  | .back outcome => e.readBack size outcome
  | .targetError =>
    if e.back.isReading then some ⟨{ e.removeAndClose with back := .stopped }, [], [], true⟩ else none
  | .retire => some (quietly e.removeAndClose)

end StreamEntry

end TunnelMesh.Agent

import TunnelMesh.Protocol.StreamState
import TunnelMesh.Session.FrameQueue
import TunnelMesh.Transition

namespace TunnelMesh.Client

open Protocol Session

variable {α : Type}

inductive StreamEnd where
  | eof
  | reset
  | windowExhausted
  | protocol (e : StreamError)
  deriving DecidableEq

-- The fields of `frameStream` that its read side uses. Without flow control
-- there is no `flow`, and `registered` says that the session still has the
-- stream.
structure FrameStream (α : Type) where
  readQueue : FrameQueue (List α)
  readBuf : List α
  readSignal : Bool
  err : Option StreamEnd
  done : Bool
  flow : Option StreamState
  receiveUnacked : ℕ
  registered : Bool

namespace FrameStream

def opened (inboundBytes : ℕ) (flow : Option StreamState) : FrameStream α where
  readQueue := .empty inboundBytes
  readBuf := []
  readSignal := false
  err := none
  done := false
  flow := flow
  receiveUnacked := 0
  registered := true

-- `finish` counts once. Its section and the closing of `done` are one step.
def finish (s : FrameStream α) (e : StreamEnd) : FrameStream α :=
  if s.done then s else { s with err := some e, done := true }

def releaseReceiveWindow (threshold : ℕ) (s : FrameStream α) (n : ℕ) : FrameStream α × ℕ :=
  match s.flow with
  | none => (s, 0)
  | some flow =>
    if n = 0 then (s, 0)
    else
      let unacked := uint32 (s.receiveUnacked + uint32 n)
      if shouldFlushWindowUpdate flow.receiveWindow unacked threshold then ({ s with receiveUnacked := 0 }, unacked)
      else ({ s with receiveUnacked := unacked }, 0)

def refill (s : FrameStream α) (update : ℕ) : FrameStream α × List ℕ :=
  match s.flow with
  | none => (s, [])
  | some flow =>
    match flow.addReceiveWindow update with
    | .ok flow => ({ s with flow := some flow }, [update])
    | .error _ => (s, [])

end FrameStream

inductive Reader (α : Type) where
  | idle
  | looking (size : ℕ)
  | popping (size : ℕ)
  | appending (size : ℕ) (payload : List α)
  | checking (size : ℕ)
  | waiting (size : ℕ)
  | draining (size : ℕ)
  | ending
  | releasing (bytes : List α)
  | flushing (bytes : List α) (update : ℕ)

inductive Wake where
  | data
  | done
  deriving DecidableEq

structure Moved (α : Type) where
  stream : FrameStream α
  reader : Reader α
  result : Option (List α × Option StreamEnd)
  updates : List ℕ

def popped (s : FrameStream α) (size : ℕ) (none : Reader α) : Moved α :=
  match s.readQueue.pop with
  | .none => ⟨s, none, .none, []⟩
  | .some (payload, readQueue) =>
    let s := { s with readQueue }
    if 0 < payload.length then ⟨s, .appending size payload, .none, []⟩ else ⟨s, .looking size, .none, []⟩

def Reader.move (threshold : ℕ) (s : FrameStream α) : Reader α → Wake → Option (Moved α)
  | .idle, _ => none
  | .looking size, _ =>
    if 0 < s.readBuf.length then
      some ⟨{ s with readBuf := s.readBuf.drop size }, .releasing (s.readBuf.take size), none, []⟩
    else some ⟨s, .popping size, none, []⟩
  | .popping size, _ => some (popped s size (.checking size))
  | .appending size payload, _ => some ⟨{ s with readBuf := s.readBuf ++ payload }, .looking size, none, []⟩
  | .checking size, _ =>
    match s.err with
    | some e => some ⟨s, .idle, some ([], some e), []⟩
    | none => some ⟨s, .waiting size, none, []⟩
  | .waiting size, .data =>
    if s.readSignal then some ⟨{ s with readSignal := false }, .looking size, none, []⟩ else none
  | .waiting size, .done => if s.done then some ⟨s, .draining size, none, []⟩ else none
  | .draining size, _ => some (popped s size .ending)
  | .ending, _ => some ⟨s, .idle, some ([], some (s.err.getD .eof)), []⟩
  | .releasing bytes, _ =>
    let (released, update) := s.releaseReceiveWindow threshold bytes.length
    if update = 0 then some ⟨released, .idle, some (bytes, none), []⟩
    else some ⟨released, .flushing bytes update, none, []⟩
  | .flushing bytes update, _ =>
    let (refilled, updates) := s.refill update
    some ⟨refilled, .idle, some (bytes, none), updates⟩

inductive Frame (α : Type) where
  | data (payload : List α)
  | halfClose
  | windowUpdate (credit : ℕ)
  | reset

-- Where the session's receive loop stands with a frame of the stream. At its
-- end the stream may leave the session.
inductive Receiver (α : Type) where
  | idle
  | admitting (payload : List α)
  | pushing (payload : List α)
  | finishing (e : StreamEnd) (remove : Bool)

-- The read side of a stream: one caller of `Read`, and the receive loop. The
-- payloads that were queued and the results of `Read` are recorded.
structure Reading (α : Type) where
  stream : FrameStream α
  reader : Reader α
  receiver : Receiver α
  outbox : List ℕ
  accepted : List (List α)
  results : List (List α × Option StreamEnd)

inductive ReadLabel (α : Type) where
  | read (size : ℕ)
  | advance (wake : Wake)
  | frame (f : Frame α)
  | receive

namespace Reading

def opened (inboundBytes : ℕ) (flow : Option StreamState) : Reading α :=
  ⟨.opened inboundBytes flow, .idle, .idle, [], [], []⟩

variable (r : Reading α)

def read (size : ℕ) : Option (Reading α) :=
  match r.reader with
  | .idle =>
    if size = 0 then some { r with results := r.results ++ [([], none)] }
    else some { r with reader := .looking size }
  | _ => none

def advance (threshold : ℕ) (r : Reading α) (wake : Wake) : Option (Reading α) :=
  (r.reader.move threshold r.stream wake).map fun moved =>
    { r with
      stream := moved.stream
      reader := moved.reader
      outbox := r.outbox ++ moved.updates
      results := r.results ++ moved.result.toList }

-- The credit of a WINDOW_UPDATE for the stream's writer; one that does not fit
-- ends the stream.
def credited (credit : ℕ) : Reading α :=
  match r.stream.flow with
  | none => r
  | some flow =>
    match flow.addSendWindow credit with
    | .ok flow => { r with stream := { r.stream with flow := some flow } }
    | .error e => { r with receiver := .finishing (.protocol e) true }

def dispatch : Frame α → Reading α
  | .data payload => if r.stream.done then r else { r with receiver := .admitting payload }
  | .halfClose => { r with receiver := .finishing .eof false }
  | .windowUpdate credit => r.credited credit
  | .reset => { r with receiver := .finishing .reset true }

def frame (f : Frame α) : Option (Reading α) :=
  match r.receiver with
  | .idle => if r.stream.registered = false then some r else some (r.dispatch f)
  | _ => none

def handleFlow (payload : List α) : Reading α :=
  match r.stream.flow with
  | none => { r with receiver := .pushing payload }
  | some flow =>
    match flow.handleData payload.length with
    | .ok flow => { r with stream := { r.stream with flow := some flow }, receiver := .pushing payload }
    | .error e => { r with receiver := .finishing (.protocol e) true }

def push (payload : List α) : Reading α :=
  match r.stream.readQueue.tryPush List.length payload with
  | some readQueue =>
    { r with
      stream := { r.stream with readQueue, readSignal := true }
      receiver := .idle
      accepted := r.accepted ++ [payload] }
  | none => { r with receiver := .finishing .windowExhausted true }

def receive : Option (Reading α) :=
  match r.receiver with
  | .idle => none
  | .admitting payload => some (r.handleFlow payload)
  | .pushing payload => some (r.push payload)
  | .finishing e remove =>
    let stream := r.stream.finish e
    some { r with stream := { stream with registered := stream.registered && !remove }, receiver := .idle }

def step (threshold : ℕ) (r : Reading α) : ReadLabel α → Option (Reading α)
  | .read size => r.read size
  | .advance wake => r.advance threshold wake
  | .frame f => r.frame f
  | .receive => r.receive

end Reading

end TunnelMesh.Client
